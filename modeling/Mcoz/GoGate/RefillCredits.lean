/-
The credits behind the tokens of the Go gate.

`doRefill` multiplies the tokens that it asks for by the count of its snapshot, in 64 bits, and sends the
product. `doRefill_added` lists its deeds when it adds its tokens; `refill_backed_iff` says when every
token stands for the configured count of credits: as long as neither the product nor the statistic
leaves the 64 bits.
-/

import Mcoz.GoGate.Accounting

set_option autoImplicit false

namespace Mcoz.GoGate

open Word Machine Threads Program

section Refill

variable {cfg : Config} {tokensReq : Int64} {reason : Bytes} {deeds : List GateDeed}
  {result : ArmResult} {refill : Refill} {gate : Gate}

/-- A refill that adds tokens has read the configuration and has sent a request for the product, which
was answered ok. -/
theorem doRefill_added (walk : (doRefill cfg tokensReq reason).Walk deeds result)
    (added : .ran (.refillOK refill) gate ∈ deeds) :
    ∃ (configured : Gate) (now : Int64) (request : ArmCall) (answer : Answer (.arm request)),
      deeds = [.ran .look configured, .asked .unixMicro now, .asked (.arm request) answer,
        .ran (.refillOK refill) gate] ∧
      (armResult answer).ok = true ∧ 0 < tokensReq ∧ 0 < configured.armCount ∧
      refill = ⟨tokensReq, configured.armDelayNs, configured.armCount⟩ ∧
      request.delayNs = refill.delayNs ∧ request.count = refill.credits := by
  unfold doRefill at walk
  by_cases nothing : tokensReq ≤ 0
  · rw [if_pos nothing] at walk
    rw [(walk_pure.mp walk).1] at added
    cases added
  rw [if_neg nothing] at walk
  obtain ⟨_, snapshot, after, rfl, look, branch⟩ := walk_bind.mp walk
  obtain ⟨configured, rfl, rfl⟩ := walk_perform.mp look
  by_cases invalid : configured.snapshot.active = false ∨ configured.snapshot.delayNs ≤ 0 ∨
      configured.snapshot.count ≤ 0
  · rw [if_pos invalid] at branch
    rw [(walk_pure.mp branch).1] at added
    cases List.mem_singleton.mp added
  rw [if_neg invalid] at branch
  obtain ⟨_, now, later, rfl, clock, sends⟩ := walk_bind.mp branch
  rw [walk_ask.mp clock] at added ⊢
  obtain ⟨_, result, last, rfl, armed, credit⟩ := walk_bind.mp sends
  obtain ⟨request, answer, rfl, rfl, delay, count⟩ := armOnce_walk armed
  have positive : 0 < configured.armCount :=
    Int64.not_le.mp fun low => invalid (Or.inr (Or.inr low))
  split at credit
  · rename_i ok
    obtain ⟨gate', rfl, -⟩ := walk_perform.mp credit
    simp only [List.cons_append, List.nil_append, List.mem_cons, List.not_mem_nil, or_false] at added
    rcases added with absurd | absurd | absurd | same
    · cases absurd
    · cases absurd
    · cases absurd
    · cases same
      exact ⟨configured, now, request, answer, rfl, ok, Int64.not_le.mp nothing, positive, rfl, delay,
        count⟩
  · obtain ⟨gate', rfl, -⟩ := walk_perform.mp credit
    simp at added

/-- What stands behind the tokens that a refill adds: the request that it sent was for as many credits as
the configured count times the tokens, and the statistic grew by them, exactly if the product and the new
statistic fit into 64 bits. -/
theorem refill_backed_iff (walk : (doRefill cfg tokensReq reason).Walk deeds result)
    (added : .ran (.refillOK refill) gate ∈ deeds) :
    ∃ (configured : Gate) (now : Int64) (request : ArmCall) (answer : Answer (.arm request)),
      deeds = [.ran .look configured, .asked .unixMicro now, .asked (.arm request) answer,
        .ran (.refillOK refill) gate] ∧
      (armResult answer).ok = true ∧
      (Critical.apply (.refillOK refill) gate).creditBalance = gate.creditBalance + tokensReq ∧
      ((request.count.toInt = tokensReq.toInt * configured.armCount.toInt ∧
          (Critical.apply (.refillOK refill) gate).st.refillCreditsAdd.toInt =
            gate.st.refillCreditsAdd.toInt + tokensReq.toInt * configured.armCount.toInt) ↔
        tokensReq.toInt * configured.armCount.toInt < 2 ^ 63 ∧
          gate.st.refillCreditsAdd.toInt + tokensReq.toInt * configured.armCount.toInt < 2 ^ 63) := by
  obtain ⟨configured, now, request, answer, shape, ok, tokens, count, rfl, -, sent⟩ :=
    doRefill_added walk added
  refine ⟨configured, now, request, answer, shape, ok, rfl, ?_⟩
  have nonneg : 0 ≤ tokensReq.toInt * configured.armCount.toInt :=
    Int.mul_nonneg (Int64.le_iff_toInt_le.mp (Int64.le_of_lt tokens))
      (Int64.le_iff_toInt_le.mp (Int64.le_of_lt count))
  have product : request.count.toInt = tokensReq.toInt * configured.armCount.toInt ↔
      tokensReq.toInt * configured.armCount.toInt < 2 ^ 63 := by
    rw [sent]
    exact toInt_mul_iff nonneg
  rw [product]
  refine and_congr_right fun fits => ?_
  have exactly : (tokensReq * configured.armCount).toInt =
      tokensReq.toInt * configured.armCount.toInt := (toInt_mul_iff nonneg).mpr fits
  show (gate.st.refillCreditsAdd + tokensReq * configured.armCount).toInt = _ ↔ _
  rw [← exactly]
  exact toInt_add_iff (exactly ▸ nonneg)

end Refill

/-- The deeds of a refill of 16 tokens for one credit each. -/
def smallRefill : List GateDeed :=
  [.ran .look (Gate.init true 10 1), .asked .unixMicro (0 : Int64),
    .asked (.arm ⟨ascii "refill-0", ascii "/refill/async", ascii "default", ascii "pod", ascii "app",
      ascii "default/pod/app", 10, 16⟩) (.ok ⟨200, []⟩),
    .ran (.refillOK ⟨16, 10, 1⟩) (Gate.init true 10 1)]

/-- The hypotheses of `refill_backed_iff` are met by a refill of 16 tokens. -/
theorem refill_backed_iff_small :
    (doRefill {} 16 (ascii "async")).Walk smallRefill ⟨true, 200, []⟩ ∧
    ∃ (configured : Gate) (now : Int64) (request : ArmCall) (answer : Answer (.arm request)),
      smallRefill = [.ran .look configured, .asked .unixMicro now, .asked (.arm request) answer,
        .ran (.refillOK ⟨16, 10, 1⟩) (Gate.init true 10 1)] ∧
      (armResult answer).ok = true ∧
      (Critical.apply (.refillOK ⟨16, 10, 1⟩) (Gate.init true 10 1)).creditBalance = 0 + 16 ∧
      ((request.count.toInt = (16 : Int64).toInt * configured.armCount.toInt ∧
          (Critical.apply (.refillOK ⟨16, 10, 1⟩) (Gate.init true 10 1)).st.refillCreditsAdd.toInt =
            (0 : Int64).toInt + (16 : Int64).toInt * configured.armCount.toInt) ↔
        (16 : Int64).toInt * configured.armCount.toInt < 2 ^ 63 ∧
          (0 : Int64).toInt + (16 : Int64).toInt * configured.armCount.toInt < 2 ^ 63) := by
  have walk : (doRefill {} 16 (ascii "async")).Walk smallRefill ⟨true, 200, []⟩ :=
    ⟨_, _, rfl, _, _, rfl, _, _, rfl, _, _, rfl, rfl, rfl⟩
  exact ⟨walk, refill_backed_iff walk (by simp [smallRefill])⟩

/-- `/set_enabled` with a count of 2^60 + 1, answered ok. -/
def wrappedRefill : List GateMove :=
  [.start 2 (.setEnabled true none (some 1152921504606846977)), .critical 2, .critical 2, .critical 2,
    .critical 2, .critical 2, .answer 2 okReply, .answer 2 okReply, .critical 2]

/-- The counts of the requests that the deeds sent. -/
def sentCounts (deeds : List GateDeed) : List Int64 :=
  deeds.filterMap fun deed =>
    match deed with
    | .ran _ _ => none
    | .asked .unixMicro _ => none
    | .asked (.arm request) _ => some request.count

/-- Sixteen tokens at a count of 2^60 + 1 are backed by a request for 16 credits, and the statistic
grows by 16. -/
theorem refill_wrapped : ∃ final,
    run (step {}) (Pool.init (Gate.init true 10 1)) wrappedRefill = some final ∧
      final.shared.creditBalance = 16 ∧ final.shared.armCount.toInt = 2 ^ 60 + 1 ∧
      sentCounts (trace (step {}) (Pool.deeds 2) (Pool.init (Gate.init true 10 1)) wrappedRefill) = [16] ∧
      final.shared.st.refillCreditsAdd = 16 ∧
      final.shared.st.refillCreditsAdd.toInt ≠ 0 + (16 : ℤ) * final.shared.armCount.toInt := by
  have shown : (run (step {}) (Pool.init (Gate.init true 10 1)) wrappedRefill).map (fun final =>
      (final.shared.creditBalance, final.shared.armCount, final.shared.st.refillCreditsAdd)) =
        some (16, 1152921504606846977, 16) := by
    decide +kernel
  obtain ⟨final, ran, values⟩ := Option.map_eq_some_iff.mp shown
  simp only [Prod.mk.injEq] at values
  obtain ⟨balance, count, credits⟩ := values
  refine ⟨final, ran, balance, ?_, by decide +kernel, credits, ?_⟩
  · rw [count]
    rfl
  · rw [count, credits]
    decide

end Mcoz.GoGate
