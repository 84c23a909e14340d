/-
The ledger of the gate's tokens.

`CREDIT_BALANCE_REQ` is written in four places: a refill adds its tokens, a trigger takes one, and the
resets of `_set_arm_active` and `_set_arm_config` drop them all. `tokenEntries` reads each of them as an
entry of a ledger, and the balance is what the ledger has on its only account (`ledger_of_run`). In token
mode no trigger is armed without a withdrawal of its own.
-/

import Mcoz.Lib.Ledger
import Mcoz.PyGate.Triggers

set_option autoImplicit false

namespace Mcoz.PyGate

open Machine Threads Program Pool Ledger

/-! ### Entries -/

/-- What a section does to the tokens of the gate that it finds. -/
def Critical.entries : Critical → Gate → List (Entry Unit)
  | .consumeCreditToken, gate => if 0 < gate.creditBalanceReq then [.withdraw () 1] else []
  | .refillOk refill, _ => [.deposit () refill.tokensReq.toNat]
  | .setArmActive active, gate =>
      if active then [] else [.discard () gate.creditBalanceReq.toNat]
  | .setArmConfig delayNs number, gate =>
      if gate.configChanged delayNs number then [.discard () gate.creditBalanceReq.toNat] else []
  | _, _ => []

/-- The entries of a step. -/
def tokenEntries (pool : GatePool) (move : GateMove) : List (Entry Unit) :=
  (pool.sections move).flatMap fun code => code.entries pool.shared

/-- The balance as a book. -/
def Gate.book (gate : Gate) : Book Unit :=
  fun _ => gate.creditBalanceReq.toNat

/-- The balance is not negative, and the statistic shows it. -/
structure Gate.Balanced (gate : Gate) : Prop where
  nonneg : 0 ≤ gate.creditBalanceReq
  shown : gate.stats.creditBalanceReq = gate.creditBalanceReq

section Sections

variable {gate : Gate} {code : Critical}

theorem Gate.Balanced.apply (balanced : gate.Balanced) (positive : code.Positive) :
    (code.apply gate).Balanced := by
  obtain ⟨nonneg, shown⟩ := balanced
  cases code with
  | count counter => cases counter <;> exact ⟨nonneg, shown⟩
  | consumeCreditToken =>
      show gate.consumeCreditToken.Balanced
      unfold Gate.consumeCreditToken
      split
      · rename_i available
        exact ⟨show 0 ≤ gate.creditBalanceReq - 1 by omega, rfl⟩
      · exact ⟨nonneg, shown⟩
  | refillOk refill =>
      have tokens : 0 < refill.tokensReq := positive
      exact ⟨show 0 ≤ gate.creditBalanceReq + refill.tokensReq by omega, rfl⟩
  | setArmActive active =>
      cases active with
      | false => exact ⟨le_refl _, rfl⟩
      | true => exact ⟨nonneg, shown⟩
  | setArmConfig delayNs number =>
      show (gate.setArmConfig delayNs number).Balanced
      unfold Gate.setArmConfig
      split
      · exact ⟨le_refl _, rfl⟩
      · exact ⟨nonneg, shown⟩
  | _ => exact ⟨nonneg, shown⟩

/-- A section posts its entries. -/
theorem run_entries (balanced : gate.Balanced) (positive : code.Positive) :
    run post gate.book (code.entries gate) = some (code.apply gate).book := by
  have nonneg := balanced.nonneg
  cases code with
  | consumeCreditToken =>
      show run post _ (ite _ _ _) = some gate.consumeCreditToken.book
      unfold Gate.consumeCreditToken
      split
      · rename_i available
        have covered : 1 ≤ gate.book () := show 1 ≤ gate.creditBalanceReq.toNat by omega
        refine (run_cons_of (post_withdraw_iff.mpr ⟨covered, rfl⟩)).trans ?_
        refine congrArg some (funext fun key => ?_)
        show gate.creditBalanceReq.toNat - 1 = (gate.creditBalanceReq - 1).toNat
        omega
      · rfl
  | refillOk refill =>
      have tokens : 0 < refill.tokensReq := positive
      refine congrArg some (funext fun key => ?_)
      show gate.creditBalanceReq.toNat + refill.tokensReq.toNat =
        (gate.creditBalanceReq + refill.tokensReq).toNat
      omega
  | setArmActive active =>
      cases active with
      | false => exact run_cons_of (post_discard_iff.mpr ⟨rfl, rfl⟩)
      | true => rfl
  | setArmConfig delayNs number =>
      show run post _ (ite _ _ _) = some (gate.setArmConfig delayNs number).book
      unfold Gate.setArmConfig
      split
      · exact run_cons_of (post_discard_iff.mpr ⟨rfl, rfl⟩)
      · rfl
  | _ => rfl

/-- `refill_tokens_added` counts the deposits, and a weight counts the withdrawals. -/
theorem entries_counted (positive : code.Positive) :
    (code.apply gate).stats.refillTokensAdded =
        gate.stats.refillTokensAdded + deposited () (code.entries gate) ∧
      (weigh code gate).2.2 = withdrawn () (code.entries gate) := by
  cases code with
  | count counter => cases counter <;> exact ⟨(add_zero _).symm, rfl⟩
  | consumeCreditToken =>
      simp only [Critical.apply, Gate.consumeCreditToken, weigh, Critical.entries]
      split <;> exact ⟨(add_zero _).symm, rfl⟩
  | refillOk refill =>
      have tokens : 0 < refill.tokensReq := positive
      refine ⟨?_, rfl⟩
      show gate.stats.refillTokensAdded + refill.tokensReq =
        gate.stats.refillTokensAdded + ((refill.tokensReq.toNat + 0 : ℕ) : ℤ)
      omega
  | setArmActive active => cases active <;> exact ⟨(add_zero _).symm, rfl⟩
  | setArmConfig delayNs number =>
      simp only [Critical.apply, Gate.setArmConfig, weigh, Critical.entries]
      split <;> exact ⟨(add_zero _).symm, rfl⟩
  | _ => exact ⟨(add_zero _).symm, rfl⟩

end Sections

/-! ### Runs -/

section Runs

variable {cfg : Config} {gate : Gate} {moves : List GateMove} {pool next final : GatePool}
  {move : GateMove}

/-- What every pool of a run has. -/
structure Sound (cfg : Config) (pool : GatePool) : Prop where
  balanced : pool.shared.Balanced
  own : pool.Only Critical.Positive (Call.Own cfg)

/-- The sections of a step find their state, one at most. -/
theorem step_cases (moved : step cfg pool move = some next) :
    (pool.sections move = [] ∧ next.shared = pool.shared) ∨
      ∃ code, pool.sections move = [code] ∧ next.shared = code.apply pool.shared ∧
        (pool.Only Critical.Positive (Call.Own cfg) → code.Positive) := by
  have shared := Pool.shared_of_step moved
  cases effect_of_step moved with
  | @ran thread code rest here =>
      have one : pool.sections (.critical thread : GateMove) = [code] := by
        simp [Pool.sections, here]
      refine Or.inr ⟨code, one, rfl, fun own => (own thread _ here).1⟩
  | _ => exact Or.inl ⟨rfl, rfl⟩

theorem Sound.step (sound : Sound cfg pool) (moved : step cfg pool move = some next) :
    Sound cfg next := by
  refine ⟨?_, Pool.Only.step own_performs.start sound.own moved⟩
  rcases step_cases moved with ⟨-, same⟩ | ⟨code, -, applied, positive⟩
  · rw [same]
    exact sound.balanced
  · rw [applied]
    exact sound.balanced.apply (positive sound.own)

theorem sound_init (balanced : gate.Balanced) : Sound cfg (Pool.init gate) :=
  ⟨balanced, by rintro thread program ⟨⟩⟩

theorem sound_of_run (balanced : gate.Balanced)
    (ran : run (step cfg) (Pool.init gate) moves = some final) : Sound cfg final :=
  run_history (motive := fun _ reached => Sound cfg reached) (sound_init balanced)
    (fun _ _ _ _ _ sound moved => sound.step moved) ran

/-- The balance of the gate is the balance of its ledger. -/
theorem ledger_of_run (balanced : gate.Balanced)
    (ran : run (step cfg) (Pool.init gate) moves = some final) :
    run post gate.book (trace (step cfg) tokenEntries (Pool.init gate) moves) =
      some final.shared.book := by
  have free : Along (step cfg) (fun _ _ => True) (Pool.init gate) moves :=
    along_of_forall (fun _ _ => trivial) moves
  refine @simulate _ _ _ _ (step cfg) tokenEntries post (fun pool => pool.shared.book) (Sound cfg)
    _ _ (sound_init balanced) (fun _ _ _ sound _ moved => sound.step moved) ?_ _ _ free ran
  intro pool move next sound _ moved
  rcases step_cases moved with ⟨nothing, same⟩ | ⟨code, one, applied, positive⟩
  · rw [tokenEntries, nothing, same]
    rfl
  · rw [tokenEntries, one, List.flatMap_singleton, applied]
    exact run_entries sound.balanced (positive sound.own)

/-- The deposits of a run are what `refill_tokens_added` grew by, its withdrawals are the tokens
taken. -/
theorem counted_of_run (balanced : gate.Balanced)
    (ran : run (step cfg) (Pool.init gate) moves = some final) :
    final.shared.stats.refillTokensAdded = gate.stats.refillTokensAdded +
        deposited () (trace (step cfg) tokenEntries (Pool.init gate) moves) ∧
      (trace (step cfg) (weights weigh) (Pool.init gate) moves).sum.2.2 =
        withdrawn () (trace (step cfg) tokenEntries (Pool.init gate) moves) := by
  refine (run_history (motive := fun past reached => Sound cfg reached ∧
    reached.shared.stats.refillTokensAdded = gate.stats.refillTokensAdded +
        deposited () (trace (step cfg) tokenEntries (Pool.init gate) past) ∧
      (trace (step cfg) (weights weigh) (Pool.init gate) past).sum.2.2 =
        withdrawn () (trace (step cfg) tokenEntries (Pool.init gate) past)) ?_ ?_ ran).2
  · exact ⟨sound_init balanced, (add_zero _).symm, rfl⟩
  · rintro past pool move next before ⟨sound, added, taken⟩ moved
    refine ⟨sound.step moved, ?_⟩
    rw [trace_concat before, trace_concat before, deposited_append, withdrawn_append,
      List.sum_append, Prod.snd_add, Prod.snd_add, taken]
    rcases step_cases moved with ⟨nothing, same⟩ | ⟨code, one, applied, positive⟩
    · rw [tokenEntries, weights, nothing, same, added]
      exact ⟨rfl, rfl⟩
    · obtain ⟨added', taken'⟩ := entries_counted (positive sound.own)
      rw [tokenEntries, weights, one, List.flatMap_singleton, List.map_singleton,
        List.sum_singleton, applied, added', taken', added]
      push_cast
      exact ⟨add_assoc _ _ _, rfl⟩

end Runs

/-- The number of successful `_consume_credit_token` calls of a run. -/
def consumedTokens (cfg : Config) (gate : Gate) (moves : List GateMove) : ℕ :=
  withdrawn () (trace (step cfg) tokenEntries (Pool.init gate) moves)

/-- The number of tokens that the resets of a run discarded. -/
def discardedTokens (cfg : Config) (gate : Gate) (moves : List GateMove) : ℕ :=
  discarded () (trace (step cfg) tokenEntries (Pool.init gate) moves)

/-- The tokens added are the balance, the tokens consumed and the tokens discarded; the balance is
not negative and the statistic shows it; and in token mode every armed trigger has a token of its
own. -/
theorem tokens_conserved {cfg : Config} {active : Bool} {delayNs count : ℤ} {target : Target}
    {moves : List GateMove} {final : GatePool}
    (ran : run (step cfg) (Pool.init (Gate.init active delayNs count target)) moves = some final) :
    let gate := final.shared
    let consumed := consumedTokens cfg (Gate.init active delayNs count target) moves
    let discarded := discardedTokens cfg (Gate.init active delayNs count target) moves
    gate.stats.refillTokensAdded = gate.creditBalanceReq + consumed + discarded ∧
      0 ≤ gate.creditBalanceReq ∧ gate.stats.creditBalanceReq = gate.creditBalanceReq ∧
      (cfg.directArm = false → gate.stats.armedOk ≤ consumed ∧
        (consumed : ℤ) ≤ gate.stats.refillTokensAdded) := by
  intro gate consumed dropped
  have fresh : (Gate.init active delayNs count target).Balanced := ⟨le_refl _, rfl⟩
  have posted := ledger_of_run fresh ran
  obtain ⟨added, taken⟩ := counted_of_run fresh ran
  have nonneg := (sound_of_run fresh ran).balanced.nonneg
  have law : 0 + deposited () (trace (step cfg) tokenEntries (Pool.init _) moves) =
    gate.book () + consumed + dropped := balance_conserved posted ()
  have closing : (gate.book () : ℤ) = gate.creditBalanceReq := Int.toNat_of_nonneg nonneg
  have conserved : gate.stats.refillTokensAdded = gate.creditBalanceReq + consumed + dropped := by
    rw [added, ← closing]
    show (0 : ℤ) + _ = _
    exact_mod_cast law
  refine ⟨conserved, nonneg, (sound_of_run fresh ran).balanced.shown, fun token => ⟨?_, ?_⟩⟩
  · have own : (trace (step cfg) (weights weigh) (Pool.init _) moves).sum.2.1 ≤
        (trace (step cfg) (weights weigh) (Pool.init _) moves).sum.2.2 :=
      weight_mem_of_run owes ran token
    have armed : (gate.stats.armedOk : ℤ) ≤ consumed := by
      rw [(stats_of_run ran).2]
      exact (zero_add _).trans_le (own.trans_eq taken)
    exact_mod_cast armed
  · rw [conserved]
    omega

/-- The hypothesis of `tokens_conserved` is met by two triggers and a reset. -/
theorem tokens_conserved_sample : ∃ final,
    run (step sampleConfig) (Pool.init sampleGate) sampleTriggers = some final ∧
      final.shared.stats.refillTokensAdded = final.shared.creditBalanceReq +
        consumedTokens sampleConfig sampleGate sampleTriggers +
        discardedTokens sampleConfig sampleGate sampleTriggers ∧
      consumedTokens sampleConfig sampleGate sampleTriggers = 2 ∧
      discardedTokens sampleConfig sampleGate sampleTriggers = 14 := by
  obtain ⟨final, ran⟩ := sampleTriggers_run
  exact ⟨final, ran, (tokens_conserved ran).1, by decide +kernel, by decide +kernel⟩

end Mcoz.PyGate
