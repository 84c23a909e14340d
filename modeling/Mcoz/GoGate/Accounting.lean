/-
What becomes of a check.

`handleCheck` counts a check in `Triggered` and takes one of the branches of `checkVerdict`. Every branch
counts a disposition in a section of its own (`Disposed`), and says armed if it counts `ArmedOK`, but one:
a check without a delay whose request is answered ok (`Unnoticed`). `check_accounted_iff` follows a check
through a run of the gate, with whatever the other goroutines do between its sections.
-/

import Mcoz.GoGate.Program
import Mcoz.Lib.Walk

set_option autoImplicit false

namespace Mcoz.GoGate

open Word Machine Threads Program

/-! ### Counters -/

/-- `Triggered` and the dispositions of a check. -/
inductive Counter
  | triggered
  | disabledSkip
  | configSkip
  | armedOK
  | armedFail
  | skipped
deriving DecidableEq

/-- The statistic. -/
def Counter.value : Counter → Stats → Int64
  | .triggered, stats => stats.triggered
  | .disabledSkip, stats => stats.disabledSkip
  | .configSkip, stats => stats.configSkip
  | .armedOK, stats => stats.armedOK
  | .armedFail, stats => stats.armedFail
  | .skipped, stats => stats.skipped

/-- The counter that a section adds one to. -/
def Critical.counter : Critical → Option Counter
  | .countTriggered _ _ => some .triggered
  | .tick .disabledSkip => some .disabledSkip
  | .tick .configSkip => some .configSkip
  | .tick .armedOK => some .armedOK
  | .tick .skipped => some .skipped
  | .tick .refillRequest => none
  | .armedFail _ => some .armedFail
  | .look => none
  | .consumeToken => none
  | .refillOK _ => none
  | .refillFail _ => none
  | .setArmConfig _ _ => none
  | .setArmActive _ => none

/-- A section adds one to its counter, and nothing to the others. -/
theorem value_apply (counter : Counter) (code : Critical) (gate : Gate) :
    counter.value (code.apply gate).st =
      counter.value gate.st + if code.counter = some counter then 1 else 0 := by
  cases code with
  | look => exact (Int64.add_zero _).symm
  | countTriggered path requestID => cases counter <;> first | rfl | exact (Int64.add_zero _).symm
  | tick tick =>
      cases tick <;> cases counter <;> first | rfl | exact (Int64.add_zero _).symm
  | armedFail err => cases counter <;> first | rfl | exact (Int64.add_zero _).symm
  | consumeToken =>
      show counter.value gate.consumeToken.st = _ + 0
      unfold Gate.consumeToken
      split <;> cases counter <;> exact (Int64.add_zero _).symm
  | refillOK refill => cases counter <;> exact (Int64.add_zero _).symm
  | refillFail err => cases counter <;> exact (Int64.add_zero _).symm
  | setArmConfig delayNs number => cases counter <;> exact (Int64.add_zero _).symm
  | setArmActive active => cases active <;> cases counter <;> exact (Int64.add_zero _).symm

/-- What the goroutines of the gate do. -/
abbrev GateDeed := Deed Gate Critical Call Answer

/-- What a deed adds to a counter: one, if its section left the statistic one higher. -/
def increment (counter : Counter) : GateDeed → ℕ
  | .ran code gate => if counter.value (code.apply gate).st = counter.value gate.st + 1 then 1 else 0
  | .asked _ _ => 0

/-- What the deeds add to a counter. -/
def tally (counter : Counter) (deeds : List GateDeed) : ℕ :=
  (deeds.map (increment counter)).sum

section Tally

variable {counter : Counter} {code : Critical} {gate : Gate} {before after deeds : List GateDeed}

theorem increment_ran :
    increment counter (.ran code gate) = if code.counter = some counter then 1 else 0 := by
  show (if counter.value (code.apply gate).st = counter.value gate.st + 1 then 1 else 0) = _
  rw [value_apply]
  by_cases counts : code.counter = some counter
  · rw [if_pos counts, if_pos rfl, if_pos counts]
  · have zero : (0 : Int64) ≠ 1 := by decide
    rw [if_neg counts, if_neg counts, if_neg fun same => zero ((Int64.add_right_inj _).mp same)]

theorem tally_append : tally counter (before ++ after) = tally counter before + tally counter after := by
  rw [tally, List.map_append, List.sum_append]
  rfl

theorem tally_ran :
    tally counter [.ran code gate] = if code.counter = some counter then 1 else 0 :=
  increment_ran

theorem tally_asked {request : Call} {answer : Answer request} :
    tally counter [.asked request answer] = 0 := rfl

end Tally

/-! ### Dispositions -/

/-- Deeds that count neither a check nor a disposition. -/
def Neutral (deeds : List GateDeed) : Prop :=
  ∀ counter, tally counter deeds = 0

/-- Deeds that count one disposition, the armed one exactly for an armed check. -/
def Disposed (armed : Bool) (deeds : List GateDeed) : Prop :=
  ∃ disposition, disposition ≠ .triggered ∧
    (∀ counter, tally counter deeds = if counter = disposition then 1 else 0) ∧
    (armed = true ↔ disposition = .armedOK)

section Dispositions

variable {armed : Bool} {before after deeds : List GateDeed}

theorem Neutral.append (first : Neutral before) (second : Neutral after) : Neutral (before ++ after) := by
  intro counter
  rw [tally_append, first counter, second counter]

theorem Neutral.disposed (neutral : Neutral before) (disposed : Disposed armed after) :
    Disposed armed (before ++ after) := by
  obtain ⟨disposition, other, counts, armedOK⟩ := disposed
  refine ⟨disposition, other, fun counter => ?_, armedOK⟩
  rw [tally_append, neutral counter, counts counter, zero_add]

theorem Disposed.neutral (disposed : Disposed armed before) (neutral : Neutral after) :
    Disposed armed (before ++ after) := by
  obtain ⟨disposition, other, counts, armedOK⟩ := disposed
  refine ⟨disposition, other, fun counter => ?_, armedOK⟩
  rw [tally_append, neutral counter, counts counter, add_zero]

theorem neutral_nil : Neutral [] := fun _ => rfl

theorem neutral_asked {request : Call} {answer : Answer request} : Neutral [.asked request answer] :=
  fun _ => tally_asked

theorem neutral_ran {code : Critical} {gate : Gate} (neutral : code.counter = none) :
    Neutral [.ran code gate] := by
  intro counter
  rw [tally_ran, neutral]
  rfl

/-- A section that counts a disposition. -/
theorem disposed_ran {code : Critical} {gate : Gate} {disposition : Counter}
    (counts : code.counter = some disposition) (other : disposition ≠ .triggered)
    (armedOK : armed = true ↔ disposition = .armedOK) : Disposed armed [.ran code gate] := by
  refine ⟨disposition, other, fun counter => ?_, armedOK⟩
  rw [tally_ran, counts]
  by_cases same : counter = disposition
  · rw [if_pos same, if_pos (congrArg some same.symm)]
  · rw [if_neg same, if_neg fun equal => same (Option.some.inj equal).symm]

end Dispositions

/-! ### Branches -/

section Branches

variable {cfg : Config} {deeds : List GateDeed} {verdict : Verdict}

/-- `armOnce` makes one request, with its delay and count, and its result is that of the answer. -/
theorem armOnce_walk {requestID path : Bytes} {delayNs count : Int64} {result : ArmResult}
    (walk : (armOnce cfg requestID path delayNs count).Walk deeds result) :
    ∃ request, ∃ answer : Answer (.arm request), deeds = [.asked (.arm request) answer] ∧
      result = armResult answer ∧ request.delayNs = delayNs ∧ request.count = count := by
  obtain ⟨_, answer, _, rfl, asked, rfl, rfl⟩ := walk_bind.mp walk
  rw [walk_ask.mp asked, List.append_nil]
  exact ⟨_, answer, rfl, rfl, rfl, rfl⟩

theorem signalRefill_neutral {ended : Unit} (walk : (signalRefill cfg).Walk deeds ended) :
    Neutral deeds := by
  unfold signalRefill at walk
  split at walk
  · rw [(walk_pure.mp walk).1]
    exact neutral_nil
  · obtain ⟨gate, rfl, -⟩ := walk_perform.mp walk
    exact neutral_ran rfl

/-- A refill counts no check. -/
theorem doRefill_neutral {tokensReq : Int64} {reason : Bytes} {result : ArmResult}
    (walk : (doRefill cfg tokensReq reason).Walk deeds result) : Neutral deeds := by
  unfold doRefill at walk
  split at walk
  · rw [(walk_pure.mp walk).1]
    exact neutral_nil
  · obtain ⟨_, snapshot, after, rfl, look, branch⟩ := walk_bind.mp walk
    obtain ⟨gate, rfl, -⟩ := walk_perform.mp look
    refine (neutral_ran rfl).append ?_
    split at branch
    · rw [(walk_pure.mp branch).1]
      exact neutral_nil
    · obtain ⟨_, now, later, rfl, clock, request⟩ := walk_bind.mp branch
      rw [walk_ask.mp clock]
      refine neutral_asked.append ?_
      obtain ⟨_, result, last, rfl, armed, credit⟩ := walk_bind.mp request
      obtain ⟨request, answer, rfl, -⟩ := armOnce_walk armed
      refine neutral_asked.append ?_
      split at credit
      · obtain ⟨gate, rfl, -⟩ := walk_perform.mp credit
        exact neutral_ran rfl
      · obtain ⟨gate, rfl, -⟩ := walk_perform.mp credit
        exact neutral_ran rfl

theorem failCheck_disposed {errMsg : Bytes} (walk : (failCheck errMsg).Walk deeds verdict) :
    Disposed verdict.armed deeds := by
  obtain ⟨gate, rfl, rfl⟩ := walk_perform.mp walk
  exact disposed_ran rfl (by decide) (by simp)

theorem armFromToken_disposed {balance : Int64}
    (walk : (armFromToken cfg balance).Walk deeds verdict) : Disposed verdict.armed deeds := by
  obtain ⟨_, _, after, rfl, counted, signal⟩ := walk_bind.mp walk
  obtain ⟨gate, rfl, -⟩ := walk_perform.mp counted
  have armed : verdict.armed = true ∧ Neutral after := by
    split at signal
    · obtain ⟨_, _, _, rfl, signalled, ended⟩ := walk_bind.mp signal
      obtain ⟨rfl, rfl⟩ := walk_pure.mp ended
      exact ⟨rfl, (signalRefill_neutral signalled).append neutral_nil⟩
    · obtain ⟨rfl, rfl⟩ := walk_pure.mp signal
      exact ⟨rfl, neutral_nil⟩
  rw [armed.1]
  exact (disposed_ran rfl (by decide) (by decide)).neutral armed.2

theorem checkMissed_disposed (walk : (checkMissed cfg).Walk deeds verdict) :
    Disposed verdict.armed deeds := by
  obtain ⟨_, _, after, rfl, signalled, missed⟩ := walk_bind.mp walk
  refine (signalRefill_neutral signalled).disposed ?_
  split at missed
  · obtain ⟨_, result, later, rfl, refilled, answered⟩ := walk_bind.mp missed
    refine (doRefill_neutral refilled).disposed ?_
    split at answered
    · obtain ⟨_, ⟨consumed, balance⟩, last, rfl, consume, taken⟩ := walk_bind.mp answered
      obtain ⟨gate, rfl, -⟩ := walk_perform.mp consume
      refine (neutral_ran rfl).disposed ?_
      dsimp only at taken
      split at taken
      · exact armFromToken_disposed taken
      · exact failCheck_disposed taken
    · exact failCheck_disposed answered
  · exact failCheck_disposed missed

theorem checkToken_disposed (walk : (checkToken cfg).Walk deeds verdict) :
    Disposed verdict.armed deeds := by
  obtain ⟨_, ⟨consumed, balance⟩, after, rfl, consume, taken⟩ := walk_bind.mp walk
  obtain ⟨gate, rfl, -⟩ := walk_perform.mp consume
  refine (neutral_ran rfl).disposed ?_
  dsimp only at taken
  split at taken
  · exact armFromToken_disposed taken
  · exact checkMissed_disposed taken

theorem checkDirect_disposed {requestID path : Bytes} {delayNs count : Int64}
    (walk : (checkDirect cfg requestID path delayNs count).Walk deeds verdict) :
    Disposed verdict.armed deeds := by
  obtain ⟨_, result, after, rfl, armed, branch⟩ := walk_bind.mp walk
  obtain ⟨request, answer, rfl, -⟩ := armOnce_walk armed
  refine neutral_asked.disposed ?_
  split at branch
  · obtain ⟨gate, rfl, rfl⟩ := walk_perform.mp branch
    exact disposed_ran rfl (by decide) (by decide)
  · exact failCheck_disposed branch

end Branches

/-! ### The check without a delay -/

/-- A request of the deeds is answered ok. -/
def ArmedOk (deeds : List GateDeed) : Prop :=
  ∃ request, ∃ answer : Answer (.arm request), .asked (.arm request) answer ∈ deeds ∧
    (armResult answer).ok = true

/-- A snapshot that makes a check send a request without a delay. -/
def ZeroDelay (cfg : Config) (request : CheckRequest) (snapshot : Snapshot) : Prop :=
  snapshot.active = true ∧ shouldArm cfg (extractOriginalPath request) request = true ∧
    0 < snapshot.count ∧ snapshot.delayNs ≤ 0 ∧ cfg.sendOnZeroDelay = true

/-- The states that the sections of the deeds found. -/
def found (deeds : List GateDeed) : List Gate :=
  deeds.filterMap fun deed =>
    match deed with
    | .ran _ gate => some gate
    | .asked _ _ => none

/-- A check whose snapshot, its second section, makes it send a request without a delay, and whose
request is answered ok. -/
def Unnoticed (cfg : Config) (request : CheckRequest) (deeds : List GateDeed) : Prop :=
  ∃ gate, (found deeds)[1]? = some gate ∧ ZeroDelay cfg request gate.snapshot ∧ ArmedOk deeds

section Check

variable {cfg : Config} {request : CheckRequest} {before after deeds : List GateDeed} {verdict : Verdict}

theorem armedOk_append : ArmedOk (before ++ after) ↔ ArmedOk before ∨ ArmedOk after := by
  simp only [ArmedOk, List.mem_append, or_and_right, exists_or]

theorem not_armedOk_ran {code : Critical} {gate : Gate} : ¬ ArmedOk [.ran code gate] := by
  rintro ⟨request, answer, member, -⟩
  cases List.mem_singleton.mp member

theorem not_armedOk_nil : ¬ ArmedOk [] := by
  rintro ⟨request, answer, member, -⟩
  cases member

/-- A branch that does nothing but count its disposition. -/
theorem tick_disposed {code : Critical} {disposition : Counter} {result : Verdict}
    (walk : (perform code fun _ => result).Walk deeds verdict)
    (counts : code.counter = some disposition) (other : disposition ≠ .triggered)
    (armed : result.armed = true ↔ disposition = .armedOK) :
    ¬ ArmedOk deeds ∧ Disposed verdict.armed deeds := by
  obtain ⟨gate, rfl, rfl⟩ := walk_perform.mp walk
  exact ⟨not_armedOk_ran, disposed_ran counts other armed⟩

/-- The request without a delay counts nothing if it is answered ok. -/
theorem checkZeroDelay_disposed {requestID path : Bytes} (send : cfg.sendOnZeroDelay = true)
    (walk : (checkZeroDelay cfg requestID path).Walk deeds verdict) :
    (ArmedOk deeds ∧ Neutral deeds) ∨ (¬ ArmedOk deeds ∧ Disposed verdict.armed deeds) := by
  unfold checkZeroDelay at walk
  rw [if_pos send] at walk
  obtain ⟨_, result, after, rfl, armed, branch⟩ := walk_bind.mp walk
  obtain ⟨request, answer, rfl, rfl, -⟩ := armOnce_walk armed
  split at branch
  · rename_i refused
    have other : ¬ ArmedOk after := by
      obtain ⟨gate, rfl, -⟩ := walk_perform.mp branch
      exact not_armedOk_ran
    refine Or.inr ⟨fun ok => ?_, neutral_asked.disposed (failCheck_disposed branch)⟩
    rcases armedOk_append.mp ok with ⟨request', answer', member, ok⟩ | later
    · cases List.mem_singleton.mp member
      rw [ok] at refused
      cases refused
    · exact other later
  · rename_i answered
    obtain ⟨rfl, -⟩ := walk_pure.mp branch
    refine Or.inl ⟨⟨request, answer, List.mem_cons_self .., by simpa using answered⟩, ?_⟩
    exact neutral_asked.append neutral_nil

/-- Every branch counts a disposition, but for the request without a delay that is answered ok. -/
theorem checkVerdict_disposed {requestID : Bytes} {snapshot : Snapshot}
    (walk : (checkVerdict cfg request requestID (extractOriginalPath request) snapshot).Walk deeds
      verdict) :
    (ZeroDelay cfg request snapshot ∧ ArmedOk deeds ∧ Neutral deeds) ∨
      (¬ (ZeroDelay cfg request snapshot ∧ ArmedOk deeds) ∧ Disposed verdict.armed deeds) := by
  unfold checkVerdict at walk
  by_cases inactive : snapshot.active = false
  · rw [if_pos inactive] at walk
    obtain ⟨silent, disposed⟩ := tick_disposed walk rfl (by decide) (by decide)
    exact Or.inr ⟨fun both => silent both.2, disposed⟩
  rw [if_neg inactive] at walk
  by_cases arms : shouldArm cfg (extractOriginalPath request) request = true
  swap
  · rw [if_neg arms] at walk
    obtain ⟨silent, disposed⟩ := tick_disposed walk rfl (by decide) (by decide)
    exact Or.inr ⟨fun both => silent both.2, disposed⟩
  rw [if_pos arms] at walk
  by_cases creditless : snapshot.count ≤ 0
  · rw [if_pos creditless] at walk
    obtain ⟨silent, disposed⟩ := tick_disposed walk rfl (by decide) (by decide)
    exact Or.inr ⟨fun both => silent both.2, disposed⟩
  rw [if_neg creditless] at walk
  by_cases delay : snapshot.delayNs ≤ 0
  swap
  · rw [if_neg delay] at walk
    refine Or.inr ⟨fun both => delay both.1.2.2.2.1, ?_⟩
    split at walk
    · exact checkDirect_disposed walk
    · exact checkToken_disposed walk
  rw [if_pos delay] at walk
  by_cases send : cfg.sendOnZeroDelay = true
  · have zero : ZeroDelay cfg request snapshot :=
      ⟨Bool.eq_true_of_not_eq_false inactive, arms, Int64.not_le.mp creditless, delay, send⟩
    rcases checkZeroDelay_disposed send walk with ⟨ok, neutral⟩ | ⟨refused, disposed⟩
    · exact Or.inl ⟨zero, ok, neutral⟩
    · exact Or.inr ⟨fun both => refused both.2, disposed⟩
  · unfold checkZeroDelay at walk
    rw [if_neg send] at walk
    obtain ⟨silent, disposed⟩ := tick_disposed walk rfl (by decide) (by decide)
    exact Or.inr ⟨fun both => silent both.2, disposed⟩

/-- Before it counts, a check runs no section and sends no request. -/
theorem checkID_walk {requestID : Bytes} (walk : (checkID request).Walk deeds requestID) :
    found deeds = [] ∧ Neutral deeds ∧ ¬ ArmedOk deeds := by
  unfold checkID at walk
  split at walk
  · obtain ⟨_, now, _, rfl, clock, ended⟩ := walk_bind.mp walk
    obtain ⟨rfl, -⟩ := walk_pure.mp ended
    rw [walk_ask.mp clock]
    refine ⟨rfl, neutral_asked.append neutral_nil, ?_⟩
    rintro ⟨request, answer, member, -⟩
    cases List.mem_singleton.mp member
  · obtain ⟨rfl, -⟩ := walk_pure.mp walk
    exact ⟨rfl, neutral_nil, not_armedOk_nil⟩

/-- The header of an armed check. -/
theorem armed_header_iff (verdict : Verdict) (now : Snapshot) :
    (ascii "x-mcoz-armed", ascii "1") ∈ debugReport verdict now ↔ verdict.armed = true := by
  have others : ∀ name ∈ ["x-mcoz-triggered", "x-mcoz-delay-ns", "x-mcoz-count",
      "x-mcoz-arm-suspended", "x-mcoz-arm-active", "x-mcoz-arm-disabled", "x-mcoz-arm-error"],
      ascii "x-mcoz-armed" ≠ ascii name := by
    decide
  simp only [List.forall_mem_cons] at others
  obtain ⟨triggered, delay, count, suspended, active, disabled, error, -⟩ := others
  have shown : ascii "1" = flag verdict.armed ↔ verdict.armed = true := by
    cases verdict.armed <;> decide
  unfold debugReport
  split <;> simp [triggered, delay, count, suspended, active, disabled, error, shown]

theorem checkHeaders_walk {headers : List (Bytes × Bytes)}
    (walk : (checkHeaders cfg verdict).Walk deeds headers) :
    Neutral deeds ∧ ¬ ArmedOk deeds ∧ (cfg.debugHeaders = true →
      ((ascii "x-mcoz-armed", ascii "1") ∈ headers ↔ verdict.armed = true)) := by
  unfold checkHeaders at walk
  split at walk
  · obtain ⟨_, now, _, rfl, look, ended⟩ := walk_bind.mp walk
    obtain ⟨gate, rfl, -⟩ := walk_perform.mp look
    obtain ⟨rfl, rfl⟩ := walk_pure.mp ended
    exact ⟨(neutral_ran rfl).append neutral_nil, not_armedOk_ran, fun _ => armed_header_iff _ _⟩
  · rename_i silent
    obtain ⟨rfl, rfl⟩ := walk_pure.mp walk
    exact ⟨neutral_nil, not_armedOk_nil, fun debug => absurd debug silent⟩

end Check

/-- A check that is counted once in `Triggered` and once in one of the dispositions, in `ArmedOK`
exactly if it is armed. -/
def Accounted (armed : Bool) (deeds : List GateDeed) : Prop :=
  tally .triggered deeds = 1 ∧ ∃ disposition, disposition ≠ .triggered ∧
    (∀ counter, counter ≠ .triggered → tally counter deeds = if counter = disposition then 1 else 0) ∧
    (armed = true ↔ disposition = .armedOK)

/-- The deeds of a check, by the parts of `handleCheck`. -/
def checkDeeds (stamp : List GateDeed) (path requestID : Bytes) (first gate : Gate)
    (branch report : List GateDeed) : List GateDeed :=
  stamp ++ ([.ran (.countTriggered path requestID) first] ++ ([.ran .look gate] ++
    (branch ++ (report ++ []))))

section Parts

variable {cfg : Config} {request : CheckRequest} {stamp branch report : List GateDeed}
  {path requestID : Bytes} {first gate : Gate} {armed : Bool}

theorem unnoticed_iff (foundNone : found stamp = []) (stampSilent : ¬ ArmedOk stamp)
    (reportSilent : ¬ ArmedOk report) :
    Unnoticed cfg request (checkDeeds stamp path requestID first gate branch report) ↔
      ZeroDelay cfg request gate.snapshot ∧ ArmedOk branch := by
  have second : (found (checkDeeds stamp path requestID first gate branch report))[1]? = some gate := by
    rw [found, checkDeeds, List.filterMap_append, ← found, foundNone]
    rfl
  have answered : ArmedOk (checkDeeds stamp path requestID first gate branch report) ↔ ArmedOk branch := by
    simp only [checkDeeds, armedOk_append, stampSilent, not_armedOk_ran, reportSilent,
      not_armedOk_nil, false_or, or_false]
  simp only [Unnoticed, second, Option.some.injEq, exists_eq_left', answered]

theorem tally_checkDeeds (stampNeutral : Neutral stamp) (reportNeutral : Neutral report)
    (counter : Counter) : tally counter (checkDeeds stamp path requestID first gate branch report) =
      (if counter = .triggered then 1 else 0) + tally counter branch := by
  have counted : tally counter [.ran (.countTriggered path requestID) first] =
      if counter = .triggered then 1 else 0 := by
    rw [tally_ran]
    exact if_congr ⟨fun same => (Option.some.inj same).symm, fun same => congrArg some same.symm⟩ rfl rfl
  have looked : tally counter [.ran .look gate] = 0 := neutral_ran rfl counter
  rw [checkDeeds, tally_append, tally_append, tally_append, tally_append, tally_append,
    stampNeutral counter, counted, looked, reportNeutral counter, neutral_nil counter]
  omega

theorem accounted_of_disposed (stampNeutral : Neutral stamp) (reportNeutral : Neutral report)
    (disposed : Disposed armed branch) :
    Accounted armed (checkDeeds stamp path requestID first gate branch report) := by
  obtain ⟨disposition, other, counts, armedOK⟩ := disposed
  refine ⟨?_, disposition, other, fun counter apart => ?_, armedOK⟩
  · rw [tally_checkDeeds stampNeutral reportNeutral, counts, if_pos rfl, if_neg other.symm]
  · rw [tally_checkDeeds stampNeutral reportNeutral, counts, if_neg apart, zero_add]

theorem not_accounted_of_neutral (stampNeutral : Neutral stamp) (reportNeutral : Neutral report)
    (neutral : Neutral branch) :
    ¬ Accounted armed (checkDeeds stamp path requestID first gate branch report) := by
  rintro ⟨-, disposition, other, counts, -⟩
  have one := counts disposition other
  rw [tally_checkDeeds stampNeutral reportNeutral, neutral disposition, if_neg other, if_pos rfl] at one
  cases one

end Parts

/-- The deeds of a check: it is accounted for unless it is unnoticed. -/
theorem handleCheck_walk {cfg : Config} {request : CheckRequest} {deeds : List GateDeed}
    {reply : CheckReply} (walk : (handleCheck cfg request).Walk deeds reply) :
    (Accounted reply.verdict.armed deeds ↔ ¬ Unnoticed cfg request deeds) ∧
      (cfg.debugHeaders = true →
        ((ascii "x-mcoz-armed", ascii "1") ∈ reply.headers ↔ reply.verdict.armed = true)) := by
  obtain ⟨stamp, requestID, _, rfl, stamped, counts⟩ := walk_bind.mp walk
  obtain ⟨_, _, _, rfl, counted, looks⟩ := walk_bind.mp counts
  obtain ⟨first, rfl, -⟩ := walk_perform.mp counted
  obtain ⟨_, snapshot, _, rfl, look, decides⟩ := walk_bind.mp looks
  obtain ⟨gate, rfl, rfl⟩ := walk_perform.mp look
  obtain ⟨branch, verdict, _, rfl, decided, reports⟩ := walk_bind.mp decides
  obtain ⟨report, headers, _, rfl, reported, ended⟩ := walk_bind.mp reports
  obtain ⟨rfl, rfl⟩ := walk_pure.mp ended
  obtain ⟨foundNone, stampNeutral, stampSilent⟩ := checkID_walk stamped
  obtain ⟨reportNeutral, reportSilent, header⟩ := checkHeaders_walk reported
  refine ⟨?_, header⟩
  show Accounted verdict.armed (checkDeeds stamp (extractOriginalPath request) requestID first gate
    branch report) ↔ ¬ Unnoticed cfg request (checkDeeds stamp (extractOriginalPath request) requestID
      first gate branch report)
  rw [unnoticed_iff foundNone stampSilent reportSilent]
  rcases checkVerdict_disposed decided with ⟨zero, ok, neutral⟩ | ⟨noticed, disposed⟩
  · exact iff_of_false (not_accounted_of_neutral stampNeutral reportNeutral neutral)
      fun noticed => noticed ⟨zero, ok⟩
  · exact iff_of_true (accounted_of_disposed stampNeutral reportNeutral disposed) noticed

/-! ### Runs -/

/-- A check that a goroutine makes in a run of the gate, whatever the others do meanwhile, is accounted
for exactly if it does not find a configuration without a delay and send a request that is answered
ok. The header says armed if the check is. -/
theorem check_accounted_iff {cfg : Config} {request : CheckRequest} {thread : ℕ}
    {pool final : GatePool} {moves : List GateMove} {reply : CheckReply}
    (begun : pool.threads thread = some ((Job.check request).program cfg))
    (ran : run (step cfg) pool moves = some final) (busy : Move.finish thread ∉ moves)
    (ended : final.threads thread = some (.done (.checked reply))) :
    let deeds := trace (step cfg) (Pool.deeds thread) pool moves
    (Accounted reply.verdict.armed deeds ↔ ¬ Unnoticed cfg request deeds) ∧
      (cfg.debugHeaders = true →
        ((ascii "x-mcoz-armed", ascii "1") ∈ reply.headers ↔ reply.verdict.armed = true)) := by
  intro deeds
  have walk : ((Job.check request).program cfg).Walk deeds (.checked reply) :=
    Pool.walk_of_run begun ran busy ended
  obtain ⟨before, reply', after, shape, walk, last⟩ := walk_bind.mp walk
  obtain ⟨rfl, same⟩ := walk_pure.mp last
  cases same
  rw [shape, List.append_nil]
  exact handleCheck_walk walk

/-- The clock stands still and every request is answered ok. -/
def okReply : (request : Call) → Answer request
  | .unixMicro => (0 : Int64)
  | .arm _ => .ok ⟨200, ascii "ok"⟩

/-- A gate with one goroutine, which begins a check. -/
def checking (cfg : Config) (gate : Gate) : GatePool :=
  (Pool.init gate).resume 2 (some ((Job.check ⟨ascii "/a", [(ascii "x-request-id", ascii "1")]⟩).program cfg))

/-- The value of a run's last state. -/
theorem ended_of_value {cfg : Config} {pool : GatePool} {moves : List GateMove} {thread : ℕ}
    {outcome : Outcome} (value : (run (step cfg) pool moves).bind (Pool.value thread) = some outcome) :
    ∃ final, run (step cfg) pool moves = some final ∧ final.threads thread = some (.done outcome) := by
  obtain ⟨final, ran, ended⟩ := Option.bind_eq_some_iff.mp value
  exact ⟨final, ran, Pool.threads_of_value ended⟩

/-- Without refills a check is armed by its own request. -/
def directConfig : Config :=
  { refillEnabled := false }

/-- A check by its own request, and the report of it. -/
def directCheck : List GateMove :=
  [.critical 2, .critical 2, .answer 2 okReply, .critical 2, .critical 2]

/-- The hypotheses of `check_accounted_iff` are met by a check that is armed. -/
theorem check_accounted_iff_direct : ∃ final reply,
    run (step directConfig) (checking directConfig (Gate.init true 10 1)) directCheck = some final ∧
      final.threads 2 = some (.done (.checked reply)) ∧ reply.verdict.armed = true ∧
      (Accounted reply.verdict.armed (trace (step directConfig) (Pool.deeds 2)
          (checking directConfig (Gate.init true 10 1)) directCheck) ↔
        ¬ Unnoticed directConfig ⟨ascii "/a", [(ascii "x-request-id", ascii "1")]⟩
          (trace (step directConfig) (Pool.deeds 2)
            (checking directConfig (Gate.init true 10 1)) directCheck)) := by
  have value : (run (step directConfig) (checking directConfig (Gate.init true 10 1)) directCheck).bind
      (Pool.value 2) = some (.checked ⟨{ armed := true }, debugReport { armed := true }
        ⟨true, 10, 1, 0⟩⟩) := by
    decide +kernel
  obtain ⟨final, ran, ended⟩ := ended_of_value value
  exact ⟨final, _, ran, ended, rfl, (check_accounted_iff rfl ran (by simp [directCheck]) ended).1⟩

/-- A check without a delay and the report of it. -/
def zeroDelayCheck : List GateMove :=
  [.critical 2, .critical 2, .answer 2 okReply, .critical 2]

/-- A check that finds a delay of zero sends its request, which is answered ok, and is counted in
`Triggered` but in no disposition. -/
theorem zero_delay_unnoticed : ∃ final reply,
    run (step {}) (checking {} (Gate.init true 0 1)) zeroDelayCheck = some final ∧
      final.threads 2 = some (.done (.checked reply)) ∧
      (∀ counter, tally counter (trace (step {}) (Pool.deeds 2) (checking {} (Gate.init true 0 1))
        zeroDelayCheck) = if counter = .triggered then 1 else 0) ∧
      ¬ Accounted reply.verdict.armed (trace (step {}) (Pool.deeds 2)
        (checking {} (Gate.init true 0 1)) zeroDelayCheck) := by
  have value : (run (step {}) (checking {} (Gate.init true 0 1)) zeroDelayCheck).bind (Pool.value 2) =
      some (.checked ⟨{}, debugReport {} ⟨true, 0, 1, 0⟩⟩) := by
    decide +kernel
  have counts : ∀ counter, tally counter (trace (step {}) (Pool.deeds 2)
      (checking {} (Gate.init true 0 1)) zeroDelayCheck) = if counter = .triggered then 1 else 0 := by
    intro counter
    cases counter <;> decide +kernel
  obtain ⟨final, ran, ended⟩ := ended_of_value value
  refine ⟨final, _, ran, ended, counts, ?_⟩
  rintro ⟨-, disposition, other, counted, -⟩
  have one := counted disposition other
  rw [counts, if_neg other, if_pos rfl] at one
  cases one

end Mcoz.GoGate
