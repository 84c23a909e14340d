/-
What becomes of a trigger.

`_process_trigger` counts a trigger, chooses its disposition along a tree of tests, each in a section of
its own, and counts the disposition. `weigh` says what a section adds to three differences: triggers
without a disposition, triggers armed, tokens taken. A trigger leaves the first at zero and the second
at one if its result says armed, whatever the other threads change between its tests
(`processTrigger_owes`), and the jobs of the control leave all three alone. An exception of an arm request
ends a trigger that was counted and has no disposition yet. So over all threads of a run the triggers are
accounted for exactly if no arm request of a trigger raises one: `triggers_accounted`.
-/

import Mcoz.PyGate.Tokens
import Mcoz.Lib.Tally

set_option autoImplicit false

namespace Mcoz.PyGate

open Machine Threads Program Pool

/-! ### Weights -/

/-- Triggers without a disposition, triggers armed, tokens taken. -/
abbrev Weight := ℤ × ℤ × ℤ

/-- What a section adds, in the state that it finds. -/
def weigh : Critical → Gate → Weight
  | .countTriggered _ _, _ => (1, 0, 0)
  | .count .refillRequest, _ => 0
  | .count .armedOk, _ => (-1, 1, 0)
  | .count _, _ => (-1, 0, 0)
  | .failTrigger _, _ => (-1, 0, 0)
  | .consumeCreditToken, gate => if 0 < gate.creditBalanceReq then (0, 0, 1) else 0
  | _, _ => 0

/-- In token mode a trigger is armed only after it took a token. -/
def covered (cfg : Config) : AddSubmonoid Weight where
  carrier := {weight | cfg.directArm = false → weight.2.1 ≤ weight.2.2}
  zero_mem' := fun _ => le_refl _
  add_mem' := fun left right mode => add_le_add (left mode) (right mode)

/-- What a trigger leaves: its disposition is counted, and in token mode an armed trigger took one
token. -/
def settled (cfg : Config) (armed : Bool) : Weight :=
  (0, armed.toNat, if cfg.directArm then 0 else armed.toNat)

/-- What is due for the result of a job. -/
def due (cfg : Config) : Outcome → Weight
  | .triggered result => settled cfg result.verdict.armed
  | _ => 0

/-- What is left of a trigger that an exception ends: it was counted and has no disposition. -/
def Abandoned : Job → Weight → Prop
  | .trigger _ _ _, tally => tally = (1, 0, 0)
  | _, _ => True

/-- The counted triggers without a counted disposition. -/
def Stats.undecided (stats : Stats) : ℤ :=
  stats.triggered - (stats.disabledSkip + stats.configSkip + stats.armSuppressed + stats.armedOk +
    stats.armedFail + stats.skipped)

section Weights

variable {cfg : Config}

/-- A section changes the statistics by its weight. -/
theorem stats_apply (code : Critical) (gate : Gate) :
    (code.apply gate).stats.undecided = gate.stats.undecided + (weigh code gate).1 ∧
      ((code.apply gate).stats.armedOk : ℤ) = gate.stats.armedOk + (weigh code gate).2.1 := by
  cases code with
  | countTriggered path requestId =>
      simp only [Critical.apply, Stats.undecided, weigh]
      omega
  | count counter =>
      cases counter <;> simp only [Critical.apply, Stats.count, Stats.undecided, weigh] <;>
        constructor <;> simp <;> omega
  | failTrigger err =>
      simp only [Critical.apply, Stats.undecided, weigh]
      omega
  | consumeCreditToken =>
      simp only [Critical.apply, Gate.consumeCreditToken, weigh]
      split <;> exact ⟨(add_zero _).symm, (add_zero _).symm⟩
  | setArmActive active => cases active <;> exact ⟨(add_zero _).symm, (add_zero _).symm⟩
  | setArmConfig delayNs number =>
      simp only [Critical.apply, Gate.setArmConfig, weigh]
      split <;> exact ⟨(add_zero _).symm, (add_zero _).symm⟩
  | _ => exact ⟨(add_zero _).symm, (add_zero _).symm⟩

theorem Critical.Plain.weightless {code : Critical} (plain : code.Plain) :
    Weightless weigh code := by
  intro gate
  cases code with
  | count counter =>
      cases plain
      rfl
  | countTriggered => cases plain
  | failTrigger => cases plain
  | consumeCreditToken => cases plain
  | _ => rfl

/-- The sections of the control, refills included, weigh nothing. -/
theorem weightless_refills (cfg : Config) : Refills cfg (Weightless weigh) fun _ program =>
    program.Only (Weightless weigh) (Call.Own cfg) :=
  only_refills (fun plain => plain.weightless) fun _ _ _ => rfl

end Weights

/-! ### The disposition of a trigger -/

/-- The verdict leaves the tally of a trigger that is armed or not; an exception leaves one that was counted. -/
def Settles (cfg : Config) (program : Prog Verdict) (tally : Weight) : Prop :=
  program.Tallies weigh (covered cfg) (· = (1, 0, 0)) (fun verdict final => final = settled cfg verdict.armed) tally

section Verdicts

variable {cfg : Config}

/-- A trigger that was counted and has no disposition. -/
theorem counted_mem : ((1, 0, 0) : Weight) ∈ covered cfg :=
  fun _ => le_refl _

theorem settled_mem (armed : Bool) : settled cfg armed ∈ covered cfg := by
  intro mode
  simp [settled, mode]

/-- A verdict that is not armed. -/
theorem settles_pure {verdict : Verdict} {tally : Weight} (same : tally = settled cfg verdict.armed) :
    Settles cfg (pure verdict) tally :=
  ⟨same ▸ settled_mem _, same⟩

/-- A section that counts a disposition other than armed. -/
theorem settles_perform {code : Critical} {result : Gate → Verdict}
    (weighs : ∀ gate, weigh code gate = (-1, 0, 0)) (refused : ∀ gate, (result gate).armed = false) :
    Settles cfg (perform code result) (1, 0, 0) := by
  refine ⟨counted_mem, fun gate => ?_⟩
  rw [weighs]
  refine settles_pure ?_
  rw [refused]
  unfold settled
  split <;> rfl

theorem maybeSuspendArm_ends (statusCode : Option ℤ) (errText : String) :
    (maybeSuspendArm cfg statusCode errText).Ends := by
  unfold maybeSuspendArm
  split
  · trivial
  · split
    · trivial
    · exact ends_bind (ends_bind (fun _ => trivial) fun _ _ => trivial) fun _ => trivial

theorem signalRefill_ends : (signalRefill cfg).Ends := by
  unfold signalRefill
  split
  · trivial
  · exact fun _ => trivial

/-- A trigger that failed may suspend arming. -/
theorem settles_fail (err : String) (statusCode : Option ℤ) :
    Settles cfg (do
      let verdict ← failTrigger err
      let suspended ← maybeSuspendArm cfg statusCode err
      return { verdict with armSuspended := suspended }) (1, 0, 0) := by
  refine perform_bind counted_mem fun gate => ?_
  have failed : ((1, 0, 0) : Weight) + weigh (.failTrigger err) gate = settled cfg false := by
    unfold settled
    split <;> rfl
  rw [failed]
  exact weightless_bind (settled_mem false) ((weightless_refills cfg).toComposes.maybeSuspendArm statusCode err)
    (Or.inl (maybeSuspendArm_ends _ _)) fun suspended => settles_pure rfl

theorem armDirectly_settles (direct : cfg.directArm = true) (requestId path : String)
    (delayNs count : ℤ) : Settles cfg (armDirectly cfg requestId path delayNs count) (1, 0, 0) := by
  refine weightless_bind counted_mem ((weightless_refills cfg).toComposes.armOnce _ _ _ _) (Or.inr rfl)
    fun result => ?_
  split
  · refine perform_bind counted_mem fun gate => ?_
    have armed : ((1, 0, 0) : Weight) + weigh (.count .armedOk) gate = settled cfg true := by
      rw [settled, if_pos direct]
      rfl
    rw [armed]
    exact weightless_bind (settled_mem true) ((weightless_refills cfg).perform _ fun _ => rfl)
      (Or.inl fun _ => trivial) fun _ => settles_pure rfl
  · exact settles_fail _ _

/-- A trigger that took a token is counted as armed. -/
theorem armFromToken_settles (token : cfg.directArm = false) (balanceAfter : ℤ) :
    Settles cfg (armFromToken cfg balanceAfter) (1, 0, 1) := by
  have taken : ((1, 0, 1) : Weight) ∈ covered cfg := fun _ => Int.zero_le_ofNat 1
  refine perform_bind taken fun gate => ?_
  have armed : ((1, 0, 1) : Weight) + weigh (.count .armedOk) gate = settled cfg true := by
    rw [settled, if_neg (by simp [token])]
    rfl
  rw [armed]
  split
  · exact weightless_bind (settled_mem true) (weightless_refills cfg).toComposes.signalRefill
      (Or.inl signalRefill_ends) fun _ => settles_pure rfl
  · exact settles_pure rfl

/-- A token is taken, or none is there. -/
theorem consume_settles {next : Bool × ℤ → Prog Verdict}
    (taken : ∀ balanceAfter, Settles cfg (next (true, balanceAfter)) (1, 0, 1))
    (missed : ∀ balanceAfter, Settles cfg (next (false, balanceAfter)) (1, 0, 0)) :
    Settles cfg (consumeCreditToken >>= next) (1, 0, 0) := by
  refine perform_bind counted_mem fun gate => ?_
  by_cases available : 0 < gate.creditBalanceReq
  · rw [if_pos available]
    simp only [weigh, if_pos available]
    exact taken _
  · rw [if_neg available]
    simp only [weigh, if_neg available]
    exact missed _

theorem refillOnMiss_settles (token : cfg.directArm = false) :
    Settles cfg (refillOnMiss cfg) (1, 0, 0) := by
  refine weightless_bind counted_mem (weightless_refills cfg).toComposes.signalRefill (Or.inr rfl) fun _ => ?_
  split
  · refine weightless_bind counted_mem ((weightless_refills cfg).refill _ _) (Or.inr rfl) fun result => ?_
    split
    · refine consume_settles (fun balanceAfter => ?_) fun balanceAfter => ?_
      · exact armFromToken_settles token balanceAfter
      · exact settles_perform (fun _ => rfl) fun _ => rfl
    · exact settles_fail _ _
  · exact settles_perform (fun _ => rfl) fun _ => rfl

theorem armTrigger_settles (requestId path : String) :
    Settles cfg (armTrigger cfg requestId path) (1, 0, 0) := by
  refine weightless_bind counted_mem ((weightless_refills cfg).perform _ fun _ => rfl) (Or.inr rfl)
    fun ⟨delayNs, count⟩ => ?_
  show Settles cfg (ite _ _ _) _
  split
  · exact settles_perform (fun _ => rfl) fun _ => rfl
  · refine weightless_bind counted_mem (weightless_refills cfg).time (Or.inr rfl) fun now => ?_
    refine weightless_bind counted_mem ((weightless_refills cfg).perform _ fun _ => rfl) (Or.inr rfl)
      fun ⟨suspended, until_, reason⟩ => ?_
    show Settles cfg (ite _ _ _) _
    split
    · exact settles_perform (fun _ => rfl) fun _ => rfl
    · split
      · rename_i direct
        exact armDirectly_settles direct _ _ _ _
      · rename_i direct
        have token : cfg.directArm = false := by simpa using direct
        refine consume_settles (fun balanceAfter => ?_) fun balanceAfter => ?_
        · exact armFromToken_settles token balanceAfter
        · exact refillOnMiss_settles token

theorem triggerVerdict_settles (requestId path : String) (headers : List (String × String))
    (active : Bool) : Settles cfg (triggerVerdict cfg requestId path headers active) (1, 0, 0) := by
  unfold triggerVerdict
  split
  · exact settles_perform (fun _ => rfl) fun _ => rfl
  · split
    · exact armTrigger_settles _ _
    · exact settles_perform (fun _ => rfl) fun _ => rfl

end Verdicts

/-! ### Jobs -/

section Jobs

variable {cfg : Config}

/-- Every trigger ends with one disposition. -/
theorem processTrigger_owes (path : String) (headers : List (String × String))
    (requestId : String) : (processTrigger cfg path headers requestId).Tallies weigh (covered cfg) (· = (1, 0, 0))
      (fun result final => final = settled cfg result.verdict.armed) 0 := by
  have start : (0 : Weight) ∈ covered cfg := (covered cfg).zero_mem
  refine weightless_bind start (weightless_refills cfg).time (Or.inl fun _ => trivial) fun started => ?_
  refine perform_bind start fun gate => ?_
  refine weightless_bind counted_mem ((weightless_refills cfg).perform _ fun _ => rfl) (Or.inr rfl) fun active => ?_
  refine tallies_bind (tallies_mono (triggerVerdict_settles _ _ _ _) ?_)
  rintro verdict final rfl -
  refine weightless_bind (settled_mem _) ((weightless_refills cfg).perform _ fun _ => rfl)
    (Or.inl fun _ => trivial) fun ⟨delayNs, count⟩ => ?_
  refine weightless_bind (settled_mem _) ((weightless_refills cfg).perform _ fun _ => rfl)
    (Or.inl fun _ => trivial) fun armActive => ?_
  exact ⟨settled_mem _, rfl⟩

/-- The sections of a job other than a trigger weigh nothing. -/
theorem control_weightless {job : Job} (control : job.isTrigger = false) :
    (job.program cfg).Only (Weightless weigh) (Call.Own cfg) :=
  (weightless_refills cfg).control control

theorem owes (thread : ℕ) (job : Job) (program : Prog Outcome)
    (begun : job.start cfg thread = some program) :
    program.Owes weigh (covered cfg) (Abandoned job) (due cfg) 0 := by
  rw [program_of_start begun]
  cases job with
  | trigger path headers requestId =>
      refine tallies_bind (tallies_mono (processTrigger_owes path headers requestId) ?_)
      rintro result final rfl kept
      exact ⟨kept, rfl⟩
  | setEnabled enabled delayNs count =>
      refine weightless_bind (covered cfg).zero_mem
        ((weightless_refills cfg).setEnabled _ _ _) (Or.inr trivial) fun _ => ?_
      exact ⟨(covered cfg).zero_mem, rfl⟩
  | setTarget ns pod container =>
      refine weightless_bind (covered cfg).zero_mem
        ((weightless_refills cfg).setTarget _ _ _) (Or.inr trivial) fun _ => ?_
      exact ⟨(covered cfg).zero_mem, rfl⟩
  | refillWorkerTurn =>
      refine weightless_bind (covered cfg).zero_mem
        (weightless_refills cfg).refillWorkerTurn (Or.inr trivial) fun _ => ?_
      exact ⟨(covered cfg).zero_mem, rfl⟩

theorem silent (thread : ℕ) (job : Job) (program : Prog Outcome)
    (begun : job.start cfg thread = some program) (control : ¬ job.isTrigger = true) :
    program.Only (Weightless weigh) (Call.Own cfg) := by
  rw [program_of_start begun]
  exact control_weightless (by simpa using control)

end Jobs

/-! ### Runs -/

/-- A trigger result with `armed` true. -/
def Outcome.armed : Outcome → Bool
  | .triggered result => result.verdict.armed
  | _ => false

/-- The number of trigger results returned with `armed` true. -/
def armedResults (cfg : Config) (gate : Gate) (moves : List GateMove) : ℕ :=
  (trace (step cfg) Pool.results (Pool.init gate) moves).countP Outcome.armed

section Runs

variable {cfg : Config} {gate : Gate} {moves : List GateMove} {pool next final : GatePool}
  {move : GateMove}

theorem stats_of_step (moved : step cfg pool move = some next) :
    next.shared.stats.undecided =
        pool.shared.stats.undecided + (pool.weights weigh move).sum.1 ∧
      (next.shared.stats.armedOk : ℤ) =
        pool.shared.stats.armedOk + (pool.weights weigh move).sum.2.1 := by
  cases effect_of_step moved with
  | @ran thread code rest here =>
      have changed := stats_apply code pool.shared
      simpa [weights, sections, here] using changed
  | _ => simp [weights, sections, Pool.resume]

/-- The statistics change by the weight of the sections that were run. -/
theorem stats_of_run (ran : run (step cfg) (Pool.init gate) moves = some final) :
    final.shared.stats.undecided = gate.stats.undecided +
        (trace (step cfg) (weights weigh) (Pool.init gate) moves).sum.1 ∧
      (final.shared.stats.armedOk : ℤ) = gate.stats.armedOk +
        (trace (step cfg) (weights weigh) (Pool.init gate) moves).sum.2.1 := by
  refine run_history (motive := fun past reached =>
    reached.shared.stats.undecided = gate.stats.undecided +
        (trace (step cfg) (weights weigh) (Pool.init gate) past).sum.1 ∧
      (reached.shared.stats.armedOk : ℤ) = gate.stats.armedOk +
        (trace (step cfg) (weights weigh) (Pool.init gate) past).sum.2.1) ?_ ?_ ran
  · simp [Pool.init]
  · rintro past pool move next before ⟨undecided, armed⟩ moved
    obtain ⟨undecided', armed'⟩ := stats_of_step moved
    rw [trace_concat before, List.sum_append, undecided', armed', undecided, armed]
    exact ⟨add_assoc _ _ _, add_assoc _ _ _⟩

theorem due_armed (cfg : Config) (outcomes : List Outcome) :
    ((outcomes.map (due cfg)).sum.1 = 0) ∧
      (outcomes.map (due cfg)).sum.2.1 = outcomes.countP Outcome.armed := by
  induction outcomes with
  | nil => exact ⟨rfl, rfl⟩
  | cons outcome rest ih =>
      rw [List.map_cons, List.sum_cons, List.countP_cons]
      have here : (due cfg outcome).1 = 0 ∧
          (due cfg outcome).2.1 = if outcome.armed then 1 else 0 := by
        cases outcome with
        | triggered result =>
            cases armed : result.verdict.armed <;> simp [due, settled, Outcome.armed, armed]
        | _ => exact ⟨rfl, rfl⟩
      refine ⟨?_, ?_⟩
      · rw [Prod.fst_add, here.1, ih.1, add_zero]
      · rw [Prod.snd_add, Prod.fst_add, here.2, ih.2]
        split <;> push_cast <;> omega

/-- Every counted trigger has one disposition, and `armed_ok` is the number of results with `armed` true. -/
def Accounted (stats : Stats) (armed : ℕ) : Prop :=
  stats.triggered = stats.disabledSkip + stats.configSkip + stats.armSuppressed + stats.armedOk +
      stats.armedFail + stats.skipped ∧
    stats.armedOk = armed

instance (stats : Stats) (armed : ℕ) : Decidable (Accounted stats armed) :=
  inferInstanceAs (Decidable (_ ∧ _))

/-- No trigger is in progress: each of them has returned or was ended by an exception. -/
def NoTrigger (moves : List GateMove) (pool : GatePool) : Prop :=
  ∀ thread job, running moves thread = some job → job.isTrigger = true → pool.threads thread = some .failed

/-- The step does not answer an arm request of a trigger with an exception. -/
def Returns (past : List GateMove) (pool : GatePool) (move : GateMove) : Prop :=
  ∀ thread job, running past thread = some job → job.isTrigger = true →
    ∀ answered ∈ answers thread pool move, ¬ Raised answered.1 answered.2

/-- When no trigger is in progress, the triggers without a disposition are those that an exception ended. -/
theorem undecided_of_run {active : Bool} {delayNs count : ℤ} {target : Target}
    (ran : run (step cfg) (Pool.init (Gate.init active delayNs count target)) moves = some final)
    (idle : NoTrigger moves final) :
    (final.shared.stats.undecided = 0 ↔ ∀ thread job, running moves thread = some job → job.isTrigger = false) ∧
      final.shared.stats.armedOk = armedResults cfg (Gate.init active delayNs count target) moves := by
  obtain ⟨tally, tallied⟩ := tallied_of_run owes silent ran
  have each (thread : ℕ) : (tally thread).2.1 = 0 ∧ 0 ≤ (tally thread).1 ∧
      ((tally thread).1 = 0 ↔ ∀ job, running moves thread = some job → job.isTrigger = false) := by
    cases held : final.threads thread with
    | none =>
        obtain ⟨unused, empty⟩ := tallied.free thread held
        rw [empty, unused]
        exact ⟨rfl, le_rfl, iff_of_true rfl nofun⟩
    | some program =>
        obtain ⟨job, busy, owed, quiet⟩ := (tallied.books thread program held).owes
        by_cases trigger : job.isTrigger = true
        · have lost := idle thread job busy trigger
          obtain rfl : program = .failed := Option.some.inj (held.symm.trans lost)
          obtain ⟨-, left⟩ := owed
          cases job with
          | trigger path headers requestId =>
              have same : tally thread = (1, 0, 0) := left
              rw [same]
              exact ⟨rfl, by decide, iff_of_false (by decide) fun idle => by cases idle _ busy⟩
          | setEnabled | setTarget | refillWorkerTurn => cases trigger
        · have empty : tally thread = 0 := (quiet trigger).1
          rw [empty]
          refine ⟨rfl, le_rfl, iff_of_true rfl fun other same => ?_⟩
          obtain rfl := Option.some.inj (busy.symm.trans same)
          exact Bool.not_eq_true _ ▸ trigger
  obtain ⟨undecided, armed⟩ := stats_of_run ran
  obtain ⟨decided, returned⟩ := due_armed cfg
    (trace (step cfg) Pool.results (Pool.init (Gate.init active delayNs count target)) moves)
  have total : (tally.sum fun _ amount => amount) + ((trace (step cfg) Pool.results
      (Pool.init (Gate.init active delayNs count target)) moves).map (due cfg)).sum =
      (trace (step cfg) (weights weigh) (Pool.init (Gate.init active delayNs count target)) moves).sum := by
    rw [← trace_map]
    exact tallied.total
  have first : (tally.sum fun _ amount => amount).1 = ∑ thread ∈ tally.support, (tally thread).1 := Prod.fst_sum
  have second : (tally.sum fun _ amount => amount).2.1 = 0 := by
    rw [Finsupp.sum, Prod.snd_sum, Prod.fst_sum]
    exact Finset.sum_eq_zero fun thread _ => (each thread).1
  rw [← total, Prod.fst_add, decided, add_zero, first] at undecided
  rw [← total, Prod.snd_add, Prod.fst_add, returned, second, zero_add] at armed
  have fresh : (Gate.init active delayNs count target).stats.undecided = 0 := rfl
  constructor
  · rw [undecided, fresh, zero_add, Finset.sum_eq_zero_iff_of_nonneg fun thread _ => (each thread).2.1]
    constructor
    · intro zero thread
      refine (each thread).2.2.mp ?_
      by_cases counted : thread ∈ tally.support
      · exact zero thread counted
      · rw [Finsupp.notMem_support_iff.mp counted]
        rfl
    · exact fun control thread _ => (each thread).2.2.mpr (control thread)
  · have all : (final.shared.stats.armedOk : ℤ) =
        armedResults cfg (Gate.init active delayNs count target) moves := armed.trans (zero_add _)
    exact_mod_cast all

/-- A trigger has failed. -/
def Fallen (past : List GateMove) (pool : GatePool) : Prop :=
  ∃ thread job, running past thread = some job ∧ job.isTrigger = true ∧ pool.threads thread = some .failed

/-- A step lets a trigger fail exactly if it answers an arm request of one with an exception. -/
theorem fallen_step {past : List GateMove} (live : pool.Live Raised) (moved : step cfg pool move = some next) :
    Fallen (past ++ [move]) next ↔ Fallen past pool ∨ ¬ Returns past pool move := by
  obtain ⟨-, failed⟩ := failed_step fails_performs.start live moved
  have kept {thread : ℕ} (ended : pool.threads thread = some .failed ∨
      ∃ answered ∈ answers thread pool move, Raised answered.1 answered.2) :
      running (past ++ [move]) thread = running past thread := by
    rw [running_concat]
    rcases ended with before | ⟨answered, among, -⟩
    · exact note_eq (running past) moved before fun _ same => by cases same
    · obtain ⟨rest, here⟩ := threads_of_answers among
      exact note_eq (running past) moved here fun _ same => by cases same
  unfold Fallen Returns
  push Not
  constructor
  · rintro ⟨thread, job, busy, trigger, now⟩
    have ended := (failed thread).mp now
    rw [kept ended] at busy
    rcases ended with before | raised
    · exact Or.inl ⟨thread, job, busy, trigger, before⟩
    · exact Or.inr ⟨thread, job, busy, trigger, raised⟩
  · rintro (⟨thread, job, busy, trigger, before⟩ | ⟨thread, job, busy, trigger, raised⟩)
    · exact ⟨thread, job, (kept (Or.inl before)).trans busy, trigger, (failed thread).mpr (Or.inl before)⟩
    · exact ⟨thread, job, (kept (Or.inr raised)).trans busy, trigger, (failed thread).mpr (Or.inr raised)⟩

/-- No trigger fails in a run exactly if no arm request of a trigger is answered with an exception. -/
theorem guarded_iff_fallen (ran : run (step cfg) (Pool.init gate) moves = some final) :
    Guarded (step cfg) Returns (Pool.init gate) moves ↔ ¬ Fallen moves final := by
  have live {past : List GateMove} {pool : GatePool} (before : run (step cfg) (Pool.init gate) past = some pool) :
      pool.Live Raised := (failed_iff_of_run fails_performs.start live_init before).1
  refine guarded_iff_history (fun past pool => ¬ Fallen past pool) Fallen ?_ ?_ ?_ ?_ id ran
  · rintro ⟨thread, job, busy, -⟩
    cases busy
  · intro past pool move next before fine returns moved fallen
    exact ((fallen_step (live before) moved).mp fallen).elim fine fun raised => raised returns
  · exact fun past pool move next before _ raised moved => (fallen_step (live before) moved).mpr (Or.inr raised)
  · exact fun past pool move next before fallen moved => (fallen_step (live before) moved).mpr (Or.inl fallen)

end Runs

/-- Two triggers that interleave after a refill. -/
def armedTriggers : List GateMove :=
  [.finish 0, .start 1 (.trigger "/a" [] "1"), .start 2 (.trigger "/b" [] "2"),
    .answer 2 okReply, .critical 2, .answer 1 okReply, .critical 1, .critical 1, .critical 2,
    .critical 1, .critical 2, .answer 1 okReply, .critical 1, .answer 2 okReply, .critical 2,
    .critical 1, .critical 2, .critical 2, .critical 1, .critical 1, .critical 1, .finish 1,
    .critical 2, .critical 2, .finish 2]

/-- A third trigger, after the gate was disabled. -/
def disabledTrigger : List GateMove :=
  [.start 1 (.setEnabled false none none), .critical 1, .critical 1, .critical 1, .critical 1,
    .critical 1, .critical 1, .finish 1, .start 3 (.trigger "/c" [] "3"), .answer 3 okReply,
    .critical 3, .critical 3, .critical 3, .critical 3, .critical 3, .finish 3]

/-- A refill and three triggers. -/
def sampleTriggers : List GateMove :=
  refillSent ++ refillAnswered ++ armedTriggers ++ disabledTrigger

theorem sampleTriggers_run : ∃ final,
    run (step sampleConfig) (Pool.init sampleGate) sampleTriggers = some final := by
  have runs : (run (step sampleConfig) (Pool.init sampleGate) sampleTriggers).isSome = true := by
    decide +kernel
  exact Option.isSome_iff_exists.mp runs

/-- Refills are sent on a miss. -/
def longConfig : Config where
  refill := RefillConfig.normalize 16 4 8
  syncRefillOnMiss := true

/-- A trigger misses, and its refill raises an exception. -/
def raisingTrigger : List GateMove :=
  [.start 1 (.trigger "/a" [] "1"), .answer 1 raisingReply, .critical 1, .critical 1, .critical 1,
    .answer 1 raisingReply, .critical 1, .critical 1, .critical 1, .critical 1, .answer 1 raisingReply, .critical 1,
    .answer 1 raisingReply]

end Mcoz.PyGate
