/-
When an empty gate asks for a refill.

A refill is needed below the low-water mark, which the normalization keeps below the target but not above
zero: with a mark of zero no balance is below it, although `_process_trigger` signals the worker at a
balance that only reaches the mark. So an empty gate has a need exactly for the configurations of
`RefillConfig.wakes`, and exactly for these the worker attempts a refill after a miss.
-/

import Mcoz.Lib.Attempt
import Mcoz.PyGate.Tokens

set_option autoImplicit false

namespace Mcoz.PyGate

open Machine Threads Program Pool

/-! ### The need -/

/-- What a credit miss finds: an active gate with a configuration that arms, and no token. -/
structure Gate.Empty (gate : Gate) : Prop where
  active : gate.armActive = true
  delay_pos : 0 < gate.armDelayNs
  count_pos : 0 < gate.armCount
  empty : gate.creditBalanceReq = 0

instance (gate : Gate) : Decidable gate.Empty :=
  decidable_of_iff (gate.armActive = true ∧ 0 < gate.armDelayNs ∧ 0 < gate.armCount ∧
    gate.creditBalanceReq = 0) ⟨fun ⟨active, delay, count, balance⟩ => ⟨active, delay, count, balance⟩,
      fun ⟨active, delay, count, balance⟩ => ⟨active, delay, count, balance⟩⟩

/-- The settings of `MCOZ_REFILL_TARGET_REQ` and `MCOZ_REFILL_LOW_WATER_REQ` that leave a low-water
mark above zero. -/
def RefillConfig.Wakes (target lowWater : ℤ) : Prop :=
  0 < lowWater ∧ target ≠ 1

instance (target lowWater : ℤ) : Decidable (RefillConfig.Wakes target lowWater) :=
  inferInstanceAs (Decidable (_ ∧ _))

/-- The need that `_current_refill_need` reads off the gate. -/
def refillNeed (cfg : Config) (gate : Gate) : ℤ :=
  if gate.armActive = false then 0
  else if gate.armDelayNs ≤ 0 ∨ gate.armCount ≤ 0 then 0
  else if gate.creditBalanceReq ≥ cfg.refill.lowWater then 0
  else
    let need := max cfg.refill.batch (cfg.refill.target - gate.creditBalanceReq)
    if need ≤ 0 then cfg.refill.batch else need

section Need

variable {cfg : Config} {gate : Gate} {target lowWater batch : ℤ}

theorem currentRefillNeed_eq (token : cfg.directArm = false) :
    currentRefillNeed cfg = perform .look (refillNeed cfg) := by
  unfold currentRefillNeed
  rw [token, if_neg Bool.false_ne_true]
  rfl

/-- The normalized low-water mark of the settings. -/
theorem lowWater_pos_iff :
    0 < (RefillConfig.normalize target lowWater batch).lowWater ↔
      RefillConfig.Wakes target lowWater := by
  show 0 < normalLowWater (normalTarget target) lowWater ↔ 0 < lowWater ∧ target ≠ 1
  unfold normalLowWater normalTarget
  split_ifs <;> omega

/-- An empty gate has a need if there is a mark above its balance. -/
theorem refillNeed_pos_iff (empty : gate.Empty) :
    0 < refillNeed cfg gate ↔ 0 < cfg.refill.lowWater := by
  have batch := cfg.refill.batch_pos
  unfold refillNeed
  rw [empty.active, if_neg Bool.true_eq_false_eq_False, if_neg (by
    rintro (delay | count)
    · exact absurd empty.delay_pos (not_lt.mpr delay)
    · exact absurd empty.count_pos (not_lt.mpr count)), empty.empty]
  by_cases high : 0 ≥ cfg.refill.lowWater
  · rw [if_pos high]
    omega
  · rw [if_neg high]
    show 0 < (if max cfg.refill.batch (cfg.refill.target - 0) ≤ 0 then cfg.refill.batch
      else max cfg.refill.batch (cfg.refill.target - 0)) ↔ 0 < cfg.refill.lowWater
    split <;> omega

end Need

/-! ### The worker -/

/-- A gate that starves its triggers at a time: empty, and no longer suspended. -/
structure Gate.Starves (clock : ℚ) (gate : Gate) : Prop where
  empty : gate.Empty
  unsuspended : gate.armSuspendedUntil ≤ clock

instance (clock : ℚ) (gate : Gate) : Decidable (gate.Starves clock) :=
  decidable_of_iff (gate.Empty ∧ gate.armSuspendedUntil ≤ clock)
    ⟨fun ⟨empty, late⟩ => ⟨empty, late⟩, fun ⟨empty, late⟩ => ⟨empty, late⟩⟩

/-- A clock that shows a time or a later one. -/
def Since (clock : ℚ) : (request : Call) → Answer request → Prop
  | .time, now => clock ≤ (now : ℚ)
  | .arm _, _ => True

instance (clock : ℚ) : (request : Call) → (answer : Answer request) →
    Decidable (Since clock request answer)
  | .time, now => (inferInstance : DecidableLE ℚ) clock now
  | .arm _, _ => inferInstanceAs (Decidable True)

/-- An arm request for credits. -/
def Call.Refills : Call → Prop
  | .time => False
  | .arm request => 0 < request.count

instance : DecidablePred Call.Refills
  | .time => inferInstanceAs (Decidable False)
  | .arm request => inferInstanceAs (Decidable (0 < request.count))

/-- If the worker's sections find the gate starved at a time, and its clock shows that time or a later
one, then it makes a refill attempt. -/
def Attempted (cfg : Config) (clock : ℚ) (pool : GatePool) (moves : List GateMove) : Prop :=
  (∀ gate ∈ trace (step cfg) (views 0) pool moves, gate.Starves clock) →
    (∀ answered ∈ trace (step cfg) (answers 0) pool moves, Since clock answered.1 answered.2) →
      ∃ answered ∈ trace (step cfg) (answers 0) pool moves, answered.1.Refills

section Worker

variable {cfg : Config} {clock : ℚ} {gate : Gate}

/-- `_do_refill` of an empty gate sends an arm request. -/
theorem doRefill_attempts (token : cfg.directArm = false) {tokensReq : ℤ} (pos : 0 < tokensReq)
    (reason : String) {post : ArmResult → Prop} :
    (doRefill cfg tokensReq reason).Attempts (Gate.Starves clock) (Since clock) Call.Refills post := by
  unfold doRefill
  rw [token, if_neg Bool.false_ne_true, if_neg (not_le.mpr pos)]
  refine attempts_bind fun gate starved => ?_
  obtain ⟨⟨active, delay, count, -⟩, -⟩ := starved
  show Attempts _ _ _ _ (ite (gate.armActive = false ∨ gate.armDelayNs ≤ 0 ∨ gate.armCount ≤ 0) _ _)
  rw [if_neg (by simp [active, delay, count])]
  refine attempts_bind (Or.inr fun now _ => ?_)
  refine attempts_bind ?_
  refine attempts_bind fun _ _ => Or.inl ?_
  exact mul_pos pos count

/-- A turn of the worker sends an arm request if the empty gate has a need. -/
theorem refillWorkerTurn_attempts (token : cfg.directArm = false) (low : 0 < cfg.refill.lowWater)
    {post : Unit → Prop} :
    (refillWorkerTurn cfg).Attempts (Gate.Starves clock) (Since clock) Call.Refills post := by
  unfold refillWorkerTurn
  refine attempts_bind (Or.inr fun (now : ℚ) (since : clock ≤ now) => ?_)
  refine attempts_bind fun gate starved => ?_
  have late : gate.armSuspendedUntil ≤ now := le_trans starved.unsuspended since
  show Attempts _ _ _ _ (ite (decide (now < gate.armSuspendedUntil) = true) _ _)
  rw [if_neg (by simpa using late), currentRefillNeed_eq token]
  refine attempts_bind fun gate starved => ?_
  have need : 0 < refillNeed cfg gate := (refillNeed_pos_iff starved.empty).mpr low
  show Attempts _ _ _ _ (ite (refillNeed cfg gate ≤ 0) _ _)
  rw [if_neg (not_le.mpr need)]
  exact attempts_bind (doRefill_attempts token need "async")

/-- The answers of the clock, and of a transport that refuses. -/
def clockReply (clock : ℚ) : (request : Call) → Answer request
  | .time => clock
  | .arm _ => some (⟨false, none, ""⟩ : ArmResult)

/-- A worker that finds no need reads the suspension and the need and ends its turn. -/
theorem refillWorkerTurn_idle (token : cfg.directArm = false) (needless : ¬ 0 < refillNeed cfg gate)
    (unsuspended : gate.armSuspendedUntil ≤ clock) :
    (Job.refillWorkerTurn.program cfg).found Critical.apply (clockReply clock) gate = [gate, gate] ∧
      (Job.refillWorkerTurn.program cfg).asked Critical.apply (clockReply clock) gate =
        [⟨.time, clock⟩] := by
  have check : ¬ decide (clock < gate.armSuspendedUntil) = true := by simpa using unsuspended
  have idle : refillNeed cfg gate ≤ 0 := not_lt.mp needless
  unfold Job.program refillWorkerTurn
  rw [currentRefillNeed_eq token]
  constructor
  · show gate :: found _ _
      (ite (decide (clock < gate.armSuspendedUntil) = true) _ _ >>= fun _ => _) gate = _
    rw [if_neg check]
    show gate :: gate :: found _ _ (ite (refillNeed cfg gate ≤ 0) _ _ >>= fun _ => _) gate = _
    rw [if_pos idle]
    rfl
  · show (⟨Call.time, clock⟩ : (request : Call) × Answer request) :: asked _ _
      (ite (decide (clock < gate.armSuspendedUntil) = true) _ _ >>= fun _ => _) gate = _
    rw [if_neg check]
    show (⟨Call.time, clock⟩ : (request : Call) × Answer request) :: asked _ _
      (ite (refillNeed cfg gate ≤ 0) _ _ >>= fun _ => _) gate = _
    rw [if_pos idle]
    rfl

/-- Without a need the turn ends without a refill attempt. -/
theorem not_attempted (token : cfg.directArm = false) (high : ¬ 0 < cfg.refill.lowWater)
    {pool : GatePool} (turn : pool.threads 0 = some (Job.refillWorkerTurn.program cfg))
    (starved : pool.shared.Starves clock) : ∃ moves final,
    run (step cfg) pool moves = some final ∧ final.Over 0 ∧ ¬ Attempted cfg clock pool moves := by
  have needless : ¬ 0 < refillNeed cfg pool.shared := by
    rwa [refillNeed_pos_iff starved.empty]
  obtain ⟨views, calls⟩ := refillWorkerTurn_idle token needless starved.unsuspended
  let moves : List GateMove :=
    (Job.refillWorkerTurn.program cfg).solo 0 Critical.apply (clockReply clock) pool.shared
  obtain ⟨final, ran, ended, found, asked⟩ : ∃ final, run (step cfg) pool moves = some final ∧
      final.Over 0 ∧ trace (step cfg) (Pool.views 0) pool moves = _ ∧
      trace (step cfg) (answers 0) pool moves = _ := solo_run (clockReply clock) turn
  rw [views] at found
  rw [calls] at asked
  refine ⟨moves, final, ran, ended, fun attempted => ?_⟩
  obtain ⟨answered, here, refills⟩ := attempted
    (by simpa [found] using starved) (by simp [asked, Since])
  rw [asked, List.mem_singleton] at here
  rw [here] at refills
  exact refills

end Worker

/-! ### The worker goes on -/

section Returns

variable {cfg : Config} {gate : Gate} {pool : GatePool} {moves : List GateMove}

/-- **The worker comes to another turn** exactly if none of its arm requests has raised an exception. -/
theorem worker_returns_iff (ran : run (step cfg) (Pool.init gate) moves = some pool) :
    (∃ later next, run (step cfg) pool later = some next ∧
      next.threads 0 = some (Job.refillWorkerTurn.program cfg)) ↔
        ∀ answered ∈ trace (step cfg) (answers 0) (Pool.init gate) moves, ¬ Raised answered.1 answered.2 := by
  obtain ⟨live, failed⟩ := failed_iff_of_run fails_performs.start live_init ran
  have dead : pool.threads 0 = some .failed ↔
      ∃ answered ∈ trace (step cfg) (answers 0) (Pool.init gate) moves, Raised answered.1 answered.2 :=
    (failed 0).trans (or_iff_right nofun)
  constructor
  · rintro ⟨later, next, ran', turn⟩ answered among raised
    have lost := ((failed_iff_of_run fails_performs.start live ran').2 0).mpr (Or.inl (dead.mpr ⟨_, among, raised⟩))
    cases turn.symm.trans lost
  · intro returned
    have going : pool.threads 0 ≠ some .failed := fun lost => by
      obtain ⟨answered, among, raised⟩ := dead.mp lost
      exact returned answered among raised
    obtain ⟨later, idle, ran', free⟩ := ends_of_live (clockReply 0) fails_performs.start live
      (fun request => by cases request <;> nofun) going
    have moved : step cfg idle (.start 0 .refillWorkerTurn) =
        some (idle.resume 0 (some (Job.refillWorkerTurn.program cfg))) := by
      simp [step, Pool.step, free, Job.start]
    exact ⟨later ++ [.start 0 .refillWorkerTurn], _, run_concat_iff.mpr ⟨idle, ran', moved⟩,
      by simp [Pool.resume]⟩

end Returns

/-! ### Empty gates are refilled -/

/-- The refill settings that refill an empty gate: with them and only with them `_current_refill_need`
returns a positive need for it, and with them and only with them every turn of the worker, whatever the
other threads do, makes a refill attempt if it finds the gate empty and not suspended. And in a run the
worker comes to another turn exactly as long as none of its arm requests has raised an exception. -/
theorem refills_empty_iff {cfg : Config} {target lowWater batch : ℤ}
    (normal : cfg.refill = RefillConfig.normalize target lowWater batch)
    (token : cfg.directArm = false) :
    (∃ need : Gate → ℤ, currentRefillNeed cfg = perform .look need ∧
        ∀ gate : Gate, gate.Empty → (0 < need gate ↔ RefillConfig.Wakes target lowWater)) ∧
      (∀ (pool : GatePool) (clock : ℚ),
        pool.threads 0 = some (Job.refillWorkerTurn.program cfg) → pool.shared.Starves clock →
          ((∀ moves final, run (step cfg) pool moves = some final → final.Over 0 →
            Attempted cfg clock pool moves) ↔ RefillConfig.Wakes target lowWater)) ∧
        ∀ (gate : Gate) (moves : List GateMove) (pool : GatePool),
          run (step cfg) (Pool.init gate) moves = some pool →
            ((∃ later next, run (step cfg) pool later = some next ∧
              next.threads 0 = some (Job.refillWorkerTurn.program cfg)) ↔
                ∀ answered ∈ trace (step cfg) (answers 0) (Pool.init gate) moves,
                  ¬ Raised answered.1 answered.2) := by
  have low : 0 < cfg.refill.lowWater ↔ RefillConfig.Wakes target lowWater := by
    rw [normal]
    exact lowWater_pos_iff
  refine ⟨⟨refillNeed cfg, currentRefillNeed_eq token, fun gate empty => ?_⟩,
    fun pool clock turn starved => ⟨fun attempts => ?_, fun wakes => ?_⟩, fun _ _ _ ran => worker_returns_iff ran⟩
  · rw [refillNeed_pos_iff empty, low]
  · by_contra sleeps
    obtain ⟨moves, final, ran, ended, never⟩ :=
      not_attempted token (fun above => sleeps (low.mp above)) turn starved
    exact never (attempts moves final ran ended)
  · intro moves final ran ended seen heard
    refine attempted_of_run ⟨_, turn, ?_⟩ ran ended seen heard
    exact attempts_bind (refillWorkerTurn_attempts token (low.mpr wakes))

/-- The default settings refill an empty gate, as long as the worker goes on. -/
theorem refills_empty_iff_default :
    (∃ need : Gate → ℤ, currentRefillNeed sampleConfig = perform .look need ∧ ∀ gate : Gate, gate.Empty → 0 < need gate) ∧
      (∀ (pool : GatePool) (clock : ℚ),
        pool.threads 0 = some (Job.refillWorkerTurn.program sampleConfig) → pool.shared.Starves clock →
          ∀ moves final, run (step sampleConfig) pool moves = some final → final.Over 0 →
            Attempted sampleConfig clock pool moves) ∧
        ∃ pool, run (step sampleConfig) (Pool.init sampleGate) (refillSent ++ refillAnswered) = some pool ∧
          ∃ later next, run (step sampleConfig) pool later = some next ∧
            next.threads 0 = some (Job.refillWorkerTurn.program sampleConfig) := by
  have wakes : RefillConfig.Wakes 16 4 := by decide
  obtain ⟨⟨need, reads, positive⟩, attempts, returns⟩ := @refills_empty_iff sampleConfig 16 4 8 rfl rfl
  refine ⟨⟨need, reads, fun gate empty => (positive gate empty).mpr wakes⟩,
    fun pool clock turn starved => (attempts pool clock turn starved).mpr wakes, ?_⟩
  obtain ⟨pool, ran⟩ := Option.isSome_iff_exists.mp
    (by decide +kernel : (run (step sampleConfig) (Pool.init sampleGate) (refillSent ++ refillAnswered)).isSome)
  exact ⟨pool, ran, (returns sampleGate _ pool ran).mpr (by decide +kernel)⟩

/-- A configuration without a low-water mark. -/
def unmarkedConfig : Config where
  refill := RefillConfig.normalize 16 0 8

/-- A trigger misses and signals the worker. -/
def missedTrigger : List GateMove :=
  [.start 1 (.trigger "/a" [] "1"), .answer 1 okReply, .critical 1, .critical 1, .critical 1,
    .answer 1 okReply, .critical 1, .critical 1, .critical 1, .critical 1, .critical 1, .critical 1,
    .finish 1]

/-- A turn of the worker that finds no need. -/
def idleTurn : List GateMove :=
  [.start 0 .refillWorkerTurn, .answer 0 okReply, .critical 0, .critical 0, .finish 0]

/-- A turn of the worker whose arm request raises an exception. -/
def raisingTurn : List GateMove :=
  [.start 0 .refillWorkerTurn, .answer 0 raisingReply, .critical 0, .critical 0, .critical 0, .answer 0 raisingReply,
    .critical 0, .answer 0 raisingReply]

/-- With a low-water mark of zero an empty gate has no need. A trigger misses and counts a refill
request, and the worker's turn after it ends without a refill attempt, although it found the gate empty
and not suspended. And a refill with credits that are too long to be written ends the worker: the gate
stays empty, and no turn comes. -/
theorem zero_low_water_miss :
    (∃ need : Gate → ℤ, currentRefillNeed unmarkedConfig = perform .look need ∧
      sampleGate.Empty ∧ need sampleGate = 0) ∧
      (∃ final, run (step unmarkedConfig) (Pool.init sampleGate) (missedTrigger ++ idleTurn) =
          some final ∧
        final.shared.stats.creditMiss = 1 ∧ final.shared.stats.refillRequest = 1 ∧
        final.threads 0 = none ∧
        ¬ Attempted unmarkedConfig 0 (Pool.init sampleGate) (missedTrigger ++ idleTurn)) ∧
        (∃ answered ∈ trace (step sampleConfig) (answers 0) (Pool.init longGate) raisingTurn,
          answered.1.tooLong = true) ∧
        ∃ pool, run (step sampleConfig) (Pool.init longGate) raisingTurn = some pool ∧ pool.shared.Starves 0 ∧
          ¬ ∃ later next, run (step sampleConfig) pool later = some next ∧
            next.threads 0 = some (Job.refillWorkerTurn.program sampleConfig) := by
  have empty : sampleGate.Empty := ⟨rfl, by decide, by decide, rfl⟩
  have runs : ((run (step unmarkedConfig) (Pool.init sampleGate) (missedTrigger ++ idleTurn)).map
      fun final => (final.shared.stats.creditMiss, final.shared.stats.refillRequest,
        (final.threads 0).isNone)) = some (1, 1, true) := by
    decide +kernel
  obtain ⟨final, ran, shown⟩ := Option.map_eq_some_iff.mp runs
  obtain ⟨missed, rest⟩ := Prod.mk.inj shown
  obtain ⟨signalled, ended⟩ := Prod.mk.inj rest
  have dies : ((run (step sampleConfig) (Pool.init longGate) raisingTurn).map fun pool =>
      decide (pool.shared.Starves 0)) = some true := by
    decide +kernel
  obtain ⟨pool, died, starves⟩ := Option.map_eq_some_iff.mp dies
  refine ⟨⟨refillNeed unmarkedConfig, currentRefillNeed_eq rfl, empty, rfl⟩, ⟨final, ran, missed,
    signalled, Option.isNone_iff_eq_none.mp ended, fun attempted => ?_⟩, by decide +kernel, pool, died,
    of_decide_eq_true starves, fun returns => ?_⟩
  · obtain ⟨answered, here, refills⟩ := attempted (by decide +kernel) (by decide +kernel)
    have never : ∀ answered ∈ trace (step unmarkedConfig) (answers 0) (Pool.init sampleGate)
        (missedTrigger ++ idleTurn), ¬ answered.1.Refills := by
      decide +kernel
    exact never answered here refills
  · have returned := (worker_returns_iff died).mp returns
    exact absurd returned (by decide +kernel)

end Mcoz.PyGate
