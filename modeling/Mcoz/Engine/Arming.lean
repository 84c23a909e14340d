/-
What an arm leaves alone, and the delay that it gives.

* `failedArm_noEffect`: an arm that is answered with failure, at whatever depth it failed, leaves the
  slot tables, the policies and the records alone; and the three counters of the arms agree after every
  run. The calls go through `request_credit_arm` and `request_credit_clear`, the functions around
  `g_engine`, and every other critical section may come between them.
* `undelayedArm_largest`: an arm without a delay gives its slot the largest delay of all eight slots,
  exhausted ones included, so a slot keeps its own delay exactly if no other slot has a larger one.
-/

import Mcoz.Engine.Invariant
import Mathlib.Order.Bounds.Basic

set_option autoImplicit false

namespace Mcoz.Engine

open Word Machine

/-! ### The functions around the engine -/

/-- `g_engine`: none before `request_credit_start` and after `request_credit_stop`. -/
abbrev Gate := Option Engine

/-- `request_credit_arm`. Without an active engine nothing is counted. -/
def requestCreditArm (gate : Gate) (req : RequestArmRequest) (found : Option (UInt64 × Bytes))
    (updates : ArmUpdates) : Gate × ArmReply :=
  match gate with
  | none => (none, .inactive)
  | some engine =>
      if engine.active = false then (some engine, .inactive)
      else (some (engine.arm req found updates).1, (engine.arm req found updates).2)

/-- `request_credit_clear`. -/
def requestCreditClear (gate : Gate) (clearCredits : Bool) (updated : UInt64 → Bool) : Gate :=
  match gate with
  | none => none
  | some engine =>
      if engine.active = false then some engine else some (engine.clear clearCredits updated)

/-- The step of the gate: an arm or a clear runs to completion through its function as soon as `mu_` is
free, and the other threads go on with the engine inside. -/
def gateStep (gate : Gate) : Action → Option Gate
  | .arm req found updates =>
      if (gate.map fun engine => engine.poll.locked) = some true then none
      else some (requestCreditArm gate req found updates).1
  | .clear clearCredits updated =>
      if (gate.map fun engine => engine.poll.locked) = some true then none
      else some (requestCreditClear gate clearCredits updated)
  | action => gate.bind fun engine => (engine.step action).map some

/-! ### A failed arm -/

/-- Two engines with the same slot tables, policies and records. -/
structure SameTables (engine next : Engine) : Prop where
  victimMap : next.victimMap = engine.victimMap
  consumePolicyMap : next.consumePolicyMap = engine.consumePolicyMap
  victims : next.victims = engine.victims

theorem SameTables.refl (engine : Engine) : SameTables engine engine :=
  ⟨rfl, rfl, rfl⟩

/-- A failed arm is counted and does nothing else. -/
theorem arm_of_failed {engine : Engine} {req : RequestArmRequest}
    {found : Option (UInt64 × Bytes)} {updates : ArmUpdates}
    (failed : (engine.arm req found updates).2.ok = false) :
    (engine.arm req found updates).1 = engine.armFailed := by
  rcases arm_cases engine req found updates with ⟨only, -⟩ | ⟨resolved, cfg, index, -, -, -, -, outcome⟩
  · exact only
  · rw [outcome] at failed
    cases failed

theorem sameTables_of_failed {engine : Engine} {req : RequestArmRequest}
    {found : Option (UInt64 × Bytes)} {updates : ArmUpdates}
    (failed : (engine.arm req found updates).2.ok = false) :
    SameTables engine (engine.arm req found updates).1 := by
  rw [arm_of_failed failed]
  exact ⟨rfl, rfl, rfl⟩

/-! ### The counters of the arms -/

/-- Every arm that was begun has succeeded or failed. -/
def ArmsCounted (engine : Engine) : Prop :=
  engine.triggered = engine.armedOk + engine.armFail

section Counters

variable {engine next : Engine}

theorem ArmsCounted.armFailed (counted : ArmsCounted engine) : ArmsCounted engine.armFailed := by
  show engine.triggered + 1 = engine.armedOk + (engine.armFail + 1)
  rw [counted, UInt64.add_assoc]

theorem ArmsCounted.armSucceeded (counted : ArmsCounted engine) (req : RequestArmRequest)
    (resolved : ResolvedTarget) (cfg : VictimCfg) (policyUpdated : Bool) :
    ArmsCounted (engine.armSucceeded req resolved cfg policyUpdated) := by
  show engine.triggered + 1 = engine.armedOk + 1 + engine.armFail
  rw [counted, UInt64.add_assoc, UInt64.add_assoc, UInt64.add_comm engine.armFail]

theorem ArmsCounted.arm (counted : ArmsCounted engine) (req : RequestArmRequest)
    (found : Option (UInt64 × Bytes)) (updates : ArmUpdates) :
    ArmsCounted (engine.arm req found updates).1 := by
  rcases arm_cases engine req found updates with
    ⟨failed, -⟩ | ⟨resolved, cfg, index, -, -, -, -, outcome⟩
  · rw [failed]
    exact counted.armFailed
  · rw [outcome]
    exact counted.armSucceeded req resolved cfg updates.policyUpdated

theorem armsCounted_clear (engine : Engine) (clearCredits : Bool) (updated : UInt64 → Bool) :
    ArmsCounted (engine.clear clearCredits updated) := rfl

/-- The sections of the other threads do not touch the three counters. -/
theorem ArmsCounted.step {action : Action} (counted : ArmsCounted engine)
    (moved : engine.step action = some next) : ArmsCounted next := by
  cases effect_of_step moved with
  | armFailed => exact counted.armFailed
  | armed => exact counted.armSucceeded _ _ _ _
  | cleared => exact armsCounted_clear engine _ _
  | _ => exact counted

/-- The counters of an engine that may be there. -/
def GateCounted (gate : Gate) : Prop :=
  ∀ engine, gate = some engine → ArmsCounted engine

theorem GateCounted.arm {gate : Gate} (counted : GateCounted gate) (req : RequestArmRequest)
    (found : Option (UInt64 × Bytes)) (updates : ArmUpdates) :
    GateCounted (requestCreditArm gate req found updates).1 := by
  fun_cases requestCreditArm gate req found updates with
  | case1 => exact counted
  | case2 => exact counted
  | case3 engine =>
      rintro next ⟨⟩
      exact (counted engine rfl).arm req found updates

theorem GateCounted.clear {gate : Gate} (counted : GateCounted gate) (clearCredits : Bool)
    (updated : UInt64 → Bool) : GateCounted (requestCreditClear gate clearCredits updated) := by
  fun_cases requestCreditClear gate clearCredits updated with
  | case1 => exact counted
  | case2 => exact counted
  | case3 engine =>
      rintro next ⟨⟩
      exact armsCounted_clear engine clearCredits updated

/-- Every step of the gate keeps the counters together. -/
theorem GateCounted.step {gate after : Gate} {action : Action} (counted : GateCounted gate)
    (moved : gateStep gate action = some after) : GateCounted after := by
  revert moved
  fun_cases gateStep gate action with
  | case1 => simp
  | case2 req found updates =>
      rintro ⟨⟩
      exact counted.arm req found updates
  | case3 => simp
  | case4 clearCredits updated =>
      rintro ⟨⟩
      exact counted.clear clearCredits updated
  | case5 =>
      intro moved
      obtain ⟨engine, rfl, inner⟩ := Option.bind_eq_some_iff.mp moved
      obtain ⟨next, stepped, rfl⟩ := Option.map_eq_some_iff.mp inner
      rintro other ⟨⟩
      exact (counted engine rfl).step stepped

end Counters

/-- A failed arm has no effect but on the counters, through the gate as on the engine itself, and on
every engine; and after every run of the gate from a new engine, with arms and clears and the other
threads in any order, the arms that were begun are those that succeeded and those that failed. -/
theorem failedArm_noEffect :
    (∀ (engine : Engine) (req : RequestArmRequest) (found : Option (UInt64 × Bytes))
      (updates : ArmUpdates), (engine.arm req found updates).2.ok = false →
      SameTables engine (engine.arm req found updates).1) ∧
    (∀ (gate : Gate) (req : RequestArmRequest) (found : Option (UInt64 × Bytes))
      (updates : ArmUpdates), (requestCreditArm gate req found updates).2.ok = false →
      Option.Rel SameTables gate (requestCreditArm gate req found updates).1) ∧
    ∀ (defaultDelayNs : UInt64) (actions : List Action) (final : Engine),
      run gateStep (some (init defaultDelayNs)) actions = some (some final) →
      final.triggered = final.armedOk + final.armFail := by
  refine ⟨fun engine req found updates => sameTables_of_failed, ?_, ?_⟩
  · intro gate req found updates
    fun_cases requestCreditArm gate req found updates with
    | case1 => exact fun _ => .none
    | case2 engine => exact fun _ => .some (SameTables.refl engine)
    | case3 engine => exact fun failed => .some (sameTables_of_failed failed)
  · intro defaultDelayNs actions final ran
    have start : GateCounted (some (init defaultDelayNs)) := by
      rintro engine ⟨⟩
      rfl
    have counted := Reachable.invariant GateCounted start
      (fun _ _ _ counted moved => counted.step moved) ⟨actions, ran⟩
    exact counted final rfl

/-- A negative count is refused by an engine with a table; and the arm before it, a clear and another
arm leave one success behind. -/
theorem failedArm_noEffect_sample : ∃ engine final,
    run gateStep (some (init 1000)) [sampleArm 5] = some (some engine) ∧
      SameTables engine
        (engine.arm (sampleRequest (-1)) (some (7, ascii "/sys/fs/cgroup/cart")) ⟨none, true⟩).1 ∧
      run gateStep (some (init 1000))
        [sampleArm 5, sampleArm (-1), .clear false (fun _ => true), sampleArm 5] =
          some (some final) ∧
      final.triggered = final.armedOk + final.armFail := by
  refine ⟨_, _, rfl, failedArm_noEffect.1 _ _ _ _ rfl, rfl, ?_⟩
  exact failedArm_noEffect.2.2 1000 [sampleArm 5, sampleArm (-1), .clear false (fun _ => true),
    sampleArm 5] _ rfl

end Mcoz.Engine

/-! ### The delay of an arm -/

namespace Mcoz.VictimCfg

section Largest

/-- One round of the loop of `max_delay` keeps the larger one. -/
theorem larger_spec (out delayNs : UInt64) :
    let next := if delayNs > out then delayNs else out
    (next = out ∨ next = delayNs) ∧ out ≤ next ∧ delayNs ≤ next := by
  intro next
  by_cases larger : delayNs > out
  · have same : next = delayNs := if_pos larger
    rw [same]
    exact ⟨Or.inr rfl, UInt64.le_of_lt larger, UInt64.le_refl delayNs⟩
  · have same : next = out := if_neg larger
    rw [same]
    exact ⟨Or.inl rfl, UInt64.le_refl out, UInt64.not_lt.mp larger⟩

variable (cfg : VictimCfg)

/-- The loop of `max_delay` ends at its accumulator or at a delay that it met, and below neither. -/
theorem maxDelay_loop : ∀ (indices : List SlotIndex) (out : UInt64),
    let largest := indices.foldl
      (fun out i => if (cfg.slots i).delayNs > out then (cfg.slots i).delayNs else out) out
    (largest = out ∨ ∃ i ∈ indices, largest = (cfg.slots i).delayNs) ∧
      out ≤ largest ∧ ∀ i ∈ indices, (cfg.slots i).delayNs ≤ largest
  | [], out => ⟨Or.inl rfl, UInt64.le_refl out, by simp⟩
  | i :: rest, out => by
      obtain ⟨round, above, reached⟩ := larger_spec out (cfg.slots i).delayNs
      obtain ⟨origin, onwards, bound⟩ := maxDelay_loop rest
        (if (cfg.slots i).delayNs > out then (cfg.slots i).delayNs else out)
      refine ⟨?_, UInt64.le_trans above onwards, ?_⟩
      · rcases origin with same | ⟨j, member, same⟩
        · rcases round with kept | taken
          · exact Or.inl (same.trans kept)
          · exact Or.inr ⟨i, List.mem_cons_self, same.trans taken⟩
        · exact Or.inr ⟨j, List.mem_cons_of_mem i member, same⟩
      · intro j member
        rcases List.mem_cons.mp member with rfl | later
        · exact UInt64.le_trans reached onwards
        · exact bound j later

/-- `max_delay` is the largest delay of the eight slots. -/
theorem maxDelay_isGreatest :
    IsGreatest (Set.range fun i => (cfg.slots i).delayNs) cfg.maxDelay := by
  obtain ⟨origin, -, bound⟩ := cfg.maxDelay_loop (List.finRange maxSourceSlots) 0
  have upper : ∀ i, (cfg.slots i).delayNs ≤ cfg.maxDelay := fun i => bound i (List.mem_finRange i)
  refine ⟨?_, ?_⟩
  · rcases origin with zero | ⟨i, -, same⟩
    · -- No slot has a delay, so each has the largest one.
      have least : (cfg.slots 0).delayNs ≤ 0 := zero ▸ upper 0
      exact ⟨0, (UInt64.le_antisymm least UInt64.zero_le).trans zero.symm⟩
    · exact ⟨i, same.symm⟩
  · rintro delayNs ⟨i, rfl⟩
    exact upper i

/-- A slot has the largest delay exactly if no other has a larger one. -/
theorem maxDelay_eq_iff (index : SlotIndex) : cfg.maxDelay = (cfg.slots index).delayNs ↔
    ∀ i, (cfg.slots i).delayNs ≤ (cfg.slots index).delayNs := by
  have greatest := cfg.maxDelay_isGreatest
  constructor
  · intro same i
    rw [← same]
    exact greatest.2 ⟨i, rfl⟩
  · intro upper
    obtain ⟨i, same⟩ := greatest.1
    refine UInt64.le_antisymm ?_ (greatest.2 ⟨index, rfl⟩)
    rw [← same]
    exact upper i

end Largest

/-- Without a delay of its own, an arm takes the largest delay of the table if there is one. -/
theorem effectiveDelay_of_none {cfg : VictimCfg} {index : SlotIndex}
    (delayed : 0 < (cfg.slots index).delayNs) (defaultDelayNs : UInt64) :
    cfg.effectiveDelay 0 defaultDelayNs = cfg.maxDelay := by
  have positive : 0 < cfg.maxDelay :=
    UInt64.lt_of_lt_of_le delayed (cfg.maxDelay_isGreatest.2 ⟨index, rfl⟩)
  unfold effectiveDelay
  rw [if_neg (UInt64.lt_irrefl 0), if_pos positive]

end Mcoz.VictimCfg

namespace Mcoz.Engine

open Word Machine

/-- The arm that a reply of success comes from. -/
theorem arm_of_ok {engine : Engine} {req : RequestArmRequest} {found : Option (UInt64 × Bytes)}
    {updates : ArmUpdates} {resolved : ResolvedTarget}
    (target : resolveTarget req.ns req.pod req.container found = some resolved)
    (ok : (engine.arm req found updates).2.ok = true) : ∃ cfg index,
      0 ≤ req.count.toInt ∧
      (engine.victimCfg resolved.cgroupId).arm req.sourceKey
        (engine.armDelay req resolved.cgroupId) req.count = some (cfg, index) ∧
      (engine.arm req found updates).1.victimCfg resolved.cgroupId = cfg := by
  rcases arm_cases engine req found updates with
    ⟨-, failed⟩ | ⟨other, cfg, index, count, same, armed, -, outcome⟩
  · rw [ok] at failed
    cases failed
  · cases same.symm.trans target
    refine ⟨cfg, index, count, armed, ?_⟩
    rw [outcome, armSucceeded_victimCfg, if_pos rfl]

/-- After every run, a successful arm without a delay, for a source whose slot has one, leaves in that
slot the largest delay of the eight slots of the victim: the slot's own delay exactly if no other
slot has a larger one. -/
theorem undelayedArm_largest {defaultDelayNs : UInt64} {actions : List Action} {final : Engine}
    (ran : run step (init defaultDelayNs) actions = some final) {req : RequestArmRequest}
    {found : Option (UInt64 × Bytes)} {updates : ArmUpdates} {resolved : ResolvedTarget}
    (target : resolveTarget req.ns req.pod req.container found = some resolved)
    (ok : (final.arm req found updates).2.ok = true) (undelayed : req.delayNs = 0)
    {index : SlotIndex}
    (holds : ((final.victimCfg resolved.cgroupId).slots index).sourceKey = req.sourceKey)
    (delayed : 0 < ((final.victimCfg resolved.cgroupId).slots index).delayNs) :
    let before := (final.victimCfg resolved.cgroupId).slots
    let after := ((final.arm req found updates).1.victimCfg resolved.cgroupId).slots
    (after index).sourceKey = req.sourceKey ∧
      IsGreatest (Set.range fun i => (before i).delayNs) (after index).delayNs ∧
      ((after index).delayNs = (before index).delayNs ↔
        ∀ i, (before i).delayNs ≤ (before index).delayNs) := by
  intro before after
  have wellFormed := (inv_of_run ran).victimCfg_wellFormed resolved.cgroupId
  obtain ⟨cfg, picked, -, armed, written⟩ := arm_of_ok target ok
  obtain ⟨found, slots, -, -⟩ := VictimCfg.arm_spec armed
  have same : picked = index := by
    have exact := wellFormed.findExactSlot_of_holds req.sourceKey_ne_zero holds
    rw [VictimCfg.findSlotForSource, exact] at found
    exact (Option.some.inj found).symm
  subst same
  have delay : final.armDelay req resolved.cgroupId =
      (final.victimCfg resolved.cgroupId).maxDelay := by
    rw [armDelay, undelayed]
    exact VictimCfg.effectiveDelay_of_none delayed final.defaultDelayNs
  have slot : after picked = VictimCfg.armedSlot (before picked) req.sourceKey
      (final.victimCfg resolved.cgroupId).maxDelay req.count := by
    show ((final.arm req _ updates).1.victimCfg resolved.cgroupId).slots picked = _
    rw [written, slots, Function.update_self, delay]
  rw [slot]
  exact ⟨rfl, VictimCfg.maxDelay_isGreatest _, VictimCfg.maxDelay_eq_iff _ picked⟩

/-- A request of one credit for a source on the cgroup of the pod `cart`. -/
def delayedRequest (source : String) (delayNs : UInt64) : RequestArmRequest :=
  ⟨ascii "shop", ascii "cart", [], ascii source, delayNs, 1⟩

/-- The arm with this request. -/
def delayedArm (source : String) (delayNs : UInt64) : Action :=
  .arm (delayedRequest source delayNs) (some (7, ascii "/sys/fs/cgroup/cart")) ⟨none, true⟩

/-- A source is armed without a delay after another source with a larger one. -/
theorem undelayedArm_largest_sample : ∃ final,
    run step (init 1000) [delayedArm "db" 20, delayedArm "web" 10] = some final ∧
    let before := (final.victimCfg 7).slots
    let after := ((final.arm (delayedRequest "web" 0) (some (7, ascii "/sys/fs/cgroup/cart"))
      ⟨none, true⟩).1.victimCfg 7).slots
    (before 1).delayNs = 10 ∧ IsGreatest (Set.range fun i => (before i).delayNs) (after 1).delayNs ∧
      (after 1).delayNs ≠ (before 1).delayNs := by
  have largest := @undelayedArm_largest 1000 [delayedArm "db" 20, delayedArm "web" 10] _ rfl
    (delayedRequest "web" 0) (some (7, ascii "/sys/fs/cgroup/cart")) ⟨none, true⟩ _ rfl rfl rfl 1 rfl (by decide)
  exact ⟨_, rfl, rfl, largest.2.1, fun same => absurd (largest.2.2.mp same 0) (by decide)⟩

/-- A source with the smaller delay takes the delay of another source when it is armed without one. -/
theorem undelayedArm_raises : ¬ ∀ (defaultDelayNs : UInt64) (actions : List Action) (final : Engine),
    run step (init defaultDelayNs) actions = some final →
    ∀ (req : RequestArmRequest) (found : Option (UInt64 × Bytes)) (updates : ArmUpdates)
      (resolved : ResolvedTarget) (index : SlotIndex),
      resolveTarget req.ns req.pod req.container found = some resolved →
      (final.arm req found updates).2.ok = true → req.delayNs = 0 →
      ((final.victimCfg resolved.cgroupId).slots index).sourceKey = req.sourceKey →
      0 < ((final.victimCfg resolved.cgroupId).slots index).delayNs →
      (((final.arm req found updates).1.victimCfg resolved.cgroupId).slots index).delayNs =
        ((final.victimCfg resolved.cgroupId).slots index).delayNs := by
  intro kept
  have same := kept 1000 [delayedArm "db" 20, delayedArm "web" 10] _ rfl (delayedRequest "web" 0)
    (some (7, ascii "/sys/fs/cgroup/cart")) ⟨none, true⟩ _ 1 rfl rfl rfl rfl (by decide)
  exact absurd same (by decide)

end Mcoz.Engine
