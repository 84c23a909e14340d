/-
What one step of the engine can do.

`Effect engine action next` has one constructor for each way a critical section can end, with the
facts that its guards establish and the engine it leaves. `effect_of_step` is the only proof that
unfolds the functions of `State` and `Step`; every invariant is a case analysis on its result.
-/

import Mcoz.Engine.Accounts
import Mcoz.Engine.WellFormed

set_option autoImplicit false

namespace Mcoz.Engine

open Word

/-- The ways a step can end. -/
inductive Effect (engine : Engine) : Action → Engine → Prop
  | armFailed {req : RequestArmRequest} {found : Option (UInt64 × Bytes)} {updates : ArmUpdates}
      (unlocked : engine.poll.locked = false)
      (failed : (engine.arm req found updates).2.ok = false) :
      Effect engine (.arm req found updates) engine.armFailed
  | armed {req : RequestArmRequest} {found : Option (UInt64 × Bytes)} {updates : ArmUpdates}
      {resolved : ResolvedTarget} {cfg : VictimCfg} {index : SlotIndex}
      (unlocked : engine.poll.locked = false) (count : 0 ≤ req.count.toInt)
      (target : resolveTarget req.ns req.pod req.container found = some resolved)
      (armed : (engine.victimCfg resolved.cgroupId).arm req.sourceKey
        (engine.armDelay req resolved.cgroupId) req.count = some (cfg, index))
      (updated : updates.victimErrno = none)
      (reply : (engine.arm req found updates).2 = engine.armedReply req resolved cfg index) :
      Effect engine (.arm req found updates)
        (engine.armSucceeded req resolved cfg updates.policyUpdated)
  | policyKept {req : ConsumePolicyApplyRequest} {found : Option (UInt64 × Bytes)}
      {updated : Bool} (unlocked : engine.poll.locked = false) :
      Effect engine (.applyConsumePolicy req found updated) engine
  | policyApplied {req : ConsumePolicyApplyRequest} {found : Option (UInt64 × Bytes)}
      {updated : Bool} {resolved : ResolvedTarget} {flags : UInt32}
      (unlocked : engine.poll.locked = false) :
      Effect engine (.applyConsumePolicy req found updated) (engine.policyApplied resolved flags)
  | recommended {cgroupId : UInt64} {flags : UInt32} {updated : Bool}
      {policies : UInt64 → Option UInt32} (unlocked : engine.poll.locked = false) :
      Effect engine (.installRecommended cgroupId flags updated)
        { engine with consumePolicyMap := policies }
  | recommendedFailed {cgroupId : UInt64} {flags : UInt32} {updated : Bool}
      (unlocked : engine.poll.locked = false) :
      Effect engine (.installRecommended cgroupId flags updated) engine
  | cleared {clearCredits : Bool} {updated : UInt64 → Bool}
      (unlocked : engine.poll.locked = false) :
      Effect engine (.clear clearCredits updated) (engine.clear clearCredits updated)
  | ignored {call : Syscall} : Effect engine (.receive call) engine
  | received {call : Syscall} {cfg : VictimCfg} {chosen : SlotIndex} {events : List ConsumeEvent}
      {stats : GlobalStats} (value : engine.victimMap call.cgroupId = some cfg)
      (eligible : cfg.Eligible chosen)
      (queued : events = engine.events ∨
        events = engine.events ++ [consumeEvent call (cfg.slots chosen) chosen]) :
      Effect engine (.receive call)
        { engine with
          victimMap :=
            Function.update engine.victimMap call.cgroupId (some (cfg.advanceCursor chosen))
          events := events
          globalStats := stats }
  | began {event : ConsumeEvent} {rest : List ConsumeEvent} (idle : engine.poll = .idle)
      (queued : engine.events = event :: rest) :
      Effect engine .beginEvent
        { engine with
          events := rest
          poll := .consuming event (engine.victimMap event.cgroupId) }
  | dropped {event : ConsumeEvent} {copy : Option VictimCfg} {updated : Bool}
      (consuming : engine.poll = .consuming event copy)
      (refused : consumption event copy = none ∨ updated = false) :
      Effect engine (.finishConsume updated) { engine with poll := .idle }
  | consumed {event : ConsumeEvent} {copy : Option VictimCfg} {result : VictimCfg.Consumption}
      {updated : Bool} (consuming : engine.poll = .consuming event copy)
      (taken : consumption event copy = some result) (wrote : updated = true) :
      Effect engine (.finishConsume updated) (engine.creditConsumed event result)
  | triggered {event : ConsumeEvent} {delayNs : UInt64} {desc : Bytes}
      (consumed : engine.poll = .consumed event delayNs desc) :
      Effect engine .accountTrigger
        (engine.triggerAccounted event delayNs desc)
  | injected {event : ConsumeEvent} {delayNs : UInt64} {desc : Bytes} {errno : Option ℤ}
      (triggered : engine.poll = .triggered event delayNs desc) :
      Effect engine (.inject errno)
        (engine.delayInjected event delayNs desc errno)
  | settled {event : ConsumeEvent} {delayNs : UInt64} {desc : Bytes} {errno : Option ℤ}
      (injected : engine.poll = .injected event delayNs desc errno) :
      Effect engine .accountInjection
        (engine.injectionAccounted event desc errno)

section Inversion

/-- An arm fails and only counts the failure, or it writes one slot table and one record. -/
theorem arm_cases (engine : Engine) (req : RequestArmRequest) (found : Option (UInt64 × Bytes))
    (updates : ArmUpdates) :
    ((engine.arm req found updates).1 = engine.armFailed ∧
      (engine.arm req found updates).2.ok = false) ∨
    ∃ resolved cfg index, 0 ≤ req.count.toInt ∧
      resolveTarget req.ns req.pod req.container found = some resolved ∧
      (engine.victimCfg resolved.cgroupId).arm req.sourceKey
        (engine.armDelay req resolved.cgroupId) req.count = some (cfg, index) ∧
      updates.victimErrno = none ∧
      engine.arm req found updates = (engine.armSucceeded req resolved cfg updates.policyUpdated,
        engine.armedReply req resolved cfg index) := by
  fun_cases engine.arm req found updates with
  | case6 nonneg resolved target active cfg index armed updated =>
      have count : 0 ≤ req.count.toInt := by
        rw [neg_iff] at nonneg
        omega
      exact Or.inr ⟨resolved, cfg, index, count, target, armed, updated, rfl⟩
  | _ => exact Or.inl ⟨rfl, rfl⟩

variable {engine next : Engine}

theorem control_iff {after : Engine} :
    engine.control after = some next ↔ engine.poll.locked = false ∧ after = next := by
  unfold control
  cases engine.poll.locked <;> simp

theorem effect_of_arm {req : RequestArmRequest} {found : Option (UInt64 × Bytes)}
    {updates : ArmUpdates} (unlocked : engine.poll.locked = false) :
    Effect engine (.arm req found updates) (engine.arm req found updates).1 := by
  rcases arm_cases engine req found updates with
    ⟨failed, refused⟩ | ⟨resolved, cfg, index, count, target, armed, updated, outcome⟩
  · rw [failed]
    exact .armFailed unlocked refused
  · rw [outcome]
    exact .armed unlocked count target armed updated (by rw [outcome])

theorem effect_of_applyConsumePolicy {req : ConsumePolicyApplyRequest}
    {found : Option (UInt64 × Bytes)} {updated : Bool} (unlocked : engine.poll.locked = false) :
    Effect engine (.applyConsumePolicy req found updated)
      (engine.applyConsumePolicy req found updated) := by
  fun_cases engine.applyConsumePolicy req found updated with
  | case4 => exact .policyApplied unlocked
  | _ => exact .policyKept unlocked

theorem effect_of_receive (engine : Engine) (call : Syscall) :
    Effect engine (.receive call) (engine.consumeIfPolicyAllows call) := by
  unfold consumeIfPolicyAllows
  split
  · fun_cases engine.consumeOnce call with
    | case4 cfg value enabled chosen choice stats moved reserved =>
        exact .received value (VictimCfg.chooseSlot_eligible choice) (Or.inr rfl)
    | case5 cfg value enabled chosen choice stats moved full =>
        exact .received value (VictimCfg.chooseSlot_eligible choice) (Or.inl rfl)
    | _ => exact .ignored
  · exact .ignored

theorem effect_of_finishConsume {updated : Bool} (moved : engine.finishConsume updated = some next) :
    Effect engine (.finishConsume updated) next := by
  revert moved
  fun_cases engine.finishConsume updated with
  | case1 event copy consuming refused =>
      rintro ⟨⟩
      exact .dropped consuming (Or.inl refused)
  | case2 event copy consuming result taken wrote =>
      rintro ⟨⟩
      exact .consumed consuming taken wrote
  | case3 event copy consuming result taken unwritten =>
      rintro ⟨⟩
      exact .dropped consuming (Or.inr (by simpa using unwritten))
  | case4 => simp

/-- A step has one of the effects. -/
theorem effect_of_step {action : Action} (moved : engine.step action = some next) :
    Effect engine action next := by
  cases action with
  | arm req found updates =>
      obtain ⟨unlocked, rfl⟩ := control_iff.mp moved
      exact effect_of_arm unlocked
  | applyConsumePolicy req found updated =>
      obtain ⟨unlocked, rfl⟩ := control_iff.mp moved
      exact effect_of_applyConsumePolicy unlocked
  | installRecommended cgroupId flags updated =>
      obtain ⟨unlocked, rfl⟩ := control_iff.mp moved
      unfold installRecommended
      split
      · exact .recommended unlocked
      · exact .recommendedFailed unlocked
  | clear clearCredits updated =>
      obtain ⟨unlocked, rfl⟩ := control_iff.mp moved
      exact .cleared unlocked
  | receive call =>
      cases moved
      exact effect_of_receive engine call
  | beginEvent =>
      change engine.beginEvent = some next at moved
      revert moved
      fun_cases beginEvent engine with
      | case1 event rest queued idle =>
          rintro ⟨⟩
          exact .began idle queued
      | case2 => simp
  | finishConsume updated => exact effect_of_finishConsume moved
  | accountTrigger =>
      change engine.accountTrigger = some next at moved
      revert moved
      fun_cases accountTrigger engine with
      | case1 event delayNs desc consumed =>
          rintro ⟨⟩
          exact .triggered consumed
      | case2 => simp
  | inject errno =>
      change engine.inject errno = some next at moved
      revert moved
      fun_cases engine.inject errno with
      | case1 event delayNs desc triggered =>
          rintro ⟨⟩
          exact .injected triggered
      | case2 => simp
  | accountInjection =>
      change engine.accountInjection = some next at moved
      revert moved
      fun_cases accountInjection engine with
      | case1 event delayNs desc errno injected =>
          rintro ⟨⟩
          exact .settled injected
      | case2 => simp

end Inversion

end Mcoz.Engine
