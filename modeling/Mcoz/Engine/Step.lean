/-
The request-credit engine as a machine.

`on_ring_event` in its parts (the mutex is dropped between them), and `step`, the machine whose
actions are the critical sections of all threads in any order. `mu_` is held over the two parts of
`consume_credit_locked`, the lookup of the map value and its update: while the poll thread is in
that phase, only the BPF program moves.
-/

import Mcoz.Engine.State

set_option autoImplicit false

namespace Mcoz

open Word

namespace PollPhase

/-- The event whose credit is spent and whose accounts are not final. -/
def inFlight : PollPhase → Option ConsumeEvent
  | .consumed event _ _ => some event
  | .triggered event _ _ => some event
  | .injected event _ _ _ => some event
  | _ => none

/-- The poll thread holds `mu_`. -/
def locked : PollPhase → Bool
  | .consuming _ _ => true
  | _ => false

end PollPhase

namespace Engine

/-! ### The poll thread -/

/-- The poll thread takes the oldest event, locks `mu_` and looks the map value up. -/
def beginEvent (engine : Engine) : Option Engine :=
  match engine.poll, engine.events with
  | .idle, event :: rest =>
      some { engine with
        events := rest
        poll := .consuming event (engine.victimMap event.cgroupId) }
  | _, _ => none

/-- The source description of an event: the name on record, else the key. -/
def sourceDesc (vr : VictimRuntime) (sourceKey : UInt64) : Bytes :=
  match vr.sources sourceKey with
  | none => formatSourceKey sourceKey
  | some sr => sr.source

/-- The entry of a source that was not on record before its event. -/
def noteSource (vr : VictimRuntime) (sourceKey : UInt64) : VictimRuntime :=
  match vr.sources sourceKey with
  | none => { vr with sources := modifyEntry vr.sources sourceKey fun sr =>
      { sr with sourceKey := sourceKey, source := formatSourceKey sourceKey } }
  | some _ => vr

/-- What `consume_credit_locked` computes from the copy that it looked up. -/
def consumption (event : ConsumeEvent) (copy : Option VictimCfg) : Option VictimCfg.Consumption :=
  copy.bind fun cfg => cfg.consumeCredit event.sourceKey event.slotIndex

/-- The engine after `consume_credit_locked` returned true: the decremented copy is in the map, the
source is on record. -/
def creditConsumed (engine : Engine) (event : ConsumeEvent) (result : VictimCfg.Consumption) :
    Engine :=
  { engine with
    victimMap := Function.update engine.victimMap event.cgroupId (some result.cfg)
    victims := modifyEntry engine.victims event.cgroupId fun vr => noteSource vr event.sourceKey
    poll := .consumed event result.delayNs
      (sourceDesc ((engine.victims event.cgroupId).getD default) event.sourceKey) }

/-- The rest of the first critical section. -/
def finishConsume (engine : Engine) (updated : Bool) : Option Engine :=
  match engine.poll with
  | .consuming event copy =>
      match consumption event copy with
      | none => some { engine with poll := .idle }
      | some result =>
          if updated then some (engine.creditConsumed event result)
          else some { engine with poll := .idle }
  | _ => none

end Engine

/-- The accounts of a source after the trigger section of its event. -/
def VictimSourceRuntime.recordTrigger (sr : VictimSourceRuntime) (event : ConsumeEvent)
    (delayNs : UInt64) (desc : Bytes) : VictimSourceRuntime :=
  { sr with
    sourceKey := event.sourceKey
    source := if sr.source = [] then desc else sr.source
    consumeTrigger := sr.consumeTrigger + 1
    bpfEvents := sr.bpfEvents + 1
    lastTid := event.tid.toUInt64
    lastTsNs := event.tsNs
    lastDelayNs := if delayNs > 0 then delayNs else sr.lastDelayNs }

/-- The accounts of a victim after the trigger section of an event. -/
def VictimRuntime.recordTrigger (vr : VictimRuntime) (event : ConsumeEvent) (delayNs : UInt64)
    (desc : Bytes) : VictimRuntime :=
  { vr with
    consumeTrigger := vr.consumeTrigger + 1
    bpfEvents := vr.bpfEvents + 1
    lastTid := event.tid.toUInt64
    lastTsNs := event.tsNs
    lastSourceKey := event.sourceKey
    lastSource := desc
    lastDelayNs := if delayNs > 0 then delayNs else vr.lastDelayNs
    sources := modifyEntry vr.sources event.sourceKey fun sr =>
      sr.recordTrigger event delayNs desc }

/-- The error text of a failed injection. -/
def injectError (errno : ℤ) : Bytes :=
  ascii "syscall449 failed errno=" ++ signedDecimal errno

/-- The accounts of a source after the injection section of its event. -/
def VictimSourceRuntime.recordInjection (sr : VictimSourceRuntime) (event : ConsumeEvent)
    (desc : Bytes) (errno : Option ℤ) : VictimSourceRuntime :=
  let named := { sr with
    sourceKey := event.sourceKey
    source := if sr.source = [] then desc else sr.source }
  match errno with
  | none => { named with injectedOk := sr.injectedOk + 1 }
  | some errno => { named with injectFail := sr.injectFail + 1, lastError := injectError errno }

/-- The accounts of a victim after the injection section of an event. -/
def VictimRuntime.recordInjection (vr : VictimRuntime) (event : ConsumeEvent) (desc : Bytes)
    (errno : Option ℤ) : VictimRuntime :=
  let entered := { vr with
    sources := modifyEntry vr.sources event.sourceKey fun sr =>
      sr.recordInjection event desc errno }
  match errno with
  | none => { entered with injectedOk := vr.injectedOk + 1 }
  | some errno => { entered with injectFail := vr.injectFail + 1, lastError := injectError errno }

namespace Engine

/-- The engine after the trigger section of an event. -/
def triggerAccounted (engine : Engine) (event : ConsumeEvent) (delayNs : UInt64) (desc : Bytes) :
    Engine :=
  { engine with
    victims := modifyEntry engine.victims event.cgroupId fun vr =>
      vr.recordTrigger event delayNs desc
    poll := .triggered event delayNs desc }

/-- The second critical section: the trigger accounts. -/
def accountTrigger (engine : Engine) : Option Engine :=
  match engine.poll with
  | .consumed event delayNs desc => some (engine.triggerAccounted event delayNs desc)
  | _ => none

/-- The engine after `ghost_delay_tid` returned, with its global counter. -/
def delayInjected (engine : Engine) (event : ConsumeEvent) (delayNs : UInt64) (desc : Bytes)
    (errno : Option ℤ) : Engine :=
  { engine with
    injectedOk := if errno.isNone then engine.injectedOk + 1 else engine.injectedOk
    injectFail := if errno.isNone then engine.injectFail else engine.injectFail + 1
    poll := .injected event delayNs desc errno }

/-- `ghost_delay_tid`, without the mutex: its error number, none if it returned zero. -/
def inject (engine : Engine) (errno : Option ℤ) : Option Engine :=
  match engine.poll with
  | .triggered event delayNs desc => some (engine.delayInjected event delayNs desc errno)
  | _ => none

/-- The engine after the injection section of an event. -/
def injectionAccounted (engine : Engine) (event : ConsumeEvent) (desc : Bytes)
    (errno : Option ℤ) : Engine :=
  { engine with
    victims := modifyEntry engine.victims event.cgroupId fun vr =>
      vr.recordInjection event desc errno
    poll := .idle }

/-- The third critical section: the injection accounts. -/
def accountInjection (engine : Engine) : Option Engine :=
  match engine.poll with
  | .injected event _ desc errno => some (engine.injectionAccounted event desc errno)
  | _ => none

/-! ### The machine -/

/-- One critical section of one thread. -/
inductive Action
  | arm (req : RequestArmRequest) (found : Option (UInt64 × Bytes)) (updates : ArmUpdates)
  | applyConsumePolicy (req : ConsumePolicyApplyRequest) (found : Option (UInt64 × Bytes))
      (updated : Bool)
  | installRecommended (cgroupId : UInt64) (flags : UInt32) (updated : Bool)
  | clear (clearCredits : Bool) (updated : UInt64 → Bool)
  | receive (call : Syscall)
  | beginEvent
  | finishConsume (updated : Bool)
  | accountTrigger
  | inject (errno : Option ℤ)
  | accountInjection

/-- A critical section of a control thread, which waits for `mu_`. -/
def control (engine next : Engine) : Option Engine :=
  if engine.poll.locked then none else some next

/-- One step of the engine. -/
def step (engine : Engine) : Action → Option Engine
  | .arm req found updates => engine.control (engine.arm req found updates).1
  | .applyConsumePolicy req found updated =>
      engine.control (engine.applyConsumePolicy req found updated)
  | .installRecommended cgroupId flags updated =>
      engine.control (engine.installRecommended cgroupId flags updated)
  | .clear clearCredits updated => engine.control (engine.clear clearCredits updated)
  | .receive call => some (engine.consumeIfPolicyAllows call)
  | .beginEvent => engine.beginEvent
  | .finishConsume updated => engine.finishConsume updated
  | .accountTrigger => engine.accountTrigger
  | .inject errno => engine.inject errno
  | .accountInjection => engine.accountInjection

end Engine

end Mcoz
