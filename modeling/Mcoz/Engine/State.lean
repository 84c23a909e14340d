/-
The request-credit engine: its state and its critical sections.

`Engine` is `RequestCreditEngine` together with the BPF maps and the ring buffer that it shares
with the BPF program. Every definition is one critical section of `mu_`, or the part of a function
between two of them, with the source's own reads and writes:

* `arm`, `applyConsumePolicy`, `installRecommended`, `clear`: the calls of the control threads;
* `consumeIfPolicyAllows`: one system call seen by the BPF program;
* `PollPhase` and `beginEvent`, `finishConsume`, `accountTrigger`, `inject`, `accountInjection`: the
  poll thread, which drops the mutex between the parts of `on_ring_event`.

`resolve_target` asks kubectl and the cgroup file system; what it finds is an argument (`found`), and
so is the outcome of every `bpf_map_update_elem`, `bpf_ringbuf_reserve` and `ghost_delay_tid`. The
maps are functions: `std::map::operator[]` is `modifyEntry`.
-/

import Mcoz.Engine.WellFormed

set_option autoImplicit false

namespace Mcoz

open Word

/-! ### Data -/

/-- `VictimSourceRuntime`. -/
structure VictimSourceRuntime where
  sourceKey : UInt64 := 0
  source : Bytes := []
  armCalls : UInt64 := 0
  armedTotal : UInt64 := 0
  consumeTrigger : UInt64 := 0
  bpfEvents : UInt64 := 0
  injectedOk : UInt64 := 0
  injectFail : UInt64 := 0
  lastTid : UInt64 := 0
  lastTsNs : UInt64 := 0
  lastDelayNs : UInt64 := 0
  lastError : Bytes := []

/-- `VictimRuntime`. -/
structure VictimRuntime where
  ns : Bytes := []
  pod : Bytes := []
  container : Bytes := []
  cgroupPath : Bytes := []
  armCalls : UInt64 := 0
  armedTotal : UInt64 := 0
  consumeTrigger : UInt64 := 0
  bpfEvents : UInt64 := 0
  injectedOk : UInt64 := 0
  injectFail : UInt64 := 0
  refundOk : UInt64 := 0
  refundFail : UInt64 := 0
  lastTid : UInt64 := 0
  lastTsNs : UInt64 := 0
  lastDelayNs : UInt64 := 0
  lastSourceKey : UInt64 := 0
  lastSource : Bytes := []
  lastError : Bytes := []
  sources : UInt64 → Option VictimSourceRuntime := fun _ => none

/-- `mcoz_consume_event`. -/
structure ConsumeEvent where
  tsNs : UInt64
  cgroupId : UInt64
  delayNs : UInt64
  sourceKey : UInt64
  tid : UInt32
  tgid : UInt32
  syscallId : UInt32
  slotIndex : UInt32
deriving DecidableEq

/-- A source on a cgroup, the owner of credits. -/
abbrev Account := UInt64 × UInt64

/-- The account that an event takes its credit from. -/
def ConsumeEvent.account (event : ConsumeEvent) : Account :=
  (event.cgroupId, event.sourceKey)

/-- `GlobalStatsMapValue`. -/
structure GlobalStats where
  bpfEvents : UInt64 := 0
  ringbufDrops : UInt64 := 0
  consumeTriggers : UInt64 := 0
deriving DecidableEq

/-- Where the poll thread is in `on_ring_event`. In `consuming` it holds `mu_` and has its copy of
the map value; in the phases after it the credit is spent and the mutex is free. -/
inductive PollPhase
  | idle
  | consuming (event : ConsumeEvent) (copy : Option VictimCfg)
  | consumed (event : ConsumeEvent) (delayNs : UInt64) (sourceDesc : Bytes)
  | triggered (event : ConsumeEvent) (delayNs : UInt64) (sourceDesc : Bytes)
  | injected (event : ConsumeEvent) (delayNs : UInt64) (sourceDesc : Bytes) (errno : Option ℤ)

/-- `RequestCreditEngine`, the BPF maps and the ring buffer (`events`, oldest first). -/
structure Engine where
  active : Bool
  defaultDelayNs : UInt64
  victimMap : UInt64 → Option VictimCfg
  consumePolicyMap : UInt64 → Option UInt32
  globalStats : GlobalStats
  victims : UInt64 → Option VictimRuntime
  events : List ConsumeEvent
  poll : PollPhase
  triggered : UInt64
  armedOk : UInt64
  armFail : UInt64
  injectedOk : UInt64
  injectFail : UInt64

/-- The engine after `start`: empty maps, an idle poll thread. -/
def Engine.init (defaultDelayNs : UInt64) : Engine where
  active := true
  defaultDelayNs := defaultDelayNs
  victimMap := fun _ => none
  consumePolicyMap := fun _ => none
  globalStats := {}
  victims := fun _ => none
  events := []
  poll := .idle
  triggered := 0
  armedOk := 0
  armFail := 0
  injectedOk := 0
  injectFail := 0

/-- `std::map::operator[]` followed by a change of the entry. -/
def modifyEntry {κ ν : Type} [DecidableEq κ] [Inhabited ν] (entries : κ → Option ν) (key : κ)
    (change : ν → ν) : κ → Option ν :=
  Function.update entries key (some (change ((entries key).getD default)))

instance : Inhabited VictimSourceRuntime := ⟨{}⟩

instance : Inhabited VictimRuntime := ⟨{}⟩

/-! ### Texts -/

/-- `json_escape`. -/
def jsonEscape (text : Bytes) : Bytes :=
  text.flatMap fun ch =>
    if ch = 34 then [92, 34]
    else if ch = 92 then [92, 92]
    else if ch = 10 then ascii "\\n"
    else if ch = 13 then ascii "\\r"
    else if ch = 9 then ascii "\\t"
    else [ch]

/-- `format_source_key`. -/
def formatSourceKey (sourceKey : UInt64) : Bytes :=
  ascii "0x" ++ ascii (String.ofList (Nat.toDigits 16 sourceKey.toNat))

/-- A signed number as `operator<<` prints it. -/
def signedDecimal (value : ℤ) : Bytes :=
  if value < 0 then ascii "-" ++ decimal value.natAbs else decimal value.natAbs

/-! ### Targets -/

/-- `RequestArmRequest`. -/
structure RequestArmRequest where
  ns : Bytes
  pod : Bytes
  container : Bytes
  source : Bytes
  delayNs : UInt64
  count : Int64

/-- `ConsumePolicyApplyRequest`. -/
structure ConsumePolicyApplyRequest where
  ns : Bytes
  pod : Bytes
  container : Bytes
  rawFlags : UInt32

/-- `ResolvedTarget`. -/
structure ResolvedTarget where
  cgroupId : UInt64
  cgroupPath : Bytes
  ns : Bytes
  pod : Bytes
  container : Bytes

/-- `resolve_target`, given the cgroup that its lookups find. A cgroup id of zero is a failure. -/
def resolveTarget (ns pod container : Bytes) (found : Option (UInt64 × Bytes)) :
    Option ResolvedTarget :=
  match found with
  | none => none
  | some (cgroupId, cgroupPath) =>
      if cgroupId = 0 then none
      else some ⟨cgroupId, cgroupPath, ns, pod, if container = [] then ascii "app" else container⟩

/-! ### Arming -/

/-- How a call of `arm` ends. -/
inductive ArmReply
  | negativeCount
  | unresolved
  | inactive
  | noFreeSourceSlots (source : Bytes)
  | updateFailed (errno : ℤ)
  | armed (ns pod container : Bytes) (cgroupId : UInt64) (credits : Int64) (delayNs : UInt64)
      (count : Int64) (source : Bytes) (sourceKey : UInt64) (sourceSlot : SlotIndex)
      (sourceCredits : Int64)

/-- The return value of `arm`. -/
def ArmReply.ok : ArmReply → Bool
  | .armed .. => true
  | _ => false

/-- The text that `arm` leaves in `response_json`. -/
def ArmReply.responseJson : ArmReply → Bytes
  | .negativeCount => ascii "\x7b\"ok\":false,\"error\":\"count must be >= 0\"\x7d"
  | .unresolved =>
      ascii "\x7b\"ok\":false,\"state\":\"TRIGGERED\",\"error\":\"failed to resolve cgroup\"\x7d"
  | .inactive => ascii "\x7b\"ok\":false,\"error\":\"request-credit mode is not active\"\x7d"
  | .noFreeSourceSlots source =>
      ascii "\x7b\"ok\":false,\"state\":\"TRIGGERED\",\"error\":\"no free source slots\",\"max_slots\":"
        ++ decimal maxSourceSlots ++ ascii ",\"source\":\"" ++ jsonEscape source ++ ascii "\"\x7d"
  | .updateFailed errno =>
      ascii "\x7b\"ok\":false,\"state\":\"TRIGGERED\",\"error\":\"bpf_map_update_elem failed\",\"errno\":"
        ++ signedDecimal errno ++ ascii "\x7d"
  | .armed ns pod container cgroupId credits delayNs count source sourceKey sourceSlot
      sourceCredits =>
      ascii "\x7b\"ok\":true,\"state\":\"ARMED\""
        ++ ascii ",\"namespace\":\"" ++ jsonEscape ns ++ ascii "\""
        ++ ascii ",\"pod\":\"" ++ jsonEscape pod ++ ascii "\""
        ++ ascii ",\"container\":\"" ++ jsonEscape container ++ ascii "\""
        ++ ascii ",\"cgroup_id\":" ++ decimal cgroupId.toNat
        ++ ascii ",\"credits\":" ++ signedDecimal credits.toInt
        ++ ascii ",\"delay_ns\":" ++ decimal delayNs.toNat
        ++ ascii ",\"count\":" ++ signedDecimal count.toInt
        ++ ascii ",\"source\":\"" ++ jsonEscape source ++ ascii "\""
        ++ ascii ",\"source_key\":\"" ++ formatSourceKey sourceKey ++ ascii "\""
        ++ ascii ",\"source_slot\":" ++ decimal sourceSlot.val
        ++ ascii ",\"source_credits\":" ++ signedDecimal sourceCredits.toInt
        ++ ascii "\x7d"

namespace RequestArmRequest

/-- The `source_id` of a request. -/
def sourceId (req : RequestArmRequest) : Bytes :=
  if req.source = [] then ascii "unspecified" else req.source

/-- The key of a request's source. -/
def sourceKey (req : RequestArmRequest) : UInt64 :=
  fnv1a64 req.sourceId

/-- The key of a request is never the mark of an unused slot. -/
theorem sourceKey_ne_zero (req : RequestArmRequest) : req.sourceKey ≠ 0 :=
  fnv1a64_ne_zero _

end RequestArmRequest

/-- The accounts of a source after a successful arm. -/
def VictimSourceRuntime.recordArm (sr : VictimSourceRuntime) (req : RequestArmRequest)
    (delayNs : UInt64) : VictimSourceRuntime :=
  { sr with
    sourceKey := req.sourceKey
    source := req.sourceId
    armCalls := sr.armCalls + 1
    armedTotal := sr.armedTotal + req.count.toUInt64
    lastDelayNs := delayNs
    lastError := [] }

/-- The accounts of a victim after a successful arm. -/
def VictimRuntime.recordArm (vr : VictimRuntime) (req : RequestArmRequest)
    (resolved : ResolvedTarget) (delayNs : UInt64) : VictimRuntime :=
  { vr with
    ns := resolved.ns
    pod := resolved.pod
    container := resolved.container
    cgroupPath := resolved.cgroupPath
    armCalls := vr.armCalls + 1
    armedTotal := vr.armedTotal + req.count.toUInt64
    lastDelayNs := delayNs
    lastSourceKey := req.sourceKey
    lastSource := req.sourceId
    lastError := []
    sources := modifyEntry vr.sources req.sourceKey fun sr => sr.recordArm req delayNs }

/-- `kConsumeDefaultFlags`: recvfrom, recvmsg and recvmmsg. -/
def consumeDefaultFlags : UInt32 := 7

/-- A policy entry with the default flags, unless there is one. Its update is not checked. -/
def defaultPolicy (policies : UInt64 → Option UInt32) (cgroupId : UInt64) (updated : Bool) :
    UInt64 → Option UInt32 :=
  if (policies cgroupId).isNone ∧ updated then
    Function.update policies cgroupId (some consumeDefaultFlags)
  else policies

/-- The outcome of the map updates that `arm` makes: the error number of the `victim_map` update if
it fails, and whether the `consume_policy_map` update succeeds. -/
structure ArmUpdates where
  victimErrno : Option ℤ
  policyUpdated : Bool

namespace Engine

/-- The copy of the map value that `arm` starts from. -/
def victimCfg (engine : Engine) (cgroupId : UInt64) : VictimCfg :=
  (engine.victimMap cgroupId).getD VictimCfg.zero

/-- The delay that an arm gives to its slot. -/
def armDelay (engine : Engine) (req : RequestArmRequest) (cgroupId : UInt64) : UInt64 :=
  (engine.victimCfg cgroupId).effectiveDelay req.delayNs engine.defaultDelayNs

/-- The engine after an arm that fails. -/
def armFailed (engine : Engine) : Engine :=
  { engine with triggered := engine.triggered + 1, armFail := engine.armFail + 1 }

/-- The engine after an arm that wrote the map value `cfg`. -/
def armSucceeded (engine : Engine) (req : RequestArmRequest) (resolved : ResolvedTarget)
    (cfg : VictimCfg) (policyUpdated : Bool) : Engine :=
  { engine with
    triggered := engine.triggered + 1
    victimMap := Function.update engine.victimMap resolved.cgroupId (some cfg)
    victims := modifyEntry engine.victims resolved.cgroupId fun vr =>
      vr.recordArm req resolved (engine.armDelay req resolved.cgroupId)
    consumePolicyMap := defaultPolicy engine.consumePolicyMap resolved.cgroupId policyUpdated
    armedOk := engine.armedOk + 1 }

/-- The reply to an arm that wrote the map value `cfg` at the slot `slotIndex`. -/
def armedReply (engine : Engine) (req : RequestArmRequest) (resolved : ResolvedTarget)
    (cfg : VictimCfg) (slotIndex : SlotIndex) : ArmReply :=
  .armed resolved.ns resolved.pod resolved.container resolved.cgroupId cfg.totalCredits
    (engine.armDelay req resolved.cgroupId) req.count req.sourceId req.sourceKey slotIndex
    (cfg.slots slotIndex).credits

/-- `arm`. The BPF program writes the cursor only, and an arm sets the cursor itself, so a system
call seen between the lookup and the update is one seen before the arm. -/
def arm (engine : Engine) (req : RequestArmRequest) (found : Option (UInt64 × Bytes))
    (updates : ArmUpdates) : Engine × ArmReply :=
  if req.count < 0 then (engine.armFailed, .negativeCount)
  else
    match resolveTarget req.ns req.pod req.container found with
    | none => (engine.armFailed, .unresolved)
    | some resolved =>
        if engine.active = false then (engine.armFailed, .inactive)
        else
          match (engine.victimCfg resolved.cgroupId).arm req.sourceKey
              (engine.armDelay req resolved.cgroupId) req.count with
          | none => (engine.armFailed, .noFreeSourceSlots req.sourceId)
          | some (cfg, slotIndex) =>
              match updates.victimErrno with
              | some errno => (engine.armFailed, .updateFailed errno)
              | none =>
                  (engine.armSucceeded req resolved cfg updates.policyUpdated,
                    engine.armedReply req resolved cfg slotIndex)

/-! ### Policies -/

/-- `normalize_consume_flags`. -/
def normalizeConsumeFlags (flags : UInt32) : UInt32 :=
  if flags = 0 then consumeDefaultFlags else flags

/-- The engine after a policy is written: the flags, and the names of its victim. -/
def policyApplied (engine : Engine) (resolved : ResolvedTarget) (flags : UInt32) : Engine :=
  { engine with
    consumePolicyMap := Function.update engine.consumePolicyMap resolved.cgroupId (some flags)
    victims := modifyEntry engine.victims resolved.cgroupId fun vr =>
      { vr with
        ns := resolved.ns
        pod := resolved.pod
        container := resolved.container
        cgroupPath := resolved.cgroupPath } }

/-- `apply_consume_policy`. -/
def applyConsumePolicy (engine : Engine) (req : ConsumePolicyApplyRequest)
    (found : Option (UInt64 × Bytes)) (updated : Bool) : Engine :=
  if req.ns = [] ∨ req.pod = [] then engine
  else
    match resolveTarget req.ns req.pod req.container found with
    | none => engine
    | some resolved =>
        if engine.active = false ∨ updated = false then engine
        else engine.policyApplied resolved (normalizeConsumeFlags req.rawFlags)

/-- The last critical section of `profile_syscalls`: the recommended flags become the policy. -/
def installRecommended (engine : Engine) (cgroupId : UInt64) (flags : UInt32) (updated : Bool) :
    Engine :=
  if updated then
    { engine with
      consumePolicyMap := Function.update engine.consumePolicyMap cgroupId (some flags) }
  else engine

/-! ### Clearing -/

end Engine

/-- The accounts of a source after `clear`. -/
def VictimSourceRuntime.clear (sr : VictimSourceRuntime) : VictimSourceRuntime :=
  { sr with
    armCalls := 0
    armedTotal := 0
    consumeTrigger := 0
    bpfEvents := 0
    injectedOk := 0
    injectFail := 0
    lastTid := 0
    lastTsNs := 0
    lastDelayNs := 0
    lastError := [] }

/-- The accounts of a victim after `clear`. -/
def VictimRuntime.clear (vr : VictimRuntime) : VictimRuntime :=
  { vr with
    armCalls := 0
    armedTotal := 0
    consumeTrigger := 0
    bpfEvents := 0
    injectedOk := 0
    injectFail := 0
    refundOk := 0
    refundFail := 0
    lastTid := 0
    lastTsNs := 0
    lastSourceKey := 0
    lastSource := []
    lastError := []
    sources := fun key => (vr.sources key).map VictimSourceRuntime.clear }

namespace Engine

/-- `clear`. With `clearCredits`, the map value of every victim is cleared, as far as its update
succeeds; the map keeps values of cgroups that are not in `victims_`. -/
def clear (engine : Engine) (clearCredits : Bool) (updated : UInt64 → Bool) : Engine :=
  { engine with
    victims := fun cgid => (engine.victims cgid).map VictimRuntime.clear
    victimMap := fun cgid =>
      if clearCredits ∧ (engine.victims cgid).isSome ∧ updated cgid then
        (engine.victimMap cgid).map VictimCfg.clearCredits
      else engine.victimMap cgid
    triggered := 0
    armedOk := 0
    armFail := 0
    injectedOk := 0
    injectFail := 0
    globalStats := {} }

/-! ### The BPF program -/

/-- `should_consume_raw`: the flag of the system call's family is set. -/
def shouldConsumeRaw (policy : Option UInt32) (syscallId : UInt32) : Bool :=
  let flags := policy.getD consumeDefaultFlags
  (syscallId == 45 && flags &&& 1 != 0) || (syscallId == 47 && flags &&& 2 != 0) ||
  (syscallId == 299 && flags &&& 4 != 0) || (syscallId == 0 && flags &&& 8 != 0) ||
  (syscallId == 19 && flags &&& 16 != 0) || (syscallId == 17 && flags &&& 32 != 0) ||
  ((syscallId == 425 || syscallId == 426) && flags &&& 64 != 0)

/-- What the BPF program reads from the kernel: the cgroup, the system call, the time, the task and
whether the ring buffer has room. -/
structure Syscall where
  cgroupId : UInt64
  syscallId : UInt32
  tsNs : UInt64
  pidTgid : UInt64
  reserved : Bool

/-- The event that `consume_once` submits for a chosen slot. -/
def consumeEvent (call : Syscall) (slot : SourceCreditSlot) (chosen : SlotIndex) : ConsumeEvent where
  tsNs := call.tsNs
  cgroupId := call.cgroupId
  delayNs := slot.delayNs
  sourceKey := slot.sourceKey
  tid := call.pidTgid.toUInt32
  tgid := (call.pidTgid >>> 32).toUInt32
  syscallId := call.syscallId
  slotIndex := UInt32.ofNat chosen.val

/-- `consume_once`: choose a slot, move the cursor past it, queue an event. No credit is taken. -/
def consumeOnce (engine : Engine) (call : Syscall) : Engine :=
  match engine.victimMap call.cgroupId with
  | none => engine
  | some cfg =>
      if cfg.enabled = 0 then engine
      else
        match cfg.chooseSlot with
        | none => engine
        | some chosen =>
            let stats := engine.globalStats
            let moved := { engine with
              victimMap :=
                Function.update engine.victimMap call.cgroupId (some (cfg.advanceCursor chosen)) }
            if call.reserved then
              { moved with
                events := engine.events ++ [consumeEvent call (cfg.slots chosen) chosen]
                globalStats := { stats with
                  consumeTriggers := stats.consumeTriggers + 1
                  bpfEvents := stats.bpfEvents + 1 } }
            else
              { moved with
                globalStats := { stats with
                  consumeTriggers := stats.consumeTriggers + 1
                  ringbufDrops := stats.ringbufDrops + 1 } }

/-- `consume_if_policy_allows`. -/
def consumeIfPolicyAllows (engine : Engine) (call : Syscall) : Engine :=
  if shouldConsumeRaw (engine.consumePolicyMap call.cgroupId) call.syscallId then
    engine.consumeOnce call
  else engine

end Engine

end Mcoz
