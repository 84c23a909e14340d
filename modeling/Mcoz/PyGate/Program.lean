/-
The Python gate: its functions, as programs over the sections of its lock.

Every function has its source's shape; the arm request is a call, answered with what
`_arm_transport_post` returns, or with an exception, which nothing catches: `json.dumps` raises for a number of more
than 4300 digits, and the transport where its `try` does not reach. Such an exception ends the thread. The jobs are what the process runs in threads of their own: the HTTP
requests, each in a thread of the server, and the turns of the refill worker, which is one thread.
-/

import Mcoz.Lib.Threads
import Mcoz.PyGate.State

set_option autoImplicit false

namespace Mcoz.PyGate

open Threads Program

/-! ### Calls -/

/-- `payload_obj`, the request id and the path that `_arm_once` hands to the transport. -/
structure ArmCall where
  requestId : String
  path : String
  target : Target
  source : String
  delayNs : ℤ
  count : ℤ
deriving DecidableEq

/-- What `_arm_transport_post` returns: the status is missing after an exception that it caught. -/
structure ArmResult where
  ok : Bool
  statusCode : Option ℤ
  body : String
deriving DecidableEq

/-- The calls that leave the process: the clock and the arm transport. -/
inductive Call
  | time
  | arm (request : ArmCall)

/-- The answer to a call. Nothing stands for an exception that leaves `_arm_once`. -/
def Answer : Call → Type
  | .time => ℚ
  | .arm _ => Option ArmResult

/-- The call is answered with an exception. -/
def Raised : (request : Call) → Answer request → Prop
  | .time, _ => False
  | .arm _, answer => (answer : Option ArmResult) = none

instance : (request : Call) → (answer : Answer request) → Decidable (Raised request answer)
  | .time, _ => inferInstanceAs (Decidable False)
  | .arm _, answer => (inferInstance : DecidableEq (Option ArmResult)) answer none

/-- The programs of the gate. -/
abbrev Prog := Program Gate Critical Call Answer

/-- `time.time()`. -/
def time : Prog ℚ :=
  ask Call.time

/-! ### Reading the globals -/

/-- `_is_arm_active`, or a read of `ARM_ACTIVE` without the lock. -/
def isArmActive : Prog Bool :=
  perform .look fun gate => gate.armActive

/-- `_get_arm_config`. -/
def getArmConfig : Prog (ℤ × ℤ) :=
  perform .look fun gate => (gate.armDelayNs, gate.armCount)

/-- `_check_arm_suspended`. -/
def checkArmSuspended (now : ℚ) : Prog (Bool × ℚ × String) :=
  perform .look fun gate =>
    (decide (now < gate.armSuspendedUntil), gate.armSuspendedUntil, gate.armSuspendReason)

/-- `_get_target`. -/
def getTarget (cfg : Config) : Prog Target :=
  perform .look fun gate => cfg.selfTarget.getD gate.target

/-- A read of `CREDIT_BALANCE_REQ`. -/
def getBalance : Prog ℤ :=
  perform .look fun gate => gate.creditBalanceReq

/-! ### Suspensions and tokens -/

/-- `_clear_arm_suspended`. -/
def clearArmSuspended : Prog Unit :=
  perform .clearArmSuspended fun _ => ()

/-- `_suspend_arm`. -/
def suspendArm (cfg : Config) (reason : String) : Prog Unit := do
  let now ← time
  perform (.suspendArm (now + cfg.armSuspendSec) reason) fun _ => ()

/-- `_maybe_suspend_arm`. -/
def maybeSuspendArm (cfg : Config) (statusCode : Option ℤ) (errText : String) : Prog Bool := do
  if !cfg.failOpenOnArmUnavailable then
    return false
  else if statusCode.any fun code => !cfg.armUnavailableStatuses.contains code then
    return false
  else
    suspendArm cfg ("arm unavailable status=" ++ statusText statusCode ++ " err=" ++
      slice errText 120)
    return true

/-- `_signal_refill`. -/
def signalRefill (cfg : Config) : Prog Unit :=
  if cfg.directArm then pure () else perform (.count .refillRequest) fun _ => ()

/-- `_consume_credit_token`: whether a token was taken, and the balance after it. -/
def consumeCreditToken : Prog (Bool × ℤ) :=
  perform .consumeCreditToken fun gate =>
    if 0 < gate.creditBalanceReq then (true, gate.creditBalanceReq - 1)
    else (false, gate.creditBalanceReq)

/-! ### Arming -/

/-- `json.dumps` of the payload and `_arm_transport_post`. -/
def armTransportPost (request : ArmCall) : Prog ArmResult :=
  .call (.arm request) fun answer =>
    match (answer : Option ArmResult) with
    | none => .failed
    | some result => .done result

/-- `_arm_once`. -/
def armOnce (cfg : Config) (requestId path : String) (delayNs count : ℤ) : Prog ArmResult := do
  let target ← getTarget cfg
  armTransportPost ⟨requestId, path, target, cfg.sourceId, delayNs, count⟩

/-- The request id of a refill or of a request without one. -/
def stampedId (text : String) (now : ℚ) : String :=
  text ++ toString (now * 1000000).floor

/-- `_current_refill_need`: the tokens to ask for. -/
def currentRefillNeed (cfg : Config) : Prog ℤ :=
  if cfg.directArm then pure 0
  else
    perform .look fun gate =>
      if gate.armActive = false then 0
      else if gate.armDelayNs ≤ 0 ∨ gate.armCount ≤ 0 then 0
      else if gate.creditBalanceReq ≥ cfg.refill.lowWater then 0
      else
        let need := max cfg.refill.batch (cfg.refill.target - gate.creditBalanceReq)
        if need ≤ 0 then cfg.refill.batch else need

/-- `_do_refill`. -/
def doRefill (cfg : Config) (tokensReq : ℤ) (reason : String) : Prog ArmResult :=
  if cfg.directArm then pure ⟨false, none, "direct-arm-mode"⟩
  else if tokensReq ≤ 0 then pure ⟨true, some 0, ""⟩
  else do
    let (refill, active) ← perform .look fun gate =>
      ((⟨tokensReq, gate.armDelayNs, gate.armCount⟩ : Refill), gate.armActive)
    if active = false ∨ refill.delayNs ≤ 0 ∨ refill.count ≤ 0 then
      return ⟨false, none, "inactive-or-invalid-config"⟩
    let now ← time
    let result ← armOnce cfg (stampedId "refill-" now) ("/refill/" ++ reason) refill.delayNs
      refill.credits
    if result.ok then
      clearArmSuspended
      perform (.refillOk refill) fun _ => ⟨true, result.statusCode, result.body⟩
    else
      let err := "refill status=" ++ statusText result.statusCode ++ " body=" ++
        slice result.body 200
      perform (.refillFail err) fun _ => ()
      let _ ← maybeSuspendArm cfg result.statusCode err
      return ⟨false, result.statusCode, result.body⟩

/-- What `_prime_refill_on_enable` reports. -/
structure PrimeResult where
  attempted : Bool
  ok : Bool
  reason : String := ""
  statusCode : Option ℤ := none
  requestedTokens : ℤ := 0
  balance : ℤ
deriving DecidableEq

/-- `_prime_refill_on_enable`. -/
def primeRefillOnEnable (cfg : Config) : Prog PrimeResult :=
  if cfg.directArm then
    pure { attempted := false, ok := true, reason := "direct-arm-mode", balance := 0 }
  else do
    let (active, delayNs, count, balance) ← perform .look fun gate =>
      (gate.armActive, gate.armDelayNs, gate.armCount, gate.creditBalanceReq)
    if active = false ∨ delayNs ≤ 0 ∨ count ≤ 0 then
      return { attempted := false, ok := true, reason := "inactive-or-invalid-config",
               balance := balance }
    let need := cfg.refill.target - balance
    if need ≤ 0 then
      return { attempted := false, ok := true, reason := "already-primed", balance := balance }
    let result ← doRefill cfg need "enable"
    let nowBalance ← getBalance
    return { attempted := true, ok := result.ok, statusCode := result.statusCode,
             requestedTokens := need, balance := nowBalance }

/-- One turn of the inner loop of `_refill_worker`. -/
def refillWorkerTurn (cfg : Config) : Prog Unit := do
  let now ← time
  let (suspended, _, _) ← checkArmSuspended now
  if suspended then
    return ()
  let need ← currentRefillNeed cfg
  if need ≤ 0 then
    return ()
  let _ ← doRefill cfg need "async"
  return ()

/-! ### Triggers -/

/-- What became of a trigger. -/
structure Verdict where
  armed : Bool := false
  armSuspended : Bool := false
  armDisabled : Bool := false
  err : String := ""
deriving DecidableEq

/-- The result of `_process_trigger`. -/
structure TriggerResult where
  requestId : String
  path : String
  verdict : Verdict
  delayNs : ℤ
  count : ℤ
  armActive : Bool
deriving DecidableEq

/-- `str.lower`, on the ASCII letters. -/
def lower (text : String) : String :=
  text.map Char.toLower

/-- `_normalize_headers` and `_header_val`: the value of the last header with that name. -/
def headerVal (headers : List (String × String)) (key : String) : String :=
  ((headers.reverse.find? fun header => lower header.1 = key).map Prod.snd).getD ""

/-- `piece in text`. -/
def contains (text piece : String) : Bool :=
  decide (piece.toList <:+: text.toList)

/-- `_should_arm`. -/
def shouldArm (cfg : Config) (path : String) (headers : List (String × String)) : Bool :=
  if contains (lower path) "/set_enabled" || contains (lower path) "/set_target" ||
      contains (lower path) "/healthz" then false
  else
    let headerOk := headerVal headers cfg.matchHeader = cfg.matchHeaderValue
    let pathOk := cfg.matchPathPrefix.toList.isPrefixOf path.toList
    match cfg.matchMode with
    | .all => true
    | .header => headerOk
    | .path => pathOk
    | .headerOrPath => headerOk || pathOk
    | .headerAndPath => headerOk && pathOk
    | .other => true

/-- A trigger that failed: `armed_fail`, with its text. -/
def failTrigger (err : String) : Prog Verdict :=
  perform (.failTrigger err) fun _ => { err := err }

/-- The direct branch of `_process_trigger`. -/
def armDirectly (cfg : Config) (requestId path : String) (delayNs count : ℤ) : Prog Verdict := do
  let result ← armOnce cfg requestId path delayNs count
  if result.ok then
    perform (.count .armedOk) fun _ => ()
    clearArmSuspended
    return { armed := true }
  else
    let err := "direct arm failed status=" ++ statusText result.statusCode ++ " body=" ++
      slice result.body 200
    let verdict ← failTrigger err
    let suspended ← maybeSuspendArm cfg result.statusCode err
    return { verdict with armSuspended := suspended }

/-- A trigger that took a token: `armed_ok`, and a signal when few tokens are left. -/
def armFromToken (cfg : Config) (balanceAfter : ℤ) : Prog Verdict := do
  perform (.count .armedOk) fun _ => ()
  if balanceAfter ≤ cfg.refill.lowWater then
    signalRefill cfg
  return { armed := true }

/-- The branch of `_process_trigger` after a miss. -/
def refillOnMiss (cfg : Config) : Prog Verdict := do
  signalRefill cfg
  if cfg.syncRefillOnMiss then
    let result ← doRefill cfg (max 1 cfg.refill.batch) "sync-miss"
    if result.ok then
      let (consumed, balanceAfter) ← consumeCreditToken
      if consumed then
        armFromToken cfg balanceAfter
      else
        failTrigger "credit miss after successful sync refill"
    else
      let err := "sync refill failed status=" ++ statusText result.statusCode ++ " body=" ++
        slice result.body 200
      let verdict ← failTrigger err
      let suspended ← maybeSuspendArm cfg result.statusCode err
      return { verdict with armSuspended := suspended }
  else
    failTrigger "credit miss; refill queued"

/-- The branch of `_process_trigger` for a request that should arm. -/
def armTrigger (cfg : Config) (requestId path : String) : Prog Verdict := do
  let (delayNs, count) ← getArmConfig
  if delayNs ≤ 0 ∨ count ≤ 0 then
    perform (.count .configSkip) fun _ => {}
  else
    let now ← time
    let (suspended, until_, reason) ← checkArmSuspended now
    if suspended then
      let err := "arm suspended remaining=" ++ fixed3 (until_ - now) ++ "s reason=" ++
        slice reason 120
      perform (.count .armSuppressed) fun _ => { armSuspended := true, err := err }
    else if cfg.directArm then
      armDirectly cfg requestId path delayNs count
    else
      let (consumed, balanceAfter) ← consumeCreditToken
      if consumed then
        armFromToken cfg balanceAfter
      else
        refillOnMiss cfg

/-- The branches of `_process_trigger`. -/
def triggerVerdict (cfg : Config) (requestId path : String) (headers : List (String × String))
    (active : Bool) : Prog Verdict :=
  if active = false then
    perform (.count .disabledSkip) fun _ => { armDisabled := true }
  else if shouldArm cfg path headers then
    armTrigger cfg requestId path
  else
    perform (.count .skipped) fun _ => {}

/-- `_process_trigger`. -/
def processTrigger (cfg : Config) (path : String) (headers : List (String × String))
    (requestId : String) : Prog TriggerResult := do
  let started ← time
  let requestId := if requestId = "" then stampedId "no-id-" started else requestId
  let path := if path = "" then "/trigger" else path
  perform (.countTriggered path requestId) fun _ => ()
  let active ← isArmActive
  let verdict ← triggerVerdict cfg requestId path headers active
  let (delayNs, count) ← getArmConfig
  let armActive ← isArmActive
  return ⟨requestId, path, verdict, delayNs, count, armActive⟩

/-! ### Control requests -/

/-- `_set_arm_config`: whether something changed, and the configuration after it. -/
def setArmConfig (delayNs count : Option ℤ) : Prog (Bool × ℤ × ℤ) :=
  perform (.setArmConfig delayNs count) fun gate =>
    (gate.configChanged delayNs count, Gate.configured gate.armDelayNs delayNs,
      Gate.configured gate.armCount count)

/-- `_set_arm_active`. -/
def setArmActive (cfg : Config) (active : Bool) : Prog Bool := do
  let changed ← perform (.setArmActive active) fun gate => gate.armActive != active
  let armActive ← isArmActive
  if armActive = true ∧ cfg.directArm = false then
    let _ ← primeRefillOnEnable cfg
    signalRefill cfg
  else
    clearArmSuspended
  return changed

/-- The refill of `/set_enabled` when the configuration of an enabled gate changed. -/
def primeAgain (cfg : Config) (enabled configChanged changed : Bool) : Prog (Option PrimeResult) :=
  if enabled = true ∧ configChanged = true ∧ changed = false ∧ cfg.directArm = false then do
    let result ← primeRefillOnEnable cfg
    signalRefill cfg
    return some result
  else pure none

/-- The reply to `/set_enabled`. -/
structure EnableReply where
  enabled : Bool
  changed : Bool
  configChanged : Bool
  delayNs : ℤ
  count : ℤ
  creditBalanceReq : ℤ
  prime : Option PrimeResult
  target : Target
deriving DecidableEq

/-- The handler of `/set_enabled`. -/
def setEnabled (cfg : Config) (enabled : Bool) (delayNs count : Option ℤ) : Prog EnableReply := do
  let (configChanged, currentDelayNs, currentCount) ← setArmConfig delayNs count
  let changed ← setArmActive cfg enabled
  let prime ← primeAgain cfg enabled configChanged changed
  let balance ← getBalance
  let target ← getTarget cfg
  return ⟨enabled, changed, configChanged, currentDelayNs, currentCount, balance, prime, target⟩

/-- `name or current`. -/
def nameOr (name : Option String) (current : String) : String :=
  match name with
  | none => current
  | some name => if name = "" then current else name

/-- The handler of `/set_target`: a missing name is the current one. -/
def setTarget (cfg : Config) (ns pod container : Option String) : Prog (Option Target) := do
  let current ← getTarget cfg
  let ns := nameOr ns current.ns
  let pod := nameOr pod current.pod
  let container := nameOr container current.container
  if pod = "" then
    return none
  else if cfg.selfTarget.isSome then
    return some current
  else
    perform (.setTarget (some ns) (some pod) (some container)) fun _ => some ⟨ns, pod, container⟩

/-! ### Threads -/

/-- What a thread of the gate returns. -/
inductive Outcome
  | triggered (result : TriggerResult)
  | enabled (reply : EnableReply)
  | targeted (target : Option Target)
  | turned
deriving DecidableEq

/-- What a thread of the gate does. -/
inductive Job
  | trigger (path : String) (headers : List (String × String)) (requestId : String)
  | setEnabled (enabled : Bool) (delayNs count : Option ℤ)
  | setTarget (ns pod container : Option String)
  | refillWorkerTurn

/-- The program of a job. -/
def Job.program (cfg : Config) : Job → Prog Outcome
  | .trigger path headers requestId => do
      return .triggered (← processTrigger cfg path headers requestId)
  | .setEnabled enabled delayNs count => do
      return .enabled (← PyGate.setEnabled cfg enabled delayNs count)
  | .setTarget ns pod container => do
      return .targeted (← PyGate.setTarget cfg ns pod container)
  | .refillWorkerTurn => do
      PyGate.refillWorkerTurn cfg
      return .turned

/-- Thread zero is the refill worker; the others are threads of the server. -/
def Job.start (cfg : Config) (thread : ℕ) : Job → Option (Prog Outcome)
  | .refillWorkerTurn =>
      if thread = 0 then some (Job.refillWorkerTurn.program cfg) else none
  | job => if thread = 0 then none else some (job.program cfg)

/-- The gate and its threads. -/
abbrev GatePool := Pool Gate Critical Call Answer Outcome

/-- A step of the gate. -/
abbrev GateMove := Move Job Call Answer

/-- One step of one thread. -/
def step (cfg : Config) : GatePool → GateMove → Option GatePool :=
  Pool.step Critical.apply (Job.start cfg)

end Mcoz.PyGate
