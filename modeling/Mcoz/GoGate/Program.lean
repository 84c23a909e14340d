/-
The Go gate: its functions, as programs over the sections of its mutex.

Every function has its source's shape; the arm request is a call, answered with the response or with the
text of an error. The jobs are what the process runs in goroutines of their own: `main` before it serves,
the requests, and the turns of the inner loop of the refill worker, which is one goroutine. The channel
`refillCh` only says when the worker starts its loop, so a turn may begin at any time.
-/

import Mcoz.Lib.Threads
import Mcoz.GoGate.State

set_option autoImplicit false

namespace Mcoz.GoGate

open Word Threads Program

/-! ### Calls -/

/-- The payload and the headers of the request that `armOnce` sends. -/
structure ArmCall where
  requestID : Bytes
  path : Bytes
  podNamespace : Bytes
  podName : Bytes
  containerName : Bytes
  sourceID : Bytes
  delayNs : Int64
  count : Int64
deriving DecidableEq

/-- The response to the request. -/
structure Response where
  statusCode : ℤ
  body : Bytes
deriving DecidableEq

/-- The calls that leave the process: the clock, in microseconds, and the request. -/
inductive Call
  | unixMicro
  | arm (request : ArmCall)

/-- The answer to a call. -/
def Answer : Call → Type
  | .unixMicro => Int64
  | .arm _ => Except Bytes Response

/-- The programs of the gate. -/
abbrev Prog := Program Gate Critical Call Answer

/-! ### Refills -/

/-- What `snapshotConfig` reads. -/
structure Snapshot where
  active : Bool
  delayNs : Int64
  count : Int64
  balance : Int64
deriving DecidableEq

/-- The snapshot of a gate. -/
def Gate.snapshot (gate : Gate) : Snapshot :=
  ⟨gate.armActive, gate.armDelayNs, gate.armCount, gate.creditBalance⟩

/-- `snapshotConfig`, and what the requests use of `snapshotStats`. -/
def snapshotConfig : Prog Snapshot :=
  perform .look Gate.snapshot

/-- `signalRefill`. -/
def signalRefill (cfg : Config) : Prog Unit :=
  if !cfg.refillEnabled then pure () else perform (.tick .refillRequest) fun _ => ()

/-- What `armOnce` returns. -/
structure ArmResult where
  ok : Bool
  statusCode : ℤ
  body : Bytes
deriving DecidableEq

/-- The result that `armOnce` makes of an answer. -/
def armResult : Except Bytes Response → ArmResult
  | .error err => ⟨false, 0, err⟩
  | .ok response =>
      ⟨decide (200 ≤ response.statusCode ∧ response.statusCode < 300), response.statusCode,
        response.body.take 4096⟩

/-- `armOnce`. -/
def armOnce (cfg : Config) (requestID path : Bytes) (delayNs count : Int64) : Prog ArmResult := do
  let answer ← ask (Call.arm ⟨requestID, path, cfg.podNamespace, cfg.podName, cfg.containerName,
    cfg.sourceID, delayNs, count⟩)
  return armResult answer

/-- The `lastError` of a refill that failed. -/
def refillError (statusCode : ℤ) (body : Bytes) : Bytes :=
  if statusCode ≠ 0 then
    ascii "refill failed status=" ++ formatInt statusCode ++ ascii " body=" ++ body
  else ascii "refill failed err=" ++ body

/-- `doRefill`. -/
def doRefill (cfg : Config) (tokensReq : Int64) (reason : Bytes) : Prog ArmResult :=
  if tokensReq ≤ 0 then pure ⟨true, 0, []⟩
  else do
    let snapshot ← snapshotConfig
    if snapshot.active = false ∨ snapshot.delayNs ≤ 0 ∨ snapshot.count ≤ 0 then
      return ⟨false, 0, ascii "inactive-or-invalid-config"⟩
    let refill : Refill := ⟨tokensReq, snapshot.delayNs, snapshot.count⟩
    let now ← ask Call.unixMicro
    let result ← armOnce cfg (ascii "refill-" ++ formatInt (Int64.toInt now))
      (ascii "/refill/" ++ reason) refill.delayNs refill.credits
    if result.ok then
      perform (.refillOK refill) fun _ => result
    else
      let body := truncate result.body 200
      perform (.refillFail (refillError result.statusCode body)) fun _ => { result with body := body }

/-- `currentRefillNeed`: the tokens to ask for. -/
def currentRefillNeed (cfg : Config) : Prog Int64 := do
  let snapshot ← snapshotConfig
  if !cfg.refillEnabled then
    return 0
  else if snapshot.active = false ∨ snapshot.delayNs ≤ 0 ∨ snapshot.count ≤ 0 then
    return 0
  else if snapshot.balance ≥ cfg.refill.lowWater then
    return 0
  else
    let need := max cfg.refill.batchReq (cfg.refill.targetReq - snapshot.balance)
    return if need ≤ 0 then cfg.refill.batchReq else need

/-- One turn of the inner loop of `refillWorker`. -/
def refillWorkerTurn (cfg : Config) : Prog Unit := do
  let need ← currentRefillNeed cfg
  if need ≤ 0 then
    return ()
  let _ ← doRefill cfg need (ascii "async")
  return ()

/-- What `primeOnEnable` reports. -/
structure RefillResult where
  attempted : Bool
  ok : Bool
  reason : Bytes := []
  statusCode : ℤ := 0
  requestedToken : Int64 := 0
  balance : Int64
deriving DecidableEq

/-- `primeOnEnable`. -/
def primeOnEnable (cfg : Config) : Prog RefillResult := do
  let snapshot ← snapshotConfig
  if !cfg.refillEnabled then
    return { attempted := false, ok := true, reason := ascii "refill-disabled",
             balance := snapshot.balance }
  else if snapshot.active = false ∨ snapshot.delayNs ≤ 0 ∨ snapshot.count ≤ 0 then
    return { attempted := false, ok := true, reason := ascii "inactive-or-invalid-config",
             balance := snapshot.balance }
  else
    let need := cfg.refill.targetReq - snapshot.balance
    if need ≤ 0 then
      return { attempted := false, ok := true, reason := ascii "already-primed",
               balance := snapshot.balance }
    else
      let result ← doRefill cfg need (ascii "enable")
      let now ← snapshotConfig
      return { attempted := true, ok := result.ok, statusCode := result.statusCode,
               requestedToken := need, balance := now.balance }

/-! ### Checks -/

/-- A request to be checked: the path of its URL and its headers. -/
structure CheckRequest where
  urlPath : Bytes
  headers : List (Bytes × Bytes)

/-- `Header.Get`: the first value under a name, in any case; the empty text if there is none. -/
def CheckRequest.header (request : CheckRequest) (name : Bytes) : Bytes :=
  ((request.headers.find? fun header => Text.lower header.1 = Text.lower name).map Prod.snd).getD []

/-- `extractOriginalPath`. -/
def extractOriginalPath (request : CheckRequest) : Bytes :=
  let found := ["x-envoy-original-path", "x-original-path", "x-request-path", ":path"].map fun name =>
    trimSpace (request.header (ascii name))
  (found.find? fun value => value ≠ []).getD request.urlPath

/-- `strings.Contains`. -/
def contains (text piece : Bytes) : Bool :=
  (Text.find piece text).isSome

/-- `shouldArm`. Of the letters that Unicode lowers to ASCII none is in the two texts that are looked
for. -/
def shouldArm (cfg : Config) (path : Bytes) (request : CheckRequest) : Bool :=
  if contains (Text.lower path) (ascii "/set_enabled") || contains (Text.lower path) (ascii "/healthz")
  then false
  else
    let headerOK := request.header cfg.matchHeader = cfg.matchHeaderValue
    let pathOK := cfg.matchPathPrefix.isPrefixOf path
    match cfg.matchMode with
    | .all => true
    | .header => headerOK
    | .headerOrPath => headerOK || pathOK
    | .headerAndPath => headerOK && pathOK
    | .path => pathOK
    | .other => true

/-- `armDisabled`, `armed` and `errMsg` of a check. -/
structure Verdict where
  armDisabled : Bool := false
  armed : Bool := false
  errMsg : Bytes := []
deriving DecidableEq

/-- A check that failed to arm. -/
def failCheck (errMsg : Bytes) : Prog Verdict :=
  perform (.armedFail errMsg) fun _ => { errMsg := errMsg }

/-- The error of a request that was refused. -/
def refusedError (what : Bytes) (result : ArmResult) : Bytes :=
  what ++ ascii " failed status=" ++ formatInt result.statusCode ++ ascii " body=" ++
    truncate result.body 120

/-- The branch of a check without a delay. -/
def checkZeroDelay (cfg : Config) (requestID path : Bytes) : Prog Verdict :=
  if cfg.sendOnZeroDelay then do
    let result ← armOnce cfg requestID path 0 0
    if !result.ok then
      failCheck (refusedError (ascii "zero-delay arm") result)
    else
      return {}
  else
    perform (.tick .configSkip) fun _ => {}

/-- The branch of a check without refills. -/
def checkDirect (cfg : Config) (requestID path : Bytes) (delayNs count : Int64) : Prog Verdict := do
  let result ← armOnce cfg requestID path delayNs count
  if result.ok then
    perform (.tick .armedOK) fun _ => { armed := true }
  else
    failCheck (refusedError (ascii "direct arm") result)

/-- `consumeToken`: whether a token was taken, and the balance after it. -/
def consumeToken : Prog (Bool × Int64) :=
  perform .consumeToken fun gate =>
    if 0 < gate.creditBalance then (true, gate.creditBalance - 1) else (false, gate.creditBalance)

/-- A check that took a token. -/
def armFromToken (cfg : Config) (balance : Int64) : Prog Verdict := do
  perform (.tick .armedOK) fun _ => ()
  if balance ≤ cfg.refill.lowWater then
    signalRefill cfg
  return { armed := true }

/-- The branch of a check after a miss. -/
def checkMissed (cfg : Config) : Prog Verdict := do
  signalRefill cfg
  if cfg.syncRefillMiss then
    let result ← doRefill cfg (max 1 cfg.refill.batchReq) (ascii "sync-miss")
    if result.ok then
      let (consumed, balance) ← consumeToken
      if consumed then
        armFromToken cfg balance
      else
        failCheck (ascii "credit miss after successful sync refill")
    else
      failCheck (refusedError (ascii "sync refill") result)
  else
    failCheck (ascii "credit miss; refill queued")

/-- The branch of a check with refills. -/
def checkToken (cfg : Config) : Prog Verdict := do
  let (consumed, balance) ← consumeToken
  if consumed then
    armFromToken cfg balance
  else
    checkMissed cfg

/-- The branches of `handleCheck`. -/
def checkVerdict (cfg : Config) (request : CheckRequest) (requestID path : Bytes)
    (snapshot : Snapshot) : Prog Verdict :=
  if snapshot.active = false then
    perform (.tick .disabledSkip) fun _ => { armDisabled := true }
  else if shouldArm cfg path request then
    if snapshot.count ≤ 0 then
      perform (.tick .configSkip) fun _ => {}
    else if snapshot.delayNs ≤ 0 then
      checkZeroDelay cfg requestID path
    else if !cfg.refillEnabled then
      checkDirect cfg requestID path snapshot.delayNs snapshot.count
    else
      checkToken cfg
  else
    perform (.tick .skipped) fun _ => {}

/-- A flag in a header. -/
def flag (value : Bool) : Bytes :=
  if value then ascii "1" else ascii "0"

/-- The headers of a check. -/
def debugReport (verdict : Verdict) (now : Snapshot) : List (Bytes × Bytes) :=
  [(ascii "x-mcoz-triggered", ascii "1"), (ascii "x-mcoz-armed", flag verdict.armed),
    (ascii "x-mcoz-delay-ns", formatInt now.delayNs.toInt),
    (ascii "x-mcoz-count", formatInt now.count.toInt), (ascii "x-mcoz-arm-suspended", ascii "0"),
    (ascii "x-mcoz-arm-active", flag now.active),
    (ascii "x-mcoz-arm-disabled", flag verdict.armDisabled)] ++
  if verdict.errMsg ≠ [] then [(ascii "x-mcoz-arm-error", truncate verdict.errMsg 120)] else []

/-- What a check ends with: its local variables, and the headers of its response. -/
structure CheckReply where
  verdict : Verdict
  headers : List (Bytes × Bytes)
deriving DecidableEq

/-- The request id of a check: a blank one is replaced. -/
def checkID (request : CheckRequest) : Prog Bytes :=
  if trimSpace (request.header (ascii "x-request-id")) = [] then do
    let now ← ask Call.unixMicro
    return ascii "no-id-" ++ formatInt (Int64.toInt now)
  else pure (request.header (ascii "x-request-id"))

/-- The headers of a check, if the configuration asks for them. -/
def checkHeaders (cfg : Config) (verdict : Verdict) : Prog (List (Bytes × Bytes)) :=
  if cfg.debugHeaders then do
    let now ← snapshotConfig
    return debugReport verdict now
  else pure []

/-- `handleCheck`. -/
def handleCheck (cfg : Config) (request : CheckRequest) : Prog CheckReply := do
  let path := extractOriginalPath request
  let requestID ← checkID request
  perform (.countTriggered path requestID) fun _ => ()
  let snapshot ← snapshotConfig
  let verdict ← checkVerdict cfg request requestID path snapshot
  let headers ← checkHeaders cfg verdict
  return ⟨verdict, headers⟩

/-! ### Control requests -/

/-- `setArmConfig`: whether something changed, and the configuration and the balance after it. -/
def setArmConfig (delayNs count : Option Int64) : Prog (Bool × Snapshot) :=
  perform (.setArmConfig delayNs count) fun gate =>
    (gate.configChanged delayNs count, (gate.setArmConfig delayNs count).snapshot)

/-- `setArmActive`. -/
def setArmActive (cfg : Config) (active : Bool) : Prog Bool := do
  let changed ← perform (.setArmActive active) fun gate => gate.armActive != active
  if active then
    signalRefill cfg
  return changed

/-- The reply to `/set_enabled`. -/
structure EnableReply where
  enabled : Bool
  changed : Bool
  configChanged : Bool
  delayNs : Int64
  count : Int64
  creditBalanceReq : Int64
  prime : Option RefillResult
deriving DecidableEq

/-- `handleSetEnabled`, from the values that it parsed. -/
def handleSetEnabled (cfg : Config) (enabled : Bool) (delayNs count : Option Int64) :
    Prog EnableReply := do
  let (configChanged, current) ← setArmConfig delayNs count
  let changed ← setArmActive cfg enabled
  if enabled && (configChanged || changed) then
    let prime ← primeOnEnable cfg
    signalRefill cfg
    let now ← snapshotConfig
    return ⟨enabled, changed, configChanged, current.delayNs, current.count, now.balance, some prime⟩
  else
    return ⟨enabled, changed, configChanged, current.delayNs, current.count, current.balance, none⟩

/-! ### Goroutines -/

/-- What a goroutine of the gate returns. -/
inductive Outcome
  | checked (reply : CheckReply)
  | enabled (reply : EnableReply)
  | turned
deriving DecidableEq

/-- What a goroutine of the gate does. -/
inductive Job
  | boot (active : Bool)
  | check (request : CheckRequest)
  | setEnabled (enabled : Bool) (delayNs count : Option Int64)
  | refillWorkerTurn

/-- The program of a job. -/
def Job.program (cfg : Config) : Job → Prog Outcome
  | .boot active => do
      if active then
        signalRefill cfg
      return .turned
  | .check request => do
      return .checked (← handleCheck cfg request)
  | .setEnabled enabled delayNs count => do
      return .enabled (← handleSetEnabled cfg enabled delayNs count)
  | .refillWorkerTurn => do
      GoGate.refillWorkerTurn cfg
      return .turned

/-- Goroutine zero is the refill worker and goroutine one is `main`; the others serve requests. -/
def Job.start (cfg : Config) (thread : ℕ) : Job → Option (Prog Outcome)
  | .refillWorkerTurn => if thread = 0 then some (Job.refillWorkerTurn.program cfg) else none
  | .boot active => if thread = 1 then some ((Job.boot active).program cfg) else none
  | job => if thread = 0 ∨ thread = 1 then none else some (job.program cfg)

/-- The gate and its goroutines. -/
abbrev GatePool := Pool Gate Critical Call Answer Outcome

/-- A step of the gate. -/
abbrev GateMove := Move Job Call Answer

/-- One step of one goroutine. -/
def step (cfg : Config) : GatePool → GateMove → Option GatePool :=
  Pool.step Critical.apply (Job.start cfg)

end Mcoz.GoGate
