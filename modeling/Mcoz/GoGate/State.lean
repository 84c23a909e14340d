/-
The Go gate: its configuration, its state and the sections of its mutex.

`Gate` is `gateState`, what `mu` protects. `Critical` lists the stretches between `Lock` and `Unlock` that
write, each with the local variables it uses, and `Critical.apply` is their effect; those that only read
are `look`. Texts are bytes and the integers are `Int64`, as in Go. Timings (`LastRefillMs`,
`x-mcoz-gate-us`) and the log output are left out, and so are the statistics of a suspension, which this
gate never writes.
-/

import Mcoz.Lib.Text

set_option autoImplicit false

namespace Mcoz.GoGate

open Word

/-! ### Texts -/

/-- The white space of Go's `unicode.IsSpace`, in UTF-8. -/
def spaces : List Bytes :=
  [[0x09], [0x0a], [0x0b], [0x0c], [0x0d], [0x20], [0xc2, 0x85], [0xc2, 0xa0], [0xe1, 0x9a, 0x80],
    [0xe2, 0x80, 0xa8], [0xe2, 0x80, 0xa9], [0xe2, 0x80, 0xaf], [0xe2, 0x81, 0x9f],
    [0xe3, 0x80, 0x80]] ++
  (List.range 11).map fun index => [0xe2, 0x80, 0x80 + index.toUInt8]

/-- The text without the pieces that it begins with. -/
def stripPieces (pieces : List Bytes) : ℕ → Bytes → Bytes
  | 0, text => text
  | room + 1, text =>
      match pieces.find? fun piece => piece.isPrefixOf text with
      | none => text
      | some piece => stripPieces pieces room (text.drop piece.length)

/-- `strings.TrimSpace`. -/
def trimSpace (text : Bytes) : Bytes :=
  let front := stripPieces spaces text.length text
  (stripPieces (spaces.map List.reverse) front.length front.reverse).reverse

/-- The format `%d`. -/
def formatInt (value : ℤ) : Bytes :=
  if value < 0 then ascii "-" ++ decimal value.natAbs else decimal value.natAbs

/-- `truncate`, and the slices of a text that is too long. -/
def truncate (text : Bytes) (length : ℕ) : Bytes :=
  text.take length

/-! ### Configuration -/

/-- `MCOZ_MATCH_MODE`; any other text is `other`. -/
inductive MatchMode
  | all
  | header
  | path
  | headerOrPath
  | headerAndPath
  | other
deriving DecidableEq

/-- `refillTargetReq`, `refillLowWater` and `refillBatchReq`. -/
structure RefillParams where
  targetReq : Int64 := 16
  lowWater : Int64 := 4
  batchReq : Int64 := 8

/-- `normalizeRefillParams`. -/
def normalizeRefillParams (params : RefillParams) : RefillParams :=
  let targetReq := if params.targetReq ≤ 0 then 16 else params.targetReq
  let lowWater := if params.lowWater < 0 then 0 else params.lowWater
  { targetReq := targetReq
    lowWater := if lowWater ≥ targetReq then max 0 (targetReq / 2) else lowWater
    batchReq := if params.batchReq ≤ 0 then 8 else params.batchReq }

/-- The variables of the package, from the environment. -/
structure Config where
  podName : Bytes := ascii "pod"
  podNamespace : Bytes := ascii "default"
  containerName : Bytes := ascii "app"
  sourceID : Bytes := ascii "default/pod/app"
  matchMode : MatchMode := .all
  matchHeader : Bytes := ascii "x-mcoz-enable"
  matchHeaderValue : Bytes := ascii "1"
  matchPathPrefix : Bytes := []
  debugHeaders : Bool := true
  refill : RefillParams := normalizeRefillParams {}
  refillEnabled : Bool := true
  sendOnZeroDelay : Bool := true
  syncRefillMiss : Bool := false

/-! ### State -/

/-- `stats`. -/
structure Stats where
  triggered : Int64 := 0
  armedOK : Int64 := 0
  armedFail : Int64 := 0
  armActive : Int64 := 0
  armToggleCount : Int64 := 0
  disabledSkip : Int64 := 0
  skipped : Int64 := 0
  armDelayNs : Int64 := 0
  armCount : Int64 := 0
  creditBalanceReq : Int64 := 0
  creditMiss : Int64 := 0
  refillRequest : Int64 := 0
  refillOK : Int64 := 0
  refillFail : Int64 := 0
  refillTokensAdded : Int64 := 0
  refillCreditsAdd : Int64 := 0
  configSkip : Int64 := 0
  lastError : Bytes := []
  lastPath : Bytes := []
  lastRequestID : Bytes := []

/-- `gateState`. -/
structure Gate where
  armActive : Bool
  armDelayNs : Int64
  armCount : Int64
  creditBalance : Int64 := 0
  st : Stats

/-- The gate that `main` sets up. -/
def Gate.init (active : Bool) (delayNs count : Int64) : Gate where
  armActive := active
  armDelayNs := delayNs
  armCount := count
  st := { armDelayNs := delayNs, armCount := count, armActive := if active then 1 else 0 }

/-! ### Sections -/

/-- The counters that a section adds one to and does nothing else. -/
inductive Tick
  | disabledSkip
  | configSkip
  | armedOK
  | skipped
  | refillRequest
deriving DecidableEq

/-- `s.st.X++`. -/
def Stats.tick (stats : Stats) : Tick → Stats
  | .disabledSkip => { stats with disabledSkip := stats.disabledSkip + 1 }
  | .configSkip => { stats with configSkip := stats.configSkip + 1 }
  | .armedOK => { stats with armedOK := stats.armedOK + 1 }
  | .skipped => { stats with skipped := stats.skipped + 1 }
  | .refillRequest => { stats with refillRequest := stats.refillRequest + 1 }

/-- The local variables of `doRefill`: the tokens asked for and the configuration of its snapshot. -/
structure Refill where
  tokensReq : Int64
  delayNs : Int64
  count : Int64
deriving DecidableEq

/-- `credits`. -/
def Refill.credits (refill : Refill) : Int64 :=
  refill.tokensReq * refill.count

/-- The sections of `mu`. -/
inductive Critical
  | look
  | countTriggered (path requestID : Bytes)
  | tick (counter : Tick)
  | armedFail (err : Bytes)
  | consumeToken
  | refillOK (refill : Refill)
  | refillFail (err : Bytes)
  | setArmConfig (delayNs count : Option Int64)
  | setArmActive (active : Bool)

namespace Gate

/-- The section of `consumeToken`. -/
def consumeToken (gate : Gate) : Gate :=
  if 0 < gate.creditBalance then
    { gate with
      creditBalance := gate.creditBalance - 1
      st := { gate.st with creditBalanceReq := gate.creditBalance - 1 } }
  else { gate with st := { gate.st with creditMiss := gate.st.creditMiss + 1 } }

/-- The section of `doRefill` after a request that was answered ok. -/
def refillOK (gate : Gate) (refill : Refill) : Gate :=
  { gate with
    creditBalance := gate.creditBalance + refill.tokensReq
    st := { gate.st with
      creditBalanceReq := gate.creditBalance + refill.tokensReq
      refillOK := gate.st.refillOK + 1
      refillTokensAdded := gate.st.refillTokensAdded + refill.tokensReq
      refillCreditsAdd := gate.st.refillCreditsAdd + refill.credits
      lastError := [] } }

/-- The number that `setArmConfig` leaves: the new one unless it is missing or negative. -/
def configured (current : Int64) : Option Int64 → Int64
  | none => current
  | some value => if 0 ≤ value then value else current

/-- Whether `setArmConfig` changes a number. -/
def configChanged (gate : Gate) (delayNs count : Option Int64) : Bool :=
  configured gate.armDelayNs delayNs != gate.armDelayNs ||
    configured gate.armCount count != gate.armCount

/-- The section of `setArmConfig`. -/
def setArmConfig (gate : Gate) (delayNs count : Option Int64) : Gate :=
  let balance := if gate.configChanged delayNs count then 0 else gate.creditBalance
  { gate with
    armDelayNs := configured gate.armDelayNs delayNs
    armCount := configured gate.armCount count
    creditBalance := balance
    st := { gate.st with
      armDelayNs := configured gate.armDelayNs delayNs
      armCount := configured gate.armCount count
      creditBalanceReq := balance } }

/-- The section of `setArmActive`. -/
def setArmActive (gate : Gate) (active : Bool) : Gate :=
  let toggles := gate.st.armToggleCount + if gate.armActive = active then 0 else 1
  if active then
    { gate with
      armActive := true
      st := { gate.st with armToggleCount := toggles, armActive := 1 } }
  else
    { gate with
      armActive := false
      creditBalance := 0
      st := { gate.st with armToggleCount := toggles, armActive := 0, creditBalanceReq := 0 } }

end Gate

/-- The effect of a section on the state. -/
def Critical.apply : Critical → Gate → Gate
  | .look, gate => gate
  | .countTriggered path requestID, gate =>
      { gate with st := { gate.st with
          triggered := gate.st.triggered + 1
          lastPath := path
          lastRequestID := requestID } }
  | .tick counter, gate => { gate with st := gate.st.tick counter }
  | .armedFail err, gate =>
      { gate with st := { gate.st with armedFail := gate.st.armedFail + 1, lastError := err } }
  | .consumeToken, gate => gate.consumeToken
  | .refillOK refill, gate => gate.refillOK refill
  | .refillFail err, gate =>
      { gate with st := { gate.st with refillFail := gate.st.refillFail + 1, lastError := err } }
  | .setArmConfig delayNs number, gate => gate.setArmConfig delayNs number
  | .setArmActive active, gate => gate.setArmActive active

end Mcoz.GoGate
