/-
The Python gate: its globals and the sections of its lock.

`Gate` is what `LOCK` protects. `Critical` lists the `with LOCK` blocks that write, each with the
local variables it uses, and `Critical.apply` is their effect; the blocks that only read are `look`.
The timings (`last_refill_ms`, `gate_us`) and the log output are left out, and `REFILL_EVENT` only
wakes the refill worker earlier than its timeout does.
-/

import Mathlib.Data.Rat.Floor

set_option autoImplicit false

namespace Mcoz.PyGate

/-! ### Configuration -/

/-- `MCOZ_REFILL_TARGET_REQ`, `MCOZ_REFILL_LOW_WATER_REQ` and `MCOZ_REFILL_BATCH_REQ`, as they are
after their normalization. -/
structure RefillConfig where
  target : ℤ
  lowWater : ℤ
  batch : ℤ
  target_pos : 0 < target
  lowWater_nonneg : 0 ≤ lowWater
  lowWater_lt : lowWater < target
  batch_pos : 0 < batch

/-- The normalized target: at least one. -/
def normalTarget (target : ℤ) : ℤ :=
  if target ≤ 0 then 16 else target

/-- The normalized low-water mark: not negative and below the target. -/
def normalLowWater (target lowWater : ℤ) : ℤ :=
  if max lowWater 0 ≥ target then max 0 (target / 2) else max lowWater 0

theorem normalTarget_pos (target : ℤ) : 0 < normalTarget target := by
  unfold normalTarget
  split <;> omega

/-- The normalization of the refill configuration. -/
def RefillConfig.normalize (target lowWater batch : ℤ) : RefillConfig where
  target := normalTarget target
  lowWater := normalLowWater (normalTarget target) lowWater
  batch := if batch ≤ 0 then 8 else batch
  target_pos := normalTarget_pos target
  lowWater_nonneg := by
    unfold normalLowWater
    split <;> omega
  lowWater_lt := by
    have positive := normalTarget_pos target
    unfold normalLowWater
    split <;> omega
  batch_pos := by split <;> omega

/-- `MCOZ_MATCH_MODE`; any other text is `other`. -/
inductive MatchMode
  | all
  | header
  | path
  | headerOrPath
  | headerAndPath
  | other
deriving DecidableEq

/-- A pod's container, by the names that an arm request gives it. -/
structure Target where
  ns : String
  pod : String
  container : String
deriving DecidableEq

/-- The constants of the process, from its environment. -/
structure Config where
  refill : RefillConfig
  directArm : Bool := false
  syncRefillOnMiss : Bool := false
  sourceId : String := "default/pod/app"
  selfTarget : Option Target := none
  matchMode : MatchMode := .all
  matchHeader : String := "x-mcoz-enable"
  matchHeaderValue : String := "1"
  matchPathPrefix : String := ""
  failOpenOnArmUnavailable : Bool := true
  armUnavailableStatuses : List ℤ := [429, 500, 502, 503, 504]
  armSuspendSec : ℚ := 5

/-! ### Globals -/

/-- `STATS`. -/
structure Stats where
  triggered : ℕ := 0
  armedOk : ℕ := 0
  armedFail : ℕ := 0
  armSuppressed : ℕ := 0
  armSuspendedCount : ℕ := 0
  armSuspendUntilUnix : ℚ := 0
  armSuspendReason : String := ""
  armActive : ℕ
  armToggleCount : ℕ := 0
  disabledSkip : ℕ := 0
  skipped : ℕ := 0
  armDelayNs : ℤ
  armCount : ℤ
  creditBalanceReq : ℤ := 0
  creditMiss : ℕ := 0
  refillRequest : ℕ := 0
  refillOk : ℕ := 0
  refillFail : ℕ := 0
  refillTokensAdded : ℤ := 0
  refillCreditsAdded : ℤ := 0
  configSkip : ℕ := 0
  lastError : String := ""
  lastPath : String := ""
  lastRequestId : String := ""

/-- The globals that `LOCK` protects. -/
structure Gate where
  armSuspendedUntil : ℚ := 0
  armSuspendReason : String := ""
  armActive : Bool
  armDelayNs : ℤ
  armCount : ℤ
  creditBalanceReq : ℤ := 0
  target : Target
  stats : Stats

/-- The globals of a new process. -/
def Gate.init (armActive : Bool) (delayNs count : ℤ) (target : Target) : Gate where
  armActive := armActive
  armDelayNs := delayNs
  armCount := count
  target := target
  stats := { armActive := armActive.toNat, armDelayNs := delayNs, armCount := count }

/-! ### Python's numbers and slices -/

/-- Rounding to an integer, a half to the even one. -/
def roundHalfEven (value : ℚ) : ℤ :=
  let below := value.floor
  if value - below < 1 / 2 then below
  else if value - below > 1 / 2 then below + 1
  else if below % 2 = 0 then below else below + 1

/-- `round(value, 6)`. -/
def roundMicro (value : ℚ) : ℚ :=
  roundHalfEven (value * 1000000) / 1000000

/-- The format `.3f`, of a number that is not negative. -/
def fixed3 (value : ℚ) : String :=
  let thousandths := roundHalfEven (value * 1000)
  toString (thousandths / 1000) ++ "." ++
    String.ofList ((Nat.toDigits 10 (1000 + (thousandths % 1000).toNat)).drop 1)

/-- The slice `text[:length]`. -/
def slice (text : String) (length : ℕ) : String :=
  String.ofList (text.toList.take length)

/-- An HTTP status in an error text. -/
def statusText (statusCode : Option ℤ) : String :=
  match statusCode with
  | none => "exception"
  | some code => toString code

/-! ### Sections -/

/-- The counters that a section adds one to and does nothing else. -/
inductive Counter
  | disabledSkip
  | configSkip
  | armSuppressed
  | armedOk
  | skipped
  | refillRequest
deriving DecidableEq

/-- `STATS[...] += 1`. -/
def Stats.count (stats : Stats) : Counter → Stats
  | .disabledSkip => { stats with disabledSkip := stats.disabledSkip + 1 }
  | .configSkip => { stats with configSkip := stats.configSkip + 1 }
  | .armSuppressed => { stats with armSuppressed := stats.armSuppressed + 1 }
  | .armedOk => { stats with armedOk := stats.armedOk + 1 }
  | .skipped => { stats with skipped := stats.skipped + 1 }
  | .refillRequest => { stats with refillRequest := stats.refillRequest + 1 }

/-- The local variables of `_do_refill`: the tokens asked for, and the configuration that it read
and sends. -/
structure Refill where
  tokensReq : ℤ
  delayNs : ℤ
  count : ℤ
deriving DecidableEq

/-- `credits` in `_do_refill`. -/
def Refill.credits (refill : Refill) : ℤ :=
  refill.tokensReq * refill.count

/-- The `with LOCK` blocks. -/
inductive Critical
  | look
  | countTriggered (path requestId : String)
  | count (counter : Counter)
  | failTrigger (err : String)
  | consumeCreditToken
  | refillOk (refill : Refill)
  | refillFail (err : String)
  | clearArmSuspended
  | suspendArm (until_ : ℚ) (reason : String)
  | setArmActive (active : Bool)
  | setArmConfig (delayNs count : Option ℤ)
  | setTarget (ns pod container : Option String)

namespace Gate

/-- The gate with another balance, and with the statistic that shows it. -/
def setBalance (gate : Gate) (balance : ℤ) : Gate :=
  { gate with
    creditBalanceReq := balance
    stats := { gate.stats with creditBalanceReq := balance } }

/-- The block of `_consume_credit_token`. -/
def consumeCreditToken (gate : Gate) : Gate :=
  if 0 < gate.creditBalanceReq then gate.setBalance (gate.creditBalanceReq - 1)
  else { gate with stats := { gate.stats with creditMiss := gate.stats.creditMiss + 1 } }

/-- The block of `_do_refill` after an arm that was answered ok. -/
def refillOk (gate : Gate) (refill : Refill) : Gate :=
  let credited := gate.setBalance (gate.creditBalanceReq + refill.tokensReq)
  { credited with stats := { credited.stats with
      refillOk := gate.stats.refillOk + 1
      refillTokensAdded := gate.stats.refillTokensAdded + refill.tokensReq
      refillCreditsAdded := gate.stats.refillCreditsAdded + refill.credits } }

/-- The block of `_clear_arm_suspended`. -/
def clearArmSuspended (gate : Gate) : Gate :=
  { gate with
    armSuspendedUntil := 0
    armSuspendReason := ""
    stats := { gate.stats with armSuspendUntilUnix := 0, armSuspendReason := "" } }

/-- The block of `_suspend_arm`. -/
def suspendArm (gate : Gate) (until_ : ℚ) (reason : String) : Gate :=
  { gate with
    armSuspendedUntil := until_
    armSuspendReason := slice reason 200
    stats := { gate.stats with
      armSuspendedCount := gate.stats.armSuspendedCount + 1
      armSuspendUntilUnix := roundMicro until_
      armSuspendReason := slice reason 200 } }

/-- The block of `_set_arm_active`. -/
def setArmActive (gate : Gate) (active : Bool) : Gate :=
  let set := { gate with
    armActive := active
    stats := { gate.stats with
      armActive := active.toNat
      armToggleCount := gate.stats.armToggleCount + (gate.armActive != active).toNat } }
  if active then set else set.setBalance 0

/-- The number that `_set_arm_config` leaves: the new one unless it is missing or negative. -/
def configured (current : ℤ) : Option ℤ → ℤ
  | none => current
  | some value => if 0 ≤ value then value else current

/-- Whether `_set_arm_config` changes a number. -/
def configChanged (gate : Gate) (delayNs count : Option ℤ) : Bool :=
  configured gate.armDelayNs delayNs != gate.armDelayNs ||
    configured gate.armCount count != gate.armCount

/-- The block of `_set_arm_config`. -/
def setArmConfig (gate : Gate) (delayNs count : Option ℤ) : Gate :=
  let set := { gate with
    armDelayNs := configured gate.armDelayNs delayNs
    armCount := configured gate.armCount count
    stats := { gate.stats with
      armDelayNs := configured gate.armDelayNs delayNs
      armCount := configured gate.armCount count } }
  if gate.configChanged delayNs count then set.setBalance 0 else set

/-- The block of `_set_target`. -/
def setTarget (gate : Gate) (ns pod container : Option String) : Gate :=
  { gate with target := {
      ns := ns.getD gate.target.ns
      pod := pod.getD gate.target.pod
      container := container.getD gate.target.container } }

end Gate

/-- The effect of a block on the globals. -/
def Critical.apply : Critical → Gate → Gate
  | .look, gate => gate
  | .countTriggered path requestId, gate =>
      { gate with stats := { gate.stats with
          triggered := gate.stats.triggered + 1
          lastPath := path
          lastRequestId := requestId } }
  | .count counter, gate => { gate with stats := gate.stats.count counter }
  | .failTrigger err, gate =>
      { gate with stats := { gate.stats with
          armedFail := gate.stats.armedFail + 1
          lastError := err } }
  | .consumeCreditToken, gate => gate.consumeCreditToken
  | .refillOk refill, gate => gate.refillOk refill
  | .refillFail err, gate =>
      { gate with stats := { gate.stats with
          refillFail := gate.stats.refillFail + 1
          lastError := err } }
  | .clearArmSuspended, gate => gate.clearArmSuspended
  | .suspendArm until_ reason, gate => gate.suspendArm until_ reason
  | .setArmActive active, gate => gate.setArmActive active
  | .setArmConfig delay number, gate => gate.setArmConfig delay number
  | .setTarget ns pod container, gate => gate.setTarget ns pod container

end Mcoz.PyGate
