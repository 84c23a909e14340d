/-
The programs of the gate are put together from few pieces.

Every job is a composition of sections that add no tokens, of calls, and of `_do_refill`. So what holds
of these and is kept by composition holds of every job (`Performs.job`). The jobs other than triggers
need fewer sections: they neither count a trigger nor take a token (`Refills.control`).
-/

import Mcoz.Lib.Attempt
import Mcoz.PyGate.Program

set_option autoImplicit false

namespace Mcoz.PyGate

open Threads Program

/-- A section that adds no tokens. -/
def Critical.Quiet : Critical → Prop
  | .refillOk _ => False
  | _ => True

/-- A section of the gate's control: it adds no tokens, takes none and counts nothing of a
trigger. -/
def Critical.Plain : Critical → Prop
  | .countTriggered _ _ => False
  | .count counter => counter = .refillRequest
  | .failTrigger _ => False
  | .consumeCreditToken => False
  | .refillOk _ => False
  | _ => True

theorem Critical.Plain.quiet {code : Critical} (plain : code.Plain) : code.Quiet := by
  cases code with
  | refillOk refill => cases plain
  | _ => trivial

/-- A call of this gate: an arm request has its source. -/
def Call.Own (cfg : Config) : Call → Prop
  | .time => True
  | .arm request => request.source = cfg.sourceId

/-- A property of programs that composition keeps, and that good sections and the calls of this gate
have. The plain sections are good. -/
structure Composes (cfg : Config) (good : Critical → Prop) (holds : (α : Type) → Prog α → Prop) :
    Prop where
  plain : ∀ {code : Critical}, code.Plain → good code
  pure : ∀ {α : Type} (value : α), holds α (pure value)
  bind : ∀ {α β : Type} {first : Prog α} {second : α → Prog β}, holds α first →
    (∀ value, holds β (second value)) → holds β (first >>= second)
  perform : ∀ {α : Type} {code : Critical} (result : Gate → α), good code →
    holds α (perform code result)
  time : holds ℚ time
  arm : ∀ request : ArmCall, request.source = cfg.sourceId →
    holds ArmResult (armTransportPost request)

/-- It holds of `_do_refill` too. -/
structure Refills (cfg : Config) (good : Critical → Prop) (holds : (α : Type) → Prog α → Prop) : Prop
    extends Composes cfg good holds where
  refill : ∀ (tokensReq : ℤ) (reason : String), holds ArmResult (doRefill cfg tokensReq reason)

/-- The job is a trigger. -/
def Job.isTrigger : Job → Bool
  | .trigger _ _ _ => true
  | _ => false

/-- A thread starts the program of its job. -/
theorem program_of_start {cfg : Config} {thread : ℕ} {job : Job} {program : Prog Outcome}
    (begun : job.start cfg thread = some program) : program = job.program cfg := by
  revert begun
  unfold Job.start
  split <;> split <;> simp +contextual [eq_comm]

/-- All sections that add no tokens are good. -/
structure Performs (cfg : Config) (good : Critical → Prop) (holds : (α : Type) → Prog α → Prop) :
    Prop extends Refills cfg good holds where
  quiet : ∀ {code : Critical}, code.Quiet → good code

namespace Composes

variable {cfg : Config} {good : Critical → Prop} {holds : (α : Type) → Prog α → Prop}
  (composes : Composes cfg good holds)

include composes

theorem maybeSuspendArm (statusCode : Option ℤ) (errText : String) :
    holds _ (maybeSuspendArm cfg statusCode errText) := by
  unfold PyGate.maybeSuspendArm
  split
  · exact composes.pure _
  · split
    · exact composes.pure _
    · exact composes.bind (composes.bind composes.time fun _ =>
        composes.perform _ (composes.plain trivial)) fun _ => composes.pure _

theorem signalRefill : holds _ (signalRefill cfg) := by
  unfold PyGate.signalRefill
  split
  · exact composes.pure _
  · exact composes.perform _ (composes.plain rfl)

theorem armOnce (requestId path : String) (delayNs count : ℤ) :
    holds _ (armOnce cfg requestId path delayNs count) :=
  composes.bind (composes.perform _ (composes.plain trivial)) fun _ => composes.arm _ rfl

end Composes

/-- The programs whose sections are good and whose calls are of this gate. -/
theorem only_composes {cfg : Config} {good : Critical → Prop}
    (plain : ∀ {code : Critical}, code.Plain → good code) :
    Composes cfg good fun _ program => program.Only good (Call.Own cfg) where
  plain := plain
  pure _ := trivial
  bind := only_bind
  perform _ holds := only_perform holds
  time := only_ask trivial
  arm _ source := ⟨source, fun (answer : Option ArmResult) => by cases answer <;> trivial⟩

/-- The programs that fail at an exception only. -/
theorem fails_composes {cfg : Config} :
    Composes cfg (fun _ => True) fun _ program => program.Fails Raised where
  plain _ := trivial
  pure _ := trivial
  bind := fails_bind
  perform _ _ := fun _ => trivial
  time := fun _ => ⟨False.elim, fun _ => trivial⟩
  arm _ _ := fun (answer : Option ArmResult) => by
    cases answer with
    | none => exact ⟨fun _ => rfl, fun returned => absurd rfl returned⟩
    | some result => exact ⟨nofun, fun _ => trivial⟩

theorem doRefill_fails {cfg : Config} (tokensReq : ℤ) (reason : String) :
    (doRefill cfg tokensReq reason).Fails Raised := by
  unfold doRefill
  split
  · trivial
  · split
    · trivial
    · refine fails_bind (fun _ => trivial) fun ⟨refill, active⟩ => ?_
      show Fails Raised (ite _ _ _)
      split
      · trivial
      · have composes := @fails_composes cfg
        refine fails_bind composes.time fun now => fails_bind (composes.armOnce _ _ _ _) fun result => ?_
        split
        · exact fails_bind (fun _ => trivial) fun _ => fun _ => trivial
        · exact fails_bind (fun _ => trivial) fun _ =>
            fails_bind (composes.maybeSuspendArm _ _) fun _ => trivial

theorem fails_performs {cfg : Config} :
    Performs cfg (fun _ => True) fun _ program => program.Fails Raised :=
  { fails_composes with
    refill := doRefill_fails
    quiet := fun _ => trivial }

/-- `_do_refill` returns before its sections unless it is asked for tokens. -/
theorem doRefill_only {cfg : Config} {good : Critical → Prop}
    (plain : ∀ {code : Critical}, code.Plain → good code)
    (adds : ∀ refill : Refill, 0 < refill.tokensReq → good (.refillOk refill))
    (tokensReq : ℤ) (reason : String) :
    (doRefill cfg tokensReq reason).Only good (Call.Own cfg) := by
  have composes : Composes cfg good fun _ program => program.Only good (Call.Own cfg) :=
    only_composes plain
  unfold doRefill
  split
  · trivial
  · split
    · trivial
    · rename_i asked
      refine ⟨plain trivial, fun gate => ?_⟩
      show Only _ _ (ite _ _ _)
      split
      · trivial
      · refine only_bind (only_ask trivial) fun now => only_bind (composes.armOnce _ _ _ _)
          fun result => ?_
        split
        · refine only_bind (only_perform (plain trivial)) fun _ => only_perform ?_
          exact adds _ (not_le.mp asked)
        · exact only_bind (only_perform (plain trivial)) fun _ =>
            only_bind (composes.maybeSuspendArm _ _) fun _ => trivial

theorem only_refills {cfg : Config} {good : Critical → Prop}
    (plain : ∀ {code : Critical}, code.Plain → good code)
    (adds : ∀ refill : Refill, 0 < refill.tokensReq → good (.refillOk refill)) :
    Refills cfg good fun _ program => program.Only good (Call.Own cfg) :=
  { only_composes plain with refill := doRefill_only plain adds }

/-! ### The jobs of the control -/

section Control

variable {cfg : Config} {good : Critical → Prop} {holds : (α : Type) → Prog α → Prop}
  (refills : Refills cfg good holds)

include refills

namespace Refills

theorem primeRefillOnEnable : holds _ (primeRefillOnEnable cfg) := by
  unfold PyGate.primeRefillOnEnable
  split
  · exact refills.pure _
  · refine refills.bind (refills.perform _ (refills.plain trivial)) fun ⟨active, delayNs, count, balance⟩ => ?_
    show holds _ (ite _ _ _)
    split
    · exact refills.pure _
    · show holds _ (ite _ _ _)
      split
      · exact refills.pure _
      · exact refills.bind (refills.refill _ _) fun _ =>
          refills.bind (refills.perform _ (refills.plain trivial)) fun _ => refills.pure _

theorem currentRefillNeed : holds _ (currentRefillNeed cfg) := by
  unfold PyGate.currentRefillNeed
  split
  · exact refills.pure _
  · exact refills.perform _ (refills.plain trivial)

theorem refillWorkerTurn : holds _ (refillWorkerTurn cfg) := by
  refine refills.bind refills.time fun _ =>
    refills.bind (refills.perform _ (refills.plain trivial)) fun ⟨suspended, until_, reason⟩ => ?_
  show holds _ (ite _ _ _)
  split
  · exact refills.pure _
  · refine refills.bind refills.currentRefillNeed fun need => ?_
    split
    · exact refills.pure _
    · exact refills.bind (refills.refill _ _) fun _ => refills.pure _

theorem setArmActive (active : Bool) : holds _ (setArmActive cfg active) := by
  refine refills.bind (refills.perform _ (refills.plain trivial)) fun _ =>
    refills.bind (refills.perform _ (refills.plain trivial)) fun armActive => ?_
  split
  · exact refills.bind refills.primeRefillOnEnable fun _ =>
      refills.bind refills.signalRefill fun _ => refills.pure _
  · exact refills.bind (refills.perform _ (refills.plain trivial)) fun _ => refills.pure _

theorem primeAgain (enabled configChanged changed : Bool) :
    holds _ (primeAgain cfg enabled configChanged changed) := by
  unfold PyGate.primeAgain
  split
  · exact refills.bind refills.primeRefillOnEnable fun _ =>
      refills.bind refills.signalRefill fun _ => refills.pure _
  · exact refills.pure _

theorem setEnabled (enabled : Bool) (delayNs count : Option ℤ) :
    holds _ (setEnabled cfg enabled delayNs count) :=
  refills.bind (refills.perform _ (refills.plain trivial)) fun _ =>
    refills.bind (refills.setArmActive enabled) fun _ =>
    refills.bind (refills.primeAgain _ _ _) fun _ =>
    refills.bind (refills.perform _ (refills.plain trivial)) fun _ =>
    refills.bind (refills.perform _ (refills.plain trivial)) fun _ => refills.pure _

theorem setTarget (ns pod container : Option String) :
    holds _ (setTarget cfg ns pod container) := by
  refine refills.bind (refills.perform _ (refills.plain trivial)) fun current => ?_
  show holds _ (ite _ _ _)
  split
  · exact refills.pure _
  · split
    · exact refills.pure _
    · exact refills.perform _ (refills.plain trivial)

/-- The program of every job but a trigger has the property. -/
theorem control {job : Job} (control : job.isTrigger = false) : holds _ (job.program cfg) := by
  cases job with
  | trigger path headers requestId => cases control
  | setEnabled enabled delayNs count =>
      exact refills.bind (refills.setEnabled _ _ _) fun _ => refills.pure _
  | setTarget ns pod container =>
      exact refills.bind (refills.setTarget _ _ _) fun _ => refills.pure _
  | refillWorkerTurn => exact refills.bind refills.refillWorkerTurn fun _ => refills.pure _

end Refills

end Control

/-! ### The triggers -/

section Triggers

variable {cfg : Config} {good : Critical → Prop} {holds : (α : Type) → Prog α → Prop}
  (performs : Performs cfg good holds)

include performs

namespace Performs

theorem armFromToken (balanceAfter : ℤ) : holds _ (armFromToken cfg balanceAfter) := by
  refine performs.bind (performs.perform _ (performs.quiet trivial)) fun _ => ?_
  split
  · exact performs.bind performs.signalRefill fun _ => performs.pure _
  · exact performs.pure _

theorem armDirectly (requestId path : String) (delayNs count : ℤ) :
    holds _ (armDirectly cfg requestId path delayNs count) := by
  refine performs.bind (performs.armOnce _ _ _ _) fun result => ?_
  split
  · exact performs.bind (performs.perform _ (performs.quiet trivial)) fun _ =>
      performs.bind (performs.perform _ (performs.quiet trivial)) fun _ => performs.pure _
  · exact performs.bind (performs.perform _ (performs.quiet trivial)) fun _ =>
      performs.bind (performs.maybeSuspendArm _ _) fun _ => performs.pure _

theorem refillOnMiss : holds _ (refillOnMiss cfg) := by
  refine performs.bind performs.signalRefill fun _ => ?_
  split
  · refine performs.bind (performs.refill _ _) fun result => ?_
    split
    · refine performs.bind (performs.perform _ (performs.quiet trivial)) fun ⟨consumed, balanceAfter⟩ => ?_
      show holds _ (ite _ _ _)
      split
      · exact performs.armFromToken _
      · exact performs.perform _ (performs.quiet trivial)
    · exact performs.bind (performs.perform _ (performs.quiet trivial)) fun _ =>
        performs.bind (performs.maybeSuspendArm _ _) fun _ => performs.pure _
  · exact performs.perform _ (performs.quiet trivial)

theorem armTrigger (requestId path : String) : holds _ (armTrigger cfg requestId path) := by
  refine performs.bind (performs.perform _ (performs.quiet trivial)) fun ⟨delayNs, count⟩ => ?_
  show holds _ (ite _ _ _)
  split
  · exact performs.perform _ (performs.quiet trivial)
  · refine performs.bind performs.time fun _ =>
      performs.bind (performs.perform _ (performs.quiet trivial)) fun ⟨suspended, until_, reason⟩ => ?_
    show holds _ (ite _ _ _)
    split
    · exact performs.perform _ (performs.quiet trivial)
    · split
      · exact performs.armDirectly _ _ _ _
      · refine performs.bind (performs.perform _ (performs.quiet trivial)) fun ⟨consumed, balanceAfter⟩ => ?_
        show holds _ (ite _ _ _)
        split
        · exact performs.armFromToken _
        · exact performs.refillOnMiss

theorem triggerVerdict (requestId path : String) (headers : List (String × String))
    (active : Bool) : holds _ (triggerVerdict cfg requestId path headers active) := by
  unfold PyGate.triggerVerdict
  split
  · exact performs.perform _ (performs.quiet trivial)
  · split
    · exact performs.armTrigger _ _
    · exact performs.perform _ (performs.quiet trivial)

theorem processTrigger (path : String) (headers : List (String × String)) (requestId : String) :
    holds _ (processTrigger cfg path headers requestId) :=
  performs.bind performs.time fun _ => performs.bind (performs.perform _ (performs.quiet trivial)) fun _ =>
    performs.bind (performs.perform _ (performs.quiet trivial)) fun _ =>
    performs.bind (performs.triggerVerdict _ _ _ _) fun _ =>
    performs.bind (performs.perform _ (performs.quiet trivial)) fun _ =>
    performs.bind (performs.perform _ (performs.quiet trivial)) fun _ => performs.pure _

/-- The program of every job has the property. -/
theorem job (job : Job) : holds _ (job.program cfg) := by
  cases job with
  | trigger path headers requestId =>
      exact performs.bind (performs.processTrigger _ _ _) fun _ => performs.pure _
  | _ => exact performs.control rfl

/-- So has every program that a thread starts. -/
theorem start (thread : ℕ) (job : Job) (program : Prog Outcome)
    (begun : job.start cfg thread = some program) : holds _ program := by
  rw [program_of_start begun]
  exact performs.job job

end Performs

end Triggers

end Mcoz.PyGate
