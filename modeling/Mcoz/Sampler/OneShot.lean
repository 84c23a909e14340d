/-
The one-shot gate of the request-aware sampler.

Two threads share `g_request_armed`. The sampling loop takes the gate at a threshold hit
(`compare_exchange`) and injects the fixed delay. The control server's `/rearm` sets the gate
(`exchange`), injects the same delay at once if it can, and then disarms the gate with a plain store.
A hit between the exchange and the store takes a gate that the immediate injection consumes as well.
-/

import Mcoz.Lib.Machine
import Mathlib.Algebra.Order.Group.Nat

set_option autoImplicit false

namespace Mcoz.Sampler

open Machine

/-- Where the sampling loop is: before its next hit, past a successful `compare_exchange`, or past
the injection. -/
inductive SamplerPhase
  | sampling
  | hit
  | injected
deriving DecidableEq

/-- Where the `/rearm` handler is: between requests, past the exchange (which found `wasArmed`), past
the immediate injection, or past the store. -/
inductive RearmPhase
  | idle
  | exchanged (wasArmed : Bool)
  | injected (wasArmed : Bool)
  | disarmed (wasArmed : Bool)
deriving DecidableEq

/-- The gate, the delay counter, both threads, and the numbers of injections and rearms. -/
structure OneShot where
  requestArmed : Bool
  rearmImmediateDelayNs : UInt64
  accumulatedDelayNs : UInt64
  sampler : SamplerPhase
  rearm : RearmPhase
  injections : ℕ
  rearms : ℕ
deriving DecidableEq

/-- The atomic steps. Whether a datagram is sent to the peers and whether a victim has a pid is the
environment's choice. -/
inductive OneShotStep
  | thresholdHit
  | inject (sent applied : Bool)
  | addInjected
  | exchange
  | injectImmediately (applied : Bool)
  | store
  | addImmediate
  | clear
deriving DecidableEq

namespace OneShot

/-- The start of `perf_sampler_request_aware` with a positive fixed delay. -/
def start (fixedDelayNs : UInt64) : OneShot where
  requestArmed := true
  rearmImmediateDelayNs := fixedDelayNs
  accumulatedDelayNs := 0
  sampler := .sampling
  rearm := .idle
  injections := 0
  rearms := 0

/-- `compare_exchange_strong` of the gate from armed to disarmed. -/
def thresholdHit (gate : OneShot) : Option OneShot :=
  if gate.sampler = .sampling then
    some (if gate.requestArmed then { gate with requestArmed := false, sampler := .hit } else gate)
  else none

/-- `send_delay_to_peers`, and `apply_delay_to_cgroups` if nothing was sent; if there is no victim
either, the loop goes on without an injection. -/
def inject (gate : OneShot) (sent applied : Bool) : Option OneShot :=
  if gate.sampler = .hit then
    some (if sent || applied then
        { gate with sampler := .injected, injections := gate.injections + 1 }
      else { gate with sampler := .sampling })
  else none

/-- `fetch_add` of the fixed delay by the sampling loop. -/
def addInjected (gate : OneShot) : Option OneShot :=
  if gate.sampler = .injected then
    some { gate with
      accumulatedDelayNs := gate.accumulatedDelayNs + gate.rearmImmediateDelayNs
      sampler := .sampling }
  else none

/-- The exchange of the `/rearm` handler. -/
def exchange (gate : OneShot) : Option OneShot :=
  if gate.rearm = .idle then
    some { gate with
      requestArmed := true
      rearm := .exchanged gate.requestArmed
      rearms := gate.rearms + 1 }
  else none

/-- `apply_delay_to_cgroups` of the `/rearm` handler, for a positive immediate delay; without a
victim the gate stays armed. -/
def injectImmediately (gate : OneShot) (applied : Bool) : Option OneShot :=
  match gate.rearm with
  | .exchanged wasArmed =>
      some (if 0 < gate.rearmImmediateDelayNs && applied then
          { gate with rearm := .injected wasArmed, injections := gate.injections + 1 }
        else { gate with rearm := .idle })
  | _ => none

/-- The store of the `/rearm` handler: "consumed for this request". -/
def store (gate : OneShot) : Option OneShot :=
  match gate.rearm with
  | .injected wasArmed => some { gate with requestArmed := false, rearm := .disarmed wasArmed }
  | _ => none

/-- `fetch_add` of the immediate delay by the `/rearm` handler. -/
def addImmediate (gate : OneShot) : Option OneShot :=
  match gate.rearm with
  | .disarmed _ =>
      some { gate with
        accumulatedDelayNs := gate.accumulatedDelayNs + gate.rearmImmediateDelayNs
        rearm := .idle }
  | _ => none

/-- `/clear`, answered by the thread that answers `/rearm`. -/
def clear (gate : OneShot) : Option OneShot :=
  if gate.rearm = .idle then some { gate with accumulatedDelayNs := 0 } else none

/-- One atomic step. -/
def step (gate : OneShot) : OneShotStep → Option OneShot
  | .thresholdHit => gate.thresholdHit
  | .inject sent applied => gate.inject sent applied
  | .addInjected => gate.addInjected
  | .exchange => gate.exchange
  | .injectImmediately applied => gate.injectImmediately applied
  | .store => gate.store
  | .addImmediate => gate.addImmediate
  | .clear => gate.clear

/-- The `/rearm` handler has injected and not yet disarmed the gate. -/
def Consumed (gate : OneShot) : Prop :=
  ∃ wasArmed, gate.rearm = .injected wasArmed

instance (gate : OneShot) : Decidable gate.Consumed :=
  match phase : gate.rearm with
  | .injected wasArmed => isTrue ⟨wasArmed, phase⟩
  | .idle => isFalse fun ⟨_, other⟩ => by simp [phase] at other
  | .exchanged _ => isFalse fun ⟨_, other⟩ => by simp [phase] at other
  | .disarmed _ => isFalse fun ⟨_, other⟩ => by simp [phase] at other

/-! ### What a step does -/

/-- The step that ran and the state it left. -/
inductive Effect (gate : OneShot) : OneShotStep → OneShot → Prop
  | taken (sampling : gate.sampler = .sampling) (armed : gate.requestArmed = true) :
      Effect gate .thresholdHit { gate with requestArmed := false, sampler := .hit }
  | missed (sampling : gate.sampler = .sampling) (disarmed : gate.requestArmed = false) :
      Effect gate .thresholdHit gate
  | injected {sent applied : Bool} (hit : gate.sampler = .hit) (delivered : (sent || applied) = true) :
      Effect gate (.inject sent applied)
        { gate with sampler := .injected, injections := gate.injections + 1 }
  | skipped (hit : gate.sampler = .hit) :
      Effect gate (.inject false false) { gate with sampler := .sampling }
  | added (injected : gate.sampler = .injected) :
      Effect gate .addInjected { gate with
        accumulatedDelayNs := gate.accumulatedDelayNs + gate.rearmImmediateDelayNs
        sampler := .sampling }
  | exchanged (idle : gate.rearm = .idle) :
      Effect gate .exchange { gate with
        requestArmed := true
        rearm := .exchanged gate.requestArmed
        rearms := gate.rearms + 1 }
  | immediate {wasArmed : Bool} (exchanged : gate.rearm = .exchanged wasArmed)
      (positive : 0 < gate.rearmImmediateDelayNs) :
      Effect gate (.injectImmediately true)
        { gate with rearm := .injected wasArmed, injections := gate.injections + 1 }
  | unapplied {wasArmed applied : Bool} (exchanged : gate.rearm = .exchanged wasArmed) :
      Effect gate (.injectImmediately applied) { gate with rearm := .idle }
  | stored {wasArmed : Bool} (injected : gate.rearm = .injected wasArmed) :
      Effect gate .store { gate with requestArmed := false, rearm := .disarmed wasArmed }
  | addedImmediate {wasArmed : Bool} (disarmed : gate.rearm = .disarmed wasArmed) :
      Effect gate .addImmediate { gate with
        accumulatedDelayNs := gate.accumulatedDelayNs + gate.rearmImmediateDelayNs
        rearm := .idle }
  | cleared (idle : gate.rearm = .idle) :
      Effect gate .clear { gate with accumulatedDelayNs := 0 }

theorem effect_of_step {gate next : OneShot} {action : OneShotStep}
    (moved : gate.step action = some next) : Effect gate action next := by
  cases action with
  | thresholdHit =>
      obtain ⟨sampling, ⟨⟩⟩ := Option.ite_none_right_eq_some.mp moved
      cases armed : gate.requestArmed with
      | true => exact .taken sampling armed
      | false => exact .missed sampling armed
  | inject sent applied =>
      obtain ⟨hit, ⟨⟩⟩ := Option.ite_none_right_eq_some.mp moved
      cases delivered : sent || applied with
      | true => exact .injected hit delivered
      | false =>
          obtain ⟨rfl, rfl⟩ := Bool.or_eq_false_iff.mp delivered
          exact .skipped hit
  | addInjected =>
      obtain ⟨injected, ⟨⟩⟩ := Option.ite_none_right_eq_some.mp moved
      exact .added injected
  | exchange =>
      obtain ⟨idle, ⟨⟩⟩ := Option.ite_none_right_eq_some.mp moved
      exact .exchanged idle
  | injectImmediately applied =>
      change gate.injectImmediately applied = some next at moved
      unfold injectImmediately at moved
      split at moved
      · rename_i wasArmed exchanged
        cases moved
        split
        · rename_i delivered
          obtain ⟨positive, rfl⟩ := Bool.and_eq_true_iff.mp delivered
          exact .immediate exchanged (of_decide_eq_true positive)
        · exact .unapplied exchanged
      · cases moved
  | store =>
      change gate.store = some next at moved
      unfold store at moved
      split at moved
      · rename_i wasArmed injected
        cases moved
        exact .stored injected
      · cases moved
  | addImmediate =>
      change gate.addImmediate = some next at moved
      unfold addImmediate at moved
      split at moved
      · rename_i wasArmed disarmed
        cases moved
        exact .addedImmediate disarmed
      · cases moved
  | clear =>
      obtain ⟨idle, ⟨⟩⟩ := Option.ite_none_right_eq_some.mp moved
      exact .cleared idle

/-! ### Runs -/

/-- A hit takes the gate only while no `/rearm` is about to disarm it, and `/rearm` injects only while
its gate is armed. -/
def OneUse (gate : OneShot) : OneShotStep → Prop
  | .thresholdHit => gate.requestArmed = true → ¬gate.Consumed
  | .injectImmediately applied =>
      0 < gate.rearmImmediateDelayNs → applied = true → gate.requestArmed = true
  | _ => True

instance (gate : OneShot) (action : OneShotStep) : Decidable (gate.OneUse action) :=
  match action with
  | .thresholdHit => inferInstanceAs (Decidable (gate.requestArmed = true → ¬gate.Consumed))
  | .injectImmediately applied => inferInstanceAs (Decidable
      (0 < gate.rearmImmediateDelayNs → applied = true → gate.requestArmed = true))
  | .inject _ _ | .addInjected | .exchange | .store | .addImmediate | .clear => isTrue trivial

/-- The injections that the gate still allows: of a hit that took it, or of one that can. -/
def allowed (gate : OneShot) : ℕ :=
  (if gate.sampler = .hit then 1 else 0) +
    (if gate.requestArmed = true ∧ ¬gate.Consumed then 1 else 0)

/-- The injections made and allowed are paid for by the start and the rearms. -/
def Inv (gate : OneShot) : Prop :=
  gate.injections + gate.allowed ≤ 1 + gate.rearms

theorem inv_start (fixedDelayNs : UInt64) : Inv (start fixedDelayNs) := by
  simp [Inv, allowed, start, Consumed]

theorem Inv.step {gate next : OneShot} {action : OneShotStep} (inv : Inv gate)
    (oneUse : OneUse gate action) (moved : gate.step action = some next) : Inv next := by
  unfold Inv at inv ⊢
  cases effect_of_step moved with
  | taken sampling armed =>
      have free : ¬gate.Consumed := oneUse armed
      have before : gate.allowed = 1 := by simp [allowed, sampling, armed, free]
      have after : allowed { gate with requestArmed := false, sampler := .hit } = 1 := by
        simp [allowed]
      rw [after]
      rw [before] at inv
      exact inv
  | missed sampling disarmed => exact inv
  | injected hit delivered =>
      simp only [allowed, hit, if_true] at inv
      simp only [allowed, reduceCtorEq, if_false]
      show gate.injections + 1 + (0 + if gate.requestArmed = true ∧ ¬gate.Consumed then 1 else 0) ≤ _
      omega
  | skipped hit =>
      simp only [allowed, hit, if_true] at inv
      simp only [allowed, reduceCtorEq, if_false]
      show gate.injections + (0 + if gate.requestArmed = true ∧ ¬gate.Consumed then 1 else 0) ≤ _
      omega
  | added injected =>
      simp only [allowed, injected, reduceCtorEq, if_false] at inv ⊢
      exact inv
  | exchanged idle =>
      have after : allowed { gate with
          requestArmed := true, rearm := .exchanged gate.requestArmed, rearms := gate.rearms + 1 } ≤
          gate.allowed + 1 := by
        simp [allowed, Consumed]
      show gate.injections + _ ≤ 1 + (gate.rearms + 1)
      omega
  | immediate exchanged positive =>
      have armed : gate.requestArmed = true := oneUse positive rfl
      simp only [allowed, armed, Consumed, exchanged] at inv ⊢
      simp at inv ⊢
      omega
  | unapplied exchanged =>
      simp only [allowed, Consumed, exchanged] at inv ⊢
      simpa using inv
  | stored injected =>
      simp only [allowed, Consumed, injected] at inv ⊢
      simpa using inv
  | addedImmediate disarmed =>
      simp only [allowed, Consumed, disarmed] at inv ⊢
      simpa using inv
  | cleared idle =>
      simp only [allowed, Consumed, idle] at inv ⊢
      simpa using inv

/-- In a run whose hits and rearms use an armed gate once, the delay is injected at most once, and
once more for each rearm. -/
theorem injections_le_rearms {fixedDelayNs : UInt64} {actions : List OneShotStep} {final : OneShot}
    (oneUse : Along step OneUse (start fixedDelayNs) actions)
    (ran : run step (start fixedDelayNs) actions = some final) :
    final.injections ≤ 1 + final.rearms := by
  have inv : Inv final :=
    invariant_along Inv (inv_start fixedDelayNs)
      (fun _ _ _ inv oneUse moved => inv.step oneUse moved) oneUse ran
  unfold Inv at inv
  omega

/-- A hit, a rearm that finds no victim, and another hit. -/
def repeatedHit : List OneShotStep :=
  [.thresholdHit, .inject true false, .addInjected, .exchange, .injectImmediately false,
    .thresholdHit, .inject false true]

/-- The hypotheses of `injections_le_rearms` are met by `repeatedHit`. -/
theorem injections_le_rearms_sample : ∃ final, run step (start 7) repeatedHit = some final ∧
    final.injections ≤ 1 + final.rearms := by
  have oneUse : Along step OneUse (start 7) repeatedHit := by
    refine along_cons ?_ rfl (along_cons ?_ rfl (along_cons ?_ rfl (along_cons ?_ rfl
      (along_cons ?_ rfl (along_cons ?_ rfl (along_cons ?_ rfl along_nil))))))
    all_goals decide
  obtain ⟨final, ran⟩ : ∃ final, run step (start 7) repeatedHit = some final := ⟨_, rfl⟩
  exact ⟨final, ran, injections_le_rearms oneUse ran⟩

/-- A hit takes the gate between the exchange of a `/rearm` and its immediate injection: the rearm
injects twice. -/
theorem rearm_injects_twice : ∃ final, run step (start 7)
    [.thresholdHit, .inject true false, .addInjected, .exchange, .thresholdHit,
      .inject true false, .injectImmediately true, .store] = some final ∧
      final.injections = 3 ∧ final.rearms = 1 :=
  ⟨_, rfl, rfl, rfl⟩

end OneShot

end Mcoz.Sampler
