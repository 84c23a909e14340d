/-
A threshold hit that delivers nothing.

The sampling loop takes the gate before it knows whether the delay can be delivered. If no datagram is
sent and there is no victim, it goes on to the next sample and does not give the gate back, while a
`/rearm` that finds no victim leaves it armed. The gate holds what was last written to it
(`requestArmed_eq`), so after such a hit it is armed exactly if a `/rearm` came in between
(`skippedHit_armed_iff`).
-/

import Mcoz.Sampler.OneShot

set_option autoImplicit false

namespace Mcoz.Sampler.OneShot

open Machine

/-! ### The writes to the gate -/

/-- What a step leaves in the gate, if it writes it. A hit that misses finds it disarmed. -/
def gateWrite : OneShotStep → Option Bool
  | .thresholdHit => some false
  | .exchange => some true
  | .store => some false
  | _ => none

/-- What the last write left in the gate. -/
def lastWrite (actions : List OneShotStep) : Option Bool :=
  (actions.filterMap gateWrite).getLast?

theorem lastWrite_concat (past : List OneShotStep) (action : OneShotStep) :
    lastWrite (past ++ [action]) = (gateWrite action).or (lastWrite past) := by
  unfold lastWrite
  cases write : gateWrite action with
  | none => simp [write]
  | some value => simp [write]

/-! ### Every run -/

section Runs

variable {fixedDelayNs : UInt64} {actions past : List OneShotStep} {final : OneShot}

/-- A step leaves the gate as it was or as it writes it. -/
theorem requestArmed_step {gate next : OneShot} {action : OneShotStep}
    (moved : gate.step action = some next) :
    next.requestArmed = (gateWrite action).getD gate.requestArmed := by
  cases effect_of_step moved with
  | missed _ disarmed => exact disarmed
  | _ => rfl

/-- After every run the gate is as it was last written, armed if it never was. -/
theorem requestArmed_eq (ran : run step (start fixedDelayNs) actions = some final) :
    final.requestArmed = (lastWrite actions).getD true := by
  refine run_history (motive := fun past gate => gate.requestArmed = (lastWrite past).getD true)
    rfl ?_ ran
  intro past gate action next before same moved
  rw [requestArmed_step moved, lastWrite_concat, same]
  cases gateWrite action <;> rfl

/-- A loop that is past its hit has written the gate. -/
theorem written_of_hit (ran : run step (start fixedDelayNs) actions = some final) :
    final.sampler = .hit → lastWrite actions ≠ none := by
  refine run_history (motive := fun past gate => gate.sampler = .hit → lastWrite past ≠ none)
    (by simp [start]) ?_ ran
  intro past gate action next before ih moved
  rw [lastWrite_concat]
  cases effect_of_step moved with
  | taken => simp [gateWrite]
  | missed => simp [gateWrite]
  | injected => simp
  | skipped => simp
  | added => simp
  | exchanged => simp [gateWrite]
  | stored => simp [gateWrite]
  | immediate | unapplied | addedImmediate | cleared => exact ih

/-- For every interleaving with `/rearm` requests: after a hit that took the gate and delivers nothing,
the gate is armed exactly if the last write to it was the exchange of a `/rearm`. -/
theorem skippedHit_armed_iff
    (ran : run step (start fixedDelayNs) (past ++ [.inject false false]) = some final) :
    final.requestArmed = true ↔ lastWrite past = some true := by
  obtain ⟨gate, before, moved⟩ := run_concat_iff.mp ran
  have hit : gate.sampler = .hit := (Option.ite_none_right_eq_some.mp moved).1
  rw [requestArmed_step moved, requestArmed_eq before]
  show (lastWrite past).getD true = true ↔ _
  cases write : lastWrite past with
  | none => exact absurd write (written_of_hit before hit)
  | some value => simp

end Runs

/-- The hypothesis of `skippedHit_armed_iff` is met by a hit, a `/rearm` that finds no victim, and the
injection that finds none either. -/
theorem skippedHit_armed_iff_sample : ∃ final, run step (start 7)
    ([.thresholdHit, .exchange, .injectImmediately false] ++ [.inject false false]) = some final ∧
      final.requestArmed = true := by
  obtain ⟨final, ran⟩ : ∃ final, run step (start 7)
      ([.thresholdHit, .exchange, .injectImmediately false] ++ [.inject false false]) = some final :=
    ⟨_, rfl⟩
  exact ⟨final, ran, (skippedHit_armed_iff ran).mpr rfl⟩

/-- Without a `/rearm` the gate stays disarmed. -/
theorem skippedHit_disarms : ¬ ∀ (fixedDelayNs : UInt64) (past : List OneShotStep) (final : OneShot),
    run step (start fixedDelayNs) (past ++ [.inject false false]) = some final →
    final.requestArmed = true := by
  intro armed
  exact absurd (armed 7 [.thresholdHit] _ rfl) (by decide)

end Mcoz.Sampler.OneShot
