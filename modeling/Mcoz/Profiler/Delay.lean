/-
The global delay of libcoz during one experiment.

Every thread counts in `local_delay` the delay that it has incurred, and `_global_delay` is what all
threads have to incur. `step` interleaves the atomic steps of `add_delays` (the snapshot of the
global delay, the comparison, `fetch_add` of the difference or the pause) and the additions of
`process_samples`, for any type of threads. Counters of nanoseconds are natural numbers.

The snapshot can be stale at the `fetch_add`: two threads that are ahead at the same time both add
their lead, and the global delay passes every local one (`stale_fetchAdd_overshoots`). So long as it
is not, the global delay is backed by a thread (`globalDelay_backed`).
-/

import Mcoz.Lib.Machine
import Mathlib.Logic.Function.Basic
import Mathlib.Algebra.Order.Group.Nat

set_option autoImplicit false

namespace Mcoz.Profiler

open Machine

/-- Where a thread is in `add_delays`, with its snapshot of the global delay. -/
inductive AddDelays
  | out
  | snapshot (globalDelay : ℕ)
  | ahead (globalDelay : ℕ)
  | behind (globalDelay : ℕ)
deriving DecidableEq

/-- The snapshot over which a thread is ahead. -/
def AddDelays.lead : AddDelays → Option ℕ
  | .ahead globalDelay => some globalDelay
  | _ => none

theorem AddDelays.mem_lead {phase : AddDelays} {globalDelay : ℕ} :
    globalDelay ∈ phase.lead ↔ phase = .ahead globalDelay := by
  cases phase <;> simp [AddDelays.lead]

/-- The delays during an experiment, and where each thread is. -/
structure Delays (Thread : Type*) where
  globalDelay : ℕ
  localDelay : Thread → ℕ
  phase : Thread → AddDelays

/-- The atomic steps. In `pause` the thread has slept for `paused`, as `wait` measured it. -/
inductive DelayStep (Thread : Type*)
  | sampleHit (thread : Thread)
  | snapshot (thread : Thread)
  | compare (thread : Thread)
  | fetchAdd (thread : Thread)
  | pause (thread : Thread) (paused : ℕ)

namespace Delays

variable {Thread : Type*} [DecidableEq Thread]

/-- The thread moves to another phase. -/
def enter (delays : Delays Thread) (thread : Thread) (phase : AddDelays) : Delays Thread :=
  { delays with phase := Function.update delays.phase thread phase }

/-- The thread's own counter grows. -/
def incur (delays : Delays Thread) (thread : Thread) (delay : ℕ) : Delays Thread :=
  { delays with
    localDelay := Function.update delays.localDelay thread (delays.localDelay thread + delay) }

/-- One atomic step of `process_samples` or `add_delays`, with an experiment running. -/
def step (delaySize : ℕ) (delays : Delays Thread) : DelayStep Thread → Option (Delays Thread)
  | .sampleHit thread =>
      match delays.phase thread with
      | .out => some (delays.incur thread delaySize)
      | _ => none
  | .snapshot thread =>
      match delays.phase thread with
      | .out => some (delays.enter thread (.snapshot delays.globalDelay))
      | _ => none
  | .compare thread =>
      match delays.phase thread with
      | .snapshot globalDelay =>
          if delays.localDelay thread > globalDelay then
            some (delays.enter thread (.ahead globalDelay))
          else if delays.localDelay thread < globalDelay then
            some (delays.enter thread (.behind globalDelay))
          else some (delays.enter thread .out)
      | _ => none
  | .fetchAdd thread =>
      match delays.phase thread with
      | .ahead globalDelay =>
          some { delays.enter thread .out with
            globalDelay := delays.globalDelay + (delays.localDelay thread - globalDelay) }
      | _ => none
  | .pause thread paused =>
      match delays.phase thread with
      | .behind _ => some ((delays.incur thread paused).enter thread .out)
      | _ => none

/-- The global delay is at most what it was, or what some thread has incurred. -/
def Backed (initial : ℕ) (delays : Delays Thread) : Prop :=
  delays.globalDelay ≤ initial ∨ ∃ thread, delays.globalDelay ≤ delays.localDelay thread

/-- The guard of a run: a `fetch_add` finds the global delay of its snapshot. -/
def SnapshotCurrent (delays : Delays Thread) : DelayStep Thread → Prop
  | .fetchAdd thread => ∀ globalDelay, delays.phase thread = .ahead globalDelay →
      delays.globalDelay = globalDelay
  | _ => True

instance (delays : Delays Thread) : ∀ action, Decidable (SnapshotCurrent delays action)
  | .fetchAdd thread =>
      decidable_of_iff (∀ globalDelay ∈ (delays.phase thread).lead, delays.globalDelay = globalDelay)
        (forall_congr' fun _ => imp_congr_left AddDelays.mem_lead)
  | .sampleHit _ => .isTrue trivial
  | .snapshot _ => .isTrue trivial
  | .compare _ => .isTrue trivial
  | .pause _ _ => .isTrue trivial

/-- What one step can do to the counters: nothing, incur delay, or raise the global delay by the
lead over the snapshot. -/
inductive Counted (delays next : Delays Thread) : DelayStep Thread → Prop
  | kept {action : DelayStep Thread} (sameGlobal : next.globalDelay = delays.globalDelay)
      (sameLocal : next.localDelay = delays.localDelay) : Counted delays next action
  | incurred {action : DelayStep Thread} {thread : Thread} {delay : ℕ}
      (sameGlobal : next.globalDelay = delays.globalDelay)
      (grown : next.localDelay =
        Function.update delays.localDelay thread (delays.localDelay thread + delay)) :
      Counted delays next action
  | raised {thread : Thread} {globalDelay : ℕ} (ahead : delays.phase thread = .ahead globalDelay)
      (grown : next.globalDelay =
        delays.globalDelay + (delays.localDelay thread - globalDelay))
      (sameLocal : next.localDelay = delays.localDelay) : Counted delays next (.fetchAdd thread)

section Step

variable {delaySize : ℕ} {delays next : Delays Thread} {action : DelayStep Thread}

theorem counted_of_step (moved : delays.step delaySize action = some next) :
    Counted delays next action := by
  cases action with
  | sampleHit thread =>
      simp only [step] at moved
      split at moved <;> cases moved
      exact .incurred rfl rfl
  | snapshot thread =>
      simp only [step] at moved
      split at moved <;> cases moved
      exact .kept rfl rfl
  | compare thread =>
      simp only [step] at moved
      split at moved
      · split at moved
        · cases moved
          exact .kept rfl rfl
        · split at moved <;> cases moved <;> exact .kept rfl rfl
      · cases moved
  | fetchAdd thread =>
      simp only [step] at moved
      split at moved
      · rename_i globalDelay ahead
        cases moved
        exact .raised ahead rfl rfl
      · cases moved
  | pause thread paused =>
      simp only [step] at moved
      split at moved <;> cases moved
      exact .incurred rfl rfl

/-- Local delays never shrink, so the largest one so far is the largest one now. -/
theorem localDelay_mono (moved : delays.step delaySize action = some next) (thread : Thread) :
    delays.localDelay thread ≤ next.localDelay thread := by
  cases counted_of_step moved with
  | kept _ sameLocal => exact le_of_eq (congrFun sameLocal thread).symm
  | @incurred _ other delay _ grown =>
      rw [grown]
      by_cases same : thread = other
      · subst same
        rw [Function.update_self]
        omega
      · rw [Function.update_of_ne same]
  | raised _ _ sameLocal => exact le_of_eq (congrFun sameLocal thread).symm

/-- A step whose `fetch_add`, if it is one, finds the global delay of its snapshot. -/
theorem Backed.step {initial : ℕ} (backed : Backed initial delays)
    (current : SnapshotCurrent delays action) (moved : delays.step delaySize action = some next) :
    Backed initial next := by
  have kept : next.globalDelay = delays.globalDelay → Backed initial next := by
    intro same
    rcases backed with start | ⟨thread, reached⟩
    · exact Or.inl (same ▸ start)
    · exact Or.inr ⟨thread, same ▸ le_trans reached (localDelay_mono moved thread)⟩
  cases counted_of_step moved with
  | kept sameGlobal => exact kept sameGlobal
  | incurred sameGlobal => exact kept sameGlobal
  | @raised thread globalDelay ahead grown sameLocal =>
      have same := current globalDelay ahead
      by_cases leads : delays.localDelay thread ≤ globalDelay
      · exact kept (by rw [grown]; omega)
      · refine Or.inr ⟨thread, ?_⟩
        rw [grown, sameLocal]
        omega

end Step

/-! ### A run of an experiment -/

section Runs

variable {delaySize : ℕ} {start final : Delays Thread} {actions : List (DelayStep Thread)}

/-- In a run whose every `fetch_add` finds the global delay of its snapshot, the global delay is
backed, and what it grew by in the experiment is zero or was incurred by a thread. -/
theorem globalDelay_backed (started : ∀ thread, start.localDelay thread ≤ start.globalDelay)
    (current : Along (step delaySize) SnapshotCurrent start actions)
    (ran : run (step delaySize) start actions = some final) :
    Backed start.globalDelay final ∧
      (final.globalDelay - start.globalDelay = 0 ∨ ∃ thread,
        final.globalDelay - start.globalDelay ≤
          final.localDelay thread - start.localDelay thread) := by
  have backed : Backed start.globalDelay final :=
    invariant_along (Backed start.globalDelay) (Or.inl le_rfl)
      (fun _ _ _ backed current moved => backed.step current moved) current ran
  refine ⟨backed, ?_⟩
  rcases backed with same | ⟨thread, reached⟩
  · exact Or.inl (by omega)
  · have initial := started thread
    exact Or.inr ⟨thread, by omega⟩

end Runs

/-- No thread has a delay, and none is in `add_delays`. -/
def fresh (Thread : Type*) : Delays Thread where
  globalDelay := 0
  localDelay := fun _ => 0
  phase := fun _ => .out

/-- Two threads are hit; the first one is ahead while the second takes its snapshot and falls behind, and is hit again
while the second sleeps. -/
def currentSteps : List (DelayStep Bool) :=
  [.sampleHit true, .sampleHit true, .sampleHit false, .snapshot true, .compare true, .fetchAdd true, .snapshot false,
    .compare false, .sampleHit true, .pause false 50700, .snapshot true, .compare true, .snapshot false, .fetchAdd true,
    .compare false]

theorem globalDelay_backed_sample : ∃ final, run (step 50000) (fresh Bool) currentSteps = some final ∧
    Backed 0 final ∧ (final.globalDelay - 0 = 0 ∨ ∃ thread, final.globalDelay - 0 ≤ final.localDelay thread - 0) ∧
      final.globalDelay = 150000 := by
  have grown : (run (step 50000) (fresh Bool) currentSteps).map (fun final => final.globalDelay) = some 150000 := by
    decide +kernel
  obtain ⟨final, ran, delay⟩ := Option.map_eq_some_iff.mp grown
  have current : Along (step 50000) SnapshotCurrent (fresh Bool) currentSteps := along_of_trace (by decide +kernel)
  obtain ⟨backed, incurred⟩ := globalDelay_backed (fun _ => le_rfl) current ran
  exact ⟨final, ran, backed, incurred, delay⟩

/-- Two threads are hit, take their snapshots, and add their leads one after the other. -/
def staleSteps : List (DelayStep Bool) :=
  [.sampleHit true, .sampleHit false, .snapshot true, .snapshot false, .compare true,
    .compare false, .fetchAdd true, .fetchAdd false]

/-- The global delay then exceeds both local delays. -/
theorem stale_fetchAdd_overshoots : ∃ final,
    run (step 50000) (fresh Bool) staleSteps = some final ∧ ¬ Backed 0 final := by
  have counted : (run (step 50000) (fresh Bool) staleSteps).map (fun final =>
      (final.globalDelay, final.localDelay false, final.localDelay true)) = some (100000, 50000, 50000) := by
    decide +kernel
  obtain ⟨final, ran, same⟩ := Option.map_eq_some_iff.mp counted
  simp only [Prod.mk.injEq] at same
  refine ⟨final, ran, ?_⟩
  rintro (start | ⟨thread, reached⟩)
  · omega
  · cases thread
    · omega
    · omega

end Delays

end Mcoz.Profiler
