/-
When the profiler shuts down.

A created thread is counted when it starts to run, in `add_thread`; an exiting thread takes itself off
the count and then tests it. So the count is zero while a thread that was created has not started
(`shutdown_early`). `shutdown_last` says when `handle_pthread_exit` shuts the profiler down only after
every thread: at each test, every thread that was created has been counted, or a counted one is left.
-/

import Mcoz.Lib.Machine
import Mathlib.Data.Nat.Notation

set_option autoImplicit false

namespace Mcoz.Profiler

open Machine

/-! ### Threads -/

/-- Where a thread is in its life: created, inserted in the table by `add_thread` and then counted, in
`end_sampling` before and after it is removed from the table, taken off the count and before its
test, in `shutdown` before and after the profiler is stopped, and at its end. -/
inductive Life
  | created
  | inserted
  | running
  | ending
  | removed
  | left
  | shutting
  | joining
  | exited
deriving DecidableEq

/-- The thread was created and is not counted yet. -/
def Life.uncounted : Life → Bool
  | created => true
  | inserted => true
  | _ => false

/-- The thread is counted. -/
def Life.counted : Life → Bool
  | running => true
  | ending => true
  | removed => true
  | _ => false

/-- The thread has exited: `remove_thread` is behind it. -/
def Life.gone : Life → Bool
  | left => true
  | shutting => true
  | joining => true
  | exited => true
  | _ => false

/-- The threads in the order of their creation, the initial one first, and the profiler's fields:
`_num_threads_running`, `_shutdown_run` and `_running`. -/
structure Process where
  threads : List Life
  numThreadsRunning : ℕ
  shutdownRun : Bool
  running : Bool
deriving DecidableEq

/-- The initial thread was counted in `startup`. -/
def Process.start : Process where
  threads := [.running]
  numThreadsRunning := 1
  shutdownRun := false
  running := true

/-- A thread creates another, or goes on with `start_thread` or `handle_pthread_exit`. -/
inductive ThreadAction
  | create (parent : ℕ)
  | advance (thread : ℕ)

namespace Process

/-- The process after a thread went on. -/
def moveTo (proc : Process) (thread : ℕ) (life : Life) : Process :=
  { proc with threads := proc.threads.set thread life }

/-- What a thread does next. -/
def advance (proc : Process) (thread : ℕ) : Life → Option Process
  | .created => some (proc.moveTo thread .inserted)
  | .inserted => some { proc.moveTo thread .running with
      numThreadsRunning := proc.numThreadsRunning + 1 }
  | .running => some (proc.moveTo thread .ending)
  | .ending => some (proc.moveTo thread .removed)
  | .removed => some { proc.moveTo thread .left with
      numThreadsRunning := proc.numThreadsRunning - 1 }
  | .left =>
      some (proc.moveTo thread (if proc.numThreadsRunning = 0 then .shutting else .exited))
  | .shutting =>
      -- The thread has no state any more, so `end_sampling` does nothing here.
      if proc.shutdownRun then some (proc.moveTo thread .exited)
      else some { proc.moveTo thread .joining with shutdownRun := true, running := false }
  | .joining => some (proc.moveTo thread .exited)
  | .exited => none

/-- One step of the process. -/
def step (proc : Process) : ThreadAction → Option Process
  | .create parent =>
      if proc.threads[parent]? = some .running then
        some { proc with threads := proc.threads ++ [.created] }
      else none
  | .advance thread => (proc.threads[thread]?).bind fun life => proc.advance thread life

/-- `handle_pthread_exit` calls `shutdown` in this step. -/
def CallsShutdown (proc : Process) : ThreadAction → Prop
  | .create _ => False
  | .advance thread => proc.threads[thread]? = some .left ∧ proc.numThreadsRunning = 0

/-- If `shutdown` is called, every thread has exited. -/
def ShutsLast (proc : Process) (action : ThreadAction) : Prop :=
  proc.CallsShutdown action → ∀ life ∈ proc.threads, life.gone = true

/-- When a thread tests the count, every thread that was created has been counted, or a counted thread
is left. -/
def Counted (proc : Process) : ThreadAction → Prop
  | .create _ => True
  | .advance thread => proc.threads[thread]? = some .left →
      (∀ life ∈ proc.threads, life.uncounted = false) ∨
        ∃ life ∈ proc.threads, life.counted = true

/-! ### The count -/

/-- The count is the number of counted threads. -/
def Sound (proc : Process) : Prop :=
  proc.numThreadsRunning = proc.threads.countP Life.counted

section Steps

variable {proc next : Process} {action : ThreadAction} {thread : ℕ}

theorem gone_iff (life : Life) :
    life.gone = true ↔ life.uncounted = false ∧ life.counted = false := by
  cases life <;> decide

/-- One thread goes on. -/
theorem countP_moveTo {old : Life} (here : proc.threads[thread]? = some old) (life : Life) :
    (proc.moveTo thread life).threads.countP Life.counted + (if old.counted then 1 else 0) =
      proc.threads.countP Life.counted + (if life.counted then 1 else 0) := by
  obtain ⟨inside, same⟩ := List.getElem?_eq_some_iff.mp here
  rw [moveTo, List.countP_set inside, same]
  split
  · have positive : 0 < proc.threads.countP Life.counted :=
      List.countP_pos_iff.mpr ⟨old, List.mem_of_getElem? here, by assumption⟩
    omega
  · omega

theorem sound_start : Sound start := rfl

/-- A thread goes on and the count stays right. -/
theorem sound_moveTo {old life : Life} (sound : Sound proc)
    (here : proc.threads[thread]? = some old) (same : life.counted = old.counted) :
    Sound (proc.moveTo thread life) := by
  have count := countP_moveTo here life
  rw [same] at count
  exact sound.trans (Nat.add_right_cancel count).symm

theorem sound_step (sound : Sound proc) (moved : proc.step action = some next) : Sound next := by
  cases action with
  | create parent =>
      obtain ⟨-, same⟩ := Option.ite_none_right_eq_some.mp moved
      cases same
      simpa [Sound, List.countP_append, Life.counted] using sound
  | advance thread =>
      obtain ⟨old, here, moved⟩ := Option.bind_eq_some_iff.mp moved
      revert moved
      fun_cases advance proc thread old with
      | case2 =>
          rintro ⟨⟩
          have count := countP_moveTo here .running
          exact (congrArg (· + 1) sound).trans count.symm
      | case5 =>
          rintro ⟨⟩
          have count := countP_moveTo here .left
          simp only [Life.counted, if_true, Bool.false_eq_true, if_false, Nat.add_zero] at count
          show proc.numThreadsRunning - 1 = (proc.moveTo thread .left).threads.countP Life.counted
          rw [sound, ← count, Nat.add_sub_cancel]
      | case6 =>
          rintro ⟨⟩
          split
          · exact sound_moveTo sound here rfl
          · exact sound_moveTo sound here rfl
      | case10 => simp
      | case1 | case3 | case4 | case7 | case8 | case9 =>
          rintro ⟨⟩
          exact sound_moveTo sound here rfl

/-- A test finds the count at zero before its time exactly if a created thread is not counted. -/
theorem shutsLast_iff (sound : Sound proc) : proc.ShutsLast action ↔ proc.Counted action := by
  have zero : proc.numThreadsRunning = 0 ↔ ∀ life ∈ proc.threads, life.counted = false := by
    rw [sound, List.countP_eq_zero]
    simp
  cases action with
  | create parent => exact iff_of_true (fun calls => calls.elim) trivial
  | advance thread =>
      constructor
      · intro last test
        by_cases nobody : proc.numThreadsRunning = 0
        · exact Or.inl fun life member => ((gone_iff life).mp (last ⟨test, nobody⟩ life member)).1
        · rw [zero] at nobody
          simp only [not_forall, Bool.not_eq_false] at nobody
          obtain ⟨life, member, counted⟩ := nobody
          exact Or.inr ⟨life, member, counted⟩
      · rintro counted ⟨test, nobody⟩ life member
        rw [zero] at nobody
        rcases counted test with all | ⟨other, inside, one⟩
        · exact (gone_iff life).mpr ⟨all life member, nobody life member⟩
        · rw [nobody other inside] at one
          cases one

/-! ### After the shutdown -/

/-- Once a thread is in `shutdown`, or has stopped the profiler, every thread has exited. -/
def Quiet (proc : Process) : Prop :=
  (.shutting ∈ proc.threads ∨ proc.running = false) → ∀ life ∈ proc.threads, life.gone = true

theorem mem_moveTo {old life : Life} (member : old ∈ (proc.moveTo thread life).threads) :
    old ∈ proc.threads ∨ old = life :=
  List.mem_or_eq_of_mem_set member

/-- A thread that has exited stays so. -/
theorem gone_moveTo {life : Life} (gone : life.gone = true)
    (all : ∀ life ∈ proc.threads, life.gone = true) :
    ∀ other ∈ (proc.moveTo thread life).threads, other.gone = true := by
  intro other member
  rcases mem_moveTo member with before | same
  · exact all other before
  · rw [same]
    exact gone

/-- Threads that have exited create none. -/
theorem gone_step (all : ∀ life ∈ proc.threads, life.gone = true)
    (moved : proc.step action = some next) : ∀ life ∈ next.threads, life.gone = true := by
  cases action with
  | create parent =>
      obtain ⟨running, -⟩ := Option.ite_none_right_eq_some.mp moved
      cases all _ (List.mem_of_getElem? running)
  | advance thread =>
      obtain ⟨old, here, moved⟩ := Option.bind_eq_some_iff.mp moved
      have gone := all old (List.mem_of_getElem? here)
      revert moved
      fun_cases advance proc thread old with
      | case6 =>
          rintro ⟨⟩
          split
          · exact gone_moveTo rfl all
          · exact gone_moveTo rfl all
      | case7 | case8 | case9 =>
          rintro ⟨⟩
          exact gone_moveTo rfl all
      | case10 => simp
      | case1 | case2 | case3 | case4 | case5 => cases gone

/-- A thread enters `shutdown` only by calling it. -/
theorem calls_of_shutting (calm : ¬ (.shutting ∈ proc.threads ∨ proc.running = false))
    (moved : proc.step action = some next)
    (ended : .shutting ∈ next.threads ∨ next.running = false) : proc.CallsShutdown action := by
  obtain ⟨absent, going⟩ := not_or.mp calm
  cases action with
  | create parent =>
      obtain ⟨-, same⟩ := Option.ite_none_right_eq_some.mp moved
      cases same
      rcases ended with member | stopped
      · rcases List.mem_append.mp member with before | new
        · exact absurd before absent
        · cases List.mem_singleton.mp new
      · exact absurd stopped going
  | advance thread =>
      obtain ⟨old, here, moved⟩ := Option.bind_eq_some_iff.mp moved
      have elsewhere : ∀ {life : Life}, life ≠ .shutting →
          ¬ (.shutting ∈ (proc.moveTo thread life).threads ∨ proc.running = false) := by
        rintro life other (member | stopped)
        · rcases mem_moveTo member with before | same
          · exact absent before
          · exact other same.symm
        · exact going stopped
      revert moved
      fun_cases advance proc thread old with
      | case6 =>
          rintro ⟨⟩
          by_cases zero : proc.numThreadsRunning = 0
          · exact ⟨here, zero⟩
          · rw [if_neg zero] at ended
            exact absurd ended (elsewhere (by decide))
      | case7 | case8 => exact absurd (List.mem_of_getElem? here) absent
      | case10 => simp
      | case1 | case2 | case3 | case4 | case5 | case9 =>
          rintro ⟨⟩
          exact absurd ended (elsewhere (by decide))

/-- If the profiler has been stopped, all threads have exited, as long as every test is made in time. -/
theorem quiet_step (sound : Sound proc) (quiet : Quiet proc) (counted : proc.Counted action)
    (moved : proc.step action = some next) : Quiet next := by
  intro ended
  by_cases before : .shutting ∈ proc.threads ∨ proc.running = false
  · exact gone_step (quiet before) moved
  · have calls := calls_of_shutting before moved ended
    exact gone_step ((shutsLast_iff sound).mpr counted calls) moved

end Steps

end Process

open Process

/-! ### Runs -/

/-- `handle_pthread_exit` calls `shutdown` only after all threads have exited in exactly the runs in
which, at each test of the count, every thread that was created has been counted or a counted one is
left. In such a run the profiler is stopped only after all threads have exited. -/
theorem shutdown_last {actions : List ThreadAction} {proc : Process}
    (ran : run step Process.start actions = some proc) :
    (Along step ShutsLast Process.start actions ↔ Along step Counted Process.start actions) ∧
      (Along step Counted Process.start actions → proc.running = false →
        ∀ life ∈ proc.threads, life.gone = true) := by
  have sound : ∀ {past : List ThreadAction} {state : Process},
      run step Process.start past = some state → Sound state := fun there =>
    Reachable.invariant Sound sound_start (fun _ _ _ sound moved => sound_step sound moved) ⟨_, there⟩
  refine ⟨⟨fun last => ?_, fun counted => ?_⟩, fun counted stopped => ?_⟩
  · intro past action rest state shape there
    exact (shutsLast_iff (sound there)).mp (last past action rest state shape there)
  · intro past action rest state shape there
    exact (shutsLast_iff (sound there)).mpr (counted past action rest state shape there)
  · have both := invariant_along (fun proc => Sound proc ∧ Quiet proc)
      ⟨sound_start, by simp [Quiet, Process.start]⟩
      (fun _ _ _ holds counted moved =>
        ⟨sound_step holds.1 moved, quiet_step holds.1 holds.2 counted moved⟩) counted ran
    exact both.2 (Or.inr stopped)

/-- The initial thread creates another, which exits before it. -/
def orderly : List ThreadAction :=
  .create 0 :: List.replicate 6 (.advance 1) ++ List.replicate 6 (.advance 0)

theorem shutdown_last_orderly : ∃ proc, run step Process.start orderly = some proc ∧
    (Along step ShutsLast Process.start orderly ↔ Along step Counted Process.start orderly) ∧
    proc.running = false :=
  ⟨_, rfl, (@shutdown_last orderly _ rfl).1, rfl⟩

/-- The initial thread creates another and exits before that has started. -/
def hasty : List ThreadAction :=
  .create 0 :: List.replicate 3 (.advance 0)

/-- The profiler is shut down before the created thread has started, which runs nevertheless. -/
theorem shutdown_early :
    (∃ proc, run step Process.start hasty = some proc ∧ proc.CallsShutdown (.advance 0) ∧
      proc.threads[1]? = some .created) ∧
    (∃ proc, run step Process.start (hasty ++ List.replicate 2 (.advance 0) ++
        List.replicate 2 (.advance 1)) = some proc ∧
      proc.running = false ∧ proc.threads[1]? = some .running) :=
  ⟨⟨_, rfl, ⟨rfl, rfl⟩, rfl⟩, ⟨_, rfl, rfl, rfl⟩⟩

end Mcoz.Profiler
