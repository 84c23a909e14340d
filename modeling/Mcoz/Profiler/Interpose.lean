/-
The interposed functions of libcoz.

A function that may wake another thread catches up on delays before the real call. One that may block saves the global
delay before it, and afterwards skips what was added meanwhile if another thread has woken it. The SIGPROF handler of
a thread processes its samples between any two of its instructions, unless `in_use` is set. `step` interleaves these
instructions for any number of threads, with thread creation and exit and with experiments that begin and end.
Counters of nanoseconds are natural numbers, and a run starts when `init_coz` has ended.

`delays_ledger` says what a thread's delay consists of. `paid_before_waking` is what catching up is for: when a thread
makes a call that may wake another one, or exits, it has paid all that the global delay was when it called the function.
-/

import Mcoz.Lib.Stock
import Mathlib.Logic.Function.Basic

set_option autoImplicit false

namespace Mcoz.Profiler.Interpose

open Machine Stock

/-! ### The instructions -/

/-- The phases of `process_samples` and, from `experimentActive` on, `add_delays`, with its snapshot of the global
delay. -/
inductive Adding
  | samples
  | experimentActive
  | skipAhead
  | snapshot
  | compare (globalDelay : ℕ)
  | fetchAdd (globalDelay : ℕ)
  | pause (globalDelay : ℕ)
deriving DecidableEq

/-- What a real call gave: its result, and whether the signal that it took is from this process. -/
structure Outcome where
  result : ℤ
  ownSignal : Bool
deriving DecidableEq

/-- The argument of `post_block`. -/
inductive SkipDelays
  | always
  | onZero
  | onOwnSignal
  | onOwnPositiveSignal
deriving DecidableEq

/-- Whether `post_block` skips delays. -/
def SkipDelays.holds (outcome : Outcome) : SkipDelays → Bool
  | .always => true
  | .onZero => outcome.result == 0
  | .onOwnSignal => outcome.result != -1 && outcome.ownSignal
  | .onOwnPositiveSignal => decide (0 < outcome.result) && outcome.ownSignal

/-- The instructions of the interposed functions. `whenActive` goes on behind the next three if no experiment is
active. -/
inductive Instr
  | whenActive
  | inUse (value : Bool)
  | adding (phase : Adding)
  | preBlockTime
  | real
  | credit (skipDelays : SkipDelays)
  | removeThread
deriving DecidableEq

/-- `catch_up`. -/
def catchUp : List Instr :=
  [.whenActive, .inUse true, .adding .experimentActive, .inUse false]

/-- `pre_block`. -/
def preBlock : List Instr :=
  [.preBlockTime]

/-- `post_block`. -/
def postBlock (skipDelays : SkipDelays) : List Instr :=
  [.inUse true, .credit skipDelays, .inUse false]

/-- A function that may wake a thread. -/
def waking : List Instr :=
  catchUp ++ [.real]

/-- A function that may block. -/
def blocking (skipDelays : SkipDelays) : List Instr :=
  preBlock ++ .real :: postBlock skipDelays

/-- `handle_pthread_exit` with `end_sampling`. -/
def handlePthreadExit : List Instr :=
  [.inUse true, .adding .samples, .removeThread]

/-- The interposed functions that catch up or block. -/
inductive Call
  | pthreadJoin
  | pthreadTryjoinNp
  | pthreadTimedjoinNp
  | pthreadMutexLock
  | pthreadMutexUnlock
  | pthreadCondWait
  | pthreadCondTimedwait
  | pthreadCondSignal
  | pthreadCondBroadcast
  | pthreadBarrierWait
  | pthreadRwlockRdlock
  | pthreadRwlockTimedrdlock
  | pthreadRwlockWrlock
  | pthreadRwlockTimedwrlock
  | pthreadRwlockUnlock
  | kill (toSelf : Bool)
  | pthreadKill
  | pthreadSigqueue
  | sigwait
  | sigwaitinfo
  | sigtimedwait
deriving DecidableEq

/-- What each of them does. -/
def Call.code : Call → List Instr
  | .pthreadJoin => blocking .always
  | .pthreadTryjoinNp => blocking .onZero
  | .pthreadTimedjoinNp => blocking .onZero
  | .pthreadMutexLock => blocking .always
  | .pthreadMutexUnlock => waking
  | .pthreadCondWait => blocking .always
  | .pthreadCondTimedwait => blocking .onZero
  | .pthreadCondSignal => waking
  | .pthreadCondBroadcast => waking
  | .pthreadBarrierWait => catchUp ++ blocking .always
  | .pthreadRwlockRdlock => blocking .always
  | .pthreadRwlockTimedrdlock => blocking .onZero
  | .pthreadRwlockWrlock => blocking .always
  | .pthreadRwlockTimedwrlock => blocking .onZero
  | .pthreadRwlockUnlock => waking
  | .kill toSelf => if toSelf then waking else [.real]
  | .pthreadKill => waking
  | .pthreadSigqueue => waking
  | .sigwait => blocking .onOwnSignal
  | .sigwaitinfo => blocking .onOwnPositiveSignal
  | .sigtimedwait => blocking .onOwnPositiveSignal

/-! ### One thread -/

/-- The state of a thread, with what is left of its function and the phase of its handler. -/
structure Thread where
  localDelay : ℕ
  preBlockTime : ℕ
  inUse : Bool
  outcome : Outcome
  code : List Instr
  handler : Option Adding
deriving DecidableEq

/-- A thread is created with the delay of its parent, and starts later. -/
inductive Life
  | absent
  | created (parentDelayTime : ℕ)
  | running (thread : Thread)
  | gone (localDelay : ℕ)
deriving DecidableEq

/-- What all threads share. -/
structure Shared where
  globalDelay : ℕ
  experimentActive : Bool
  delaySize : ℕ
deriving DecidableEq

/-- A step in `process_samples`: the next instruction, a sample, or a sleep as `wait` measured it. -/
inductive Tick
  | next
  | sample (selected : Bool)
  | sleep (slept : ℕ)

/-- What a step in `process_samples` leaves: the next phase if there is one, the local delay, and what it adds to the
global one. -/
structure Ticked where
  phase : Option Adding
  localDelay : ℕ
  raised : ℕ

/-- One step in `process_samples`. A sleep is as long as was asked, or longer. -/
def Adding.step (shared : Shared) (localDelay : ℕ) : Adding → Tick → Option Ticked
  | .samples, .sample selected =>
      some ⟨some .samples, if shared.experimentActive && selected then localDelay + shared.delaySize else localDelay, 0⟩
  | .samples, .next => some ⟨some .experimentActive, localDelay, 0⟩
  | .experimentActive, .next => some ⟨some (if shared.experimentActive then .snapshot else .skipAhead), localDelay, 0⟩
  | .skipAhead, .next => some ⟨none, shared.globalDelay, 0⟩
  | .snapshot, .next => some ⟨some (.compare shared.globalDelay), localDelay, 0⟩
  | .compare globalDelay, .next =>
      if globalDelay < localDelay then some ⟨some (.fetchAdd globalDelay), localDelay, 0⟩
      else if localDelay < globalDelay then some ⟨some (.pause globalDelay), localDelay, 0⟩
      else some ⟨none, localDelay, 0⟩
  | .fetchAdd globalDelay, .next => some ⟨none, localDelay, localDelay - globalDelay⟩
  | .pause globalDelay, .sleep slept =>
      if globalDelay - localDelay ≤ slept then some ⟨none, localDelay + slept, 0⟩ else none
  | _, _ => none

/-- What a running thread can do: call a function, exit, take a signal, and go on in the handler or in its code. -/
inductive Op
  | call (call : Call)
  | exit
  | signal
  | adding (tick : Tick)
  | exec
  | returned (outcome : Outcome)

/-- One step of a running thread, with what it adds to the global delay. -/
def Thread.step (shared : Shared) (thread : Thread) : Op → Option (Life × ℕ)
  | .call call =>
      if thread.code = [] ∧ thread.handler = none then some (.running { thread with code := call.code }, 0) else none
  | .exit =>
      if thread.code = [] ∧ thread.handler = none then some (.running { thread with code := handlePthreadExit }, 0)
      else none
  | .signal =>
      if thread.handler = none then
        some (.running (if thread.inUse then thread else { thread with handler := some .samples }), 0)
      else none
  | .adding tick =>
      match thread.handler, thread.code with
      | some phase, _ =>
          (phase.step shared thread.localDelay tick).map fun ticked =>
            (.running { thread with localDelay := ticked.localDelay, handler := ticked.phase }, ticked.raised)
      | none, .adding phase :: rest =>
          (phase.step shared thread.localDelay tick).map fun ticked =>
            (.running { thread with
              localDelay := ticked.localDelay, code := (ticked.phase.map Instr.adding).toList ++ rest }, ticked.raised)
      | _, _ => none
  | .exec =>
      match thread.handler, thread.code with
      | none, .whenActive :: rest =>
          some (.running { thread with code := if shared.experimentActive then rest else rest.drop 3 }, 0)
      | none, .inUse value :: rest => some (.running { thread with inUse := value, code := rest }, 0)
      | none, .preBlockTime :: rest => some (.running { thread with preBlockTime := shared.globalDelay, code := rest }, 0)
      | none, .credit skipDelays :: rest =>
          some (.running { thread with
            localDelay := thread.localDelay +
              if skipDelays.holds thread.outcome then shared.globalDelay - thread.preBlockTime else 0
            code := rest }, 0)
      | none, .removeThread :: _ => some (.gone thread.localDelay, 0)
      | _, _ => none
  | .returned outcome =>
      match thread.handler, thread.code with
      | none, .real :: rest => some (.running { thread with outcome := outcome, code := rest }, 0)
      | _, _ => none

/-! ### All threads -/

section Steps

variable {T : Type} [DecidableEq T]

/-- The threads of the program. -/
structure World (T : Type) where
  shared : Shared
  threads : T → Life

/-- A step of a running thread; `handle_pthread_create` and `start_thread`, whose entry of the thread table may hold
what its last thread left; and the profiler thread's stores. -/
inductive Action (T : Type)
  | thread (thread : T) (op : Op)
  | create (parent child : T)
  | start (thread : T) (inUse : Bool) (preBlockTime : ℕ)
  | setDelaySize (size : ℕ)
  | setActive (active : Bool)

/-- A thread that has just started. -/
def Thread.fresh (localDelay : ℕ) (inUse : Bool) (preBlockTime : ℕ) : Thread where
  localDelay := localDelay
  preBlockTime := preBlockTime
  inUse := inUse
  outcome := ⟨0, false⟩
  code := []
  handler := none

/-- One step. -/
def step (world : World T) : Action T → Option (World T)
  | .thread thread op =>
      match world.threads thread with
      | .running state =>
          (state.step world.shared op).map fun moved =>
            { shared := { world.shared with globalDelay := world.shared.globalDelay + moved.2 }
              threads := Function.update world.threads thread moved.1 }
      | _ => none
  | .create parent child =>
      match world.threads parent, world.threads child with
      | .running state, .absent =>
          if state.code = [] ∧ state.handler = none then
            some { world with threads := Function.update world.threads child (.created state.localDelay) }
          else none
      | _, _ => none
  | .start thread inUse preBlockTime =>
      match world.threads thread with
      | .created parentDelayTime =>
          some { world with
            threads := Function.update world.threads thread (.running (Thread.fresh parentDelayTime inUse preBlockTime)) }
      | _ => none
  | .setDelaySize size => some { world with shared := { world.shared with delaySize := size } }
  | .setActive active => some { world with shared := { world.shared with experimentActive := active } }

/-- The main thread is about to start. -/
def start (main : T) : World T where
  shared := ⟨0, false, 0⟩
  threads := Function.update (fun _ => .absent) main (.created 0)

end Steps

/-! ### What a thread's delay consists of -/

/-- What a step makes a thread incur, and what it forgives: the delay of the parent, time slept, samples in the
selected line, the growth of the global delay while blocked, and what is skipped or dropped with no experiment. -/
structure Amounts where
  inherited : ℕ := 0
  slept : ℕ := 0
  sampled : ℕ := 0
  credited : ℕ := 0
  skipped : ℕ := 0
  dropped : ℕ := 0
deriving DecidableEq

/-- What is incurred. -/
def Amounts.incurred (amounts : Amounts) : ℕ :=
  amounts.inherited + amounts.slept + amounts.sampled + amounts.credited + amounts.skipped

/-- The amounts of a step in `process_samples`. -/
def Adding.amounts (shared : Shared) (localDelay : ℕ) : Adding → Tick → Amounts
  | .samples, .sample selected => { sampled := if shared.experimentActive && selected then shared.delaySize else 0 }
  | .skipAhead, .next =>
      { skipped := shared.globalDelay - localDelay, dropped := localDelay - shared.globalDelay }
  | .pause _, .sleep slept => { slept := slept }
  | _, _ => {}

/-- The amounts of a step of a running thread. -/
def Thread.amounts (shared : Shared) (thread : Thread) : Op → Amounts
  | .adding tick =>
      match thread.handler, thread.code with
      | some phase, _ => phase.amounts shared thread.localDelay tick
      | none, .adding phase :: _ => phase.amounts shared thread.localDelay tick
      | _, _ => {}
  | .exec =>
      match thread.handler, thread.code with
      | none, .credit skipDelays :: _ =>
          { credited := if skipDelays.holds thread.outcome then shared.globalDelay - thread.preBlockTime else 0 }
      | _, _ => {}
  | _ => {}

/-- The delay of a thread; before it starts it has none of its own. -/
def Life.localDelay : Life → ℕ
  | .running thread => thread.localDelay
  | .gone localDelay => localDelay
  | _ => 0

section Ledger

variable {shared : Shared} {localDelay raised : ℕ} {phase : Adding} {tick : Tick} {ticked : Ticked} {thread : Thread}
  {op : Op} {next : Life}

theorem Adding.localDelay_step (moved : phase.step shared localDelay tick = some ticked) :
    ticked.localDelay + (phase.amounts shared localDelay tick).dropped =
      localDelay + (phase.amounts shared localDelay tick).incurred := by
  revert moved
  fun_cases Adding.step shared localDelay phase tick with
  | case1 selected =>
      intro moved
      obtain rfl := Option.some.inj moved
      by_cases hit : (shared.experimentActive && selected) = true
      · simp [Adding.amounts, Amounts.incurred, hit]
      · simp [Adding.amounts, Amounts.incurred, hit]
  | case4 =>
      intro moved
      obtain rfl := Option.some.inj moved
      simp only [Adding.amounts, Amounts.incurred]
      omega
  | case10 asked slept enough =>
      intro moved
      obtain rfl := Option.some.inj moved
      simp [Adding.amounts, Amounts.incurred]
  | case11 | case12 => exact fun moved => by cases moved
  | _ =>
      intro moved
      obtain rfl := Option.some.inj moved
      rfl

/-- The ways a step of a running thread can end. -/
inductive Thread.Effect (shared : Shared) (thread : Thread) : Op → Life → ℕ → Prop
  | called (call : Call) (idle : thread.code = []) (out : thread.handler = none) :
      Effect shared thread (.call call) (.running { thread with code := call.code }) 0
  | exiting (idle : thread.code = []) (out : thread.handler = none) :
      Effect shared thread .exit (.running { thread with code := handlePthreadExit }) 0
  | ignored (busy : thread.inUse = true) : Effect shared thread .signal (.running thread) 0
  | handled (free : thread.inUse = false) (out : thread.handler = none) :
      Effect shared thread .signal (.running { thread with handler := some .samples }) 0
  | inHandler (phase : Adding) (tick : Tick) (ticked : Ticked) (inside : thread.handler = some phase)
      (moved : phase.step shared thread.localDelay tick = some ticked) :
      Effect shared thread (.adding tick)
        (.running { thread with localDelay := ticked.localDelay, handler := ticked.phase }) ticked.raised
  | inCode (phase : Adding) (rest : List Instr) (tick : Tick) (ticked : Ticked) (out : thread.handler = none)
      (code : thread.code = .adding phase :: rest)
      (moved : phase.step shared thread.localDelay tick = some ticked) :
      Effect shared thread (.adding tick)
        (.running { thread with
          localDelay := ticked.localDelay, code := (ticked.phase.map Instr.adding).toList ++ rest }) ticked.raised
  | tested (rest : List Instr) (out : thread.handler = none) (code : thread.code = .whenActive :: rest) :
      Effect shared thread .exec
        (.running { thread with code := if shared.experimentActive then rest else rest.drop 3 }) 0
  | usedBy (value : Bool) (rest : List Instr) (out : thread.handler = none) (code : thread.code = .inUse value :: rest) :
      Effect shared thread .exec (.running { thread with inUse := value, code := rest }) 0
  | saved (rest : List Instr) (out : thread.handler = none) (code : thread.code = .preBlockTime :: rest) :
      Effect shared thread .exec (.running { thread with preBlockTime := shared.globalDelay, code := rest }) 0
  | credited (skipDelays : SkipDelays) (rest : List Instr) (out : thread.handler = none)
      (code : thread.code = .credit skipDelays :: rest) :
      Effect shared thread .exec
        (.running { thread with
          localDelay := thread.localDelay +
            if skipDelays.holds thread.outcome then shared.globalDelay - thread.preBlockTime else 0
          code := rest }) 0
  | removed (rest : List Instr) (out : thread.handler = none) (code : thread.code = .removeThread :: rest) :
      Effect shared thread .exec (.gone thread.localDelay) 0
  | returned (outcome : Outcome) (rest : List Instr) (out : thread.handler = none) (code : thread.code = .real :: rest) :
      Effect shared thread (.returned outcome) (.running { thread with outcome := outcome, code := rest }) 0

theorem Thread.effect_of_step (moved : thread.step shared op = some (next, raised)) :
    thread.Effect shared op next raised := by
  revert moved
  fun_cases Thread.step shared thread op with
  | case1 call idle =>
      intro moved
      cases moved
      exact .called call idle.1 idle.2
  | case3 idle =>
      intro moved
      cases moved
      exact .exiting idle.1 idle.2
  | case5 out =>
      intro moved
      cases moved
      by_cases busy : thread.inUse = true
      · rw [if_pos busy]
        exact .ignored busy
      · rw [if_neg busy]
        exact .handled (Bool.eq_false_iff.mpr busy) out
  | case7 tick phase inside =>
      intro moved
      obtain ⟨ticked, stepped, same⟩ := Option.map_eq_some_iff.mp moved
      cases same
      exact .inHandler phase tick ticked inside stepped
  | case8 tick phase rest code out =>
      intro moved
      obtain ⟨ticked, stepped, same⟩ := Option.map_eq_some_iff.mp moved
      cases same
      exact .inCode phase rest tick ticked out code stepped
  | case10 rest code out =>
      intro moved
      cases moved
      exact .tested rest out code
  | case11 value rest code out =>
      intro moved
      cases moved
      exact .usedBy value rest out code
  | case12 rest code out =>
      intro moved
      cases moved
      exact .saved rest out code
  | case13 skipDelays rest code out =>
      intro moved
      cases moved
      exact .credited skipDelays rest out code
  | case14 rest code out =>
      intro moved
      cases moved
      exact .removed rest out code
  | case16 outcome rest code out =>
      intro moved
      cases moved
      exact .returned outcome rest out code
  | _ => exact fun moved => by cases moved

theorem Thread.localDelay_step (effect : thread.Effect shared op next raised) :
    next.localDelay + (thread.amounts shared op).dropped =
      thread.localDelay + (thread.amounts shared op).incurred := by
  cases effect with
  | inHandler phase tick ticked inside moved =>
      simp only [Thread.amounts, inside]
      exact Adding.localDelay_step moved
  | inCode phase rest tick ticked out code moved =>
      simp only [Thread.amounts, out, code]
      exact Adding.localDelay_step moved
  | credited skipDelays rest out code =>
      simp only [Thread.amounts, out, code, Amounts.incurred, Life.localDelay]
      omega
  | tested rest out code | usedBy value rest out code | saved rest out code | removed rest out code =>
      simp only [Thread.amounts, out, code]
      rfl
  | _ => rfl

end Ledger

/-! ### What is paid -/

/-- In `add_delays`, with a snapshot not below `floor`. -/
def Adding.Pays (floor localDelay : ℕ) : Adding → Prop
  | .compare globalDelay => floor ≤ globalDelay
  | .fetchAdd globalDelay => floor ≤ globalDelay ∧ globalDelay < localDelay
  | .pause globalDelay => floor ≤ globalDelay
  | _ => True

section Paying

variable {shared : Shared} {localDelay raised floor : ℕ} {phase : Adding} {tick : Tick} {ticked : Ticked} {thread : Thread}
  {op : Op} {next : Life} {rest : List Instr}

/-- Either the rest of `add_delays` pays, or it has paid. -/
def Ticked.Pays (floor : ℕ) (ticked : Ticked) : Prop :=
  match ticked.phase with
  | some phase => phase.Pays floor ticked.localDelay
  | none => floor ≤ ticked.localDelay

/-- **`add_delays` pays.** -/
theorem Adding.Pays.step (pays : phase.Pays floor localDelay) (below : floor ≤ shared.globalDelay)
    (moved : phase.step shared localDelay tick = some ticked) : ticked.Pays floor := by
  revert moved
  fun_cases Adding.step shared localDelay phase tick with
  | case3 =>
      intro moved
      obtain rfl := Option.some.inj moved
      by_cases active : shared.experimentActive = true
      · rw [if_pos active]
        trivial
      · rw [if_neg active]
        trivial
  | case4 | case5 =>
      intro moved
      obtain rfl := Option.some.inj moved
      exact below
  | case6 globalDelay ahead =>
      intro moved
      obtain rfl := Option.some.inj moved
      exact ⟨pays, ahead⟩
  | case7 globalDelay _ behind =>
      intro moved
      obtain rfl := Option.some.inj moved
      exact pays
  | case8 globalDelay notAhead notBehind =>
      intro moved
      obtain rfl := Option.some.inj moved
      have held : floor ≤ globalDelay := pays
      exact held.trans (Nat.not_lt.mp notBehind)
  | case9 globalDelay =>
      intro moved
      obtain rfl := Option.some.inj moved
      exact pays.1.trans (Nat.le_of_lt pays.2)
  | case10 globalDelay slept enough =>
      intro moved
      obtain rfl := Option.some.inj moved
      have held : floor ≤ globalDelay := pays
      show floor ≤ localDelay + slept
      omega
  | case11 | case12 => exact fun moved => by cases moved
  | _ =>
      intro moved
      obtain rfl := Option.some.inj moved
      trivial

/-- What is paid stays paid. -/
theorem Adding.floor_step (paid : floor ≤ localDelay) (below : floor ≤ shared.globalDelay)
    (moved : phase.step shared localDelay tick = some ticked) : floor ≤ ticked.localDelay := by
  revert moved
  fun_cases Adding.step shared localDelay phase tick with
  | case1 selected =>
      intro moved
      obtain rfl := Option.some.inj moved
      dsimp only
      split
      · omega
      · exact paid
  | case4 =>
      intro moved
      obtain rfl := Option.some.inj moved
      exact below
  | case10 globalDelay slept enough =>
      intro moved
      obtain rfl := Option.some.inj moved
      exact paid.trans (Nat.le_add_right _ _)
  | case11 | case12 => exact fun moved => by cases moved
  | _ =>
      intro moved
      obtain rfl := Option.some.inj moved
      exact paid

theorem Thread.floor_step (paid : floor ≤ thread.localDelay) (below : floor ≤ shared.globalDelay)
    (effect : thread.Effect shared op next raised) : floor ≤ next.localDelay := by
  cases effect with
  | inHandler phase tick ticked inside moved => exact Adding.floor_step paid below moved
  | inCode phase rest tick ticked out code moved => exact Adding.floor_step paid below moved
  | credited skipDelays rest out code => exact paid.trans (Nat.le_add_right _ _)
  | _ => exact paid

/-- The first phases of what pays. -/
def Adding.first : Adding → Bool
  | .samples => true
  | .experimentActive => true
  | _ => false

theorem Adding.pays_of_first (first : phase.first = true) : phase.Pays floor localDelay := by
  cases phase with
  | samples | experimentActive => trivial
  | _ => cases first

/-- How far a thread is with paying `floor`, before the rest of its function. -/
inductive Paying (floor : ℕ) (rest : List Instr) : Life → Prop
  | testing (thread : Thread) (phase : Adding) (first : phase.first = true)
      (code : thread.code = .whenActive :: .inUse true :: .adding phase :: rest) : Paying floor rest (.running thread)
  | entering (thread : Thread) (phase : Adding) (first : phase.first = true)
      (code : thread.code = .inUse true :: .adding phase :: rest) : Paying floor rest (.running thread)
  | adding (thread : Thread) (phase : Adding) (pays : phase.Pays floor thread.localDelay)
      (code : thread.code = .adding phase :: rest) (busy : thread.inUse = true) (out : thread.handler = none) :
      Paying floor rest (.running thread)
  | paid (life : Life) (enough : floor ≤ life.localDelay) : Paying floor rest life

/-- `catch_up` finds no experiment active. -/
def Thread.foundInactive (shared : Shared) (thread : Thread) : Op → List Unit
  | .exec =>
      match thread.handler, thread.code with
      | none, .whenActive :: _ => if shared.experimentActive then [] else [()]
      | _, _ => []
  | _ => []

theorem Paying.step (paying : Paying floor rest (.running thread)) (below : floor ≤ shared.globalDelay)
    (effect : thread.Effect shared op next raised) (active : thread.foundInactive shared op = []) :
    Paying floor rest next := by
  cases paying with
  | testing _ phase first code =>
      cases effect with
      | called call idle out | exiting idle out => rw [idle] at code; cases code
      | ignored busy => exact .testing _ phase first code
      | handled free out => exact .testing _ phase first code
      | inHandler other tick ticked inside moved => exact .testing _ phase first code
      | tested later out code' =>
          rw [code] at code'
          obtain ⟨-, rfl⟩ := List.cons.inj code'
          by_cases on : shared.experimentActive = true
          · rw [if_pos on]
            exact .entering _ phase first rfl
          · simp [Thread.foundInactive, out, code, on] at active
      | inCode other later tick ticked out code' _ => rw [code] at code'; cases code'
      | usedBy value later out code' | saved later out code' | removed later out code' => rw [code] at code'; cases code'
      | credited skipDelays later out code' => rw [code] at code'; cases code'
      | returned outcome later out code' => rw [code] at code'; cases code'
  | entering _ phase first code =>
      cases effect with
      | called call idle out | exiting idle out => rw [idle] at code; cases code
      | ignored busy => exact .entering _ phase first code
      | handled free out => exact .entering _ phase first code
      | inHandler other tick ticked inside moved => exact .entering _ phase first code
      | usedBy value later out code' =>
          rw [code] at code'
          obtain ⟨same, rfl⟩ := List.cons.inj code'
          cases same
          exact .adding _ phase (Adding.pays_of_first first) rfl rfl out
      | inCode other later tick ticked out code' _ => rw [code] at code'; cases code'
      | tested later out code' | saved later out code' | removed later out code' => rw [code] at code'; cases code'
      | credited skipDelays later out code' => rw [code] at code'; cases code'
      | returned outcome later out code' => rw [code] at code'; cases code'
  | adding _ phase pays code busy out =>
      cases effect with
      | called call idle _ | exiting idle _ => rw [idle] at code; cases code
      | ignored _ => exact .adding _ phase pays code busy out
      | handled free _ => rw [busy] at free; cases free
      | inHandler other tick ticked inside moved => rw [out] at inside; cases inside
      | inCode other later tick ticked _ code' moved =>
          rw [code] at code'
          obtain ⟨same, rfl⟩ := List.cons.inj code'
          cases same
          have paid := pays.step below moved
          unfold Ticked.Pays at paid
          cases left : ticked.phase with
          | some after =>
              rw [left] at paid
              exact .adding _ after paid rfl busy out
          | none =>
              rw [left] at paid
              exact .paid _ paid
      | tested later _ code' | usedBy value later _ code' | saved later _ code' | removed later _ code' =>
          rw [code] at code'; cases code'
      | credited skipDelays later _ code' => rw [code] at code'; cases code'
      | returned outcome later _ code' => rw [code] at code'; cases code'
  | paid _ enough => exact .paid _ (Thread.floor_step enough below effect)

end Paying

/-! ### Runs -/

section Runs

variable {T : Type} [DecidableEq T]

/-- The amounts of a step for one thread. -/
def amounts (thread : T) (world : World T) : Action T → Amounts
  | .thread other op =>
      if other = thread then
        match world.threads other with
        | .running state => state.amounts world.shared op
        | _ => {}
      else {}
  | .start other _ _ =>
      if other = thread then
        match world.threads other with
        | .created parentDelayTime => { inherited := parentDelayTime }
        | _ => {}
      else {}
  | _ => {}

/-- One of the amounts over a run. -/
def amount (thread : T) (field : Amounts → ℕ) (start : World T) (actions : List (Action T)) : ℕ :=
  total step (fun world action => field (amounts thread world action)) start actions

/-- The thread's `catch_up` finds no experiment active. -/
def foundInactive (thread : T) (world : World T) : Action T → List Unit
  | .thread other op =>
      if other = thread then
        match world.threads other with
        | .running state => state.foundInactive world.shared op
        | _ => []
      else []
  | _ => []

/-- The functions that catch up, and exit. -/
def Op.pays : Op → Bool
  | .call function => function.code.head? == some .whenActive
  | .exit => true
  | _ => false

/-- The thread is at the real call, or it has exited, so that others may be woken. -/
def World.Wakes (world : World T) (thread : T) : Prop :=
  match world.threads thread with
  | .running state => state.handler = none ∧ state.code.head? = some .real
  | .gone _ => True
  | _ => False

variable {world next : World T} {action : Action T} {thread : T} {floor : ℕ} {rest : List Instr}

/-- The ways a step can end, for one thread. -/
inductive Effect (thread : T) (world next : World T) : Action T → Prop
  | own (op : Op) (state : Thread) (life : Life) (raised : ℕ) (running : world.threads thread = .running state)
      (effect : state.Effect world.shared op life raised) (same : next.threads thread = life) :
      Effect thread world next (.thread thread op)
  | created (parent : T) (delay : ℕ) (absent : world.threads thread = .absent)
      (same : next.threads thread = .created delay) : Effect thread world next (.create parent thread)
  | started (delay : ℕ) (inUse : Bool) (preBlockTime : ℕ) (created : world.threads thread = .created delay)
      (same : next.threads thread = .running (Thread.fresh delay inUse preBlockTime)) :
      Effect thread world next (.start thread inUse preBlockTime)
  | other (action : Action T) (foreign : ∀ op, action ≠ .thread thread op)
      (same : next.threads thread = world.threads thread) (nothing : amounts thread world action = {}) :
      Effect thread world next action

theorem effect_of_step (thread : T) (moved : step world action = some next) : Effect thread world next action := by
  revert moved
  fun_cases step world action with
  | case1 other op state running =>
      intro moved
      obtain ⟨⟨life, raised⟩, stepped, rfl⟩ := Option.map_eq_some_iff.mp moved
      by_cases same : other = thread
      · subst same
        exact .own op state life raised running (Thread.effect_of_step stepped) (Function.update_self ..)
      · refine .other _ (fun op here => ?_) (Function.update_of_ne (Ne.symm same) _ _) (if_neg same)
        cases here
        exact same rfl
  | case3 parent child state absent _ idle =>
      intro moved
      obtain rfl := Option.some.inj moved
      by_cases same : child = thread
      · subst same
        exact .created parent state.localDelay absent (Function.update_self ..)
      · exact .other _ (fun op here => by cases here) (Function.update_of_ne (Ne.symm same) _ _) rfl
  | case6 other inUse preBlockTime delay created =>
      intro moved
      obtain rfl := Option.some.inj moved
      by_cases same : other = thread
      · subst same
        exact .started delay inUse preBlockTime created (Function.update_self ..)
      · exact .other _ (fun op here => by cases here) (Function.update_of_ne (Ne.symm same) _ _) (if_neg same)
  | case8 size | case9 active =>
      intro moved
      obtain rfl := Option.some.inj moved
      exact .other _ (fun op here => by cases here) rfl rfl
  | _ => exact fun moved => by cases moved

theorem globalDelay_step (moved : step world action = some next) :
    world.shared.globalDelay ≤ next.shared.globalDelay := by
  revert moved
  fun_cases step world action with
  | case1 other op state running =>
      intro moved
      obtain ⟨⟨life, raised⟩, stepped, rfl⟩ := Option.map_eq_some_iff.mp moved
      exact Nat.le_add_right _ _
  | case3 | case6 | case8 | case9 =>
      intro moved
      obtain rfl := Option.some.inj moved
      exact Nat.le_refl _
  | _ => exact fun moved => by cases moved

theorem localDelay_step (effect : Effect thread world next action) :
    (next.threads thread).localDelay + (amounts thread world action).dropped =
      (world.threads thread).localDelay + (amounts thread world action).incurred := by
  cases effect with
  | own op state life raised running effect same =>
      rw [same, running]
      simp only [amounts, if_pos, running]
      exact Thread.localDelay_step effect
  | created parent delay absent same =>
      rw [same, absent]
      rfl
  | started delay inUse preBlockTime created same =>
      rw [same, created]
      simp [amounts, created, Life.localDelay, Thread.fresh, Amounts.incurred]
  | other _ foreign same nothing =>
      rw [same, nothing]
      rfl

theorem paying_step (paying : Paying floor rest (world.threads thread)) (below : floor ≤ world.shared.globalDelay)
    (effect : Effect thread world next action) (active : foundInactive thread world action = []) :
    Paying floor rest (next.threads thread) := by
  cases effect with
  | own op state life raised running effect same =>
      rw [running] at paying
      simp only [foundInactive, if_pos, running] at active
      rw [same]
      exact paying.step below effect active
  | created parent delay absent same =>
      rw [absent] at paying
      cases paying with
      | paid _ enough =>
          rw [same]
          exact .paid _ enough
  | started delay inUse preBlockTime created same =>
      rw [created] at paying
      cases paying with
      | paid _ enough =>
          have nothing : floor ≤ 0 := enough
          rw [same]
          exact .paid _ (nothing.trans (Nat.zero_le _))
  | other _ foreign same nothing =>
      rw [same]
      exact paying

/-- A function that pays begins with paying. -/
theorem paying_of_pays {op : Op} (pays : op.pays = true) (effect : Effect thread world next (.thread thread op)) :
    ∃ rest, Paying floor rest (next.threads thread) := by
  cases effect with
  | own _ state life raised running effect same =>
      rw [same]
      cases effect with
      | called call idle out =>
          have head : ∃ rest, call.code = .whenActive :: .inUse true :: .adding .experimentActive :: rest := by
            cases call with
            | kill toSelf =>
                cases toSelf with
                | true => exact ⟨_, rfl⟩
                | false => cases pays
            | pthreadMutexUnlock | pthreadCondSignal | pthreadCondBroadcast | pthreadBarrierWait
              | pthreadRwlockUnlock | pthreadKill | pthreadSigqueue => exact ⟨_, rfl⟩
            | _ => cases pays
          obtain ⟨rest, code⟩ := head
          exact ⟨rest, .testing _ .experimentActive rfl code⟩
      | exiting idle out => exact ⟨_, .entering _ .samples rfl rfl⟩
      | _ => cases pays
  | other _ foreign _ _ => exact absurd rfl (foreign op)

omit [DecidableEq T] in
theorem paid_of_wakes (paying : Paying floor rest (world.threads thread)) (wakes : world.Wakes thread) :
    floor ≤ (world.threads thread).localDelay := by
  unfold World.Wakes at wakes
  generalize world.threads thread = life at paying wakes
  cases paying with
  | testing state phase first code | entering state phase first code =>
      obtain ⟨-, head⟩ := wakes
      rw [code] at head
      cases head
  | adding state phase pays code busy out =>
      obtain ⟨-, head⟩ := wakes
      rw [code] at head
      cases head
  | paid _ enough => exact enough

variable {main : T} {state final : World T} {actions after : List (Action T)} {op : Op}

/-- **What a thread's delay consists of.** -/
theorem delays_ledger (ran : run step (start main) actions = some final) (thread : T) :
    (final.threads thread).localDelay + amount thread Amounts.dropped (start main) actions =
      amount thread Amounts.inherited (start main) actions + amount thread Amounts.slept (start main) actions +
        amount thread Amounts.sampled (start main) actions + amount thread Amounts.credited (start main) actions +
        amount thread Amounts.skipped (start main) actions := by
  have balance := stock_of_run (fun world : World T => (world.threads thread).localDelay) ran
    (fun world action next moved => localDelay_step (effect_of_step thread moved))
  have nothing : ((start main).threads thread).localDelay = 0 := by
    by_cases same : thread = main
    · subst same
      simp [start, Life.localDelay]
    · simp [start, Life.localDelay, Function.update_of_ne same]
  simp only [Amounts.incurred] at balance
  rw [total_add ran, total_add ran, total_add ran, total_add ran, nothing, Nat.zero_add] at balance
  exact balance

/-- After a function that pays began, a thread pays what the global delay was then. -/
theorem paying_of_run (called : step state (.thread thread op) = some next) (pays : op.pays = true)
    (later : run step next after = some final) (active : trace step (foundInactive thread) next after = []) :
    ∃ rest, Paying state.shared.globalDelay rest (final.threads thread) := by
  obtain ⟨rest, paying⟩ := @paying_of_pays T _ state next thread state.shared.globalDelay op pays
    (effect_of_step thread called)
  have first := globalDelay_step called
  have held : state.shared.globalDelay ≤ final.shared.globalDelay ∧
      (trace step (foundInactive thread) next after = [] →
        Paying state.shared.globalDelay rest (final.threads thread)) := by
    refine run_history (motive := fun past world => state.shared.globalDelay ≤ world.shared.globalDelay ∧
      (trace step (foundInactive thread) next past = [] →
        Paying state.shared.globalDelay rest (world.threads thread))) ⟨first, fun _ => paying⟩ ?_ later
    intro past world action moved there ih stepped
    refine ⟨ih.1.trans (globalDelay_step stepped), fun quiet => ?_⟩
    rw [trace_concat there, List.append_eq_nil_iff] at quiet
    exact paying_step (ih.2 quiet.1) ih.1 (effect_of_step thread stepped) quiet.2
  exact ⟨rest, held.2 active⟩

/-- **A thread has paid before it wakes another one.** A thread's delay is what it has inherited, slept, sampled, been
credited and skipped, less what it has dropped; and when a thread that called a function that catches up, or exits,
comes to the real call, then, unless its `catch_up` has found no experiment active, this delay is at least what the
global delay was at the call. -/
theorem paid_before_waking (ran : run step (start main) actions = some final) (thread : T) :
    (final.threads thread).localDelay + amount thread Amounts.dropped (start main) actions =
        amount thread Amounts.inherited (start main) actions + amount thread Amounts.slept (start main) actions +
          amount thread Amounts.sampled (start main) actions + amount thread Amounts.credited (start main) actions +
          amount thread Amounts.skipped (start main) actions ∧
      ∀ before op after state next, actions = before ++ .thread thread op :: after →
        run step (start main) before = some state → step state (.thread thread op) = some next → op.pays = true →
          trace step (foundInactive thread) next after = [] → final.Wakes thread →
            state.shared.globalDelay ≤ (final.threads thread).localDelay := by
  refine ⟨delays_ledger ran thread, ?_⟩
  rintro before op after state next rfl early called pays active wakes
  have later : run step next after = some final := by
    obtain ⟨middle, first, rest⟩ := run_append_iff.mp ran
    obtain rfl := Option.some.inj (early.symm.trans first)
    obtain ⟨other, moved, onwards⟩ := run_cons_iff.mp rest
    obtain rfl := Option.some.inj (called.symm.trans moved)
    exact onwards
  obtain ⟨rest, paying⟩ := paying_of_run called pays later active
  exact paid_of_wakes paying wakes

/-- During an experiment the second thread hits the selected line, which adds to the global delay. -/
def hitBefore : List (Action Bool) :=
  [.start false false 0, .create false true, .start true false 0, .setDelaySize 50000, .setActive true, .thread true .signal,
    .thread true (.adding (.sample true)), .thread true (.adding .next), .thread true (.adding .next),
    .thread true (.adding .next), .thread true (.adding .next), .thread true (.adding .next)]

/-- The first thread then unlocks a mutex and pauses before the real call. -/
def unlocking : List (Action Bool) :=
  [.thread false .exec, .thread false .exec, .thread false (.adding .next), .thread false (.adding .next),
    .thread false (.adding .next), .thread false (.adding (.sleep 50006)), .thread false .exec]

/-- Both, one after the other. -/
def paidUnlock : List (Action Bool) :=
  hitBefore ++ .thread false (.call .pthreadMutexUnlock) :: unlocking

theorem paid_before_waking_unlock : ∃ state final, run step (start false) hitBefore = some state ∧
    run step (start false) paidUnlock = some final ∧ state.shared.globalDelay = 50000 ∧
    state.shared.globalDelay ≤ (final.threads false).localDelay ∧
    (final.threads false).localDelay + amount false Amounts.dropped (start false) paidUnlock =
      amount false Amounts.inherited (start false) paidUnlock + amount false Amounts.slept (start false) paidUnlock +
        amount false Amounts.sampled (start false) paidUnlock +
        amount false Amounts.credited (start false) paidUnlock +
        amount false Amounts.skipped (start false) paidUnlock ∧
    amount false Amounts.slept (start false) paidUnlock = 50006 := by
  have raised : (run step (start false) hitBefore).map (fun state => state.shared.globalDelay) = some 50000 := by
    decide +kernel
  have unlocked : (run step (start false) paidUnlock).map (fun final => final.threads false) =
      some (.running ⟨50006, 0, false, ⟨0, false⟩, [.real], none⟩) := by decide +kernel
  have active : ((run step (start false) hitBefore).bind fun state =>
      (step state (.thread false (.call .pthreadMutexUnlock))).map fun next =>
        (trace step (foundInactive false) next unlocking)) = some [] := by decide +kernel
  obtain ⟨state, reached, global⟩ := Option.map_eq_some_iff.mp raised
  obtain ⟨final, ran, life⟩ := Option.map_eq_some_iff.mp unlocked
  rw [reached, Option.bind_some] at active
  obtain ⟨next, called, quiet⟩ := Option.map_eq_some_iff.mp active
  have wakes : final.Wakes false := by
    rw [World.Wakes, life]
    exact ⟨rfl, rfl⟩
  obtain ⟨ledger, paid⟩ := paid_before_waking ran false
  exact ⟨state, final, reached, ran, global,
    paid hitBefore _ unlocking state next rfl reached called rfl quiet wakes, ledger, by decide +kernel⟩

end Runs

end Mcoz.Profiler.Interpose
