/-
A blocking call of one thread: `pre_block`, `post_block(true)` and the sampling handler.

`pre_block` loads the global delay, `post_block` credits the thread with what it grew by since, and
the SIGPROF handler of the same thread may run in between: it credits or sleeps up to the global
delay on its own. Other threads only raise the global delay. The thread and its handler share
`local_delay`; the handler runs to its end before the thread goes on, and returns at once while
`in_use` is set.

`blocked_credit_iff` says exactly when the thread is not over-credited.
-/

import Mcoz.Lib.Machine
import Mathlib.Algebra.Order.Group.Nat

set_option autoImplicit false

namespace Mcoz.Profiler

open Machine

/-- Where the thread is: before `pre_block`, after it, in `post_block` before and after the credit,
after `set_in_use(false)`, and returned. -/
inductive BlockingCode
  | start
  | blocked
  | crediting
  | credited
  | released
  | returned
deriving DecidableEq

/-- Where the handler is in `process_samples`, when no sample hits the selected line: before
`add_delays`, and in the phases of it. -/
inductive Handler
  | out
  | entered
  | active
  | snapshot (globalDelay : ℕ)
  | ahead (globalDelay : ℕ)
  | behind (globalDelay : ℕ)
deriving DecidableEq

/-- The state of the thread, its handler and the global delay. -/
structure Blocking where
  globalDelay : ℕ
  localDelay : ℕ
  preBlockTime : ℕ
  inUse : Bool
  code : BlockingCode
  handler : Handler
deriving DecidableEq

/-- The atomic steps: of other threads (`grow`), of the thread, of its handler. `addDelays` is the
load of `_experiment_active`. -/
inductive BlockingStep
  | grow (delay : ℕ)
  | preBlock
  | enterPostBlock
  | credit
  | release
  | leave
  | signal
  | addDelays (experimentActive : Bool)
  | snapshot
  | compare
  | fetchAdd
  | pause

namespace Blocking

/-- One atomic step. The thread moves only while its handler is out; `wait` pauses exactly as long
as it is asked. -/
def step (state : Blocking) : BlockingStep → Option Blocking
  | .grow delay => some { state with globalDelay := state.globalDelay + delay }
  | .preBlock =>
      if state.code = .start ∧ state.handler = .out then
        some { state with code := .blocked, preBlockTime := state.globalDelay }
      else none
  | .enterPostBlock =>
      if state.code = .blocked ∧ state.handler = .out then
        some { state with code := .crediting, inUse := true }
      else none
  | .credit =>
      if state.code = .crediting ∧ state.handler = .out then
        some { state with
          code := .credited
          localDelay := state.localDelay + (state.globalDelay - state.preBlockTime) }
      else none
  | .release =>
      if state.code = .credited ∧ state.handler = .out then
        some { state with code := .released, inUse := false }
      else none
  | .leave =>
      if state.code = .released ∧ state.handler = .out then
        some { state with code := .returned }
      else none
  | .signal =>
      if state.handler = .out ∧ state.code ≠ .returned then
        if state.inUse then some state else some { state with handler := .entered }
      else none
  | .addDelays experimentActive =>
      if state.handler = .entered then
        if experimentActive then some { state with handler := .active }
        else some { state with handler := .out, localDelay := state.globalDelay }
      else none
  | .snapshot =>
      if state.handler = .active then
        some { state with handler := .snapshot state.globalDelay }
      else none
  | .compare =>
      match state.handler with
      | .snapshot globalDelay =>
          if state.localDelay > globalDelay then some { state with handler := .ahead globalDelay }
          else if state.localDelay < globalDelay then
            some { state with handler := .behind globalDelay }
          else some { state with handler := .out }
      | _ => none
  | .fetchAdd =>
      match state.handler with
      | .ahead globalDelay =>
          some { state with
            handler := .out
            globalDelay := state.globalDelay + (state.localDelay - globalDelay) }
      | _ => none
  | .pause =>
      match state.handler with
      | .behind globalDelay =>
          some { state with
            handler := .out
            localDelay := state.localDelay + (globalDelay - state.localDelay) }
      | _ => none

/-- The value of the global delay that the thread or its handler loads in a step. -/
def loads (state : Blocking) : BlockingStep → List ℕ
  | .preBlock | .snapshot | .addDelays false => [state.globalDelay]
  | _ => []

/-- The ways a step can end. -/
inductive Effect (state : Blocking) : BlockingStep → Blocking → Prop
  | grown (delay : ℕ) :
      Effect state (.grow delay) { state with globalDelay := state.globalDelay + delay }
  | blocked (start : state.code = .start) (out : state.handler = .out) :
      Effect state .preBlock { state with code := .blocked, preBlockTime := state.globalDelay }
  | unblocked (blocked : state.code = .blocked) (out : state.handler = .out) :
      Effect state .enterPostBlock { state with code := .crediting, inUse := true }
  | credited (crediting : state.code = .crediting) (out : state.handler = .out) :
      Effect state .credit { state with
        code := .credited
        localDelay := state.localDelay + (state.globalDelay - state.preBlockTime) }
  | released (credited : state.code = .credited) (out : state.handler = .out) :
      Effect state .release { state with code := .released, inUse := false }
  | returned (released : state.code = .released) (out : state.handler = .out) :
      Effect state .leave { state with code := .returned }
  | skipped (out : state.handler = .out) : Effect state .signal state
  | signalled (out : state.handler = .out) :
      Effect state .signal { state with handler := .entered }
  | activated (entered : state.handler = .entered) :
      Effect state (.addDelays true) { state with handler := .active }
  | caughtUp (entered : state.handler = .entered) : Effect state (.addDelays false)
      { state with handler := .out, localDelay := state.globalDelay }
  | snapshot (active : state.handler = .active) :
      Effect state .snapshot { state with handler := .snapshot state.globalDelay }
  | ahead {taken : ℕ} (snapshot : state.handler = .snapshot taken)
      (leads : taken < state.localDelay) :
      Effect state .compare { state with handler := .ahead taken }
  | behind {taken : ℕ} (snapshot : state.handler = .snapshot taken)
      (lags : state.localDelay < taken) :
      Effect state .compare { state with handler := .behind taken }
  | level {taken : ℕ} (snapshot : state.handler = .snapshot taken)
      (same : state.localDelay = taken) : Effect state .compare { state with handler := .out }
  | raised {taken : ℕ} (ahead : state.handler = .ahead taken) : Effect state .fetchAdd
      { state with
        handler := .out
        globalDelay := state.globalDelay + (state.localDelay - taken) }
  | paused {taken : ℕ} (behind : state.handler = .behind taken) : Effect state .pause
      { state with
        handler := .out
        localDelay := state.localDelay + (taken - state.localDelay) }

theorem effect_of_step {state next : Blocking} {action : BlockingStep}
    (moved : state.step action = some next) : Effect state action next := by
  cases action with
  | grow delay =>
      cases moved
      exact .grown delay
  | signal =>
      simp only [step] at moved
      split at moved
      · rename_i free
        split at moved <;> cases moved
        · exact .skipped free.1
        · exact .signalled free.1
      · cases moved
  | addDelays experimentActive =>
      simp only [step] at moved
      split at moved
      · rename_i entered
        cases experimentActive <;> cases moved
        · exact .caughtUp entered
        · exact .activated entered
      · cases moved
  | snapshot =>
      simp only [step] at moved
      split at moved <;> cases moved
      exact .snapshot ‹_›
  | compare =>
      simp only [step] at moved
      split at moved
      · rename_i taken snapshot
        split at moved
        · cases moved
          exact .ahead snapshot ‹_›
        · split at moved <;> cases moved
          · exact .behind snapshot ‹_›
          · exact .level snapshot (by omega)
      · cases moved
  | fetchAdd =>
      simp only [step] at moved
      split at moved <;> cases moved
      exact .raised ‹_›
  | pause =>
      simp only [step] at moved
      split at moved <;> cases moved
      exact .paused ‹_›
  | preBlock =>
      obtain ⟨⟨code, out⟩, ⟨⟩⟩ := Option.ite_none_right_eq_some.mp moved
      exact .blocked code out
  | enterPostBlock =>
      obtain ⟨⟨code, out⟩, ⟨⟩⟩ := Option.ite_none_right_eq_some.mp moved
      exact .unblocked code out
  | credit =>
      obtain ⟨⟨code, out⟩, ⟨⟩⟩ := Option.ite_none_right_eq_some.mp moved
      exact .credited code out
  | release =>
      obtain ⟨⟨code, out⟩, ⟨⟩⟩ := Option.ite_none_right_eq_some.mp moved
      exact .released code out
  | leave =>
      obtain ⟨⟨code, out⟩, ⟨⟩⟩ := Option.ite_none_right_eq_some.mp moved
      exact .returned code out

end Blocking

/-! ### Until the credit -/

/-- The thread has not been credited yet. -/
def BlockingCode.uncredited : BlockingCode → Bool
  | .start | .blocked | .crediting => true
  | _ => false

/-- The thread is past `pre_block` and not credited yet. -/
def BlockingCode.waiting : BlockingCode → Bool
  | .blocked | .crediting => true
  | _ => false

/-- The snapshot of the handler lies between the local delay and the global one. -/
def Handler.Between (localDelay globalDelay : ℕ) : Handler → Prop
  | .snapshot taken | .behind taken => localDelay ≤ taken ∧ taken ≤ globalDelay
  | .ahead _ => False
  | _ => True

/-- The handler works on the last load, or has brought the local delay to it; without a handler the
last load is that of `pre_block`. -/
def Handler.Follows (localDelay preBlockTime last : ℕ) : Handler → Prop
  | .snapshot taken | .behind taken => taken = last
  | .ahead _ => False
  | _ => localDelay = last ∨ (last = preBlockTime ∧ localDelay ≤ preBlockTime)

theorem Handler.Between.mono {handler : Handler} {localDelay globalDelay larger : ℕ}
    (between : handler.Between localDelay globalDelay) (grown : globalDelay ≤ larger) :
    handler.Between localDelay larger := by
  cases handler with
  | snapshot | behind => exact ⟨between.1, le_trans between.2 grown⟩
  | _ => exact between

namespace Blocking

/-- What holds until the credit, given the last load. -/
structure Waiting (last : Option ℕ) (state : Blocking) : Prop where
  notAhead : state.localDelay ≤ state.globalDelay
  between : state.handler.Between state.localDelay state.globalDelay
  follows : state.code.waiting = true → ∃ loaded, last = some loaded ∧
    state.preBlockTime ≤ loaded ∧ loaded ≤ state.globalDelay ∧
    state.handler.Follows state.localDelay state.preBlockTime loaded

/-- The last load after one more step. -/
def lastLoad (last : Option ℕ) (state : Blocking) (action : BlockingStep) : Option ℕ :=
  (state.loads action).getLast?.or last

section Step

variable {state next : Blocking} {action : BlockingStep} {last : Option ℕ}

theorem uncredited_of_step (moved : state.step action = some next)
    (early : next.code.uncredited = true) : state.code.uncredited = true := by
  cases effect_of_step moved with
  | blocked start => rw [start]; rfl
  | unblocked blocked => rw [blocked]; rfl
  | credited => cases early
  | released => cases early
  | returned => cases early
  | _ => exact early

/-- The last load so far, and what the handler makes of it, through one more step. -/
theorem Waiting.step (waiting : Waiting last state)
    (moved : state.step action = some next) (uncredited : next.code.uncredited = true) :
    Waiting (lastLoad last state action) next := by
  obtain ⟨notAhead, between, follows⟩ := waiting
  cases effect_of_step moved with
  | grown delay =>
      have grown : state.globalDelay ≤ state.globalDelay + delay := Nat.le_add_right _ _
      refine ⟨le_trans notAhead grown, between.mono grown, fun code => ?_⟩
      obtain ⟨loaded, same, above, below, handler⟩ := follows code
      exact ⟨loaded, same, above, le_trans below grown, handler⟩
  | blocked start out =>
      refine ⟨notAhead, between, fun _ => ⟨state.globalDelay, rfl, le_rfl, le_rfl, ?_⟩⟩
      rw [out]
      exact Or.inr ⟨rfl, notAhead⟩
  | unblocked blocked out => exact ⟨notAhead, between, fun _ => follows (by rw [blocked]; rfl)⟩
  | credited => cases uncredited
  | released => cases uncredited
  | returned => cases uncredited
  | skipped => exact ⟨notAhead, between, follows⟩
  | signalled out =>
      rw [out] at follows
      exact ⟨notAhead, trivial, follows⟩
  | activated entered =>
      rw [entered] at follows
      exact ⟨notAhead, trivial, follows⟩
  | caughtUp entered =>
      refine ⟨le_rfl, trivial, fun code => ?_⟩
      obtain ⟨loaded, -, above, below, -⟩ := follows code
      exact ⟨state.globalDelay, rfl, le_trans above below, le_rfl, Or.inl rfl⟩
  | snapshot active =>
      refine ⟨notAhead, ⟨notAhead, le_rfl⟩, fun code => ?_⟩
      obtain ⟨loaded, -, above, below, -⟩ := follows code
      exact ⟨state.globalDelay, rfl, le_trans above below, le_rfl, rfl⟩
  | ahead snapshot leads =>
      rw [snapshot] at between
      exact absurd between.1 (not_le.mpr leads)
  | behind snapshot lags =>
      rw [snapshot] at between follows
      exact ⟨notAhead, between, follows⟩
  | level snapshot same =>
      rw [snapshot] at follows
      refine ⟨notAhead, trivial, fun code => ?_⟩
      obtain ⟨loaded, held, above, below, handler⟩ := follows code
      exact ⟨loaded, held, above, below, Or.inl (same.trans handler)⟩
  | raised ahead =>
      rw [ahead] at between
      exact between.elim
  | @paused taken behind =>
      rw [behind] at between follows
      have caught : state.localDelay + (taken - state.localDelay) = taken :=
        Nat.add_sub_of_le between.1
      refine ⟨?_, trivial, fun code => ?_⟩
      · simp only [caught]
        exact between.2
      · obtain ⟨loaded, held, above, below, handler⟩ := follows code
        exact ⟨loaded, held, above, below, Or.inl (caught.trans handler)⟩

end Step

end Blocking

/-! ### After the credit -/

/-- The handler has not loaded the global delay yet. -/
def Handler.unloaded : Handler → Bool
  | .out | .entered | .active => true
  | _ => false

/-- The handler leaves the local delay at or below the global one. -/
def Handler.Settles (localDelay globalDelay : ℕ) : Handler → Prop
  | .snapshot taken => taken ≤ globalDelay
  | .ahead taken => taken < localDelay ∧ taken ≤ globalDelay
  | .behind taken => localDelay < taken ∧ taken ≤ globalDelay
  | _ => localDelay ≤ globalDelay

theorem Handler.Settles.mono {handler : Handler} {localDelay globalDelay larger : ℕ}
    (settles : handler.Settles localDelay globalDelay) (grown : globalDelay ≤ larger) :
    handler.Settles localDelay larger := by
  cases handler with
  | ahead | behind => exact ⟨settles.1, le_trans settles.2 grown⟩
  | _ => exact le_trans settles grown

namespace Blocking

/-- What holds after the credit: the credited delay is there until a handler loads the global delay,
which settles the thread. -/
structure Credited (owed floor : ℕ) (loaded : List ℕ) (state : Blocking) : Prop where
  late : state.code.uncredited = false
  grown : floor ≤ state.globalDelay
  alone : loaded = [] → state.localDelay = owed ∧ state.handler.unloaded = true
  settled : loaded ≠ [] → state.handler.Settles state.localDelay state.globalDelay

section Step

variable {state next : Blocking} {action : BlockingStep} {owed floor : ℕ} {loaded : List ℕ}

/-- A step without a load. -/
theorem Credited.unloaded (credited : Credited owed floor loaded state)
    (silent : state.loads action = []) (late : next.code.uncredited = false)
    (grown : state.globalDelay ≤ next.globalDelay)
    (alone : state.handler.unloaded = true →
      next.localDelay = state.localDelay ∧ next.handler.unloaded = true)
    (settles : state.handler.Settles state.localDelay state.globalDelay →
      next.handler.Settles next.localDelay next.globalDelay) :
    Credited owed floor (loaded ++ state.loads action) next := by
  rw [silent, List.append_nil]
  refine ⟨late, le_trans credited.grown grown, fun unloaded' => ?_, fun loaded => ?_⟩
  · obtain ⟨same, unloaded⟩ := credited.alone unloaded'
    exact ⟨(alone unloaded).1.trans same, (alone unloaded).2⟩
  · exact settles (credited.settled loaded)

/-- A step without a load of a handler that has loaded the global delay. -/
theorem Credited.settling (credited : Credited owed floor loaded state) {handler : Handler}
    (here : state.handler = handler) (busy : handler.unloaded = false)
    (silent : state.loads action = []) (late : next.code.uncredited = false)
    (grown : state.globalDelay ≤ next.globalDelay)
    (settles : handler.Settles state.localDelay state.globalDelay →
      next.handler.Settles next.localDelay next.globalDelay) :
    Credited owed floor (loaded ++ state.loads action) next := by
  refine credited.unloaded silent late grown (fun unloaded => ?_) fun before => ?_
  · rw [here, busy] at unloaded
    cases unloaded
  · rw [here] at before
    exact settles before

theorem Credited.step (credited : Credited owed floor loaded state)
    (moved : state.step action = some next) :
    Credited owed floor (loaded ++ state.loads action) next := by
  have late := credited.late
  cases effect_of_step moved with
  | grown delay =>
      have larger : state.globalDelay ≤ state.globalDelay + delay := Nat.le_add_right _ _
      exact credited.unloaded rfl late larger (fun unloaded => ⟨rfl, unloaded⟩)
        fun settles => settles.mono larger
  | blocked start =>
      rw [start] at late
      cases late
  | unblocked blocked =>
      rw [blocked] at late
      cases late
  | credited crediting =>
      rw [crediting] at late
      cases late
  | released => exact credited.unloaded rfl rfl le_rfl (fun unloaded => ⟨rfl, unloaded⟩) id
  | returned => exact credited.unloaded rfl rfl le_rfl (fun unloaded => ⟨rfl, unloaded⟩) id
  | skipped => exact credited.unloaded rfl late le_rfl (fun unloaded => ⟨rfl, unloaded⟩) id
  | signalled out =>
      refine credited.unloaded rfl late le_rfl (fun _ => ⟨rfl, rfl⟩) fun settles => ?_
      rw [out] at settles
      exact settles
  | activated entered =>
      refine credited.unloaded rfl late le_rfl (fun _ => ⟨rfl, rfl⟩) fun settles => ?_
      rw [entered] at settles
      exact settles
  | caughtUp entered =>
      exact ⟨late, credited.grown, fun loaded => by simp [loads] at loaded, fun _ => le_rfl⟩
  | snapshot active =>
      exact ⟨late, credited.grown, fun loaded => by simp [loads] at loaded, fun _ => le_rfl⟩
  | ahead snapshot leads =>
      exact credited.settling snapshot rfl rfl late le_rfl fun settles => ⟨leads, settles⟩
  | behind snapshot lags =>
      exact credited.settling snapshot rfl rfl late le_rfl fun settles => ⟨lags, settles⟩
  | level snapshot same =>
      exact credited.settling snapshot rfl rfl late le_rfl fun settles =>
        le_trans (le_of_eq same) settles
  | @raised taken ahead =>
      refine credited.settling ahead rfl rfl late (Nat.le_add_right _ _) fun settles => ?_
      obtain ⟨leads, below⟩ := settles
      show state.localDelay ≤ state.globalDelay + (state.localDelay - taken)
      omega
  | @paused taken behind =>
      refine credited.settling behind rfl rfl late le_rfl fun settles => ?_
      obtain ⟨lags, below⟩ := settles
      show state.localDelay + (taken - state.localDelay) ≤ state.globalDelay
      omega

end Step

/-! ### The whole call -/

section Runs

variable {start state credited final : Blocking} {before after : List BlockingStep}

/-- At the credit, the last load and what the handler made of it. -/
theorem waiting_of_run (notAhead : start.localDelay ≤ start.globalDelay)
    (atStart : start.code = .start) (out : start.handler = .out)
    (ran : run step start before = some state) (uncredited : state.code.uncredited = true) :
    Waiting (trace step loads start before).getLast? state := by
  suffices early : state.code.uncredited = true →
      Waiting (trace step loads start before).getLast? state from early uncredited
  refine run_history (motive := fun past state => state.code.uncredited = true →
    Waiting (trace step loads start past).getLast? state) ?_ ?_ ran
  · intro _
    refine ⟨notAhead, by rw [out]; trivial, fun waiting => ?_⟩
    rw [atStart] at waiting
    cases waiting
  · intro past state action next there ih moved uncredited
    have stepped := (ih (uncredited_of_step moved uncredited)).step moved uncredited
    rw [trace_concat there, List.getLast?_append]
    exact stepped

theorem credited_of_run (took : credited.handler = .out) (late : credited.code = .credited)
    (ran : run step credited after = some final) :
    Credited credited.localDelay credited.globalDelay (trace step loads credited after) final := by
  refine run_history (motive := fun past state =>
    Credited credited.localDelay credited.globalDelay (trace step loads credited past) state)
    ⟨by rw [late]; rfl, le_rfl, fun _ => ⟨rfl, by rw [took]; rfl⟩, fun loaded => absurd rfl loaded⟩
    ?_ ran
  intro past state action next there ih moved
  rw [trace_concat there]
  exact ih.step moved

/-- A thread that is not ahead is not ahead after `pre_block` and `post_block(true)` either, if and
only if its handler loads the global delay once more after `set_in_use(false)`, or the global delay
grew from the load of `pre_block` to the last load of the handler before the credit by at most what
it grew by from the credit to the end. -/
theorem blocked_credit_iff (notAhead : start.localDelay ≤ start.globalDelay)
    (atStart : start.code = .start) (out : start.handler = .out)
    (ran : run step start before = some state) (credit : state.step .credit = some credited)
    (rest : run step credited after = some final) (finished : final.handler = .out) :
    final.localDelay ≤ final.globalDelay ↔
      trace step loads credited after ≠ [] ∨
        ∃ last, (trace step loads start before).getLast? = some last ∧
          last - state.preBlockTime ≤ final.globalDelay - state.globalDelay := by
  obtain ⟨⟨crediting, free⟩, shape⟩ := Option.ite_none_right_eq_some.mp credit
  have shape := Option.some.inj shape
  have waiting := waiting_of_run notAhead atStart out ran (by rw [crediting]; rfl)
  obtain ⟨last, loaded, above, below, follows⟩ := waiting.follows (by rw [crediting]; rfl)
  rw [free] at follows
  have ended := credited_of_run (by rw [← shape]; exact free) (by rw [← shape]) rest
  have grown : state.globalDelay ≤ final.globalDelay := by
    have floor := ended.grown
    rwa [← shape] at floor
  by_cases alone : trace step loads credited after = []
  · have same : final.localDelay =
        state.localDelay + (state.globalDelay - state.preBlockTime) := by
      rw [(ended.alone alone).1, ← shape]
    rw [same]
    constructor
    · intro settled
      refine Or.inr ⟨last, loaded, ?_⟩
      rcases follows with caught | ⟨nothing, -⟩ <;> omega
    · rintro (shared | ⟨other, held, bounded⟩)
      · exact absurd alone shared
      · cases loaded.symm.trans held
        rcases follows with caught | ⟨nothing, behind⟩ <;> omega
  · have settles := ended.settled alone
    rw [finished] at settles
    exact ⟨fun _ => Or.inl alone, fun _ => settles⟩

end Runs

/-- No delay anywhere, before `pre_block`. -/
def unblockedStart : Blocking :=
  ⟨0, 0, 0, false, .start, .out⟩

/-- Other threads add a delay of 5 while the thread is blocked, and its handler runs then, with no
experiment active. -/
def handledCall : List BlockingStep :=
  [.preBlock, .grow 5, .signal, .addDelays false, .enterPostBlock]

/-- The engine of `handledCall` at the credit. -/
def handledState : Blocking :=
  ⟨5, 5, 0, true, .crediting, .out⟩

/-- The hypotheses of `blocked_credit_iff` are met by `handledCall` and the end of the call. -/
theorem blocked_credit_iff_sample : ∃ credited final,
    run step unblockedStart handledCall = some handledState ∧
      handledState.step .credit = some credited ∧
      run step credited [.release, .leave] = some final ∧
      (final.localDelay ≤ final.globalDelay ↔ trace step loads credited [.release, .leave] ≠ [] ∨
        ∃ last, (trace step loads unblockedStart handledCall).getLast? = some last ∧
          last - handledState.preBlockTime ≤ final.globalDelay - handledState.globalDelay) :=
  ⟨_, _, rfl, rfl, rfl, blocked_credit_iff le_rfl rfl rfl
    (show run step unblockedStart handledCall = some handledState from rfl) rfl rfl rfl⟩

/-- The delay of 5 is credited by the handler and once more by `post_block`. -/
theorem handled_call_credits_twice : ∃ final,
    run step unblockedStart (handledCall ++ [.credit, .release, .leave]) = some final ∧
      final.localDelay = 10 ∧ final.globalDelay = 5 :=
  ⟨_, rfl, rfl, rfl⟩

end Blocking

end Mcoz.Profiler
