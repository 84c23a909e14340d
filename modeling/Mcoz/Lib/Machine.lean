/-
Runs of a partial step function.

A machine is a function `step : σ → α → Option σ`: the action carries every choice of the
environment, `none` means that the action is not enabled. This module has what a development over
such a machine needs and names no particular one:

* `run`, its append laws and the induction over the history of a run (`run_history`);
* `Along`, a guard met by every step of a run, and the invariant rule under it
  (`invariant_along`);
* `trace`, the observations that the steps of a run make, in order;
* `simulate`: if every step is matched by the run of its observations in a second machine, then
  every run is matched by the run of its trace.
-/

import Mathlib.Data.List.Induction

set_option autoImplicit false

namespace Machine

variable {σ τ α β : Type*}

/-! ### Runs -/

/-- The state after the actions, in order; `none` if one of them is not enabled. -/
def run (step : σ → α → Option σ) : σ → List α → Option σ
  | state, [] => some state
  | state, action :: rest => (step state action).bind fun next => run step next rest

section Run

variable {step : σ → α → Option σ}

@[simp] theorem run_nil (state : σ) : run step state [] = some state := rfl

theorem run_cons (state : σ) (action : α) (rest : List α) :
    run step state (action :: rest) = (step state action).bind fun next => run step next rest := rfl

theorem run_cons_of {state next : σ} {action : α} {rest : List α}
    (moved : step state action = some next) :
    run step state (action :: rest) = run step next rest := by
  rw [run_cons, moved, Option.bind_some]

theorem run_cons_iff {state final : σ} {action : α} {rest : List α} :
    run step state (action :: rest) = some final ↔
      ∃ next, step state action = some next ∧ run step next rest = some final := by
  rw [run_cons, Option.bind_eq_some_iff]

/-- A run of two lists of actions passes through the state between them. -/
theorem run_append (state : σ) (first second : List α) :
    run step state (first ++ second) = (run step state first).bind fun middle =>
      run step middle second := by
  induction first generalizing state with
  | nil => rfl
  | cons action rest ih =>
      rw [List.cons_append, run_cons, run_cons, Option.bind_assoc]
      exact Option.bind_congr fun next _ => ih next

theorem run_append_iff {state final : σ} {first second : List α} :
    run step state (first ++ second) = some final ↔
      ∃ middle, run step state first = some middle ∧ run step middle second = some final := by
  rw [run_append, Option.bind_eq_some_iff]

theorem run_append_of {state middle final : σ} {first second : List α}
    (before : run step state first = some middle) (after : run step middle second = some final) :
    run step state (first ++ second) = some final :=
  run_append_iff.mpr ⟨middle, before, after⟩

theorem run_concat_iff {state final : σ} {past : List α} {action : α} :
    run step state (past ++ [action]) = some final ↔
      ∃ middle, run step state past = some middle ∧ step middle action = some final := by
  simp [run_append_iff, run_cons_iff]

/-- Induction over the history of a run: what holds at the start and is kept by every further step
holds at the end, of the whole list of actions taken. -/
theorem run_history {start : σ} {motive : List α → σ → Prop} (nil : motive [] start)
    (concat : ∀ past state action next, run step start past = some state → motive past state →
      step state action = some next → motive (past ++ [action]) next)
    {actions : List α} {final : σ} (ran : run step start actions = some final) :
    motive actions final := by
  induction actions using List.reverseRecOn generalizing final with
  | nil =>
      cases ran
      exact nil
  | append_singleton past action ih =>
      obtain ⟨middle, before, moved⟩ := run_concat_iff.mp ran
      exact concat past middle action final before (ih before) moved

end Run

/-- Some run leads from `start` to `final`. -/
def Reachable (step : σ → α → Option σ) (start final : σ) : Prop :=
  ∃ actions, run step start actions = some final

/-! ### Guards along a run -/

/-- Every step of the run meets the guard, which sees the actions before it. -/
def Guarded (step : σ → α → Option σ) (guard : List α → σ → α → Prop) (start : σ)
    (actions : List α) : Prop :=
  ∀ past action rest state, actions = past ++ action :: rest → run step start past = some state →
    guard past state action

section History

variable {step : σ → α → Option σ} {guard : List α → σ → α → Prop} {start : σ}

theorem Guarded.left {first second : List α}
    (guarded : Guarded step guard start (first ++ second)) : Guarded step guard start first := by
  intro past action rest state shape ran
  exact guarded past action (rest ++ second) state (by simp [shape]) ran

theorem guarded_nil : Guarded step guard start [] := by
  intro past action rest state shape
  simp at shape

theorem guarded_cons {action : α} {rest : List α} {next : σ} (here : guard [] start action)
    (moved : step start action = some next)
    (later : Guarded step (fun past => guard (action :: past)) next rest) :
    Guarded step guard start (action :: rest) := by
  intro past other tail state shape ran
  cases past with
  | nil =>
      cases ran
      obtain ⟨rfl, -⟩ := List.cons.inj shape
      exact here
  | cons first past =>
      obtain ⟨rfl, tailShape⟩ := List.cons.inj shape
      rw [run_cons_of moved] at ran
      exact later past other tail state tailShape ran

/-- What holds at the start and is kept by every guarded step holds at the end of a guarded run. It
is said of the actions taken and of the state they led to. -/
theorem invariant_guarded (good : List α → σ → Prop) (initial : good [] start)
    (kept : ∀ past state action next, run step start past = some state → good past state →
      guard past state action → step state action = some next → good (past ++ [action]) next)
    {actions : List α} {final : σ} (guarded : Guarded step guard start actions)
    (ran : run step start actions = some final) : good actions final := by
  suffices both : Guarded step guard start actions → good actions final from both guarded
  refine run_history (motive := fun past state => Guarded step guard start past → good past state)
    (fun _ => initial) ?_ ran
  intro past state action next before ih moved guarded
  exact kept past state action next before (ih guarded.left) (guarded past action [] state rfl before)
    moved

/-- One more step that meets the guard. -/
theorem Guarded.concat {past : List α} {action : α} {state : σ} (guarded : Guarded step guard start past)
    (ran : run step start past = some state) (last : guard past state action) :
    Guarded step guard start (past ++ [action]) := by
  intro before other rest middle shape there
  rcases List.eq_nil_or_concat rest with rfl | ⟨front, final, rfl⟩
  · obtain ⟨rfl, same⟩ := List.append_inj' shape rfl
    cases same
    cases ran.symm.trans there
    exact last
  · refine guarded before other front middle ?_ there
    rw [List.concat_eq_append, ← List.cons_append, ← List.append_assoc] at shape
    exact (List.append_inj' shape rfl).1

/-- If a guarded step keeps what is good, an unguarded step spoils it and no step mends it, then a run
ends well exactly if every step of it meets the guard. What is good is said of the actions taken and of
the state they led to. -/
theorem guarded_iff_history {actions : List α} {final : σ} (good spoiled : List α → σ → Prop)
    (initial : good [] start)
    (kept : ∀ past state action next, run step start past = some state → good past state →
      guard past state action → step state action = some next → good (past ++ [action]) next)
    (breaks : ∀ past state action next, run step start past = some state → good past state →
      ¬ guard past state action → step state action = some next → spoiled (past ++ [action]) next)
    (stays : ∀ past state action next, run step start past = some state → spoiled past state →
      step state action = some next → spoiled (past ++ [action]) next)
    (apart : good actions final → ¬ spoiled actions final) (ran : run step start actions = some final) :
    Guarded step guard start actions ↔ good actions final := by
  have either : (Guarded step guard start actions ∧ good actions final) ∨ spoiled actions final := by
    refine run_history (motive := fun past state =>
      (Guarded step guard start past ∧ good past state) ∨ spoiled past state)
      (Or.inl ⟨guarded_nil, initial⟩) ?_ ran
    rintro past state action next before (⟨met, fine⟩ | broken) moved
    · by_cases guarded : guard past state action
      · exact Or.inl ⟨met.concat before guarded, kept past state action next before fine guarded moved⟩
      · exact Or.inr (breaks past state action next before fine guarded moved)
    · exact Or.inr (stays past state action next before broken moved)
  constructor
  · exact fun guarded => invariant_guarded good initial kept guarded ran
  · intro well
    rcases either with ⟨met, -⟩ | broken
    · exact met
    · exact absurd broken (apart well)

end History

/-- Every step of the run is taken in a state that meets the guard for it. -/
def Along (step : σ → α → Option σ) (guard : σ → α → Prop) (start : σ) (actions : List α) : Prop :=
  ∀ past action rest state, actions = past ++ action :: rest →
    run step start past = some state → guard state action

section Guards

variable {step : σ → α → Option σ} {guard : σ → α → Prop} {start : σ}

theorem along_nil : Along step guard start [] :=
  @guarded_nil _ _ step (fun _ => guard) start

theorem Along.left {first second : List α} (met : Along step guard start (first ++ second)) :
    Along step guard start first := by
  intro past action rest state shape ran
  exact met past action (rest ++ second) state (by simp [shape]) ran

theorem Along.last {past : List α} {action : α} {state : σ}
    (met : Along step guard start (past ++ [action])) (ran : run step start past = some state) :
    guard state action :=
  met past action [] state rfl ran

/-- One more step that meets the guard. -/
theorem Along.concat {past : List α} {action : α} {state : σ}
    (met : Along step guard start past) (ran : run step start past = some state)
    (last : guard state action) : Along step guard start (past ++ [action]) :=
  @Guarded.concat _ _ step (fun _ => guard) start past action state met ran last

theorem along_of_forall (met : ∀ state action, guard state action) (actions : List α) :
    Along step guard start actions :=
  fun _ action _ state _ _ => met state action

theorem along_of_mem {actions : List α} (met : ∀ state, ∀ action ∈ actions, guard state action) :
    Along step guard start actions := by
  intro past action rest state shape _
  exact met state action (by simp [shape])

theorem Along.mono {other : σ → α → Prop} {actions : List α}
    (weaker : ∀ state action, guard state action → other state action)
    (met : Along step guard start actions) : Along step other start actions :=
  fun past action rest state shape ran => weaker _ _ (met past action rest state shape ran)

theorem Along.and {other : σ → α → Prop} {actions : List α}
    (first : Along step guard start actions) (second : Along step other start actions) :
    Along step (fun state action => guard state action ∧ other state action) start actions :=
  fun past action rest state shape ran =>
    ⟨first past action rest state shape ran, second past action rest state shape ran⟩

theorem along_cons {action : α} {rest : List α} {next : σ} (here : guard start action)
    (moved : step start action = some next) (later : Along step guard next rest) :
    Along step guard start (action :: rest) := by
  have onwards : Guarded step (fun _ => guard) next rest := later
  exact @guarded_cons _ _ step (fun _ => guard) start action rest next here moved onwards

/-- A guarded run goes on from where another ended. -/
theorem Along.append {first second : List α} (met : Along step guard start first)
    (later : ∀ middle, run step start first = some middle → Along step guard middle second) :
    Along step guard start (first ++ second) := by
  intro past action rest state shape ran
  rcases List.append_eq_append_iff.mp shape with ⟨tail, rfl, onwards⟩ | ⟨tail, whole, onwards⟩
  · obtain ⟨middle, before, after⟩ := run_append_iff.mp ran
    exact later middle before tail action rest state onwards after
  · cases tail with
    | nil =>
        rw [List.append_nil] at whole
        subst whole
        exact later state ran [] action rest state onwards.symm rfl
    | cons other tail =>
        obtain ⟨rfl, -⟩ := List.cons.inj onwards
        exact met past action tail state whole ran

/-- What the start has and every guarded step keeps, every guarded run has at its end. -/
theorem invariant_along (inv : σ → Prop) (initial : inv start)
    (kept : ∀ state action next, inv state → guard state action → step state action = some next →
      inv next)
    {actions : List α} {final : σ} (met : Along step guard start actions)
    (ran : run step start actions = some final) : inv final := by
  have guarded : Guarded step (fun _ => guard) start actions := met
  exact invariant_guarded (fun _ => inv) initial (fun _ state action next _ => kept state action next)
    guarded ran

/-- The unguarded form of `invariant_along`. -/
theorem Reachable.invariant (inv : σ → Prop) (initial : inv start)
    (kept : ∀ state action next, inv state → step state action = some next → inv next)
    {final : σ} (reached : Reachable step start final) : inv final := by
  obtain ⟨actions, ran⟩ := reached
  have free : Along step (fun _ _ => True) start actions :=
    along_of_forall (fun _ _ => trivial) actions
  exact invariant_along inv initial
    (fun state action next holds _ moved => kept state action next holds moved) free ran

/-- `guarded_iff_history`, for a guard that does not see the actions. -/
theorem along_iff_history {actions : List α} {final : σ} (good spoiled : List α → σ → Prop)
    (initial : good [] start)
    (kept : ∀ past state action next, run step start past = some state → good past state →
      guard state action → step state action = some next → good (past ++ [action]) next)
    (breaks : ∀ past state action next, run step start past = some state → good past state →
      ¬ guard state action → step state action = some next → spoiled (past ++ [action]) next)
    (stays : ∀ past state action next, run step start past = some state → spoiled past state →
      step state action = some next → spoiled (past ++ [action]) next)
    (apart : good actions final → ¬ spoiled actions final) (ran : run step start actions = some final) :
    Along step guard start actions ↔ good actions final :=
  @guarded_iff_history _ _ step (fun _ => guard) start actions final good spoiled initial kept breaks stays apart ran

/-- The form of `along_iff_history` for properties of the state alone, with an invariant. -/
theorem along_iff_final (inv good spoiled : σ → Prop) (initial : inv start ∧ good start)
    (sound : ∀ state action next, inv state → step state action = some next → inv next)
    (kept : ∀ state action next, inv state → good state → guard state action →
      step state action = some next → good next)
    (breaks : ∀ state action next, inv state → good state → ¬ guard state action →
      step state action = some next → spoiled next)
    (stays : ∀ state action next, spoiled state → step state action = some next → spoiled next)
    (apart : ∀ state, good state → ¬ spoiled state)
    {actions : List α} {final : σ} (ran : run step start actions = some final) :
    Along step guard start actions ↔ good final := by
  have holds : ∀ {past : List α} {state : σ}, run step start past = some state → inv state :=
    fun ran => Reachable.invariant inv initial.1 sound ⟨_, ran⟩
  exact along_iff_history (fun _ => good) (fun _ => spoiled) initial.2
    (fun _ state action next before => kept state action next (holds before))
    (fun _ state action next before => breaks state action next (holds before))
    (fun _ state action next _ => stays state action next)
    (apart final) ran

end Guards

/-! ### Counted steps -/

/-- If no step raises a rank and the counted ones lower it, then a run has no more counted steps than
the rank allows. -/
theorem countP_le_rank {step : σ → α → Option σ} {inv : σ → Prop} {counted : α → Bool}
    {rank : σ → ℕ}
    (each : ∀ state action next, inv state → step state action = some next →
      inv next ∧ (if counted action then 1 else 0) + rank next ≤ rank state)
    {start final : σ} {actions : List α} (initial : inv start)
    (ran : run step start actions = some final) :
    actions.countP counted + rank final ≤ rank start := by
  induction actions generalizing start with
  | nil =>
      cases ran
      simp
  | cons action rest ih =>
      obtain ⟨next, moved, later⟩ := run_cons_iff.mp ran
      obtain ⟨holds, lower⟩ := each start action next initial moved
      have onwards := ih holds later
      rw [List.countP_cons]
      omega

/-! ### Properties of every state of a run -/

/-- Every state that the run passes is good, together with the actions that led to it. -/
def Throughout (step : σ → α → Option σ) (good : List α → σ → Prop) (start : σ)
    (actions : List α) : Prop :=
  ∀ past rest state, actions = past ++ rest → run step start past = some state → good past state

section Throughout

variable {step : σ → α → Option σ} {good : List α → σ → Prop} {guard : List α → σ → α → Prop}
  {start : σ}

/-- If a step that meets the guard leads from a good state to a good state, then a run whose steps all meet the
guard passes good states only. -/
theorem throughout_of_guarded (initial : good [] start)
    (each : ∀ past state action next, run step start past = some state → good past state →
      guard past state action → step state action = some next → good (past ++ [action]) next)
    {actions : List α} (guarded : Guarded step guard start actions) : Throughout step good start actions := by
  intro past rest state shape before
  rw [shape] at guarded
  exact invariant_guarded good initial each guarded.left before

/-- If only a step that meets the guard leads from a good state to a good state, then in a run that passes good
states only every step meets the guard. -/
theorem guarded_of_throughout
    (each : ∀ past state action next, run step start past = some state → good past state →
      step state action = some next → good (past ++ [action]) next → guard past state action)
    {actions : List α} {final : σ} (ran : run step start actions = some final)
    (throughout : Throughout step good start actions) : Guarded step guard start actions := by
  intro past action rest state shape before
  rw [shape] at ran
  obtain ⟨middle, there, onwards⟩ := run_append_iff.mp ran
  cases before.symm.trans there
  obtain ⟨next, moved, -⟩ := run_cons_iff.mp onwards
  refine each past state action next before (throughout past _ state shape before) moved ?_
  exact throughout _ rest next (by simp [shape]) (run_concat_iff.mpr ⟨state, before, moved⟩)

/-- If a step from a good state leads to a good state exactly if it meets the guard, then a run
passes good states only exactly if every step of it meets the guard. -/
theorem throughout_iff (initial : good [] start)
    (each : ∀ past state action next, run step start past = some state → good past state →
      step state action = some next → (good (past ++ [action]) next ↔ guard past state action))
    {actions : List α} {final : σ} (ran : run step start actions = some final) :
    Throughout step good start actions ↔ Guarded step guard start actions :=
  ⟨guarded_of_throughout
      (fun past state action next before fine moved => (each past state action next before fine moved).mp) ran,
    throughout_of_guarded initial fun past state action next before fine meets moved =>
      (each past state action next before fine moved).mpr meets⟩

/-- The same, with an invariant that is kept as long as the states are good. -/
theorem throughout_iff_of_invariant {inv : List α → σ → Prop} (initial : inv [] start ∧ good [] start)
    (kept : ∀ past state action next, run step start past = some state → inv past state → good past state →
      step state action = some next → inv (past ++ [action]) next)
    (each : ∀ past state action next, run step start past = some state → inv past state → good past state →
      step state action = some next → (good (past ++ [action]) next ↔ guard past state action))
    {actions : List α} {final : σ} (ran : run step start actions = some final) :
    Throughout step good start actions ↔ Guarded step guard start actions := by
  have both : Throughout step (fun past state => inv past state ∧ good past state) start actions ↔
      Guarded step guard start actions := by
    refine throughout_iff initial ?_ ran
    intro past state action next before fine moved
    rw [← each past state action next before fine.1 fine.2 moved]
    exact and_iff_right (kept past state action next before fine.1 fine.2 moved)
  rw [← both]
  constructor
  · intro throughout past rest state shape before
    refine ⟨?_, throughout past rest state shape before⟩
    suffices held : (∃ rest, actions = past ++ rest) → inv past state from held ⟨rest, shape⟩
    refine run_history (motive := fun past state => (∃ rest, actions = past ++ rest) → inv past state)
      (fun _ => initial.1) ?_ before
    rintro past state action next ran' ih moved ⟨rest, shape⟩
    have shape' : actions = past ++ (action :: rest) := by rw [shape, List.append_assoc]; rfl
    exact kept past state action next ran' (ih ⟨_, shape'⟩) (throughout past _ state shape' ran') moved
  · exact fun throughout past rest state shape before => (throughout past rest state shape before).2

/-- What holds throughout a run holds before and after each of its steps. -/
theorem Throughout.along {holds : σ → Prop} {actions : List α}
    (throughout : Throughout step (fun _ state => holds state) start actions) :
    Along step (fun state action => holds state ∧
      ∀ next, step state action = some next → holds next) start actions := by
  intro past action rest state shape ran
  refine ⟨throughout past (action :: rest) state shape ran, fun next moved => ?_⟩
  exact throughout (past ++ [action]) rest next (by simp [shape])
    (run_concat_iff.mpr ⟨state, ran, moved⟩)

/-- The states that the run passes. -/
def visited (step : σ → α → Option σ) : σ → List α → List σ
  | state, [] => [state]
  | state, action :: rest =>
      state :: ((step state action).map fun next => visited step next rest).getD []

/-- A check of every state that the run passes. -/
theorem throughout_of_visited {holds : σ → Prop} {actions : List α}
    (each : ∀ state ∈ visited step start actions, holds state) :
    Throughout step (fun _ state => holds state) start actions := by
  intro past rest state shape ran
  induction past generalizing start actions with
  | nil =>
      cases ran
      refine each _ ?_
      cases actions <;> simp [visited]
  | cons action past ih =>
      obtain ⟨next, moved, onwards⟩ := run_cons_iff.mp ran
      subst shape
      refine ih (fun later member => each later ?_) rfl onwards
      simp only [List.cons_append, visited, moved, Option.map_some, Option.getD_some]
      exact List.mem_cons_of_mem _ member

end Throughout

/-! ### Observations -/

/-- The observations made by the steps of a run, in order. -/
def trace (step : σ → α → Option σ) (observe : σ → α → List β) : σ → List α → List β
  | _, [] => []
  | state, action :: rest => observe state action ++
      ((step state action).map fun next => trace step observe next rest).getD []

section Trace

variable {step : σ → α → Option σ} {observe : σ → α → List β}

@[simp] theorem trace_nil (state : σ) : trace step observe state [] = [] := rfl

/-- A single step. -/
theorem trace_one (state : σ) (action : α) :
    trace step observe state [action] = observe state action := by
  cases moved : step state action <;> simp [trace, moved]

theorem trace_append {state middle : σ} {first : List α}
    (ran : run step state first = some middle) (second : List α) :
    trace step observe state (first ++ second) =
      trace step observe state first ++ trace step observe middle second := by
  induction first generalizing state with
  | nil =>
      cases ran
      rfl
  | cons action rest ih =>
      obtain ⟨next, moved, later⟩ := run_cons_iff.mp ran
      simp only [List.cons_append, trace, moved, Option.map_some, Option.getD_some, ih later,
        List.append_assoc]

/-- Observations that do not depend on the state. -/
theorem trace_flatMap {observe : α → List β} {state final : σ} {actions : List α}
    (ran : run step state actions = some final) :
    trace step (fun _ => observe) state actions = actions.flatMap observe := by
  induction actions generalizing state with
  | nil => rfl
  | cons action rest ih =>
      obtain ⟨next, moved, later⟩ := run_cons_iff.mp ran
      simp only [trace, moved, Option.map_some, Option.getD_some, ih later, List.flatMap_cons]

/-- One more step adds its own observations. -/
theorem trace_concat {state middle : σ} {past : List α} (ran : run step state past = some middle)
    (action : α) :
    trace step observe state (past ++ [action]) =
      trace step observe state past ++ observe middle action := by
  rw [trace_append ran, trace_one]

variable (step observe) in
/-- The observations of the first steps are the first observations. -/
theorem trace_prefix (state : σ) {first second : List α} (within : first <+: second) :
    trace step observe state first <+: trace step observe state second := by
  obtain ⟨rest, rfl⟩ := within
  induction first generalizing state with
  | nil => exact List.nil_prefix
  | cons action first ih =>
      simp only [List.cons_append, trace, List.prefix_append_right_inj]
      cases step state action with
      | none => exact List.nil_prefix
      | some next => exact ih next

/-- A function of every observation. -/
theorem trace_map {γ : Type*} (f : β → γ) (state : σ) (actions : List α) :
    trace step (fun state action => (observe state action).map f) state actions =
      (trace step observe state actions).map f := by
  induction actions generalizing state with
  | nil => rfl
  | cons action rest ih =>
      cases moved : step state action with
      | none => simp [trace, moved]
      | some next => simp [trace, moved, ih]

/-- A guard that can be decided is met if a check of every step says so. -/
theorem along_of_trace {guard : σ → α → Prop} [∀ state action, Decidable (guard state action)] {start : σ}
    {actions : List α}
    (met : (trace step (fun state action => [decide (guard state action)]) start actions).all id = true) :
    Along step guard start actions := by
  rintro past action rest state rfl ran
  rw [trace_append ran, List.all_append, Bool.and_eq_true] at met
  have here := met.2
  rw [trace, List.all_append, Bool.and_eq_true, List.all_cons, List.all_nil, Bool.and_true] at here
  exact of_decide_eq_true here.1

/-- What every step observes satisfies what every observation of its steps satisfies. -/
theorem trace_forall {good : β → Prop}
    (each : ∀ state action, ∀ seen ∈ observe state action, good seen) (state : σ)
    (actions : List α) : ∀ seen ∈ trace step observe state actions, good seen := by
  induction actions generalizing state with
  | nil => simp
  | cons action rest ih =>
      intro seen member
      rcases List.mem_append.mp member with here | later
      · exact each state action seen here
      · cases moved : step state action with
        | none => simp [moved] at later
        | some next =>
            simp only [moved, Option.map_some, Option.getD_some] at later
            exact ih next seen later

/-- If every step that does not observe the target lowers a rank by the number of its observations,
then a run observes the target or no more than the rank allows. -/
theorem target_or_ranked {guard : σ → α → Prop} {ranked : σ → ℕ → Prop} {target : β}
    (each : ∀ state action next rank, guard state action → ranked state rank → step state action = some next →
      target ∈ observe state action ∨
        ∃ rest, (observe state action).length + rest ≤ rank ∧ ranked next rest)
    {start final : σ} {rank : ℕ} (begun : ranked start rank) {actions : List α} (met : Along step guard start actions)
    (ran : run step start actions = some final) :
    target ∈ trace step observe start actions ∨
      ∃ rest, (trace step observe start actions).length + rest ≤ rank ∧ ranked final rest := by
  suffices both : Along step guard start actions →
      target ∈ trace step observe start actions ∨
        ∃ rest, (trace step observe start actions).length + rest ≤ rank ∧ ranked final rest from both met
  refine run_history (motive := fun past state => Along step guard start past →
    target ∈ trace step observe start past ∨
      ∃ rest, (trace step observe start past).length + rest ≤ rank ∧ ranked state rest)
    (fun _ => Or.inr ⟨rank, by simp, begun⟩) ?_ ran
  intro past state action next before ih moved guarded
  rw [trace_concat before, List.mem_append, List.length_append]
  rcases ih guarded.left with earlier | ⟨rest, few, now⟩
  · exact Or.inl (Or.inl earlier)
  · rcases each state action next rest (guarded.last before) now moved with here | ⟨left, fewer, later⟩
    · exact Or.inl (Or.inr here)
    · exact Or.inr ⟨left, by omega, later⟩

/-- A run is matched, observation by observation, by a run of a second machine. -/
theorem simulate {other : τ → β → Option τ} {view : σ → τ} {inv : σ → Prop}
    {guard : σ → α → Prop} {start : σ} (initial : inv start)
    (kept : ∀ state action next, inv state → guard state action → step state action = some next →
      inv next)
    (matched : ∀ state action next, inv state → guard state action →
      step state action = some next → run other (view state) (observe state action) =
        some (view next))
    {actions : List α} {final : σ} (met : Along step guard start actions)
    (ran : run step start actions = some final) :
    run other (view start) (trace step observe start actions) = some (view final) := by
  suffices both : Along step guard start actions →
      run other (view start) (trace step observe start actions) = some (view final) from both met
  refine run_history (motive := fun past state => Along step guard start past →
    run other (view start) (trace step observe start past) = some (view state))
    (fun _ => rfl) ?_ ran
  intro past state action next before ih moved guarded
  rw [trace_concat before]
  exact run_append_of (ih guarded.left)
    (matched state action next (invariant_along inv initial kept guarded.left before)
      (guarded.last before) moved)

end Trace

/-! ### Runs in step -/

/-- Runs of the same actions, from states that are related, stay related, and the second can go as far as the first. -/
theorem lockstep {step : σ → α → Option σ} {other : τ → α → Option τ} {related : σ → τ → Prop}
    (each : ∀ left right action next, related left right → step left action = some next →
      ∃ next', other right action = some next' ∧ related next next')
    {actions : List α} {left final : σ} {right : τ} (start : related left right)
    (ran : actions.foldlM step left = some final) :
    ∃ final', actions.foldlM other right = some final' ∧ related final final' := by
  induction actions generalizing left right with
  | nil =>
      cases ran
      exact ⟨right, rfl, start⟩
  | cons action rest ih =>
      rw [List.foldlM_cons] at ran
      obtain ⟨next, moved, later⟩ := Option.bind_eq_some_iff.mp ran
      obtain ⟨next', moved', related'⟩ := each left right action next start moved
      obtain ⟨final', ran', same⟩ := ih related' later
      refine ⟨final', ?_, same⟩
      rw [List.foldlM_cons, moved']
      exact ran'

end Machine
