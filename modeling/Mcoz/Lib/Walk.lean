/-
The way of one thread.

A thread's deeds are the sections that it ran, each with the state that it found, and the calls that it
made, each with the answer. `Program.Walk` says that a program can go a way to a value, whatever the other
threads do in between; `walk_of_run` reads the way of a thread off a run of the pool.
-/

import Mcoz.Lib.Threads

set_option autoImplicit false

namespace Threads

open Machine

variable {σ Section Call Job α β : Type} {Answer : Call → Type}

/-- What a thread does: run a section in a state, or take the answer to a call. -/
inductive Deed (σ Section Call : Type) (Answer : Call → Type)
  | ran (code : Section) (found : σ)
  | asked (request : Call) (answer : Answer request)

namespace Program

/-- The program can do these deeds, in their order, and end with this value. -/
def Walk : Program σ Section Call Answer α → List (Deed σ Section Call Answer) → α → Prop
  | done value, deeds, result => deeds = [] ∧ result = value
  | failed, _, _ => False
  | critical code next, deeds, result => ∃ state later, deeds = .ran code state :: later ∧
      (next state).Walk later result
  | call request next, deeds, result => ∃ answer later, deeds = .asked request answer :: later ∧
      (next answer).Walk later result

variable {first : Program σ Section Call Answer α} {second : α → Program σ Section Call Answer β}
  {deeds : List (Deed σ Section Call Answer)} {result : β}

theorem walk_pure {value : α} {ended : α} :
    (pure value : Program σ Section Call Answer α).Walk deeds ended ↔ deeds = [] ∧ ended = value :=
  Iff.rfl

theorem walk_perform {code : Section} {read : σ → α} {ended : α} :
    (perform code read : Program σ Section Call Answer α).Walk deeds ended ↔
      ∃ state, deeds = [.ran code state] ∧ ended = read state := by
  constructor
  · rintro ⟨state, later, rfl, rfl, rfl⟩
    exact ⟨state, rfl, rfl⟩
  · rintro ⟨state, rfl, rfl⟩
    exact ⟨state, [], rfl, rfl, rfl⟩

theorem walk_ask {request : Call} {ended : Answer request} :
    (ask request : Program σ Section Call Answer (Answer request)).Walk deeds ended ↔
      deeds = [.asked request ended] := by
  constructor
  · rintro ⟨answer, later, rfl, rfl, rfl⟩
    rfl
  · rintro rfl
    exact ⟨ended, [], rfl, rfl, rfl⟩

/-- The way through a composition is the way through its first part and then through its second. -/
theorem walk_bind : (first >>= second).Walk deeds result ↔ ∃ before middle after,
    deeds = before ++ after ∧ first.Walk before middle ∧ (second middle).Walk after result := by
  show (bind first second).Walk deeds result ↔ _
  induction first generalizing deeds with
  | done value =>
      constructor
      · intro walk
        exact ⟨[], value, deeds, rfl, ⟨rfl, rfl⟩, walk⟩
      · rintro ⟨_, _, after, rfl, ⟨rfl, rfl⟩, walk⟩
        exact walk
  | failed => exact iff_of_false id fun ⟨_, _, _, _, walk, _⟩ => walk
  | critical code next ih =>
      constructor
      · rintro ⟨state, later, rfl, walk⟩
        obtain ⟨before, middle, after, rfl, front, back⟩ := (ih state).mp walk
        exact ⟨_, middle, after, rfl, ⟨state, before, rfl, front⟩, back⟩
      · rintro ⟨_, middle, after, rfl, ⟨state, before, rfl, front⟩, back⟩
        exact ⟨state, before ++ after, rfl, (ih state).mpr ⟨before, middle, after, rfl, front, back⟩⟩
  | call request next ih =>
      constructor
      · rintro ⟨answer, later, rfl, walk⟩
        obtain ⟨before, middle, after, rfl, front, back⟩ := (ih answer).mp walk
        exact ⟨_, middle, after, rfl, ⟨answer, before, rfl, front⟩, back⟩
      · rintro ⟨_, middle, after, rfl, ⟨answer, before, rfl, front⟩, back⟩
        exact ⟨answer, before ++ after, rfl, (ih answer).mpr ⟨before, middle, after, rfl, front, back⟩⟩

end Program

namespace Pool

open Program

/-- The value of a thread that has gone through its program. -/
def value (thread : ℕ) (pool : Pool σ Section Call Answer α) : Option α :=
  match pool.threads thread with
  | some (.done value) => some value
  | _ => none

theorem threads_of_value {thread : ℕ} {pool : Pool σ Section Call Answer α} {ended : α}
    (here : pool.value thread = some ended) : pool.threads thread = some (.done ended) := by
  unfold value at here
  split at here
  · rename_i held
    rw [held, Option.some.inj here]
  · cases here

/-- What a step does for the thread. -/
def deeds (thread : ℕ) (pool : Pool σ Section Call Answer α) :
    Move Job Call Answer → List (Deed σ Section Call Answer)
  | .critical runner =>
      match pool.threads runner with
      | some (.critical code _) => if runner = thread then [.ran code pool.shared] else []
      | _ => []
  | .answer runner reply =>
      match pool.threads runner with
      | some (.call request _) => if runner = thread then [.asked request (reply request)] else []
      | _ => []
  | _ => []

variable {apply : Section → σ → σ} {start : ℕ → Job → Option (Program σ Section Call Answer α)}
  {pool next final : Pool σ Section Call Answer α} {move : Move Job Call Answer}
  {moves : List (Move Job Call Answer)} {thread : ℕ} {program rest : Program σ Section Call Answer α}

/-- A step of a thread in a program leaves it on a way of the program. -/
theorem walk_of_step (here : pool.threads thread = some program)
    (moved : Pool.step apply start pool move = some next) (busy : move ≠ .finish thread) :
    ∃ rest, next.threads thread = some rest ∧ ∀ later value, rest.Walk later value →
      program.Walk (pool.deeds thread move ++ later) value := by
  have others : ∀ {other : ℕ} {program' : Option (Program σ Section Call Answer α)} (shared : σ),
      other ≠ thread → Pool.threads { (pool.resume other program') with shared := shared } thread =
        some program := by
    intro other program' shared apart
    simpa [Pool.resume, Function.update_of_ne apart.symm] using here
  cases effect_of_step moved with
  | @started runner job _ free begun =>
      have apart : runner ≠ thread := by
        rintro rfl
        cases here.symm.trans free
      exact ⟨program, others pool.shared apart, fun later value walk => walk⟩
  | @ran runner code rest held =>
      by_cases same : runner = thread
      · subst same
        cases here.symm.trans held
        refine ⟨rest pool.shared, Function.update_self .., fun later value walk => ?_⟩
        simp only [deeds, held, if_pos]
        exact ⟨pool.shared, later, rfl, walk⟩
      · refine ⟨program, others (apply code pool.shared) same, fun later value walk => ?_⟩
        simpa only [deeds, held, if_neg same, List.nil_append] using walk
  | @answered runner reply request rest held =>
      by_cases same : runner = thread
      · subst same
        cases here.symm.trans held
        refine ⟨rest (reply request), Function.update_self .., fun later value walk => ?_⟩
        simp only [deeds, held, if_pos]
        exact ⟨reply request, later, rfl, walk⟩
      · refine ⟨program, others pool.shared same, fun later value walk => ?_⟩
        simpa only [deeds, held, if_neg same, List.nil_append] using walk
  | @finished runner value held =>
      have apart : runner ≠ thread := fun same => busy (by rw [same])
      exact ⟨program, others pool.shared apart, fun later value walk => walk⟩

/-- A thread that went through a program in a run went a way of the program. -/
theorem walk_of_run {value : α} (here : pool.threads thread = some program)
    (ran : run (Pool.step apply start) pool moves = some final)
    (busy : Move.finish thread ∉ moves) (ended : final.threads thread = some (.done value)) :
    program.Walk (trace (Pool.step apply start) (Pool.deeds thread) pool moves) value := by
  induction moves generalizing pool program with
  | nil =>
      cases ran
      cases here.symm.trans ended
      exact ⟨rfl, rfl⟩
  | cons move moves ih =>
      obtain ⟨next, moved, later⟩ := run_cons_iff.mp ran
      obtain ⟨here', others⟩ := not_or.mp (List.mem_cons.not.mp busy)
      obtain ⟨rest, now, walk⟩ := walk_of_step here moved fun same => here' same.symm
      simp only [trace, moved, Option.map_some, Option.getD_some]
      exact walk _ value (ih now later others)

end Pool

end Threads
