/-
Threads that share a state under one lock.

A thread runs a `Program`: a tree of critical sections, of calls whose answer comes from outside, and
of a final value, or of a failure, which ends the thread for good. A section is a piece of data, `apply` says what it does to the shared state, and the
rest of the program sees the state that the section found. A `Pool` is a shared state and its threads;
its steps interleave the nodes of their programs in any order.

* `Program.Only`, a property of every section that a program can run and of every call that it can
  make, with its rule for `bind`;
* `sections`, what a step runs, and `shared_of_run`: the shared state is the result of the sections
  that were run, in their order;
* `only_of_run`: what every started program's sections satisfy, every section run satisfies;
* `Program.Covers`, the credit of a thread: calls earn, sections spend, and the credit stays enough;
  `Program.Pays`, a program that earns what it spends; `Pool.Solvent.step`: a pool of such threads
  spends no more than it earned.
-/

import Mcoz.Lib.Machine
import Mathlib.Algebra.BigOperators.Finsupp.Basic
import Mathlib.Algebra.Order.BigOperators.Group.Finset
import Mathlib.Algebra.Order.Group.Int
import Mathlib.Logic.Function.Basic

set_option autoImplicit false

namespace Threads

open Machine

variable {σ Section Call Job α β : Type} {Answer : Call → Type}

/-! ### Programs -/

/-- What a thread has still to do. -/
inductive Program (σ Section Call : Type) (Answer : Call → Type) (α : Type)
  | done (value : α)
  | failed
  | critical (code : Section) (next : σ → Program σ Section Call Answer α)
  | call (request : Call) (next : Answer request → Program σ Section Call Answer α)

namespace Program

/-- The program ended with an exception. -/
def hasFailed : Program σ Section Call Answer α → Bool
  | failed => true
  | _ => false

theorem hasFailed_iff {program : Program σ Section Call Answer α} : program.hasFailed = true ↔ program = failed := by
  cases program <;> simp [hasFailed]

/-- Sequential composition. -/
def bind (first : Program σ Section Call Answer α)
    (second : α → Program σ Section Call Answer β) : Program σ Section Call Answer β :=
  match first with
  | done value => second value
  | failed => failed
  | critical code next => critical code fun state => (next state).bind second
  | call request next => call request fun answer => (next answer).bind second

instance : Monad (Program σ Section Call Answer) where
  pure := done
  bind := bind

/-- Run a section and read a value in it. -/
def perform (code : Section) (result : σ → α) : Program σ Section Call Answer α :=
  critical code fun state => done (result state)

/-- Make a call and take its answer. -/
def ask (request : Call) : Program σ Section Call Answer (Answer request) :=
  call request done

/-- Every section that the program can run is good, and so is every call that it can make. -/
def Only (good : Section → Prop) (asks : Call → Prop) : Program σ Section Call Answer α → Prop
  | done _ => True
  | failed => True
  | critical code next => good code ∧ ∀ state, (next state).Only good asks
  | call request next => asks request ∧ ∀ answer, (next answer).Only good asks

section Only

variable {good : Section → Prop} {asks : Call → Prop} {first : Program σ Section Call Answer α}
  {second : α → Program σ Section Call Answer β}

theorem only_perform {code : Section} {result : σ → α} (holds : good code) :
    (perform code result : Program σ Section Call Answer α).Only good asks :=
  ⟨holds, fun _ => trivial⟩

theorem only_ask {request : Call} (holds : asks request) :
    (ask request : Program σ Section Call Answer (Answer request)).Only good asks :=
  ⟨holds, fun _ => trivial⟩

/-- The sections and the calls of a composition are those of its parts. -/
theorem only_bind (left : first.Only good asks) (right : ∀ value, (second value).Only good asks) :
    (first >>= second).Only good asks := by
  show (bind first second).Only good asks
  induction first with
  | done value => exact right value
  | failed => trivial
  | critical code next ih => exact ⟨left.1, fun state => ih state (left.2 state)⟩
  | call request next ih => exact ⟨left.1, fun answer => ih answer (left.2 answer)⟩

end Only

end Program

/-! ### Pools -/

/-- A shared state and the threads that run on it. -/
structure Pool (σ Section Call : Type) (Answer : Call → Type) (α : Type) where
  shared : σ
  threads : ℕ → Option (Program σ Section Call Answer α)

/-- A pool without a thread. -/
def Pool.init (shared : σ) : Pool σ Section Call Answer α :=
  ⟨shared, fun _ => none⟩

/-- A step: start a job in a free thread, run a section, take an answer, or end with a value. -/
inductive Move (Job Call : Type) (Answer : Call → Type)
  | start (thread : ℕ) (job : Job)
  | critical (thread : ℕ)
  | answer (thread : ℕ) (reply : (request : Call) → Answer request)
  | finish (thread : ℕ)

namespace Pool

/-- The pool after one thread went on. -/
def resume (pool : Pool σ Section Call Answer α) (thread : ℕ)
    (program : Option (Program σ Section Call Answer α)) : Pool σ Section Call Answer α :=
  { pool with threads := Function.update pool.threads thread program }

/-- One step of a pool. `start thread job` is the program of a job, if the thread may run it. -/
def step (apply : Section → σ → σ)
    (start : ℕ → Job → Option (Program σ Section Call Answer α))
    (pool : Pool σ Section Call Answer α) :
    Move Job Call Answer → Option (Pool σ Section Call Answer α)
  | .start thread job =>
      match pool.threads thread with
      | none => (start thread job).map fun program => pool.resume thread (some program)
      | some _ => none
  | .critical thread =>
      match pool.threads thread with
      | some (.critical code next) =>
          some { (pool.resume thread (some (next pool.shared))) with
            shared := apply code pool.shared }
      | _ => none
  | .answer thread reply =>
      match pool.threads thread with
      | some (.call request next) => some (pool.resume thread (some (next (reply request))))
      | _ => none
  | .finish thread =>
      match pool.threads thread with
      | some (.done _) => some (pool.resume thread none)
      | _ => none

/-- The section that a step runs. -/
def sections (pool : Pool σ Section Call Answer α) : Move Job Call Answer → List Section
  | .critical thread =>
      match pool.threads thread with
      | some (.critical code _) => [code]
      | _ => []
  | _ => []

/-- The value that a step returns. -/
def results (pool : Pool σ Section Call Answer α) : Move Job Call Answer → List α
  | .finish thread =>
      match pool.threads thread with
      | some (.done value) => [value]
      | _ => []
  | _ => []

section Runs

variable {apply : Section → σ → σ} {start : ℕ → Job → Option (Program σ Section Call Answer α)}
  {pool next final : Pool σ Section Call Answer α} {move : Move Job Call Answer}
  {moves : List (Move Job Call Answer)} {good : Section → Prop} {asks : Call → Prop}

/-- The step that ran. -/
inductive Effect (apply : Section → σ → σ)
    (start : ℕ → Job → Option (Program σ Section Call Answer α))
    (pool : Pool σ Section Call Answer α) :
    Move Job Call Answer → Pool σ Section Call Answer α → Prop
  | started {thread : ℕ} {job : Job} {program : Program σ Section Call Answer α}
      (free : pool.threads thread = none) (begun : start thread job = some program) :
      Effect apply start pool (.start thread job) (pool.resume thread (some program))
  | ran {thread : ℕ} {code : Section} {rest : σ → Program σ Section Call Answer α}
      (here : pool.threads thread = some (.critical code rest)) :
      Effect apply start pool (.critical thread)
        { (pool.resume thread (some (rest pool.shared))) with shared := apply code pool.shared }
  | answered {thread : ℕ} {reply : (request : Call) → Answer request} {request : Call}
      {rest : Answer request → Program σ Section Call Answer α}
      (here : pool.threads thread = some (.call request rest)) :
      Effect apply start pool (.answer thread reply)
        (pool.resume thread (some (rest (reply request))))
  | finished {thread : ℕ} {value : α} (here : pool.threads thread = some (.done value)) :
      Effect apply start pool (.finish thread) (pool.resume thread none)

theorem effect_of_step (moved : step apply start pool move = some next) :
    Effect apply start pool move next := by
  revert moved
  fun_cases step apply start pool move with
  | case1 thread job free =>
      intro moved
      obtain ⟨program, begun, rfl⟩ := Option.map_eq_some_iff.mp moved
      exact .started free begun
  | case3 thread code rest here =>
      rintro ⟨⟩
      exact .ran here
  | case5 thread reply request rest here =>
      rintro ⟨⟩
      exact .answered here
  | case7 thread value here =>
      rintro ⟨⟩
      exact .finished here
  | _ => simp

/-- A step applies the section that it runs, and nothing else, to the shared state. -/
theorem shared_of_step (moved : step apply start pool move = some next) :
    next.shared = (pool.sections move).foldl (fun state code => apply code state) pool.shared := by
  cases effect_of_step moved with
  | ran here => simp [sections, here]
  | _ => rfl

/-- The shared state after a run is the result of the sections that it ran. -/
theorem shared_of_run (ran : run (step apply start) pool moves = some final) :
    final.shared = (trace (step apply start) sections pool moves).foldl
      (fun state code => apply code state) pool.shared := by
  refine run_history (motive := fun past reached => reached.shared =
    (trace (step apply start) sections pool past).foldl (fun state code => apply code state)
      pool.shared) rfl ?_ ran
  intro past state move next before ih moved
  rw [trace_concat before, List.foldl_append, ← ih]
  exact shared_of_step moved

/-- The sections that every thread can still run are good, and the calls that it can make. -/
def Only (good : Section → Prop) (asks : Call → Prop)
    (pool : Pool σ Section Call Answer α) : Prop :=
  ∀ thread program, pool.threads thread = some program → program.Only good asks

theorem Only.resume (only : pool.Only good asks) {thread : ℕ}
    {program : Option (Program σ Section Call Answer α)}
    (later : ∀ rest, program = some rest → rest.Only good asks) : (pool.resume thread program).Only good asks := by
  intro other rest here
  by_cases same : other = thread
  · subst same
    exact later rest (by simpa [Pool.resume] using here)
  · simp only [Pool.resume, Function.update_of_ne same] at here
    exact only other rest here

theorem Only.step (begun : ∀ thread job program, start thread job = some program →
    program.Only good asks) (only : pool.Only good asks) (moved : step apply start pool move = some next) :
    next.Only good asks := by
  cases effect_of_step moved with
  | started free here =>
      refine only.resume ?_
      rintro rest ⟨⟩
      exact begun _ _ _ here
  | ran here =>
      refine Only.resume only ?_
      rintro rest ⟨⟩
      exact (only _ _ here).2 _
  | answered here =>
      refine only.resume ?_
      rintro rest ⟨⟩
      exact (only _ _ here).2 _
  | finished here => exact only.resume nofun

/-- The sections that a run executes are good, if those of every job's program are. -/
theorem only_of_run (begun : ∀ thread job program, start thread job = some program →
    program.Only good asks) (only : pool.Only good asks) (ran : run (Pool.step apply start) pool moves = some final) :
    final.Only good asks ∧
      ∀ code ∈ trace (Pool.step apply start) sections pool moves, good code := by
  refine run_history (motive := fun past reached => reached.Only good asks ∧
    ∀ code ∈ trace (Pool.step apply start) sections pool past, good code)
    ⟨only, by simp⟩ ?_ ran
  rintro past state move next before ⟨here, seen⟩ moved
  refine ⟨Only.step begun here moved, ?_⟩
  rw [trace_concat before]
  intro code member
  rcases List.mem_append.mp member with earlier | now
  · exact seen code earlier
  · cases effect_of_step moved with
    | ran located =>
        simp only [sections, located, List.mem_singleton] at now
        rw [now]
        exact (here _ _ located).1
    | _ => simp [sections] at now

end Runs

end Pool

/-! ### Earning and spending -/

section Credit

variable (earn : (request : Call) → Answer request → ℕ) (spend : Section → ℤ)

/-- A program that has the credit: every section on every way through it finds the credit that it
spends, the answers to the calls add to it, and what is left at the end satisfies `post`. -/
def Program.Covers (post : α → ℤ → Prop) : ℤ → Program σ Section Call Answer α → Prop
  | credit, .done value => post value credit
  | _, .failed => True
  | credit, .critical code next =>
      spend code ≤ credit ∧ ∀ state, (next state).Covers post (credit - spend code)
  | credit, .call request next =>
      ∀ answer, (next answer).Covers post (credit + earn request answer)

variable {earn spend}

namespace Program

variable {first : Program σ Section Call Answer α} {second : α → Program σ Section Call Answer β}
  {post : β → ℤ → Prop} {credit more : ℤ}

/-- The credit that the first part leaves is the credit of the second. -/
theorem covers_bind
    (covers : first.Covers earn spend (fun value left => (second value).Covers earn spend post left)
      credit) : (first >>= second).Covers earn spend post credit := by
  show (bind first second).Covers earn spend post credit
  induction first generalizing credit with
  | done value => exact covers
  | failed => trivial
  | critical code next ih => exact ⟨covers.1, fun state => ih state (covers.2 state)⟩
  | call request next ih => exact fun answer => ih answer (covers answer)

theorem covers_mono {post other : α → ℤ → Prop}
    (weaker : ∀ value left now, left ≤ now → post value left → other value now)
    (covers : first.Covers earn spend post credit) (le : credit ≤ more) :
    first.Covers earn spend other more := by
  induction first generalizing credit more with
  | done value => exact weaker value _ _ le covers
  | failed => trivial
  | critical code next ih =>
      exact ⟨le_trans covers.1 le, fun state => ih state (covers.2 state) (by omega)⟩
  | call request next ih => exact fun answer => ih answer (covers answer) (by omega)

/-- Credit that is left. -/
def left (_ : α) (credit : ℤ) : Prop := 0 ≤ credit

/-- A program that earns what it spends: whatever it has in the beginning, it never runs out. -/
def Pays (earn : (request : Call) → Answer request → ℕ) (spend : Section → ℤ)
    (program : Program σ Section Call Answer α) : Prop :=
  ∀ credit, 0 ≤ credit → program.Covers earn spend left credit

theorem pays_pure (value : α) :
    (pure value : Program σ Section Call Answer α).Pays earn spend :=
  fun _ nonneg => nonneg

theorem pays_perform {code : Section} {result : σ → α} (free : spend code = 0) :
    (perform code result : Program σ Section Call Answer α).Pays earn spend := by
  intro credit nonneg
  refine ⟨by omega, fun state => ?_⟩
  show 0 ≤ credit - spend code
  omega

theorem pays_ask (request : Call) :
    (ask request : Program σ Section Call Answer (Answer request)).Pays earn spend := by
  intro credit nonneg answer
  show 0 ≤ credit + earn request answer
  omega

theorem pays_bind (pays : first.Pays earn spend) (later : ∀ value, (second value).Pays earn spend) :
    (first >>= second).Pays earn spend := by
  intro credit nonneg
  refine covers_bind (covers_mono ?_ (pays credit nonneg) (le_refl credit))
  intro value rest now le enough
  exact later value now (le_trans enough le)

end Program

namespace Pool

open Program

/-- Every thread has the credit for its program, and together they have no more than the balance. -/
def Solvent (earn : (request : Call) → Answer request → ℕ) (spend : Section → ℤ)
    (pool : Pool σ Section Call Answer α) (balance : ℤ) : Prop :=
  ∃ credit : ℕ →₀ ℤ, (∀ thread, 0 ≤ credit thread) ∧
    (∀ thread program, pool.threads thread = some program →
      program.Covers earn spend left (credit thread)) ∧
    (credit.sum fun _ amount => amount) ≤ balance

/-- What a step earns. -/
def earned (earn : (request : Call) → Answer request → ℕ) (pool : Pool σ Section Call Answer α) :
    Move Job Call Answer → ℕ
  | .answer thread reply =>
      match pool.threads thread with
      | some (.call request _) => earn request (reply request)
      | _ => 0
  | _ => 0

/-- What a step spends. -/
def spent (spend : Section → ℤ) (pool : Pool σ Section Call Answer α)
    (move : Move Job Call Answer) : ℤ :=
  ((pool.sections move).map spend).sum

section Solvent

variable {pool next : Pool σ Section Call Answer α} {move : Move Job Call Answer}
  {apply : Section → σ → σ} {start : ℕ → Job → Option (Program σ Section Call Answer α)}
  {balance : ℤ}

theorem sum_add_single (credit : ℕ →₀ ℤ) (thread : ℕ) (change : ℤ) :
    ((credit + Finsupp.single thread change).sum fun _ amount => amount) =
      (credit.sum fun _ amount => amount) + change := by
  rw [Finsupp.sum_add_index' (fun _ => rfl) (fun _ _ _ => rfl), Finsupp.sum_single_index rfl]

/-- The balance of a solvent pool is not negative. -/
theorem Solvent.nonneg (solvent : Solvent earn spend pool balance) : 0 ≤ balance := by
  obtain ⟨credit, nonneg, -, total⟩ := solvent
  exact le_trans (Finset.sum_nonneg fun thread _ => nonneg thread) total

/-- One thread goes on with another credit. -/
theorem Solvent.resume {credit : ℕ →₀ ℤ} (nonneg : ∀ thread, 0 ≤ credit thread)
    (covers : ∀ thread program, pool.threads thread = some program →
      program.Covers earn spend left (credit thread))
    (total : (credit.sum fun _ amount => amount) ≤ balance) {thread : ℕ} {change : ℤ}
    {program : Option (Program σ Section Call Answer α)} (enough : 0 ≤ credit thread + change)
    (later : ∀ rest, program = some rest → rest.Covers earn spend left (credit thread + change))
    (shared : σ) :
    Solvent earn spend { (pool.resume thread program) with shared := shared } (balance + change) := by
  refine ⟨credit + Finsupp.single thread change, fun other => ?_, fun other rest here => ?_, ?_⟩
  · by_cases same : other = thread
    · subst same
      simpa using enough
    · simpa [Finsupp.single_apply, Ne.symm same] using nonneg other
  · by_cases same : other = thread
    · subst same
      simp only [Pool.resume, Function.update_self] at here
      simpa using later rest here
    · simp only [Pool.resume, Function.update_of_ne same] at here
      simpa [Finsupp.single_apply, Ne.symm same] using covers other rest here
  · rw [sum_add_single]
    omega

/-- A step earns and spends within the balance, if every job's program pays for
itself. -/
theorem Solvent.step (begun : ∀ thread job program, start thread job = some program →
    program.Pays earn spend) (solvent : Solvent earn spend pool balance)
    (moved : Pool.step apply start pool move = some next) :
    Solvent earn spend next (balance + (pool.earned earn move - pool.spent spend move)) := by
  obtain ⟨credit, nonneg, covers, total⟩ := solvent
  cases effect_of_step moved with
  | @started thread job program free here =>
      have held := nonneg thread
      have change : (pool.earned earn (.start thread job : Move Job Call Answer) : ℤ) -
          pool.spent spend (.start thread job : Move Job Call Answer) = 0 := rfl
      rw [change]
      refine Solvent.resume nonneg covers total (by omega) ?_ pool.shared
      rintro rest ⟨⟩
      exact begun _ _ _ here _ (by omega)
  | @ran thread code rest here =>
      have cost := (covers thread _ here).1
      have change : (pool.earned earn (.critical thread : Move Job Call Answer) : ℤ) -
          pool.spent spend (.critical thread : Move Job Call Answer) = -spend code := by
        simp [earned, spent, sections, here]
      rw [change]
      refine Solvent.resume nonneg covers total (by omega) ?_ (apply code pool.shared)
      rintro later ⟨⟩
      exact (covers thread _ here).2 pool.shared
  | @answered thread reply request rest here =>
      have held := nonneg thread
      have change : (pool.earned earn (.answer thread reply : Move Job Call Answer) : ℤ) -
          pool.spent spend (.answer thread reply : Move Job Call Answer) =
            earn request (reply request) := by
        simp [earned, spent, sections, here]
      rw [change]
      refine Solvent.resume nonneg covers total (by omega) ?_ pool.shared
      rintro later ⟨⟩
      exact covers thread _ here (reply request)
  | @finished thread value here =>
      have held := nonneg thread
      have change : (pool.earned earn (.finish thread : Move Job Call Answer) : ℤ) -
          pool.spent spend (.finish thread : Move Job Call Answer) = 0 := rfl
      rw [change]
      refine Solvent.resume nonneg covers total (by omega) ?_ pool.shared
      rintro rest ⟨⟩

end Solvent

end Pool

end Credit

end Threads
