/-
Tallies of threads.

A section weighs something, in the state that it finds. A thread's tally is the weight of the sections
that its program has run so far, and a program `Owes` a tally if, whatever the other threads do, it ends
with the tally that is due for its value, or fails with one that may be lost, and keeps to a given
submonoid on the way. From this follows
for a pool, over any run:

* `Pool.weight_mem_of_run`: the weight of all sections of the run is in the submonoid;
* `Pool.weight_of_idle`: if no job that can weigh anything is in progress, it is the sum of what is
  due for the values returned.
-/

import Mcoz.Lib.Threads
import Mathlib.Algebra.BigOperators.Group.List.Lemmas
import Mathlib.Algebra.Group.Submonoid.BigOperators
import Mathlib.Tactic.Abel

set_option autoImplicit false

namespace Threads

open Machine

variable {σ Section Call Job α β M : Type} {Answer : Call → Type} [AddCommMonoid M]

/-! ### Programs -/

namespace Program

variable (weigh : Section → σ → M) (keep : AddSubmonoid M) (lost : M → Prop)

/-- No way through the program fails. -/
def Ends : Program σ Section Call Answer α → Prop
  | .done _ => True
  | .failed => False
  | .critical _ next => ∀ state, (next state).Ends
  | .call _ next => ∀ answer, (next answer).Ends

/-- On every way through the program the tally is kept. At the end it satisfies `post`, or it is lost. -/
def Tallies (post : α → M → Prop) : M → Program σ Section Call Answer α → Prop
  | tally, .done value => tally ∈ keep ∧ post value tally
  | tally, .failed => tally ∈ keep ∧ lost tally
  | tally, .critical code next =>
      tally ∈ keep ∧ ∀ state, (next state).Tallies post (tally + weigh code state)
  | tally, .call _ next => tally ∈ keep ∧ ∀ answer, (next answer).Tallies post tally

/-- The program ends with the tally that is due for its value. -/
def Owes (due : α → M) (tally : M) (program : Program σ Section Call Answer α) : Prop :=
  program.Tallies weigh keep lost (fun value final => final = due value) tally

/-- A section that weighs nothing. -/
def Weightless (code : Section) : Prop :=
  ∀ state, weigh code state = 0

variable {weigh keep lost} {first : Program σ Section Call Answer α}
  {second : α → Program σ Section Call Answer β} {post : β → M → Prop} {asks : Call → Prop}
  {tally : M}

/-- A composition of programs that do not fail does not fail. -/
theorem ends_bind (ends : first.Ends) (later : ∀ value, (second value).Ends) : (first >>= second).Ends := by
  show (bind first second).Ends
  induction first with
  | done value => exact later value
  | failed => exact ends
  | critical code next ih => exact fun state => ih state (ends state)
  | call request next ih => exact fun answer => ih answer (ends answer)

theorem Tallies.kept {post : α → M → Prop} (tallies : first.Tallies weigh keep lost post tally) :
    tally ∈ keep := by
  cases first with
  | done value => exact tallies.1
  | failed => exact tallies.1
  | critical code next => exact tallies.1
  | call request next => exact tallies.1

theorem tallies_mono {post other : α → M → Prop}
    (tallies : first.Tallies weigh keep lost post tally)
    (weaker : ∀ value final, post value final → final ∈ keep → other value final) :
    first.Tallies weigh keep lost other tally := by
  induction first generalizing tally with
  | done value => exact ⟨tallies.1, weaker value tally tallies.2 tallies.1⟩
  | failed => exact tallies
  | critical code next ih => exact ⟨tallies.1, fun state => ih state (tallies.2 state)⟩
  | call request next ih => exact ⟨tallies.1, fun answer => ih answer (tallies.2 answer)⟩

/-- The second part goes on with the tally that the first one leaves. -/
theorem tallies_bind
    (tallies : first.Tallies weigh keep lost
      (fun value final => (second value).Tallies weigh keep lost post final) tally) :
    (first >>= second).Tallies weigh keep lost post tally := by
  show (bind first second).Tallies weigh keep lost post tally
  induction first generalizing tally with
  | done value => exact tallies.2
  | failed => exact tallies
  | critical code next ih => exact ⟨tallies.1, fun state => ih state (tallies.2 state)⟩
  | call request next ih => exact ⟨tallies.1, fun answer => ih answer (tallies.2 answer)⟩

/-- A program whose sections weigh nothing leaves the tally as it is. It does not fail, or the tally may be lost. -/
theorem tallies_of_weightless {post : α → M → Prop} (kept : tally ∈ keep)
    (only : first.Only (Weightless weigh) asks) (safe : first.Ends ∨ lost tally)
    (holds : ∀ value, post value tally) : first.Tallies weigh keep lost post tally := by
  induction first with
  | done value => exact ⟨kept, holds value⟩
  | failed => exact ⟨kept, safe.resolve_left id⟩
  | critical code next ih =>
      refine ⟨kept, fun state => ?_⟩
      rw [only.1 state, add_zero]
      exact ih state (only.2 state) (safe.imp_left fun ends => ends state)
  | call request next ih =>
      exact ⟨kept, fun answer => ih answer (only.2 answer) (safe.imp_left fun ends => ends answer)⟩

/-- A part whose sections weigh nothing comes first. -/
theorem weightless_bind (kept : tally ∈ keep) (only : first.Only (Weightless weigh) asks)
    (safe : first.Ends ∨ lost tally) (later : ∀ value, (second value).Tallies weigh keep lost post tally) :
    (first >>= second).Tallies weigh keep lost post tally :=
  tallies_bind (tallies_of_weightless kept only safe later)

/-- One section comes first. -/
theorem perform_bind {code : Section} {result : σ → α} (kept : tally ∈ keep)
    (later : ∀ state, (second (result state)).Tallies weigh keep lost post (tally + weigh code state)) :
    ((perform code result : Program σ Section Call Answer α) >>= second).Tallies weigh keep lost post
      tally :=
  ⟨kept, later⟩

end Program

/-! ### Jobs in progress -/

/-- The jobs in progress after one more step. -/
def note (jobs : ℕ → Option Job) : Move Job Call Answer → ℕ → Option Job
  | .start thread job => Function.update jobs thread (some job)
  | .finish thread => Function.update jobs thread none
  | _ => jobs

/-- The jobs in progress after the steps. -/
def running (moves : List (Move Job Call Answer)) : ℕ → Option Job :=
  moves.foldl note fun _ => none

theorem running_concat (past : List (Move Job Call Answer)) (move : Move Job Call Answer) :
    running (past ++ [move]) = note (running past) move := by
  rw [running, List.foldl_append]
  rfl

/-- A thread that is not at its end keeps its job. -/
theorem note_eq {apply : Section → σ → σ} {start : ℕ → Job → Option (Program σ Section Call Answer α)}
    {pool next : Pool σ Section Call Answer α} {move : Move Job Call Answer} {thread : ℕ}
    {program : Program σ Section Call Answer α} (jobs : ℕ → Option Job)
    (moved : Pool.step apply start pool move = some next) (here : pool.threads thread = some program)
    (going : ∀ value, program ≠ .done value) : note jobs move thread = jobs thread := by
  cases Pool.effect_of_step moved with
  | @started runner job _ free begun =>
      refine Function.update_of_ne ?_ _ _
      rintro rfl
      cases here.symm.trans free
  | @finished runner value held =>
      refine Function.update_of_ne ?_ _ _
      rintro rfl
      exact going value (Option.some.inj (here.symm.trans held))
  | ran => rfl
  | answered => rfl

namespace Pool

open Program

variable (weigh : Section → σ → M) (keep : AddSubmonoid M) (lost : Job → M → Prop) (due : α → M) (counts : Job → Prop)
  (asks : Call → Prop)

/-- The weight of the section that a step runs. -/
def weights (pool : Pool σ Section Call Answer α) (move : Move Job Call Answer) : List M :=
  (pool.sections move).map fun code => weigh code pool.shared

/-- What is due for the value that a step returns. -/
def dues (pool : Pool σ Section Call Answer α) (move : Move Job Call Answer) : List M :=
  (pool.results move).map due

/-- A thread with its job and its tally: it owes the tally, and its sections weigh something only if
its job counts. -/
structure Books (job : Option Job) (tally : M) (program : Program σ Section Call Answer α) :
    Prop where
  owes : ∃ held, job = some held ∧ program.Owes weigh keep (lost held) due tally ∧
    (¬ counts held → tally = 0 ∧ program.Only (Weightless weigh) asks)

/-- Every thread has its tally, and with what was due for the values returned the tallies make up
the weight of the sections that were run. -/
structure Tallied (jobs : ℕ → Option Job) (pool : Pool σ Section Call Answer α)
    (weighed returned : M) (tally : ℕ →₀ M) : Prop where
  free : ∀ thread, pool.threads thread = none → jobs thread = none ∧ tally thread = 0
  books : ∀ thread program, pool.threads thread = some program →
    Books weigh keep lost due counts asks (jobs thread) (tally thread) program
  kept : returned ∈ keep
  total : (tally.sum fun _ amount => amount) + returned = weighed

variable {weigh keep lost due counts asks} {jobs : ℕ → Option Job} {weighed returned : M} {tally : ℕ →₀ M}
  {apply : Section → σ → σ} {start : ℕ → Job → Option (Program σ Section Call Answer α)}
  {pool next : Pool σ Section Call Answer α} {move : Move Job Call Answer}

theorem Tallied.tally_mem (tallied : Tallied weigh keep lost due counts asks jobs pool weighed returned tally)
    (thread : ℕ) : tally thread ∈ keep := by
  cases held : pool.threads thread with
  | none =>
      rw [(tallied.free thread held).2]
      exact keep.zero_mem
  | some program =>
      obtain ⟨_, _, owes, _⟩ := (tallied.books thread program held).owes
      exact owes.kept

theorem Tallied.weighed_mem
    (tallied : Tallied weigh keep lost due counts asks jobs pool weighed returned tally) :
    weighed ∈ keep := by
  rw [← tallied.total]
  exact keep.add_mem (keep.sum_mem fun thread _ => tallied.tally_mem thread) tallied.kept

/-- Without a job that counts there are no tallies. -/
theorem Tallied.of_idle (tallied : Tallied weigh keep lost due counts asks jobs pool weighed returned tally)
    (idle : ∀ thread job, jobs thread = some job → ¬ counts job) : weighed = returned := by
  have empty : tally = 0 := by
    ext thread
    cases held : pool.threads thread with
    | none => exact (tallied.free thread held).2
    | some program =>
        obtain ⟨job, running, _, silent⟩ := (tallied.books thread program held).owes
        exact (silent (idle thread job running)).1
  rw [← tallied.total, empty, Finsupp.sum_zero_index, zero_add]

/-- One thread goes on with another job and another tally. -/
theorem Tallied.resume (tallied : Tallied weigh keep lost due counts asks jobs pool weighed returned tally)
    {thread : ℕ} {program : Option (Program σ Section Call Answer α)}
    {jobs' : ℕ → Option Job} (others : ∀ other, other ≠ thread → jobs' other = jobs other)
    {amount : M} (freed : program = none → jobs' thread = none ∧ amount = 0)
    (goes : ∀ rest, program = some rest →
      Books weigh keep lost due counts asks (jobs' thread) amount rest)
    {weighed' returned' : M} (kept : returned' ∈ keep)
    (total : ((tally.update thread amount).sum fun _ amount => amount) + returned' = weighed')
    (shared : σ) :
    Tallied weigh keep lost due counts asks jobs' { (pool.resume thread program) with shared := shared }
      weighed' returned' (tally.update thread amount) := by
  refine ⟨fun other held => ?_, fun other rest held => ?_, kept, total⟩
  · by_cases same : other = thread
    · subst same
      simp only [Pool.resume, Function.update_self] at held
      simpa using freed held
    · simp only [Pool.resume, Function.update_of_ne same] at held
      rw [others other same, Finsupp.update_apply, if_neg same]
      exact tallied.free other held
  · by_cases same : other = thread
    · subst same
      simp only [Pool.resume, Function.update_self] at held
      simpa using goes rest held
    · simp only [Pool.resume, Function.update_of_ne same] at held
      rw [others other same, Finsupp.update_apply, if_neg same]
      exact tallied.books other rest held

/-- A thread's tally apart from those of the others. -/
theorem sum_update (tally : ℕ →₀ M) (thread : ℕ) (amount : M) :
    ((tally.update thread amount).sum fun _ amount => amount) =
      amount + ((tally.erase thread).sum fun _ amount => amount) := by
  rw [← Finsupp.add_sum_erase' (tally.update thread amount) thread (fun _ amount => amount)
    fun _ => rfl]
  simp

theorem sum_split (tally : ℕ →₀ M) (thread : ℕ) :
    (tally.sum fun _ amount => amount) =
      tally thread + ((tally.erase thread).sum fun _ amount => amount) :=
  (Finsupp.add_sum_erase' tally thread (fun _ amount => amount) fun _ => rfl).symm

/-- The tallies after a step. -/
theorem Tallied.step (owes : ∀ thread job program, start thread job = some program →
      program.Owes weigh keep (lost job) due 0)
    (silent : ∀ thread job program, start thread job = some program → ¬ counts job →
      program.Only (Weightless weigh) asks)
    (tallied : Tallied weigh keep lost due counts asks jobs pool weighed returned tally)
    (moved : Pool.step apply start pool move = some next) : ∃ tally',
    Tallied weigh keep lost due counts asks (note jobs move) next (weighed + (pool.weights weigh move).sum)
      (returned + (pool.dues due move).sum) tally' := by
  have total := tallied.total
  cases effect_of_step moved with
  | @started thread job program free begun =>
      refine ⟨tally.update thread 0, tallied.resume ?_ (by rintro ⟨⟩) ?_ ?_ ?_ pool.shared⟩
      · exact fun other apart => Function.update_of_ne apart _ _
      · rintro rest ⟨⟩
        refine ⟨job, Function.update_self .., owes _ _ _ begun, fun quiet => ?_⟩
        exact ⟨rfl, silent _ _ _ begun quiet⟩
      · simpa [dues, results] using tallied.kept
      · rw [sum_split tally thread, (tallied.free thread free).2] at total
        simpa [weights, sections, dues, results, sum_update] using total
  | @ran thread code rest here =>
      obtain ⟨job, held, ⟨kept, later⟩, silent⟩ := (tallied.books thread _ here).owes
      refine ⟨tally.update thread (tally thread + weigh code pool.shared),
        tallied.resume (fun _ _ => rfl) (by rintro ⟨⟩) ?_ ?_ ?_ (apply code pool.shared)⟩
      · rintro program ⟨⟩
        refine ⟨job, held, later pool.shared, fun quiet => ?_⟩
        obtain ⟨zero, weightless, only⟩ := silent quiet
        exact ⟨by rw [zero, weightless, add_zero], only pool.shared⟩
      · simpa [dues, results] using tallied.kept
      · rw [sum_split tally thread] at total
        simp only [weights, sections, here, dues, results, sum_update, List.map_cons, List.map_nil,
          List.sum_cons, List.sum_nil, add_zero, ← total]
        abel
  | @answered thread reply request rest here =>
      obtain ⟨job, held, ⟨kept, later⟩, silent⟩ := (tallied.books thread _ here).owes
      refine ⟨tally.update thread (tally thread),
        tallied.resume (fun _ _ => rfl) (by rintro ⟨⟩) ?_ ?_ ?_ pool.shared⟩
      · rintro program ⟨⟩
        refine ⟨job, held, later (reply request), fun quiet => ?_⟩
        obtain ⟨zero, asked, only⟩ := silent quiet
        exact ⟨zero, only (reply request)⟩
      · simpa [dues, results] using tallied.kept
      · simp only [weights, sections, dues, results, List.map_nil, List.sum_nil, add_zero,
          sum_update, ← sum_split, total]
  | @finished thread value here =>
      obtain ⟨_, _, ⟨kept, settled⟩, _⟩ := (tallied.books thread _ here).owes
      refine ⟨tally.update thread 0,
        tallied.resume ?_ (fun _ => ⟨Function.update_self .., rfl⟩) (by rintro rest ⟨⟩) ?_ ?_
          pool.shared⟩
      · exact fun other apart => Function.update_of_ne apart _ _
      · rw [settled] at kept
        simpa [dues, results, here] using keep.add_mem tallied.kept kept
      · rw [sum_split tally thread, settled] at total
        simp only [weights, sections, dues, results, here, sum_update, List.map_cons, List.map_nil,
          List.sum_cons, List.sum_nil, add_zero, zero_add, ← total]
        abel

/-! ### Runs -/

section Runs

variable {shared : σ} {moves : List (Move Job Call Answer)} {final : Pool σ Section Call Answer α}

/-- The tallies after a run. -/
theorem tallied_of_run (owes : ∀ thread job program, start thread job = some program →
      program.Owes weigh keep (lost job) due 0)
    (silent : ∀ thread job program, start thread job = some program → ¬ counts job →
      program.Only (Weightless weigh) asks)
    (ran : run (Pool.step apply start) (Pool.init shared) moves = some final) : ∃ tally,
    Tallied weigh keep lost due counts asks (running moves) final
      (trace (Pool.step apply start) (weights weigh) (Pool.init shared) moves).sum
      (trace (Pool.step apply start) (dues due) (Pool.init shared) moves).sum tally := by
  refine run_history (motive := fun past reached => ∃ tally,
    Tallied weigh keep lost due counts asks (running past) reached
      (trace (Pool.step apply start) (weights weigh) (Pool.init shared) past).sum
      (trace (Pool.step apply start) (dues due) (Pool.init shared) past).sum tally) ?_ ?_ ran
  · refine ⟨0, fun thread _ => ⟨rfl, rfl⟩, ?_, ?_, ?_⟩
    · rintro thread program ⟨⟩
    · exact keep.zero_mem
    · simp
  · rintro past state move next before ⟨tally, tallied⟩ moved
    rw [running_concat, trace_concat before, trace_concat before, List.sum_append, List.sum_append]
    exact tallied.step owes silent moved

theorem weight_mem_of_run (owes : ∀ thread job program, start thread job = some program →
      program.Owes weigh keep (lost job) due 0)
    (ran : run (Pool.step apply start) (Pool.init shared) moves = some final) :
    (trace (Pool.step apply start) (weights weigh) (Pool.init shared) moves).sum ∈ keep := by
  let every : Job → Prop := fun _ => True
  let any : Call → Prop := fun _ => True
  have all : ∀ thread job program, start thread job = some program → ¬ every job →
      program.Only (Weightless weigh) any :=
    fun _ _ _ _ absurd => (absurd trivial).elim
  obtain ⟨tally, tallied⟩ := tallied_of_run owes all ran
  exact tallied.weighed_mem

theorem weight_of_idle (owes : ∀ thread job program, start thread job = some program →
      program.Owes weigh keep (lost job) due 0)
    (silent : ∀ thread job program, start thread job = some program → ¬ counts job →
      program.Only (Weightless weigh) asks)
    (ran : run (Pool.step apply start) (Pool.init shared) moves = some final)
    (idle : ∀ thread job, running moves thread = some job → ¬ counts job) :
    (trace (Pool.step apply start) (weights weigh) (Pool.init shared) moves).sum =
      (trace (Pool.step apply start) (dues due) (Pool.init shared) moves).sum := by
  obtain ⟨tally, tallied⟩ := tallied_of_run owes silent ran
  exact tallied.of_idle idle

end Runs

end Pool

end Threads
