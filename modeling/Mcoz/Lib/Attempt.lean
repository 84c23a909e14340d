/-
What a thread does before it ends.

A thread of a pool sees the shared state only in its sections, and hears from outside only by the answers
to its calls. `Program.Fails` says that a program fails exactly at the answers that are exceptions, so that a
thread has failed exactly if one of its calls was answered so (`failed_iff_of_run`). `Program.Attempts` says of a program that, if every state and every answer is of a given
kind, it makes a wanted call or ends with a value of a given kind. `attempted_of_run` follows such a
thread through a run: whatever the other threads do, it cannot end without the call. `solo_run` is the
run in which the others rest.
-/

import Mcoz.Lib.Threads

set_option autoImplicit false

namespace Threads

open Machine

variable {σ Section Call Job α β : Type} {Answer : Call → Type}

namespace Program

/-- In states that `sees` holds of and with answers that `hears` holds of, the program makes a wanted
call or ends with a value that satisfies `post`. -/
def Attempts (sees : σ → Prop) (hears : (request : Call) → Answer request → Prop)
    (wanted : Call → Prop) (post : α → Prop) : Program σ Section Call Answer α → Prop
  | done value => post value
  | failed => False
  | critical _ next => ∀ state, sees state → (next state).Attempts sees hears wanted post
  | call request next => wanted request ∨
      ∀ answer, hears request answer → (next answer).Attempts sees hears wanted post

variable {sees : σ → Prop} {hears : (request : Call) → Answer request → Prop} {wanted : Call → Prop}
  {first : Program σ Section Call Answer α} {second : α → Program σ Section Call Answer β}
  {post : β → Prop}

/-- The second part has to attempt what the first one does not. -/
theorem attempts_bind
    (attempts : first.Attempts sees hears wanted fun value =>
      (second value).Attempts sees hears wanted post) :
    (first >>= second).Attempts sees hears wanted post := by
  show (bind first second).Attempts sees hears wanted post
  induction first with
  | done value => exact attempts
  | failed => exact attempts
  | critical code next ih => exact fun state seen => ih state (attempts state seen)
  | call request next ih =>
      rcases attempts with now | later
      · exact Or.inl now
      · exact Or.inr fun answer heard => ih answer (later answer heard)

end Program

namespace Pool

open Program

/-- The state that a section of the thread finds. -/
def views (thread : ℕ) (pool : Pool σ Section Call Answer α) : Move Job Call Answer → List σ
  | .critical runner => if runner = thread then [pool.shared] else []
  | _ => []

/-- The call of the thread that a step answers, with the answer. -/
def answers (thread : ℕ) (pool : Pool σ Section Call Answer α) :
    Move Job Call Answer → List ((request : Call) × Answer request)
  | .answer runner reply =>
      match pool.threads runner with
      | some (.call request _) => if runner = thread then [⟨request, reply request⟩] else []
      | _ => []
  | _ => []

variable {apply : Section → σ → σ} {start : ℕ → Job → Option (Program σ Section Call Answer α)}
  {pool next final : Pool σ Section Call Answer α} {move : Move Job Call Answer}
  {moves : List (Move Job Call Answer)} {thread : ℕ} {sees : σ → Prop}
  {hears : (request : Call) → Answer request → Prop} {wanted : Call → Prop}

/-- A thread that has still to make a wanted call. -/
def Attempting (thread : ℕ) (sees : σ → Prop) (hears : (request : Call) → Answer request → Prop)
    (wanted : Call → Prop) (pool : Pool σ Section Call Answer α) : Prop :=
  ∃ program, pool.threads thread = some program ∧
    program.Attempts sees hears wanted fun _ => False

/-- The other threads leave a thread's program alone. -/
theorem Attempting.resume {other : ℕ} {program : Option (Program σ Section Call Answer α)}
    (attempting : pool.Attempting thread sees hears wanted) (apart : other ≠ thread) (shared : σ) :
    Attempting thread sees hears wanted { (pool.resume other program) with shared := shared } := by
  obtain ⟨rest, here, attempts⟩ := attempting
  exact ⟨rest, by simpa [Pool.resume, Function.update_of_ne apart.symm] using here, attempts⟩

/-- A step of a thread that has to make a wanted call makes it or leaves it to be made. -/
theorem Attempting.step (attempting : pool.Attempting thread sees hears wanted)
    (moved : Pool.step apply start pool move = some next)
    (seen : ∀ state ∈ views thread pool move, sees state)
    (heard : ∀ answered ∈ answers thread pool move, hears answered.1 answered.2) :
    (∃ answered ∈ answers thread pool move, wanted answered.1) ∨
      next.Attempting thread sees hears wanted := by
  obtain ⟨program, held, attempts⟩ := attempting
  cases effect_of_step moved with
  | @started runner job _ free begun =>
      have apart : runner ≠ thread := by
        rintro rfl
        cases held.symm.trans free
      exact Or.inr (Attempting.resume ⟨program, held, attempts⟩ apart pool.shared)
  | @ran runner code rest here =>
      by_cases same : runner = thread
      · subst same
        cases held.symm.trans here
        refine Or.inr ⟨rest pool.shared, Function.update_self .., ?_⟩
        exact attempts pool.shared (seen pool.shared (by simp [views]))
      · exact Or.inr (Attempting.resume ⟨program, held, attempts⟩ same (apply code pool.shared))
  | @answered runner reply request rest here =>
      by_cases same : runner = thread
      · subst same
        cases held.symm.trans here
        have now : ⟨request, reply request⟩ ∈
            answers runner pool (.answer runner reply : Move Job Call Answer) := by
          simp [answers, here]
        rcases attempts with wants | later
        · exact Or.inl ⟨_, now, wants⟩
        · exact Or.inr ⟨rest (reply request), Function.update_self .., later _ (heard _ now)⟩
      · exact Or.inr (Attempting.resume ⟨program, held, attempts⟩ same pool.shared)
  | @finished runner value here =>
      by_cases same : runner = thread
      · subst same
        cases held.symm.trans here
        exact attempts.elim
      · exact Or.inr (Attempting.resume ⟨program, held, attempts⟩ same pool.shared)

/-- A thread that has ended, with a value or with a failure. -/
def Over (thread : ℕ) (pool : Pool σ Section Call Answer α) : Prop :=
  pool.threads thread = none ∨ pool.threads thread = some .failed

/-- A thread whose call is answered makes that call. -/
theorem threads_of_answers {answered : (request : Call) × Answer request}
    (among : answered ∈ answers thread pool move) : ∃ rest, pool.threads thread = some (.call answered.1 rest) := by
  cases move with
  | answer runner reply =>
      simp only [answers] at among
      split at among
      · rename_i request rest here
        by_cases same : runner = thread
        · rw [if_pos same, List.mem_singleton] at among
          subst same among
          exact ⟨rest, here⟩
        · rw [if_neg same] at among
          cases among
      · cases among
  | start | critical | finish => cases among

/-- A thread that has to make a wanted call and has ended has made it. -/
theorem attempted_of_run (attempting : pool.Attempting thread sees hears wanted)
    (ran : run (Pool.step apply start) pool moves = some final)
    (ended : final.Over thread)
    (seen : ∀ state ∈ trace (Pool.step apply start) (views thread) pool moves, sees state)
    (heard : ∀ answered ∈ trace (Pool.step apply start) (answers thread) pool moves,
      hears answered.1 answered.2) :
    ∃ answered ∈ trace (Pool.step apply start) (answers thread) pool moves,
      wanted answered.1 := by
  induction moves generalizing pool with
  | nil =>
      cases ran
      obtain ⟨program, here, attempts⟩ := attempting
      rcases ended with free | lost
      · cases here.symm.trans free
      · cases here.symm.trans lost
        exact attempts.elim
  | cons move rest ih =>
      obtain ⟨next, moved, later⟩ := run_cons_iff.mp ran
      simp only [trace, moved, Option.map_some, Option.getD_some, List.mem_append] at seen heard ⊢
      rcases attempting.step moved (fun state here => seen state (Or.inl here))
        (fun answered here => heard answered (Or.inl here)) with ⟨answered, here, wants⟩ | still
      · exact ⟨answered, Or.inl here, wants⟩
      · obtain ⟨answered, here, wants⟩ := ih still later (fun state here => seen state (Or.inr here))
          (fun answered here => heard answered (Or.inr here))
        exact ⟨answered, Or.inr here, wants⟩

end Pool

/-! ### Failures -/

section Failures

variable (exception : (request : Call) → Answer request → Prop)

/-- The program fails at the answers that are exceptions, and nowhere else. -/
def Program.Fails : Program σ Section Call Answer α → Prop
  | done _ => True
  | failed => False
  | critical _ next => ∀ state, (next state).Fails
  | call request next => ∀ answer, (exception request answer → next answer = failed) ∧
      (¬ exception request answer → (next answer).Fails)

variable {exception}

/-- A composition fails where its parts do. -/
theorem Program.fails_bind {first : Program σ Section Call Answer α} {second : α → Program σ Section Call Answer β}
    (fails : first.Fails exception) (later : ∀ value, (second value).Fails exception) :
    (first >>= second).Fails exception := by
  show (Program.bind first second).Fails exception
  induction first with
  | done value => exact later value
  | failed => exact fails
  | critical code next ih => exact fun state => ih state (fails state)
  | call request next ih =>
      intro answer
      refine ⟨fun raised => ?_, fun returned => ih answer ((fails answer).2 returned)⟩
      show Program.bind (next answer) second = failed
      rw [(fails answer).1 raised]
      rfl

namespace Pool

/-- Every thread has failed, or its program fails at exceptions only. -/
def Live (exception : (request : Call) → Answer request → Prop) (pool : Pool σ Section Call Answer α) : Prop :=
  ∀ thread program, pool.threads thread = some program → program = .failed ∨ program.Fails exception

variable {apply : Section → σ → σ} {start : ℕ → Job → Option (Program σ Section Call Answer α)}
  {pool next final : Pool σ Section Call Answer α} {move : Move Job Call Answer}
  {moves : List (Move Job Call Answer)}

/-- Of one thread that goes on, and the others that do not. -/
theorem Live.resume (live : pool.Live exception) {thread : ℕ} {program : Option (Program σ Section Call Answer α)}
    (later : ∀ rest, program = some rest → rest = .failed ∨ rest.Fails exception) (shared : σ) :
    Live exception { (pool.resume thread program) with shared := shared } := by
  intro other rest here
  by_cases same : other = thread
  · subst same
    exact later rest (by simpa [Pool.resume] using here)
  · simp only [Pool.resume, Function.update_of_ne same] at here
    exact live other rest here

/-- A program that can go on has not failed. -/
theorem ne_failed {program : Program σ Section Call Answer α} (fails : program.Fails exception) :
    program ≠ .failed := by
  rintro rfl
  exact fails

/-- A thread that did not fail before fails with a step that answers its call with an exception. -/
theorem failed_of_resume {thread other : ℕ} {program : Option (Program σ Section Call Answer α)} {shared : σ}
    {raised : Prop} (before : pool.threads thread ≠ some .failed)
    (here : other = thread → (program = some .failed ↔ raised)) (elsewhere : other ≠ thread → ¬ raised) :
    ({ (pool.resume thread program) with shared := shared } : Pool σ Section Call Answer α).threads other =
        some .failed ↔ pool.threads other = some .failed ∨ raised := by
  by_cases same : other = thread
  · subst same
    rw [or_iff_right before, ← here rfl]
    simp only [Pool.resume, Function.update_self]
  · rw [or_iff_left (elsewhere same)]
    simp only [Pool.resume, Function.update_of_ne same]

/-- Which threads have failed after a step. -/
theorem failed_step (begun : ∀ thread job program, start thread job = some program → program.Fails exception)
    (live : pool.Live exception) (moved : Pool.step apply start pool move = some next) :
    next.Live exception ∧ ∀ thread, (next.threads thread = some .failed ↔ pool.threads thread = some .failed ∨
      ∃ answered ∈ answers thread pool move, exception answered.1 answered.2) := by
  cases effect_of_step moved with
  | @started thread job program free here =>
      have fails := begun thread job program here
      refine ⟨live.resume (by rintro rest ⟨⟩; exact Or.inr fails) pool.shared, fun other => ?_⟩
      refine failed_of_resume (by rw [free]; nofun) (fun _ => ?_) (by simp [answers])
      exact iff_of_false (fun same => ne_failed fails (Option.some.inj same)) (by simp [answers])
  | @ran thread code rest here =>
      have fails := ((live thread _ here).resolve_left nofun) pool.shared
      refine ⟨live.resume (by rintro later ⟨⟩; exact Or.inr fails) _, fun other => ?_⟩
      refine failed_of_resume (by rw [here]; nofun) (fun _ => ?_) (by simp [answers])
      exact iff_of_false (fun same => ne_failed fails (Option.some.inj same)) (by simp [answers])
  | @answered thread reply request rest here =>
      obtain ⟨raises, returns⟩ := ((live thread _ here).resolve_left nofun) (reply request)
      have either : rest (reply request) = .failed ↔ exception request (reply request) := by
        constructor
        · intro failed
          by_contra returned
          exact ne_failed (returns returned) failed
        · exact raises
      refine ⟨live.resume ?_ pool.shared, fun other => ?_⟩
      · rintro later ⟨⟩
        by_cases raised : exception request (reply request)
        · exact Or.inl (raises raised)
        · exact Or.inr (returns raised)
      · refine failed_of_resume (by rw [here]; nofun) (fun same => ?_) fun apart => ?_
        · rw [Option.some_inj, either]
          simp [answers, here, same]
        · simp [answers, here, Ne.symm apart]
  | @finished thread value here =>
      refine ⟨live.resume (fun rest here => by cases here) pool.shared, fun other => ?_⟩
      refine failed_of_resume (by rw [here]; nofun) (fun _ => ?_) (by simp [answers])
      exact iff_of_false nofun (by simp [answers])

/-- **A thread has failed** exactly if one of its calls was answered with an exception. -/
theorem failed_iff_of_run
    (begun : ∀ thread job program, start thread job = some program → program.Fails exception)
    (live : pool.Live exception) (ran : run (Pool.step apply start) pool moves = some final) :
    final.Live exception ∧ ∀ thread, (final.threads thread = some .failed ↔ pool.threads thread = some .failed ∨
      ∃ answered ∈ trace (Pool.step apply start) (answers thread) pool moves, exception answered.1 answered.2) := by
  refine run_history (motive := fun past reached => reached.Live exception ∧ ∀ thread,
    (reached.threads thread = some .failed ↔ pool.threads thread = some .failed ∨
      ∃ answered ∈ trace (Pool.step apply start) (answers thread) pool past, exception answered.1 answered.2)) ?_ ?_ ran
  · exact ⟨live, fun thread => by simp⟩
  · intro past state move next before ih moved
    obtain ⟨alive, each⟩ := failed_step begun ih.1 moved
    refine ⟨alive, fun thread => ?_⟩
    rw [each, ih.2, or_assoc, trace_concat before]
    simp only [List.mem_append, or_and_right, exists_or]

theorem live_init {shared : σ} : (Pool.init shared : Pool σ Section Call Answer α).Live exception :=
  fun _ _ here => absurd here (by simp [Pool.init])

end Pool

end Failures

/-! ### A thread alone -/

section Solo

variable (thread : ℕ) (apply : Section → σ → σ) (reply : (request : Call) → Answer request)

/-- The steps of a thread to its end while the others rest. -/
def Program.solo : Program σ Section Call Answer α → σ → List (Move Job Call Answer)
  | done _, _ => [.finish thread]
  | failed, _ => []
  | critical code next, state => .critical thread :: (next state).solo (apply code state)
  | call request next, state => .answer thread reply :: (next (reply request)).solo state

/-- The states that its sections find then. -/
def Program.found : Program σ Section Call Answer α → σ → List σ
  | done _, _ => []
  | failed, _ => []
  | critical code next, state => state :: (next state).found (apply code state)
  | call request next, state => (next (reply request)).found state

/-- The calls that it makes then, with their answers. -/
def Program.asked : Program σ Section Call Answer α → σ → List ((request : Call) × Answer request)
  | done _, _ => []
  | failed, _ => []
  | critical code next, state => (next state).asked (apply code state)
  | call request next, state => ⟨request, reply request⟩ :: (next (reply request)).asked state

variable {thread apply} {start : ℕ → Job → Option (Program σ Section Call Answer α)}

/-- A thread runs alone to its end from any pool. -/
theorem Pool.solo_run {program : Program σ Section Call Answer α}
    {pool : Pool σ Section Call Answer α} (here : pool.threads thread = some program) :
    ∃ final,
      run (Pool.step apply start) pool (program.solo thread apply reply pool.shared) = some final ∧
      final.Over thread ∧
      trace (Pool.step apply start) (Pool.views thread) pool
        (program.solo thread apply reply pool.shared) = program.found apply reply pool.shared ∧
      trace (Pool.step apply start) (Pool.answers thread) pool
        (program.solo thread apply reply pool.shared) = program.asked apply reply pool.shared := by
  induction program generalizing pool with
  | done value =>
      have moved : Pool.step apply start pool (.finish thread) = some (pool.resume thread none) := by
        simp only [Pool.step, here]
      exact ⟨_, run_cons_of moved, Or.inl (Function.update_self ..), trace_one _ _, trace_one _ _⟩
  | failed => exact ⟨pool, rfl, Or.inr here, rfl, rfl⟩
  | critical code next ih =>
      let later : Pool σ Section Call Answer α :=
        { (pool.resume thread (some (next pool.shared))) with shared := apply code pool.shared }
      have moved : Pool.step apply start pool (.critical thread) = some later := by
        simp only [Pool.step, here]
        rfl
      have onwards : later.threads thread = some (next pool.shared) := Function.update_self ..
      obtain ⟨final, ran, ended, found, asked⟩ := ih pool.shared onwards
      refine ⟨final, (run_cons_of moved).trans ran, ended, ?_, ?_⟩
      · simpa [Program.solo, trace, moved, Pool.views, Program.found] using found
      · simpa [Program.solo, trace, moved, Pool.answers, Program.asked] using asked
  | call request next ih =>
      let later : Pool σ Section Call Answer α := pool.resume thread (some (next (reply request)))
      have moved : Pool.step apply start pool (.answer thread reply) = some later := by
        simp only [Pool.step, here]
        rfl
      have onwards : later.threads thread = some (next (reply request)) := Function.update_self ..
      have same : later.shared = pool.shared := rfl
      obtain ⟨final, ran, ended, found, asked⟩ := ih (reply request) onwards
      rw [same] at ran found asked
      refine ⟨final, (run_cons_of moved).trans ran, ended, ?_, ?_⟩
      · simpa [Program.solo, trace, moved, Pool.views, Program.found] using found
      · simpa [Program.solo, trace, moved, Pool.answers, here, Program.asked] using asked

/-- The answers are those of the reply. -/
theorem Program.asked_reply {program : Program σ Section Call Answer α} {state : σ}
    {answered : (request : Call) × Answer request} (among : answered ∈ program.asked apply reply state) :
    answered = ⟨answered.1, reply answered.1⟩ := by
  induction program generalizing state with
  | done value => cases among
  | failed => cases among
  | critical code next ih => exact ih state among
  | call request next ih =>
      rcases List.mem_cons.mp among with rfl | later
      · rfl
      · exact ih (reply request) later

/-- A thread that has not failed can come to its end. -/
theorem Pool.ends_of_live {exception : (request : Call) → Answer request → Prop}
    (begun : ∀ thread job program, start thread job = some program → program.Fails exception)
    {pool : Pool σ Section Call Answer α} (live : pool.Live exception)
    (returns : ∀ request, ¬ exception request (reply request)) (going : pool.threads thread ≠ some .failed) :
    ∃ moves final, run (Pool.step apply start) pool moves = some final ∧ final.threads thread = none := by
  cases here : pool.threads thread with
  | none => exact ⟨[], pool, rfl, here⟩
  | some program =>
      obtain ⟨final, ran, ended, -, asked⟩ := @Pool.solo_run _ _ _ _ _ _ thread apply reply start program pool here
      refine ⟨_, final, ran, ended.resolve_right fun failed => ?_⟩
      rcases ((failed_iff_of_run begun live ran).2 thread).mp failed with before | ⟨answered, among, raised⟩
      · exact going before
      · rw [asked] at among
        rw [Program.asked_reply reply among] at raised
        exact returns _ raised

end Solo

end Threads
