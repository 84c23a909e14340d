/-
Which runs keep every thread in the program samplable.

A thread table that never gives out a released entry does: its entries' states were constructed with
`in_use` false and every function of the profiler sets it back. The first thread that gets a released
entry is not samplable, from the moment it is added.
-/

import Mcoz.Profiler.ThreadTable

set_option autoImplicit false

namespace Mcoz.Profiler

open Machine

namespace Threads

/-! ### Idle states -/

section Idle

variable {threads next : Threads} {released : List (Fin 4096)} {action : ThreadStep}

theorem Idle.access (inv : Inv released threads) (idle : Idle threads) {tid : Int32}
    {here there : ThreadPhase} {change : ThreadState → ThreadState}
    (moved : threads.access tid here there change = some next) (live : here ≠ .absent)
    (unused : there = .running → ∀ state, (change state).inUse = false) : Idle next := by
  obtain ⟨phase, slot, found, rfl⟩ := access_iff.mp moved
  have tagged := StaticMap.find_tag found
  have nonzero := (inv.held tid (by rw [phase]; exact live)).1
  intro other running
  change Function.update threads.phase tid there (threads.states.tags other) = .running at running
  by_cases same : other = slot
  · rw [same, tagged, Function.update_self] at running
    simp only [same, StaticMap.modify, Function.update_self]
    exact unused running _
  · have elsewhere : threads.states.tags other ≠ tid := by
      intro shared
      exact same (inv.unique slot other (by rw [tagged]; exact nonzero) (shared.trans tagged.symm))
    rw [Function.update_of_ne elsewhere] at running
    simp only [StaticMap.modify, Function.update_of_ne same]
    exact idle other running

/-- The thread that is added is idle exactly if its entry was not released. -/
theorem addThread_idle_iff (inv : Inv released threads) (idle : Idle threads) {tid : Int32}
    {parentDelay : ℕ} (moved : threads.addThread tid parentDelay = some next) :
    Idle next ↔ ∀ slot, threads.states.insertSlot tid = some slot → slot ∉ released := by
  obtain ⟨⟨absent, nonzero⟩, slot, chosen, rfl⟩ := addThread_iff.mp moved
  have freed := inv.freed slot (StaticMap.insertSlot_free chosen)
  constructor
  · intro idleNext other found reused
    rw [chosen] at found
    cases found
    have unused := idleNext slot (by simp)
    simp only [Function.update_self] at unused
    rw [freed.mpr reused] at unused
    exact Bool.noConfusion unused
  · intro fresh other running
    by_cases same : other = slot
    · simp only [same, Function.update_self]
      have unused := fresh slot chosen
      rw [← freed] at unused
      exact Bool.eq_false_iff.mpr unused
    · simp only [Function.update_of_ne same] at running ⊢
      by_cases shared : threads.states.tags other = tid
      · have taken : threads.states.tags other ≠ 0 := shared ▸ nonzero
        exact absurd (shared ▸ absent) (inv.registered other taken)
      · rw [Function.update_of_ne shared] at running
        exact idle other running

theorem Idle.removeThread (inv : Inv released threads) (idle : Idle threads) {tid : Int32}
    {localDelay : ℕ} (moved : threads.removeThread tid localDelay = some next) : Idle next := by
  have kept := inv.removeThread moved
  obtain ⟨ending, slot, found, rfl⟩ := removeThread_iff.mp moved
  intro other running
  by_cases same : other = slot
  · have absent : Function.update threads.phase tid .absent 0 = .absent := by
      by_contra present
      exact (kept.held 0 present).1 rfl
    simp only [same, Function.update_self] at running
    rw [absent] at running
    exact absurd running (by decide)
  · simp only [Function.update_of_ne same] at running ⊢
    by_cases shared : threads.states.tags other = tid
    · rw [shared, Function.update_self] at running
      exact absurd running (by decide)
    · rw [Function.update_of_ne shared] at running
      exact idle other running

theorem Idle.samplesReady (idle : Idle threads) (tid : Int32) (localDelay : ℕ) :
    Idle (threads.samplesReady tid localDelay) := by
  obtain ⟨phase, tags, inUse⟩ := @samplesReady_eq threads tid localDelay
  intro slot running
  rw [phase, tags] at running
  rw [inUse]
  exact idle slot running

/-- From an idle state, exactly the steps that give out a released entry lead to one that is not. -/
theorem step_idle_iff (inv : Inv released threads) (idle : Idle threads)
    (moved : threads.step action = some next) :
    Idle next ↔ ∀ tid parentDelay slot, action = .addThread tid parentDelay →
      threads.states.insertSlot tid = some slot → slot ∉ released := by
  cases action with
  | addThread tid parentDelay =>
      rw [addThread_idle_iff inv idle moved]
      constructor
      · rintro fresh _ _ slot ⟨⟩
        exact fresh slot
      · intro fresh slot
        exact fresh tid parentDelay slot rfl
  | removeThread tid localDelay => simp [Idle.removeThread inv idle moved]
  | samplesReady tid localDelay =>
      cases moved
      simp [idle.samplesReady tid localDelay]
  | enterCatchUp tid | enterPostBlock tid | enterEndSampling tid =>
      have kept : Idle next :=
        Idle.access inv idle moved (by decide) fun back => absurd back (by decide)
      simp [kept]
  | leaveCatchUp tid localDelay | leavePostBlock tid localDelay =>
      have kept : Idle next := Idle.access inv idle moved (by decide) fun _ _ => rfl
      simp [kept]

end Idle

/-! ### Runs -/

/-- The entries that the threads of a run released, in order. -/
def released (actions : List ThreadStep) : List (Fin 4096) :=
  trace step releases empty actions

/-- A thread that is added gets an entry that no exited thread released. -/
def FreshEntry (past : List ThreadStep) (threads : Threads) (action : ThreadStep) : Prop :=
  ∀ tid parentDelay slot, action = .addThread tid parentDelay →
    threads.states.insertSlot tid = some slot → slot ∉ released past

theorem inv_of_run {actions : List ThreadStep} {final : Threads}
    (ran : run step empty actions = some final) : Inv (released actions) final := by
  refine run_history (motive := fun past threads => Inv (released past) threads) inv_empty ?_ ran
  intro past threads action next before inv moved
  rw [released, trace_concat before]
  exact inv.step moved

/-- Every thread in the program is samplable all along the run exactly if no added thread gets an
entry that an exited thread released. -/
theorem samplable_iff_fresh {actions : List ThreadStep} {final : Threads}
    (ran : run step empty actions = some final) :
    Throughout step (fun _ threads => Samplable threads) empty actions ↔
      Guarded step FreshEntry empty actions := by
  refine throughout_iff ?_ ?_ ran
  · exact inv_empty.samplable_iff.mpr fun slot running => by cases running
  · intro past threads action next before samplable moved
    have inv := inv_of_run before
    have later := inv_of_run (run_concat_iff.mpr ⟨threads, before, moved⟩)
    rw [later.samplable_iff]
    exact step_idle_iff inv (inv.samplable_iff.mp samplable) moved

/-- A thread waits for another one, which exits; a thread of its bucket gets the entry. -/
def reusing : List ThreadStep :=
  [.addThread 1 0, .addThread 2 0, .enterPostBlock 2, .enterEndSampling 1, .removeThread 1 0, .leavePostBlock 2 5,
    .addThread 4097 0]

theorem samplable_iff_fresh_sample : ∃ final, run step empty reusing = some final ∧
    (Throughout step (fun _ threads => Samplable threads) empty reusing ↔
      Guarded step FreshEntry empty reusing) :=
  ⟨_, rfl, samplable_iff_fresh rfl⟩

/-- A thread exits and another one, of the same bucket, gets its entry: it is in the program, and
the handler skips its samples. -/
theorem reused_entry_in_use : ∃ final slot,
    run step empty [.addThread 1 0, .enterEndSampling 1, .removeThread 1 0, .addThread 4097 0] =
        some final ∧
      final.phase 4097 = .running ∧ final.states.find 4097 = some slot ∧
      (final.states.values slot).inUse = true :=
  ⟨_, 1, rfl, by decide, by decide, by decide⟩

end Threads

end Mcoz.Profiler
