/-
Lists of fallible computations.

A loop that may fail at each item returns its results if none fails (`mapM_eq_some`, `mapM_eq_none_iff`).
-/

import Mathlib.Data.List.Forall2

set_option autoImplicit false

namespace Fallible

section Loops

variable {α β : Type} {f : α → Option β} {list : List α} {results : List β} {result : β}

theorem mapM_eq_some : list.mapM f = some results ↔ List.Forall₂ (fun result x => f x = some result) results list := by
  induction list generalizing results with
  | nil => cases results <;> simp [eq_comm]
  | cons x rest ih =>
      simp only [List.mapM_cons, Option.bind_eq_bind, Option.pure_def, Option.bind_eq_some_iff,
        Option.some.injEq, ih, List.forall₂_cons_right_iff]
      constructor
      · rintro ⟨result, first, others, later, rfl⟩
        exact ⟨result, others, first, later, rfl⟩
      · rintro ⟨result, others, first, later, rfl⟩
        exact ⟨result, first, others, later, rfl⟩

/-- The results of a loop are those of its items. -/
theorem mem_of_mapM (all : list.mapM f = some results) : result ∈ results ↔ ∃ x ∈ list, f x = some result := by
  rw [mapM_eq_some] at all
  induction all with
  | nil => simp
  | cons here _ ih => simp [ih, here, eq_comm]

/-- A loop fails exactly if one of its items does. -/
theorem mapM_eq_none_iff : list.mapM f = none ↔ ∃ x ∈ list, f x = none := by
  induction list with
  | nil => simp
  | cons x rest ih =>
      rw [List.mapM_cons, Option.bind_eq_bind, Option.bind_eq_none_iff, List.exists_mem_cons_iff, ← ih]
      cases f x with
      | none => simp
      | some result =>
          cases rest.mapM f <;> simp

end Loops

theorem exists_forall₂ {α β : Type} {R : α → β → Prop} {list : List β} :
    (∃ others, List.Forall₂ R others list) ↔ ∀ x ∈ list, ∃ other, R other x := by
  induction list with
  | nil => simp
  | cons x rest ih =>
      rw [List.forall_mem_cons, ← ih]
      constructor
      · rintro ⟨_, pairs⟩
        obtain ⟨other, others, first, later, rfl⟩ := List.forall₂_cons_right_iff.mp pairs
        exact ⟨⟨other, first⟩, others, later⟩
      · rintro ⟨⟨other, first⟩, others, later⟩
        exact ⟨other :: others, .cons first later⟩

end Fallible
