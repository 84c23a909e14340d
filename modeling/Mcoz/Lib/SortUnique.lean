/-
Sorting and `unique`.

`std::sort` and then `std::unique`, which drops each element that equals its left neighbour. On a sorted
list that leaves one of each: the result has the elements of the list (`mem_sortUnique`), each before
the larger ones (`sortUnique_strict`).
-/

import Mathlib.Data.List.Destutter
import Mathlib.Data.List.Sort

set_option autoImplicit false

namespace SortUnique

variable {α : Type}

/-- Neighbours that are related in two ways are related in both. -/
theorem isChain_both {R S : α → α → Prop} {all : List α} (first : all.IsChain R)
    (second : all.IsChain S) : all.IsChain fun a b => R a b ∧ S a b := by
  induction first with
  | nil => exact .nil
  | singleton => exact .singleton _
  | cons_cons here rest ih =>
      cases second with
      | cons_cons also others => exact .cons_cons ⟨here, also⟩ (ih others)

variable [DecidableEq α]

/-- `std::unique`: no element that equals the one before it. -/
def unique (all : List α) : List α :=
  all.destutter (· ≠ ·)

/-- The sorted list without duplicates. -/
def sortUnique (le : α → α → Bool) (all : List α) : List α :=
  unique (all.mergeSort le)

theorem mem_destutter' {one last : α} {all : List α} :
    one ∈ all.destutter' (· ≠ ·) last ↔ one = last ∨ one ∈ all := by
  induction all generalizing last with
  | nil => rw [List.destutter'_nil, List.mem_singleton, or_iff_left List.not_mem_nil]
  | cons first rest ih =>
      rw [List.destutter'_cons]
      by_cases same : last = first
      · subst same
        rw [if_neg fun differ => differ rfl, ih, List.mem_cons, ← or_assoc, or_self]
      · rw [if_pos same, List.mem_cons, ih, List.mem_cons]

theorem mem_unique {one : α} {all : List α} : one ∈ unique all ↔ one ∈ all := by
  cases all with
  | nil => rfl
  | cons first rest => rw [unique, List.destutter_cons', mem_destutter', List.mem_cons]

/-- Sorting and `unique` keep the elements. -/
theorem mem_sortUnique {le : α → α → Bool} {one : α} {all : List α} :
    one ∈ sortUnique le all ↔ one ∈ all := by
  rw [sortUnique, mem_unique, (List.mergeSort_perm all le).mem_iff]

/-- A strictly sorted list stays as it is. -/
theorem sortUnique_of_strict {le : α → α → Bool} {all : List α}
    (sorted : all.Pairwise fun a b => le a b = true ∧ a ≠ b) : sortUnique le all = all := by
  rw [sortUnique, List.mergeSort_of_pairwise (sorted.imp And.left), unique]
  exact List.destutter_of_isChain _ all (sorted.imp And.right).isChain

section Order

variable {le : α → α → Bool} (trans : ∀ a b c, le a b = true → le b c = true → le a c = true)
  (total : ∀ a b, (le a b || le b a) = true)
  (antisymm : ∀ a b, le a b = true → le b a = true → a = b)

include trans antisymm in
/-- What `unique` leaves of a sorted list is strictly sorted. -/
theorem unique_strict {all : List α} (sorted : all.Pairwise fun a b => le a b = true) :
    (unique all).Pairwise fun a b => le a b = true ∧ a ≠ b := by
  have below : (unique all).Pairwise fun a b => le a b = true :=
    sorted.sublist (List.destutter_sublist _ all)
  have differ : (unique all).IsChain (· ≠ ·) := List.isChain_destutter _ all
  have strict : (unique all).IsChain fun a b => le a b = true ∧ a ≠ b :=
    isChain_both below.isChain differ
  have join : ∀ {a b c : α}, le a b = true ∧ a ≠ b → le b c = true ∧ b ≠ c →
      le a c = true ∧ a ≠ c := by
    intro a b c first second
    refine ⟨trans a b c first.1 second.1, ?_⟩
    rintro rfl
    exact first.2 (antisymm a b first.1 second.1)
  have : IsTrans α fun a b => le a b = true ∧ a ≠ b := ⟨fun _ _ _ => join⟩
  exact strict.pairwise

include trans total antisymm in
theorem sortUnique_strict (all : List α) :
    (sortUnique le all).Pairwise fun a b => le a b = true ∧ a ≠ b :=
  unique_strict trans antisymm (List.pairwise_mergeSort trans total all)

end Order

section Linear

variable {β : Type} [LinearOrder β]

/-- In a linear order the result is increasing. -/
theorem pairwise_lt_sortUnique (all : List β) :
    (sortUnique (fun first second => decide (first ≤ second)) all).Pairwise (· < ·) := by
  have strict := @sortUnique_strict β _ (fun first second => decide (first ≤ second))
    (fun a b c first second => decide_eq_true (le_trans (of_decide_eq_true first) (of_decide_eq_true second)))
    (fun a b => by simpa using le_total a b)
    (fun a b first second => le_antisymm (of_decide_eq_true first) (of_decide_eq_true second)) all
  exact strict.imp fun both => lt_of_le_of_ne (of_decide_eq_true both.1) both.2

end Linear

end SortUnique
