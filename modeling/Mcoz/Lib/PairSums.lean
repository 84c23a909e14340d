/-
Sums over the pairs of a list.

Two nested loops that take each element with the later ones find every pair of places once. If both directions
of a pair count, and no element with itself, that is the sum over all elements of the sums over all elements
(`sum_laterPairs`).
-/

import Mathlib.Algebra.BigOperators.Group.List.Basic

set_option autoImplicit false

namespace PairSums

variable {α β M : Type} [AddCommMonoid M]

/-! ### Sums -/

/-- The sum over the elements that are kept. -/
theorem sum_map_filter {kept : α → Bool} {weigh : α → M} {all : List α} :
    ((all.filter kept).map weigh).sum = (all.map fun one => if kept one then weigh one else 0).sum := by
  induction all with
  | nil => rfl
  | cons one rest ih =>
      rw [List.map_cons, List.sum_cons, ← ih]
      cases here : kept one with
      | true => rw [List.filter_cons_of_pos here, List.map_cons, List.sum_cons, if_pos rfl]
      | false => rw [List.filter_cons_of_neg (by simp [here]), if_neg Bool.false_ne_true, zero_add]

theorem sum_map_flatMap {parts : β → List α} {weigh : α → M} {all : List β} :
    ((all.flatMap parts).map weigh).sum = (all.map fun one => ((parts one).map weigh).sum).sum := by
  induction all with
  | nil => rfl
  | cons one rest ih =>
      rw [List.flatMap_cons, List.map_append, List.sum_append, ih, List.map_cons, List.sum_cons]

/-- Two sums in either order. -/
theorem sum_comm {weigh : α → β → M} {all : List α} {others : List β} :
    (all.map fun one => (others.map (weigh one)).sum).sum =
      (others.map fun other => (all.map fun one => weigh one other).sum).sum := by
  induction all with
  | nil => simp
  | cons one rest ih =>
      rw [List.map_cons, List.sum_cons, ih, ← List.sum_map_add]
      simp only [List.map_cons, List.sum_cons]

/-! ### Pairs -/

/-- Each element with each of the later ones. -/
def laterPairs : List α → List (α × α)
  | [] => []
  | one :: rest => rest.map (fun other => (one, other)) ++ laterPairs rest

/-- Both directions of all pairs of places are all pairs of elements. -/
theorem sum_laterPairs {weigh : α → α → M} {all : List α} (self : ∀ one, weigh one one = 0) :
    ((laterPairs all).map fun pair => weigh pair.1 pair.2 + weigh pair.2 pair.1).sum =
      (all.map fun one => (all.map (weigh one)).sum).sum := by
  induction all with
  | nil => rfl
  | cons one rest ih =>
      have inner : (rest.map fun other => ((one :: rest).map (weigh other)).sum).sum =
          (rest.map fun other => weigh other one).sum +
            (rest.map fun other => (rest.map (weigh other)).sum).sum := by
        rw [← List.sum_map_add]
        simp only [List.map_cons, List.sum_cons]
      have outer : (rest.map fun other => weigh one other + weigh other one).sum =
          (rest.map (weigh one)).sum + (rest.map fun other => weigh other one).sum := List.sum_map_add
      rw [laterPairs, List.map_append, List.sum_append, ih, List.map_map, List.map_cons, List.sum_cons, inner,
        List.map_cons, List.sum_cons, self one, zero_add, ← add_assoc, ← outer]
      rfl

end PairSums
