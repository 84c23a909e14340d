/-
The instants of half-open intervals.

An interval is the pair of its start and its end, and has the instants from the start up to the end. Intervals
one after the other cover as many instants as they are long (`card_covered`), and lengths that are summed count
every instant as often as it is covered (`sum_card_eq`).
-/

import Mathlib.Algebra.BigOperators.Ring.Finset
import Mathlib.Algebra.Order.BigOperators.Group.Finset
import Mathlib.Data.Int.Interval

set_option autoImplicit false

namespace Instants

/-! ### Covered instants -/

/-- The instants of an interval. The order is named, as the one found by itself does not compute. -/
def instants (interval : ℤ × ℤ) : Finset ℤ :=
  @Finset.Ico ℤ (@PartialOrder.toPreorder ℤ Int.instLinearOrder.toPartialOrder) _ interval.1 interval.2

/-- The instants of any of the intervals. -/
def covered (intervals : List (ℤ × ℤ)) : Finset ℤ :=
  intervals.toFinset.biUnion instants

section Covered

variable {intervals others : List (ℤ × ℤ)} {interval : ℤ × ℤ} {instant : ℤ}

theorem mem_instants : instant ∈ instants interval ↔ interval.1 ≤ instant ∧ instant < interval.2 :=
  Finset.mem_Ico

theorem mem_covered :
    instant ∈ covered intervals ↔ ∃ interval ∈ intervals, interval.1 ≤ instant ∧ instant < interval.2 := by
  simp [covered, mem_instants]

theorem covered_nil : covered [] = ∅ :=
  rfl

theorem covered_cons : covered (interval :: intervals) = instants interval ∪ covered intervals := by
  ext instant
  simp [mem_covered, mem_instants]

theorem covered_append : covered (intervals ++ others) = covered intervals ∪ covered others := by
  ext instant
  simp [mem_covered, or_and_right, exists_or]

theorem covered_congr (same : ∀ interval, interval ∈ intervals ↔ interval ∈ others) :
    covered intervals = covered others := by
  ext instant
  simp only [mem_covered, same]

/-- Intervals one after the other cover as many instants as they are long. -/
theorem card_covered (ordered : intervals.Pairwise fun first second => first.2 ≤ second.1)
    (upright : ∀ interval ∈ intervals, interval.1 ≤ interval.2) :
    ((covered intervals).card : ℤ) = (intervals.map fun interval => interval.2 - interval.1).sum := by
  induction intervals with
  | nil => rfl
  | cons interval rest ih =>
      obtain ⟨before, ordered'⟩ := List.pairwise_cons.mp ordered
      obtain ⟨here, upright'⟩ := List.forall_mem_cons.mp upright
      have apart : Disjoint (instants interval) (covered rest) := by
        rw [Finset.disjoint_left]
        intro instant inside elsewhere
        obtain ⟨other, among, after, -⟩ := mem_covered.mp elsewhere
        have between := before other among
        have ends := (mem_instants.mp inside).2
        omega
      rw [covered_cons, Finset.card_union_of_disjoint apart, Nat.cast_add, ih ordered' upright', instants,
        Int.card_Ico_of_le _ _ here, List.map_cons, List.sum_cons]

end Covered

/-! ### Counting -/

section Counting

variable {ι : Type} {window : Finset ℤ}

/-- The sizes of some sets of instants count each instant as often as it is in one of them. -/
theorem sum_card_eq {items : List ι} {active : ι → Finset ℤ} (inside : ∀ item ∈ items, active item ⊆ window) :
    (items.map fun item => (active item).card).sum =
      ∑ instant ∈ window, items.countP fun item => instant ∈ active item := by
  induction items with
  | nil => simp
  | cons item rest ih =>
      obtain ⟨here, others⟩ := List.forall_mem_cons.mp inside
      have counted : (active item).card = ∑ instant ∈ window, if instant ∈ active item then 1 else 0 := by
        rw [Finset.sum_boole, Finset.filter_mem_eq_inter, Finset.inter_eq_right.mpr here, Nat.cast_id]
      rw [List.map_cons, List.sum_cons, ih others, counted, ← Finset.sum_add_distrib]
      refine Finset.sum_congr rfl fun instant _ => ?_
      rw [List.countP_cons, add_comm]
      simp

end Counting

end Instants
