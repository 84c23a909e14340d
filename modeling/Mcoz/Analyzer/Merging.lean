/-
The canonical form of intervals.

Intervals that are apart, each of them with an instant, are determined by the instants that they cover
(`Separated.ext`). `merge_intervals` makes such intervals, so its result depends on the covered instants alone
(`mergeIntervals_eq_iff`): not on the order of the input, and not on whether it was merged before.
-/

import Mcoz.Analyzer.Spans

set_option autoImplicit false

namespace Mcoz.Analyzer

open Instants

section Canonical

variable {intervals others merged : List (ℤ × ℤ)} {interval other : ℤ × ℤ} {instant : ℤ}

theorem Separated.head_upright (separated : Separated (interval :: merged)) : interval.1 < interval.2 :=
  separated.upright interval List.mem_cons_self

theorem Separated.head_gap (separated : Separated (interval :: merged)) :
    ∀ later ∈ merged, interval.2 < later.1 :=
  (List.pairwise_cons.mp separated.gaps).1

theorem Separated.tail (separated : Separated (interval :: merged)) : Separated merged :=
  ⟨(List.pairwise_cons.mp separated.gaps).2,
    fun later among => separated.upright later (List.mem_cons_of_mem _ among)⟩

/-- An instant of the first interval, or one behind the gap after it. -/
theorem Separated.mem_covered_cons (separated : Separated (interval :: merged)) :
    instant ∈ covered (interval :: merged) ↔
      interval.1 ≤ instant ∧ instant < interval.2 ∨ interval.2 < instant ∧ instant ∈ covered merged := by
  rw [covered_cons, Finset.mem_union, mem_instants]
  refine or_congr_right ⟨fun later => ⟨?_, later⟩, And.right⟩
  obtain ⟨one, among, after, -⟩ := mem_covered.mp later
  have gap := separated.head_gap one among
  omega

/-- The first of two lists begins no earlier, if the second covers its instants. -/
theorem Separated.start_le (first : Separated (interval :: merged)) (second : Separated (other :: others))
    (covers : covered (interval :: merged) ⊆ covered (other :: others)) : other.1 ≤ interval.1 := by
  have start : interval.1 ∈ covered (interval :: merged) :=
    first.mem_covered_cons.mpr (Or.inl ⟨le_rfl, first.head_upright⟩)
  have upright := second.head_upright
  rcases second.mem_covered_cons.mp (covers start) with ⟨after, -⟩ | ⟨behind, -⟩
  · exact after
  · omega

/-- Where both begin at one instant, the second interval is no shorter, since the first covers nothing just
after its end. -/
theorem Separated.end_le (first : Separated (interval :: merged)) (second : Separated (other :: others))
    (same : interval.1 = other.1) (covers : covered (other :: others) ⊆ covered (interval :: merged)) :
    other.2 ≤ interval.2 := by
  by_contra longer
  have upright := first.head_upright
  have inside : interval.2 ∈ covered (other :: others) :=
    second.mem_covered_cons.mpr (Or.inl ⟨by omega, by omega⟩)
  rcases first.mem_covered_cons.mp (covers inside) with ⟨-, before⟩ | ⟨behind, -⟩
  · exact lt_irrefl _ before
  · exact lt_irrefl _ behind

/-- Behind a common first interval the second list covers what the first one does, if it does so on the whole. -/
theorem Separated.tail_subset (first : Separated (interval :: merged)) (second : Separated (interval :: others))
    (covers : covered (interval :: merged) ⊆ covered (interval :: others)) : covered merged ⊆ covered others := by
  intro instant later
  obtain ⟨one, among, after, -⟩ := mem_covered.mp later
  have gap := first.head_gap one among
  rcases second.mem_covered_cons.mp (covers (first.mem_covered_cons.mpr (Or.inr ⟨by omega, later⟩))) with
    ⟨-, before⟩ | ⟨-, there⟩
  · omega
  · exact there

/-- **Separated intervals are determined** by the instants that they cover. -/
theorem Separated.ext (first : Separated intervals) (second : Separated others)
    (same : covered intervals = covered others) : intervals = others := by
  induction intervals generalizing others with
  | nil =>
      cases others with
      | nil => rfl
      | cons other others =>
          have start : other.1 ∈ covered (other :: others) :=
            second.mem_covered_cons.mpr (Or.inl ⟨le_rfl, second.head_upright⟩)
          rw [← same, covered_nil] at start
          cases start
  | cons interval rest ih =>
      cases others with
      | nil =>
          have start : interval.1 ∈ covered (interval :: rest) :=
            first.mem_covered_cons.mpr (Or.inl ⟨le_rfl, first.head_upright⟩)
          rw [same, covered_nil] at start
          cases start
      | cons other others =>
          have starts : interval.1 = other.1 :=
            le_antisymm (second.start_le first same.ge) (first.start_le second same.le)
          have ends : interval.2 = other.2 :=
            le_antisymm (second.end_le first starts.symm same.le) (first.end_le second starts same.ge)
          have heads : interval = other := Prod.ext starts ends
          subst heads
          have rests : covered rest = covered others :=
            (first.tail_subset second same.le).antisymm (second.tail_subset first same.ge)
          rw [ih first.tail second.tail rests]

/-- Merging depends on the covered instants alone. -/
theorem mergeIntervals_eq_iff : mergeIntervals intervals = mergeIntervals others ↔
    covered intervals = covered others := by
  obtain ⟨first, covers⟩ := mergeIntervals_spec intervals
  obtain ⟨second, covers'⟩ := mergeIntervals_spec others
  constructor
  · intro same
    rw [← covers, ← covers', same]
  · intro same
    exact first.ext second (by rw [covers, covers', same])

/-- Intervals without an instant cover nothing. -/
theorem covered_filter_upright :
    covered (intervals.filter fun interval => interval.1 < interval.2) = covered intervals := by
  ext instant
  simp only [mem_covered, List.mem_filter, decide_eq_true_eq]
  constructor
  · intro inside
    obtain ⟨interval, ⟨among, -⟩, within⟩ := inside
    exact ⟨interval, among, within⟩
  · intro inside
    obtain ⟨interval, among, after, ahead⟩ := inside
    exact ⟨interval, ⟨among, after.trans_lt ahead⟩, after, ahead⟩

/-- **Merging intervals**: the result is sorted by the starts, and its intervals are not empty and end before the
next one begins. It covers the instants of the intervals that are not empty, and its total is their number. It is
merged into itself, and the order of the input does not matter. -/
theorem mergeIntervals_merges (intervals : List (ℤ × ℤ)) :
    ((mergeIntervals intervals).Pairwise (fun first second => first.1 < second.1) ∧
      (∀ interval ∈ mergeIntervals intervals, interval.1 < interval.2) ∧
      ((mergeIntervals intervals).Pairwise fun first second =>
        first.2 < second.1 ∧ Disjoint (instants first) (instants second))) ∧
    (covered (mergeIntervals intervals) =
        covered (intervals.filter fun interval => interval.1 < interval.2) ∧
      totalIntervalUs (mergeIntervals intervals) =
        (covered (intervals.filter fun interval => interval.1 < interval.2)).card) ∧
    mergeIntervals (mergeIntervals intervals) = mergeIntervals intervals ∧
    ∀ others, intervals.Perm others → mergeIntervals others = mergeIntervals intervals := by
  obtain ⟨separated, covers⟩ := mergeIntervals_spec intervals
  refine ⟨⟨?_, separated.upright, ?_⟩, ⟨?_, ?_⟩, ?_, fun others order => ?_⟩
  · refine separated.gaps.imp_of_mem fun {first second} among _ gap => ?_
    exact (separated.upright first among).trans gap
  · refine separated.gaps.imp fun {first second} gap => ⟨gap, ?_⟩
    rw [Finset.disjoint_left]
    intro instant here there
    rw [mem_instants] at here there
    omega
  · rw [covers, covered_filter_upright]
  · rw [totalIntervalUs_merge, covered_filter_upright]
  · exact mergeIntervals_eq_iff.mpr covers
  · exact mergeIntervals_eq_iff.mpr (covered_congr fun interval => order.symm.mem_iff)

end Canonical

/-- Sorted intervals that overlap, touch, and are contained in one another. -/
example : [(0, 2), (1, 3), (3, 4), (6, 8), (6, 7)].foldl mergeStep [] = [(0, 4), (6, 8)] := by
  decide

end Mcoz.Analyzer
