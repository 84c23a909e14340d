/-
The test for any overlap of spans.

`has_any_overlap` sorts the spans and looks for one that starts before an earlier one has ended. It finds the
pairs that overlap, and also a span without a duration inside another one, which overlaps nothing
(`hasAnyOverlap_iff`).
-/

import Mcoz.Analyzer.Spans

set_option autoImplicit false

namespace Mcoz.Analyzer

/-- The loop of `has_any_overlap`. -/
def sweep (activeEnd : ℤ) : List SpanRecord → Bool
  | [] => false
  | span :: rest => if span.startUs < activeEnd then true else sweep (max activeEnd span.endUs) rest

/-- The order of start and end. -/
def spanLe (first second : SpanRecord) : Bool :=
  pairLe first.interval second.interval

/-- `has_any_overlap`. -/
def hasAnyOverlap (spans : List SpanRecord) : Bool :=
  if spans.length < 2 then false
  else
    match spans.mergeSort spanLe with
    | [] => false
    | first :: rest => sweep first.endUs rest

/-- Two different elements of the list overlap. -/
def OverlapPair (spans : List SpanRecord) : Prop :=
  ∃ (i j : ℕ) (left right : SpanRecord), i ≠ j ∧ spans[i]? = some left ∧ spans[j]? = some right ∧
    0 < spanPairOverlapUs left right

/-- The second span has no duration and starts inside the first. -/
def Inside (outer inner : SpanRecord) : Prop :=
  inner.startUs = inner.endUs ∧ outer.startUs < inner.startUs ∧ inner.startUs < outer.endUs

/-- Neither do the spans overlap, nor is one of them inside the other. -/
def Clear (first second : SpanRecord) : Prop :=
  ¬ 0 < spanPairOverlapUs first second ∧ ¬ Inside first second ∧ ¬ Inside second first

section Sweep

variable {spans : List SpanRecord} {first second : SpanRecord} {activeEnd : ℤ}

/-- The sweep finds nothing if every span starts after the earlier ones have ended. -/
theorem sweep_eq_false_iff : sweep activeEnd spans = false ↔
    (∀ span ∈ spans, activeEnd ≤ span.startUs) ∧
      spans.Pairwise fun first second => first.endUs ≤ second.startUs := by
  induction spans generalizing activeEnd with
  | nil => exact iff_of_true rfl ⟨by simp, List.Pairwise.nil⟩
  | cons span rest ih =>
      rw [sweep, List.forall_mem_cons, List.pairwise_cons]
      by_cases early : span.startUs < activeEnd
      · rw [if_pos early]
        exact iff_of_false (by simp) fun both => absurd both.1.1 (not_le.mpr early)
      · rw [if_neg early, ih]
        simp only [max_le_iff, forall_and, not_lt.mp early, true_and]
        exact and_assoc

theorem hasAnyOverlap_eq_false_iff : hasAnyOverlap spans = false ↔
    (spans.mergeSort spanLe).Pairwise fun first second => first.endUs ≤ second.startUs := by
  have size := @List.length_mergeSort _ spanLe spans
  unfold hasAnyOverlap
  by_cases few : spans.length < 2
  · rw [if_pos few]
    refine iff_of_true rfl ?_
    rcases sorted : spans.mergeSort spanLe with _ | ⟨first, _ | ⟨second, rest⟩⟩
    · exact List.Pairwise.nil
    · exact List.pairwise_singleton ..
    · rw [sorted, List.length_cons, List.length_cons] at size
      omega
  · rw [if_neg few]
    cases spans.mergeSort spanLe with
    | nil => exact iff_of_true rfl List.Pairwise.nil
    | cons first rest => rw [List.pairwise_cons, sweep_eq_false_iff]

theorem overlap_pos_iff : 0 < spanPairOverlapUs first second ↔
    max first.startUs second.startUs < min first.endUs second.endUs := by
  simp only [spanPairOverlapUs]
  split <;> omega

/-- Of two spans in order, the second starts after the first has ended exactly if they are clear. -/
theorem clear_iff (sorted : spanLe first second = true) (upright : first.startUs ≤ first.endUs)
    (upright' : second.startUs ≤ second.endUs) : first.endUs ≤ second.startUs ↔ Clear first second := by
  have before : first.startUs < second.startUs ∨
      first.startUs = second.startUs ∧ first.endUs ≤ second.endUs := pairLe_iff.mp sorted
  rw [Clear, overlap_pos_iff, Inside, Inside]
  omega

theorem clear_symm (clear : Clear first second) : Clear second first :=
  ⟨@spanPairOverlapUs_comm first _ ▸ clear.1, clear.2.2, clear.2.1⟩

theorem overlapPair_iff :
    OverlapPair spans ↔ ¬ spans.Pairwise fun first second => ¬ 0 < spanPairOverlapUs first second := by
  rw [List.pairwise_iff_getElem]
  constructor
  · rintro ⟨i, j, left, right, different, here, there, overlap⟩ apart
    obtain ⟨bound, rfl⟩ := List.getElem?_eq_some_iff.mp here
    obtain ⟨bound', rfl⟩ := List.getElem?_eq_some_iff.mp there
    rcases Nat.lt_or_gt_of_ne different with before | after
    · exact apart i j bound bound' before overlap
    · exact apart j i bound' bound after (@spanPairOverlapUs_comm spans[i] _ ▸ overlap)
  · intro overlaps
    push Not at overlaps
    obtain ⟨i, j, bound, bound', before, overlap⟩ := overlaps
    exact ⟨i, j, _, _, before.ne, List.getElem?_eq_getElem bound, List.getElem?_eq_getElem bound', overlap⟩

theorem not_inside_self : ¬ Inside first first :=
  fun inside => lt_irrefl _ inside.2.1

/-- No two spans of the list are in each other exactly if this holds of all its spans. -/
theorem pairwise_not_inside_iff :
    (spans.Pairwise fun first second => ¬ Inside first second ∧ ¬ Inside second first) ↔
      ∀ outer ∈ spans, ∀ inner ∈ spans, ¬ Inside outer inner := by
  constructor
  · intro apart outer among inner among'
    have all := List.Pairwise.forall_of_forall_of_flip (fun span _ => ⟨not_inside_self, not_inside_self⟩) apart
      (apart.imp fun both => And.symm both)
    exact (all among among').1
  · intro apart
    refine List.pairwise_of_forall_mem_list fun first among second among' => ?_
    exact ⟨apart first among second among', apart second among' first among⟩

/-- **What the test finds**: a pair that overlaps, or a span without a duration inside another. -/
theorem hasAnyOverlap_iff_or (durations : ∀ span ∈ spans, span.startUs ≤ span.endUs) :
    hasAnyOverlap spans = true ↔
      OverlapPair spans ∨ ∃ outer ∈ spans, ∃ inner ∈ spans, Inside outer inner := by
  have order := @List.pairwise_mergeSort _ spanLe (fun _ _ _ => pairLe_trans _ _ _)
    (fun _ _ => pairLe_total _ _) spans
  have sorted : hasAnyOverlap spans = false ↔ (spans.mergeSort spanLe).Pairwise Clear := by
    rw [hasAnyOverlap_eq_false_iff]
    constructor
    · intro apart
      refine (order.and apart).imp_of_mem fun here there both => ?_
      exact (clear_iff both.1 (durations _ (List.mem_mergeSort.mp here))
        (durations _ (List.mem_mergeSort.mp there))).mp both.2
    · intro clear
      refine (order.and clear).imp_of_mem fun here there both => ?_
      exact (clear_iff both.1 (durations _ (List.mem_mergeSort.mp here))
        (durations _ (List.mem_mergeSort.mp there))).mpr both.2
  rw [← Bool.not_eq_false, sorted, (List.mergeSort_perm spans spanLe).pairwise_iff clear_symm,
    overlapPair_iff]
  have both : spans.Pairwise Clear ↔ (spans.Pairwise fun first second => ¬ 0 < spanPairOverlapUs first second) ∧
      ∀ outer ∈ spans, ∀ inner ∈ spans, ¬ Inside outer inner := by
    rw [← pairwise_not_inside_iff]
    exact List.pairwise_and_iff
  rw [both, not_and_or]
  simp only [not_forall, not_not, exists_prop]

/-- **The test agrees with the pairs** exactly if some pair overlaps, or no span without a duration starts
inside another one. -/
theorem hasAnyOverlap_iff (durations : ∀ span ∈ spans, span.startUs ≤ span.endUs) :
    (hasAnyOverlap spans = true ↔ OverlapPair spans) ↔
      (OverlapPair spans ∨ ¬ ∃ outer ∈ spans, ∃ inner ∈ spans, Inside outer inner) := by
  rw [hasAnyOverlap_iff_or durations]
  by_cases pair : OverlapPair spans
  · exact iff_of_true (iff_of_true (Or.inl pair) pair) (Or.inl pair)
  · rw [iff_false_right pair, or_iff_right pair, or_iff_right pair]

end Sweep

/-- A client span with this start and end. -/
def clientSpan (spanId : String) (startUs endUs : ℤ) : SpanRecord where
  spanId := spanId
  serviceName := "web"
  operationName := "GET"
  startUs := startUs
  endUs := endUs
  durationUs := endUs - startUs
  kind := "client"
  parentSpanId := some "p"
  peer := ""

/-- A span without a duration inside another one is found, though they do not overlap. -/
theorem momentary_span_found :
    hasAnyOverlap [clientSpan "a" 0 10, clientSpan "b" 5 5] = true ∧
      ¬ OverlapPair [clientSpan "a" 0 10, clientSpan "b" 5 5] := by
  constructor
  · refine (hasAnyOverlap_iff_or ?_).mpr (Or.inr ⟨clientSpan "a" 0 10, ?_, clientSpan "b" 5 5, ?_, ?_⟩)
    · simp [clientSpan]
    · simp
    · simp
    · exact ⟨rfl, by decide, by decide⟩
  · rw [overlapPair_iff, not_not]
    exact List.pairwise_pair.mpr (by decide)

theorem hasAnyOverlap_iff_pair :
    hasAnyOverlap [clientSpan "a" 0 10, clientSpan "b" 5 8] = true ↔
      OverlapPair [clientSpan "a" 0 10, clientSpan "b" 5 8] := by
  refine (hasAnyOverlap_iff (by simp [clientSpan])).mpr (Or.inl ?_)
  exact ⟨0, 1, clientSpan "a" 0 10, clientSpan "b" 5 8, by decide, rfl, rfl, by decide⟩

end Mcoz.Analyzer
