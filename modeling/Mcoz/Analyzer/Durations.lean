/-
The durations of the services.

The duration of a service is the number of instants of its server spans, or of all its spans where these cover
none, or of the client spans that lead to it where the trace has no other (`durationOf_eq`).
-/

import Mcoz.Analyzer.Siblings

set_option autoImplicit false

namespace Mcoz.Analyzer

open Instants

/-- The instants of a service: those of its server spans, or else of all its spans, or else of the client spans
that lead to it. -/
def busy (text : TextMethods) (spans : List SpanRecord) (service : String) : Finset ℤ :=
  let server := (spans.filter fun span => span.serviceName = service ∧ span.kind = "server").map SpanRecord.interval
  let own := (spans.filter fun span => span.serviceName = service).map SpanRecord.interval
  let client := (spans.filter fun span => span.kind = "client" ∧
    downstream text spans span = service).map SpanRecord.interval
  if covered server ≠ ∅ then covered server else if covered own ≠ ∅ then covered own else covered client

section Durations

variable {text : TextMethods} {spans others : List SpanRecord} {service : String} {raw : RawIntervals}

theorem mergeIntervals_ne_nil_iff {intervals : List (ℤ × ℤ)} :
    mergeIntervals intervals ≠ [] ↔ covered intervals ≠ ∅ := by
  obtain ⟨separated, covers⟩ := mergeIntervals_spec intervals
  rw [← covers]
  constructor
  · intro nonempty
    obtain ⟨interval, among⟩ := List.exists_mem_of_ne_nil _ nonempty
    exact Finset.ne_empty_of_mem
      (mem_covered.mpr ⟨interval, among, le_rfl, separated.upright interval among⟩)
  · intro nonempty empty
    rw [empty] at nonempty
    exact nonempty covered_nil

theorem totalUs_eq : (serviceIntervals raw).totalUs =
    if covered raw.serverIntervals ≠ ∅ then ((covered raw.serverIntervals).card : ℤ)
    else (covered raw.allIntervals).card := by
  unfold serviceIntervals
  by_cases server : mergeIntervals raw.serverIntervals ≠ []
  · rw [if_pos server, if_pos (mergeIntervals_ne_nil_iff.mp server)]
    exact totalIntervalUs_merge
  · rw [if_neg server, if_neg fun nonempty => server (mergeIntervals_ne_nil_iff.mpr nonempty)]
    exact totalIntervalUs_merge

theorem get_rawIntervals : (Dict.get (rawIntervals spans) service).getD ⟨[], []⟩ =
    { allIntervals := (spans.filter fun span => span.serviceName = service).map SpanRecord.interval
      serverIntervals := (spans.filter fun span => span.serviceName = service ∧ span.kind = "server").map
        SpanRecord.interval } := by
  have loop (own : List SpanRecord) (state : RawIntervals) :
      own.foldl (fun state span => RawIntervals.mk (state.allIntervals ++ [span.interval])
        (if span.kind = "server" then state.serverIntervals ++ [span.interval] else state.serverIntervals)) state =
      ⟨state.allIntervals ++ own.map SpanRecord.interval, state.serverIntervals ++
        (own.filter fun span => span.kind = "server").map SpanRecord.interval⟩ := by
    induction own generalizing state with
    | nil => simp
    | cons span rest ih =>
        rw [List.foldl_cons, ih]
        by_cases server : span.kind = "server" <;> simp [server]
  have collected := @Dict.getD_collect _ _ _ _ SpanRecord.serviceName (fun _ => RawIntervals.mk [] [])
    (fun state span => RawIntervals.mk (state.allIntervals ++ [span.interval])
      (if span.kind = "server" then state.serverIntervals ++ [span.interval] else state.serverIntervals))
    spans service
  rw [loop, List.nil_append, List.nil_append, List.filter_filter] at collected
  refine collected.trans (congrArg _ (congrArg _ (List.filter_congr fun span _ => ?_)))
  rw [Bool.decide_and, Bool.and_comm]

theorem totalUs_buildServiceIntervals :
    ((Dict.get (buildServiceIntervals spans) service).map ServiceIntervals.totalUs).getD 0 =
      (serviceIntervals ((Dict.get (rawIntervals spans) service).getD ⟨[], []⟩)).totalUs := by
  rw [buildServiceIntervals, Dict.get_map]
  cases Dict.get (rawIntervals spans) service with
  | none => exact (@totalUs_eq ⟨[], []⟩).symm
  | some raw => rfl

/-- The fallback of a service is the number of the instants of the client spans that lead to it. -/
theorem fallbackTotalUs_eq : (Dict.get (fallbackTotalUsByService text spans) service).getD 0 =
    (covered ((spans.filter fun span => span.kind = "client" ∧
      downstream text spans span = service).map
        SpanRecord.interval)).card := by
  have collected := @Dict.getD_collect _ _ _ _
    (downstream text spans) (fun _ => ([] : List (ℤ × ℤ))) (fun intervals span => intervals ++ [span.interval])
    (spans.filter fun span => span.kind = "client") service
  have total (intervals : Option (List (ℤ × ℤ))) :
      (intervals.map fun intervals => totalIntervalUs (mergeIntervals intervals)).getD 0 =
        (covered (intervals.getD [])).card := by
    cases intervals with
    | none => rfl
    | some intervals => exact totalIntervalUs_merge
  rw [fallbackTotalUsByService,
    @Dict.get_map _ _ _ _ _ _ fun intervals => totalIntervalUs (mergeIntervals intervals), total, collected,
    Dict.foldl_concat, List.nil_append, List.filter_filter]
  refine congrArg (fun spans => ((covered (List.map SpanRecord.interval spans)).card : ℤ)) ?_
  exact List.filter_congr fun span _ => by rw [Bool.decide_and, Bool.and_comm]

/-- **The duration of a service** is the number of its instants. -/
theorem durationOf_eq :
    durationOf (buildServiceIntervals spans) (fallbackTotalUsByService text spans) service =
      (busy text spans service).card := by
  rw [durationOf, totalUs_buildServiceIntervals, get_rawIntervals, totalUs_eq, fallbackTotalUs_eq, busy]
  dsimp only
  have positive {instants : Finset ℤ} (nonempty : instants ≠ ∅) : ¬ (instants.card : ℤ) ≤ 0 := by
    have := Finset.card_pos.mpr (Finset.nonempty_iff_ne_empty.mpr nonempty)
    omega
  by_cases server : covered ((spans.filter fun span => span.serviceName = service ∧ span.kind = "server").map
      SpanRecord.interval) = ∅
  · rw [if_neg (not_not.mpr server), if_neg (not_not.mpr server)]
    by_cases all : covered ((spans.filter fun span => span.serviceName = service).map SpanRecord.interval) = ∅
    · rw [if_neg (not_not.mpr all), all]
      rfl
    · rw [if_pos all, if_neg (positive all)]
  · rw [if_pos server, if_pos server, if_neg (positive server)]

/-- The instants of a service do not depend on the order of the spans. -/
theorem busy_perm (order : spans.Perm others) : busy text spans service = busy text others service := by
  have same (kept kept' : SpanRecord → Bool) (equal : kept = kept') :
      covered ((spans.filter kept).map SpanRecord.interval) =
        covered ((others.filter kept').map SpanRecord.interval) := by
    subst equal
    exact covered_congr fun interval => ((order.filter kept).map _).mem_iff
  rw [busy, busy, same _ _ rfl, same _ _ rfl, same]
  funext span
  rw [downstream_perm order]

end Durations

end Mcoz.Analyzer
