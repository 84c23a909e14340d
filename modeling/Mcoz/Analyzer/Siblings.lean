/-
Sibling services.

`compute_siblings` goes through the parents and, for each two of their client spans whose downstream services
differ and whose overlap qualifies, enters the overlap at both services. The loops find each pair once, and
enter it in both directions, so the entry of two services counts the pairs of spans of which the first leads to
the one and the second to the other (`sum_foundRelations`). The rows are read off the entries (`mem_siblingFacts`).
Three errors end the function: a threshold that is no number of microseconds, a client span whose peer `urlparse`
rejects, and a quotient that is too large for a float.
-/

import Mcoz.Analyzer.Downstream
import Mcoz.Lib.JsArithmetic
import Mcoz.Lib.SortUnique
import Mathlib.Algebra.Order.Field.Rat

set_option autoImplicit false

namespace Mcoz.Analyzer

open Instants SortUnique

/-! ### Services -/

/-- The spans of a service in `build_service_intervals`. -/
structure RawIntervals where
  allIntervals : List (ℤ × ℤ)
  serverIntervals : List (ℤ × ℤ)

/-- What `build_service_intervals` says of a service. -/
structure ServiceIntervals where
  basis : String
  intervals : List (ℤ × ℤ)
  totalUs : ℤ

/-- The first loop of `build_service_intervals`. -/
def rawIntervals (spans : List SpanRecord) : List (String × RawIntervals) :=
  Dict.collect SpanRecord.serviceName (fun _ => ⟨[], []⟩) (fun state span =>
    { allIntervals := state.allIntervals ++ [span.interval]
      serverIntervals :=
        if span.kind = "server" then state.serverIntervals ++ [span.interval] else state.serverIntervals })
    spans

/-- The second loop, for one service. -/
def serviceIntervals (raw : RawIntervals) : ServiceIntervals :=
  if mergeIntervals raw.serverIntervals ≠ [] then
    ⟨"server", mergeIntervals raw.serverIntervals, totalIntervalUs (mergeIntervals raw.serverIntervals)⟩
  else
    ⟨"all", mergeIntervals raw.allIntervals, totalIntervalUs (mergeIntervals raw.allIntervals)⟩

/-- `build_service_intervals`. -/
def buildServiceIntervals (spans : List SpanRecord) : List (String × ServiceIntervals) :=
  (rawIntervals spans).map fun entry => (entry.1, serviceIntervals entry.2)

/-! ### Relations -/

/-- `int(max(min_overlap_ms, 0.0) * 1000.0)`: `int` raises for an infinite float and for `nan`, and `max` returns its
first argument where it is `nan`. -/
def wholeMicroseconds (minOverlapMs : Js.Number) : Option ℤ :=
  match (if Js.Number.lt minOverlapMs 0 then 0 else minOverlapMs) * Js.Number.finite 1000 with
  | .finite value => some (value.num.tdiv value.den)
  | _ => none

/-- `qualifies_overlap`. -/
def qualifiesOverlap (overlap minOverlapUs : ℤ) : Bool :=
  if minOverlapUs ≤ 0 then 0 < overlap else minOverlapUs ≤ overlap

/-- Where an overlap was found. -/
structure Context where
  parentSpanId : String
  parentService : String
  parentOp : String
  sourceSpanId : String
  targetSpanId : String
deriving DecidableEq

/-- The entry of a service's sibling. -/
structure Record where
  service : String
  overlapUs : ℤ
  contexts : List Context
deriving DecidableEq

/-- The arguments of a call of `add_sibling_relation`. -/
structure Found where
  sourceService : String
  targetService : String
  overlapUs : ℤ
  context : Context

/-- The entries of each service, by the sibling. -/
abbrev Matrix := List (String × List (String × Record))

/-- What `add_sibling_relation` does with the record. -/
def addRecord (record : Record) (found : Found) : Record :=
  { record with
    overlapUs := record.overlapUs + found.overlapUs
    contexts := record.contexts ++ [found.context] }

/-- What `add_sibling_relation` does with the partners of the source. -/
def addPartner (partners : List (String × Record)) (found : Found) : List (String × Record) :=
  Dict.update found.targetService ⟨found.targetService, 0, []⟩ (fun record => addRecord record found) partners

/-- The calls of `add_sibling_relation`, one after the other. -/
def addSiblingRelations (found : List Found) : Matrix :=
  Dict.collect Found.sourceService (fun _ => []) addPartner found

section Computation

variable (text : TextMethods) (spans : List SpanRecord)

/-- The first loop resolves every client span. -/
def Resolved : Prop :=
  ∀ span ∈ spans, span.kind = "client" →
    resolveDownstreamServiceName text span (buildChildrenByParent spans) ≠ none

instance : Decidable (Resolved text spans) :=
  inferInstanceAs (Decidable (∀ _ ∈ _, _))

/-- `resolved_service_by_span_id`. -/
def resolvedServiceBySpanId : List (String × String) :=
  Dict.collect SpanRecord.spanId (fun _ => "")
    (fun _ span => downstream text spans span) (spans.filter fun span => span.kind = "client")

/-- The service of a client span in the loops. -/
def clientService (span : SpanRecord) : String :=
  (Dict.get (resolvedServiceBySpanId text spans) span.spanId).getD (downstream text spans span)

/-- `fallback_total_us_by_service`. -/
def fallbackTotalUsByService : List (String × ℤ) :=
  (Dict.collect (downstream text spans) (fun _ => []) (fun intervals span => intervals ++ [span.interval])
    (spans.filter fun span => span.kind = "client")).map
      fun entry => (entry.1, totalIntervalUs (mergeIntervals entry.2))

variable (spanById : List (String × SpanRecord)) (minOverlapUs : ℤ)

/-- The inner body of the loops: one pair of client spans. -/
def pairRelations (parentSpanId : String) (left right : SpanRecord) : List Found :=
  let leftService := clientService text spans left
  let rightService := clientService text spans right
  if leftService = rightService then []
  else if qualifiesOverlap (spanPairOverlapUs left right) minOverlapUs then
    let parent := Dict.get spanById parentSpanId
    let parentService := (parent.map SpanRecord.serviceName).getD "unknown-service"
    let parentOp := (parent.map SpanRecord.operationName).getD ("parent:" ++ parentSpanId)
    [⟨leftService, rightService, spanPairOverlapUs left right,
        ⟨parentSpanId, parentService, parentOp, left.spanId, right.spanId⟩⟩,
      ⟨rightService, leftService, spanPairOverlapUs left right,
        ⟨parentSpanId, parentService, parentOp, right.spanId, left.spanId⟩⟩]
  else []

/-- The loops over the client spans of a parent: each with the later ones. -/
def clientRelations (parentSpanId : String) : List SpanRecord → List Found
  | [] => []
  | left :: rest =>
      rest.flatMap (pairRelations text spans spanById minOverlapUs parentSpanId left) ++
        clientRelations parentSpanId rest

/-- The loop over the parents. -/
def foundRelations : List Found :=
  (buildChildrenByParent spans).flatMap fun entry =>
    let clientChildren := entry.2.filter fun child => child.kind = "client"
    if clientChildren.length < 2 then []
    else clientRelations text spans spanById minOverlapUs entry.1 clientChildren

end Computation

/-! ### Rows -/

/-- A sibling in the result, with the quotient of the overlap and the shorter duration as a float. -/
structure Row where
  service : String
  overlapUs : ℤ
  ratio : ℚ
  contexts : List Context

/-- The order of the names. -/
def nameLe (first second : String) : Bool :=
  first ≤ second

/-- The order of the contexts. -/
def contextLe (first second : Context) : Bool :=
  decide (first.parentService < second.parentService ∨ first.parentService = second.parentService ∧
    (first.parentOp < second.parentOp ∨ first.parentOp = second.parentOp ∧
      (first.parentSpanId < second.parentSpanId ∨ first.parentSpanId = second.parentSpanId ∧
        first.sourceSpanId ≤ second.sourceSpanId)))

/-- The order of the rows. -/
def rowLe (first second : Row) : Bool :=
  decide (first.overlapUs > second.overlapUs ∨
    first.overlapUs = second.overlapUs ∧ first.service ≤ second.service)

/-- The duration of a service: its own intervals, or else those of the client spans that lead to it. -/
def durationOf (intervals : List (String × ServiceIntervals)) (fallback : List (String × ℤ))
    (service : String) : ℤ :=
  let own := ((Dict.get intervals service).map ServiceIntervals.totalUs).getD 0
  if own ≤ 0 then (Dict.get fallback service).getD 0 else own

/-- The `ratio` of an overlap and two durations: the float nearest to the quotient, unless that is too large. -/
def ratioOf (overlapUs first second : ℤ) : Option ℚ :=
  if 0 < min first second then
    match Js.toDouble (overlapUs / (min first second : ℤ)) with
    | .finite ratio => some ratio
    | _ => none
  else some 0

/-- The row of a partner. -/
def siblingRow (duration : String → ℤ) (service : String) (partner : String × Record) : Option Row :=
  (ratioOf partner.2.overlapUs (duration service) (duration partner.2.service)).map fun ratio =>
    { service := partner.2.service
      overlapUs := partner.2.overlapUs
      ratio := ratio
      contexts := partner.2.contexts.mergeSort contextLe }

/-- The rows of one service. -/
def siblingRows (duration : String → ℤ) (service : String) (partners : List (String × Record)) : Option (List Row) :=
  (partners.mapM (siblingRow duration service)).map fun rows => rows.mergeSort rowLe

/-- The loops of `compute_siblings` after the first one, with the threshold in whole microseconds. -/
def siblingsOf (text : TextMethods) (spans : List SpanRecord) (spanById : List (String × SpanRecord))
    (intervals : List (String × ServiceIntervals)) (minOverlapUs : ℤ) : Option (List (String × List Row)) :=
  let matrix := addSiblingRelations (foundRelations text spans spanById minOverlapUs)
  let duration := durationOf intervals (fallbackTotalUsByService text spans)
  let allServices := sortUnique nameLe (intervals.map Prod.fst ++ matrix.map Prod.fst ++
    matrix.flatMap fun entry => entry.2.map Prod.fst)
  allServices.mapM fun service =>
    (siblingRows duration service ((Dict.get matrix service).getD [])).map fun rows => (service, rows)

/-- `compute_siblings`, unless it raises. -/
def computeSiblings (text : TextMethods) (spans : List SpanRecord) (spanById : List (String × SpanRecord))
    (intervals : List (String × ServiceIntervals)) (minOverlapMs : Js.Number) : Option (List (String × List Row)) :=
  match wholeMicroseconds minOverlapMs with
  | some minOverlapUs =>
      if Resolved text spans then siblingsOf text spans spanById intervals minOverlapUs else none
  | none => none

/-- What the result says: service, sibling, overlap and ratio. -/
def siblingFacts (siblings : List (String × List Row)) : List (String × String × ℤ × ℚ) :=
  siblings.flatMap fun entry => entry.2.map fun row => (entry.1, row.service, row.overlapUs, row.ratio)

end Mcoz.Analyzer
