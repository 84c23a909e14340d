/-
The fan-outs of a service.

`detect_fanout_candidates` groups the client spans by their service and parent, and reports each group in which
spans overlap; groups below a server span go first, in the sense that a service that has one reports no other. So
the report of a service is determined by its spans (`fanout_spec`): each of its fan-outs is in it once, the
longest first, with the span ids, the services and the window of its spans. A peer that cannot be parsed ends the
report if its call is in a fan-out.
-/

import Mcoz.Analyzer.SiblingSets
import Mcoz.Analyzer.Sweep
import Mcoz.Analyzer.Trace

set_option autoImplicit false

namespace Mcoz.Analyzer

open SortUnique

/-! ### Candidates -/

/-- The service and the parent of a span. -/
def SpanRecord.caller (span : SpanRecord) : String × String :=
  (span.serviceName, span.parentKey)

/-- The spans that `detect_fanout_candidates` groups. -/
def calls (spans : List SpanRecord) : List SpanRecord :=
  spans.filter fun span => span.kind = "client" ∧ span.parentKey ≠ ""

/-- `grouped`. -/
def grouped (spans : List SpanRecord) : List ((String × String) × List SpanRecord) :=
  Dict.group SpanRecord.caller (calls spans)

/-- The order of `sorted(children, key=lambda x: x.start_us)`. -/
def startLe (first second : SpanRecord) : Bool :=
  first.startUs ≤ second.startUs

section Detection

variable (text : TextMethods) (spans : List SpanRecord) (spanById : List (String × SpanRecord))

/-- The groups with spans that overlap. -/
def overlapping : List ((String × String) × List SpanRecord) :=
  (grouped spans).filter fun entry => ¬ entry.2.length < 2 ∧ hasAnyOverlap entry.2

/-- The candidate of a group. -/
def candidateOf (parentId : String) (children : List SpanRecord) : Candidate :=
  let parent := Dict.get spanById parentId
  let windowStart := (children.map SpanRecord.startUs).min?.getD 0
  let windowEnd := (children.map SpanRecord.endUs).max?.getD 0
  { parentSpanId := parentId
    parentKind := (parent.map SpanRecord.kind).getD "unknown"
    parentOp := (parent.map SpanRecord.operationName).getD ("parent:" ++ parentId)
    peers := sortUnique nameLe ((children.map (downstream text spans)).filter (· ≠ ""))
    groupDurUs := max (windowEnd - windowStart) 0
    spanCount := children.length
    spanIds := (children.mergeSort startLe).map SpanRecord.spanId }

/-- The candidates with their services, in the order of the groups. -/
def candidates : List (String × Candidate) :=
  (overlapping spans).map fun entry => (entry.1.1, candidateOf text spans spanById entry.1.2 entry.2)

/-- `per_service`. -/
def perService : List (String × List Candidate) :=
  Dict.collect Prod.fst (fun _ => []) (fun cands entry => cands ++ [entry.2]) (candidates text spans spanById)

/-- The order of the candidates. -/
def candidateLe (first second : Candidate) : Bool :=
  decide (first.groupDurUs > second.groupDurUs ∨
    first.groupDurUs = second.groupDurUs ∧ first.parentOp ≤ second.parentOp)

/-- The candidates that are reported, sorted. -/
def chosen (cands : List Candidate) : List Candidate :=
  let serverParentCands := cands.filter fun cand => cand.parentKind = "server"
  (if serverParentCands ≠ [] then serverParentCands else cands).mergeSort candidateLe

/-- `filtered`. -/
def filtered : List (String × List Candidate) :=
  (perService text spans spanById).map fun entry => (entry.1, chosen entry.2)

/-- `detect_fanout_candidates`, which resolves the spans of the groups that overlap, unless that raises. -/
def detectFanoutCandidates : Option (List (String × List Candidate)) :=
  if ∀ entry ∈ overlapping spans, ∀ child ∈ entry.2,
      resolveDownstreamServiceName text child (buildChildrenByParent spans) ≠ none then
    some (filtered text spans spanById)
  else none

end Detection

/-! ### Fan-outs -/

/-- The client spans of a service below a parent. -/
def groupOf (spans : List SpanRecord) (service parentId : String) : List SpanRecord :=
  spans.filter fun span => (span.kind = "client" ∧ span.parentKey ≠ "") ∧ span.caller = (service, parentId)

/-- Two of the calls overlap, or one without a duration is inside another. -/
def FansOut (spans : List SpanRecord) (service parentId : String) : Prop :=
  OverlapPair (groupOf spans service parentId) ∨
    ∃ outer ∈ groupOf spans service parentId, ∃ inner ∈ groupOf spans service parentId, Inside outer inner

/-- The last span with the id of the parent is one of a server. -/
def UnderServer (spans : List SpanRecord) (parentId : String) : Prop :=
  ∃ parent, (spans.reverse.find? fun span => span.spanId = parentId) = some parent ∧ parent.kind = "server"

/-- What a candidate says of its group. -/
structure Describes (text : TextMethods) (spans group : List SpanRecord) (cand : Candidate) : Prop where
  ids : cand.spanIds.Perm (group.map SpanRecord.spanId)
  count : cand.spanCount = group.length
  peers : ∀ peer, peer ∈ cand.peers ↔ peer ≠ "" ∧ ∃ span ∈ group, downstream text spans span = peer
  named : cand.peers.Pairwise (· < ·)
  window : (∃ first ∈ group, ∃ last ∈ group, cand.groupDurUs = last.endUs - first.startUs) ∧
    ∀ first ∈ group, ∀ last ∈ group, last.endUs - first.startUs ≤ cand.groupDurUs

section Groups

variable {text : TextMethods} {spans group : List SpanRecord} {spanById : List (String × SpanRecord)}
  {service parentId : String} {cand : Candidate} {cands : List Candidate}

theorem mem_grouped_iff : ((service, parentId), group) ∈ grouped spans ↔
    group ≠ [] ∧ group = groupOf spans service parentId := by
  rw [grouped, Dict.mem_group_iff, calls, List.filter_filter, groupOf]
  refine and_congr_right fun _ => Eq.congr_right (List.filter_congr fun span _ => ?_)
  rw [Bool.and_comm, ← Bool.decide_and]

theorem mem_groupOf {span : SpanRecord} : span ∈ groupOf spans service parentId ↔
    span ∈ spans ∧ (span.kind = "client" ∧ span.parentKey ≠ "") ∧ span.caller = (service, parentId) := by
  rw [groupOf, List.mem_filter, decide_eq_true_iff]

/-- The test for a group is whether it fans out. -/
theorem hasAnyOverlap_groupOf (parsed : Parsed spans spanById) :
    hasAnyOverlap (groupOf spans service parentId) = true ↔ FansOut spans service parentId :=
  hasAnyOverlap_iff_or fun span among => (parsed.wellFormed span (mem_groupOf.mp among).1).start_le

theorem two_of_hasAnyOverlap (found : hasAnyOverlap group = true) : ¬ group.length < 2 := by
  intro few
  rw [hasAnyOverlap, if_pos few] at found
  cases found

/-- The groups with spans that overlap are those that fan out. -/
theorem mem_overlapping_iff (parsed : Parsed spans spanById) : ((service, parentId), group) ∈ overlapping spans ↔
    FansOut spans service parentId ∧ group = groupOf spans service parentId := by
  rw [overlapping, List.mem_filter, decide_eq_true_iff, mem_grouped_iff]
  constructor
  · rintro ⟨⟨-, rfl⟩, -, found⟩
    exact ⟨(hasAnyOverlap_groupOf parsed).mp found, rfl⟩
  · rintro ⟨fans, rfl⟩
    have found := (hasAnyOverlap_groupOf parsed).mpr fans
    have two := two_of_hasAnyOverlap found
    exact ⟨⟨List.ne_nil_of_length_pos (by omega), rfl⟩, two, found⟩

/-- The report fails exactly if a call of a fan-out has a peer that cannot be parsed. -/
theorem detectFanoutCandidates_eq_none_iff (parsed : Parsed spans spanById) :
    detectFanoutCandidates text spans spanById = none ↔
      ∃ service parentId, FansOut spans service parentId ∧
        ∃ span ∈ groupOf spans service parentId, Unparsable text spans span := by
  have each : (∀ entry ∈ overlapping spans, ∀ child ∈ entry.2,
      resolveDownstreamServiceName text child (buildChildrenByParent spans) ≠ none) ↔
        ¬ ∃ service parentId, FansOut spans service parentId ∧
          ∃ span ∈ groupOf spans service parentId, Unparsable text spans span := by
    simp only [ne_eq, resolveDownstreamServiceName_eq_none_iff]
    constructor
    · rintro parsable ⟨service, parentId, fans, span, member, unparsable⟩
      exact parsable _ ((mem_overlapping_iff parsed).mpr ⟨fans, rfl⟩) span member unparsable
    · rintro parsable ⟨⟨service, parentId⟩, group⟩ among child member unparsable
      obtain ⟨fans, rfl⟩ := (mem_overlapping_iff parsed).mp among
      exact parsable ⟨service, parentId, fans, child, member, unparsable⟩
  rw [detectFanoutCandidates, ite_eq_right_iff, imp_iff_not nofun, each, not_not]

/-- The candidates of a service are those of the groups that fan out. -/
theorem mem_candidates_iff (parsed : Parsed spans spanById) :
    (service, cand) ∈ candidates text spans spanById ↔ ∃ parentId, FansOut spans service parentId ∧
      cand = candidateOf text spans spanById parentId (groupOf spans service parentId) := by
  simp only [candidates, List.mem_map, Prod.mk.injEq]
  constructor
  · rintro ⟨⟨⟨one, parentId⟩, group⟩, among, rfl, rfl⟩
    obtain ⟨fans, rfl⟩ := (mem_overlapping_iff parsed).mp among
    exact ⟨parentId, fans, rfl⟩
  · rintro ⟨parentId, fans, rfl⟩
    exact ⟨_, (mem_overlapping_iff parsed).mpr ⟨fans, rfl⟩, rfl, rfl⟩

theorem get_perService : Dict.get (perService text spans spanById) service =
    if (candidates text spans spanById).filter (fun entry => entry.1 = service) = [] then none
    else some (((candidates text spans spanById).filter fun entry => entry.1 = service).map Prod.snd) := by
  rw [perService, Dict.get_collect, Dict.foldl_concat, List.nil_append]

theorem candidateLe_trans (first second third : Candidate) (left : candidateLe first second = true)
    (right : candidateLe second third = true) : candidateLe first third = true := by
  rw [candidateLe, decide_eq_true_iff] at left right ⊢
  rcases left with longer | ⟨same, name⟩ <;> rcases right with longer' | ⟨again, name'⟩
  all_goals first
    | exact Or.inl (by omega)
    | exact Or.inr ⟨by omega, name.trans name'⟩

theorem candidateLe_total (first second : Candidate) : (candidateLe first second || candidateLe second first) = true := by
  rw [Bool.or_eq_true, candidateLe, candidateLe, decide_eq_true_iff, decide_eq_true_iff]
  rcases lt_trichotomy first.groupDurUs second.groupDurUs with shorter | same | longer
  · exact Or.inr (Or.inl shorter)
  · exact (le_total first.parentOp second.parentOp).imp (fun name => Or.inr ⟨same, name⟩)
      fun name => Or.inr ⟨same.symm, name⟩
  · exact Or.inl (Or.inl longer)

/-- A candidate is chosen if its parent is a server, or no parent is. -/
theorem mem_chosen_iff : cand ∈ chosen cands ↔ cand ∈ cands ∧
    (cand.parentKind = "server" ∨ ∀ other ∈ cands, other.parentKind ≠ "server") := by
  rw [chosen, List.mem_mergeSort]
  by_cases serverless : cands.filter (fun cand => cand.parentKind = "server") = []
  · have unserved : ∀ other ∈ cands, other.parentKind ≠ "server" := by simpa using serverless
    rw [if_neg (not_not.mpr serverless)]
    exact ⟨fun among => ⟨among, .inr unserved⟩, And.left⟩
  · rw [if_pos serverless, List.mem_filter, decide_eq_true_iff]
    refine and_congr_right fun _ => ⟨.inl, fun either => either.resolve_right fun unserved => serverless ?_⟩
    simpa using unserved

theorem sorted_chosen : (chosen cands).Pairwise fun first second => candidateLe first second = true :=
  List.pairwise_mergeSort candidateLe_trans candidateLe_total _

theorem chosen_sublist : ∃ kept, kept.Sublist cands ∧ (chosen cands).Perm kept := by
  unfold chosen
  dsimp only
  split
  · exact ⟨_, List.filter_sublist, List.mergeSort_perm ..⟩
  · exact ⟨_, List.Sublist.refl _, List.mergeSort_perm ..⟩

/-- The groups of a service have different parents. -/
theorem nodup_parents : ((((candidates text spans spanById).filter fun entry => entry.1 = service).map Prod.snd).map
    Candidate.parentSpanId).Nodup := by
  have keys : ((candidates text spans spanById).map fun entry => (entry.1, entry.2.parentSpanId)).Nodup := by
    have single : ((grouped spans).map Prod.fst).Nodup := by
      rw [grouped, Dict.group]
      exact Dict.nodup_collect
    rw [candidates, overlapping, List.map_map]
    exact single.sublist (List.filter_sublist.map _)
  have own : (((candidates text spans spanById).filter fun entry => entry.1 = service).map
      fun entry => (entry.1, entry.2.parentSpanId)).Nodup := keys.sublist (List.filter_sublist.map _)
  rw [List.map_map]
  refine List.Nodup.of_map (fun parentId => (service, parentId)) ?_
  rw [List.map_map]
  refine Eq.subst (List.map_congr_left fun entry among => ?_) own
  rw [Function.comp_apply, Function.comp_apply, ← of_decide_eq_true (List.mem_filter.mp among).2]

end Groups

/-! ### What a candidate says -/

section Description

variable {text : TextMethods} {spans group : List SpanRecord} {spanById : List (String × SpanRecord)}
  {service parentId : String}

theorem parentKind_iff (parsed : Parsed spans spanById) :
    (candidateOf text spans spanById parentId group).parentKind = "server" ↔ UnderServer spans parentId := by
  rw [UnderServer, ← parsed.last]
  show ((Dict.get spanById parentId).map SpanRecord.kind).getD "unknown" = "server" ↔ _
  cases Dict.get spanById parentId with
  | none => exact iff_of_false (by decide) nofun
  | some parent => exact ⟨fun served => ⟨parent, rfl, served⟩, fun ⟨_, same, served⟩ => Option.some.inj same ▸ served⟩

theorem nameLe_peers {names : List String} : (sortUnique nameLe names).Pairwise (· < ·) :=
  pairwise_lt_sortUnique names

/-- The window of the spans. -/
theorem window_group (filled : group ≠ []) (upright : ∀ span ∈ group, span.startUs ≤ span.endUs) :
    (∃ first ∈ group, ∃ last ∈ group, (candidateOf text spans spanById parentId group).groupDurUs =
      last.endUs - first.startUs) ∧
    ∀ first ∈ group, ∀ last ∈ group,
      last.endUs - first.startUs ≤ (candidateOf text spans spanById parentId group).groupDurUs := by
  obtain ⟨least, start⟩ := Option.isSome_iff_exists.mp
    (List.isSome_min?_of_ne_nil (List.map_eq_nil_iff.not.mpr filled : group.map SpanRecord.startUs ≠ []))
  obtain ⟨greatest, stop⟩ := Option.isSome_iff_exists.mp
    (List.isSome_max?_of_ne_nil (List.map_eq_nil_iff.not.mpr filled : group.map SpanRecord.endUs ≠ []))
  obtain ⟨among, below⟩ := List.min?_eq_some_iff.mp start
  obtain ⟨among', above⟩ := List.max?_eq_some_iff.mp stop
  obtain ⟨first, here, rfl⟩ := List.mem_map.mp among
  obtain ⟨last, there, rfl⟩ := List.mem_map.mp among'
  have order : first.startUs ≤ last.endUs :=
    (upright first here).trans (above _ (List.mem_map_of_mem here))
  have duration : (candidateOf text spans spanById parentId group).groupDurUs = last.endUs - first.startUs := by
    rw [candidateOf, start, stop]
    exact max_eq_left (sub_nonneg.mpr order)
  refine ⟨⟨first, here, last, there, duration⟩, fun one member other member' => ?_⟩
  rw [duration]
  have early := below _ (List.mem_map_of_mem member)
  have late := above _ (List.mem_map_of_mem member')
  omega

theorem describes_candidateOf (filled : group ≠ []) (upright : ∀ span ∈ group, span.startUs ≤ span.endUs) :
    Describes text spans group (candidateOf text spans spanById parentId group) where
  ids := (List.mergeSort_perm group startLe).map _
  count := rfl
  peers peer := by
    rw [candidateOf, mem_sortUnique, List.mem_filter, List.mem_map, decide_eq_true_iff, and_comm]
  named := nameLe_peers
  window := window_group filled upright

end Description

section Report

variable {methods : TraceMethods} {trace : List (String × Value)} {spans : List SpanRecord}
  {spanById : List (String × SpanRecord)} {service parentId : String}

/-- The candidates of a service. -/
def candidatesOf (text : TextMethods) (spans : List SpanRecord) (spanById : List (String × SpanRecord))
    (service : String) : List Candidate :=
  ((candidates text spans spanById).filter fun entry => entry.1 = service).map Prod.snd

theorem mem_candidatesOf_iff {text : TextMethods} (parsed : Parsed spans spanById) {cand : Candidate} :
    cand ∈ candidatesOf text spans spanById service ↔ ∃ parentId, FansOut spans service parentId ∧
      cand = candidateOf text spans spanById parentId (groupOf spans service parentId) := by
  rw [candidatesOf, ← mem_candidates_iff parsed]
  simp [List.mem_map, List.mem_filter]

/-- The report of a service. -/
theorem get_fanout {text : TextMethods} {report : List (String × List Candidate)}
    (returned : detectFanoutCandidates text spans spanById = some report) : Dict.get report service =
      if candidatesOf text spans spanById service = [] then none
      else some (chosen (candidatesOf text spans spanById service)) := by
  obtain ⟨-, same⟩ := Option.ite_none_right_eq_some.mp returned
  obtain rfl := Option.some.inj same
  rw [filtered, Dict.get_map, get_perService, candidatesOf]
  simp only [List.map_eq_nil_iff]
  split <;> rfl

theorem ne_nil_of_fansOut (fans : FansOut spans service parentId) : groupOf spans service parentId ≠ [] := by
  rcases fans with ⟨i, -, left, -, -, here, -⟩ | ⟨outer, among, -⟩
  · exact List.ne_nil_of_mem (List.mem_of_getElem? here)
  · exact List.ne_nil_of_mem among

theorem describes_fanOut {text : TextMethods} (parsed : Parsed spans spanById) (fans : FansOut spans service parentId) :
    Describes text spans (groupOf spans service parentId)
      (candidateOf text spans spanById parentId (groupOf spans service parentId)) :=
  describes_candidateOf (ne_nil_of_fansOut fans) fun span member =>
    (parsed.wellFormed span (mem_groupOf.mp member).1).start_le

/-- **The fan-outs of a trace**, whatever Jaeger returns: there is a report unless a call of a fan-out has a peer that
cannot be parsed; a service is reported if it fans out below some parent, with one candidate for each parent it fans
out below, or for each that is a server if one is; the longest come first; and each says what its group is. -/
theorem fanout_spec (parse : parseTrace methods trace = some (spans, spanById)) :
    (detectFanoutCandidates methods.toTextMethods spans spanById = none ↔
      ∃ service parentId, FansOut spans service parentId ∧
        ∃ span ∈ groupOf spans service parentId, Unparsable methods.toTextMethods spans span) ∧
    ∀ report, detectFanoutCandidates methods.toTextMethods spans spanById = some report → ∀ service,
      (Dict.get report service = none ↔ ∀ parentId, ¬ FansOut spans service parentId) ∧
      ∀ cands, Dict.get report service = some cands →
        (∀ parentId, parentId ∈ cands.map Candidate.parentSpanId ↔ FansOut spans service parentId ∧
          (UnderServer spans parentId ∨ ∀ other, FansOut spans service other → ¬ UnderServer spans other)) ∧
        (cands.map Candidate.parentSpanId).Nodup ∧
        (cands.Pairwise fun first second => candidateLe first second = true) ∧
        ∀ cand ∈ cands,
          Describes methods.toTextMethods spans (groupOf spans service cand.parentSpanId) cand := by
  have parsed := (parseTrace_spec parse).1
  refine ⟨detectFanoutCandidates_eq_none_iff parsed, fun report returned service => ?_⟩
  have mem_own := fun cand => @mem_candidatesOf_iff spans spanById service methods.toTextMethods parsed cand
  have none_iff : candidatesOf methods.toTextMethods spans spanById service = [] ↔
      ∀ parentId, ¬ FansOut spans service parentId := by
    rw [List.eq_nil_iff_forall_not_mem]
    constructor
    · exact fun quiet parentId fans => quiet _ ((mem_own _).mpr ⟨parentId, fans, rfl⟩)
    · intro quiet cand among
      obtain ⟨parentId, fans, -⟩ := (mem_own cand).mp among
      exact quiet parentId fans
  rw [get_fanout returned, ← none_iff]
  refine ⟨by simp, fun cands found => ?_⟩
  obtain ⟨-, same⟩ := Option.ite_none_left_eq_some.mp found
  obtain rfl := Option.some.inj same
  refine ⟨fun parentId => ?_, ?_, sorted_chosen, fun cand among => ?_⟩
  · simp only [List.mem_map, mem_chosen_iff, mem_own]
    constructor
    · rintro ⟨cand, ⟨⟨one, fans, rfl⟩, served⟩, rfl⟩
      refine ⟨fans, served.imp (parentKind_iff parsed).mp fun unserved other fans' under => ?_⟩
      exact unserved _ ⟨other, fans', rfl⟩ ((parentKind_iff parsed).mpr under)
    · rintro ⟨fans, served⟩
      refine ⟨_, ⟨⟨parentId, fans, rfl⟩, served.imp (parentKind_iff parsed).mpr fun unserved => ?_⟩, rfl⟩
      rintro - ⟨other, fans', rfl⟩ kind
      exact unserved other fans' ((parentKind_iff parsed).mp kind)
  · obtain ⟨kept, sub, order⟩ := @chosen_sublist (candidatesOf methods.toTextMethods spans spanById service)
    have single : ((candidatesOf methods.toTextMethods spans spanById service).map Candidate.parentSpanId).Nodup :=
      nodup_parents
    exact (order.map _).nodup_iff.mpr (single.sublist (sub.map _))
  · obtain ⟨parentId, fans, rfl⟩ := (mem_own cand).mp (mem_chosen_iff.mp among).1
    exact describes_fanOut parsed fans

theorem overlapPair_of_mem {group : List SpanRecord} {left right : SpanRecord} (here : left ∈ group)
    (there : right ∈ group) (differ : left ≠ right) (overlap : 0 < spanPairOverlapUs left right) :
    OverlapPair group := by
  obtain ⟨i, atLeft⟩ := List.mem_iff_getElem?.mp here
  obtain ⟨j, atRight⟩ := List.mem_iff_getElem?.mp there
  refine ⟨i, j, left, right, fun same => differ ?_, atLeft, atRight, overlap⟩
  rw [same, atRight] at atLeft
  exact (Option.some.inj atLeft).symm

theorem overlap_of_qualifies {overlap minOverlapUs : ℤ} (enough : qualifiesOverlap overlap minOverlapUs = true) :
    0 < overlap := by
  unfold qualifiesOverlap at enough
  split at enough
  · exact of_decide_eq_true enough
  · have least := of_decide_eq_true enough
    omega

/-- **Siblings come from a fan-out.** When the siblings of a trace are computed, the fan-outs are. Two services that are
listed as siblings are called at a time below one parent; and if by one service, then this is reported with a
candidate that has both calls and both services, or else with candidates below servers only. -/
theorem siblings_fanned_out (parse : parseTrace methods trace = some (spans, spanById))
    (distinct : (spans.map SpanRecord.spanId).Nodup) {minOverlapMs : Js.Number}
    {facts : List (String × String × ℤ × ℚ)}
    (computed : traceFacts methods.toTextMethods spans spanById minOverlapMs = some facts) :
    ∃ minOverlapUs report, wholeMicroseconds minOverlapMs = some minOverlapUs ∧
      detectFanoutCandidates methods.toTextMethods spans spanById = some report ∧
      ∀ first second overlapUs ratio, (first, second, overlapUs, ratio) ∈ facts →
        ∃ left ∈ spans, ∃ right ∈ spans,
          Counts (downstream methods.toTextMethods spans) minOverlapUs first second (left, right) ∧
          (left.serviceName = right.serviceName → ∃ cands, Dict.get report left.serviceName = some cands ∧
            ((∃ cand ∈ cands, [left.spanId, right.spanId] ⊆ cand.spanIds ∧
              ∀ service ∈ [first, second], service ≠ "" → service ∈ cand.peers) ∨
            ∀ cand ∈ cands, cand.parentKind = "server")) := by
  have parsed := (parseTrace_spec parse).1
  obtain ⟨minOverlapUs, whole, analyzable⟩ := exists_traceFacts_iff.mp ⟨facts, computed⟩
  obtain ⟨report, returned⟩ := Option.ne_none_iff_exists'.mp
    ((@detectFanoutCandidates_eq_none_iff methods.toTextMethods _ _ parsed).not.mpr (by
      rintro ⟨service, parentId, -, span, member, unparsable⟩
      obtain ⟨among, ⟨client, -⟩, -⟩ := mem_groupOf.mp member
      exact analyzable.parsed span among client unparsable))
  refine ⟨minOverlapUs, report, whole, returned, fun first second overlapUs ratio listed => ?_⟩
  obtain ⟨⟨differ, paired⟩, -, -⟩ := (mem_traceFacts distinct whole computed).mp listed
  obtain ⟨left, here, right, there, counts⟩ := countingPairs_ne_nil_iff.mp paired
  refine ⟨left, here, right, there, counts, fun caller => ?_⟩
  obtain ⟨⟨client, client'⟩, ⟨named, parent⟩, ⟨rfl, rfl⟩, enough⟩ := counts
  have apart : left ≠ right := fun same => differ (congrArg _ same)
  have member : left ∈ groupOf spans left.serviceName left.parentKey := mem_groupOf.mpr ⟨here, ⟨client, named⟩, rfl⟩
  have member' : right ∈ groupOf spans left.serviceName left.parentKey :=
    mem_groupOf.mpr ⟨there, ⟨client', parent ▸ named⟩, Prod.ext caller.symm parent.symm⟩
  have fans : FansOut spans left.serviceName left.parentKey :=
    .inl (overlapPair_of_mem member member' apart (overlap_of_qualifies enough))
  have among : candidateOf methods.toTextMethods spans spanById left.parentKey
      (groupOf spans left.serviceName left.parentKey) ∈
        candidatesOf methods.toTextMethods spans spanById left.serviceName :=
    (mem_candidatesOf_iff parsed).mpr ⟨_, fans, rfl⟩
  obtain ⟨ids, -, peers, -, -⟩ := @describes_fanOut _ _ _ _ methods.toTextMethods parsed fans
  refine ⟨_, by rw [get_fanout returned, if_neg (List.ne_nil_of_mem among)], ?_⟩
  by_cases served : ∃ other ∈ candidatesOf methods.toTextMethods spans spanById left.serviceName,
      other.parentKind = "server"
  · obtain ⟨other, other', served⟩ := served
    refine .inr fun cand chosen => (mem_chosen_iff.mp chosen).2.resolve_right fun unserved => ?_
    exact unserved other other' served
  · refine .inl ⟨_, mem_chosen_iff.mpr ⟨among, .inr fun other other' kind => served ⟨other, other', kind⟩⟩, ?_, ?_⟩
    · refine List.cons_subset.mpr ⟨ids.mem_iff.mpr (List.mem_map_of_mem member), ?_⟩
      exact List.cons_subset.mpr ⟨ids.mem_iff.mpr (List.mem_map_of_mem member'), List.nil_subset _⟩
    · refine List.forall_mem_cons.mpr ⟨fun named => (peers _).mpr ⟨named, left, member, rfl⟩, ?_⟩
      exact List.forall_mem_singleton.mpr fun named => (peers _).mpr ⟨named, right, member', rfl⟩

end Report

/-- Strings without blanks, capitals and addresses; `CHILD_OF` is in capitals. -/
def plainMethods : TraceMethods where
  toTextMethods := plainText
  upper value := value
  netloc _ := []
  shown _ := ""
  int _ := none

/-- An item of a call below the span "p". -/
def callItem (spanId peer : String) (startUs durationUs : ℤ) : Value :=
  .dict [("spanID", .text spanId), ("processID", .text "p1"), ("operationName", .text "GET"),
    ("references", .list [.dict [("refType", .text "CHILD_OF"), ("spanID", .text "p")]]),
    ("startTime", .whole startUs), ("duration", .whole durationUs),
    ("tags", .list [.dict [("key", .text "span.kind"), ("value", .text "client")],
      .dict [("key", .text "peer.service"), ("value", .text peer)]])]

/-- What Jaeger returns for the two calls. -/
def twoCallsTrace : List (String × Value) :=
  [("processes", .dict [("p1", .dict [("serviceName", .text "web")])]),
    ("spans", .list [callItem "a" "cart" 0 10000, callItem "b" "stock" 5000 15000])]

/-- The spans of the two calls by their ids. -/
def twoCallsById : List (String × SpanRecord) :=
  [("a", call "a" "cart" 0 10000), ("b", call "b" "stock" 5000 20000)]

theorem parse_twoCalls : parseTrace plainMethods twoCallsTrace = some (twoCalls, twoCallsById) := by
  decide +kernel

theorem fanout_spec_calls : ∃ report cands, detectFanoutCandidates plainText twoCalls twoCallsById = some report ∧
    Dict.get report "web" = some cands ∧ "p" ∈ cands.map Candidate.parentSpanId := by
  have group : groupOf twoCalls "web" "p" = twoCalls := by decide
  have fans : FansOut twoCalls "web" "p" := by
    refine .inl ?_
    rw [group]
    exact ⟨0, 1, call "a" "cart" 0 10000, call "b" "stock" 5000 20000, by decide, rfl, rfl, by decide⟩
  have unserved (other : String) : ¬ UnderServer twoCalls other := by
    rintro ⟨parent, found, served⟩
    have client : twoCalls.all fun span => span.kind ≠ "server" := by decide
    exact of_decide_eq_true (List.all_eq_true.mp client parent
      (List.mem_reverse.mp (List.mem_of_find?_eq_some found))) served
  obtain ⟨failed, reports⟩ := fanout_spec parse_twoCalls
  obtain ⟨report, returned⟩ := Option.ne_none_iff_exists'.mp fun raised => by
    obtain ⟨-, -, -, span, -, unparsable⟩ := failed.mp raised
    exact Bool.false_ne_true unparsable.2.2
  obtain ⟨reported, spec⟩ := reports report returned "web"
  obtain ⟨cands, found⟩ := Option.ne_none_iff_exists'.mp fun missing => reported.mp missing "p" fans
  exact ⟨report, cands, returned, found, ((spec cands found).1 "p").mpr ⟨fans, .inr fun other _ => unserved other⟩⟩

theorem siblings_fanned_out_calls : ∃ left ∈ twoCalls, ∃ right ∈ twoCalls,
    left.serviceName = right.serviceName ∧ left.parentKey = right.parentKey ∧
      ∃ report, detectFanoutCandidates plainText twoCalls twoCallsById = some report ∧
        Dict.get report left.serviceName ≠ none := by
  have distinct : (twoCalls.map SpanRecord.spanId).Nodup := by decide
  obtain ⟨facts, computed⟩ := (@exists_traceFacts_iff plainText twoCalls twoCallsById _).mpr
    ⟨500, wholeMicroseconds_default, twoCalls_analyzable⟩
  have counts : Counts (downstream plainText twoCalls) 500 "cart" "stock"
      (call "a" "cart" 0 10000, call "b" "stock" 5000 20000) :=
    ⟨⟨rfl, rfl⟩, ⟨by decide, rfl⟩, twoCalls_downstream, by decide⟩
  obtain ⟨overlapUs, ratio, listed⟩ := ((reports_of_traceFacts distinct twoCalls_analyzable wholeMicroseconds_default
    computed).listed "cart" "stock").mpr ⟨by decide, _, by simp [twoCalls], _, by simp [twoCalls], counts⟩
  obtain ⟨_, report, -, returned, fanned⟩ := siblings_fanned_out parse_twoCalls distinct computed
  obtain ⟨left, here, right, there, counting, found⟩ := fanned "cart" "stock" overlapUs ratio listed
  have web : twoCalls.all fun span => span.serviceName = "web" := by decide
  have caller : left.serviceName = right.serviceName :=
    (of_decide_eq_true (List.all_eq_true.mp web left here)).trans
      (of_decide_eq_true (List.all_eq_true.mp web right there)).symm
  obtain ⟨cands, reported, -⟩ := found caller
  refine ⟨left, here, right, there, caller, counting.2.1.2, report, returned, fun missing => ?_⟩
  rw [reported] at missing
  cases missing

end Mcoz.Analyzer
