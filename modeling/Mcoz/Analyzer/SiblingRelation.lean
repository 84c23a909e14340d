/-
What `compute_siblings` reports.

The pairs that count for two services are the pairs of client spans below one parent of which the first leads to
the one and the second to the other service. The loops enter each of them once (`sum_foundRelations`), so a
service is listed with another exactly if there is such a pair, with the sum of the overlaps (`mem_siblingFacts`).
The order of the spans does not matter, nor which of the services is asked for. All this is so exactly if no error
ends the analysis (`siblings_spec`): a peer such as "http://[::1" does (`rejected_peer`).
-/

import Mcoz.Analyzer.Durations
import Mcoz.Lib.Fallible
import Mcoz.Lib.PairSums
import Mathlib.Data.List.ProdSigma

set_option autoImplicit false

namespace Mcoz.Analyzer

open Fallible Instants PairSums SortUnique

/-! ### Pairs that count -/

/-- A pair of client spans below one parent, of these services as `service` has it, whose overlap qualifies. -/
def Counts (service : SpanRecord → String) (minOverlapUs : ℤ) (first second : String)
    (pair : SpanRecord × SpanRecord) : Prop :=
  (pair.1.kind = "client" ∧ pair.2.kind = "client") ∧
    (pair.1.parentKey ≠ "" ∧ pair.1.parentKey = pair.2.parentKey) ∧
      (service pair.1 = first ∧ service pair.2 = second) ∧
        qualifiesOverlap (spanPairOverlapUs pair.1 pair.2) minOverlapUs = true

instance (service : SpanRecord → String) (minOverlapUs : ℤ) (first second : String)
    (pair : SpanRecord × SpanRecord) : Decidable (Counts service minOverlapUs first second pair) :=
  inferInstanceAs (Decidable (_ ∧ _))

/-- The pairs that count for two services. -/
def countingPairs (service : SpanRecord → String) (spans : List SpanRecord) (minOverlapUs : ℤ)
    (first second : String) : List (SpanRecord × SpanRecord) :=
  (spans ×ˢ spans).filter fun pair => Counts service minOverlapUs first second pair

/-- Their overlaps together. -/
def pairsOverlap (pairs : List (SpanRecord × SpanRecord)) : ℤ :=
  (pairs.map fun pair => spanPairOverlapUs pair.1 pair.2).sum

section Pairs

variable {service : SpanRecord → String} {spans others : List SpanRecord} {minOverlapUs : ℤ}
  {first second : String}

theorem mem_countingPairs {pair : SpanRecord × SpanRecord} :
    pair ∈ countingPairs service spans minOverlapUs first second ↔
      (pair.1 ∈ spans ∧ pair.2 ∈ spans) ∧ Counts service minOverlapUs first second pair := by
  rw [countingPairs, List.mem_filter, decide_eq_true_iff]
  exact and_congr_left' List.mem_product

theorem counts_swap {pair : SpanRecord × SpanRecord}
    (counts : Counts service minOverlapUs first second pair) :
    Counts service minOverlapUs second first pair.swap := by
  obtain ⟨kinds, ⟨named, same⟩, services, enough⟩ := counts
  refine ⟨kinds.symm, ⟨same ▸ named, same.symm⟩, services.symm, ?_⟩
  rw [Prod.fst_swap, Prod.snd_swap, spanPairOverlapUs_comm]
  exact enough

theorem sum_countingPairs {M : Type} [AddCommMonoid M] {weigh : SpanRecord × SpanRecord → M} :
    ((countingPairs service spans minOverlapUs first second).map weigh).sum =
      (spans.map fun left => (spans.map fun right =>
        if Counts service minOverlapUs first second (left, right) then weigh (left, right) else 0).sum).sum := by
  have product : spans ×ˢ spans = spans.flatMap fun left => spans.map fun right => (left, right) := rfl
  rw [countingPairs, sum_map_filter, product, sum_map_flatMap]
  simp only [List.map_map, decide_eq_true_eq]
  rfl

/-- The overlaps do not depend on which of the two services comes first. -/
theorem pairsOverlap_swap : pairsOverlap (countingPairs service spans minOverlapUs second first) =
    pairsOverlap (countingPairs service spans minOverlapUs first second) := by
  rw [pairsOverlap, pairsOverlap, sum_countingPairs, sum_countingPairs, sum_comm]
  refine congrArg List.sum (List.map_congr_left fun left _ => congrArg List.sum ?_)
  refine List.map_congr_left fun right _ => ?_
  by_cases counts : Counts service minOverlapUs first second (left, right)
  · have counts' : Counts service minOverlapUs second first (right, left) := counts_swap counts
    rw [if_pos counts, if_pos counts']
    exact spanPairOverlapUs_comm
  · have counts' : ¬ Counts service minOverlapUs second first (right, left) :=
      fun other => counts (counts_swap other)
    rw [if_neg counts, if_neg counts']

theorem countingPairs_ne_nil_iff : countingPairs service spans minOverlapUs first second ≠ [] ↔
    ∃ left ∈ spans, ∃ right ∈ spans, Counts service minOverlapUs first second (left, right) := by
  constructor
  · intro nonempty
    obtain ⟨pair, among⟩ := List.exists_mem_of_ne_nil _ nonempty
    obtain ⟨⟨left, right⟩, counts⟩ := mem_countingPairs.mp among
    exact ⟨pair.1, left, pair.2, right, counts⟩
  · rintro ⟨left, among, right, among', counts⟩
    exact List.ne_nil_of_mem (mem_countingPairs.mpr ⟨⟨among, among'⟩, counts⟩)

end Pairs

/-! ### The loops -/

section Loops

variable {text : TextMethods} {spans : List SpanRecord} {spanById : List (String × SpanRecord)} {minOverlapUs : ℤ}
  {first second parentSpanId : String} {left right : SpanRecord} {found : Found}

/-- The calls for two services. -/
def Found.between (first second : String) (found : Found) : Bool :=
  found.sourceService = first ∧ found.targetService = second

theorem clientRelations_eq {clients : List SpanRecord} :
    clientRelations text spans spanById minOverlapUs parentSpanId clients =
      (laterPairs clients).flatMap fun pair =>
        pairRelations text spans spanById minOverlapUs parentSpanId pair.1 pair.2 := by
  induction clients with
  | nil => rfl
  | cons left rest ih =>
      rw [clientRelations, ih, laterPairs, List.flatMap_append, List.flatMap_map]

/-- A parent with fewer than two client spans has no pairs. -/
theorem foundRelations_eq : foundRelations text spans spanById minOverlapUs =
    (buildChildrenByParent spans).flatMap fun entry =>
      (laterPairs (entry.2.filter fun child => child.kind = "client")).flatMap fun pair =>
        pairRelations text spans spanById minOverlapUs entry.1 pair.1 pair.2 := by
  have each (entry : String × List SpanRecord) (clients : List SpanRecord) :
      (if clients.length < 2 then [] else clientRelations text spans spanById minOverlapUs entry.1 clients) =
        (laterPairs clients).flatMap fun pair =>
          pairRelations text spans spanById minOverlapUs entry.1 pair.1 pair.2 := by
    rw [clientRelations_eq]
    rcases clients with _ | ⟨left, _ | ⟨right, rest⟩⟩
    · rfl
    · rfl
    · exact if_neg (by simp)
  exact List.flatMap_congr fun entry _ => each entry _

/-- No call relates a service to itself. -/
theorem source_ne_target (among : found ∈ foundRelations text spans spanById minOverlapUs) :
    found.sourceService ≠ found.targetService := by
  rw [foundRelations_eq] at among
  obtain ⟨entry, -, among⟩ := List.mem_flatMap.mp among
  obtain ⟨pair, -, among⟩ := List.mem_flatMap.mp among
  rw [pairRelations] at among
  split at among
  · cases among
  · rename_i different
    split at among
    · rcases List.mem_pair.mp among with rfl | rfl
      · exact different
      · exact Ne.symm different
    · cases among

section Weights

variable {M : Type} [AddCommMonoid M] {weigh : ℤ → M}

/-- What a pair of client spans counts for two services, the first span for the first. -/
def pairWeight (text : TextMethods) (spans : List SpanRecord) (minOverlapUs : ℤ) (first second : String)
    (weigh : ℤ → M) (left right : SpanRecord) : M :=
  if (clientService text spans left = first ∧ clientService text spans right = second) ∧
      qualifiesOverlap (spanPairOverlapUs left right) minOverlapUs = true then
    weigh (spanPairOverlapUs left right)
  else 0

theorem pairWeight_self (different : first ≠ second) :
    pairWeight text spans minOverlapUs first second weigh left left = 0 :=
  if_neg fun both => different (both.1.1.symm.trans both.1.2)

/-- The calls for a pair count it in both directions. -/
theorem sum_pairRelations (different : first ≠ second) :
    (((pairRelations text spans spanById minOverlapUs parentSpanId left right).filter
        (Found.between first second)).map fun found => weigh found.overlapUs).sum =
      pairWeight text spans minOverlapUs first second weigh left right +
        pairWeight text spans minOverlapUs first second weigh right left := by
  unfold pairWeight
  rw [@spanPairOverlapUs_comm right, sum_map_filter, pairRelations]
  dsimp only
  by_cases same : clientService text spans left = clientService text spans right
  · rw [if_pos same, if_neg fun both => different (both.1.1.symm.trans (same.trans both.1.2)),
      if_neg fun both => different (both.1.1.symm.trans (same.symm.trans both.1.2)), add_zero]
    rfl
  · rw [if_neg same]
    by_cases enough : qualifiesOverlap (spanPairOverlapUs left right) minOverlapUs = true
    · rw [if_pos enough]
      simp only [enough, and_true, List.map_cons, List.map_nil, List.sum_cons, List.sum_nil, add_zero,
        Found.between, decide_eq_true_eq]
    · rw [if_neg enough, if_neg fun both => enough both.2, if_neg fun both => enough both.2, add_zero]
      rfl

/-- What a pair of spans counts: nothing, unless both are client spans below one parent. -/
def counted (text : TextMethods) (spans : List SpanRecord) (minOverlapUs : ℤ) (first second : String)
    (weigh : ℤ → M) (left right : SpanRecord) : M :=
  if Counts (clientService text spans) minOverlapUs first second (left, right) then
    weigh (spanPairOverlapUs left right)
  else 0

theorem counted_eq_zero (other : ¬ (left.kind = "client" ∧ left.parentKey ≠ "")) :
    counted text spans minOverlapUs first second weigh left right = 0 :=
  if_neg fun counts => other ⟨counts.1.1, counts.2.1.1⟩

theorem counted_eq (client : left.kind = "client") (named : left.parentKey ≠ "") :
    counted text spans minOverlapUs first second weigh left right =
      if right.kind = "client" ∧ right.parentKey ≠ "" ∧ right.parentKey = left.parentKey then
        pairWeight text spans minOverlapUs first second weigh left right
      else 0 := by
  by_cases below : right.kind = "client" ∧ right.parentKey ≠ "" ∧ right.parentKey = left.parentKey
  · rw [if_pos below, counted, pairWeight]
    have same : Counts (clientService text spans) minOverlapUs first second (left, right) ↔
        (clientService text spans left = first ∧ clientService text spans right = second) ∧
          qualifiesOverlap (spanPairOverlapUs left right) minOverlapUs = true :=
      and_iff_right ⟨client, below.1⟩ |>.trans (and_iff_right ⟨named, below.2.2.symm⟩)
    exact if_congr same rfl rfl
  · rw [if_neg below]
    refine if_neg fun counts => below ?_
    obtain ⟨⟨-, client'⟩, ⟨-, same⟩, -⟩ := counts
    exact ⟨client', same ▸ named, same.symm⟩

/-- The pairs below one parent. -/
theorem sum_children {entry : String × List SpanRecord} (among : entry ∈ buildChildrenByParent spans) :
    ((entry.2.filter fun child => child.kind = "client").map fun left =>
        ((entry.2.filter fun child => child.kind = "client").map
          (pairWeight text spans minOverlapUs first second weigh left)).sum).sum =
      (entry.2.map fun left =>
        (spans.map (counted text spans minOverlapUs first second weigh left)).sum).sum := by
  obtain ⟨-, own⟩ := Dict.mem_group_iff.mp among
  rw [sum_map_filter]
  refine congrArg List.sum (List.map_congr_left fun left here => ?_)
  rw [own, List.mem_filter, List.mem_filter, decide_eq_true_iff, decide_eq_true_iff] at here
  obtain ⟨⟨-, named⟩, below⟩ := here
  by_cases client : left.kind = "client"
  · rw [if_pos (decide_eq_true client), own, ← below, List.filter_filter, List.filter_filter, sum_map_filter]
    refine congrArg List.sum (List.map_congr_left fun right _ => ?_)
    rw [counted_eq client named]
    refine if_congr ?_ rfl rfl
    simp only [Bool.and_eq_true, decide_eq_true_eq]
    tauto
  · rw [if_neg (by simpa using client), List.sum_eq_zero]
    intro value among
    obtain ⟨right, -, rfl⟩ := List.mem_map.mp among
    exact counted_eq_zero fun both => client both.1

/-- **The calls for two services** count each pair of client spans once. -/
theorem sum_foundRelations (weigh : ℤ → M) (different : first ≠ second) :
    (((foundRelations text spans spanById minOverlapUs).filter (Found.between first second)).map
        fun found => weigh found.overlapUs).sum =
      ((countingPairs (clientService text spans) spans minOverlapUs first second).map
        fun pair => weigh (spanPairOverlapUs pair.1 pair.2)).sum := by
  have parent (entry : String × List SpanRecord) (among : entry ∈ buildChildrenByParent spans) :
      ((((laterPairs (entry.2.filter fun child => child.kind = "client")).flatMap fun pair =>
        pairRelations text spans spanById minOverlapUs entry.1 pair.1 pair.2).filter
          (Found.between first second)).map fun found => weigh found.overlapUs).sum =
        (entry.2.map fun left =>
          (spans.map (counted text spans minOverlapUs first second weigh left)).sum).sum := by
    rw [← sum_children among, ← sum_laterPairs fun one => pairWeight_self different, List.filter_flatMap,
      sum_map_flatMap]
    exact congrArg List.sum (List.map_congr_left fun pair _ => sum_pairRelations different)
  have orphan (left : SpanRecord) (parentless : left.parentKey = "") :
      (spans.map (counted text spans minOverlapUs first second weigh left)).sum = 0 := by
    refine List.sum_eq_zero fun value among => ?_
    obtain ⟨right, -, rfl⟩ := List.mem_map.mp among
    exact counted_eq_zero fun both => both.2 parentless
  rw [foundRelations_eq, List.filter_flatMap, sum_map_flatMap, List.map_congr_left parent,
    ← @sum_map_flatMap _ _ _ _ fun entry : String × List SpanRecord => entry.2, buildChildrenByParent,
    (Dict.group_perm.map _).sum_eq, sum_map_filter, sum_countingPairs]
  refine congrArg List.sum (List.map_congr_left fun left _ => ?_)
  by_cases named : left.parentKey = ""
  · exact (if_neg (by simpa using named)).trans (orphan left named).symm
  · exact if_pos (by simpa using named)

end Weights

theorem found_eq_nil_iff (different : first ≠ second) :
    (foundRelations text spans spanById minOverlapUs).filter (Found.between first second) = [] ↔
      countingPairs (clientService text spans) spans minOverlapUs first second = [] := by
  have count : ((foundRelations text spans spanById minOverlapUs).filter (Found.between first second)).length =
      (countingPairs (clientService text spans) spans minOverlapUs first second).length := by
    simpa using sum_foundRelations (fun _ => (1 : ℕ)) different
  rw [← List.length_eq_zero_iff, count, List.length_eq_zero_iff]

end Loops

/-! ### The rows -/

section Rows

variable {text : TextMethods} {spans others : List SpanRecord} {spanById spanById' : List (String × SpanRecord)}
  {intervals : List (String × ServiceIntervals)} {minOverlapUs overlapUs : ℤ} {first second : String} {ratio : ℚ}
  {found : List Found} {record : Record} {siblings : List (String × List Row)}

theorem foldl_addRecord :
    found.foldl addRecord record = ⟨record.service,
      record.overlapUs + (found.map fun one => one.overlapUs).sum,
      record.contexts ++ found.map fun one => one.context⟩ := by
  induction found generalizing record with
  | nil => simp
  | cons one rest ih =>
      rw [List.foldl_cons, ih]
      simp [addRecord, add_assoc]

/-- The partners of a service. -/
theorem getD_partners : (Dict.get (addSiblingRelations found) first).getD [] =
    Dict.collect Found.targetService (fun target => ⟨target, 0, []⟩) addRecord
      (found.filter fun one => one.sourceService = first) :=
  @Dict.getD_collect _ _ _ _ Found.sourceService (fun _ => []) addPartner found first

/-- The record of a partner is that of the calls for the two services. -/
theorem mem_partners : (second, record) ∈ (Dict.get (addSiblingRelations found) first).getD [] ↔
    found.filter (Found.between first second) ≠ [] ∧
      record = (found.filter (Found.between first second)).foldl addRecord ⟨second, 0, []⟩ := by
  have own : (found.filter fun one => one.sourceService = first).filter
      (fun one => one.targetService = second) = found.filter (Found.between first second) := by
    rw [List.filter_filter]
    exact List.filter_congr fun one _ => by rw [Found.between, Bool.decide_and, Bool.and_comm]
  rw [getD_partners, Dict.mem_iff_get Dict.nodup_collect, Dict.get_collect, own]
  split
  · rename_i empty
    exact iff_of_false nofun fun both => both.1 empty
  · rename_i nonempty
    rw [Option.some.injEq, eq_comm]
    exact (and_iff_right nonempty).symm

/-- The partners of a service that are in the matrix. -/
def Partner (text : TextMethods) (spans : List SpanRecord) (spanById : List (String × SpanRecord))
    (minOverlapUs : ℤ) (service : String) (record : Record) : Prop :=
  ∃ target, (target, record) ∈
    (Dict.get (addSiblingRelations (foundRelations text spans spanById minOverlapUs)) service).getD []

/-- A service with partners is a key of the matrix. -/
theorem mem_keys_of_partner (partner : Partner text spans spanById minOverlapUs first record) :
    first ∈ (addSiblingRelations (foundRelations text spans spanById minOverlapUs)).map Prod.fst := by
  obtain ⟨target, there⟩ := partner
  obtain ⟨listed, -⟩ := mem_partners.mp there
  obtain ⟨one, among⟩ := List.exists_mem_of_ne_nil _ listed
  obtain ⟨member, between⟩ := List.mem_filter.mp among
  exact Dict.mem_keys_collect.mpr ⟨one, member, (of_decide_eq_true between).1⟩

/-- The record of a partner is that of the pairs for the two services. -/
theorem partner_iff : Partner text spans spanById minOverlapUs first record ↔
    (first ≠ record.service ∧
        countingPairs (clientService text spans) spans minOverlapUs first record.service ≠ []) ∧
      record = ((foundRelations text spans spanById minOverlapUs).filter
        (Found.between first record.service)).foldl addRecord ⟨record.service, 0, []⟩ := by
  constructor
  · rintro ⟨target, there⟩
    obtain ⟨listed, made⟩ := mem_partners.mp there
    obtain rfl : record.service = target := by rw [made, foldl_addRecord]
    obtain ⟨one, among⟩ := List.exists_mem_of_ne_nil _ listed
    obtain ⟨member, between⟩ := List.mem_filter.mp among
    obtain ⟨source, target⟩ := of_decide_eq_true between
    have different : first ≠ record.service := source ▸ target ▸ source_ne_target member
    exact ⟨⟨different, fun alone => listed ((found_eq_nil_iff different).mpr alone)⟩, made⟩
  · rintro ⟨⟨different, paired⟩, made⟩
    exact ⟨record.service, mem_partners.mpr ⟨fun alone => paired ((found_eq_nil_iff different).mp alone), made⟩⟩

/-- The overlap of a partner is that of the pairs for the two services. -/
theorem Partner.overlapUs_eq (partner : Partner text spans spanById minOverlapUs first record) :
    record.overlapUs =
      pairsOverlap (countingPairs (clientService text spans) spans minOverlapUs first record.service) := by
  obtain ⟨⟨different, -⟩, made⟩ := partner_iff.mp partner
  rw [made, foldl_addRecord, zero_add]
  exact sum_foundRelations id different

theorem exists_partner_iff : (∃ record, Partner text spans spanById minOverlapUs first record ∧
      record.service = second) ↔
    first ≠ second ∧ countingPairs (clientService text spans) spans minOverlapUs first second ≠ [] := by
  constructor
  · rintro ⟨record, partner, rfl⟩
    exact (partner_iff.mp partner).1
  · intro listed
    obtain ⟨record, made⟩ : ∃ record, record = ((foundRelations text spans spanById minOverlapUs).filter
        (Found.between first second)).foldl addRecord ⟨second, 0, []⟩ := ⟨_, rfl⟩
    have target : record.service = second := by rw [made, foldl_addRecord]
    refine ⟨record, partner_iff.mpr ?_, target⟩
    rw [target]
    exact ⟨listed, made⟩

/-- A row says the service, the overlap and the ratio of a record of its service. -/
theorem mem_siblingRows {duration : String → ℤ} {partners : List (String × Record)} {rows : List Row}
    (made : siblingRows duration first partners = some rows) :
    (∃ row ∈ rows, (row.service, row.overlapUs, row.ratio) = (second, overlapUs, ratio)) ↔
      ∃ target record, (target, record) ∈ partners ∧ record.service = second ∧ record.overlapUs = overlapUs ∧
        ratioOf record.overlapUs (duration first) (duration record.service) = some ratio := by
  obtain ⟨unsorted, each, rfl⟩ := Option.map_eq_some_iff.mp made
  constructor
  · rintro ⟨row, among, same⟩
    obtain ⟨⟨target, record⟩, there, read⟩ := (mem_of_mapM each).mp (List.mem_mergeSort.mp among)
    obtain ⟨value, quotient, rfl⟩ := Option.map_eq_some_iff.mp read
    obtain ⟨rfl, rfl, rfl⟩ : _ ∧ _ ∧ _ := by simpa using same
    exact ⟨target, record, there, rfl, rfl, quotient⟩
  · rintro ⟨target, record, there, rfl, rfl, quotient⟩
    refine ⟨⟨record.service, record.overlapUs, ratio, record.contexts.mergeSort contextLe⟩,
      List.mem_mergeSort.mpr ((mem_of_mapM each).mpr ⟨(target, record), there, ?_⟩), rfl⟩
    rw [siblingRow, quotient]
    rfl

/-- The rows of a service in the result are those of its partners. -/
theorem rows_of_siblings (returned : siblingsOf text spans spanById intervals minOverlapUs = some siblings)
    {rows : List Row} (listed : (first, rows) ∈ siblings) :
    siblingRows (durationOf intervals (fallbackTotalUsByService text spans)) first
      ((Dict.get (addSiblingRelations (foundRelations text spans spanById minOverlapUs)) first).getD []) = some rows := by
  obtain ⟨service, -, entry⟩ := (mem_of_mapM returned).mp listed
  obtain ⟨found, made, same⟩ := Option.map_eq_some_iff.mp entry
  obtain ⟨rfl, rfl⟩ := Prod.mk.inj same
  exact made

/-- A service with partners has rows. -/
theorem exists_rows (returned : siblingsOf text spans spanById intervals minOverlapUs = some siblings)
    (partner : Partner text spans spanById minOverlapUs first record) : ∃ rows, (first, rows) ∈ siblings := by
  have among : first ∈ sortUnique nameLe (intervals.map Prod.fst ++
      (addSiblingRelations (foundRelations text spans spanById minOverlapUs)).map Prod.fst ++
        (addSiblingRelations (foundRelations text spans spanById minOverlapUs)).flatMap
          fun entry => entry.2.map Prod.fst) :=
    mem_sortUnique.mpr (List.mem_append_left _ (List.mem_append_right _ (mem_keys_of_partner partner)))
  have each := mapM_eq_none_iff.not.mp (Option.ne_none_iff_exists'.mpr ⟨siblings, returned⟩)
  obtain ⟨entry, made⟩ := Option.ne_none_iff_exists'.mp fun failed => each ⟨first, among, failed⟩
  obtain ⟨rows, -, rfl⟩ := Option.map_eq_some_iff.mp made
  exact ⟨rows, (mem_of_mapM returned).mpr ⟨first, among, made⟩⟩

/-- **What is reported**: a service with another, if some pair of client spans counts for them, with the sum of
the overlaps and its ratio to the shorter duration. -/
theorem mem_siblingFacts (returned : siblingsOf text spans spanById intervals minOverlapUs = some siblings) :
    (first, second, overlapUs, ratio) ∈ siblingFacts siblings ↔
      (first ≠ second ∧ countingPairs (clientService text spans) spans minOverlapUs first second ≠ []) ∧
        overlapUs = pairsOverlap (countingPairs (clientService text spans) spans minOverlapUs first second) ∧
          ratioOf overlapUs (durationOf intervals (fallbackTotalUsByService text spans) first)
            (durationOf intervals (fallbackTotalUsByService text spans) second) = some ratio := by
  simp only [siblingFacts, List.mem_flatMap, List.mem_map]
  constructor
  · rintro ⟨⟨service, rows⟩, listed, row, among, same⟩
    obtain ⟨rfl, same'⟩ := Prod.mk.inj same
    obtain ⟨target, record, there, rfl, rfl, quotient⟩ :=
      (mem_siblingRows (rows_of_siblings returned listed)).mp ⟨row, among, same'⟩
    have partner : Partner text spans spanById minOverlapUs service record := ⟨target, there⟩
    exact ⟨(partner_iff.mp partner).1, partner.overlapUs_eq, quotient⟩
  · rintro ⟨listed, rfl, quotient⟩
    obtain ⟨record, partner, rfl⟩ := (@exists_partner_iff text spans spanById _ _ _).mpr listed
    obtain ⟨rows, there⟩ := exists_rows returned partner
    obtain ⟨target, among⟩ := partner
    rw [← Partner.overlapUs_eq ⟨target, among⟩] at quotient ⊢
    obtain ⟨row, member, same⟩ := (mem_siblingRows (rows_of_siblings returned there)).mpr
      ⟨target, record, among, rfl, rfl, quotient⟩
    exact ⟨(first, rows), there, row, member, congrArg (Prod.mk first) same⟩

/-- The loops after the first one fail exactly if a quotient is too large. -/
theorem siblingsOf_eq_none_iff : siblingsOf text spans spanById intervals minOverlapUs = none ↔
    ∃ first second, (first ≠ second ∧
      countingPairs (clientService text spans) spans minOverlapUs first second ≠ []) ∧
        ratioOf (pairsOverlap (countingPairs (clientService text spans) spans minOverlapUs first second))
          (durationOf intervals (fallbackTotalUsByService text spans) first)
          (durationOf intervals (fallbackTotalUsByService text spans) second) = none := by
  rw [siblingsOf, mapM_eq_none_iff]
  simp only [Option.map_eq_none_iff, siblingRows, mapM_eq_none_iff, siblingRow]
  constructor
  · rintro ⟨service, -, ⟨target, record⟩, there, failed⟩
    have partner : Partner text spans spanById minOverlapUs service record := ⟨target, there⟩
    exact ⟨service, record.service, (partner_iff.mp partner).1, partner.overlapUs_eq ▸ failed⟩
  · rintro ⟨first, second, listed, failed⟩
    obtain ⟨record, partner, rfl⟩ := (@exists_partner_iff text spans spanById _ _ _).mpr listed
    have key := mem_keys_of_partner partner
    obtain ⟨target, there⟩ := partner
    refine ⟨first, mem_sortUnique.mpr (List.mem_append_left _ (List.mem_append_right _ key)), (target, record), there, ?_⟩
    rw [Partner.overlapUs_eq ⟨target, there⟩]
    exact failed

end Rows

/-! ### Traces -/

/-- What the analysis of a trace says of the siblings, unless it raises. -/
def traceFacts (text : TextMethods) (spans : List SpanRecord) (spanById : List (String × SpanRecord))
    (minOverlapMs : Js.Number) : Option (List (String × String × ℤ × ℚ)) :=
  (computeSiblings text spans spanById (buildServiceIntervals spans) minOverlapMs).map siblingFacts

section Traces

variable {text : TextMethods} {spans others : List SpanRecord} {spanById spanById' : List (String × SpanRecord)}
  {minOverlapMs : Js.Number} {minOverlapUs overlapUs : ℤ} {first second : String} {ratio : ℚ}
  {service service' : SpanRecord → String} {facts : List (String × String × ℤ × ℚ)}

/-- With different ids, each client span has its own service. -/
theorem clientService_eq (distinct : (spans.map SpanRecord.spanId).Nodup) {span : SpanRecord}
    (among : span ∈ spans) (client : span.kind = "client") :
    clientService text spans span = downstream text spans span := by
  obtain ⟨own, known⟩ : ∃ own, own = (spans.filter fun one => one.kind = "client").filter
      fun one => one.spanId = span.spanId := ⟨_, rfl⟩
  have here : span ∈ own := by
    rw [known, List.mem_filter, List.mem_filter]
    exact ⟨⟨among, decide_eq_true client⟩, decide_eq_true rfl⟩
  obtain ⟨front, last, split⟩ : ∃ front last, own = front ++ [last] :=
    ⟨_, _, (List.dropLast_append_getLast (List.ne_nil_of_mem here)).symm⟩
  have single : last = span := by
    have there : last ∈ own := split ▸ List.mem_append_right _ (List.mem_singleton_self _)
    rw [known, List.mem_filter, List.mem_filter] at there
    exact List.inj_on_of_nodup_map distinct there.1.1 among (of_decide_eq_true there.2)
  rw [clientService, resolvedServiceBySpanId, Dict.get_collect, ← known, if_neg (List.ne_nil_of_mem here),
    split, List.foldl_append, single]
  rfl

theorem countingPairs_congr (same : ∀ span ∈ spans, span.kind = "client" → service span = service' span) :
    countingPairs service spans minOverlapUs first second = countingPairs service' spans minOverlapUs first second := by
  refine List.filter_congr fun pair among => ?_
  obtain ⟨left, right⟩ := List.mem_product.mp among
  rw [decide_eq_decide, Counts, Counts]
  refine and_congr_right fun kinds => and_congr_right fun _ => and_congr_left' ?_
  rw [same pair.1 left kinds.1, same pair.2 right kinds.2]

theorem countingPairs_perm (order : spans.Perm others) :
    (countingPairs service spans minOverlapUs first second).Perm
      (countingPairs service others minOverlapUs first second) :=
  (order.product order).filter _

theorem traceFacts_eq_some_iff : traceFacts text spans spanById minOverlapMs = some facts ↔
    ∃ minOverlapUs siblings, wholeMicroseconds minOverlapMs = some minOverlapUs ∧ Resolved text spans ∧
      siblingsOf text spans spanById (buildServiceIntervals spans) minOverlapUs = some siblings ∧
        siblingFacts siblings = facts := by
  rw [traceFacts, computeSiblings, Option.map_eq_some_iff]
  cases wholeMicroseconds minOverlapMs with
  | none => simp
  | some minOverlapUs =>
      by_cases resolved : Resolved text spans <;> simp [resolved]

/-- No error ends the analysis: no peer of a client span is rejected, and no quotient is too large. -/
structure Analyzable (text : TextMethods) (spans : List SpanRecord) (minOverlapUs : ℤ) : Prop where
  parsed : ∀ span ∈ spans, span.kind = "client" → ¬ Unparsable text spans span
  fits : ∀ first second, first ≠ second →
    countingPairs (clientService text spans) spans minOverlapUs first second ≠ [] →
      ratioOf (pairsOverlap (countingPairs (clientService text spans) spans minOverlapUs first second))
        (busy text spans first).card (busy text spans second).card ≠ none

/-- **The analysis returns** exactly if no error ends it. -/
theorem exists_traceFacts_iff : (∃ facts, traceFacts text spans spanById minOverlapMs = some facts) ↔
    ∃ minOverlapUs, wholeMicroseconds minOverlapMs = some minOverlapUs ∧ Analyzable text spans minOverlapUs := by
  have resolved : Resolved text spans ↔ ∀ span ∈ spans, span.kind = "client" → ¬ Unparsable text spans span :=
    forall₃_congr fun span _ _ => resolveDownstreamServiceName_eq_none_iff.not
  have fits (minOverlapUs : ℤ) :
      (∃ siblings, siblingsOf text spans spanById (buildServiceIntervals spans) minOverlapUs = some siblings) ↔
        ∀ first second, first ≠ second →
          countingPairs (clientService text spans) spans minOverlapUs first second ≠ [] →
            ratioOf (pairsOverlap (countingPairs (clientService text spans) spans minOverlapUs first second))
              (busy text spans first).card (busy text spans second).card ≠ none := by
    rw [← Option.ne_none_iff_exists', ne_eq, siblingsOf_eq_none_iff]
    simp only [durationOf_eq, not_exists, not_and, and_imp, ne_eq]
  simp only [traceFacts_eq_some_iff]
  constructor
  · rintro ⟨_, minOverlapUs, siblings, whole, all, returned, rfl⟩
    exact ⟨minOverlapUs, whole, resolved.mp all, (fits minOverlapUs).mp ⟨siblings, returned⟩⟩
  · rintro ⟨minOverlapUs, whole, parsed, small⟩
    obtain ⟨siblings, returned⟩ := (fits minOverlapUs).mpr small
    exact ⟨_, minOverlapUs, siblings, whole, resolved.mpr parsed, returned, rfl⟩

/-- What is reported of a trace. -/
theorem mem_facts (whole : wholeMicroseconds minOverlapMs = some minOverlapUs)
    (returned : traceFacts text spans spanById minOverlapMs = some facts) :
    (first, second, overlapUs, ratio) ∈ facts ↔
      (first ≠ second ∧ countingPairs (clientService text spans) spans minOverlapUs first second ≠ []) ∧
        overlapUs = pairsOverlap (countingPairs (clientService text spans) spans minOverlapUs first second) ∧
          ratioOf overlapUs (busy text spans first).card (busy text spans second).card = some ratio := by
  obtain ⟨threshold, siblings, same, -, made, rfl⟩ := traceFacts_eq_some_iff.mp returned
  obtain rfl := Option.some.inj (whole.symm.trans same)
  rw [mem_siblingFacts made, durationOf_eq, durationOf_eq]

/-- What is reported of a trace with different ids. -/
theorem mem_traceFacts (distinct : (spans.map SpanRecord.spanId).Nodup)
    (whole : wholeMicroseconds minOverlapMs = some minOverlapUs)
    (returned : traceFacts text spans spanById minOverlapMs = some facts) :
    (first, second, overlapUs, ratio) ∈ facts ↔
      (first ≠ second ∧ countingPairs (downstream text spans) spans minOverlapUs first second ≠ []) ∧
        overlapUs = pairsOverlap (countingPairs (downstream text spans) spans minOverlapUs first second) ∧
          ratioOf overlapUs (busy text spans first).card (busy text spans second).card = some ratio := by
  rw [mem_facts whole returned,
    countingPairs_congr fun span among client => clientService_eq distinct among client]

/-- The order of the spans does not matter for the pairs that count. -/
theorem countingPairs_downstream (order : spans.Perm others) :
    (countingPairs (downstream text others) others minOverlapUs first second).Perm
      (countingPairs (downstream text spans) spans minOverlapUs first second) := by
  rw [← downstream_perm order]
  exact countingPairs_perm order.symm

theorem ne_nil_of_perm {pairs pairs' : List (SpanRecord × SpanRecord)} (order : pairs.Perm pairs') :
    pairs ≠ [] ↔ pairs' ≠ [] := by
  rw [ne_eq, ne_eq, ← List.length_eq_zero_iff, order.length_eq, List.length_eq_zero_iff]

theorem pairsOverlap_perm {pairs pairs' : List (SpanRecord × SpanRecord)} (order : pairs.Perm pairs') :
    pairsOverlap pairs = pairsOverlap pairs' :=
  (order.map _).sum_eq

theorem Analyzable.perm (distinct : (spans.map SpanRecord.spanId).Nodup) (order : spans.Perm others)
    (analyzable : Analyzable text spans minOverlapUs) : Analyzable text others minOverlapUs where
  parsed span among client := by
    have same : Unparsable text spans span ↔ Unparsable text others span := by
      rw [← resolveDownstreamServiceName_eq_none_iff, ← resolveDownstreamServiceName_eq_none_iff,
        resolveDownstreamServiceName_perm order]
    exact same.not.mp (analyzable.parsed span (order.mem_iff.mpr among) client)
  fits first second different paired := by
    have distinct' : (others.map SpanRecord.spanId).Nodup := (order.map _).nodup_iff.mp distinct
    rw [countingPairs_congr fun span among client => clientService_eq distinct' among client] at paired ⊢
    have fits := analyzable.fits first second different
    rw [countingPairs_congr fun span among client => clientService_eq distinct among client] at fits
    rw [pairsOverlap_perm (countingPairs_downstream order), ← busy_perm order, ← busy_perm order]
    exact fits ((ne_nil_of_perm (countingPairs_downstream order)).mp paired)

/-- The facts are those of the trace: a service is listed with another if two client spans below one parent lead to
them and overlap enough, with the sum of these overlaps and its ratio to the shorter duration; and each is listed with
the other alike. -/
structure Reports (text : TextMethods) (spans : List SpanRecord) (minOverlapUs : ℤ)
    (facts : List (String × String × ℤ × ℚ)) : Prop where
  listed : ∀ first second, (∃ overlapUs ratio, (first, second, overlapUs, ratio) ∈ facts) ↔
    first ≠ second ∧ ∃ left ∈ spans, ∃ right ∈ spans,
      Counts (downstream text spans) minOverlapUs first second (left, right)
  sums : ∀ first second overlapUs ratio, (first, second, overlapUs, ratio) ∈ facts →
    overlapUs = pairsOverlap (countingPairs (downstream text spans) spans minOverlapUs first second) ∧
      ratioOf overlapUs (busy text spans first).card (busy text spans second).card = some ratio
  alike : ∀ first second overlapUs ratio, (first, second, overlapUs, ratio) ∈ facts →
    first ≠ second ∧ (second, first, overlapUs, ratio) ∈ facts

/-- The siblings are reported, and alike for every order of the spans. -/
def SiblingsReported (text : TextMethods) (spans : List SpanRecord) (spanById : List (String × SpanRecord))
    (minOverlapMs : Js.Number) : Prop :=
  ∃ minOverlapUs facts, wholeMicroseconds minOverlapMs = some minOverlapUs ∧
    traceFacts text spans spanById minOverlapMs = some facts ∧ Reports text spans minOverlapUs facts ∧
      ∀ others spanById', spans.Perm others → ∃ facts', traceFacts text others spanById' minOverlapMs = some facts' ∧
        ∀ fact, fact ∈ facts' ↔ fact ∈ facts

theorem reports_of_traceFacts (distinct : (spans.map SpanRecord.spanId).Nodup)
    (analyzable : Analyzable text spans minOverlapUs) (whole : wholeMicroseconds minOverlapMs = some minOverlapUs)
    (returned : traceFacts text spans spanById minOverlapMs = some facts) : Reports text spans minOverlapUs facts where
  listed first second := by
    simp only [mem_traceFacts distinct whole returned, countingPairs_ne_nil_iff]
    constructor
    · rintro ⟨_, _, listed, -⟩
      exact listed
    · rintro ⟨different, paired⟩
      have fits := analyzable.fits first second different
      rw [countingPairs_congr fun span among client => clientService_eq distinct among client] at fits
      obtain ⟨ratio, quotient⟩ := Option.ne_none_iff_exists'.mp (fits (countingPairs_ne_nil_iff.mpr paired))
      exact ⟨_, ratio, ⟨different, paired⟩, rfl, quotient⟩
  sums first second overlapUs ratio reported := ((mem_traceFacts distinct whole returned).mp reported).2
  alike first second overlapUs ratio reported := by
    obtain ⟨⟨different, paired⟩, sum, quotient⟩ := (mem_traceFacts distinct whole returned).mp reported
    refine ⟨different, (mem_traceFacts distinct whole returned).mpr ⟨⟨different.symm, ?_⟩, ?_, ?_⟩⟩
    · obtain ⟨left, among, right, among', counts⟩ := countingPairs_ne_nil_iff.mp paired
      exact countingPairs_ne_nil_iff.mpr ⟨right, among', left, among, counts_swap counts⟩
    · exact sum.trans pairsOverlap_swap.symm
    · rw [← quotient, ratioOf, ratioOf, min_comm]

/-- **The siblings of a trace** with different ids are reported exactly if the threshold is a number of microseconds,
no peer of a client span is rejected, and no quotient is too large. -/
theorem siblings_spec (distinct : (spans.map SpanRecord.spanId).Nodup) :
    SiblingsReported text spans spanById minOverlapMs ↔
      ∃ minOverlapUs, wholeMicroseconds minOverlapMs = some minOverlapUs ∧ Analyzable text spans minOverlapUs := by
  constructor
  · rintro ⟨_, facts, -, returned, -⟩
    exact exists_traceFacts_iff.mp ⟨facts, returned⟩
  · rintro ⟨minOverlapUs, whole, analyzable⟩
    obtain ⟨facts, returned⟩ := (@exists_traceFacts_iff _ _ spanById _).mpr ⟨minOverlapUs, whole, analyzable⟩
    refine ⟨minOverlapUs, facts, whole, returned, reports_of_traceFacts distinct analyzable whole returned, ?_⟩
    intro others spanById' order
    have distinct' : (others.map SpanRecord.spanId).Nodup := (order.map _).nodup_iff.mp distinct
    obtain ⟨facts', returned'⟩ :=
      (@exists_traceFacts_iff _ _ spanById' _).mpr ⟨minOverlapUs, whole, analyzable.perm distinct order⟩
    refine ⟨facts', returned', ?_⟩
    rintro ⟨first, second, overlapUs, ratio⟩
    have pairs : (countingPairs (downstream text others) others minOverlapUs first second).Perm
        (countingPairs (downstream text spans) spans minOverlapUs first second) := countingPairs_downstream order
    rw [mem_traceFacts distinct' whole returned', mem_traceFacts distinct whole returned, ne_nil_of_perm pairs,
      pairsOverlap_perm pairs, ← busy_perm order, ← busy_perm order]

end Traces

/-! ### Sizes -/

section Sizes

variable {text : TextMethods} {spans : List SpanRecord} {minOverlapUs overlapUs : ℤ} {first second : String}

theorem spanPairOverlapUs_nonneg {left right : SpanRecord} : 0 ≤ spanPairOverlapUs left right := by
  rw [spanPairOverlapUs_eq]
  exact Int.natCast_nonneg _

theorem pairsOverlap_nonneg {pairs : List (SpanRecord × SpanRecord)} : 0 ≤ pairsOverlap pairs := by
  refine List.sum_nonneg fun overlap among => ?_
  obtain ⟨pair, -, rfl⟩ := List.mem_map.mp among
  exact spanPairOverlapUs_nonneg

/-- The quotient of an overlap of at most 2^1022 microseconds is a float. -/
theorem ratioOf_of_le {duration duration' : ℤ} (positive : 0 ≤ overlapUs) (small : overlapUs ≤ 2 ^ 1022) :
    ratioOf overlapUs duration duration' ≠ none := by
  unfold ratioOf
  split
  · rename_i lasts
    have shorter : (1 : ℚ) ≤ (min duration duration' : ℤ) := by exact_mod_cast lasts
    have overlap : (0 : ℚ) ≤ overlapUs := by exact_mod_cast positive
    have bound : (overlapUs : ℚ) ≤ 2 ^ 1022 := by
      rw [← Int.cast_ofNat, ← Int.cast_pow]
      exact Int.cast_le.mpr small
    obtain ⟨rounded, double⟩ := Js.toDouble_of_le (div_nonneg overlap (zero_le_one.trans shorter))
      ((div_le_self overlap shorter).trans bound)
    rw [double]
    nofun
  · nofun

/-- A trace with parsable peers whose spans overlap for at most 2^1022 microseconds is analysed. -/
theorem analyzable_of_le (parsed : ∀ span ∈ spans, span.kind = "client" → ¬ Unparsable text spans span)
    (small : pairsOverlap (spans ×ˢ spans) ≤ 2 ^ 1022) : Analyzable text spans minOverlapUs where
  parsed := parsed
  fits first second _ _ := by
    refine ratioOf_of_le pairsOverlap_nonneg (le_trans ?_ small)
    refine (List.filter_sublist.map _).sum_le_sum fun overlap among => ?_
    obtain ⟨pair, -, rfl⟩ := List.mem_map.mp among
    exact spanPairOverlapUs_nonneg

end Sizes

/-- Strings without blanks and capitals, and no addresses. -/
def plainText : TextMethods where
  strip value := value
  lower value := value
  isdigit value := value.all Char.isDigit
  rejects _ := false
  hostname _ := none
  path value := value

/-- A client span below the span "p". -/
def call (spanId peer : String) (startUs endUs : ℤ) : SpanRecord where
  spanId := spanId
  serviceName := "web"
  operationName := "GET"
  startUs := startUs
  endUs := endUs
  durationUs := endUs - startUs
  kind := "client"
  parentSpanId := some "p"
  peer := peer

/-- Two calls at a time. -/
def twoCalls : List SpanRecord :=
  [call "a" "cart" 0 10000, call "b" "stock" 5000 20000]

/-- The default threshold is half a millisecond. -/
theorem wholeMicroseconds_default : wholeMicroseconds (.finite (1 / 2)) = some 500 := by
  have product : (Js.Number.finite (1 / 2) * Js.Number.finite 1000 : Js.Number) = Js.Number.finite (500 : ℕ) := by
    show Js.toDouble (1 / 2 * 1000) = _
    rw [show (1 / 2 * 1000 : ℚ) = ((500 : ℕ) : ℚ) by norm_num]
    exact Js.toDouble_natCast (by norm_num)
  have positive : Js.Number.lt (.finite (1 / 2)) 0 = false := decide_eq_false (by norm_num)
  rw [wholeMicroseconds, positive, if_neg Bool.false_ne_true, product]
  rfl

theorem twoCalls_downstream : downstream plainText twoCalls (call "a" "cart" 0 10000) = "cart" ∧
    downstream plainText twoCalls (call "b" "stock" 5000 20000) = "stock" :=
  ⟨(downstream_of_childless (by decide)).trans (by decide +kernel),
    (downstream_of_childless (by decide)).trans (by decide +kernel)⟩

theorem twoCalls_analyzable : Analyzable plainText twoCalls 500 :=
  analyzable_of_le (fun _ _ _ unparsable => Bool.false_ne_true unparsable.2.2) (by decide +kernel)

theorem siblings_spec_calls : SiblingsReported plainText twoCalls [] (.finite (1 / 2)) ∧
    Counts (downstream plainText twoCalls) 500 "cart" "stock"
      (call "a" "cart" 0 10000, call "b" "stock" 5000 20000) :=
  ⟨(siblings_spec (by decide)).mpr ⟨500, wholeMicroseconds_default, twoCalls_analyzable⟩,
    ⟨rfl, rfl⟩, ⟨by decide, rfl⟩, twoCalls_downstream, by decide⟩

/-- `urlparse` rejects an address with a bracket that is not closed. -/
def addressText : TextMethods :=
  { plainText with rejects := fun value => value = "http://[::1".toList }

/-- A call of an address with a bracket that is not closed. -/
def rejectedCall : List SpanRecord :=
  [call "a" "http://[::1" 0 10000]

/-- The peer of one call ends the analysis. -/
theorem rejected_peer : (rejectedCall.map SpanRecord.spanId).Nodup ∧
    ¬ SiblingsReported addressText rejectedCall [] (.finite (1 / 2)) := by
  refine ⟨by decide, ?_⟩
  rintro ⟨_, facts, -, returned, -⟩
  obtain ⟨minOverlapUs, -, analyzable⟩ := exists_traceFacts_iff.mp ⟨facts, returned⟩
  exact analyzable.parsed (call "a" "http://[::1" 0 10000) (List.mem_singleton_self _) rfl (by decide +kernel)

end Mcoz.Analyzer
