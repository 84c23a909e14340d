/-
The sets of siblings in the analyzer's output.

`build_json_output` numbers the services by name, makes the siblings a graph on the numbers, and searches it from
every number. The sets it prints are the components with two services or more (`mem_siblingSets`), and a service
lies in one of them with all of its siblings (`siblings_together`).
-/

import Mcoz.Analyzer.SiblingRelation
import Mcoz.Lib.Components
import Mathlib.Data.Nat.Digits.Lemmas

set_option autoImplicit false

namespace Mcoz.Analyzer

open SortUnique Components

/-! ### The output -/

/-- A candidate of `detect_fanout_candidates`. -/
structure Candidate where
  parentSpanId : String
  parentKind : String
  parentOp : String
  peers : List String
  groupDurUs : ℤ
  spanCount : ℕ
  spanIds : List String

/-- A candidate in the output. -/
structure FanoutCandidate where
  parentSpanId : String
  parentKind : String
  parentOp : String
  groupDurMs : ℚ
  peers : List String
  spanCount : ℕ
  spanIds : List String

/-- A service in the output. -/
structure ServiceEntry where
  serviceId : ℕ
  service : String
  intervalBasis : String
  totalDurationMs : ℚ
  siblingIds : List ℕ
  fanoutCandidates : List FanoutCandidate

/-- What the output says under `analysis`. -/
structure Analysis where
  serviceIndex : List (List Char × String)
  siblingSets : List (List Char)
  services : List ServiceEntry

/-- In which order Python goes through a set of pairs and through a set of ids. -/
structure SetOrder where
  pairs : List (ℕ × ℕ) → List (ℕ × ℕ)
  ids : List ℕ → List ℕ
  pairs_perm : ∀ all, (pairs all).Perm all
  ids_perm : ∀ all, (ids all).Perm all

/-- The order of the ids. -/
def idLe (first second : ℕ) : Bool :=
  first ≤ second

/-- `all_services`. -/
def serviceNames (intervals : List (String × ServiceIntervals)) (siblings : List (String × List Row))
    (fanout : List (String × List Candidate)) : List String :=
  sortUnique nameLe (intervals.map Prod.fst ++ siblings.map Prod.fst ++ fanout.map Prod.fst)

/-- `service_to_id`. -/
def serviceToId (services : List String) : List (String × ℕ) :=
  services.zipIdx 1

/-- `id_to_service`. -/
def idToService (services : List String) : List (ℕ × String) :=
  (serviceToId services).map Prod.swap

/-- The pair that a sibling adds to `edge_pairs`, if any. -/
def edgePair (ids : List (String × ℕ)) (leftService rightService : String) : Option (ℕ × ℕ) :=
  if leftService = rightService then none
  else
    match Dict.get ids leftService, Dict.get ids rightService with
    | some leftId, some rightId => some (min leftId rightId, max leftId rightId)
    | _, _ => none

/-- `edge_pairs`. -/
def edgePairs (ids : List (String × ℕ)) (siblings : List (String × List Row)) : List (ℕ × ℕ) :=
  (siblings.flatMap fun entry => entry.2.filterMap fun row => edgePair ids entry.1 row.service).dedup

/-- `adjacency`. -/
def adjacency (pairs : List (ℕ × ℕ)) : List (ℕ × List ℕ) :=
  Dict.collect Prod.fst (fun _ => []) (fun others pair => others.insert pair.2)
    (pairs.flatMap fun pair => [pair, pair.swap])

/-- The ids next to an id, in the order of the set. -/
def nextTo (order : SetOrder) (pairs : List (ℕ × ℕ)) (id : ℕ) : List ℕ :=
  order.ids ((Dict.get (adjacency (order.pairs pairs)) id).getD [])

/-- The searches, for at most so many turns each, and the components with two ids or more, sorted. -/
def siblingSets (order : SetOrder) (turns : ℕ) (pairs : List (ℕ × ℕ)) : Option (List (List ℕ)) :=
  (components (nextTo order pairs) turns (((adjacency (order.pairs pairs)).map Prod.fst).mergeSort idLe) []).map
    fun found => (found.filter fun component => 2 ≤ component.length).map fun component => component.mergeSort idLe

/-- How a set is printed. -/
def printSet (ordered : List ℕ) : List Char :=
  '\x7b' :: [','].intercalate (ordered.map (Nat.toDigits 10)) ++ ['\x7d']

/-- `sibling_ids` of a service. -/
def siblingIds (ids : List (String × ℕ)) (siblings : List (String × List Row)) (service : String) : List ℕ :=
  sortUnique idLe (((Dict.get siblings service).getD []).filterMap fun row => Dict.get ids row.service)

/-- A candidate as it is printed. -/
def fanoutCandidate (cand : Candidate) : FanoutCandidate where
  parentSpanId := cand.parentSpanId
  parentKind := cand.parentKind
  parentOp := cand.parentOp
  groupDurMs := cand.groupDurUs / 1000
  peers := cand.peers
  spanCount := cand.spanCount
  spanIds := cand.spanIds

/-- The loop over the services, for one of them. -/
def serviceEntry (intervals : List (String × ServiceIntervals)) (siblings : List (String × List Row))
    (fanout : List (String × List Candidate)) (ids : List (String × ℕ)) (service : String × ℕ) : ServiceEntry where
  serviceId := service.2
  service := service.1
  intervalBasis := ((Dict.get intervals service.1).map ServiceIntervals.basis).getD "peer-only"
  totalDurationMs := ((Dict.get intervals service.1).map ServiceIntervals.totalUs).getD 0 / 1000
  siblingIds := siblingIds ids siblings service.1
  fanoutCandidates := ((Dict.get fanout service.1).getD []).map fanoutCandidate

/-- `build_json_output`, what it computes. -/
def buildJsonOutput (order : SetOrder) (turns : ℕ) (intervals : List (String × ServiceIntervals))
    (siblings : List (String × List Row)) (fanout : List (String × List Candidate)) : Option Analysis :=
  let services := serviceNames intervals siblings fanout
  let ids := serviceToId services
  (siblingSets order turns (edgePairs ids siblings)).map fun sets =>
    { serviceIndex := (((idToService services).map Prod.fst).mergeSort idLe).filterMap fun idx =>
        (Dict.get (idToService services) idx).map fun service => (Nat.toDigits 10 idx, service)
      siblingSets := sets.map printSet
      services := ids.map (serviceEntry intervals siblings fanout ids) }

/-! ### Ids -/

section Ids

variable {services : List String} {service other : String} {id : ℕ}

theorem nodup_sortUnique {names : List String} : (sortUnique nameLe names).Nodup :=
  (pairwise_lt_sortUnique names).imp ne_of_lt

theorem map_fst_serviceToId : (serviceToId services).map Prod.fst = services :=
  List.zipIdx_map_fst 1 services

theorem get_of_mem (single : services.Nodup) {entry : String × ℕ} (among : entry ∈ serviceToId services) :
    Dict.get (serviceToId services) entry.1 = some entry.2 :=
  (Dict.mem_iff_get (map_fst_serviceToId.symm ▸ single)).mp among

/-- The id of a service is its place. -/
theorem get_serviceToId (single : services.Nodup) :
    Dict.get (serviceToId services) service = some id ↔ 1 ≤ id ∧ services[id - 1]? = some service := by
  rw [← Dict.mem_iff_get (map_fst_serviceToId.symm ▸ single), serviceToId,
    List.mem_zipIdx_iff_le_and_getElem?_sub]

/-- Two services do not share an id. -/
theorem service_of_id (single : services.Nodup) (left : Dict.get (serviceToId services) service = some id)
    (right : Dict.get (serviceToId services) other = some id) : service = other := by
  obtain ⟨-, first⟩ := (get_serviceToId single).mp left
  obtain ⟨-, second⟩ := (get_serviceToId single).mp right
  exact Option.some.inj (first.symm.trans second)

end Ids

/-! ### The graph -/

/-- A service lists another, by their ids. -/
def Linked (ids : List (String × ℕ)) (siblings : List (String × List Row)) (left right : ℕ) : Prop :=
  ∃ entry ∈ siblings, ∃ row ∈ entry.2, Dict.get ids entry.1 = some left ∧ Dict.get ids row.service = some right

/-- The ids, with an edge where one of two services lists the other. -/
def siblingGraph (ids : List (String × ℕ)) (siblings : List (String × List Row)) : SimpleGraph ℕ where
  Adj left right := left ≠ right ∧ (Linked ids siblings left right ∨ Linked ids siblings right left)
  symm := ⟨fun _ _ adjacent => ⟨adjacent.1.symm, adjacent.2.symm⟩⟩
  loopless := ⟨fun _ adjacent => adjacent.1 rfl⟩

section Graph

variable {services : List String} {siblings : List (String × List Row)} {pairs : List (ℕ × ℕ)} {order : SetOrder}
  {leftService rightService : String} {left right node other : ℕ}

/-- A sibling adds the pair of the two ids, the smaller one first. -/
theorem edgePair_eq_some_iff (single : services.Nodup) :
    edgePair (serviceToId services) leftService rightService = some (left, right) ↔ left < right ∧
      (Dict.get (serviceToId services) leftService = some left ∧
          Dict.get (serviceToId services) rightService = some right ∨
        Dict.get (serviceToId services) leftService = some right ∧
          Dict.get (serviceToId services) rightService = some left) := by
  rw [edgePair]
  by_cases same : leftService = rightService
  · rw [if_pos same, same]
    refine iff_of_false nofun ?_
    rintro ⟨less, ⟨first, second⟩ | ⟨first, second⟩⟩ <;>
    · have equal := Option.some.inj (first.symm.trans second)
      omega
  · rw [if_neg same]
    cases first : Dict.get (serviceToId services) leftService with
    | none => simp
    | some leftId =>
        cases second : Dict.get (serviceToId services) rightService with
        | none => simp
        | some rightId =>
            have different : leftId ≠ rightId :=
              fun equal => same (service_of_id single first (equal ▸ second))
            simp only [Option.some.injEq, Prod.mk.injEq]
            omega

theorem mem_edgePairs (single : services.Nodup) : (left, right) ∈ edgePairs (serviceToId services) siblings ↔
    left < right ∧ (Linked (serviceToId services) siblings left right ∨
      Linked (serviceToId services) siblings right left) := by
  rw [edgePairs, List.mem_dedup, List.mem_flatMap]
  simp only [List.mem_filterMap, edgePair_eq_some_iff single]
  constructor
  · rintro ⟨entry, among, row, there, less, ids | ids⟩
    · exact ⟨less, Or.inl ⟨entry, among, row, there, ids⟩⟩
    · exact ⟨less, Or.inr ⟨entry, among, row, there, ids⟩⟩
  · rintro ⟨less, ⟨entry, among, row, there, ids⟩ | ⟨entry, among, row, there, ids⟩⟩
    · exact ⟨entry, among, row, there, less, Or.inl ids⟩
    · exact ⟨entry, among, row, there, less, Or.inr ids⟩

theorem mem_foldl_insert {items : List (ℕ × ℕ)} {start : List ℕ} :
    other ∈ items.foldl (fun others pair => others.insert pair.2) start ↔
      other ∈ start ∨ ∃ pair ∈ items, pair.2 = other := by
  induction items generalizing start with
  | nil => simp
  | cons first rest ih =>
      rw [List.foldl_cons, ih, List.mem_insert_iff, List.exists_mem_cons_iff, eq_comm, or_assoc]
      exact or_left_comm

/-- The ids next to an id are those of its pairs. -/
theorem mem_adjacency : other ∈ (Dict.get (adjacency pairs) node).getD [] ↔
    (node, other) ∈ pairs ∨ (other, node) ∈ pairs := by
  have collected := @Dict.getD_collect _ _ _ _ Prod.fst (fun _ : ℕ => ([] : List ℕ))
    (fun others pair => others.insert pair.2) (pairs.flatMap fun pair => [pair, pair.swap]) node
  rw [adjacency, collected, mem_foldl_insert]
  simp only [List.not_mem_nil, false_or, List.mem_filter, List.mem_flatMap, decide_eq_true_eq]
  constructor
  · rintro ⟨_, ⟨⟨pair, among, either⟩, rfl⟩, rfl⟩
    rcases List.mem_pair.mp either with rfl | rfl
    · exact Or.inl among
    · exact Or.inr among
  · rintro (among | among)
    · exact ⟨(node, other), ⟨⟨_, among, List.mem_cons_self ..⟩, rfl⟩, rfl⟩
    · exact ⟨(node, other), ⟨⟨_, among, List.mem_cons_of_mem _ (List.mem_cons_self ..)⟩, rfl⟩, rfl⟩

/-- **The search goes along the edges** of the graph. -/
theorem mem_nextTo (single : services.Nodup) :
    other ∈ nextTo order (edgePairs (serviceToId services) siblings) node ↔
      (siblingGraph (serviceToId services) siblings).Adj node other := by
  rw [nextTo, (order.ids_perm _).mem_iff, mem_adjacency, (order.pairs_perm _).mem_iff,
    (order.pairs_perm _).mem_iff, mem_edgePairs single, mem_edgePairs single]
  show _ ↔ node ≠ other ∧ _
  constructor
  · rintro (⟨less, either⟩ | ⟨more, either⟩)
    · exact ⟨less.ne, either⟩
    · exact ⟨more.ne', either.symm⟩
  · rintro ⟨different, either⟩
    rcases Nat.lt_or_gt_of_ne different with less | more
    · exact Or.inl ⟨less, either⟩
    · exact Or.inr ⟨more, either.symm⟩

end Graph

/-! ### The sets -/

section Parts

variable {graph : SimpleGraph ℕ} {found : List (List ℕ)} {part set : List ℕ}

/-- Different ids are sorted strictly. -/
theorem pairwise_sorted (single : part.Nodup) : (part.mergeSort idLe).Pairwise (· < ·) := by
  have order : (part.mergeSort idLe).Pairwise (· ≤ ·) := List.pairwise_mergeSort' (· ≤ ·) part
  have distinct : (part.mergeSort idLe).Nodup := (List.mergeSort_perm part idLe).nodup_iff.mpr single
  exact (order.and distinct).imp fun both => lt_of_le_of_ne both.1 both.2

/-- A list of the ids of a component, sorted. -/
def IsSet (component : graph.ConnectedComponent) (set : List ℕ) : Prop :=
  set.Pairwise (· < ·) ∧ ∀ id, id ∈ set ↔ id ∈ component.supp

/-- A part lists the component of each of its ids. -/
theorem isSet_part {node : ℕ} (whole : Part graph part) (among : node ∈ part) :
    IsSet (graph.connectedComponentMk node) (part.mergeSort idLe) := by
  refine ⟨pairwise_sorted whole.nodup, fun id => ?_⟩
  rw [List.mem_mergeSort, SimpleGraph.ConnectedComponent.mem_supp_iff, SimpleGraph.ConnectedComponent.eq,
    whole.reachable node among]
  exact ⟨SimpleGraph.Reachable.symm, SimpleGraph.Reachable.symm⟩

/-- A part of two ids or more lists a component that is not a single id. -/
theorem component_of_part (parts : ∀ part ∈ found, Part graph part)
    (among : set ∈ (found.filter fun component => 2 ≤ component.length).map fun component =>
      component.mergeSort idLe) :
    ∃ component : graph.ConnectedComponent, component.supp.Nontrivial ∧ IsSet component set := by
  obtain ⟨part, kept, rfl⟩ := List.mem_map.mp among
  obtain ⟨member, size⟩ := List.mem_filter.mp kept
  have whole := parts part member
  rcases part with _ | ⟨first, _ | ⟨second, rest⟩⟩
  · cases of_decide_eq_true size
  · exact absurd (of_decide_eq_true size) (by simp)
  · have here : first ∈ first :: second :: rest := List.mem_cons_self ..
    have there : second ∈ first :: second :: rest := List.mem_cons_of_mem _ (List.mem_cons_self ..)
    have different : first ≠ second := fun same =>
      (List.nodup_cons.mp whole.nodup).1 (same ▸ List.mem_cons_self ..)
    have lists := isSet_part whole here
    refine ⟨_, ?_, lists⟩
    exact Set.nontrivial_of_mem_mem_ne ((lists.2 first).mp (List.mem_mergeSort.mpr here))
      ((lists.2 second).mp (List.mem_mergeSort.mpr there)) different

/-- Each component that is not a single id is listed. -/
theorem part_of_component {component : graph.ConnectedComponent} (parts : ∀ part ∈ found, Part graph part)
    (all : ∀ node other, graph.Adj node other → ∃ part ∈ found, node ∈ part)
    (several : component.supp.Nontrivial) :
    ∃ set ∈ (found.filter fun component => 2 ≤ component.length).map (fun component => component.mergeSort idLe),
      IsSet component set := by
  obtain ⟨first, here, second, there, different⟩ := several
  have reachable := component.reachable_of_mem_supp here there
  obtain ⟨other, edge⟩ := SimpleGraph.mem_support_of_reachable different reachable
  obtain ⟨part, among, left⟩ := all first other edge
  have right : second ∈ part := ((parts part among).reachable first left second).mpr reachable
  refine ⟨part.mergeSort idLe, List.mem_map_of_mem (List.mem_filter.mpr ⟨among, decide_eq_true ?_⟩), ?_⟩
  · rcases part with _ | ⟨one, _ | ⟨two, rest⟩⟩
    · cases left
    · exact absurd ((List.mem_singleton.mp left).trans (List.mem_singleton.mp right).symm) different
    · simp
  · rw [← (SimpleGraph.ConnectedComponent.mem_supp_iff component first).mp here]
    exact isSet_part (parts part among) left

/-- Parts without a common id are different sets. -/
theorem nodup_sorted_parts (full : ∀ part ∈ found, part ≠ []) (apart : found.Pairwise List.Disjoint) :
    ((found.filter fun component => 2 ≤ component.length).map fun component => component.mergeSort idLe).Nodup := by
  refine List.Pairwise.map _ (fun first second differ => differ) ?_
  refine List.Pairwise.sublist List.filter_sublist ?_
  refine apart.imp_of_mem fun {first second} among _ disjoint same => ?_
  obtain ⟨id, here⟩ := List.exists_mem_of_ne_nil _ (full first among)
  exact disjoint here (List.mem_mergeSort.mp (same ▸ List.mem_mergeSort.mpr here))

end Parts

section Sets

variable {services : List String} {siblings : List (String × List Row)} {pairs : List (ℕ × ℕ)} {order : SetOrder}
  {ids : List (String × ℕ)} {turns node : ℕ}

/-- The ids of the pairs are the keys. -/
theorem mem_keys_adjacency : node ∈ (adjacency pairs).map Prod.fst ↔
    ∃ other, (node, other) ∈ pairs ∨ (other, node) ∈ pairs := by
  rw [adjacency, Dict.mem_keys_collect]
  constructor
  · rintro ⟨item, among, rfl⟩
    obtain ⟨pair, there, either⟩ := List.mem_flatMap.mp among
    rcases List.mem_pair.mp either with rfl | rfl
    · exact ⟨item.2, Or.inl there⟩
    · exact ⟨pair.1, Or.inr there⟩
  · rintro ⟨other, there | there⟩
    · exact ⟨(node, other), List.mem_flatMap.mpr ⟨_, there, List.mem_cons_self ..⟩, rfl⟩
    · exact ⟨(node, other), List.mem_flatMap.mpr ⟨_, there, List.mem_cons_of_mem _ (List.mem_cons_self ..)⟩, rfl⟩

/-- Each pair is in two sets of `adjacency`. -/
theorem sum_nextTo_le :
    (((adjacency (order.pairs pairs)).map Prod.fst).map fun id => (nextTo order pairs id).length).sum ≤
      2 * pairs.length := by
  have sizes : ((adjacency (order.pairs pairs)).map Prod.fst).map (fun id => (nextTo order pairs id).length) =
      (adjacency (order.pairs pairs)).map fun entry => List.length entry.2 := by
    rw [List.map_map]
    refine List.map_congr_left fun entry among => ?_
    have own : Dict.get (adjacency (order.pairs pairs)) entry.1 = some entry.2 :=
      (Dict.mem_iff_get Dict.nodup_collect).mp among
    show (order.ids _).length = _
    rw [(order.ids_perm _).length_eq, own, Option.getD_some]
  have grow (others : List ℕ) (pair : ℕ × ℕ) : (others.insert pair.2).length ≤ others.length + 1 := by
    rw [List.length_insert]
    split
    · exact Nat.le_succ _
    · exact le_rfl
  have both (pairs : List (ℕ × ℕ)) : (pairs.flatMap fun pair => [pair, pair.swap]).length = 2 * pairs.length := by
    induction pairs with
    | nil => rfl
    | cons pair rest ih =>
        rw [List.flatMap_cons, List.length_append, ih, List.length_cons]
        simp only [List.length_cons, List.length_nil]
        omega
  rw [sizes, ← (order.pairs_perm pairs).length_eq, ← both]
  exact Dict.sum_collect_le (fun _ => rfl) grow

theorem length_edgePairs_le : (edgePairs ids siblings).length ≤ (siblings.map fun entry => entry.2.length).sum := by
  rw [edgePairs]
  refine (List.dedup_sublist _).length_le.trans ?_
  rw [List.length_flatMap]
  exact List.sum_le_sum fun entry _ => List.length_filterMap_le ..

/-- **The sets are the components** of two ids or more. -/
theorem siblingSets_eq (single : services.Nodup)
    (enough : 1 + 2 * (siblings.map fun entry => entry.2.length).sum ≤ turns) :
    ∃ sets, siblingSets order turns (edgePairs (serviceToId services) siblings) = some sets ∧ sets.Nodup ∧
      (∀ set ∈ sets, ∃ component : (siblingGraph (serviceToId services) siblings).ConnectedComponent,
        component.supp.Nontrivial ∧ IsSet component set) ∧
      ∀ component : (siblingGraph (serviceToId services) siblings).ConnectedComponent,
        component.supp.Nontrivial → ∃ set ∈ sets, IsSet component set := by
  have adjacent (node other : ℕ) : other ∈ nextTo order (edgePairs (serviceToId services) siblings) node ↔
      (siblingGraph (serviceToId services) siblings).Adj node other := mem_nextTo single
  have keys (node other : ℕ) (edge : other ∈ nextTo order (edgePairs (serviceToId services) siblings) node) :
      node ∈ (adjacency (order.pairs (edgePairs (serviceToId services) siblings))).map Prod.fst := by
    rw [nextTo, (order.ids_perm _).mem_iff, mem_adjacency] at edge
    exact mem_keys_adjacency.mpr ⟨other, edge⟩
  have known (node : ℕ) (nonempty : nextTo order (edgePairs (serviceToId services) siblings) node ≠ []) :
      node ∈ (adjacency (order.pairs (edgePairs (serviceToId services) siblings))).map Prod.fst := by
    obtain ⟨other, edge⟩ := List.exists_mem_of_ne_nil _ nonempty
    exact keys node other edge
  have bound : 1 + ((((adjacency (order.pairs (edgePairs (serviceToId services) siblings))).map Prod.fst).map
      fun id => (nextTo order (edgePairs (serviceToId services) siblings) id).length).sum) ≤ turns := by
    refine le_trans (Nat.add_le_add_left ?_ 1) enough
    exact sum_nextTo_le.trans (Nat.mul_le_mul_left 2 length_edgePairs_le)
  have closed : Closed (siblingGraph (serviceToId services) siblings) [] := fun _ among => by cases among
  obtain ⟨found, ran, parts, -, apart, all⟩ := components_spec adjacent known closed bound
  refine ⟨_, by rw [siblingSets, ran]; rfl, nodup_sorted_parts (fun part among => (parts part among).nonempty) apart,
    fun set among => component_of_part parts among, fun component => part_of_component parts fun node other edge => ?_⟩
  refine (all node ?_).resolve_left List.not_mem_nil
  exact List.mem_mergeSort.mpr (keys node other ((adjacent node other).mpr edge))

end Sets

/-! ### Services -/

/-- No service is listed as its own sibling. -/
def Others (siblings : List (String × List Row)) : Prop :=
  ∀ entry ∈ siblings, ∀ row ∈ entry.2, row.service ≠ entry.1

/-- The siblings of `compute_siblings` are other services. -/
theorem others_computeSiblings {text : TextMethods} {spans : List SpanRecord} {spanById : List (String × SpanRecord)}
    {intervals : List (String × ServiceIntervals)} {minOverlapMs : Js.Number} {siblings : List (String × List Row)}
    (returned : computeSiblings text spans spanById intervals minOverlapMs = some siblings) : Others siblings := by
  intro entry among row there same
  have fact : (entry.1, row.service, row.overlapUs, row.ratio) ∈ siblingFacts siblings :=
    List.mem_flatMap.mpr ⟨entry, among, List.mem_map_of_mem there⟩
  unfold computeSiblings at returned
  split at returned
  · split at returned
    · exact ((mem_siblingFacts returned).mp fact).1.1 same.symm
    · cases returned
  · cases returned

section Services

variable {services : List String} {siblings : List (String × List Row)} {sets : List (List ℕ)} {service : String}
  {own id : ℕ}

/-- The siblings of a service are next to it. -/
theorem adj_of_siblingIds (single : services.Nodup) (others : Others siblings)
    (here : Dict.get (serviceToId services) service = some own)
    (among : id ∈ siblingIds (serviceToId services) siblings service) :
    (siblingGraph (serviceToId services) siblings).Adj own id := by
  rw [siblingIds, mem_sortUnique, List.mem_filterMap] at among
  obtain ⟨row, member, there⟩ := among
  cases listed : Dict.get siblings service with
  | none =>
      rw [listed] at member
      cases member
  | some rows =>
      rw [listed, Option.getD_some] at member
      have entry := Dict.mem_of_get listed
      refine ⟨fun same => others _ entry row member ?_, Or.inl ⟨_, entry, row, member, here, there⟩⟩
      exact service_of_id single there (same ▸ here)

/-- **A service is in one set with its siblings.** -/
theorem siblings_together (single : services.Nodup) (others : Others siblings)
    (all : ∀ component : (siblingGraph (serviceToId services) siblings).ConnectedComponent,
      component.supp.Nontrivial → ∃ set ∈ sets, IsSet component set)
    (here : Dict.get (serviceToId services) service = some own)
    (listed : siblingIds (serviceToId services) siblings service ≠ []) :
    ∃ set ∈ sets, own ∈ set ∧ ∀ id ∈ siblingIds (serviceToId services) siblings service, id ∈ set := by
  have near (id : ℕ) (among : id ∈ siblingIds (serviceToId services) siblings service) :
      id ∈ ((siblingGraph (serviceToId services) siblings).connectedComponentMk own).supp := by
    rw [SimpleGraph.ConnectedComponent.mem_supp_iff, SimpleGraph.ConnectedComponent.eq]
    exact (adj_of_siblingIds single others here among).symm.reachable
  have mine : own ∈ ((siblingGraph (serviceToId services) siblings).connectedComponentMk own).supp :=
    SimpleGraph.ConnectedComponent.connectedComponentMk_mem
  obtain ⟨id, among⟩ := List.exists_mem_of_ne_nil _ listed
  have different := (adj_of_siblingIds single others here among).ne
  obtain ⟨set, member, lists⟩ := all _ (Set.nontrivial_of_mem_mem_ne mine (near id among) different)
  exact ⟨set, member, (lists.2 own).mpr mine, fun id among => (lists.2 id).mpr (near id among)⟩

theorem services_entries {intervals : List (String × ServiceIntervals)} {fanout : List (String × List Candidate)} :
    ((serviceToId services).map (serviceEntry intervals siblings fanout (serviceToId services))).map
      ServiceEntry.service = services := by
  rw [List.map_map]
  exact map_fst_serviceToId

/-- The ids are counted from 1. -/
theorem ids_entries {intervals : List (String × ServiceIntervals)} {fanout : List (String × List Candidate)} :
    ((serviceToId services).map (serviceEntry intervals siblings fanout (serviceToId services))).map
      ServiceEntry.serviceId = List.range' 1 services.length := by
  rw [List.map_map]
  exact List.zipIdx_map_snd 1 services

/-- The printed index has the ids and the services of the entries. -/
theorem serviceIndex_eq :
    ((((idToService services).map Prod.fst).mergeSort idLe).filterMap fun idx =>
      (Dict.get (idToService services) idx).map fun service => (Nat.toDigits 10 idx, service)) =
      (serviceToId services).map fun entry => (Nat.toDigits 10 entry.2, entry.1) := by
  have keys : (idToService services).map Prod.fst = List.range' 1 services.length := by
    rw [idToService, List.map_map]
    exact List.zipIdx_map_snd 1 services
  have sorted : (List.range' 1 services.length).Pairwise fun first second => idLe first second = true :=
    List.pairwise_le_range'.imp fun less => decide_eq_true less
  have single : ((idToService services).map Prod.fst).Nodup := keys ▸ List.nodup_range'
  rw [keys, List.mergeSort_of_pairwise sorted, ← keys, List.filterMap_map]
  have each (entry : ℕ × String) (among : entry ∈ idToService services) :
      (Dict.get (idToService services) entry.1).map (fun service => (Nat.toDigits 10 entry.1, service)) =
        some (Nat.toDigits 10 entry.1, entry.2) := by
    rw [(Dict.mem_iff_get single).mp among]
    rfl
  refine (List.filterMap_congr each).trans ?_
  rw [idToService, List.filterMap_map]
  exact congrFun List.filterMap_eq_map _

end Services

end Mcoz.Analyzer
