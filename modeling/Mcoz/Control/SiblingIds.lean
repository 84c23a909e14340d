/-
The siblings of a service, read in two ways.

`_extract_sibling_ids` takes the ids that the service lists itself, or without the services the set of siblings that
the service is in. The first way reads the direct siblings, the second one all that are connected, so they read
alike exactly if the service lists everything that it is connected with: `siblings_read_alike_iff`.
-/

import Mcoz.Control.SiblingSet

set_option autoImplicit false

namespace Mcoz.Control

open Analyzer SortUnique Components

/-! ### Reading the analysis -/

/-- `_extract_sibling_ids`, with the lists that the analysis has. -/
def extractSiblingIds (services : Option (List ServiceEntry)) (sets : Option (List (List Char))) (target : ℕ) :
    List ℕ :=
  match (services.getD []).find? fun item => item.serviceId = target with
  | some item => sortUnique idLe (item.siblingIds.filter fun id => 0 < id ∧ id ≠ target)
  | none =>
      match ((sets.getD []).map parseSiblingSet).find? fun values => target ∈ values with
      | some values => values.filter fun id => id ≠ target
      | none => []

/-- The sorted members of the target's set, without the target. -/
def OtherMembers (graph : SimpleGraph ℕ) (target : ℕ) (ids : List ℕ) : Prop :=
  ids.Pairwise (· < ·) ∧ ∀ id, id ∈ ids ↔ id ≠ target ∧ graph.Reachable target id

/-- Both ways read the other members of the target's set. -/
def ReadAlike (graph : SimpleGraph ℕ) (analysis : Analysis) (target : ℕ) : Prop :=
  extractSiblingIds (some analysis.services) (some analysis.siblingSets) target =
      extractSiblingIds none (some analysis.siblingSets) target ∧
    OtherMembers graph target (extractSiblingIds none (some analysis.siblingSets) target)

/-- The service with an id lists a service with the other one. -/
def Lists (ids : List (String × ℕ)) (siblings : List (String × List Analyzer.Row)) (target other : ℕ) : Prop :=
  ∃ service rows, Dict.get ids service = some target ∧ Dict.get siblings service = some rows ∧
    ∃ row ∈ rows, Dict.get ids row.service = some other

section Reading

variable {graph : SimpleGraph ℕ} {services : List String} {siblings : List (String × List Analyzer.Row)}
  {intervals : List (String × ServiceIntervals)} {fanout : List (String × List Candidate)} {sets : List (List ℕ)}
  {target id : ℕ}

/-- Without the services the members of the set are read. -/
theorem otherMembers_of_sets
    (components : ∀ set ∈ sets, ∃ component : graph.ConnectedComponent, component.supp.Nontrivial ∧ IsSet component set)
    (all : ∀ component : graph.ConnectedComponent, component.supp.Nontrivial → ∃ set ∈ sets, IsSet component set) :
    OtherMembers graph target (extractSiblingIds none (some (sets.map printSet)) target) := by
  have read : (sets.map printSet).map parseSiblingSet = sets := by
    rw [List.map_map]
    refine List.map_congr_left (fun set among => ?_) |>.trans (List.map_id _)
    obtain ⟨component, -, lists⟩ := components set among
    exact parseSiblingSet_printSet lists.1
  rw [extractSiblingIds, Option.getD_none, Option.getD_some, read, List.find?_nil]
  dsimp only
  cases found : sets.find? fun values => target ∈ values with
  | some values =>
      obtain ⟨component, -, sorted, members⟩ := components values (List.mem_of_find?_eq_some found)
      have inside : target ∈ values := by simpa using List.find?_some found
      have own : graph.connectedComponentMk target = component := (members target).mp inside
      refine ⟨sorted.filter _, fun id => ?_⟩
      rw [List.mem_filter, members, decide_eq_true_iff, and_comm, ← own,
        SimpleGraph.ConnectedComponent.mem_supp_iff, SimpleGraph.ConnectedComponent.eq, SimpleGraph.reachable_comm]
  | none =>
      refine ⟨List.Pairwise.nil, fun id => iff_of_false List.not_mem_nil ?_⟩
      intro both
      obtain ⟨different, connected⟩ := both
      have several : (graph.connectedComponentMk target).supp.Nontrivial :=
        Set.nontrivial_of_mem_mem_ne SimpleGraph.ConnectedComponent.connectedComponentMk_mem
          (SimpleGraph.ConnectedComponent.eq.mpr connected.symm) different.symm
      obtain ⟨set, among, lists⟩ := all _ several
      have absent := List.find?_eq_none.mp found set among
      exact absent (decide_eq_true ((lists.2 target).mpr SimpleGraph.ConnectedComponent.connectedComponentMk_mem))

/-- The ids that a service lists. -/
theorem mem_siblingIds {service : String} :
    id ∈ siblingIds (serviceToId services) siblings service ↔
      ∃ rows, Dict.get siblings service = some rows ∧
        ∃ row ∈ rows, Dict.get (serviceToId services) row.service = some id := by
  rw [siblingIds, mem_sortUnique, List.mem_filterMap]
  cases listed : Dict.get siblings service with
  | none => simp
  | some rows => simp

/-- A service that is listed is connected. -/
theorem reachable_of_lists (lists : Lists (serviceToId services) siblings target id) :
    (siblingGraph (serviceToId services) siblings).Reachable target id := by
  obtain ⟨service, rows, own, listed, row, among, there⟩ := lists
  by_cases same : target = id
  · rw [same]
  · exact SimpleGraph.Adj.reachable ⟨same, Or.inl ⟨_, Dict.mem_of_get listed, row, among, own, there⟩⟩

/-- An id that is connected with another one is that of a service. -/
theorem service_of_reachable {ids : List (String × ℕ)} (different : target ≠ id)
    (connected : (siblingGraph ids siblings).Reachable target id) : ∃ service, Dict.get ids service = some target := by
  obtain ⟨other, edge⟩ := SimpleGraph.mem_support_of_reachable different connected
  rcases edge.2 with ⟨entry, -, row, -, own, -⟩ | ⟨entry, -, row, -, -, own⟩
  · exact ⟨_, own⟩
  · exact ⟨_, own⟩

/-- The entry with an id is that of a service with it. -/
theorem find_entry (single : services.Nodup) {item : ServiceEntry}
    (found : ((serviceToId services).map (serviceEntry intervals siblings fanout (serviceToId services))).find?
      (fun item => item.serviceId = target) = some item) :
    ∃ service, Dict.get (serviceToId services) service = some target ∧
      item.siblingIds = siblingIds (serviceToId services) siblings service := by
  have same : item.serviceId = target := by simpa using List.find?_some found
  obtain ⟨service, among, rfl⟩ := List.mem_map.mp (List.mem_of_find?_eq_some found)
  subst same
  exact ⟨service.1, get_of_mem single among, rfl⟩

/-- An id without an entry is that of no service. -/
theorem find_entry_none (single : services.Nodup)
    (found : ((serviceToId services).map (serviceEntry intervals siblings fanout (serviceToId services))).find?
      (fun item => item.serviceId = target) = none) {service : String} :
    Dict.get (serviceToId services) service ≠ some target := by
  intro own
  have entry := (Dict.mem_iff_get (map_fst_serviceToId.symm ▸ single)).mpr own
  exact List.find?_eq_none.mp found _ (List.mem_map_of_mem entry) (decide_eq_true rfl)

theorem pos_of_get (single : services.Nodup) {service : String}
    (own : Dict.get (serviceToId services) service = some id) : 0 < id :=
  ((get_serviceToId single).mp own).1

/-- With the services the ids are read that the service lists itself. -/
theorem mem_ids_of_entry (single : services.Nodup) {service : String}
    (own : Dict.get (serviceToId services) service = some target) :
    id ∈ sortUnique idLe ((siblingIds (serviceToId services) siblings service).filter fun id => 0 < id ∧ id ≠ target) ↔
      id ≠ target ∧ Lists (serviceToId services) siblings target id := by
  rw [mem_sortUnique, List.mem_filter, mem_siblingIds, decide_eq_true_iff]
  constructor
  · intro both
    obtain ⟨⟨rows, listed, row, among, there⟩, -, different⟩ := both
    exact ⟨different, service, rows, own, listed, row, among, there⟩
  · intro both
    obtain ⟨different, service', rows, own', listed, row, among, there⟩ := both
    obtain rfl := service_of_id single own' own
    exact ⟨⟨rows, listed, row, among, there⟩, pos_of_get single there, different⟩

/-- **One service**: both ways read alike exactly if it lists everything that it is connected with. -/
theorem readAlike_of_sets (single : services.Nodup)
    (components : ∀ set ∈ sets, ∃ component : (siblingGraph (serviceToId services) siblings).ConnectedComponent,
      component.supp.Nontrivial ∧ IsSet component set)
    (all : ∀ component : (siblingGraph (serviceToId services) siblings).ConnectedComponent,
      component.supp.Nontrivial → ∃ set ∈ sets, IsSet component set) {analysis : Analysis}
    (printed : analysis.siblingSets = sets.map printSet)
    (entries : analysis.services =
      (serviceToId services).map (serviceEntry intervals siblings fanout (serviceToId services))) :
    ReadAlike (siblingGraph (serviceToId services) siblings) analysis target ↔
      ∀ id, id ≠ target → (siblingGraph (serviceToId services) siblings).Reachable target id →
        Lists (serviceToId services) siblings target id := by
  have others := @otherMembers_of_sets _ sets target components all
  rw [ReadAlike, printed, entries, and_iff_left others]
  cases found : ((serviceToId services).map (serviceEntry intervals siblings fanout (serviceToId services))).find?
      (fun item => item.serviceId = target) with
  | some item =>
      obtain ⟨service, own, listed⟩ := find_entry single found
      have first : extractSiblingIds (some ((serviceToId services).map
          (serviceEntry intervals siblings fanout (serviceToId services)))) (some (sets.map printSet)) target =
          sortUnique idLe ((siblingIds (serviceToId services) siblings service).filter
            fun id => 0 < id ∧ id ≠ target) := by
        rw [extractSiblingIds, Option.getD_some, found, ← listed]
      rw [first]
      constructor
      · intro same id different connected
        have there := (others.2 id).mpr ⟨different, connected⟩
        rw [← same, mem_ids_of_entry single own] at there
        exact there.2
      · intro complete
        refine (pairwise_lt_sortUnique _).eq_of_mem_iff others.1 fun id => ?_
        have members := @mem_ids_of_entry services siblings target id single service own
        refine members.trans (Iff.trans ?_ (others.2 id).symm)
        exact and_congr_right fun different => ⟨reachable_of_lists, complete id different⟩
  | none =>
      have first : extractSiblingIds (some ((serviceToId services).map
          (serviceEntry intervals siblings fanout (serviceToId services)))) (some (sets.map printSet)) target =
          extractSiblingIds none (some (sets.map printSet)) target := by
        rw [extractSiblingIds, Option.getD_some, found]
        rfl
      refine iff_of_true first fun id different connected => ?_
      obtain ⟨service, own⟩ := service_of_reachable different.symm connected
      exact absurd own (find_entry_none single found)

end Reading

/-! ### The analyzer's output -/

section Output

variable {order : SetOrder} {turns : ℕ} {intervals : List (String × ServiceIntervals)}
  {siblings : List (String × List Analyzer.Row)} {fanout : List (String × List Candidate)}

/-- **Both ways read alike** for a service exactly if it lists every service that a chain of listed siblings connects
it with. -/
theorem siblings_read_alike_iff (enough : 1 + 2 * (siblings.map fun entry => entry.2.length).sum ≤ turns) :
    ∃ analysis, buildJsonOutput order turns intervals siblings fanout = some analysis ∧ ∀ target,
      (ReadAlike (siblingGraph (serviceToId (serviceNames intervals siblings fanout)) siblings) analysis target ↔
        ∀ id, id ≠ target →
          (siblingGraph (serviceToId (serviceNames intervals siblings fanout)) siblings).Reachable target id →
            Lists (serviceToId (serviceNames intervals siblings fanout)) siblings target id) := by
  have single : (serviceNames intervals siblings fanout).Nodup := nodup_sortUnique
  obtain ⟨sets, found, -, components, all⟩ := @siblingSets_eq _ siblings order turns single enough
  refine ⟨_, by rw [buildJsonOutput, found]; rfl, fun target => ?_⟩
  exact readAlike_of_sets single components all rfl rfl

end Output

/-- Two services that overlap. -/
def twoServices : List (String × List Analyzer.Row) :=
  [("cart", [⟨"stock", 15, 1, []⟩]), ("stock", [⟨"cart", 15, 1, []⟩])]

theorem serviceNames_two : serviceNames [] twoServices [] = ["cart", "stock"] :=
  sortUnique_of_strict (by decide)

theorem siblings_read_alike_iff_two : ∃ analysis, buildJsonOutput filledOrder 5 [] twoServices [] = some analysis ∧
    ReadAlike (siblingGraph (serviceToId (serviceNames [] twoServices [])) twoServices) analysis 1 := by
  obtain ⟨analysis, built, reads⟩ := @siblings_read_alike_iff filledOrder 5 [] twoServices [] (by decide)
  refine ⟨analysis, built, (reads 1).mpr fun id different connected => ?_⟩
  rw [serviceNames_two] at connected ⊢
  -- Only the two ids are those of services.
  have bounds : 1 ≤ id ∧ id ≤ 2 := by
    obtain ⟨service, own⟩ := service_of_reachable different connected.symm
    obtain ⟨low, place⟩ := (get_serviceToId (by decide)).mp own
    obtain ⟨high, -⟩ := List.getElem?_eq_some_iff.mp place
    have size : id - 1 < 2 := high
    omega
  obtain rfl : id = 2 := by omega
  exact ⟨"cart", _, by decide, rfl, _, List.mem_cons_self .., by decide⟩

/-- The catalogue overlaps with the cart and with the stock, which do not overlap. -/
def threeServices : List (String × List Analyzer.Row) :=
  [("cart", [⟨"catalogue", 20, 1, []⟩]), ("catalogue", [⟨"cart", 20, 1, []⟩, ⟨"stock", 10, 1, []⟩]),
    ("stock", [⟨"catalogue", 10, 1, []⟩])]

theorem serviceNames_three : serviceNames [] threeServices [] = ["cart", "catalogue", "stock"] :=
  sortUnique_of_strict (by decide)

/-- The stock is in the set of the cart, and is not among the ids that the cart lists. -/
theorem set_not_listed : ∃ analysis, buildJsonOutput filledOrder 9 [] threeServices [] = some analysis ∧
    ¬ ReadAlike (siblingGraph (serviceToId (serviceNames [] threeServices [])) threeServices) analysis 1 := by
  have single : (serviceNames [] threeServices []).Nodup := nodup_sortUnique
  obtain ⟨sets, found, -, components, all⟩ := @siblingSets_eq _ threeServices filledOrder 9 single (by decide)
  refine ⟨_, by rw [buildJsonOutput, found]; rfl, fun alike => ?_⟩
  have complete := (readAlike_of_sets single components all rfl rfl).mp alike 3 (by decide)
  rw [serviceNames_three] at complete
  have first : (siblingGraph (serviceToId ["cart", "catalogue", "stock"]) threeServices).Adj 1 2 :=
    ⟨by decide, Or.inl ⟨_, List.mem_cons_self .., _, List.mem_cons_self .., by decide, by decide⟩⟩
  have second : (siblingGraph (serviceToId ["cart", "catalogue", "stock"]) threeServices).Adj 2 3 :=
    ⟨by decide, Or.inr ⟨("stock", [⟨"catalogue", 10, 1, []⟩]), by simp [threeServices], _, List.mem_cons_self ..,
      by decide, by decide⟩⟩
  obtain ⟨service, rows, own, listed, row, among, there⟩ := complete (first.reachable.trans second.reachable)
  obtain rfl : service = "cart" := service_of_id (by decide) own (by decide)
  obtain rfl : rows = [⟨"catalogue", 20, 1, []⟩] := (Option.some.inj listed).symm
  obtain rfl := List.mem_singleton.mp among
  exact absurd there (by decide)

end Mcoz.Control
