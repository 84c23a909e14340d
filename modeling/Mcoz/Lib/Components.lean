/-
The components of a graph, by a search with a stack.

The search takes nodes from a stack and pushes the neighbours that have not been visited. Each turn takes one
entry from the stack and pushes at most the neighbours of a node that is visited once, so it ends
(`loop_of_enough`), and what it has then visited is a connected component (`Searched.component_iff`). A search
from each node that has not been visited finds every component once (`components_spec`).
-/

import Mathlib.Algebra.Order.BigOperators.Group.List
import Mathlib.Algebra.Order.Ring.Nat
import Mathlib.Combinatorics.SimpleGraph.Connectivity.Connected
import Mathlib.Data.List.Basic

set_option autoImplicit false

namespace Components

variable {α : Type} [DecidableEq α]

/-! ### The search -/

/-- The state of a search: the stack with its top first, the nodes visited ever, and those visited by this
search. -/
structure Search (α : Type) where
  stack : List α
  visited : List α
  component : List α

/-- One turn, unless the stack is empty. -/
def step (neighbours : α → List α) (state : Search α) : Option (Search α) :=
  match state.stack with
  | [] => none
  | node :: rest =>
      if node ∈ state.visited then some { state with stack := rest }
      else
        some
          { stack := ((neighbours node).filter fun next => next ∉ node :: state.visited).reverse ++ rest
            visited := node :: state.visited
            component := node :: state.component }

/-- The loop, for at most so many turns. -/
def loop (neighbours : α → List α) : ℕ → Search α → Option (Search α)
  | 0, state => if state.stack = [] then some state else none
  | turns + 1, state =>
      match step neighbours state with
      | none => some state
      | some next => loop neighbours turns next

/-- A search from each start that has not been visited. -/
def components (neighbours : α → List α) (turns : ℕ) : List α → List α → Option (List (List α))
  | [], _ => some []
  | start :: starts, visited =>
      if start ∈ visited then components neighbours turns starts visited
      else
        (loop neighbours turns ⟨[start], visited, []⟩).bind fun final =>
          (components neighbours turns starts final.visited).map fun others => final.component :: others

section Termination

variable {neighbours : α → List α} {nodes : List α} {state next : Search α} {node : α}

/-- The edges from the nodes that have not been visited. -/
def openEdges (neighbours : α → List α) (nodes visited : List α) : ℕ :=
  (nodes.map fun node => if node ∈ visited then 0 else (neighbours node).length).sum

/-- The turns that are left at most. -/
def pending (neighbours : α → List α) (nodes : List α) (state : Search α) : ℕ :=
  state.stack.length + openEdges neighbours nodes state.visited

/-- A node that is visited closes its edges. -/
theorem openEdges_cons (fresh : node ∉ state.visited) (known : neighbours node ≠ [] → node ∈ nodes) :
    openEdges neighbours nodes (node :: state.visited) + (neighbours node).length ≤
      openEdges neighbours nodes state.visited := by
  have less (visited : List α) : openEdges neighbours visited (node :: state.visited) ≤
      openEdges neighbours visited state.visited := by
    refine List.sum_le_sum fun other _ => ?_
    by_cases seen : other ∈ state.visited
    · rw [if_pos seen, if_pos (List.mem_cons_of_mem _ seen)]
    · rw [if_neg seen]
      split
      · exact Nat.zero_le _
      · exact le_rfl
  by_cases isolated : neighbours node = []
  · rw [isolated]
    exact less nodes
  · obtain ⟨front, back, rfl⟩ := List.append_of_mem (known isolated)
    have split (visited : List α) : openEdges neighbours (front ++ node :: back) visited =
        openEdges neighbours front visited + ((if node ∈ visited then 0 else (neighbours node).length) +
          openEdges neighbours back visited) := by
      rw [openEdges, List.map_append, List.sum_append, List.map_cons, List.sum_cons]
      rfl
    have first := less front
    have second := less back
    rw [split, split, if_pos (List.mem_cons_self ..), if_neg fresh]
    omega

/-- Each turn leaves fewer. -/
theorem pending_step (known : ∀ node, neighbours node ≠ [] → node ∈ nodes)
    (turned : step neighbours state = some next) : pending neighbours nodes next < pending neighbours nodes state := by
  unfold step at turned
  cases entries : state.stack with
  | nil => simp [entries] at turned
  | cons node rest =>
      simp only [entries] at turned
      split at turned
      · obtain rfl := Option.some.inj turned
        simp [pending, entries]
      · rename_i fresh
        obtain rfl := Option.some.inj turned
        have closed := openEdges_cons fresh (known node)
        have pushed := List.length_filter_le (fun next => next ∉ node :: state.visited) (neighbours node)
        simp only [pending, entries, List.length_append, List.length_reverse, List.length_cons]
        omega

/-- **The search ends**, and keeps what each turn keeps. -/
theorem loop_of_enough {good : Search α → Prop} (known : ∀ node, neighbours node ≠ [] → node ∈ nodes)
    (kept : ∀ state next, good state → step neighbours state = some next → good next) {turns : ℕ}
    (enough : pending neighbours nodes state ≤ turns) (start : good state) :
    ∃ final, loop neighbours turns state = some final ∧ final.stack = [] ∧ good final := by
  induction turns generalizing state with
  | zero =>
      have empty : state.stack = [] := by
        rw [pending] at enough
        exact List.length_eq_zero_iff.mp (by omega)
      exact ⟨state, if_pos empty, empty, start⟩
  | succ turns ih =>
      rw [loop]
      cases turned : step neighbours state with
      | none =>
          refine ⟨state, rfl, ?_, start⟩
          unfold step at turned
          split at turned
          · assumption
          · split at turned <;> cases turned
      | some next =>
          have less := pending_step known turned
          exact ih (by omega) (kept state next start turned)

end Termination

/-! ### Components -/

section Graph

variable {graph : SimpleGraph α} {neighbours : α → List α} {nodes old starts : List α} {start node other : α}
  {state next : Search α} {turns : ℕ}

/-- What holds in a search from a start that is not among the nodes visited before. -/
structure Searched (graph : SimpleGraph α) (old : List α) (start : α) (state : Search α) : Prop where
  new : start ∉ old
  visited : ∀ node, node ∈ state.visited ↔ node ∈ old ∨ node ∈ state.component
  nodup : state.component.Nodup
  fresh : ∀ node ∈ state.component, node ∉ old
  reached : ∀ node, node ∈ state.component ∨ node ∈ state.stack → graph.Reachable start node
  closed : ∀ node ∈ state.component, ∀ other, graph.Adj node other →
    other ∈ state.visited ∨ other ∈ state.stack
  start : start ∈ state.component ∨ start ∈ state.stack

omit [DecidableEq α] in
theorem searched_start (new : start ∉ old) : Searched graph old start ⟨[start], old, []⟩ where
  new := new
  visited node := by simp
  nodup := List.nodup_nil
  fresh node among := by cases among
  reached node either := by
    rcases either with absent | here
    · cases absent
    · rw [List.mem_singleton.mp here]
  closed node among := by cases among
  start := Or.inr (List.mem_singleton_self _)

omit [DecidableEq α] in
/-- The top of the stack was visited before. -/
theorem Searched.skip {rest : List α} (searched : Searched graph old start state)
    (entries : state.stack = node :: rest) (seen : node ∈ state.visited) :
    Searched graph old start { state with stack := rest } := by
  refine ⟨searched.new, searched.visited, searched.nodup, searched.fresh, ?_, ?_, ?_⟩
  · rintro other (among | waits)
    · exact searched.reached other (Or.inl among)
    · exact searched.reached other (Or.inr (entries ▸ List.mem_cons_of_mem _ waits))
  · intro one among other edge
    rcases searched.closed one among other edge with known | waits
    · exact Or.inl known
    · rw [entries] at waits
      rcases List.mem_cons.mp waits with rfl | later
      · exact Or.inl seen
      · exact Or.inr later
  · rcases searched.start with among | waits
    · exact Or.inl among
    · rw [entries] at waits
      rcases List.mem_cons.mp waits with rfl | later
      · exact Or.inl (((searched.visited _).mp seen).resolve_left searched.new)
      · exact Or.inr later

/-- The top of the stack is visited, and its neighbours are pushed. -/
theorem Searched.visit {rest : List α}
    (adjacent : ∀ node other, other ∈ neighbours node ↔ graph.Adj node other)
    (searched : Searched graph old start state) (entries : state.stack = node :: rest)
    (fresh : node ∉ state.visited) :
    Searched graph old start
      { stack := ((neighbours node).filter fun next => next ∉ node :: state.visited).reverse ++ rest
        visited := node :: state.visited
        component := node :: state.component } := by
  have here : graph.Reachable start node :=
    searched.reached node (Or.inr (entries ▸ List.mem_cons_self ..))
  have apart := not_or.mp fun either => fresh ((searched.visited node).mpr either)
  refine ⟨searched.new, fun other => ?_, List.nodup_cons.mpr ⟨apart.2, searched.nodup⟩, ?_, ?_, ?_, ?_⟩
  · rw [List.mem_cons, List.mem_cons, searched.visited]
    exact or_left_comm
  · intro other among
    rcases List.mem_cons.mp among with rfl | before
    · exact apart.1
    · exact searched.fresh other before
  · intro other either
    rw [List.mem_cons, List.mem_append, List.mem_reverse, List.mem_filter] at either
    rcases either with (rfl | before) | ⟨pushed, -⟩ | waits
    · exact here
    · exact searched.reached other (Or.inl before)
    · exact here.trans ((adjacent node other).mp pushed).reachable
    · exact searched.reached other (Or.inr (entries ▸ List.mem_cons_of_mem _ waits))
  · intro one among other edge
    by_cases seen : other ∈ node :: state.visited
    · exact Or.inl seen
    · refine Or.inr (List.mem_append.mpr ?_)
      rcases List.mem_cons.mp among with rfl | before
      · exact Or.inl (List.mem_reverse.mpr
          (List.mem_filter.mpr ⟨(adjacent one other).mpr edge, decide_eq_true seen⟩))
      · rcases searched.closed one before other edge with known | waits
        · exact absurd (List.mem_cons_of_mem _ known) seen
        · rw [entries] at waits
          exact Or.inr ((List.mem_cons.mp waits).resolve_left fun same => seen (same ▸ List.mem_cons_self ..))
  · rcases searched.start with among | waits
    · exact Or.inl (List.mem_cons_of_mem _ among)
    · rw [entries] at waits
      rcases List.mem_cons.mp waits with rfl | later
      · exact Or.inl (List.mem_cons_self ..)
      · exact Or.inr (List.mem_append_right _ later)

/-- A turn keeps what holds in the search. -/
theorem Searched.step (adjacent : ∀ node other, other ∈ neighbours node ↔ graph.Adj node other)
    (searched : Searched graph old start state) (turned : Components.step neighbours state = some next) :
    Searched graph old start next := by
  unfold Components.step at turned
  cases entries : state.stack with
  | nil => simp [entries] at turned
  | cons node rest =>
      simp only [entries] at turned
      split at turned
      · rename_i seen
        exact Option.some.inj turned ▸ searched.skip entries seen
      · rename_i fresh
        exact Option.some.inj turned ▸ searched.visit adjacent entries fresh

/-- The neighbours of these nodes are among them. -/
def Closed (graph : SimpleGraph α) (nodes : List α) : Prop :=
  ∀ node ∈ nodes, ∀ other, graph.Adj node other → other ∈ nodes

omit [DecidableEq α] in
/-- **What a search has visited** in the end is the component of its start. -/
theorem Searched.component_iff (searched : Searched graph old start state) (ended : state.stack = [])
    (before : Closed graph old) : node ∈ state.component ↔ graph.Reachable start node := by
  constructor
  · exact fun among => searched.reached node (Or.inl among)
  · rw [SimpleGraph.reachable_iff_reflTransGen]
    intro path
    induction path with
    | refl =>
        refine searched.start.resolve_right fun waits => ?_
        rw [ended] at waits
        cases waits
    | @tail one other _ edge ih =>
        rcases searched.closed one ih other edge with known | waits
        · refine ((searched.visited other).mp known).resolve_left fun older => ?_
          exact searched.fresh one ih (before other older one edge.symm)
        · rw [ended] at waits
          cases waits

omit [DecidableEq α] in
theorem Searched.closed_visited (searched : Searched graph old start state) (ended : state.stack = [])
    (before : Closed graph old) : Closed graph state.visited := by
  intro one among other edge
  rcases (searched.visited one).mp among with older | mine
  · exact (searched.visited other).mpr (Or.inl (before one older other edge))
  · rcases searched.closed one mine other edge with known | waits
    · exact known
    · rw [ended] at waits
      cases waits

/-- The nodes of a component, each once. -/
structure Part (graph : SimpleGraph α) (part : List α) : Prop where
  nodup : part.Nodup
  nonempty : part ≠ []
  reachable : ∀ node ∈ part, ∀ other, other ∈ part ↔ graph.Reachable node other

omit [DecidableEq α] in
theorem Searched.part (searched : Searched graph old start state) (ended : state.stack = [])
    (before : Closed graph old) : Part graph state.component where
  nodup := searched.nodup
  nonempty := List.ne_nil_of_mem ((searched.component_iff ended before).mpr (SimpleGraph.Reachable.refl start))
  reachable node among other := by
    have here := (searched.component_iff ended before).mp among
    rw [searched.component_iff ended before]
    exact ⟨fun reached => here.symm.trans reached, fun reached => here.trans reached⟩

/-- A search has at most the edges of all nodes before it. -/
theorem pending_start_le : pending neighbours nodes ⟨[start], old, []⟩ ≤
    1 + (nodes.map fun node => (neighbours node).length).sum := by
  rw [pending]
  refine Nat.add_le_add_left (List.sum_le_sum fun node _ => ?_) 1
  split
  · exact Nat.zero_le _
  · exact le_rfl

/-- **All components**: the searches end, and find the component of each start once. -/
theorem components_spec (adjacent : ∀ node other, other ∈ neighbours node ↔ graph.Adj node other)
    (known : ∀ node, neighbours node ≠ [] → node ∈ nodes) (before : Closed graph old)
    (enough : 1 + (nodes.map fun node => (neighbours node).length).sum ≤ turns) :
    ∃ found, components neighbours turns starts old = some found ∧ (∀ part ∈ found, Part graph part) ∧
      (∀ part ∈ found, ∀ node ∈ part, node ∉ old) ∧ found.Pairwise List.Disjoint ∧
      ∀ start ∈ starts, start ∈ old ∨ ∃ part ∈ found, start ∈ part := by
  induction starts generalizing old with
  | nil => exact ⟨[], rfl, by simp, by simp, List.Pairwise.nil, by simp⟩
  | cons start starts ih =>
      rw [components]
      by_cases seen : start ∈ old
      · rw [if_pos seen]
        obtain ⟨found, ran, parts, fresh, apart, all⟩ := ih before
        refine ⟨found, ran, parts, fresh, apart, fun one among => ?_⟩
        rcases List.mem_cons.mp among with rfl | later
        · exact Or.inl seen
        · exact all one later
      · rw [if_neg seen]
        obtain ⟨final, searched, ended, holds⟩ := loop_of_enough known
          (fun state next good turned => Searched.step adjacent good turned) (pending_start_le.trans enough)
          (searched_start seen : Searched graph old start ⟨[start], old, []⟩)
        obtain ⟨found, ran, parts, fresh, apart, all⟩ := ih (holds.closed_visited ended before)
        have mine : start ∈ final.component := (holds.component_iff ended before).mpr (SimpleGraph.Reachable.refl _)
        refine ⟨final.component :: found, by rw [searched, Option.bind_some, ran]; rfl,
          List.forall_mem_cons.mpr ⟨holds.part ended before, parts⟩, ?_, ?_, ?_⟩
        · refine List.forall_mem_cons.mpr ⟨holds.fresh, fun part among node inside older => ?_⟩
          exact fresh part among node inside ((holds.visited node).mpr (Or.inl older))
        · refine List.pairwise_cons.mpr ⟨fun part among node first second => ?_, apart⟩
          exact fresh part among node second ((holds.visited node).mpr (Or.inr first))
        · intro one among
          rcases List.mem_cons.mp among with rfl | later
          · exact Or.inr ⟨final.component, List.mem_cons_self .., mine⟩
          · rcases all one later with visited | ⟨part, there, inside⟩
            · rcases (holds.visited one).mp visited with older | here
              · exact Or.inl older
              · exact Or.inr ⟨final.component, List.mem_cons_self .., here⟩
            · exact Or.inr ⟨part, List.mem_cons_of_mem _ there, inside⟩

end Graph

end Components
