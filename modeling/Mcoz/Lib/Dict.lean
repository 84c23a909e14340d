/-
Dictionaries that are filled by a loop.

A Python dictionary keeps its entries in the order in which their keys came. `collect` is the loop that, for
each item of a list, changes the value of the item's key, which has an `initial` value before the first one
(`setdefault`). What it leaves for a key depends on the items of that key alone (`get_collect`). `group`
collects the items themselves, and takes them apart into the entries (`group_perm`).
-/

import Mathlib.Algebra.Ring.Nat
import Mathlib.Data.List.Induction
import Mathlib.Data.List.Nodup
import Mathlib.Data.List.Perm.Basic

set_option autoImplicit false

namespace Dict

variable {K V ι : Type} [DecidableEq K]

/-- The value of a key. -/
def get (dict : List (K × V)) (key : K) : Option V :=
  (dict.find? fun entry => entry.1 = key).map fun entry => entry.2

/-- `dict.setdefault(key, initial)`, and a change of what it returns. -/
def update (key : K) (initial : V) (change : V → V) : List (K × V) → List (K × V)
  | [] => [(key, change initial)]
  | entry :: rest =>
      if entry.1 = key then (entry.1, change entry.2) :: rest else entry :: update key initial change rest

/-- The loop over the items, with the key of each. -/
def collect (key : ι → K) (initial : K → V) (change : V → ι → V) (items : List ι) : List (K × V) :=
  items.foldl (fun dict item => update (key item) (initial (key item)) (fun value => change value item) dict) []

/-- The items of each key, in their order. -/
def group (key : ι → K) (items : List ι) : List (K × List ι) :=
  collect key (fun _ => []) (fun group item => group ++ [item]) items

section Update

variable {dict : List (K × V)} {key other : K} {initial : V} {change : V → V} {entry : K × V}

theorem get_cons_self {rest : List (K × V)} : get (entry :: rest) entry.1 = some entry.2 := by
  simp [get]

theorem get_cons_of_ne {rest : List (K × V)} (different : entry.1 ≠ key) :
    get (entry :: rest) key = get rest key := by
  simp [get, different]

/-- An update changes the value of its key, and no other. -/
theorem get_update : get (update key initial change dict) other =
    if other = key then some (change ((get dict key).getD initial)) else get dict other := by
  induction dict with
  | nil =>
      by_cases same : other = key
      · rw [if_pos same, same]
        exact get_cons_self
      · rw [if_neg same]
        exact get_cons_of_ne (Ne.symm same)
  | cons entry rest ih =>
      rw [update]
      by_cases here : entry.1 = key
      · rw [if_pos here]
        by_cases same : other = key
        · subst here
          have held : (get (entry :: rest) entry.1).getD initial = entry.2 := by
            rw [get_cons_self, Option.getD_some]
          rw [if_pos same, same, held]
          exact get_cons_self
        · have apart : entry.1 ≠ other := fun equal => same (equal.symm.trans here)
          rw [if_neg same, get_cons_of_ne apart]
          exact get_cons_of_ne apart
      · rw [if_neg here, get_cons_of_ne here]
        by_cases first : entry.1 = other
        · have apart : other ≠ key := fun equal => here (first.trans equal)
          subst first
          rw [if_neg apart, get_cons_self, get_cons_self]
        · rw [get_cons_of_ne first, get_cons_of_ne first]
          exact ih

theorem mem_keys_update {one : K} :
    one ∈ (update key initial change dict).map Prod.fst ↔ one = key ∨ one ∈ dict.map Prod.fst := by
  induction dict with
  | nil => simp [update]
  | cons entry rest ih =>
      rw [update]
      by_cases here : entry.1 = key
      · rw [if_pos here, List.map_cons, List.map_cons, List.mem_cons, ← here]
        tauto
      · rw [if_neg here, List.map_cons, List.map_cons, List.mem_cons, List.mem_cons, ih]
        exact or_left_comm

theorem nodup_update (single : (dict.map Prod.fst).Nodup) :
    ((update key initial change dict).map Prod.fst).Nodup := by
  induction dict with
  | nil => exact List.nodup_singleton _
  | cons entry rest ih =>
      obtain ⟨absent, rest'⟩ := List.nodup_cons.mp single
      rw [update]
      by_cases here : entry.1 = key
      · rw [if_pos here]
        exact single
      · rw [if_neg here, List.map_cons, List.nodup_cons, mem_keys_update]
        exact ⟨not_or.mpr ⟨here, absent⟩, ih rest'⟩

/-- The value of a key is that of an entry. -/
theorem mem_of_get {value : V} (held : get dict key = some value) : (key, value) ∈ dict := by
  obtain ⟨entry, found, rfl⟩ := Option.map_eq_some_iff.mp held
  have same := List.find?_some found
  rw [← of_decide_eq_true same]
  exact List.mem_of_find?_eq_some found

/-- With one entry for each key, the entries are the values of the keys. -/
theorem mem_iff_get {value : V} (single : (dict.map Prod.fst).Nodup) :
    (key, value) ∈ dict ↔ get dict key = some value := by
  induction dict with
  | nil => simp [get]
  | cons entry rest ih =>
      obtain ⟨absent, rest'⟩ := List.nodup_cons.mp single
      by_cases here : entry.1 = key
      · subst here
        rw [get_cons_self, List.mem_cons, Option.some.injEq]
        constructor
        · rintro (same | later)
          · exact (congrArg Prod.snd same).symm
          · exact absurd (List.mem_map_of_mem later) absent
        · rintro rfl
          exact Or.inl rfl
      · rw [get_cons_of_ne here, ← ih rest', List.mem_cons]
        exact or_iff_right fun same => here (congrArg Prod.fst same).symm

/-- The values of a dictionary, one by one. -/
theorem get_map {W : Type} {convert : V → W} :
    get (dict.map fun entry => (entry.1, convert entry.2)) key = (get dict key).map convert := by
  induction dict with
  | nil => rfl
  | cons entry rest ih =>
      by_cases here : entry.1 = key
      · subst here
        rw [get_cons_self]
        exact get_cons_self
      · rw [get_cons_of_ne here, ← ih]
        exact get_cons_of_ne here

end Update

section Collect

variable {key : ι → K} {initial : K → V} {change : V → ι → V} {items : List ι} {one : K}

theorem collect_concat {item : ι} : collect key initial change (items ++ [item]) =
    update (key item) (initial (key item)) (fun value => change value item)
      (collect key initial change items) := by
  rw [collect, List.foldl_append]
  rfl

theorem nodup_collect : ((collect key initial change items).map Prod.fst).Nodup := by
  induction items using List.reverseRecOn with
  | nil => exact List.nodup_nil
  | append_singleton earlier item ih =>
      rw [collect_concat]
      exact nodup_update ih

theorem mem_keys_collect :
    one ∈ (collect key initial change items).map Prod.fst ↔ ∃ item ∈ items, key item = one := by
  induction items using List.reverseRecOn with
  | nil => simp [collect]
  | append_singleton earlier item ih =>
      rw [collect_concat, mem_keys_update, ih]
      simp only [List.mem_append, List.mem_singleton, or_and_right, exists_or, exists_eq_left]
      rw [or_comm, eq_comm]

/-- **What the loop leaves for a key** is what it makes of the items of that key. -/
theorem get_collect : get (collect key initial change items) one =
    if items.filter (fun item => key item = one) = [] then none
    else some ((items.filter fun item => key item = one).foldl change (initial one)) := by
  induction items using List.reverseRecOn with
  | nil => rfl
  | append_singleton earlier item ih =>
      rw [collect_concat, get_update, List.filter_append]
      by_cases here : key item = one
      · subst here
        rw [if_pos rfl, ih, List.filter_cons_of_pos (by simp), List.filter_nil,
          if_neg (List.append_ne_nil_of_right_ne_nil _ (List.cons_ne_nil _ _)), List.foldl_append]
        by_cases first : earlier.filter (fun other => key other = key item) = []
        · rw [if_pos first, first]
          rfl
        · rw [if_neg first]
          rfl
      · rw [if_neg (Ne.symm here), List.filter_cons_of_neg (by simpa using here), List.filter_nil,
          List.append_nil, ih]

theorem getD_collect : (get (collect key initial change items) one).getD (initial one) =
    (items.filter fun item => key item = one).foldl change (initial one) := by
  rw [get_collect]
  split
  · rename_i nothing
    rw [nothing]
    rfl
  · rfl

/-- If a value has size zero at first and grows by one with an item at most, the sizes are at most the items. -/
theorem sum_collect_le {size : V → ℕ} (start : ∀ one, size (initial one) = 0)
    (grow : ∀ value item, size (change value item) ≤ size value + 1) :
    ((collect key initial change items).map fun entry => size entry.2).sum ≤ items.length := by
  have added (dict : List (K × V)) (item : ι) :
      ((update (key item) (initial (key item)) (fun value => change value item) dict).map
        fun entry => size entry.2).sum ≤ (dict.map fun entry => size entry.2).sum + 1 := by
    induction dict with
    | nil =>
        have first := grow (initial (key item)) item
        rw [start] at first
        simpa [update] using first
    | cons entry rest ih =>
        rw [update]
        split
        · have more := grow entry.2 item
          rw [List.map_cons, List.sum_cons, List.map_cons, List.sum_cons]
          dsimp only
          omega
        · rw [List.map_cons, List.sum_cons, List.map_cons, List.sum_cons]
          omega
  induction items using List.reverseRecOn with
  | nil => exact Nat.le_refl 0
  | append_singleton earlier item ih =>
      have last := added (collect key initial change earlier) item
      rw [collect_concat, List.length_append, List.length_singleton]
      exact Nat.le_trans last (Nat.add_le_add_right ih 1)

end Collect

section Group

variable {key : ι → K} {items own : List ι} {one : K}

theorem foldl_concat {value : ι → V} {front : List V} :
    items.foldl (fun group item => group ++ [value item]) front = front ++ items.map value := by
  induction items generalizing front with
  | nil => exact (List.append_nil front).symm
  | cons item rest ih => rw [List.foldl_cons, ih, List.map_cons, List.append_assoc, List.singleton_append]

/-- The items of a key are those of the list. -/
theorem getD_group :
    (get (group key items) one).getD [] = items.filter fun item => key item = one := by
  have collected := @getD_collect _ _ _ _ key (fun _ => ([] : List ι)) (fun group item => group ++ [item]) items one
  rw [group, collected, foldl_concat, List.nil_append, List.map_id']

theorem mem_group_iff : (one, own) ∈ group key items ↔
    own ≠ [] ∧ own = items.filter fun item => key item = one := by
  rw [group, mem_iff_get nodup_collect, get_collect]
  split
  · rename_i nothing
    rw [nothing]
    exact iff_of_false nofun fun both => both.1 both.2
  · rename_i nonempty
    rw [Option.some.injEq, foldl_concat, List.nil_append, List.map_id']
    constructor
    · rintro rfl
      exact ⟨nonempty, rfl⟩
    · exact fun both => both.2.symm

/-- Together, the groups are the items. -/
theorem group_perm : ((group key items).flatMap fun entry => entry.2).Perm items := by
  have added (dict : List (K × List ι)) (item : ι) :
      ((update (key item) [] (fun group => group ++ [item]) dict).flatMap fun entry => entry.2).Perm
        (dict.flatMap (fun entry => entry.2) ++ [item]) := by
    induction dict with
    | nil => exact List.Perm.refl _
    | cons entry rest ih =>
        rw [update]
        split
        · rw [List.flatMap_cons, List.flatMap_cons, List.append_assoc, List.append_assoc]
          exact List.perm_append_comm.append_left entry.2
        · rw [List.flatMap_cons, List.flatMap_cons, List.append_assoc]
          exact ih.append_left entry.2
  induction items using List.reverseRecOn with
  | nil => exact List.Perm.refl _
  | append_singleton earlier item ih =>
      have last : group key (earlier ++ [item]) =
          update (key item) [] (fun group => group ++ [item]) (group key earlier) := collect_concat
      rw [last]
      exact (added _ item).trans (ih.append_right [item])

end Group

end Dict
