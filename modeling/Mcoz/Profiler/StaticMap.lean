/-
`static_map`: a table of fixed size with linear probing.

An entry is a tag and a value. A key is inserted at the first free entry from its bucket on, found
and removed at the first entry that has it as tag; the tag zero marks a free entry. A value is never
constructed anew: `insert` and `remove` write the tag only.

The three operations probe alike (`probe`): the first entry, from a key's bucket on and around the
table, that has the wanted tag.
-/

import Mathlib.Algebra.Ring.Int.Defs
import Mathlib.Algebra.Ring.Nat
import Mathlib.Data.Fintype.Basic
import Mathlib.Logic.Function.Basic

set_option autoImplicit false

namespace Mcoz.Profiler

/-- `static_map` with keys of type `pid_t`: the tags and the values of its entries. -/
structure StaticMap (V : Type) (size : ℕ) where
  tags : Fin size → Int32
  values : Fin size → V

namespace StaticMap

variable {V : Type} {size : ℕ} [NeZero size]

/-- `get_bucket`: the remainder of the key, converted to `size_t`. -/
def bucket (size : ℕ) (key : Int32) : ℕ :=
  (key.toInt % 2 ^ 64).toNat % size

/-- The index at an offset from the bucket of a key, around the table. -/
def index (size : ℕ) [NeZero size] (key : Int32) (offset : ℕ) : Fin size :=
  ⟨(bucket size key + offset) % size, Nat.mod_lt _ (Nat.pos_of_neZero size)⟩

/-- The loop of `insert`, `find` and `remove`: the first entry with the wanted tag among the next
`remaining` ones. -/
def probe (map : StaticMap V size) (key wanted : Int32) : ℕ → ℕ → Option (Fin size)
  | 0, _ => none
  | remaining + 1, offset =>
      if map.tags (index size key offset) = wanted then some (index size key offset)
      else map.probe key wanted remaining (offset + 1)

/-- The entry that `insert` tags. -/
def insertSlot (map : StaticMap V size) (key : Int32) : Option (Fin size) :=
  map.probe key 0 size 0

/-- `insert`: tag the first free entry; its value stays. -/
def insert (map : StaticMap V size) (key : Int32) : Option (StaticMap V size × Fin size) :=
  (map.insertSlot key).map fun slot =>
    ({ map with tags := Function.update map.tags slot key }, slot)

/-- `find`. -/
def find (map : StaticMap V size) (key : Int32) : Option (Fin size) :=
  map.probe key key size 0

/-- `remove`: the tag of the found entry becomes zero. -/
def remove (map : StaticMap V size) (key : Int32) : StaticMap V size :=
  match map.find key with
  | none => map
  | some slot => { map with tags := Function.update map.tags slot 0 }

/-- Write the value of an entry through the pointer that `insert` or `find` returned. -/
def modify (map : StaticMap V size) (slot : Fin size) (change : V → V) : StaticMap V size :=
  { map with values := Function.update map.values slot (change (map.values slot)) }

/-! ### Probing -/

theorem probe_some {map : StaticMap V size} {key wanted : Int32} {slot : Fin size} :
    ∀ {remaining offset : ℕ}, map.probe key wanted remaining offset = some slot →
      map.tags slot = wanted
  | 0, _, found => by cases found
  | remaining + 1, offset, found => by
      unfold probe at found
      split at found
      · rename_i here
        cases found
        exact here
      · exact probe_some found

theorem probe_none {map : StaticMap V size} {key wanted : Int32} :
    ∀ {remaining offset : ℕ}, map.probe key wanted remaining offset = none →
      ∀ i, i < remaining → map.tags (index size key (offset + i)) ≠ wanted
  | 0, _, _, i, below => absurd below (Nat.not_lt_zero i)
  | remaining + 1, offset, missed, i, below => by
      unfold probe at missed
      split at missed
      · cases missed
      · rename_i here
        cases i with
        | zero => exact here
        | succ i =>
            rw [Nat.add_succ, ← Nat.succ_add]
            exact probe_none missed i (by omega)

/-- The probes of a whole round reach every entry. -/
theorem index_surjective (key : Int32) (slot : Fin size) :
    ∃ offset, offset < size ∧ index size key offset = slot := by
  have below := slot.isLt
  have start : bucket size key % size < size := Nat.mod_lt _ (by omega)
  by_cases ahead : bucket size key % size ≤ slot.val
  · refine ⟨slot.val - bucket size key % size, by omega, Fin.ext ?_⟩
    show (bucket size key + (slot.val - bucket size key % size)) % size = slot.val
    rw [← Nat.mod_add_mod, Nat.add_sub_of_le ahead, Nat.mod_eq_of_lt below]
  · refine ⟨slot.val + size - bucket size key % size, by omega, Fin.ext ?_⟩
    show (bucket size key + (slot.val + size - bucket size key % size)) % size = slot.val
    rw [← Nat.mod_add_mod, Nat.add_sub_of_le (by omega), Nat.add_mod_right,
      Nat.mod_eq_of_lt below]

/-- A whole round misses a tag only if no entry has it. -/
theorem probe_round_none_iff {map : StaticMap V size} {key wanted : Int32} :
    map.probe key wanted size 0 = none ↔ ∀ slot, map.tags slot ≠ wanted := by
  constructor
  · intro missed slot
    obtain ⟨offset, below, rfl⟩ := index_surjective key slot
    simpa using probe_none missed offset below
  · intro absent
    cases found : map.probe key wanted size 0 with
    | none => rfl
    | some slot => exact absurd (probe_some found) (absent slot)

/-- Only the tags are probed. -/
theorem probe_congr {map other : StaticMap V size} (same : map.tags = other.tags)
    (key wanted : Int32) :
    ∀ remaining offset, map.probe key wanted remaining offset =
      other.probe key wanted remaining offset
  | 0, _ => rfl
  | remaining + 1, offset => by
      unfold probe
      rw [same, probe_congr same key wanted remaining (offset + 1)]

@[simp] theorem find_modify (map : StaticMap V size) (slot : Fin size) (change : V → V)
    (key : Int32) : (map.modify slot change).find key = map.find key := by
  have same : (map.modify slot change).tags = map.tags := rfl
  exact probe_congr same key key size 0

theorem insertSlot_free {map : StaticMap V size} {key : Int32} {slot : Fin size}
    (found : map.insertSlot key = some slot) : map.tags slot = 0 :=
  probe_some found

theorem find_tag {map : StaticMap V size} {key : Int32} {slot : Fin size}
    (found : map.find key = some slot) : map.tags slot = key :=
  probe_some found

/-- The only entry with a tag is the one that is found. -/
theorem find_of_unique {map : StaticMap V size} {key : Int32} {slot : Fin size}
    (held : map.tags slot = key) (unique : ∀ other, map.tags other = key → other = slot) :
    map.find key = some slot := by
  cases found : map.find key with
  | none => exact absurd held (probe_round_none_iff.mp found slot)
  | some other => rw [unique other (find_tag found)]

end StaticMap

end Mcoz.Profiler
