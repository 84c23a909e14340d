/-
Cells that are read in a row, and a list that lies on a ring of them.

`read` takes so many cells from one on, if all of them can be read. A list is on the ring from a position on if the
cell at each position modulo the size holds its element (`Holds`). A list that is not longer than the ring is read
at once or in two pieces: `Holds.read` and `Holds.read_wrapped`.
-/

import Mathlib.Data.Nat.Notation

set_option autoImplicit false

namespace Ring

variable {α : Type} {cells : ℕ → Option α} {size start position : ℕ} {list first second : List α}

/-- So many cells from one on. -/
def read (cells : ℕ → Option α) (start : ℕ) : ℕ → Option (List α)
  | 0 => some []
  | count + 1 => do return (← cells start) :: (← read cells (start + 1) count)

/-- The elements are in the cells from one on. -/
theorem read_eq (cell : ∀ index < list.length, cells (start + index) = list[index]?) :
    read cells start list.length = some list := by
  induction list generalizing start with
  | nil => rfl
  | cons element rest ih =>
      have here : cells start = some element := cell 0 (Nat.succ_pos _)
      have later : read cells (start + 1) rest.length = some rest := by
        refine ih fun index less => ?_
        rw [Nat.add_assoc, Nat.add_comm 1 index]
        exact cell (index + 1) (Nat.succ_lt_succ less)
      rw [List.length_cons, read, here, later]
      rfl

/-- The list is on the ring, from the position on. -/
def Holds (cells : ℕ → Option α) (size position : ℕ) (list : List α) : Prop :=
  ∀ index < list.length, cells ((position + index) % size) = list[index]?

theorem holds_append : Holds cells size position (first ++ second) ↔
    Holds cells size position first ∧ Holds cells size (position + first.length) second := by
  constructor
  · intro holds
    constructor
    · intro index less
      rw [holds index (by rw [List.length_append]; omega), List.getElem?_append_left less]
    · intro index less
      have inside := holds (first.length + index) (by rw [List.length_append]; omega)
      rwa [← Nat.add_assoc, List.getElem?_append_right (Nat.le_add_right _ _), Nat.add_sub_cancel_left] at inside
  · intro both index less
    by_cases before : index < first.length
    · rw [both.1 index before, List.getElem?_append_left before]
    · rw [List.length_append] at less
      have after := both.2 (index - first.length) (by omega)
      rwa [Nat.add_assoc, Nat.add_sub_cancel' (Nat.not_lt.mp before),
        ← List.getElem?_append_right (Nat.not_lt.mp before)] at after

/-- A list that ends before the end of the ring, or there, is read at once. -/
theorem Holds.read (holds : Holds cells size position list) (room : position % size + list.length ≤ size) :
    Ring.read cells (position % size) list.length = some list := by
  refine read_eq fun index less => ?_
  rw [← holds index less, Nat.add_mod, Nat.mod_eq_of_lt (a := index) (by omega), Nat.mod_eq_of_lt (a := _ + _) (by omega)]

/-- A list that goes on at the start of the ring is read in two pieces. -/
theorem Holds.read_wrapped (holds : Holds cells size position (first ++ second))
    (whole : position % size + first.length = size) (room : second.length ≤ size) :
    Ring.read cells (position % size) first.length = some first ∧ Ring.read cells 0 second.length = some second := by
  obtain ⟨left, right⟩ := holds_append.mp holds
  refine ⟨left.read (Nat.le_of_eq whole), ?_⟩
  have turned : (position + first.length) % size = 0 := by
    rw [← Nat.mod_add_mod, whole, Nat.mod_self]
  have rest := right.read (by rw [turned]; omega)
  rwa [turned] at rest

end Ring
