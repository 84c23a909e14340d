/-
Round-robin choice among `n` places.

A cursor points at the place whose turn it is. `choose` takes the first eligible place from the
cursor on; the cursor then moves to the place after it. `wait` is the number of places that the
choice looks at before it comes to a given one: it is the potential of the fairness argument, since
every choice of another place lowers it (`wait_after`).
-/

import Mathlib.Data.List.Range
import Mathlib.Data.Fin.Basic
import Mathlib.Tactic.Common

set_option autoImplicit false

namespace Rotation

/-- The place that comes `step` places after the cursor. -/
def turn (n cursor step : ℕ) : ℕ := (cursor + step) % n

/-- The number of places from the cursor to a place, in turn order. -/
def wait (n cursor place : ℕ) : ℕ :=
  if cursor ≤ place then place - cursor else place + n - cursor

variable {n cursor place step : ℕ}

theorem turn_eq (inside : cursor < n) (few : step < n) :
    turn n cursor step = if cursor + step < n then cursor + step else cursor + step - n := by
  unfold turn
  split
  case isTrue small => exact Nat.mod_eq_of_lt small
  case isFalse large =>
    rw [Nat.mod_eq_sub_mod (Nat.le_of_not_lt large)]
    exact Nat.mod_eq_of_lt (by omega)

theorem wait_lt (inside : cursor < n) (place_lt : place < n) : wait n cursor place < n := by
  unfold wait
  split <;> omega

/-- After its wait the turn is at the place. -/
theorem turn_wait (inside : cursor < n) (place_lt : place < n) :
    turn n cursor (wait n cursor place) = place := by
  rw [turn_eq inside (wait_lt inside place_lt)]
  unfold wait
  split <;> split <;> omega

/-- A place has the wait after which its turn comes. -/
theorem wait_turn (inside : cursor < n) (few : step < n) :
    wait n cursor (turn n cursor step) = step := by
  rw [turn_eq inside few]
  unfold wait
  split <;> split <;> omega

/-- If the cursor moves past a place that comes before another, the other is nearer. -/
theorem wait_after {chosen : ℕ} (inside : cursor < n) (chosen_lt : chosen < n)
    (place_lt : place < n) (before : wait n cursor chosen < wait n cursor place) :
    wait n (turn n chosen 1) place < wait n cursor place := by
  rcases Nat.lt_or_ge 1 n with several | single
  · rw [turn_eq chosen_lt several]
    unfold wait at before ⊢
    split at before <;> split at before <;> split <;> split <;> omega
  · unfold wait at before
    split at before <;> split at before <;> omega

/-! ### The choice -/

/-- The places in turn order. -/
def order (n cursor : ℕ) (positive : 0 < n) : List (Fin n) :=
  (List.range n).map fun step => ⟨turn n cursor step, Nat.mod_lt _ positive⟩

/-- The first eligible place from the cursor on. -/
def choose (n cursor : ℕ) (positive : 0 < n) (eligible : Fin n → Bool) : Option (Fin n) :=
  (order n cursor positive).find? eligible

variable {positive : 0 < n} {eligible : Fin n → Bool} {chosen other : Fin n}

/-- The chosen place is eligible, and no eligible place comes before it. -/
theorem choose_spec (inside : cursor < n)
    (choice : choose n cursor positive eligible = some chosen) :
    eligible chosen = true ∧
      ∀ other, eligible other = true → wait n cursor chosen.val ≤ wait n cursor other.val := by
  obtain ⟨good, before, after, shape, worse⟩ := List.find?_eq_some_iff_append.mp choice
  refine ⟨good, fun other goodOther => ?_⟩
  obtain ⟨steps, later, split, beforeShape, afterShape⟩ := List.map_eq_append_iff.mp shape
  obtain ⟨here, beyond, rfl, chosenShape, -⟩ := List.map_eq_cons_iff.mp afterShape
  -- `steps` are the numbers below `here`, and `here` is the wait of the chosen place.
  have position : here = steps.length ∧ here < n := by
    have at_here : (List.range n)[steps.length]? = some here := by rw [split]; simp
    obtain ⟨few, same⟩ := List.getElem?_eq_some_iff.mp at_here
    rw [List.getElem_range] at same
    rw [List.length_range] at few
    exact ⟨same.symm, same ▸ few⟩
  have chosenWait : wait n cursor chosen.val = here := by
    rw [← chosenShape]
    exact wait_turn inside position.2
  by_contra! sooner
  rw [chosenWait] at sooner
  have early : wait n cursor other.val ∈ steps := by
    have at_wait : (List.range n)[wait n cursor other.val]? = some (wait n cursor other.val) := by
      rw [List.getElem?_range (wait_lt inside other.isLt)]
    rw [split, List.getElem?_append_left (by omega)] at at_wait
    exact List.mem_of_getElem? at_wait
  have member : other ∈ before := by
    rw [← beforeShape]
    refine List.mem_map.mpr ⟨_, early, Fin.ext ?_⟩
    exact turn_wait inside other.isLt
  have refused := worse other member
  rw [goodOther] at refused
  exact absurd refused (by decide)

/-- If the choice takes another place than an eligible one, that one is nearer afterwards. -/
theorem wait_of_choose (inside : cursor < n)
    (choice : choose n cursor positive eligible = some chosen) (good : eligible other = true)
    (apart : chosen ≠ other) :
    wait n (turn n chosen.val 1) other.val < wait n cursor other.val := by
  obtain ⟨-, first⟩ := choose_spec inside choice
  refine wait_after inside chosen.isLt other.isLt (lt_of_le_of_ne (first other good) ?_)
  intro same
  refine apart (Fin.ext ?_)
  rw [← turn_wait inside chosen.isLt, same, turn_wait inside other.isLt]

end Rotation
