/-
The arithmetic of JavaScript's numbers.

An operation on finite numbers is the double nearest to the exact result. The sum of whole numbers is exact as long
as it is less than 2^53 (`whole_add_whole`).
-/

import Mcoz.Lib.Js
import Mathlib.Algebra.BigOperators.Group.List.Basic

set_option autoImplicit false

namespace Js.Number

/-! ### Operations -/

/-- The other sign. -/
def neg : Number → Number
  | nan => nan
  | infinite negative => infinite !negative
  | finite value => finite (-value)

/-- `+`. -/
def add : Number → Number → Number
  | finite left, finite right => toDouble (left + right)
  | nan, _ => nan
  | _, nan => nan
  | infinite left, infinite right => if left = right then infinite left else nan
  | infinite left, finite _ => infinite left
  | finite _, infinite right => infinite right

/-- `*`. -/
def mul : Number → Number → Number
  | finite left, finite right => toDouble (left * right)
  | nan, _ => nan
  | _, nan => nan
  | infinite left, infinite right => infinite (left != right)
  | infinite left, finite right => if right = 0 then nan else infinite (left != decide (right < 0))
  | finite left, infinite right => if left = 0 then nan else infinite (right != decide (left < 0))

/-- `/`. The zero in a denominator is the positive one. -/
def div : Number → Number → Number
  | finite left, finite right =>
      if right ≠ 0 then toDouble (left / right) else if left = 0 then nan else infinite (left < 0)
  | nan, _ => nan
  | _, nan => nan
  | infinite _, infinite _ => nan
  | infinite left, finite right => infinite (left != decide (right < 0))
  | finite _, infinite _ => finite 0

instance : Neg Number := ⟨neg⟩

instance : Add Number := ⟨add⟩

instance : Sub Number := ⟨fun left right => add left (neg right)⟩

instance : Mul Number := ⟨mul⟩

instance : Div Number := ⟨div⟩

instance : Zero Number := ⟨finite 0⟩

/-- `<`, of which nothing holds with `NaN`. -/
def lt : Number → Number → Bool
  | finite left, finite right => left < right
  | infinite left, infinite right => left && !right
  | infinite left, finite _ => left
  | finite _, infinite right => !right
  | nan, _ => false
  | _, nan => false

/-- `<=`. -/
def le : Number → Number → Bool
  | finite left, finite right => left ≤ right
  | infinite left, infinite right => left || !right
  | infinite left, finite _ => left
  | finite _, infinite right => !right
  | nan, _ => false
  | _, nan => false

/-! ### Whole numbers -/

/-- A whole number. -/
def whole (value : ℕ) : Number :=
  finite value

/-- A sum of whole numbers is exact if it is not too large. -/
theorem whole_add_whole {left right : ℕ} (small : left + right < 2 ^ 53) :
    whole left + whole right = whole (left + right) := by
  show toDouble (left + right) = finite (left + right : ℕ)
  rw [← Nat.cast_add]
  exact toDouble_natCast small

end Js.Number
