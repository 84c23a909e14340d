/-
A counter that is read now and then.

What a reader adds up, one difference after the other, is the difference of the last reading and the first, however
many readings are missing between them, as long as the counter does not go back (`span_concat`).
-/

import Mathlib.Algebra.Order.Group.Nat

set_option autoImplicit false

namespace Meter

/-- How far the counter has gone since the last reading, if there was one. -/
def advance (last : Option ℕ) (value : ℕ) : ℕ :=
  match last with
  | some previous => value - previous
  | none => 0

/-- How far it has gone in all. -/
def span (readings : List ℕ) : ℕ :=
  readings.getLast?.getD 0 - readings.head?.getD 0

/-- The counter does not go back. -/
def Rises (readings : List ℕ) : Prop :=
  readings.Pairwise (· ≤ ·)

instance (readings : List ℕ) : Decidable (Rises readings) :=
  inferInstanceAs (Decidable (readings.Pairwise _))

variable {readings : List ℕ} {value : ℕ}

theorem Rises.left {more : List ℕ} (rises : Rises (readings ++ more)) : Rises readings :=
  (List.pairwise_append.mp rises).1

/-- The last reading is the largest. -/
theorem Rises.le_last (rises : Rises (readings ++ [value])) : ∀ reading ∈ readings, reading ≤ value :=
  fun reading among => (List.pairwise_append.mp rises).2.2 reading among value (List.mem_singleton_self _)

/-- The first reading is the least. -/
theorem Rises.head_le (rises : Rises readings) : readings.head?.getD 0 ≤ readings.getLast?.getD 0 := by
  cases readings with
  | nil => exact Nat.le_refl 0
  | cons first rest =>
      obtain ⟨least, -⟩ := List.pairwise_cons.mp rises
      rw [List.head?_cons, Option.getD_some, List.getLast?_cons, Option.getD_some]
      cases last : rest.getLast? with
      | none => exact Nat.le_refl _
      | some final => exact least final (List.mem_of_getLast? last)

/-- **One more reading** adds the difference to the last. -/
theorem span_concat (rises : Rises (readings ++ [value])) :
    span (readings ++ [value]) = span readings + advance readings.getLast? value := by
  have least := rises.left.head_le
  rw [span, span, List.getLast?_concat, Option.getD_some]
  cases last : readings.getLast? with
  | none =>
      obtain rfl := List.getLast?_eq_none_iff.mp last
      simp [advance]
  | some previous =>
      have below := rises.le_last previous (List.mem_of_getLast? last)
      have nonempty : readings ≠ [] := by
        rintro rfl
        cases last
      have head : (readings ++ [value]).head? = readings.head? := by
        obtain ⟨first, rest, rfl⟩ := List.exists_cons_of_ne_nil nonempty
        rfl
      rw [last, Option.getD_some] at least
      rw [head, Option.getD_some, advance]
      omega

end Meter
