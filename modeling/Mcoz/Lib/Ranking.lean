/-
The first elements of a sorted list.

`outranks a b` says that `a` comes before `b`, as the comparison of a sort does. An element's `rank` is
the number of elements that outrank it, so it needs no sorting; `perm_take_ranked` says that the first
`count` elements of the sorted list are the elements of rank below `count`.
-/

import Mathlib.Data.List.Nodup
import Mathlib.Algebra.Ring.Nat

set_option autoImplicit false

namespace Ranking

variable {α : Type*}

/-- The comparison of a sort that leaves no choice. -/
structure StrictTotal (outranks : α → α → Bool) : Prop where
  asymm : ∀ a b, outranks a b = true → outranks b a = false
  trans : ∀ a b c, outranks a b = true → outranks b c = true → outranks a c = true
  total : ∀ a b, a ≠ b → outranks a b = true ∨ outranks b a = true

/-- The elements in order, the one that outranks all others first. -/
def ranked (outranks : α → α → Bool) (all : List α) : List α :=
  all.mergeSort fun a b => !outranks b a

/-- The number of elements that outrank one. -/
def rank (outranks : α → α → Bool) (all : List α) (one : α) : ℕ :=
  all.countP fun other => outranks other one

section Order

variable {outranks : α → α → Bool} (order : StrictTotal outranks)

include order

theorem irrefl (a : α) : outranks a a = false := by
  cases same : outranks a a with
  | false => rfl
  | true => exact same.symm.trans (order.asymm a a same)

/-- Each element of the sorted list outranks those after it. -/
theorem ranked_pairwise {all : List α} (nodup : all.Nodup) :
    (ranked outranks all).Pairwise fun a b => outranks a b = true := by
  have sorted : (ranked outranks all).Pairwise fun a b => (!outranks b a) = true := by
    refine List.pairwise_mergeSort ?_ ?_ all
    · intro a b c first second
      rw [Bool.not_eq_true'] at first second ⊢
      by_contra outranked
      have above : outranks c a = true := by simpa using outranked
      by_cases same : a = b
      · subst same
        exact absurd above (by simp [second])
      · rcases order.total a b same with before | after
        · have step := order.trans c a b above before
          exact absurd step (by simp [second])
        · exact absurd after (by simp [first])
    · intro a b
      rw [Bool.or_eq_true, Bool.not_eq_true', Bool.not_eq_true']
      cases forward : outranks b a with
      | false => exact Or.inl rfl
      | true => exact Or.inr (order.asymm b a forward)
  have distinct : (ranked outranks all).Pairwise fun a b => a ≠ b :=
    (List.mergeSort_perm all _).nodup_iff.mpr nodup
  refine sorted.imp₂ ?_ distinct
  intro a b unbeaten apart
  rcases order.total a b apart with before | after
  · exact before
  · rw [after] at unbeaten
    cases unbeaten

/-- In a sorted list the elements of rank below `count` are the first `count`. -/
theorem filter_rank {sorted : List α}
    (pairwise : sorted.Pairwise fun a b => outranks a b = true) (count : ℕ) :
    sorted.filter (fun one => rank outranks sorted one < count) = sorted.take count := by
  induction sorted generalizing count with
  | nil => simp
  | cons first rest ih =>
      obtain ⟨above, later⟩ := List.pairwise_cons.mp pairwise
      have top : rank outranks (first :: rest) first = 0 := by
        refine List.countP_eq_zero.mpr fun other member beats => ?_
        rcases List.mem_cons.mp member with rfl | below
        · exact absurd beats (by simp [irrefl order])
        · exact absurd beats (by simp [order.asymm _ _ (above other below)])
      have behind : ∀ one ∈ rest, rank outranks (first :: rest) one = rank outranks rest one + 1 := by
        intro one member
        rw [rank, List.countP_cons, if_pos (above one member), rank]
      cases count with
      | zero => simp
      | succ count =>
          rw [List.take_succ_cons, List.filter_cons, if_pos (by simp [top]), ← ih later count]
          congr 1
          refine List.filter_congr fun one member => ?_
          rw [behind one member]
          exact decide_eq_decide.mpr (by omega)

/-- The first `count` elements are those of rank below `count`. -/
theorem perm_take_ranked {all : List α} (nodup : all.Nodup) (count : ℕ) :
    ((ranked outranks all).take count).Perm
      (all.filter fun one => rank outranks all one < count) := by
  have same := List.mergeSort_perm all fun a b => !outranks b a
  have ranks : ∀ one, rank outranks (ranked outranks all) one = rank outranks all one :=
    fun one => same.countP_eq _
  rw [← filter_rank order (ranked_pairwise order nodup) count]
  simp only [ranks]
  exact same.filter _

end Order

end Ranking
