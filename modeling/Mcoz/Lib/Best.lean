/-
The first of the best.

A loop that keeps an item as soon as its score is above all before ends with the first of the items with the highest
score, or with none if no score is above the bar at which it starts (`outcome_keep`).
-/

import Mathlib.Data.List.Induction
import Mathlib.Order.Lattice

set_option autoImplicit false

namespace Best

variable {α S : Type} [LinearOrder S] {score : α → S} {start : S} {items : List α} {kept : S × Option α} {item : α}

/-- One turn of the loop, with the bar and the item that has set it. -/
def keep (score : α → S) (kept : S × Option α) (item : α) : S × Option α :=
  if kept.1 < score item then (score item, some item) else kept

/-- How the loop may end. -/
inductive Outcome (score : α → S) (start : S) (items : List α) : S × Option α → Prop
  | none (low : ∀ item ∈ items, score item ≤ start) : Outcome score start items (start, .none)
  | first (best : α) (front back : List α) (shape : items = front ++ best :: back) (high : start < score best)
      (earlier : ∀ item ∈ front, score item < score best) (later : ∀ item ∈ back, score item ≤ score best) :
      Outcome score start items (score best, some best)

theorem Outcome.step (outcome : Outcome score start items kept) :
    Outcome score start (items ++ [item]) (keep score kept item) := by
  unfold keep
  cases outcome with
  | none low =>
      by_cases above : start < score item
      · rw [if_pos above]
        exact .first item items [] rfl above (fun other among => (low other among).trans_lt above)
          (fun other among => by cases among)
      · rw [if_neg above]
        exact .none (List.forall_mem_append.mpr ⟨low, List.forall_mem_singleton.mpr (not_lt.mp above)⟩)
  | first best front back shape high earlier later =>
      by_cases above : score best < score item
      · rw [if_pos above]
        refine .first item items [] rfl (high.trans above) (fun other among => ?_) (fun other among => by cases among)
        rw [shape] at among
        rcases List.mem_append.mp among with here | here
        · exact (earlier other here).trans above
        · rcases List.mem_cons.mp here with rfl | there
          · exact above
          · exact (later other there).trans_lt above
      · rw [if_neg above]
        exact .first best front (back ++ [item]) (by rw [shape, List.append_assoc, List.cons_append]) high earlier
          (List.forall_mem_append.mpr ⟨later, List.forall_mem_singleton.mpr (not_lt.mp above)⟩)

/-- **The loop keeps the first of the best.** -/
theorem outcome_keep : Outcome score start items (items.foldl (keep score) (start, none)) := by
  induction items using List.reverseRecOn with
  | nil => exact .none fun item among => by cases among
  | append_singleton earlier item ih =>
      rw [List.foldl_append]
      exact ih.step

end Best
