/-
What flows into a stock and out of it.

A `flow` says how much of something a step moves, and its `total` over a run is the sum. If in every step the stock
grows by what flows in and shrinks by what flows out, then over a run what flows in is what flows out and what is still
there (`stock_of_run`). The flow may be how often something is observed (`count_trace`).
-/

import Mcoz.Lib.Machine
import Mathlib.Algebra.BigOperators.Group.List.Basic
import Mathlib.Algebra.Ring.Nat

set_option autoImplicit false

namespace Stock

open Machine

variable {σ α : Type*} {step : σ → α → Option σ} {flow : σ → α → ℕ} {start final state : σ} {past actions : List α}

/-- The sum of a flow over a run. -/
def total (step : σ → α → Option σ) (flow : σ → α → ℕ) (start : σ) (actions : List α) : ℕ :=
  (trace step (fun state action => [flow state action]) start actions).sum

@[simp] theorem total_nil : total step flow start [] = 0 := rfl

theorem total_concat (ran : run step start past = some state) (action : α) :
    total step flow start (past ++ [action]) = total step flow start past + flow state action := by
  rw [total, trace_concat ran, List.sum_append, List.sum_singleton]
  rfl

/-- **The balance of a stock.** -/
theorem stock_of_run (stock : σ → ℕ) {into out : σ → α → ℕ} (ran : run step start actions = some final)
    (each : ∀ state action next, step state action = some next →
      stock next + out state action = stock state + into state action) :
    stock final + total step out start actions = stock start + total step into start actions := by
  refine run_history (motive := fun past state =>
    stock state + total step out start past = stock start + total step into start past) rfl ?_ ran
  intro past state action next before ih moved
  have here := each state action next moved
  rw [total_concat before, total_concat before]
  omega

theorem total_add {other : σ → α → ℕ} (ran : run step start actions = some final) :
    total step (fun state action => flow state action + other state action) start actions =
      total step flow start actions + total step other start actions := by
  refine run_history (motive := fun past _ =>
    total step (fun state action => flow state action + other state action) start past =
      total step flow start past + total step other start past) rfl ?_ ran
  intro past state action next before ih _
  rw [total_concat before, total_concat before, total_concat before, ih]
  omega

/-- How often something is observed. -/
theorem count_trace {β : Type*} [BEq β] {observe : σ → α → List β} (ran : run step start actions = some final)
    (item : β) : (trace step observe start actions).count item =
      total step (fun state action => (observe state action).count item) start actions := by
  refine run_history (motive := fun past _ => (trace step observe start past).count item =
    total step (fun state action => (observe state action).count item) start past) rfl ?_ ran
  intro past state action next before ih _
  rw [trace_concat before, List.count_append, ih, total_concat before]

theorem total_mul (factor : ℕ) (ran : run step start actions = some final) :
    total step (fun state action => factor * flow state action) start actions = factor * total step flow start actions := by
  refine run_history (motive := fun past _ =>
    total step (fun state action => factor * flow state action) start past = factor * total step flow start past) rfl ?_ ran
  intro past state action next before ih _
  rw [total_concat before, total_concat before, ih, Nat.mul_add]

end Stock
