/-
The credits that a gate counts.

A refill counts credits when its arm request was answered ok, and only then: a thread earns the credits
of an arm request with the answer ok and spends them with the section of `_do_refill`
(`doRefill_pays`). So the gate never counts more than it was answered (`counted_step`).
-/

import Mcoz.PyGate.Composition

set_option autoImplicit false

namespace Mcoz.PyGate

open Machine Threads Program

/-- The credits of an arm request that is answered ok. -/
def earn : (request : Call) → Answer request → ℕ
  | .time, _ => 0
  | .arm request, answer => if (answer : Option ArmResult).any ArmResult.ok then request.count.toNat else 0

/-- The credits that a section counts as armed. -/
def spend : Critical → ℤ
  | .refillOk refill => refill.credits
  | _ => 0

/-- `refill_credits_added` grows by what a section spends. -/
theorem refillCreditsAdded_apply (code : Critical) (gate : Gate) :
    (code.apply gate).stats.refillCreditsAdded = gate.stats.refillCreditsAdded + spend code := by
  cases code with
  | count counter => cases counter <;> exact (add_zero _).symm
  | consumeCreditToken =>
      show gate.consumeCreditToken.stats.refillCreditsAdded = _ + 0
      unfold Gate.consumeCreditToken
      split <;> exact (add_zero _).symm
  | setArmActive active => cases active <;> exact (add_zero _).symm
  | setArmConfig delayNs number =>
      show (gate.setArmConfig delayNs number).stats.refillCreditsAdded = _ + 0
      unfold Gate.setArmConfig
      split <;> exact (add_zero _).symm
  | refillOk refill => rfl
  | _ => exact (add_zero _).symm

/-! ### The programs pay -/

theorem pays_composes {cfg : Config} : Composes cfg Critical.Quiet fun _ program => program.Pays earn spend where
  plain plain := plain.quiet
  pure := pays_pure
  bind := pays_bind
  perform {_ code} _ quiet := pays_perform (by cases code <;> first | rfl | cases quiet)
  time := pays_ask Call.time
  arm request _ credit nonneg answer := by
    cases answer : (answer : Option ArmResult) with
    | none => trivial
    | some result => exact add_nonneg nonneg (Int.natCast_nonneg _)

section Programs

variable {cfg : Config}

/-- An arm request that is answered ok earns its count. -/
theorem armOnce_covers (requestId path : String) (delayNs count credit : ℤ) (nonneg : 0 ≤ credit) :
    (armOnce cfg requestId path delayNs count).Covers earn spend
      (fun result left => 0 ≤ left ∧ (result.ok = true → count ≤ left)) credit := by
  refine ⟨nonneg, fun gate (answer : Option ArmResult) => ?_⟩
  cases answer with
  | none => trivial
  | some result =>
      show 0 ≤ credit - 0 + ((if result.ok then count.toNat else 0 : ℕ) : ℤ) ∧
        (result.ok = true → count ≤ credit - 0 + ((if result.ok then count.toNat else 0 : ℕ) : ℤ))
      refine ⟨by omega, fun ok => ?_⟩
      rw [if_pos ok]
      omega

/-- `_do_refill` counts the credits that it was answered. -/
theorem doRefill_pays (tokensReq : ℤ) (reason : String) :
    (doRefill cfg tokensReq reason).Pays earn spend := by
  unfold doRefill
  split
  · exact pays_pure _
  · split
    · exact pays_pure _
    · refine pays_bind (pays_perform rfl) fun ⟨refill, active⟩ => ?_
      show Pays _ _ (ite _ _ _)
      split
      · exact pays_pure _
      · refine pays_bind (pays_ask Call.time) fun now credit nonneg => ?_
        refine covers_bind (covers_mono ?_ (armOnce_covers _ _ _ _ credit nonneg) (le_refl credit))
        rintro result paid now le ⟨enough, ok⟩
        split
        · rename_i answered
          have cost := le_trans (ok answered) le
          refine ⟨by change (0 : ℤ) ≤ now; omega, fun _ => ⟨?_, fun _ => ?_⟩⟩
          · show refill.credits ≤ now - 0
            omega
          · show 0 ≤ now - 0 - refill.credits
            omega
        · refine (show Pays earn spend _ from ?_) now (by omega)
          exact pays_bind (pays_perform rfl) fun _ =>
            pays_bind (pays_composes.maybeSuspendArm _ _) fun _ => pays_pure _

theorem pays_performs :
    Performs cfg Critical.Quiet fun _ program => program.Pays earn spend :=
  { pays_composes with
    refill := doRefill_pays
    quiet := fun quiet => quiet }

end Programs

/-! ### Runs -/

/-- The gate has counted no more credits than the total, and every thread that will still count some
has its part of the rest. -/
def Counted (pool : GatePool) (total : ℤ) : Prop :=
  pool.Solvent earn spend (total - pool.shared.stats.refillCreditsAdded)

theorem Counted.le {pool : GatePool} {total : ℤ} (counted : Counted pool total) :
    pool.shared.stats.refillCreditsAdded ≤ total := by
  have rest := Pool.Solvent.nonneg counted
  omega

theorem counted_init {gate : Gate} (fresh : gate.stats.refillCreditsAdded = 0) :
    Counted (Pool.init gate) 0 := by
  refine ⟨0, fun _ => le_refl _, ?_, ?_⟩
  · rintro thread program ⟨⟩
  · show (0 : ℤ) ≤ 0 - gate.stats.refillCreditsAdded
    omega

/-- A step adds to the total what it is answered. -/
theorem counted_step {cfg : Config} {pool next : GatePool} {move : GateMove} {total : ℤ}
    (counted : Counted pool total) (moved : step cfg pool move = some next) :
    Counted next (total + pool.earned earn move) := by
  have settled := Pool.Solvent.step pays_performs.start counted moved
  have shared : next.shared.stats.refillCreditsAdded =
      pool.shared.stats.refillCreditsAdded + pool.spent spend move := by
    rw [Pool.shared_of_step moved, Pool.spent]
    generalize pool.sections move = codes
    generalize pool.shared = gate
    induction codes generalizing gate with
    | nil => simp
    | cons code rest ih =>
        rw [List.foldl_cons, ih, refillCreditsAdded_apply, List.map_cons, List.sum_cons, add_assoc]
  have balance : total - pool.shared.stats.refillCreditsAdded +
      (pool.earned earn move - pool.spent spend move) =
      total + pool.earned earn move - next.shared.stats.refillCreditsAdded := by
    omega
  rwa [balance] at settled

end Mcoz.PyGate
