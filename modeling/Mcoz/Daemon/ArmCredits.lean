/-
The credits of a source across an arm.

`arm` adds the count of a request to the slot of its source, as `int64_t`, and `total_credits` adds up
the slots for the reply. The parsers accept every count up to the limit of `int64_t` and nothing bounds
the sums. `arm_keepsCredits_iff` says exactly when the arithmetic is right: the credits of all slots of
the victim and the count stay together below 2^63.
-/

import Mcoz.Daemon.Arm
import Mcoz.Engine.Arming
import Mathlib.Algebra.BigOperators.Fin
import Mathlib.Algebra.Order.BigOperators.Group.Finset

set_option autoImplicit false

namespace Mcoz.VictimCfg

open Word

/-! ### The sum of the slots -/

/-- The credits of all slots together, the negative ones left out, as integers without bound. -/
def creditSum (cfg : VictimCfg) : ℤ :=
  ∑ i : SlotIndex, max (cfg.slots i).credits.toInt 0

/-- No addition of the loop of `total_credits` overflows. -/
def SumsFit (cfg : VictimCfg) : List SlotIndex → ℤ → Prop
  | [], _ => True
  | i :: rest, total =>
      if (cfg.slots i).credits > 0 then
        total + (cfg.slots i).credits.toInt < 2 ^ 63 ∧
          cfg.SumsFit rest (total + (cfg.slots i).credits.toInt)
      else cfg.SumsFit rest total

/-- `total_credits` does not overflow. -/
def TotalFits (cfg : VictimCfg) : Prop :=
  cfg.SumsFit (List.finRange maxSourceSlots) 0

section Sums

variable (cfg : VictimCfg)

theorem positive_iff {credits : Int64} : credits > 0 ↔ 0 < credits.toInt :=
  Int64.lt_iff_toInt_lt

theorem sum_nonneg (indices : List SlotIndex) :
    0 ≤ (indices.map fun i => max (cfg.slots i).credits.toInt 0).sum := by
  refine List.sum_nonneg fun value member => ?_
  obtain ⟨i, -, rfl⟩ := List.mem_map.mp member
  exact le_max_right _ _

/-- The sums only grow, so none overflows exactly if the last one does not. -/
theorem sumsFit_iff : ∀ (indices : List SlotIndex) {total : ℤ}, total < 2 ^ 63 →
    (cfg.SumsFit indices total ↔
      total + (indices.map fun i => max (cfg.slots i).credits.toInt 0).sum < 2 ^ 63)
  | [], total, fits => by simpa [SumsFit] using fits
  | i :: rest, total, fits => by
      have later := cfg.sum_nonneg rest
      rw [SumsFit, List.map_cons, List.sum_cons]
      by_cases positive : (cfg.slots i).credits > 0
      · have credits := positive_iff.mp positive
        rw [if_pos positive, max_eq_left credits.le, ← add_assoc]
        constructor
        · rintro ⟨here, onwards⟩
          exact (sumsFit_iff rest here).mp onwards
        · intro whole
          have here : total + (cfg.slots i).credits.toInt < 2 ^ 63 := by omega
          exact ⟨here, (sumsFit_iff rest here).mpr whole⟩
      · have credits : (cfg.slots i).credits.toInt ≤ 0 :=
          not_lt.mp fun credited => positive (positive_iff.mpr credited)
        rw [if_neg positive, max_eq_right credits, zero_add]
        exact sumsFit_iff rest fits

theorem totalFits_iff : cfg.TotalFits ↔ cfg.creditSum < 2 ^ 63 := by
  rw [TotalFits, cfg.sumsFit_iff _ (by decide), zero_add, creditSum, Fin.sum_univ_def]

variable {cfg}

/-- Without an overflow, `total_credits` is the sum of the slots. -/
theorem loop_of_fits : ∀ (indices : List SlotIndex) {total : Int64}, 0 ≤ total.toInt →
    cfg.SumsFit indices total.toInt →
    (indices.foldl (fun total i =>
      if (cfg.slots i).credits > 0 then total + (cfg.slots i).credits else total) total).toInt =
      total.toInt + (indices.map fun i => max (cfg.slots i).credits.toInt 0).sum
  | [], total, _, _ => by simp
  | i :: rest, total, nonneg, fits => by
      rw [SumsFit] at fits
      rw [List.foldl_cons, List.map_cons, List.sum_cons]
      by_cases positive : (cfg.slots i).credits > 0
      · have credits := positive_iff.mp positive
        rw [if_pos positive] at fits
        have sum := toInt_add_of_fits (by omega) fits.1
        rw [if_pos positive, max_eq_left credits.le, ← add_assoc, ← sum]
        exact loop_of_fits rest (by rw [sum]; omega) (by rw [sum]; exact fits.2)
      · have credits : (cfg.slots i).credits.toInt ≤ 0 :=
          not_lt.mp fun credited => positive (positive_iff.mpr credited)
        rw [if_neg positive] at fits
        rw [if_neg positive, max_eq_right credits, zero_add]
        exact loop_of_fits rest nonneg fits

theorem credits_le_creditSum (index : SlotIndex) :
    (cfg.slots index).credits.toInt ≤ cfg.creditSum := by
  have here := Finset.single_le_sum (f := fun i => max (cfg.slots i).credits.toInt 0)
    (fun i _ => le_max_right _ _) (Finset.mem_univ index)
  exact (le_max_left _ _).trans here

/-- Writing one slot moves the sum by that slot. -/
theorem creditSum_put {next : VictimCfg} {index : SlotIndex} {slot : SourceCreditSlot}
    (written : next.slots = Function.update cfg.slots index slot) :
    next.creditSum + max (cfg.slots index).credits.toInt 0 =
      cfg.creditSum + max slot.credits.toInt 0 := by
  have here : next.slots index = slot := by rw [written, Function.update_self]
  have elsewhere : ∑ i ∈ Finset.univ.erase index, max (next.slots i).credits.toInt 0 =
      ∑ i ∈ Finset.univ.erase index, max (cfg.slots i).credits.toInt 0 := by
    refine Finset.sum_congr rfl fun i other => ?_
    rw [written, Function.update_of_ne (Finset.ne_of_mem_erase other)]
  rw [creditSum, creditSum, ← Finset.add_sum_erase _ _ (Finset.mem_univ index),
    ← Finset.add_sum_erase _ (fun i => max (cfg.slots i).credits.toInt 0)
      (Finset.mem_univ index), elsewhere, here]
  omega

/-- An arm that fits adds its count to the sum. -/
theorem WellFormed.creditSum_arm {next : VictimCfg} {sourceKey delayNs : UInt64} {count : Int64}
    {index : SlotIndex} (wellFormed : cfg.WellFormed) (counted : 0 ≤ count.toInt)
    (fits : (cfg.slots index).credits.toInt + count.toInt < 2 ^ 63)
    (armed : cfg.arm sourceKey delayNs count = some (next, index)) :
    next.creditSum = cfg.creditSum + count.toInt := by
  obtain ⟨-, written, -, -⟩ := arm_spec armed
  have before := wellFormed.creditsNonneg index
  have after := armedSlot_nonneg (cfg.slots index) sourceKey delayNs count
  have moved := creditSum_put written
  rw [max_eq_left before, max_eq_left after,
    armedSlot_credits sourceKey delayNs before counted fits] at moved
  omega

end Sums

end Mcoz.VictimCfg

namespace Mcoz.Daemon

open Word Machine Engine VictimCfg

/-! ### An arm -/

/-- What an arm of an account should do: neither sum overflows and the count is added. -/
structure KeepsCredits (engine next : Engine) (account : Account) (count : Int64) : Prop where
  slotFits : engine.slotCredits account + count.toInt < 2 ^ 63
  credited : next.slotCredits account = engine.slotCredits account + count.toInt
  totalFits : (next.victimCfg account.1).TotalFits

/-- After every run, a request that is answered with success keeps the credits of its source exactly
if the credits of all slots of the victim and the count stay together below 2^63. -/
theorem arm_keepsCredits_iff {defaultDelayNs : UInt64} {actions : List Action} {final : Engine}
    (ran : run step (init defaultDelayNs) actions = some final) {req : RequestArmRequest}
    {found : Option (UInt64 × Bytes)} {updates : ArmUpdates} {resolved : ResolvedTarget}
    (target : resolveTarget req.ns req.pod req.container found = some resolved)
    (ok : (final.arm req found updates).2.ok = true) :
    KeepsCredits final (final.arm req found updates).1 (resolved.cgroupId, req.sourceKey)
        req.count ↔
      (final.victimCfg resolved.cgroupId).creditSum + req.count.toInt < 2 ^ 63 := by
  have wellFormed := (inv_of_run ran).victimCfg_wellFormed resolved.cgroupId
  obtain ⟨cfg, index, count, armed, written⟩ := arm_of_ok target ok
  have before : ((final.victimCfg resolved.cgroupId).slots index).credits.toInt =
      final.slotCredits (resolved.cgroupId, req.sourceKey) :=
    wellFormed.credits_of_pick req.sourceKey_ne_zero (arm_spec armed).1
  have below : final.slotCredits (resolved.cgroupId, req.sourceKey) ≤
      (final.victimCfg resolved.cgroupId).creditSum := before ▸ credits_le_creditSum index
  constructor
  · intro keeps
    have sum := wellFormed.creditSum_arm count (by rw [before]; exact keeps.slotFits) armed
    have total := (totalFits_iff _).mp keeps.totalFits
    rw [written, sum] at total
    exact total
  · intro fits
    have slotFits : final.slotCredits (resolved.cgroupId, req.sourceKey) + req.count.toInt < 2 ^ 63 := by
      omega
    have sum := wellFormed.creditSum_arm count (by rw [before]; exact slotFits) armed
    refine ⟨slotFits, ?_, ?_⟩
    · have credited := wellFormed.creditsFor_arm req.sourceKey_ne_zero count slotFits armed
        req.sourceKey
      rw [if_pos rfl] at credited
      rw [slotCredits, written]
      exact credited
    · rw [totalFits_iff, written, sum]
      exact fits

/-- The parameters of a request for the source `web` with the largest count. -/
def largestParams : Params :=
  parseQueryMap (ascii "namespace=shop&pod=cart&source=web&count=9223372036854775807")

/-- The request that these parameters make. -/
def largestRequest : RequestArmRequest :=
  ⟨ascii "shop", ascii "cart", ascii "app", ascii "web", 0, 9223372036854775807⟩

theorem largest_accepted : parseRequestArmFromMap largestParams = .ok largestRequest := by
  have delay : parseOr parseUint64Param 0
      (mapGetOr largestParams (ascii "delay_ns") (ascii "delayNs")) = some 0 := by
    decide +kernel
  have count : parseOr parseInt64Param 1 (mapGet largestParams (ascii "count")) =
      some 9223372036854775807 := by
    decide +kernel
  have ns : mapGetOr largestParams (ascii "namespace") (ascii "ns") = ascii "shop" := by
    decide +kernel
  have pod : mapGet largestParams (ascii "pod") = ascii "cart" := by decide +kernel
  have container : mapGet largestParams (ascii "container") = [] := by decide +kernel
  have source : mapGetOr largestParams (ascii "source") (ascii "source_id") = ascii "web" := by
    decide +kernel
  have named : ¬ (ascii "shop" = [] ∨ ascii "cart" = []) := by decide
  rw [parseRequestArmFromMap, delay, count]
  simp only [ns, pod, container, source, if_true, if_neg named]
  rfl

/-- The largest request on the cgroup 7. -/
def largestArm : Action :=
  .arm largestRequest (some (7, ascii "/sys/fs/cgroup/cart")) ⟨none, true⟩

/-- The hypotheses of `arm_keepsCredits_iff` are met by the first arm. -/
theorem arm_keepsCredits_iff_sample : KeepsCredits (init 1000)
    ((init 1000).arm largestRequest (some (7, ascii "/sys/fs/cgroup/cart")) ⟨none, true⟩).1
    (7, largestRequest.sourceKey) largestRequest.count := by
  have iff := @arm_keepsCredits_iff 1000 [] _ rfl largestRequest
    (some (7, ascii "/sys/fs/cgroup/cart")) ⟨none, true⟩ _ rfl rfl
  exact iff.mpr (by decide)

/-- The same request again loses all credits: the sum of the slot overflows and is clamped to zero. -/
theorem second_arm_loses_credits : ¬ ∀ (defaultDelayNs : UInt64) (actions : List Action)
    (final : Engine), run step (init defaultDelayNs) actions = some final →
    ∀ (q : Params) (req : RequestArmRequest), parseRequestArmFromMap q = .ok req →
    0 ≤ req.count.toInt → ∀ (found : Option (UInt64 × Bytes)) (updates : ArmUpdates)
      (resolved : ResolvedTarget),
      resolveTarget req.ns req.pod req.container found = some resolved →
      (final.arm req found updates).2.ok = true →
      KeepsCredits final (final.arm req found updates).1 (resolved.cgroupId, req.sourceKey)
        req.count := by
  intro keeps
  have credited := (keeps 1000 [largestArm] _ rfl largestParams largestRequest largest_accepted
    (by decide) (some (7, ascii "/sys/fs/cgroup/cart")) ⟨none, true⟩ _ rfl rfl).credited
  exact absurd credited (by decide)

end Mcoz.Daemon
