/-
The representation invariant of the slot table.

`WellFormed` is what every value of `victim_map` has: the nonzero keys of the eight slots are
pairwise distinct, the cursor is a slot index, no slot has negative credits, and a slot with
credits has a key. `Consumable` adds that a slot with credits has a delay, so that
`consume_credit_locked` can take them.

For each operation of `SlotTable` there is one lemma that says what it does to the slots
(`arm_spec`, `consumeCredit_spec`), and from it the invariants and the balances follow: a
well-formed table is a book of accounts (`balance`), an arm is a deposit into it and a consumption
a withdrawal from it.
-/

import Mcoz.Engine.SlotTable
import Mcoz.Lib.Ledger

set_option autoImplicit false

namespace Mcoz.VictimCfg

open Word

/-! ### The scans -/

theorem findExactSlot_some {cfg : VictimCfg} {sourceKey : UInt64} {index : SlotIndex}
    (found : cfg.findExactSlot sourceKey = some index) :
    sourceKey ≠ 0 ∧ (cfg.slots index).sourceKey = sourceKey := by
  unfold findExactSlot at found
  split at found
  · cases found
  · rename_i nonzero
    exact ⟨nonzero, by simpa using List.find?_some found⟩

theorem findExactSlot_none_iff {cfg : VictimCfg} {sourceKey : UInt64} (nonzero : sourceKey ≠ 0) :
    cfg.findExactSlot sourceKey = none ↔ ∀ i, (cfg.slots i).sourceKey ≠ sourceKey := by
  unfold findExactSlot
  rw [if_neg nonzero, List.find?_eq_none]
  simp

/-- A slot that `find_free_slot` may return: one without credits or without a key. -/
def Free (cfg : VictimCfg) (index : SlotIndex) : Prop :=
  (cfg.slots index).credits = 0 ∨ (cfg.slots index).sourceKey = 0

/-- The loop returns a free slot: an index still to be scanned or one of the accumulators. -/
theorem findFreeSlotLoop_free {cfg : VictimCfg} {index : SlotIndex} :
    ∀ (indices : List SlotIndex) {empty reusable : Option SlotIndex},
      (∀ i, empty = some i → cfg.Free i) → (∀ i, reusable = some i → cfg.Free i) →
      cfg.findFreeSlotLoop indices empty reusable = some index → cfg.Free index
  | [], empty, reusable, emptyFree, reusableFree, found => by
      unfold findFreeSlotLoop at found
      split at found
      · exact reusableFree index found
      · exact emptyFree index found
  | i :: rest, empty, reusable, emptyFree, reusableFree, found => by
      unfold findFreeSlotLoop at found
      simp only at found
      split at found
      · rename_i unused
        cases found
        exact Or.inl unused.2.1
      · refine findFreeSlotLoop_free rest ?_ ?_ found
        · intro j held
          split at held
          · rename_i keyless
            cases held
            exact Or.inr keyless.1
          · exact emptyFree j held
        · intro j held
          split at held
          · rename_i exhausted
            cases held
            exact Or.inl exhausted.1
          · exact reusableFree j held

/-- The loop returns nothing exactly if it was given nothing and no slot it scans is free. -/
theorem findFreeSlotLoop_none_iff {cfg : VictimCfg} :
    ∀ (indices : List SlotIndex) {empty reusable : Option SlotIndex},
      cfg.findFreeSlotLoop indices empty reusable = none ↔
        empty = none ∧ reusable = none ∧ ∀ i ∈ indices, ¬ cfg.Free i
  | [], empty, reusable => by
      unfold findFreeSlotLoop
      cases reusable <;> simp
  | i :: rest, empty, reusable => by
      unfold findFreeSlotLoop
      simp only
      by_cases unused : (cfg.slots i).sourceKey = 0 ∧ (cfg.slots i).credits = 0 ∧
          (cfg.slots i).delayNs = 0
      · have free : cfg.Free i := Or.inl unused.2.1
        simp [unused, free]
      · rw [if_neg unused, findFreeSlotLoop_none_iff rest]
        by_cases keyless : (cfg.slots i).sourceKey = 0
        · have free : cfg.Free i := Or.inr keyless
          cases empty <;> simp [keyless, free]
        · by_cases exhausted : (cfg.slots i).credits = 0
          · have free : cfg.Free i := Or.inl exhausted
            cases reusable <;> simp [exhausted, free]
          · have taken : ¬ cfg.Free i := fun free => free.elim exhausted keyless
            simp [keyless, exhausted, taken]

theorem findFreeSlot_free {cfg : VictimCfg} {index : SlotIndex}
    (found : cfg.findFreeSlot = some index) : cfg.Free index :=
  findFreeSlotLoop_free _ (by simp) (by simp) found

theorem findFreeSlot_none_iff {cfg : VictimCfg} :
    cfg.findFreeSlot = none ↔ ∀ i, ¬ cfg.Free i := by
  unfold findFreeSlot
  rw [findFreeSlotLoop_none_iff]
  simp

/-- The scan for a source ends at its own slot or, if it has none, at a free one. -/
theorem findSlotForSource_some {cfg : VictimCfg} {sourceKey : UInt64} {index : SlotIndex}
    (nonzero : sourceKey ≠ 0) (found : cfg.findSlotForSource sourceKey = some index) :
    (cfg.slots index).sourceKey = sourceKey ∨
      (cfg.Free index ∧ ∀ i, (cfg.slots i).sourceKey ≠ sourceKey) := by
  unfold findSlotForSource at found
  cases exact : cfg.findExactSlot sourceKey with
  | some i =>
      simp only [exact, Option.some.injEq] at found
      subst found
      exact Or.inl (findExactSlot_some exact).2
  | none =>
      simp only [exact] at found
      exact Or.inr ⟨findFreeSlot_free found, (findExactSlot_none_iff nonzero).mp exact⟩

theorem findSlotForSource_none_iff {cfg : VictimCfg} {sourceKey : UInt64}
    (nonzero : sourceKey ≠ 0) :
    cfg.findSlotForSource sourceKey = none ↔
      (∀ i, (cfg.slots i).sourceKey ≠ sourceKey) ∧ ∀ i, ¬ cfg.Free i := by
  unfold findSlotForSource
  cases exact : cfg.findExactSlot sourceKey with
  | some i =>
      simp only [reduceCtorEq, false_iff, not_and]
      intro absent
      exact absurd (findExactSlot_some exact).2 (absent i)
  | none =>
      simp only [findFreeSlot_none_iff]
      exact ⟨fun taken => ⟨(findExactSlot_none_iff nonzero).mp exact, taken⟩, fun both => both.2⟩

/-- An arm gives a delay to its slot if the default is one. -/
theorem effectiveDelay_pos (cfg : VictimCfg) (delayNs : UInt64) {defaultDelayNs : UInt64}
    (default : 0 < defaultDelayNs) : 0 < cfg.effectiveDelay delayNs defaultDelayNs := by
  unfold effectiveDelay
  split
  · assumption
  · split
    · assumption
    · exact default

/-! ### The invariant -/

/-- What every value of `victim_map` has, whatever the delays are. -/
structure WellFormed (cfg : VictimCfg) : Prop where
  keysDistinct : ∀ i j, (cfg.slots i).sourceKey ≠ 0 →
    (cfg.slots i).sourceKey = (cfg.slots j).sourceKey → i = j
  cursorLt : cfg.rrCursor.toNat < maxSourceSlots
  creditsNonneg : ∀ i, 0 ≤ (cfg.slots i).credits.toInt
  creditsKeyed : ∀ i, 0 < (cfg.slots i).credits.toInt → (cfg.slots i).sourceKey ≠ 0

/-- Every slot with credits has a delay. -/
def Consumable (cfg : VictimCfg) : Prop :=
  ∀ i, 0 < (cfg.slots i).credits.toInt → (cfg.slots i).delayNs ≠ 0

theorem zero_wellFormed : zero.WellFormed where
  keysDistinct := fun _ _ nonzero => absurd rfl nonzero
  cursorLt := by decide
  creditsNonneg := fun _ => le_rfl
  creditsKeyed := fun _ positive => absurd positive (lt_irrefl 0)

theorem zero_consumable : zero.Consumable :=
  fun _ positive => absurd positive (lt_irrefl 0)

/-- In a well-formed table a free slot has no credits. -/
theorem WellFormed.free_iff {cfg : VictimCfg} (wellFormed : cfg.WellFormed) (index : SlotIndex) :
    cfg.Free index ↔ (cfg.slots index).credits.toInt = 0 := by
  have nonneg := wellFormed.creditsNonneg index
  constructor
  · rintro (exhausted | keyless)
    · exact eq_zero_iff.mp exhausted
    · by_contra credited
      exact wellFormed.creditsKeyed index (by omega) keyless
  · intro exhausted
    exact Or.inl (eq_zero_iff.mpr exhausted)

/-! ### The credits of a source -/

/-- The credits of the slot that holds the key, zero if no slot does. -/
def creditsFor (cfg : VictimCfg) (sourceKey : UInt64) : ℤ :=
  match cfg.findExactSlot sourceKey with
  | some index => (cfg.slots index).credits.toInt
  | none => 0

theorem WellFormed.findExactSlot_of_holds {cfg : VictimCfg} (wellFormed : cfg.WellFormed)
    {sourceKey : UInt64} {index : SlotIndex} (nonzero : sourceKey ≠ 0)
    (holds : (cfg.slots index).sourceKey = sourceKey) :
    cfg.findExactSlot sourceKey = some index := by
  cases exact : cfg.findExactSlot sourceKey with
  | none => exact absurd holds ((findExactSlot_none_iff nonzero).mp exact index)
  | some other =>
      have heldThere := (findExactSlot_some exact).2
      rw [wellFormed.keysDistinct other index (by rw [heldThere]; exact nonzero)
        (heldThere.trans holds.symm)]

theorem WellFormed.creditsFor_of_holds {cfg : VictimCfg} (wellFormed : cfg.WellFormed)
    {sourceKey : UInt64} {index : SlotIndex} (nonzero : sourceKey ≠ 0)
    (holds : (cfg.slots index).sourceKey = sourceKey) :
    cfg.creditsFor sourceKey = (cfg.slots index).credits.toInt := by
  unfold creditsFor
  rw [wellFormed.findExactSlot_of_holds nonzero holds]

theorem creditsFor_of_absent {cfg : VictimCfg} {sourceKey : UInt64}
    (absent : ∀ i, (cfg.slots i).sourceKey ≠ sourceKey) : cfg.creditsFor sourceKey = 0 := by
  unfold creditsFor
  cases exact : cfg.findExactSlot sourceKey with
  | none => rfl
  | some index => exact absurd (findExactSlot_some exact).2 (absent index)

@[simp] theorem creditsFor_of_zero (sourceKey : UInt64) : zero.creditsFor sourceKey = 0 := by
  unfold creditsFor
  split <;> rfl

@[simp] theorem creditsFor_zeroKey (cfg : VictimCfg) : cfg.creditsFor 0 = 0 := by
  simp [creditsFor, findExactSlot]

theorem WellFormed.creditsFor_nonneg {cfg : VictimCfg} (wellFormed : cfg.WellFormed)
    (sourceKey : UInt64) : 0 ≤ cfg.creditsFor sourceKey := by
  unfold creditsFor
  split
  · exact wellFormed.creditsNonneg _
  · exact le_rfl

/-- Two tables with the same slots give the same credits to every source. -/
theorem creditsFor_congr {cfg other : VictimCfg} (same : cfg.slots = other.slots)
    (sourceKey : UInt64) : cfg.creditsFor sourceKey = other.creditsFor sourceKey := by
  simp only [creditsFor, findExactSlot, same]

/-! ### Writing one slot -/

/-- Where the daemon writes a slot for a key: over the slot of that key, or, if there is none, over
a slot without credits. -/
def Place (cfg : VictimCfg) (index : SlotIndex) (sourceKey : UInt64) : Prop :=
  (cfg.slots index).sourceKey = sourceKey ∨
    ((cfg.slots index).credits.toInt = 0 ∧ ∀ i, (cfg.slots i).sourceKey ≠ sourceKey)

section Put

variable {cfg next : VictimCfg} {index : SlotIndex} {slot : SourceCreditSlot}

/-- Writing one slot at its place keeps the invariant. -/
theorem WellFormed.put (wellFormed : cfg.WellFormed)
    (written : next.slots = Function.update cfg.slots index slot)
    (cursor : next.rrCursor.toNat < maxSourceSlots) (nonzero : slot.sourceKey ≠ 0)
    (nonneg : 0 ≤ slot.credits.toInt) (place : cfg.Place index slot.sourceKey) :
    next.WellFormed := by
  have elsewhere : ∀ i, i ≠ index → (cfg.slots i).sourceKey ≠ slot.sourceKey := by
    intro i other held
    rcases place with same | ⟨-, absent⟩
    · exact other (wellFormed.keysDistinct i index (by rw [held]; exact nonzero)
        (held.trans same.symm))
    · exact absent i held
  refine ⟨fun i j => ?_, cursor, fun i => ?_, fun i => ?_⟩
  · rw [written]
    by_cases first : i = index
    · by_cases second : j = index
      · exact fun _ _ => first.trans second.symm
      · subst first
        rw [Function.update_self, Function.update_of_ne second]
        exact fun _ same => absurd same.symm (elsewhere j second)
    · by_cases second : j = index
      · subst second
        rw [Function.update_self, Function.update_of_ne first]
        exact fun _ same => absurd same (elsewhere i first)
      · rw [Function.update_of_ne first, Function.update_of_ne second]
        exact wellFormed.keysDistinct i j
  · rw [written]
    by_cases here : i = index
    · rw [here, Function.update_self]
      exact nonneg
    · rw [Function.update_of_ne here]
      exact wellFormed.creditsNonneg i
  · rw [written]
    by_cases here : i = index
    · rw [here, Function.update_self]
      exact fun _ => nonzero
    · rw [Function.update_of_ne here]
      exact wellFormed.creditsKeyed i

/-- Writing one slot at its place changes the credits of its key only. -/
theorem WellFormed.creditsFor_put (wellFormed : cfg.WellFormed) (after : next.WellFormed)
    (written : next.slots = Function.update cfg.slots index slot) (nonzero : slot.sourceKey ≠ 0)
    (place : cfg.Place index slot.sourceKey) (sourceKey : UInt64) :
    next.creditsFor sourceKey =
      if sourceKey = slot.sourceKey then slot.credits.toInt else cfg.creditsFor sourceKey := by
  have here : next.slots index = slot := by rw [written, Function.update_self]
  have there : ∀ i, i ≠ index → next.slots i = cfg.slots i := fun i other => by
    rw [written, Function.update_of_ne other]
  by_cases same : sourceKey = slot.sourceKey
  · rw [if_pos same, after.creditsFor_of_holds (by rw [same]; exact nonzero)
      (show (next.slots index).sourceKey = sourceKey by rw [here, same]), here]
  · rw [if_neg same]
    by_cases zero : sourceKey = 0
    · rw [zero, creditsFor_zeroKey, creditsFor_zeroKey]
    by_cases held : ∃ i, i ≠ index ∧ (cfg.slots i).sourceKey = sourceKey
    · obtain ⟨i, other, holds⟩ := held
      rw [wellFormed.creditsFor_of_holds zero holds,
        after.creditsFor_of_holds zero
          (show (next.slots i).sourceKey = sourceKey by rw [there i other, holds]), there i other]
    · -- The key is in no other slot, so it had at most the slot that is written over.
      have absent : ∀ i, (next.slots i).sourceKey ≠ sourceKey := by
        intro i holds
        by_cases other : i = index
        · rw [other, here] at holds
          exact same holds.symm
        · rw [there i other] at holds
          exact held ⟨i, other, holds⟩
      rw [creditsFor_of_absent absent]
      by_cases replaced : (cfg.slots index).sourceKey = sourceKey
      · rw [wellFormed.creditsFor_of_holds zero replaced]
        rcases place with kept | ⟨exhausted, -⟩
        · exact absurd (replaced.symm.trans kept) same
        · exact exhausted.symm
      · refine (creditsFor_of_absent fun i holds => ?_).symm
        by_cases other : i = index
        · exact replaced (by rw [← other]; exact holds)
        · exact held ⟨i, other, holds⟩

theorem Consumable.put (consumable : cfg.Consumable)
    (written : next.slots = Function.update cfg.slots index slot)
    (delayed : 0 < slot.credits.toInt → slot.delayNs ≠ 0) : next.Consumable := by
  intro i
  rw [written]
  by_cases here : i = index
  · rw [here, Function.update_self]
    exact delayed
  · rw [Function.update_of_ne here]
    exact consumable i

end Put

/-! ### Arming -/

theorem arm_eq_none_iff {cfg : VictimCfg} {sourceKey : UInt64} (delayNs : UInt64) (count : Int64) :
    cfg.arm sourceKey delayNs count = none ↔ cfg.findSlotForSource sourceKey = none := by
  simp [arm]

/-- What an arm writes, and where. -/
theorem arm_spec {cfg next : VictimCfg} {sourceKey delayNs : UInt64} {count : Int64}
    {index : SlotIndex} (armed : cfg.arm sourceKey delayNs count = some (next, index)) :
    cfg.findSlotForSource sourceKey = some index ∧
      next.slots = Function.update cfg.slots index
        (armedSlot (cfg.slots index) sourceKey delayNs count) ∧
      next.rrCursor.toNat = index.val ∧ next.enabled = 1 := by
  unfold arm at armed
  obtain ⟨found, picked, same⟩ := Option.map_eq_some_iff.mp armed
  simp only [Prod.mk.injEq] at same
  obtain ⟨rfl, rfl⟩ := same
  refine ⟨picked, rfl, ?_, rfl⟩
  have below : found.val < 8 := found.isLt
  simp only [UInt32.toNat_ofNat']
  omega

section Arm

variable {cfg next : VictimCfg} {sourceKey delayNs : UInt64} {count : Int64} {index : SlotIndex}

theorem armedSlot_credits (sourceKey delayNs : UInt64) {slot : SourceCreditSlot} (nonneg : 0 ≤ slot.credits.toInt)
    (counted : 0 ≤ count.toInt) (fits : slot.credits.toInt + count.toInt < 2 ^ 63) :
    (armedSlot slot sourceKey delayNs count).credits.toInt =
      slot.credits.toInt + count.toInt := by
  have sum := toInt_add_of_fits (a := slot.credits) (b := count) (by omega) fits
  have unclamped : ¬ slot.credits + count < 0 := by
    rw [neg_iff, sum]
    omega
  unfold armedSlot
  rw [if_neg unclamped]
  exact sum

/-- The sum is clamped, so an armed slot has no negative credits even where the sum wraps. -/
theorem armedSlot_nonneg (slot : SourceCreditSlot) (sourceKey delayNs : UInt64) (count : Int64) :
    0 ≤ (armedSlot slot sourceKey delayNs count).credits.toInt := by
  unfold armedSlot
  split
  · exact le_rfl
  · rename_i nonneg
    exact not_lt.mp fun negative => nonneg (neg_iff.mpr negative)

theorem WellFormed.arm_place (wellFormed : cfg.WellFormed) (nonzero : sourceKey ≠ 0)
    (found : cfg.findSlotForSource sourceKey = some index) : cfg.Place index sourceKey := by
  rcases findSlotForSource_some nonzero found with holds | ⟨free, absent⟩
  · exact Or.inl holds
  · exact Or.inr ⟨(wellFormed.free_iff index).mp free, absent⟩

/-- The slot that an arm picks has the credits of its key. -/
theorem WellFormed.credits_of_pick (wellFormed : cfg.WellFormed) (nonzero : sourceKey ≠ 0)
    (found : cfg.findSlotForSource sourceKey = some index) :
    (cfg.slots index).credits.toInt = cfg.creditsFor sourceKey := by
  rcases wellFormed.arm_place nonzero found with holds | ⟨exhausted, absent⟩
  · exact (wellFormed.creditsFor_of_holds nonzero holds).symm
  · rw [exhausted, creditsFor_of_absent absent]

theorem WellFormed.arm (wellFormed : cfg.WellFormed) (nonzero : sourceKey ≠ 0)
    (armed : cfg.arm sourceKey delayNs count = some (next, index)) : next.WellFormed := by
  obtain ⟨found, written, cursor, -⟩ := arm_spec armed
  exact wellFormed.put written (by rw [cursor]; exact index.isLt) nonzero
    (armedSlot_nonneg _ sourceKey delayNs count) (wellFormed.arm_place nonzero found)

/-- An arm writes the credits of its own key. -/
theorem WellFormed.creditsFor_armed (wellFormed : cfg.WellFormed) (nonzero : sourceKey ≠ 0)
    (armed : cfg.arm sourceKey delayNs count = some (next, index)) (key : UInt64) :
    next.creditsFor key =
      if key = sourceKey then (armedSlot (cfg.slots index) sourceKey delayNs count).credits.toInt
      else cfg.creditsFor key := by
  obtain ⟨found, written, -, -⟩ := arm_spec armed
  exact wellFormed.creditsFor_put (wellFormed.arm nonzero armed) written nonzero
    (wellFormed.arm_place nonzero found) key

/-- An arm that fits is a deposit for its key. -/
theorem WellFormed.creditsFor_arm (wellFormed : cfg.WellFormed) (nonzero : sourceKey ≠ 0)
    (counted : 0 ≤ count.toInt) (fits : cfg.creditsFor sourceKey + count.toInt < 2 ^ 63)
    (armed : cfg.arm sourceKey delayNs count = some (next, index)) (key : UInt64) :
    next.creditsFor key =
      if key = sourceKey then cfg.creditsFor sourceKey + count.toInt else cfg.creditsFor key := by
  have before := wellFormed.credits_of_pick nonzero (arm_spec armed).1
  have credits := armedSlot_credits sourceKey delayNs (wellFormed.creditsNonneg index) counted
    (by rw [before]; exact fits)
  rw [wellFormed.creditsFor_armed nonzero armed key, credits, before]

theorem Consumable.arm (consumable : cfg.Consumable) (delayed : 0 < delayNs)
    (armed : cfg.arm sourceKey delayNs count = some (next, index)) : next.Consumable := by
  obtain ⟨-, written, -, -⟩ := arm_spec armed
  refine consumable.put written fun _ zero => ?_
  rw [show delayNs = 0 from zero] at delayed
  exact absurd delayed (UInt64.lt_irrefl 0)

/-- An arm leaves every other source's slot alone as long as it has credits. -/
theorem WellFormed.arm_frame (wellFormed : cfg.WellFormed) (nonzero : sourceKey ≠ 0)
    (armed : cfg.arm sourceKey delayNs count = some (next, index)) (i : SlotIndex)
    (other : (cfg.slots i).sourceKey ≠ sourceKey) (credited : 0 < (cfg.slots i).credits.toInt) :
    next.slots i = cfg.slots i := by
  obtain ⟨found, written, -, -⟩ := arm_spec armed
  have elsewhere : i ≠ index := by
    rintro rfl
    rcases wellFormed.arm_place nonzero found with holds | ⟨exhausted, -⟩
    · exact other holds
    · omega
  rw [written, Function.update_of_ne elsewhere]

/-- There is no slot for a source exactly if none holds its key and all have credits. -/
theorem WellFormed.findSlotForSource_none_iff (wellFormed : cfg.WellFormed)
    (nonzero : sourceKey ≠ 0) :
    cfg.findSlotForSource sourceKey = none ↔
      (∀ i, (cfg.slots i).sourceKey ≠ sourceKey) ∧ ∀ i, 0 < (cfg.slots i).credits.toInt := by
  rw [VictimCfg.findSlotForSource_none_iff nonzero]
  refine and_congr_right fun _ => forall_congr' fun i => ?_
  have nonneg := wellFormed.creditsNonneg i
  rw [wellFormed.free_iff i]
  omega

end Arm

/-! ### Consuming -/

theorem consumeSlot_holds {cfg : VictimCfg} {sourceKey : UInt64} {hint : UInt32}
    {index : SlotIndex} (found : cfg.consumeSlot sourceKey hint = some index) :
    (cfg.slots index).sourceKey = sourceKey := by
  unfold consumeSlot at found
  split at found
  · split at found
    · rename_i held
      cases found
      exact held
    · exact (findExactSlot_some found).2
  · exact (findExactSlot_some found).2

/-- A consumption takes one credit from a slot that holds the key, whatever the hint was. -/
theorem consumeCredit_spec {cfg : VictimCfg} {sourceKey : UInt64} {hint : UInt32}
    {consumption : Consumption} (consumed : cfg.consumeCredit sourceKey hint = some consumption) :
    ∃ index, (cfg.slots index).sourceKey = sourceKey ∧ (cfg.slots index).delayNs ≠ 0 ∧
      0 < (cfg.slots index).credits.toInt ∧ consumption.cfg = cfg.decrement index ∧
      consumption.delayNs = (cfg.slots index).delayNs := by
  unfold consumeCredit at consumed
  split at consumed
  · cases consumed
  cases found : cfg.consumeSlot sourceKey hint with
  | none => simp only [found, reduceCtorEq] at consumed
  | some index =>
      simp only [found] at consumed
      split at consumed
      · cases consumed
      · rename_i able
        cases consumed
        obtain ⟨delayed, credited⟩ := not_or.mp able
        refine ⟨index, consumeSlot_holds found, delayed, ?_, rfl, rfl⟩
        rw [nonpos_iff] at credited
        omega

section Consume

variable {cfg : VictimCfg} {sourceKey : UInt64} {hint : UInt32} {consumption : Consumption}

/-- A credit can be taken if its slot has a delay: an enabled table refuses no event for a key with
such credits, whatever the hint is. -/
theorem WellFormed.consumeCredit_isSome (wellFormed : cfg.WellFormed) (enabled : cfg.enabled ≠ 0)
    (credited : 0 < cfg.creditsFor sourceKey)
    (delayed : ∀ i, (cfg.slots i).sourceKey = sourceKey → 0 < (cfg.slots i).credits.toInt →
      (cfg.slots i).delayNs ≠ 0) (hint : UInt32) :
    (cfg.consumeCredit sourceKey hint).isSome := by
  have nonzero : sourceKey ≠ 0 := by
    rintro rfl
    rw [creditsFor_zeroKey] at credited
    exact lt_irrefl 0 credited
  cases exact : cfg.findExactSlot sourceKey with
  | none =>
      rw [creditsFor_of_absent ((findExactSlot_none_iff nonzero).mp exact)] at credited
      exact absurd credited (lt_irrefl 0)
  | some index =>
      have holds := (findExactSlot_some exact).2
      have found : cfg.consumeSlot sourceKey hint = some index := by
        unfold consumeSlot
        split
        · split
          · rename_i inRange held
            have same := wellFormed.keysDistinct _ index (by rw [held]; exact nonzero)
              (held.trans holds.symm)
            rw [same]
          · exact exact
        · exact exact
      rw [wellFormed.creditsFor_of_holds nonzero holds] at credited
      unfold consumeCredit
      rw [if_neg enabled, found]
      simp only
      rw [if_neg]
      · rfl
      · rintro (undelayed | exhausted)
        · exact delayed index holds credited undelayed
        · rw [nonpos_iff] at exhausted
          omega

theorem spentSlot_credits {slot : SourceCreditSlot} (positive : 0 < slot.credits.toInt) :
    (spentSlot slot).credits.toInt = slot.credits.toInt - 1 :=
  toInt_pred_of_pos positive

theorem WellFormed.consume (wellFormed : cfg.WellFormed)
    (consumed : cfg.consumeCredit sourceKey hint = some consumption) :
    consumption.cfg.WellFormed := by
  obtain ⟨index, holds, -, positive, shape, -⟩ := consumeCredit_spec consumed
  rw [shape]
  have credits := spentSlot_credits positive
  exact wellFormed.put rfl wellFormed.cursorLt
    (wellFormed.creditsKeyed index positive) (by rw [credits]; omega) (Or.inl rfl)

/-- A consumption is a withdrawal of one credit from its key. -/
theorem WellFormed.creditsFor_consume (wellFormed : cfg.WellFormed)
    (consumed : cfg.consumeCredit sourceKey hint = some consumption) (key : UInt64) :
    consumption.cfg.creditsFor key =
      if key = sourceKey then cfg.creditsFor sourceKey - 1 else cfg.creditsFor key := by
  have after := wellFormed.consume consumed
  obtain ⟨index, holds, -, positive, shape, -⟩ := consumeCredit_spec consumed
  have nonzero := wellFormed.creditsKeyed index positive
  have spentKey : (spentSlot (cfg.slots index)).sourceKey = sourceKey := holds
  rw [shape] at after ⊢
  rw [wellFormed.creditsFor_put after rfl nonzero (Or.inl rfl) key,
    spentSlot_credits positive, spentKey,
    wellFormed.creditsFor_of_holds (by rw [← holds]; exact nonzero) holds]

theorem WellFormed.creditsFor_pos_of_consume (wellFormed : cfg.WellFormed)
    (consumed : cfg.consumeCredit sourceKey hint = some consumption) :
    0 < cfg.creditsFor sourceKey := by
  obtain ⟨index, holds, -, positive, -, -⟩ := consumeCredit_spec consumed
  rw [wellFormed.creditsFor_of_holds (by rw [← holds]; exact wellFormed.creditsKeyed index positive)
    holds]
  exact positive

theorem Consumable.consume (consumable : cfg.Consumable)
    (consumed : cfg.consumeCredit sourceKey hint = some consumption) :
    consumption.cfg.Consumable := by
  obtain ⟨index, -, delayed, -, shape, -⟩ := consumeCredit_spec consumed
  rw [shape]
  exact consumable.put rfl fun _ => delayed

end Consume

/-! ### Clearing and moving the cursor -/

theorem WellFormed.clearCredits {cfg : VictimCfg} (wellFormed : cfg.WellFormed) :
    cfg.clearCredits.WellFormed where
  keysDistinct := wellFormed.keysDistinct
  cursorLt := by simp [VictimCfg.clearCredits]
  creditsNonneg := fun _ => le_rfl
  creditsKeyed := fun _ positive => absurd positive (lt_irrefl 0)

theorem clearCredits_consumable (cfg : VictimCfg) : cfg.clearCredits.Consumable :=
  fun _ positive => absurd positive (lt_irrefl 0)

@[simp] theorem advanceCursor_slots (cfg : VictimCfg) (chosen : SlotIndex) :
    (cfg.advanceCursor chosen).slots = cfg.slots := rfl

theorem WellFormed.advanceCursor {cfg : VictimCfg} (wellFormed : cfg.WellFormed)
    (chosen : SlotIndex) : (cfg.advanceCursor chosen).WellFormed where
  keysDistinct := wellFormed.keysDistinct
  cursorLt := by
    have below : (chosen.val + 1) % maxSourceSlots < maxSourceSlots := Nat.mod_lt _ (by decide)
    simp only [VictimCfg.advanceCursor, UInt32.toNat_ofNat']
    omega
  creditsNonneg := wellFormed.creditsNonneg
  creditsKeyed := wellFormed.creditsKeyed

/-- The chosen slot is eligible. -/
theorem chooseSlot_eligible {cfg : VictimCfg} {chosen : SlotIndex}
    (found : cfg.chooseSlot = some chosen) : cfg.Eligible chosen := by
  simpa using List.find?_some found

end Mcoz.VictimCfg
