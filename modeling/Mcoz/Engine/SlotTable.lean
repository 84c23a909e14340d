/-
The value of `victim_map`: eight credit slots and a round-robin cursor.

The daemon and the BPF program share this value (`request_credit_shared.h`). The module has the
functions of both sides on it:

* the daemon's scans `total_credits`, `max_delay`, `find_exact_slot`, `find_free_slot`,
  `find_slot_for_source`, and what `arm`, `consume_credit_locked` and `clear` write back;
* the slot that the BPF program's `consume_once` chooses, and the cursor that it leaves.

A scan over the slots is a recursion over the list of the slot indices, with the source's
accumulators as arguments; the index `-1` of the source is `none`.
-/

import Mcoz.Lib.Word
import Mathlib.Data.List.FinRange
import Mathlib.Data.Fintype.Basic

set_option autoImplicit false

namespace Mcoz

open Word

/-- `MCOZ_MAX_SOURCE_SLOTS`. -/
abbrev maxSourceSlots : ℕ := 8

/-- The index of a source slot. -/
abbrev SlotIndex := Fin maxSourceSlots

/-- `mcoz_source_credit_slot`. -/
structure SourceCreditSlot where
  sourceKey : UInt64
  delayNs : UInt64
  credits : Int64
deriving DecidableEq

/-- `mcoz_victim_cfg`. -/
structure VictimCfg where
  enabled : UInt8
  rrCursor : UInt32
  slots : SlotIndex → SourceCreditSlot
deriving DecidableEq

/-- The value after `memset(&cfg, 0, sizeof(cfg))`. -/
def VictimCfg.zero : VictimCfg where
  enabled := 0
  rrCursor := 0
  slots := fun _ => ⟨0, 0, 0⟩

namespace VictimCfg

/-! ### The daemon's scans -/

/-- `total_credits`: the sum of the positive credits. -/
def totalCredits (cfg : VictimCfg) : Int64 :=
  (List.finRange maxSourceSlots).foldl
    (fun total i => if (cfg.slots i).credits > 0 then total + (cfg.slots i).credits else total) 0

/-- `max_delay`: the largest delay of all slots, exhausted ones included. -/
def maxDelay (cfg : VictimCfg) : UInt64 :=
  (List.finRange maxSourceSlots).foldl
    (fun out i => if (cfg.slots i).delayNs > out then (cfg.slots i).delayNs else out) 0

/-- `find_exact_slot`: the first slot that holds the key. -/
def findExactSlot (cfg : VictimCfg) (sourceKey : UInt64) : Option SlotIndex :=
  if sourceKey = 0 then none
  else (List.finRange maxSourceSlots).find? fun i => (cfg.slots i).sourceKey = sourceKey

/-- The loop of `find_free_slot`, with its accumulators `empty` and `reusable`. -/
def findFreeSlotLoop (cfg : VictimCfg) :
    List SlotIndex → Option SlotIndex → Option SlotIndex → Option SlotIndex
  | [], empty, reusable => if reusable.isSome then reusable else empty
  | i :: rest, empty, reusable =>
      let slot := cfg.slots i
      if slot.sourceKey = 0 ∧ slot.credits = 0 ∧ slot.delayNs = 0 then some i
      else
        findFreeSlotLoop cfg rest
          (if slot.sourceKey = 0 ∧ empty = none then some i else empty)
          (if slot.credits = 0 ∧ reusable = none then some i else reusable)

/-- `find_free_slot`: the first slot with all fields zero if the scan meets one, else the first
slot without credits, else the first slot without a key. -/
def findFreeSlot (cfg : VictimCfg) : Option SlotIndex :=
  findFreeSlotLoop cfg (List.finRange maxSourceSlots) none none

/-- `find_slot_for_source`. -/
def findSlotForSource (cfg : VictimCfg) (sourceKey : UInt64) : Option SlotIndex :=
  match findExactSlot cfg sourceKey with
  | some exact => some exact
  | none => findFreeSlot cfg

/-! ### What the daemon writes back -/

/-- The delay that `arm` gives to the slot: the request's, else the largest one in the table, else
the default. -/
def effectiveDelay (cfg : VictimCfg) (delayNs defaultDelayNs : UInt64) : UInt64 :=
  if delayNs > 0 then delayNs
  else if cfg.maxDelay > 0 then cfg.maxDelay
  else defaultDelayNs

/-- The slot that `arm` leaves at its index. A sum that wraps below zero is clamped. -/
def armedSlot (slot : SourceCreditSlot) (sourceKey delayNs : UInt64) (count : Int64) :
    SourceCreditSlot where
  sourceKey := sourceKey
  delayNs := delayNs
  credits := if slot.credits + count < 0 then 0 else slot.credits + count

/-- What `arm` does to its copy of the value; `none` if there is no slot for the source. -/
def arm (cfg : VictimCfg) (sourceKey delayNs : UInt64) (count : Int64) :
    Option (VictimCfg × SlotIndex) :=
  (cfg.findSlotForSource sourceKey).map fun index : SlotIndex =>
    ({ enabled := 1
       rrCursor := UInt32.ofNat index.val
       slots := Function.update cfg.slots index
         (armedSlot (cfg.slots index) sourceKey delayNs count) }, index)

/-- The slot that `consume_credit_locked` looks at: the hinted one if it holds the key, else the
one found by `find_exact_slot`. -/
def consumeSlot (cfg : VictimCfg) (sourceKey : UInt64) (hint : UInt32) : Option SlotIndex :=
  if inRange : hint.toNat < maxSourceSlots then
    if (cfg.slots ⟨hint.toNat, inRange⟩).sourceKey = sourceKey then some ⟨hint.toNat, inRange⟩
    else cfg.findExactSlot sourceKey
  else cfg.findExactSlot sourceKey

/-- A slot with one credit less. -/
def spentSlot (slot : SourceCreditSlot) : SourceCreditSlot :=
  { slot with credits := slot.credits - 1 }

/-- Take one credit from the slot at an index. -/
def decrement (cfg : VictimCfg) (index : SlotIndex) : VictimCfg :=
  { cfg with slots := Function.update cfg.slots index (spentSlot (cfg.slots index)) }

/-- What `consume_credit_locked` reports. -/
structure Consumption where
  cfg : VictimCfg
  delayNs : UInt64
  creditsBefore : Int64
  creditsAfter : Int64

/-- What `consume_credit_locked` does to its copy of the value; `none` where it returns false
before it writes the copy back. -/
def consumeCredit (cfg : VictimCfg) (sourceKey : UInt64) (hint : UInt32) : Option Consumption :=
  if cfg.enabled = 0 then none
  else
    match cfg.consumeSlot sourceKey hint with
    | none => none
    | some index =>
        if (cfg.slots index).delayNs = 0 ∨ (cfg.slots index).credits ≤ 0 then none
        else some
          { cfg := cfg.decrement index
            delayNs := (cfg.slots index).delayNs
            creditsBefore := cfg.totalCredits
            creditsAfter := (cfg.decrement index).totalCredits }

/-- What `clear(true)` does to a copy of the value. -/
def clearCredits (cfg : VictimCfg) : VictimCfg :=
  { cfg with
    rrCursor := 0
    slots := fun i => { cfg.slots i with delayNs := 0, credits := 0 } }

/-! ### The BPF program's choice -/

/-- A slot that `consume_once` does not skip. -/
def Eligible (cfg : VictimCfg) (index : SlotIndex) : Prop :=
  (cfg.slots index).sourceKey ≠ 0 ∧ (cfg.slots index).delayNs ≠ 0 ∧ 0 < (cfg.slots index).credits

instance (cfg : VictimCfg) (index : SlotIndex) : Decidable (cfg.Eligible index) :=
  inferInstanceAs (Decidable (_ ∧ _ ∧ _))

/-- The index of the scan's step: `(start + step) % MCOZ_MAX_SOURCE_SLOTS` on 32-bit words. -/
def scanIndex (start : UInt32) (step : ℕ) : SlotIndex :=
  ⟨(start + UInt32.ofNat step).toNat % maxSourceSlots, Nat.mod_lt _ (by decide)⟩

/-- The slot that `consume_once` chooses: the first eligible one from the cursor on. -/
def chooseSlot (cfg : VictimCfg) : Option SlotIndex :=
  ((List.range maxSourceSlots).map (scanIndex cfg.rrCursor)).find? fun i => cfg.Eligible i

/-- The value after `consume_once` chose a slot: only the cursor moves. -/
def advanceCursor (cfg : VictimCfg) (chosen : SlotIndex) : VictimCfg :=
  { cfg with rrCursor := UInt32.ofNat ((chosen.val + 1) % maxSourceSlots) }

end VictimCfg

end Mcoz
