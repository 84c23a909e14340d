/-
The ranges of the memory map.

`_ranges` is a `std::map` from intervals to lines, ordered by a comparison for which overlapping intervals
are the same. A line object is known by its file and its number, since `get_file` and `get_line` make only
one of each. While the intervals are not turned around, `find_line` finds the line of the range around an
address (`findLine_eq_some_iff`), and a range is added unless it overlaps another (`Conflict`).
-/

import Mcoz.Lib.KeyedMap
import Mcoz.Lib.Word

set_option autoImplicit false

namespace Mcoz.Inspect

open Word KeyedMap

/-! ### Intervals -/

/-- `interval`. -/
structure Interval where
  base : UInt64
  limit : UInt64
deriving DecidableEq

namespace Interval

/-- `interval(uintptr_t p)`. -/
def unit (p : UInt64) : Interval :=
  ⟨p, p + 1⟩

/-- `operator+`. -/
def shift (i : Interval) (x : UInt64) : Interval :=
  ⟨i.base + x, i.limit + x⟩

/-- `operator<`. -/
def before (a b : Interval) : Prop :=
  a.limit ≤ b.base

instance : DecidableRel before :=
  fun a b => inferInstanceAs (Decidable (a.limit ≤ b.base))

/-- `contains`. -/
def contains (i : Interval) (x : UInt64) : Bool :=
  i.base ≤ x && x < i.limit

/-- An interval that is not turned around. -/
def Proper (i : Interval) : Prop :=
  i.base ≤ i.limit

instance : DecidablePred Proper :=
  fun i => inferInstanceAs (Decidable (i.base ≤ i.limit))

theorem contains_iff {i : Interval} {x : UInt64} : i.contains x = true ↔ i.base ≤ x ∧ x < i.limit := by
  simp [contains]

theorem before_composes : Composes before Proper :=
  fun proper first second => UInt64.le_trans first (UInt64.le_trans proper second)

/-- An interval conflicts with the unit interval of an address exactly if it contains the address. The
unit interval of the last address is turned around, but no interval contains that address. -/
theorem conflict_unit_iff {i : Interval} {p : UInt64} :
    Conflict before i (unit p) ↔ i.contains p = true := by
  rw [contains_iff]
  have upper := i.limit.toNat_lt
  have wrap : (p + 1).toNat = if p.toNat + 1 = 2 ^ 64 then 0 else p.toNat + 1 := by
    have bound := p.toNat_lt
    have one : (1 : UInt64).toNat = 1 := rfl
    rw [UInt64.toNat_add, one]
    split <;> omega
  simp only [Conflict, before, unit, UInt64.le_iff_toNat_le, UInt64.lt_iff_toNat_lt, wrap]
  split <;> omega

end Interval

/-! ### Loading -/

/-- The file is loaded in one piece: at the load address, these addresses are all moved by the same
distance. -/
def Loaded (loadAddress : UInt64) (addresses : List UInt64) : Prop :=
  ∃ distance : ℤ, ∀ addr ∈ addresses, ((addr + loadAddress).toNat : ℤ) = addr.toNat + distance

namespace Loaded

variable {loadAddress : UInt64} {addresses : List UInt64}

/-- A file below the end of the address space is loaded in one piece. -/
theorem of_fits (fits : (addresses.all fun addr => addr.toNat + loadAddress.toNat < 2 ^ 64) = true) :
    Loaded loadAddress addresses := by
  refine ⟨loadAddress.toNat, fun addr among => ?_⟩
  have below := of_decide_eq_true (List.all_eq_true.mp fits addr among)
  exact_mod_cast toNat_add_of_lt below

theorem of_subset (loaded : Loaded loadAddress addresses) {part : List UInt64} (sub : part ⊆ addresses) :
    Loaded loadAddress part := by
  obtain ⟨distance, moved⟩ := loaded
  exact ⟨distance, fun addr among => moved addr (sub among)⟩

theorem mono (loaded : Loaded loadAddress addresses) {first second : UInt64}
    (left : first ∈ addresses) (right : second ∈ addresses) (ordered : first ≤ second) :
    first + loadAddress ≤ second + loadAddress := by
  obtain ⟨distance, moved⟩ := loaded
  have low := moved first left
  have high := moved second right
  rw [UInt64.le_iff_toNat_le] at ordered ⊢
  omega

/-- The addresses of an interval are moved with it. -/
theorem contains_iff (loaded : Loaded loadAddress addresses) {i : Interval} (base : i.base ∈ addresses)
    (limit : i.limit ∈ addresses) {addr : UInt64} :
    (i.shift loadAddress).contains (addr + loadAddress) = true ↔ i.contains addr = true := by
  obtain ⟨distance, moved⟩ := loaded
  have low := moved i.base base
  have high := moved i.limit limit
  have here : (addr + loadAddress).toNat = (addr.toNat + loadAddress.toNat) % 2 ^ 64 :=
    UInt64.toNat_add ..
  have lowSum : (i.base + loadAddress).toNat = (i.base.toNat + loadAddress.toNat) % 2 ^ 64 :=
    UInt64.toNat_add ..
  have bound := addr.toNat_lt
  have lowBound := i.base.toNat_lt
  have highBound := i.limit.toNat_lt
  have upper := (i.limit + loadAddress).toNat_lt
  have loadBound := loadAddress.toNat_lt
  simp only [Interval.contains_iff, Interval.shift, UInt64.le_iff_toNat_le, UInt64.lt_iff_toNat_lt]
  omega

end Loaded

/-! ### The map -/

/-- `line`, by its file and its number. -/
structure Line where
  file : Bytes
  line : ℕ
deriving DecidableEq

/-- `_ranges`, in the order of its keys. -/
abbrev RangeMap := List (Interval × Line)

/-- `memory_map::add_range`. -/
def addRange (filename : Bytes) (lineNo : ℕ) (range : Interval) (ranges : RangeMap) : RangeMap :=
  emplace Interval.before range ⟨filename, lineNo⟩ ranges

/-- `memory_map::find_line`. -/
def findLine (addr : UInt64) (ranges : RangeMap) : Option Line :=
  find Interval.before (Interval.unit addr) ranges

/-- Ranges in order, none of them turned around. -/
abbrev Sorted (ranges : RangeMap) : Prop :=
  Ordered Interval.before Interval.Proper ranges

/-- A range that was added, with its line. -/
def addEntry (ranges : RangeMap) (entry : Interval × Line) : RangeMap :=
  addRange entry.2.file entry.2.line entry.1 ranges

/-- `find_line` finds the line of the range around an address. -/
theorem findLine_eq_some_iff {ranges : RangeMap} (sorted : Sorted ranges) {addr : UInt64} {line : Line} :
    findLine addr ranges = some line ↔
      ∃ range, (range, line) ∈ ranges ∧ range.contains addr = true := by
  constructor
  · intro found
    obtain ⟨⟨range, line'⟩, member, conflict, rfl⟩ := conflict_of_find found
    exact ⟨range, member, Interval.conflict_unit_iff.mp conflict⟩
  · rintro ⟨range, member, around⟩
    refine find_of_mem Interval.before_composes sorted member (Interval.conflict_unit_iff.mpr around) ?_
    intro first second left right below
    obtain ⟨-, high⟩ := Interval.contains_iff.mp (Interval.conflict_unit_iff.mp left)
    obtain ⟨low, -⟩ := Interval.contains_iff.mp (Interval.conflict_unit_iff.mp right)
    exact UInt64.not_lt.mpr (UInt64.le_trans below low) high

end Mcoz.Inspect
