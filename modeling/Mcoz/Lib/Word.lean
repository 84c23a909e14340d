/-
Fixed-width integers of C, byte strings and 64-bit FNV-1a.

The machine words are Lean's own `UInt64` and `Int64`, which wrap around as the compiled code does.
The lemmas say when an operation is the operation on the integers: as long as the result fits.
-/

import Mathlib.Algebra.Ring.Int.Defs
import Mathlib.Algebra.Ring.Nat

set_option autoImplicit false

namespace Word

/-- A C++ `std::string`: any sequence of bytes. -/
abbrev Bytes := List UInt8

/-- The bytes of an ASCII literal. -/
def ascii (text : String) : Bytes :=
  text.toList.map fun ch => ch.toNat.toUInt8

/-- The decimal digits of a natural number, as `std::to_string` and `operator<<` print it. -/
def decimal (value : ℕ) : Bytes :=
  (Nat.toDigits 10 value).map fun ch => ch.toNat.toUInt8

/-! ### Sums and differences that fit -/

theorem toNat_add_iff {a b : UInt64} :
    (a + b).toNat = a.toNat + b.toNat ↔ a.toNat + b.toNat < 2 ^ 64 := by
  rw [UInt64.toNat_add]
  exact Nat.mod_eq_iff_lt (by decide)

theorem toNat_add_of_lt {a b : UInt64} (fits : a.toNat + b.toNat < 2 ^ 64) :
    (a + b).toNat = a.toNat + b.toNat :=
  toNat_add_iff.mpr fits

theorem toNat_succ_of_lt {a : UInt64} (fits : a.toNat + 1 < 2 ^ 64) :
    (a + 1).toNat = a.toNat + 1 :=
  toNat_add_of_lt fits

/-- A sum that fits is compared as an integer. -/
theorem ofNat_add_le_iff {a b c : ℕ} (sum : a + b < 2 ^ 64) (bound : c < 2 ^ 64) :
    UInt64.ofNat a + UInt64.ofNat b ≤ UInt64.ofNat c ↔ a + b ≤ c := by
  have left : a < UInt64.size := lt_of_le_of_lt (Nat.le_add_right a b) sum
  have right : b < UInt64.size := lt_of_le_of_lt (Nat.le_add_left b a) sum
  rw [UInt64.le_iff_toNat_le, UInt64.toNat_add, UInt64.toNat_ofNat_of_lt' left,
    UInt64.toNat_ofNat_of_lt' right, UInt64.toNat_ofNat_of_lt' bound, Nat.mod_eq_of_lt sum]

theorem toInt_add_of_fits {a b : Int64} (nonneg : 0 ≤ a.toInt + b.toInt)
    (fits : a.toInt + b.toInt < 2 ^ 63) : (a + b).toInt = a.toInt + b.toInt := by
  rw [Int64.toInt_add]
  exact Int.bmod_eq_of_le (by omega) (by omega)

/-- A product that is not negative is the product of the integers exactly if it fits. -/
theorem toInt_mul_iff {a b : Int64} (nonneg : 0 ≤ a.toInt * b.toInt) :
    (a * b).toInt = a.toInt * b.toInt ↔ a.toInt * b.toInt < 2 ^ 63 := by
  constructor
  · intro same
    rw [← same]
    exact Int64.toInt_lt _
  · intro fits
    rw [Int64.toInt_mul]
    exact Int.bmod_eq_of_le (by omega) (by omega)

/-- A sum with a number that is not negative is the sum of the integers exactly if it fits. -/
theorem toInt_add_iff {a b : Int64} (nonneg : 0 ≤ b.toInt) :
    (a + b).toInt = a.toInt + b.toInt ↔ a.toInt + b.toInt < 2 ^ 63 := by
  constructor
  · intro same
    rw [← same]
    exact Int64.toInt_lt _
  · intro fits
    have lower := a.le_toInt
    rw [Int64.toInt_add]
    exact Int.bmod_eq_of_le (by omega) (by omega)

theorem toInt_pred_of_pos {a : Int64} (positive : 0 < a.toInt) : (a - 1).toInt = a.toInt - 1 := by
  have upper := a.toInt_lt
  have one : (1 : Int64).toInt = 1 := rfl
  rw [Int64.toInt_sub, one]
  exact Int.bmod_eq_of_le (by omega) (by omega)

theorem neg_iff {a : Int64} : a < 0 ↔ a.toInt < 0 :=
  Int64.lt_iff_toInt_lt

theorem nonpos_iff {a : Int64} : a ≤ 0 ↔ a.toInt ≤ 0 :=
  Int64.le_iff_toInt_le

theorem eq_zero_iff {a : Int64} : a = 0 ↔ a.toInt = 0 :=
  Int64.toInt_inj.symm

/-- The cast of a nonnegative `int64_t` to `uint64_t` keeps its value. -/
theorem toNat_toUInt64 {a : Int64} (nonneg : 0 ≤ a.toInt) : a.toUInt64.toNat = a.toInt.toNat := by
  have bits : a.toInt = a.toBitVec.toInt := rfl
  have value : a.toUInt64.toNat = a.toBitVec.toNat := rfl
  rw [value]
  rw [bits] at nonneg ⊢
  rw [BitVec.toInt_eq_toNat_cond] at nonneg ⊢
  split at nonneg <;> omega

/-! ### Big-endian words -/

/-- The number that bytes spell, the most significant first. -/
def bigEndian (bytes : Bytes) : ℕ :=
  bytes.foldl (fun value byte => value * 256 + byte.toNat) 0

/-- The four bytes of a 32-bit number, the most significant first. -/
def be32 (value : ℕ) : Bytes :=
  [(value / 2 ^ 24).toUInt8, (value / 2 ^ 16).toUInt8, (value / 2 ^ 8).toUInt8, value.toUInt8]

@[simp] theorem length_be32 (value : ℕ) : (be32 value).length = 4 := rfl

@[simp] theorem take_be32 (value : ℕ) (tail : Bytes) :
    (be32 value ++ tail).take 4 = be32 value := rfl

@[simp] theorem drop_be32 (value : ℕ) (tail : Bytes) : (be32 value ++ tail).drop 4 = tail := rfl

theorem bigEndian_be32 {value : ℕ} (fits : value < 2 ^ 32) : bigEndian (be32 value) = value := by
  simp only [bigEndian, be32, List.foldl_cons, List.foldl_nil, Nat.toUInt8, UInt8.toNat_ofNat']
  omega

theorem bigEndian_lt {bytes : Bytes} (length : bytes.length = 4) : bigEndian bytes < 2 ^ 32 := by
  match bytes, length with
  | [b₀, b₁, b₂, b₃], _ =>
      have h₀ := b₀.toNat_lt
      have h₁ := b₁.toNat_lt
      have h₂ := b₂.toNat_lt
      have h₃ := b₃.toNat_lt
      simp only [bigEndian, List.foldl_cons, List.foldl_nil]
      omega

theorem be32_bigEndian {bytes : Bytes} (length : bytes.length = 4) :
    be32 (bigEndian bytes) = bytes := by
  match bytes, length with
  | [b₀, b₁, b₂, b₃], _ =>
      have h₀ := b₀.toNat_lt
      have h₁ := b₁.toNat_lt
      have h₂ := b₂.toNat_lt
      have h₃ := b₃.toNat_lt
      simp only [be32, bigEndian, List.foldl_cons, List.foldl_nil, List.cons.injEq, and_true,
        ← UInt8.toNat_inj, Nat.toUInt8, UInt8.toNat_ofNat']
      omega

/-! ### FNV-1a -/

/-- `fnv1a64`: 64-bit FNV-1a, with the key zero moved to one. -/
def fnv1a64 (input : Bytes) : UInt64 :=
  let hash := input.foldl (fun hash ch => (hash ^^^ ch.toUInt64) * 1099511628211)
    14695981039346656037
  if hash = 0 then 1 else hash

/-- No source hashes to the key that marks a never used slot. -/
theorem fnv1a64_ne_zero (input : Bytes) : fnv1a64 input ≠ 0 := by
  unfold fnv1a64
  simp only
  split
  · decide
  · assumption

end Word
