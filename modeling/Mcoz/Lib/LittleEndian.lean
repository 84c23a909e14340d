/-
Numbers in memory, the least significant byte first.

`load` reads a number from so many bytes. Bytes that lie in memory one after the other are `Lies`, and a number that
lies there is read back: `load_encode`.
-/

import Mathlib.Algebra.Ring.Nat

set_option autoImplicit false

namespace LittleEndian

variable {memory : UInt64 → UInt8} {address : UInt64} {first second : List UInt8} {width value : ℕ}

/-- So many bytes of a number. -/
def encode : ℕ → ℕ → List UInt8
  | 0, _ => []
  | width + 1, value => UInt8.ofNat value :: encode width (value / 256)

@[simp] theorem length_encode : (encode width value).length = width := by
  induction width generalizing value with
  | zero => rfl
  | succ width ih => rw [encode, List.length_cons, ih]

/-- The number in so many bytes from an address on. -/
def load (memory : UInt64 → UInt8) (address : UInt64) : ℕ → ℕ
  | 0 => 0
  | width + 1 => (memory address).toNat + 256 * load memory (address + 1) width

/-- The bytes lie in memory, from an address on. -/
def Lies (memory : UInt64 → UInt8) : UInt64 → List UInt8 → Prop
  | _, [] => True
  | address, byte :: rest => memory address = byte ∧ Lies memory (address + 1) rest

instance decidableLies : (address : UInt64) → (bytes : List UInt8) → Decidable (Lies memory address bytes)
  | _, [] => isTrue trivial
  | address, byte :: rest => @instDecidableAnd (memory address = byte) _ _ (decidableLies (address + 1) rest)

theorem lies_append : Lies memory address (first ++ second) ↔
    Lies memory address first ∧ Lies memory (address + UInt64.ofNat first.length) second := by
  induction first generalizing address with
  | nil => simp [Lies]
  | cons byte rest ih =>
      have next : address + UInt64.ofNat (byte :: rest).length = address + 1 + UInt64.ofNat rest.length := by
        rw [List.length_cons, UInt64.ofNat_add, UInt64.add_comm (UInt64.ofNat rest.length), ← UInt64.add_assoc]
        rfl
      rw [List.cons_append, Lies, Lies, ih, and_assoc, next]

/-- **A number that lies in memory** is read back, as far as the bytes go. -/
theorem load_encode (lies : Lies memory address (encode width value)) :
    load memory address width = value % 256 ^ width := by
  induction width generalizing address value with
  | zero => rw [load, Nat.pow_zero, Nat.mod_one]
  | succ width ih =>
      rw [encode, Lies] at lies
      rw [load, lies.1, ih lies.2, UInt8.toNat_ofNat']
      show value % 256 + 256 * (value / 256 % 256 ^ width) = value % 256 ^ (width + 1)
      rw [Nat.pow_succ', Nat.mod_mul]

end LittleEndian
