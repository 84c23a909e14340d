/-
Formatted input of a C++ stream.

An operation on a stream that is not good reads nothing, so what is left of a stream is an option: `none` from the
first operation on that has failed, or that has seen the end of the text. `extract` is `operator>>` to an unsigned
word of 64 bits, in base ten or sixteen. A number that is printed in the same base, with zeros before it to any width,
is read back, whatever white space stands before it, as long as what follows cannot belong to it (`extract_numeral`).
`extractLong` is `operator>>` to a signed word, for a caller that reads numbers only (`extractLong_numeral`).
-/

import Mathlib.Data.Nat.Digits.Defs
import Mcoz.Lib.Text

set_option autoImplicit false

namespace Istream

open Word Text

/-! ### Reading -/

/-- `std::dec` and `std::hex`. -/
inductive Base
  | dec
  | hex
deriving DecidableEq

/-- The number of digits of a base. -/
def Base.radix : Base → ℕ
  | .dec => 10
  | .hex => 16

/-- The value of a digit, at most nine or in either case of letters; sixteen for any other character. -/
def digitValue (ch : UInt8) : ℕ :=
  if 48 ≤ ch && ch ≤ 57 then ch.toNat - 48
  else if 97 ≤ ch && ch ≤ 102 then ch.toNat - 87
  else if 65 ≤ ch && ch ≤ 70 then ch.toNat - 55
  else 16

/-- A digit of a base. -/
def Base.isDigit (base : Base) (ch : UInt8) : Bool :=
  digitValue ch < base.radix

/-- The value of digits, the highest first. -/
def Base.value (base : Base) (digits : Bytes) : ℕ :=
  digits.foldl (fun value ch => value * base.radix + digitValue ch) 0

/-- The text after a sign, and whether the sign is a minus. -/
def afterSign : Bytes → Bool × Bytes
  | 45 :: rest => (true, rest)
  | 43 :: rest => (false, rest)
  | rest => (false, rest)

/-- The text after a `0x`, which only a hexadecimal number may begin with. -/
def Base.afterPrefix : Base → Bytes → Bytes
  | .hex, 48 :: 120 :: rest => rest
  | .hex, 48 :: 88 :: rest => rest
  | _, rest => rest

/-- The digits at the head of a text; a number out of range fails. -/
def Base.digits (base : Base) (negative : Bool) (text : Bytes) : Option (UInt64 × Bytes) :=
  let digits := text.takeWhile base.isDigit
  let rest := text.dropWhile base.isDigit
  if digits = [] ∨ rest = [] ∨ 2 ^ 64 ≤ base.value digits then none
  else
    let magnitude := UInt64.ofNat (base.value digits)
    some (if negative then -magnitude else magnitude, rest)

/-- `in >> number`, after white space. -/
def extract (base : Base) (text : Bytes) : Option (UInt64 × Bytes) :=
  let signed := afterSign (text.dropWhile isSpace)
  base.digits signed.1 (base.afterPrefix signed.2)

/-- `in >> number` to a signed word in base ten, after white space. The text may end after the number, since a caller
that reads numbers only finds none in what is left. -/
def extractLong (text : Bytes) : Option (Int64 × Bytes) :=
  let signed := afterSign (text.dropWhile isSpace)
  let digits := signed.2.takeWhile Base.dec.isDigit
  let magnitude : ℤ := Base.dec.value digits
  let value := if signed.1 then -magnitude else magnitude
  if digits = [] ∨ value < -2 ^ 63 ∨ 2 ^ 63 ≤ value then none
  else some (Int64.ofInt value, signed.2.dropWhile Base.dec.isDigit)

/-- `in.get()`, for a caller that goes on after one character only. -/
def expect (wanted : UInt8) : Bytes → Option Bytes
  | [] => none
  | ch :: rest => if ch = wanted then some rest else none

/-- `in.get(buffer, room + 1)`: so many characters of the line. -/
def getChars (room : ℕ) (text : Bytes) : Option (Bytes × Bytes) :=
  let chars := (text.take room).takeWhile (· ≠ 10)
  let rest := text.drop chars.length
  if chars = [] ∨ rest = [] then none else some (chars, rest)

/-- `getline(in, line)`: the line, and the text after it if the line has an end. -/
def getLine (text : Bytes) : Bytes × Option Bytes :=
  (text.takeWhile (· ≠ 10), (text.dropWhile (· ≠ 10)).tail?)

/-! ### Printing -/

/-- A digit, with letters in lower case. -/
def digitChar (digit : ℕ) : UInt8 :=
  (if digit < 10 then 48 + digit else 87 + digit).toUInt8

/-- A number, with zeros before it up to a width. -/
def Base.numeral (base : Base) (width value : ℕ) : Bytes :=
  List.replicate (width - (Nat.digits base.radix value).length) 48 ++
    ((Nat.digits base.radix value).map digitChar).reverse

/-- There are no more things than characters, if each is printed as something. -/
theorem length_le_flatMap {α : Type} {print : α → Bytes} {all : List α} (each : ∀ one ∈ all, print one ≠ []) :
    all.length ≤ (all.flatMap print).length := by
  induction all with
  | nil => exact Nat.le_refl 0
  | cons first later ih =>
      have nonempty : 0 < (print first).length := List.length_pos_of_ne_nil (each first List.mem_cons_self)
      have rest := ih fun one among => each one (List.mem_cons_of_mem _ among)
      rw [List.flatMap_cons, List.length_append, List.length_cons]
      omega

/-! ### What is printed is read -/

theorem digitValue_digitChar : ∀ digit < 16, digitValue (digitChar digit) = digit := by
  decide

/-- A character that ends a number of every base. -/
def Ends (ch : UInt8) : Prop :=
  digitValue ch = 16 ∧ ch ≠ 120 ∧ ch ≠ 88

section Numeral

variable {base : Base} {width value : ℕ} {ch : UInt8} {text rest blanks : Bytes}

theorem Base.radix_bounds : 1 < base.radix ∧ base.radix ≤ 16 := by
  cases base <;> decide

/-- The characters of a number are digits. -/
theorem isDigit_of_mem_numeral (among : ch ∈ base.numeral width value) : base.isDigit ch = true := by
  obtain ⟨low, high⟩ := base.radix_bounds
  rcases List.mem_append.mp among with zero | printed
  · rw [List.eq_of_mem_replicate zero]
    exact decide_eq_true (Nat.lt_of_succ_lt low)
  · obtain ⟨digit, held, rfl⟩ := List.mem_map.mp (List.mem_reverse.mp printed)
    have bound : digit < base.radix := Nat.digits_lt_base low held
    unfold Base.isDigit
    rw [digitValue_digitChar digit (bound.trans_le high)]
    exact decide_eq_true bound

/-- The digits of a number have its value. -/
theorem value_numeral : base.value (base.numeral width value) = value := by
  obtain ⟨low, high⟩ := base.radix_bounds
  have zeros (count : ℕ) : (List.replicate count (48 : UInt8)).foldl
      (fun value ch => value * base.radix + digitValue ch) 0 = 0 := by
    induction count with
    | zero => rfl
    | succ count ih =>
        rw [List.replicate_succ, List.foldl_cons, Nat.zero_mul]
        exact ih
  rw [Base.value, Base.numeral, List.foldl_append, zeros, List.foldl_reverse, List.foldr_map]
  refine Eq.trans ?_ (Nat.ofDigits_digits base.radix value)
  rw [Nat.ofDigits_eq_foldr]
  refine List.foldr_ext _ _ _ fun digit held above => ?_
  rw [digitValue_digitChar digit ((Nat.digits_lt_base low held).trans_le high), Nat.cast_id, Nat.mul_comm,
    Nat.add_comm]

theorem numeral_ne_nil (wide : 0 < width) : base.numeral width value ≠ [] := by
  intro empty
  obtain ⟨zeros, digits⟩ := List.append_eq_nil_iff.mp empty
  have short : Nat.digits base.radix value = [] := List.map_eq_nil_iff.mp (List.reverse_eq_nil_iff.mp digits)
  rw [short] at zeros
  exact absurd ((List.replicate_eq_nil_iff _).mp zeros) (Nat.ne_of_gt wide)

theorem digitValue_space : ∀ ch : Fin 256, isSpace (.ofFin ch) = true → digitValue (.ofFin ch) = 16 := by
  decide +kernel

/-- What may stand at the head of a number is neither white space, nor a sign, nor the letter of a prefix. -/
theorem digit_plain (digit : base.isDigit ch = true) :
    isSpace ch = false ∧ ch ≠ 45 ∧ ch ≠ 43 ∧ ch ≠ 120 ∧ ch ≠ 88 := by
  have below : digitValue ch < 16 := (of_decide_eq_true digit).trans_le base.radix_bounds.2
  have other (kind : UInt8) (value : digitValue kind = 16) : ch ≠ kind := by
    rintro rfl
    exact Nat.ne_of_lt below value
  refine ⟨Bool.eq_false_iff.mpr fun space => ?_, other 45 rfl, other 43 rfl, other 120 rfl, other 88 rfl⟩
  exact Nat.ne_of_lt below (digitValue_space ch.toFin space)

theorem afterSign_of_ne (minus : text.head? ≠ some 45) (plus : text.head? ≠ some 43) :
    afterSign text = (false, text) := by
  unfold afterSign
  split
  · exact absurd rfl minus
  · exact absurd rfl plus
  · rfl

theorem Base.afterPrefix_of_ne (small : text.tail.head? ≠ some 120) (capital : text.tail.head? ≠ some 88) :
    base.afterPrefix text = text := by
  unfold Base.afterPrefix
  split
  · exact absurd rfl small
  · exact absurd rfl capital
  · rfl

/-- The digits before a character that is none. -/
theorem span_digits {digits : Bytes} (each : ∀ ch ∈ digits, base.isDigit ch = true) (ends : base.isDigit ch = false) :
    (digits ++ ch :: rest).takeWhile base.isDigit = digits ∧
      (digits ++ ch :: rest).dropWhile base.isDigit = ch :: rest := by
  constructor
  · rw [List.takeWhile_append_of_pos each, List.takeWhile_cons, ends, if_neg (by decide), List.append_nil]
  · rw [List.dropWhile_append_of_pos each, List.dropWhile_cons, ends, if_neg (by decide)]

/-- Digits are read up to a character that is none. -/
theorem Base.digits_append {digits : Bytes} (nonempty : digits ≠ []) (each : ∀ ch ∈ digits, base.isDigit ch = true)
    (fits : base.value digits < 2 ^ 64) (ends : base.isDigit ch = false) :
    base.digits false (digits ++ ch :: rest) = .some (UInt64.ofNat (base.value digits), ch :: rest) := by
  obtain ⟨taken, left⟩ := @span_digits base ch rest digits each ends
  unfold Base.digits
  rw [taken, left]
  exact if_neg (not_or.mpr ⟨nonempty, not_or.mpr ⟨List.cons_ne_nil ch rest, Nat.not_le.mpr fits⟩⟩)

/-- After white space a printed number begins, without a sign. -/
theorem signed_numeral (blank : ∀ ch ∈ blanks, isSpace ch = true) (wide : 0 < width) :
    afterSign ((blanks ++ (base.numeral width value ++ rest)).dropWhile isSpace) =
      (false, base.numeral width value ++ rest) := by
  obtain ⟨first, later, shape⟩ := List.exists_cons_of_ne_nil (@numeral_ne_nil base width value wide)
  have digit : base.isDigit first = true := isDigit_of_mem_numeral (shape ▸ List.mem_cons_self)
  obtain ⟨space, minus, plus, -⟩ := digit_plain digit
  rw [shape, List.cons_append, List.dropWhile_append_of_pos blank, List.dropWhile_cons, space, if_neg (by decide)]
  exact afterSign_of_ne (fun same => minus (Option.some.inj same)) fun same => plus (Option.some.inj same)

/-- A printed number has no prefix: its second character is a digit, or the one that ends it. -/
theorem afterPrefix_numeral (wide : 0 < width) (ends : Ends ch) :
    base.afterPrefix (base.numeral width value ++ ch :: rest) = base.numeral width value ++ ch :: rest := by
  have each : ∀ ch ∈ base.numeral width value, base.isDigit ch = true := fun _ among => isDigit_of_mem_numeral among
  obtain ⟨first, later, shape⟩ := List.exists_cons_of_ne_nil (@numeral_ne_nil base width value wide)
  rw [shape] at each ⊢
  have second (letter : UInt8) (value : digitValue letter = 16) (ends : ch ≠ letter) :
      (later ++ ch :: rest).head? ≠ some letter := by
    intro same
    cases later with
    | nil => exact ends (Option.some.inj same)
    | cons digit tail =>
        have digit' := each digit (List.mem_cons_of_mem _ List.mem_cons_self)
        rw [Option.some.inj same, Base.isDigit, value] at digit'
        exact absurd (of_decide_eq_true digit') (Nat.not_lt.mpr base.radix_bounds.2)
  exact Base.afterPrefix_of_ne (second 120 rfl ends.2.1) (second 88 rfl ends.2.2)

/-- **A printed number is read back.** -/
theorem extract_numeral (blank : ∀ ch ∈ blanks, isSpace ch = true) (wide : 0 < width) (fits : value < 2 ^ 64)
    (ends : Ends ch) : extract base (blanks ++ (base.numeral width value ++ ch :: rest)) =
      some (UInt64.ofNat value, ch :: rest) := by
  have next : base.isDigit ch = false := decide_eq_false (by
    rw [ends.1]
    exact Nat.not_lt.mpr base.radix_bounds.2)
  have read : base.digits false (base.numeral width value ++ ch :: rest) =
      some (UInt64.ofNat value, ch :: rest) := by
    have counted := @Base.digits_append base ch rest _ (numeral_ne_nil wide) (fun _ => isDigit_of_mem_numeral)
      (by rwa [value_numeral]) next
    rwa [value_numeral] at counted
  unfold extract
  rw [signed_numeral blank wide]
  dsimp only
  rw [afterPrefix_numeral wide ends, read]

/-- **A printed number is read back** to a signed word. -/
theorem extractLong_numeral (blank : ∀ ch ∈ blanks, isSpace ch = true) (wide : 0 < width) (fits : value < 2 ^ 63)
    (ends : Base.dec.isDigit ch = false) :
    extractLong (blanks ++ (Base.dec.numeral width value ++ ch :: rest)) =
      some (Int64.ofInt value, ch :: rest) := by
  obtain ⟨taken, left⟩ := @span_digits .dec ch rest (Base.dec.numeral width value)
    (fun _ => isDigit_of_mem_numeral) ends
  unfold extractLong
  rw [signed_numeral blank wide]
  dsimp only
  rw [taken, left, value_numeral]
  refine if_neg (not_or.mpr ⟨numeral_ne_nil wide, ?_⟩)
  simp only [Bool.false_eq_true, if_false]
  omega

/-- White space holds no number. -/
theorem extractLong_blank (blank : ∀ ch ∈ blanks, isSpace ch = true) : extractLong blanks = none := by
  have left : blanks.dropWhile isSpace = [] := List.dropWhile_eq_nil_iff.mpr blank
  unfold extractLong
  rw [left]
  rfl

/-- So many characters are read, if something follows them. -/
theorem getChars_append (nonempty : text ≠ []) (inside : (10 : UInt8) ∉ text) :
    getChars text.length (text ++ ch :: rest) = some (text, ch :: rest) := by
  have each : ∀ ch ∈ text, decide (ch ≠ 10) = true :=
    fun ch among => decide_eq_true (ne_of_mem_of_not_mem among inside)
  unfold getChars
  rw [List.take_left, List.takeWhile_eq_self_iff.mpr each]
  dsimp only
  rw [List.drop_left]
  exact if_neg (not_or.mpr ⟨nonempty, List.cons_ne_nil ch rest⟩)

/-- A line is read to its end. -/
theorem getLine_line (inside : (10 : UInt8) ∉ text) : getLine (text ++ 10 :: rest) = (text, some rest) := by
  have each : ∀ ch ∈ text, decide (ch ≠ 10) = true :=
    fun ch among => decide_eq_true (ne_of_mem_of_not_mem among inside)
  unfold getLine
  rw [List.takeWhile_append_of_pos each, List.dropWhile_append_of_pos each, List.takeWhile_cons_of_neg (by decide),
    List.dropWhile_cons_of_neg (by decide), List.append_nil]
  rfl

end Numeral

end Istream
