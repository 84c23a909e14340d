/-
Numbers of JavaScript and how `parseInt` and `parseFloat` read them.

A string without lone surrogates is the list of its code points. A `Number` is an IEEE 754 double: `toDouble` rounds an exact number to the nearest one, ties to even.
The whole numbers below 2^53 are doubles (`toDouble_natCast`), so `parseInt` reads their digits exactly
(`parseInt_digits`), and `parseFloat` reads the double nearest to a decimal fraction
(`parseFloat_fraction`). A number rounds to at most 1 up to half of the last place of 1 above it
(`toDouble_le_one_iff`).
-/

import Mcoz.Lib.Text
import Mathlib.Data.Int.Log
import Mathlib.Data.Rat.Floor
import Mathlib.Data.List.TakeWhile
import Mathlib.Algebra.Order.Field.Power
import Mathlib.Tactic.Linarith
import Mathlib.Tactic.Positivity

set_option autoImplicit false

namespace Js

/-! ### Numbers -/

/-- A Number. The two zeros are one. -/
inductive Number
  | nan
  | infinite (negative : Bool)
  | finite (value : ℚ)
deriving DecidableEq

/-- The nearest integer, the even one of two. -/
def roundEven (value : ℚ) : ℤ :=
  let rest := value - ⌊value⌋
  if rest < 1 / 2 ∨ rest = 1 / 2 ∧ ⌊value⌋ % 2 = 0 then ⌊value⌋ else ⌊value⌋ + 1

/-- The exponent of the last of the 53 bits of a double of this size; 2^-1074 is the least double. -/
def lastPlace (value : ℚ) : ℤ :=
  max (Int.log 2 |value| - 52) (-1074)

/-- The double nearest to an exact number. -/
def toDouble (value : ℚ) : Number :=
  let rounded := roundEven (value / 2 ^ lastPlace value) * (2 : ℚ) ^ lastPlace value
  if |rounded| < 2 ^ 1024 then .finite rounded else .infinite (value < 0)

theorem roundEven_intCast (value : ℤ) : roundEven value = value := by
  rw [roundEven, Int.floor_intCast]
  exact if_pos (.inl (by simp))

/-- A whole number of at most 53 bits is a double. -/
theorem toDouble_natCast {value : ℕ} (small : value < 2 ^ 53) :
    toDouble value = .finite value := by
  have place : lastPlace value ≤ 0 := by
    have bits : Nat.log 2 value ≤ 52 := by
      by_cases zero : value = 0
      · rw [zero, Nat.log_zero_right]
        exact Nat.zero_le _
      · exact Nat.le_of_lt_succ (Nat.log_lt_of_lt_pow zero small)
    rw [lastPlace, Nat.abs_cast, Int.log_natCast]
    omega
  obtain ⟨shift, exponent⟩ := Int.exists_eq_neg_ofNat place
  have scale : (2 : ℚ) ^ shift ≠ 0 := pow_ne_zero _ two_ne_zero
  have whole : (value : ℚ) / 2 ^ lastPlace value = ((value * 2 ^ shift : ℤ) : ℚ) := by
    rw [exponent, zpow_neg, zpow_natCast, div_inv_eq_mul]
    push_cast
    rfl
  have exact : roundEven (value / 2 ^ lastPlace value) * (2 : ℚ) ^ lastPlace value = value := by
    rw [whole, roundEven_intCast, exponent, zpow_neg, zpow_natCast]
    push_cast
    exact mul_inv_cancel_right₀ scale _
  have bound : |(value : ℚ)| < 2 ^ 1024 := by
    rw [Nat.abs_cast]
    calc (value : ℚ) < 2 ^ 53 := by exact_mod_cast small
      _ ≤ 2 ^ 1024 := by gcongr <;> norm_num
  rw [toDouble]
  simp only [exact, if_pos bound]

/-! ### Rounding -/

/-- A number is rounded to at most an even number exactly if it is at most a half above it. -/
theorem roundEven_le_iff {value : ℚ} {bound : ℤ} (even : bound % 2 = 0) :
    roundEven value ≤ bound ↔ value ≤ bound + 1 / 2 := by
  have below : (⌊value⌋ : ℚ) ≤ value := Int.floor_le value
  have above : value < ⌊value⌋ + 1 := Int.lt_floor_add_one value
  unfold roundEven
  dsimp only
  rcases lt_trichotomy ⌊value⌋ bound with less | same | more
  · have next : (⌊value⌋ : ℚ) + 1 ≤ bound := by exact_mod_cast less
    refine iff_of_true ?_ (by linarith)
    split <;> omega
  · rw [same] at below above ⊢
    by_cases near : value - bound < 1 / 2 ∨ value - bound = 1 / 2 ∧ bound % 2 = 0
    · rw [if_pos near]
      refine iff_of_true le_rfl ?_
      rcases near with near | ⟨near, -⟩ <;> linarith
    · rw [if_neg near]
      rw [not_or, not_lt] at near
      refine iff_of_false (by omega) fun small => near.2 ⟨?_, even⟩
      linarith [near.1]
  · have next : (bound : ℚ) + 1 ≤ ⌊value⌋ := by exact_mod_cast more
    refine iff_of_false ?_ (by linarith)
    split <;> omega

theorem roundEven_nonneg {value : ℚ} (positive : 0 ≤ value) : 0 ≤ roundEven value := by
  have floor : 0 ≤ ⌊value⌋ := Int.floor_nonneg.mpr positive
  unfold roundEven
  dsimp only
  split <;> omega

theorem toDouble_eq_finite {value rounded : ℚ} (finite : toDouble value = .finite rounded) :
    rounded = roundEven (value / 2 ^ lastPlace value) * (2 : ℚ) ^ lastPlace value := by
  unfold toDouble at finite
  dsimp only at finite
  split at finite
  · exact (Number.finite.inj finite).symm
  · cases finite

theorem toDouble_nonneg {value rounded : ℚ} (positive : 0 ≤ value) (finite : toDouble value = .finite rounded) :
    0 ≤ rounded := by
  rw [toDouble_eq_finite finite]
  have scaled : 0 ≤ roundEven (value / 2 ^ lastPlace value) := roundEven_nonneg (by positivity)
  have : (0 : ℚ) ≤ roundEven (value / 2 ^ lastPlace value) := by exact_mod_cast scaled
  positivity

/-- A double whose last place is below the point is at most 1 exactly if the number is at most half of that place
above it. -/
theorem scaled_le_one_iff {value : ℚ} {shift : ℕ} (below : 0 < shift) :
    roundEven (value / 2 ^ (-shift : ℤ)) * (2 : ℚ) ^ (-shift : ℤ) ≤ 1 ↔ value ≤ 1 + 1 / 2 ^ (shift + 1) := by
  have scale : (0 : ℚ) < 2 ^ shift := by positivity
  have even : (2 ^ shift : ℤ) % 2 = 0 := Int.emod_eq_zero_of_dvd (dvd_pow_self 2 below.ne')
  have bound := @roundEven_le_iff (value * 2 ^ shift) _ even
  push_cast at bound
  rw [zpow_neg, zpow_natCast, div_inv_eq_mul, ← div_eq_mul_inv, div_le_one scale]
  have whole : (roundEven (value * 2 ^ shift) : ℚ) ≤ 2 ^ shift ↔ roundEven (value * 2 ^ shift) ≤ 2 ^ shift := by
    exact_mod_cast Iff.rfl
  rw [whole, bound, ← le_div_iff₀ scale, add_div, div_self scale.ne', div_div, pow_succ, mul_comm 2]

/-- The double nearest to a number is at most 1 exactly if the number is at most half of the last place of 1
above it. -/
theorem toDouble_le_one_iff {value rounded : ℚ} (positive : 0 ≤ value) (finite : toDouble value = .finite rounded) :
    rounded ≤ 1 ↔ value ≤ 1 + 1 / 2 ^ 53 := by
  rw [toDouble_eq_finite finite]
  have place : lastPlace value = max (Int.log 2 value - 52) (-1074) := by
    rw [lastPlace, abs_of_nonneg positive]
  rcases lt_or_ge (lastPlace value) 0 with fine | coarse
  · obtain ⟨shift, exponent⟩ := Int.exists_eq_neg_ofNat fine.le
    rw [exponent, scaled_le_one_iff (by omega)]
    rcases le_or_gt value 1 with small | large
    · have rest : (0 : ℚ) < 1 / 2 ^ 53 := by positivity
      have rest' : (0 : ℚ) < 1 / 2 ^ (shift + 1) := by positivity
      exact iff_of_true (by linarith) (by linarith)
    · have least : Int.log 2 (1 : ℚ) ≤ Int.log 2 value := Int.log_mono_right one_pos large.le
      rw [Int.log_one_right] at least
      have whole : Int.log 2 value = 52 - shift := by omega
      rcases Nat.lt_or_ge shift 52 with more | last
      · -- From 2 on, the last place is a larger part of 1.
        have two : (2 : ℚ) ≤ value := by
          have one : (1 : ℤ) ≤ Int.log 2 value := by omega
          simpa using (Int.zpow_le_iff_le_log one_lt_two (one_pos.trans large)).mpr one
        have part {power : ℕ} (nonzero : power ≠ 0) : (1 : ℚ) / 2 ^ power < 1 :=
          (div_lt_one (by positivity)).mpr (one_lt_pow₀ one_lt_two nonzero)
        have here : (1 : ℚ) / 2 ^ (shift + 1) < 1 := part (Nat.succ_ne_zero shift)
        have there : (1 : ℚ) / 2 ^ 53 < 1 := part (by decide)
        exact iff_of_false (by linarith) (by linarith)
      · obtain rfl : shift = 52 := by omega
        rfl
  · have size : Int.log 2 value = lastPlace value + 52 := by omega
    have scale : (1 : ℚ) ≤ 2 ^ lastPlace value := one_le_zpow₀ one_le_two coarse
    have above : 0 < value := by
      rcases positive.eq_or_lt with rfl | above
      · rw [Int.log_zero_right] at size
        omega
      · exact above
    have least : (2 : ℚ) ^ 52 ≤ value / 2 ^ lastPlace value := by
      have all : (2 : ℚ) ^ Int.log 2 value ≤ value := Int.zpow_log_le_self one_lt_two above
      rw [size, zpow_add₀ two_ne_zero, mul_comm] at all
      exact (le_div_iff₀ (one_pos.trans_le scale)).mpr (by exact_mod_cast all)
    refine iff_of_false (fun one => ?_) fun one => ?_
    · have few : roundEven (value / 2 ^ lastPlace value) ≤ 2 := by
        by_contra many
        have three : (3 : ℚ) ≤ roundEven (value / 2 ^ lastPlace value) := by exact_mod_cast not_le.mp many
        have := mul_le_mul three scale zero_le_one (by linarith)
        linarith
      have := (roundEven_le_iff (by decide)).mp few
      norm_num at this least
      linarith
    · have : (2 : ℚ) ^ 52 ≤ value := least.trans (div_le_self positive scale)
      norm_num at this one
      linarith

theorem roundEven_le (value : ℚ) : roundEven value ≤ value + 1 := by
  have below : (⌊value⌋ : ℚ) ≤ value := Int.floor_le value
  unfold roundEven
  dsimp only
  split
  · linarith
  · push_cast
    linarith

/-- A number that is not too large is rounded to a double. -/
theorem toDouble_of_le {value : ℚ} (positive : 0 ≤ value) (small : value ≤ 2 ^ 1022) :
    ∃ rounded, toDouble value = .finite rounded := by
  have scale : (0 : ℚ) < 2 ^ lastPlace value := by positivity
  have place : (2 : ℚ) ^ lastPlace value ≤ value + 1 := by
    rw [lastPlace, abs_of_nonneg positive]
    rcases le_total (Int.log 2 value - 52) (-1074) with tiny | large
    · rw [max_eq_right tiny]
      have : (2 : ℚ) ^ (-1074 : ℤ) ≤ 1 := zpow_le_one_of_nonpos₀ one_le_two (by decide)
      linarith
    · rw [max_eq_left large]
      rcases positive.eq_or_lt with rfl | nonzero
      · rw [Int.log_zero_right, zero_add]
        exact zpow_le_one_of_nonpos₀ one_le_two (by decide)
      · have all : (2 : ℚ) ^ Int.log 2 value ≤ value := Int.zpow_log_le_self one_lt_two nonzero
        have less : (2 : ℚ) ^ (Int.log 2 value - 52) ≤ 2 ^ Int.log 2 value :=
          zpow_le_zpow_right₀ one_le_two (by omega)
        linarith
  have above : roundEven (value / 2 ^ lastPlace value) * (2 : ℚ) ^ lastPlace value ≤ 2 * value + 1 := by
    have scaled := mul_le_mul_of_nonneg_right (roundEven_le (value / 2 ^ lastPlace value)) scale.le
    rw [add_mul, div_mul_cancel₀ _ scale.ne', one_mul] at scaled
    linarith
  have least : 0 ≤ roundEven (value / 2 ^ lastPlace value) * (2 : ℚ) ^ lastPlace value := by
    have whole : (0 : ℚ) ≤ roundEven (value / 2 ^ lastPlace value) := by
      exact_mod_cast roundEven_nonneg (by positivity)
    positivity
  have one : (1 : ℚ) ≤ 2 ^ 1022 := one_le_pow₀ one_le_two
  have top : (2 : ℚ) ^ 1024 = 2 ^ 1022 * 2 ^ 2 := pow_add 2 1022 2
  refine ⟨_, if_pos ?_⟩
  rw [abs_of_nonneg least, top]
  generalize (2 : ℚ) ^ 1022 = large at *
  generalize roundEven (value / 2 ^ lastPlace value) * (2 : ℚ) ^ lastPlace value = rounded at *
  have four : large * 2 ^ 2 = large * 4 := by norm_num
  linarith only [above, small, one, four]

/-! ### Reading numbers -/

/-- White space and line terminators. -/
def isSpace (char : Char) : Bool :=
  [0x09, 0x0A, 0x0B, 0x0C, 0x0D, 0x20, 0xA0, 0x1680, 0x2028, 0x2029, 0x202F, 0x205F, 0x3000,
    0xFEFF].contains char.toNat || (0x2000 ≤ char.toNat && char.toNat ≤ 0x200A)

/-- An optional sign, whether it is a minus, and what follows. -/
def readSign : List Char → Bool × List Char
  | '-' :: rest => (true, rest)
  | '+' :: rest => (false, rest)
  | text => (false, text)

/-- The number that decimal digits spell. -/
def digitsValue (digits : List Char) : ℕ :=
  Nat.ofDigitChars 10 digits 0

/-- The exponent of a decimal literal, zero where there is none. -/
def readExponent : List Char → ℤ
  | mark :: rest =>
      let (negative, text) := readSign rest
      let power : ℤ := digitsValue (text.takeWhile Char.isDigit)
      if mark = 'e' ∨ mark = 'E' then if negative then -power else power else 0
  | [] => 0

/-- The digits after a decimal point, and what follows. -/
def readFraction : List Char → List Char × List Char
  | '.' :: rest => (rest.takeWhile Char.isDigit, rest.dropWhile Char.isDigit)
  | text => ([], text)

/-- `parseInt(text, 10)`. -/
def parseInt (text : List Char) : Number :=
  let (negative, text) := readSign (text.dropWhile isSpace)
  let digits := text.takeWhile Char.isDigit
  if digits = [] then .nan
  else toDouble (if negative then -digitsValue digits else digitsValue digits)

/-- `parseFloat`. -/
def parseFloat (text : List Char) : Number :=
  let (negative, text) := readSign (text.dropWhile isSpace)
  if "Infinity".toList.isPrefixOf text then .infinite negative
  else
    let whole := text.takeWhile Char.isDigit
    let (fraction, rest) := readFraction (text.dropWhile Char.isDigit)
    let value : ℚ := digitsValue (whole ++ fraction) * 10 ^ (readExponent rest - fraction.length)
    if whole ++ fraction = [] then .nan else toDouble (if negative then -value else value)

/-! ### Digits that were printed -/

section Digits

variable {digits rest : List Char}

/-- Digits begin with neither white space nor a sign. -/
theorem readSign_digits (nonempty : digits ≠ []) (decimal : ∀ char ∈ digits, char.isDigit) :
    readSign ((digits ++ rest).dropWhile isSpace) = (false, digits ++ rest) := by
  obtain ⟨first, others, rfl⟩ := List.exists_cons_of_ne_nil nonempty
  have bounds := Text.digit_bounds (decimal first List.mem_cons_self)
  have visible : isSpace first = false := by
    simp only [isSpace, List.contains_eq_mem, List.mem_cons, List.not_mem_nil, or_false]
    have low : (48 : ℕ) ≤ first.toNat := bounds.1
    have high : first.toNat ≤ 57 := bounds.2
    simp only [Bool.or_eq_false_iff, decide_eq_false_iff_not, Bool.and_eq_false_iff]
    omega
  rw [List.cons_append, List.dropWhile_cons_of_neg (by simp [visible])]
  unfold readSign
  split <;> simp_all

theorem takeWhile_digits (decimal : ∀ char ∈ digits, char.isDigit) :
    (digits ++ '.' :: rest).takeWhile Char.isDigit = digits := by
  rw [List.takeWhile_append_of_pos decimal, List.takeWhile_cons_of_neg (by decide),
    List.append_nil]

theorem dropWhile_digits (decimal : ∀ char ∈ digits, char.isDigit) :
    (digits ++ '.' :: rest).dropWhile Char.isDigit = '.' :: rest := by
  rw [List.dropWhile_append_of_pos decimal, List.dropWhile_cons_of_neg (by decide)]

/-- `parseInt` rounds the number that digits spell. -/
theorem parseInt_digits (nonempty : digits ≠ []) (decimal : ∀ char ∈ digits, char.isDigit) :
    parseInt digits = toDouble (digitsValue digits) := by
  have sign : readSign ((digits ++ []).dropWhile isSpace) = (false, digits ++ []) :=
    readSign_digits nonempty decimal
  have every : digits.takeWhile Char.isDigit = digits := List.takeWhile_eq_self_iff.mpr decimal
  rw [List.append_nil] at sign
  rw [parseInt, sign]
  simp only [every, if_neg nonempty, Bool.false_eq_true, if_false]

/-- `parseFloat` rounds the decimal fraction that digits around a point spell. -/
theorem parseFloat_fraction {fraction : List Char} (nonempty : digits ≠ [])
    (decimal : ∀ char ∈ digits, char.isDigit) (decimals : ∀ char ∈ fraction, char.isDigit) :
    parseFloat (digits ++ '.' :: fraction) =
      toDouble (digitsValue (digits ++ fraction) / 10 ^ fraction.length) := by
  have finite : "Infinity".toList.isPrefixOf (digits ++ '.' :: fraction) = false := by
    obtain ⟨first, others, rfl⟩ := List.exists_cons_of_ne_nil nonempty
    have bounds := Text.digit_bounds (decimal first List.mem_cons_self)
    have other : ('I' == first) = false := by
      rw [beq_eq_false_iff_ne]
      rintro rfl
      exact absurd bounds.2 (by decide)
    have letters : "Infinity".toList = 'I' :: "nfinity".toList := by simp
    rw [letters, List.cons_append, List.isPrefixOf_cons_cons, other, Bool.false_and]
  have read : readFraction ('.' :: fraction) = (fraction, []) := by
    rw [readFraction, List.takeWhile_eq_self_iff.mpr decimals,
      List.dropWhile_eq_nil_iff.mpr decimals]
  have exponent : (10 : ℚ) ^ (readExponent [] - fraction.length) = (10 ^ fraction.length)⁻¹ := by
    rw [readExponent, zero_sub, zpow_neg, zpow_natCast]
  have any : digits ++ fraction ≠ [] := List.append_ne_nil_of_left_ne_nil nonempty _
  rw [parseFloat, readSign_digits nonempty decimal]
  simp only [finite, takeWhile_digits decimal, dropWhile_digits decimal, read, exponent,
    if_neg any, Bool.false_eq_true, if_false, div_eq_mul_inv]

end Digits

end Js
