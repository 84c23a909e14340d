/-
JSON texts in ASCII, after RFC 8259.

`decodeString` reads a string literal as the UTF-16 code units that it denotes; `IsJson` is the grammar of
a value with the white space around it. What a text is built from is JSON again (`IsJson.object_fields`,
`IsJson.array_elements`, `isJson_decimal`), and no JSON text holds a control character other than white
space (`IsJson.visible`).
-/

import Mcoz.Lib.Text

set_option autoImplicit false

namespace Json

open Word Text

/-! ### Strings -/

/-- A byte that stands for itself in a string. -/
def isUnescaped (ch : UInt8) : Bool :=
  32 ≤ ch && ch < 128 && ch != 34 && ch != 92

/-- The value of a hexadecimal digit. -/
def hexValue (ch : UInt8) : Option ℕ :=
  if 48 ≤ ch && ch ≤ 57 then some (ch.toNat - 48)
  else if 97 ≤ ch && ch ≤ 102 then some (ch.toNat - 87)
  else if 65 ≤ ch && ch ≤ 70 then some (ch.toNat - 55)
  else none

/-- The code unit of `\u` and four digits. -/
def codeUnit (a b c d : UInt8) : Option ℕ :=
  (hexValue a).bind fun a => (hexValue b).bind fun b => (hexValue c).bind fun c =>
    (hexValue d).map fun d => ((a * 16 + b) * 16 + c) * 16 + d

/-- The character of a two-character escape. -/
def escapeValue (esc : UInt8) : Option ℕ :=
  if esc = 34 ∨ esc = 92 ∨ esc = 47 then some esc.toNat
  else if esc = 98 then some 8
  else if esc = 102 then some 12
  else if esc = 110 then some 10
  else if esc = 114 then some 13
  else if esc = 116 then some 9
  else none

/-- The characters between the quotes of a string. -/
def decodeChars : Bytes → Option (List ℕ)
  | [] => some []
  | ch :: rest =>
      if ch = 92 then
        match rest with
        | [] => none
        | esc :: tail =>
            if esc = 117 then
              match tail with
              | a :: b :: c :: d :: more =>
                  (codeUnit a b c d).bind fun unit => (decodeChars more).map (unit :: ·)
              | _ => none
            else (escapeValue esc).bind fun value => (decodeChars tail).map (value :: ·)
      else if isUnescaped ch then (decodeChars rest).map (ch.toNat :: ·)
      else none

/-- A string literal: a quote, its characters and a quote. -/
def decodeString : Bytes → Option (List ℕ)
  | 34 :: rest => if rest.getLast? = some 34 then decodeChars rest.dropLast else none
  | _ => none

theorem decodeString_quoted (chars : Bytes) :
    decodeString (34 :: (chars ++ [34])) = decodeChars chars := by
  rw [decodeString, List.getLast?_concat, if_pos rfl, List.dropLast_concat]

/-! ### Values -/

/-- White space. -/
def isBlank (ch : UInt8) : Bool :=
  ch == 32 || ch == 9 || ch == 10 || ch == 13

/-- A number: a sign, an integer without leading zeros, a fraction and an exponent. -/
structure IsNumber (text sign int frac exp : Bytes) : Prop where
  shape : text = sign ++ (int ++ (frac ++ exp))
  sign : sign = [] ∨ sign = [45]
  int : int = [48] ∨ (int.head? ≠ some 48 ∧ int ≠ [] ∧ ∀ ch ∈ int, isDigit ch = true)
  frac : frac = [] ∨ ∃ digits, frac = 46 :: digits ∧ digits ≠ [] ∧ ∀ ch ∈ digits, isDigit ch = true
  exp : exp = [] ∨ ∃ mark sign digits, exp = mark :: (sign ++ digits) ∧ (mark = 101 ∨ mark = 69) ∧
    (sign = [] ∨ sign = [43] ∨ sign = [45]) ∧ digits ≠ [] ∧ ∀ ch ∈ digits, isDigit ch = true

/-- A string literal with the white space around it. -/
def IsKey (text : Bytes) : Prop :=
  ∃ before literal after, text = before ++ (literal ++ after) ∧ (∀ ch ∈ before, isBlank ch = true) ∧
    (∀ ch ∈ after, isBlank ch = true) ∧ (decodeString literal).isSome

/-- A value with the white space around it, which is what a JSON text is. -/
inductive IsJson : Bytes → Prop
  | pad {before text after : Bytes} (left : ∀ ch ∈ before, isBlank ch = true)
      (right : ∀ ch ∈ after, isBlank ch = true) (value : IsJson text) :
      IsJson (before ++ (text ++ after))
  | word {text : Bytes} (named : text = ascii "true" ∨ text = ascii "false" ∨ text = ascii "null") :
      IsJson text
  | number {text sign int frac exp : Bytes} (parts : IsNumber text sign int frac exp) : IsJson text
  | string {text : Bytes} (decoded : (decodeString text).isSome) : IsJson text
  | emptyArray {blank : Bytes} (white : ∀ ch ∈ blank, isBlank ch = true) :
      IsJson (91 :: (blank ++ [93]))
  | array {elements : List Bytes} (each : ∀ element ∈ elements, IsJson element)
      (nonempty : elements ≠ []) : IsJson (91 :: ([44].intercalate elements ++ [93]))
  | emptyObject {blank : Bytes} (white : ∀ ch ∈ blank, isBlank ch = true) :
      IsJson (123 :: (blank ++ [125]))
  | object {members : List (Bytes × Bytes)} (keys : ∀ member ∈ members, IsKey member.1)
      (values : ∀ member ∈ members, IsJson member.2) (nonempty : members ≠ []) :
      IsJson (123 :: ([44].intercalate (members.map fun member => member.1 ++ 58 :: member.2) ++ [125]))

/-! ### Building texts -/

/-- A member of an object: a key, a colon and a value. -/
def IsMember (text : Bytes) : Prop :=
  ∃ key value, text = key ++ 58 :: value ∧ IsKey key ∧ IsJson value

/-- A literal alone is a key. -/
theorem isKey_literal {literal : Bytes} (decoded : (decodeString literal).isSome) :
    IsKey literal :=
  ⟨[], literal, [], by simp, by simp, by simp, decoded⟩

theorem IsJson.object_fields {fields : List Bytes} (each : ∀ field ∈ fields, IsMember field)
    (nonempty : fields ≠ []) : IsJson (123 :: ([44].intercalate fields ++ [125])) := by
  have members : ∃ members : List (Bytes × Bytes),
      members.map (fun member => member.1 ++ 58 :: member.2) = fields ∧
      (∀ member ∈ members, IsKey member.1) ∧ ∀ member ∈ members, IsJson member.2 := by
    clear nonempty
    induction fields with
    | nil => exact ⟨[], rfl, by simp, by simp⟩
    | cons field rest ih =>
        obtain ⟨members, same, keys, values⟩ := ih fun other among =>
          each other (List.mem_cons_of_mem field among)
        obtain ⟨key, value, rfl, isKey, isValue⟩ := each field List.mem_cons_self
        refine ⟨(key, value) :: members, by rw [List.map_cons, same], ?_, ?_⟩
        · intro member among
          rcases List.mem_cons.mp among with rfl | later
          · exact isKey
          · exact keys member later
        · intro member among
          rcases List.mem_cons.mp among with rfl | later
          · exact isValue
          · exact values member later
  obtain ⟨members, rfl, keys, values⟩ := members
  exact .object keys values fun empty => nonempty (by rw [empty]; rfl)

/-- Elements between brackets, also none. -/
theorem IsJson.array_elements {elements : List Bytes} (each : ∀ element ∈ elements, IsJson element) :
    IsJson (91 :: ([44].intercalate elements ++ [93])) := by
  by_cases empty : elements = []
  · subst empty
    exact .emptyArray fun _ member => absurd member List.not_mem_nil
  · exact .array each empty

/-- Printed digits have no leading zero, but for zero itself. -/
theorem decimal_head (value : ℕ) : decimal value = [48] ∨ (decimal value).head? ≠ some 48 := by
  induction value using Nat.strong_induction_on with
  | _ value ih =>
      by_cases small : value < 10
      · have all : ∀ value < 10, decimal value = [48] ∨ (decimal value).head? ≠ some 48 := by
          decide
        exact all value small
      · have split : decimal value = decimal (value / 10) ++ decimal (value % 10) := by
          rw [decimal, Nat.toDigits_of_base_le (by decide) (not_lt.mp small), List.map_append,
            ← Nat.toDigits_of_lt_base (b := 10) (Nat.mod_lt value (by decide))]
          rfl
        right
        rw [split, List.head?_append_of_ne_nil _ (decimal_ne_nil _)]
        rcases ih (value / 10) (by omega) with zero | other
        · have digits := digitsValue_decimal (value / 10)
          rw [zero, show digitsValue [48] = 0 from rfl] at digits
          omega
        · exact other

/-- A printed integer is a number. -/
theorem isJson_decimal {sign : Bytes} (signed : sign = [] ∨ sign = [45]) (value : ℕ) :
    IsJson (sign ++ decimal value) := by
  refine @IsJson.number _ sign (decimal value) [] [] ⟨by simp, signed, ?_, .inl rfl, .inl rfl⟩
  rcases decimal_head value with zero | other
  · exact .inl zero
  · exact .inr ⟨other, decimal_ne_nil value, fun _ => isDigit_of_mem_decimal⟩

/-! ### Characters of a text -/

/-- A byte that may stand in a JSON text: no control character other than white space. -/
def isVisible (ch : UInt8) : Bool :=
  32 ≤ ch || isBlank ch

theorem isVisible_of_le {ch : UInt8} (visible : 32 ≤ ch) : isVisible ch = true := by
  rw [isVisible, decide_eq_true visible, Bool.true_or]

theorem hexValue_le {ch : UInt8} {value : ℕ} (digit : hexValue ch = some value) : 32 ≤ ch := by
  have high : ∀ {low : UInt8}, 32 ≤ low → low ≤ ch → 32 ≤ ch := UInt8.le_trans
  revert digit
  unfold hexValue
  split
  · rename_i decimal
    exact fun _ => high (by decide) (of_decide_eq_true (Bool.and_eq_true_iff.mp decimal).1)
  · split
    · rename_i lower
      exact fun _ => high (by decide) (of_decide_eq_true (Bool.and_eq_true_iff.mp lower).1)
    · split
      · rename_i upper
        exact fun _ => high (by decide) (of_decide_eq_true (Bool.and_eq_true_iff.mp upper).1)
      · intro digit
        cases digit

theorem codeUnit_le {a b c d : UInt8} {unit : ℕ} (digits : codeUnit a b c d = some unit) :
    ∀ ch ∈ [a, b, c, d], 32 ≤ ch := by
  obtain ⟨_, first, rest⟩ := Option.bind_eq_some_iff.mp digits
  obtain ⟨_, second, rest⟩ := Option.bind_eq_some_iff.mp rest
  obtain ⟨_, third, rest⟩ := Option.bind_eq_some_iff.mp rest
  obtain ⟨_, fourth, _⟩ := Option.map_eq_some_iff.mp rest
  simp only [List.mem_cons, List.not_mem_nil, or_false]
  rintro ch (rfl | rfl | rfl | rfl)
  · exact hexValue_le first
  · exact hexValue_le second
  · exact hexValue_le third
  · exact hexValue_le fourth

theorem escapeValue_le {esc : UInt8} {value : ℕ} (known : escapeValue esc = some value) :
    32 ≤ esc := by
  by_contra low
  have other : ∀ ch : UInt8, 32 ≤ ch → esc ≠ ch := by
    rintro ch high rfl
    exact low high
  rw [escapeValue, if_neg (by simp [other]), if_neg (other 98 (by decide)),
    if_neg (other 102 (by decide)), if_neg (other 110 (by decide)), if_neg (other 114 (by decide)),
    if_neg (other 116 (by decide))] at known
  cases known

theorem le_of_all {text : Bytes} (all : text.all (fun ch => 32 ≤ ch) = true) :
    ∀ ch ∈ text, 32 ≤ ch :=
  fun ch member => of_decide_eq_true (List.all_eq_true.mp all ch member)

/-- The characters of a string hold no control character at all. -/
theorem decodeChars_le {text : Bytes} {units : List ℕ} (decoded : decodeChars text = some units) :
    ∀ ch ∈ text, 32 ≤ ch := by
  fun_induction decodeChars text generalizing units with
  | case1 => exact fun _ member => absurd member List.not_mem_nil
  | case2 => cases decoded
  | case3 a b c d more ih =>
      obtain ⟨unit, digits, rest⟩ := Option.bind_eq_some_iff.mp decoded
      obtain ⟨units, later, _⟩ := Option.map_eq_some_iff.mp rest
      have high := codeUnit_le digits
      simp only [List.forall_mem_cons] at high ⊢
      exact ⟨by decide, by decide, high.1, high.2.1, high.2.2.1, high.2.2.2.1, ih later⟩
  | case4 => cases decoded
  | case5 esc tail _ ih =>
      obtain ⟨value, known, rest⟩ := Option.bind_eq_some_iff.mp decoded
      obtain ⟨units, later, _⟩ := Option.map_eq_some_iff.mp rest
      simp only [List.forall_mem_cons]
      exact ⟨by decide, escapeValue_le known, ih later⟩
  | case6 ch rest _ plain ih =>
      obtain ⟨units, later, _⟩ := Option.map_eq_some_iff.mp decoded
      simp only [isUnescaped, Bool.and_eq_true, decide_eq_true_eq] at plain
      exact List.forall_mem_cons.mpr ⟨plain.1.1.1, ih later⟩
  | case7 => cases decoded

/-- What holds of two brackets and of all between them. -/
theorem forall_enclosed {holds : UInt8 → Prop} {first last : UInt8} {inner : Bytes}
    (left : holds first) (inside : ∀ ch ∈ inner, holds ch) (right : holds last) :
    ∀ ch ∈ first :: (inner ++ [last]), holds ch :=
  List.forall_mem_cons.mpr
    ⟨left, List.forall_mem_append.mpr ⟨inside, List.forall_mem_singleton.mpr right⟩⟩

theorem decodeString_le {text : Bytes} (decoded : (decodeString text).isSome) :
    ∀ ch ∈ text, 32 ≤ ch := by
  revert decoded
  fun_cases decodeString text with
  | case1 rest closed =>
      intro decoded
      obtain ⟨units, decoded⟩ := Option.isSome_iff_exists.mp decoded
      obtain ⟨chars, rfl⟩ := List.getLast?_eq_some_iff.mp closed
      rw [List.dropLast_concat] at decoded
      exact forall_enclosed (by decide) (decodeChars_le decoded) (by decide)
  | case2 => exact fun decoded => absurd decoded Bool.false_ne_true
  | case3 => exact fun decoded => absurd decoded Bool.false_ne_true

theorem digit_le {ch : UInt8} (digit : isDigit ch = true) : 32 ≤ ch := by
  rw [isDigit, Bool.and_eq_true, decide_eq_true_eq] at digit
  exact UInt8.le_trans (by decide) digit.1

theorem IsNumber.le {text sign int frac exp : Bytes} (parts : IsNumber text sign int frac exp) :
    ∀ ch ∈ text, 32 ≤ ch := by
  obtain ⟨rfl, signed, whole, fraction, power⟩ := parts
  have digits : ∀ {digits : Bytes}, (∀ ch ∈ digits, isDigit ch = true) → ∀ ch ∈ digits, 32 ≤ ch :=
    fun all ch member => digit_le (all ch member)
  simp only [List.forall_mem_append]
  refine ⟨?_, ?_, ?_, ?_⟩
  · rcases signed with rfl | rfl <;> exact le_of_all (by decide)
  · rcases whole with rfl | ⟨_, _, all⟩
    · exact le_of_all (by decide)
    · exact digits all
  · rcases fraction with rfl | ⟨_, rfl, _, all⟩
    · exact le_of_all (by decide)
    · exact List.forall_mem_cons.mpr ⟨by decide, digits all⟩
  · rcases power with rfl | ⟨mark, sign, _, rfl, marked, signed, _, all⟩
    · exact le_of_all (by decide)
    · simp only [List.forall_mem_cons, List.forall_mem_append]
      refine ⟨?_, ?_, digits all⟩
      · rcases marked with rfl | rfl <;> decide
      · rcases signed with rfl | rfl | rfl <;> exact le_of_all (by decide)

theorem visible_of_le {text : Bytes} (high : ∀ ch ∈ text, 32 ≤ ch) :
    ∀ ch ∈ text, isVisible ch = true :=
  fun ch member => isVisible_of_le (high ch member)

theorem visible_of_blank {text : Bytes} (blank : ∀ ch ∈ text, isBlank ch = true) :
    ∀ ch ∈ text, isVisible ch = true := by
  intro ch member
  rw [isVisible, blank ch member, Bool.or_true]

theorem IsKey.visible {text : Bytes} (key : IsKey text) : ∀ ch ∈ text, isVisible ch = true := by
  obtain ⟨before, literal, after, rfl, left, right, decoded⟩ := key
  simp only [List.forall_mem_append]
  exact ⟨visible_of_blank left, visible_of_le (decodeString_le decoded), visible_of_blank right⟩

/-- Joined parts are visible with their parts. -/
theorem visible_intercalate {parts : List Bytes}
    (each : ∀ part ∈ parts, ∀ ch ∈ part, isVisible ch = true) :
    ∀ ch ∈ [44].intercalate parts, isVisible ch = true := by
  induction parts with
  | nil => exact fun _ among => absurd among List.not_mem_nil
  | cons part rest ih =>
      have later := ih fun other among => each other (List.mem_cons_of_mem part among)
      have here := each part List.mem_cons_self
      by_cases last : rest = []
      · subst last
        rw [List.intercalate_singleton]
        exact here
      · rw [List.intercalate_cons_of_ne_nil last]
        simp only [List.forall_mem_append]
        exact ⟨⟨here, List.all_eq_true.mp (by decide)⟩, later⟩

/-- A JSON text holds no control character other than white space. -/
theorem IsJson.visible {text : Bytes} (json : IsJson text) : ∀ ch ∈ text, isVisible ch = true := by
  induction json with
  | pad left right _ ih =>
      simp only [List.forall_mem_append]
      exact ⟨visible_of_blank left, ih, visible_of_blank right⟩
  | word named => rcases named with rfl | rfl | rfl <;> exact List.all_eq_true.mp (by decide)
  | number parts => exact visible_of_le parts.le
  | string decoded => exact visible_of_le (decodeString_le decoded)
  | emptyArray white => exact forall_enclosed (by decide) (visible_of_blank white) (by decide)
  | array _ _ ih => exact forall_enclosed (by decide) (visible_intercalate ih) (by decide)
  | emptyObject white => exact forall_enclosed (by decide) (visible_of_blank white) (by decide)
  | object keys _ _ ih =>
      refine forall_enclosed (by decide) (visible_intercalate fun part among => ?_) (by decide)
      obtain ⟨member, inside, rfl⟩ := List.mem_map.mp among
      simp only [List.forall_mem_cons, List.forall_mem_append]
      exact ⟨(keys member inside).visible, by decide, ih member inside⟩

end Json
