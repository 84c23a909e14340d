/-
UTF-8 with replacement characters.

`decode` reads bytes as UTF-8 and puts U+FFFD for what is not UTF-8: one replacement character for the
longest beginning of a character that breaks off, else one for a byte. What `encode` writes it reads
back (`decode_encode`).
-/

import Mathlib.Data.Nat.Notation

set_option autoImplicit false

namespace Utf8

/-- The UTF-8 encoding of a text. -/
def encode (text : List Char) : List UInt8 :=
  text.flatMap String.utf8EncodeChar

/-- A byte that continues a character. -/
def isContinuation (byte : UInt8) : Bool :=
  0x80 ≤ byte && byte ≤ 0xBF

/-- The second byte of a character of three or four bytes: no overlong form, no surrogate, no code
point above U+10FFFF. -/
def isSecond (lead second : UInt8) : Bool :=
  isContinuation second && (lead != 0xE0 || 0xA0 ≤ second) && (lead != 0xED || second ≤ 0x9F) &&
    (lead != 0xF0 || 0x90 ≤ second) && (lead != 0xF4 || second ≤ 0x8F)

/-- The number of bytes that one replacement character stands for, where no character begins. -/
def broken : List UInt8 → ℕ
  | lead :: second :: rest =>
      if 0xE0 ≤ lead ∧ lead ≤ 0xF4 ∧ isSecond lead second then
        if 0xF0 ≤ lead ∧ rest.head?.any isContinuation then 3 else 2
      else 1
  | _ => 1

theorem broken_pos (bytes : List UInt8) : 0 < broken bytes := by
  fun_cases broken bytes <;> simp_all

/-- The character at the beginning of the bytes, if there is one. -/
def firstChar (bytes : List UInt8) : Option Char :=
  bytes.toByteArray.utf8DecodeChar? 0

/-- The text that the bytes encode, with replacement characters. -/
def decode : List UInt8 → List Char
  | [] => []
  | byte :: rest =>
      match firstChar (byte :: rest) with
      | some char => char :: decode ((byte :: rest).drop char.utf8Size)
      | none => '\uFFFD' :: decode ((byte :: rest).drop (broken (byte :: rest)))
termination_by bytes => bytes.length
decreasing_by
  · have positive := char.utf8Size_pos
    simp only [List.length_drop, List.length_cons]
    omega
  · have positive := broken_pos (byte :: rest)
    simp only [List.length_drop, List.length_cons]
    omega

theorem firstChar_encode (char : Char) (rest : List UInt8) :
    firstChar (String.utf8EncodeChar char ++ rest) = some char := by
  rw [firstChar, List.toByteArray_append]
  exact ByteArray.utf8DecodeChar?_utf8EncodeChar_append

theorem decode_char (char : Char) (rest : List UInt8) :
    decode (String.utf8EncodeChar char ++ rest) = char :: decode rest := by
  have first := firstChar_encode char rest
  have length := String.length_utf8EncodeChar char
  have shorter : (String.utf8EncodeChar char ++ rest).drop char.utf8Size = rest := by
    rw [← length, List.drop_left]
  cases shape : String.utf8EncodeChar char ++ rest with
  | nil => exact absurd (List.append_eq_nil_iff.mp shape).1 String.utf8EncodeChar_ne_nil
  | cons byte tail =>
      rw [shape] at first shorter
      rw [decode, first]
      simp only [shorter]

/-- What was encoded is read back. -/
theorem decode_encode (text : List Char) : decode (encode text) = text := by
  induction text with
  | nil => rw [encode, List.flatMap_nil, decode]
  | cons char rest ih =>
      rw [encode, List.flatMap_cons, decode_char]
      exact congrArg (char :: ·) ih

/-! ### ASCII bytes among others -/

/-- The byte of an ASCII character. -/
def asciiByte (char : Char) : UInt8 :=
  char.toNat.toUInt8

theorem encode_ascii {char : Char} (small : char.toNat < 128) :
    String.utf8EncodeChar char = [asciiByte char] :=
  if_pos (Nat.le_of_lt_succ small)

theorem encode_append (before after : List Char) :
    encode (before ++ after) = encode before ++ encode after :=
  List.flatMap_append

/-- ASCII text is encoded character by character. -/
theorem encode_of_ascii {text : List Char} (small : ∀ char ∈ text, char.toNat < 128) :
    encode text = text.map asciiByte := by
  induction text with
  | nil => rfl
  | cons char text ih =>
      rw [encode, List.flatMap_cons, encode_ascii (small char List.mem_cons_self), List.map_cons,
        ← ih fun other among => small other (List.mem_cons_of_mem char among)]
      rfl

/-- The bytes of a character after its first are not ASCII. -/
theorem tail_encode {char : Char} {byte : UInt8}
    (later : byte ∈ (String.utf8EncodeChar char).tail) : 128 ≤ byte.toNat := by
  have high : ∀ {value : ℕ}, 128 ≤ value → value < 256 → 128 ≤ (UInt8.ofNat value).toNat := by
    intro value low bound
    rw [UInt8.toNat_ofNat', Nat.mod_eq_of_lt bound]
    exact low
  revert later
  unfold String.utf8EncodeChar
  dsimp only
  split
  · simp
  · split
    · simp only [List.tail_cons, List.mem_singleton]
      rintro rfl
      exact high (by omega) (by omega)
    · split
      · simp only [List.tail_cons, List.mem_cons, List.not_mem_nil, or_false]
        rintro (rfl | rfl) <;> exact high (by omega) (by omega)
      · simp only [List.tail_cons, List.mem_cons, List.not_mem_nil, or_false]
        rintro (rfl | rfl | rfl) <;> exact high (by omega) (by omega)

/-- A character at the beginning of the bytes. -/
theorem firstChar_eq_some {bytes : List UInt8} {char : Char} :
    firstChar bytes = some char ↔ ∃ rest, bytes = String.utf8EncodeChar char ++ rest := by
  constructor
  · intro first
    obtain ⟨rest, shape⟩ := ByteArray.exists_of_utf8DecodeChar?_eq_some first
    refine ⟨rest.data.toList, ?_⟩
    have lists := congrArg (fun array : ByteArray => array.data.toList) shape
    simpa using lists
  · rintro ⟨rest, rfl⟩
    exact firstChar_encode char rest

section Ascii

variable {bytes rest : List UInt8} {byte : UInt8}

/-- An ASCII byte does not take part in a character that begins before it. -/
theorem firstChar_append (nonempty : bytes ≠ []) (small : byte.toNat < 128) :
    firstChar (bytes ++ byte :: rest) = firstChar bytes := by
  have whole {char : Char} {after : List UInt8} (shape : bytes = String.utf8EncodeChar char ++ after) :
      firstChar (bytes ++ byte :: rest) = some char := by
    rw [shape, List.append_assoc]
    exact firstChar_encode char _
  cases first : firstChar bytes with
  | some char =>
      obtain ⟨after, shape⟩ := firstChar_eq_some.mp first
      exact whole shape
  | none =>
      rw [Option.eq_none_iff_forall_ne_some]
      intro char longer
      obtain ⟨after, shape⟩ := firstChar_eq_some.mp longer
      rcases List.append_eq_append_iff.mp shape with ⟨left, same, other⟩ | ⟨left, same, -⟩
      · cases left with
        | nil =>
            have found := firstChar_encode char []
            rw [same, List.append_nil, List.append_nil, first] at found
            cases found
        | cons head left =>
            -- the byte would continue the character
            obtain ⟨lead, before, rfl⟩ := List.exists_cons_of_ne_nil nonempty
            have there : byte ∈ (String.utf8EncodeChar char).tail := by
              rw [same, List.cons_append, List.tail_cons]
              exact List.mem_append_right before (by simp_all)
            exact absurd (tail_encode there) (Nat.not_le_of_lt small)
      · have found := firstChar_encode char left
        rw [← same, first] at found
        cases found

theorem isContinuation_ascii (small : byte.toNat < 128) : isContinuation byte = false := by
  have low : ¬ (0x80 : UInt8) ≤ byte := by
    rw [UInt8.le_iff_toNat_le]
    exact Nat.not_le_of_lt small
  simp [isContinuation, low]

/-- Nor in a broken one. -/
theorem broken_append (nonempty : bytes ≠ []) (small : byte.toNat < 128) :
    broken (bytes ++ byte :: rest) = broken bytes := by
  have next := isContinuation_ascii small
  match bytes, nonempty with
  | [lead], _ => simp [broken, isSecond, next]
  | [lead, second], _ => simp [broken, next]
  | lead :: second :: third :: after, _ => rfl

theorem broken_le (nonempty : bytes ≠ []) : broken bytes ≤ bytes.length := by
  match bytes, nonempty with
  | [lead], _ => simp [broken]
  | lead :: second :: after, _ =>
      cases after <;> simp only [broken, List.length_cons, List.head?_nil, Option.any_none] <;> grind

/-- Bytes are decoded in parts where an ASCII byte begins the second part. -/
theorem decode_append (bytes : List UInt8) (small : byte.toNat < 128) :
    decode (bytes ++ byte :: rest) = decode bytes ++ decode (byte :: rest) := by
  induction size : bytes.length using Nat.strongRecOn generalizing bytes with
  | ind length ih =>
      cases bytes with
      | nil => rw [decode, List.nil_append, List.nil_append]
      | cons lead after =>
          have first : firstChar (lead :: after ++ byte :: rest) = firstChar (lead :: after) :=
            firstChar_append (List.cons_ne_nil lead after) small
          have part {count : ℕ} (positive : 0 < count) (within : count ≤ (lead :: after).length) :
              decode ((lead :: after ++ byte :: rest).drop count) =
                decode ((lead :: after).drop count) ++ decode (byte :: rest) := by
            rw [List.drop_append_of_le_length within]
            exact ih _ (by simp only [List.length_drop]; omega) _ rfl
          rw [List.cons_append] at first part ⊢
          rw [decode, decode, first]
          cases found : firstChar (lead :: after) with
          | some char =>
              obtain ⟨left, shape⟩ := firstChar_eq_some.mp found
              have within : char.utf8Size ≤ (lead :: after).length := by
                rw [shape, List.length_append, String.length_utf8EncodeChar]
                exact Nat.le_add_right _ _
              simp only [part char.utf8Size_pos within, List.cons_append]
          | none =>
              have same : broken (lead :: after ++ byte :: rest) = broken (lead :: after) :=
                broken_append (List.cons_ne_nil lead after) small
              rw [List.cons_append] at same
              simp only [same, part (broken_pos _) (broken_le (List.cons_ne_nil lead after)),
                List.cons_append]

/-- The same where the second part is empty. -/
theorem decode_append_of_head {after : List UInt8} (bytes : List UInt8)
    (small : ∀ byte ∈ after.head?, byte.toNat < 128) :
    decode (bytes ++ after) = decode bytes ++ decode after := by
  cases after with
  | nil => rw [List.append_nil, decode, List.append_nil]
  | cons byte rest => exact decode_append bytes (small byte rfl)

/-- ASCII text among other bytes is decoded to itself. -/
theorem decode_ascii {text : List Char} (small : ∀ char ∈ text, char.toNat < 128) :
    decode (text.map asciiByte ++ rest) = text ++ decode rest := by
  induction text with
  | nil => rfl
  | cons char text ih =>
      have head := encode_ascii (small char List.mem_cons_self)
      have here := decode_char char (text.map asciiByte ++ rest)
      rw [head] at here
      rw [List.map_cons, List.cons_append, List.cons_append,
        ← ih fun other among => small other (List.mem_cons_of_mem char among)]
      exact here

theorem decode_map_ascii {text : List Char} (small : ∀ char ∈ text, char.toNat < 128) :
    decode (text.map asciiByte) = text := by
  rw [← encode_of_ascii small, decode_encode]

/-- An ASCII character is decoded from its byte only. -/
theorem mem_decode_ascii {char : Char} (small : char.toNat < 128) :
    char ∈ decode bytes ↔ asciiByte char ∈ bytes := by
  constructor
  · induction size : bytes.length using Nat.strongRecOn generalizing bytes with
    | ind length ih =>
        intro among
        cases bytes with
        | nil =>
            rw [decode] at among
            cases among
        | cons lead after =>
            have later {count : ℕ} (positive : 0 < count)
                (there : char ∈ decode ((lead :: after).drop count)) :
                asciiByte char ∈ lead :: after :=
              List.mem_of_mem_drop (ih _ (by simp only [List.length_drop]; simp_all; omega) rfl there)
            rw [decode] at among
            cases first : firstChar (lead :: after) with
            | some found =>
                simp only [first, List.mem_cons] at among
                rcases among with rfl | there
                · obtain ⟨left, shape⟩ := firstChar_eq_some.mp first
                  rw [shape, encode_ascii small]
                  exact List.mem_cons_self
                · exact later found.utf8Size_pos there
            | none =>
                simp only [first, List.mem_cons] at among
                rcases among with rfl | there
                · exact absurd small (by decide)
                · exact later (broken_pos _) there
  · intro among
    obtain ⟨before, after, rfl⟩ := List.append_of_mem among
    have whole := decode_char char after
    rw [encode_ascii small] at whole
    have low : (asciiByte char).toNat < 128 := by
      rw [asciiByte, Nat.toUInt8, UInt8.toNat_ofNat', Nat.mod_eq_of_lt (by omega)]
      exact small
    rw [decode_append before low]
    refine List.mem_append_right _ ?_
    rw [show asciiByte char :: after = [asciiByte char] ++ after from rfl, whole]
    exact List.mem_cons_self

end Ascii

end Utf8
