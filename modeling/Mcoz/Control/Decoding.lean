/-
What the daemon reads in the JSON of the control API.

The daemon's reader takes an escaped character for the character after the backslash and knows no
`\u`, so it reads such an escape as a `u` and four digits (`readChar`). It finds the end of every
string all the same: the members of a flat object are read one by one (`jsonMembers_object`), and a
string of printable ASCII is read as it is (`readChars_plain`).
-/

import Mcoz.Control.LocalArm
import Mcoz.Daemon.Arm

set_option autoImplicit false

namespace Mcoz.Control

open Word Text Daemon

/-! ### Strings -/

/-- The digits of an escape, which the daemon reads as they are. -/
def readUnit (unit : ℕ) : Bytes :=
  [117, hexDigit (unit / 4096 % 16), hexDigit (unit / 256 % 16), hexDigit (unit / 16 % 16),
    hexDigit (unit % 16)]

/-- What the daemon reads for a character. -/
def readChar (ch : Char) : Bytes :=
  let code := ch.toNat
  if 32 ≤ code ∧ code ≤ 126 ∨ code = 10 ∨ code = 13 ∨ code = 9 ∨ code = 12 ∨ code = 8 then
    [UInt8.ofNat code]
  else if code < 65536 then readUnit code
  else readUnit (55296 + (code - 65536) / 1024) ++ readUnit (56320 + (code - 65536) % 1024)

/-- What the daemon reads for a string. -/
def readChars (text : String) : Bytes :=
  text.toList.flatMap readChar

/-- A character that stands for itself in a JSON string. -/
def Plain (ch : Char) : Prop :=
  32 ≤ ch.toNat ∧ ch.toNat ≤ 126 ∧ ch.toNat ≠ 34 ∧ ch.toNat ≠ 92

instance (ch : Char) : Decidable (Plain ch) :=
  inferInstanceAs (Decidable (_ ∧ _ ∧ _ ∧ _))

/-- The bytes of a text whose characters stand for themselves. -/
def plainBytes (text : String) : Bytes :=
  text.toList.map fun ch => UInt8.ofNat ch.toNat

theorem readChars_plain {text : String} (plain : ∀ ch ∈ text.toList, Plain ch) :
    readChars text = plainBytes text := by
  unfold readChars plainBytes
  revert plain
  generalize text.toList = chars
  intro plain
  induction chars with
  | nil => rfl
  | cons ch rest ih =>
      have here := plain ch List.mem_cons_self
      rw [List.flatMap_cons, List.map_cons, ih fun other member =>
        plain other (List.mem_cons_of_mem _ member), readChar]
      simp only [here.1, here.2.1, and_self, true_or, if_true, List.cons_append, List.nil_append]

theorem dumpsChars_plain {text : String} (plain : ∀ ch ∈ text.toList, Plain ch) :
    dumpsChars text = plainBytes text := by
  unfold dumpsChars plainBytes
  revert plain
  generalize text.toList = chars
  intro plain
  induction chars with
  | nil => rfl
  | cons ch rest ih =>
      have here := plain ch List.mem_cons_self
      rw [List.flatMap_cons, List.map_cons, ih fun other member =>
        plain other (List.mem_cons_of_mem _ member), dumpsChar]
      simp only [here.1, here.2.1, here.2.2.1, here.2.2.2, and_self, if_true, if_false,
        List.cons_append, List.nil_append]

/-- A byte that neither ends a string nor begins an escape. -/
theorem jsonStringLoop_byte {ch : UInt8} (rest : Bytes) (quote : ch ≠ 34) (slash : ch ≠ 92) :
    jsonStringLoop (ch :: rest) =
      (jsonStringLoop rest).map fun token => (ch :: token.1, token.2) := by
  rw [jsonStringLoop.eq_def]
  simp only [if_neg quote, if_neg slash]

theorem jsonStringLoop_quote (rest : Bytes) : jsonStringLoop (34 :: rest) = some ([], rest) := by
  rw [jsonStringLoop.eq_def]
  rfl

theorem jsonStringLoop_escape (esc : UInt8) (rest : Bytes) :
    jsonStringLoop (92 :: esc :: rest) =
      (jsonStringLoop rest).map fun token => (unescape esc :: token.1, token.2) := by
  rw [jsonStringLoop.eq_def]
  rfl

theorem hexDigit_plain (digit : ℕ) (small : digit < 16) :
    hexDigit digit ≠ 34 ∧ hexDigit digit ≠ 92 := by
  revert digit
  decide

theorem jsonStringLoop_unit (unit : ℕ) (rest : Bytes) :
    jsonStringLoop (escapeUnit unit ++ rest) =
      (jsonStringLoop rest).map fun token => (readUnit unit ++ token.1, token.2) := by
  have digits : ∀ value, hexDigit (value % 16) ≠ 34 ∧ hexDigit (value % 16) ≠ 92 := fun value =>
    hexDigit_plain _ (Nat.mod_lt _ (by decide))
  simp only [escapeUnit, List.cons_append, List.nil_append, jsonStringLoop_escape,
    jsonStringLoop_byte _ (digits _).1 (digits _).2, Option.map_map]
  rfl

/-- The escape of a character is read to its end. -/
theorem jsonStringLoop_char (ch : Char) (rest : Bytes) :
    jsonStringLoop (dumpsChar ch ++ rest) =
      (jsonStringLoop rest).map fun token => (readChar ch ++ token.1, token.2) := by
  have bound : ch.toNat < 1114112 := by
    have valid := ch.valid
    simp only [UInt32.isValidChar, Nat.isValidChar] at valid
    show ch.val.toNat < _
    omega
  unfold dumpsChar readChar
  generalize ch.toNat = code at bound
  by_cases quote : code = 34
  · subst quote
    rfl
  by_cases slash : code = 92
  · subst slash
    rfl
  by_cases printable : 32 ≤ code ∧ code ≤ 126
  · have value : (UInt8.ofNat code).toNat = code := Nat.mod_eq_of_lt (by omega)
    simp only [quote, slash, printable, and_self, true_or, if_true, if_false, List.cons_append,
      List.nil_append]
    refine jsonStringLoop_byte rest (fun same => quote ?_) (fun same => slash ?_)
    · rw [← value, same]
      rfl
    · rw [← value, same]
      rfl
  by_cases control : code = 10 ∨ code = 13 ∨ code = 9 ∨ code = 12 ∨ code = 8
  · rcases control with rfl | rfl | rfl | rfl | rfl <;> rfl
  · obtain ⟨newline, return_, tab, feed, back⟩ : code ≠ 10 ∧ code ≠ 13 ∧ code ≠ 9 ∧ code ≠ 12 ∧
        code ≠ 8 := by omega
    simp only [quote, slash, printable, newline, return_, tab, feed, back, or_self, if_false]
    by_cases unit : code < 65536
    · rw [if_pos unit, if_pos unit]
      exact jsonStringLoop_unit code rest
    · rw [if_neg unit, if_neg unit, List.append_assoc, jsonStringLoop_unit, jsonStringLoop_unit,
        Option.map_map]
      simp only [Function.comp_def, List.append_assoc]

/-- A string is read to its closing quote. -/
theorem jsonStringLoop_chars (text : String) (rest : Bytes) :
    jsonStringLoop (dumpsChars text ++ 34 :: rest) = some (readChars text, rest) := by
  unfold dumpsChars readChars
  induction text.toList with
  | nil => exact jsonStringLoop_quote rest
  | cons ch chars ih =>
      rw [List.flatMap_cons, List.flatMap_cons, List.append_assoc, jsonStringLoop_char, ih]
      rfl

/-! ### Values -/

/-- What the daemon reads for a value: the characters of a string, else the text of the value. -/
def JsonScalar.read : JsonScalar → Bytes
  | .text value => readChars value
  | .number value => dumpsNumber value
  | .boolean value => dumpsBoolean value

/-- What follows a value: the end of the text or a delimiter. -/
def Delimited (rest : Bytes) : Prop :=
  ∀ ch, rest.head? = some ch → isDelimiter ch = true

theorem delimited_cons {ch : UInt8} {rest : Bytes} (delimiter : isDelimiter ch = true) :
    Delimited (ch :: rest) := by
  rintro other ⟨⟩
  exact delimiter

/-- A character of a bare value: neither a delimiter, nor a blank, nor white space, nor a quote. -/
def Bare (ch : UInt8) : Prop :=
  isDelimiter ch = false ∧ isBlank ch = false ∧ isSpace ch = false ∧ ch ≠ 34

instance (ch : UInt8) : Decidable (Bare ch) :=
  inferInstanceAs (Decidable (_ ∧ _ ∧ _ ∧ _))

theorem bare_of_number {value : ℤ} {ch : UInt8} (member : ch ∈ dumpsNumber value) : Bare ch := by
  have digit : ∀ {digit : UInt8}, isDigit digit = true → Bare digit := by
    intro digit range
    simp only [isDigit, Bool.and_eq_true, decide_eq_true_eq, UInt8.le_iff_toNat_le] at range
    obtain ⟨low, high⟩ := range
    change 48 ≤ digit.toNat at low
    change digit.toNat ≤ 57 at high
    have apart : ∀ other : UInt8, other.toNat < 48 ∨ 57 < other.toNat → digit ≠ other := by
      rintro other outside rfl
      omega
    refine ⟨?_, ?_, (digit_plain ?_).1, apart 34 (by decide)⟩
    · simp [isDelimiter, apart 44 (by decide), apart 125 (by decide)]
    · simp [isBlank, apart 32 (by decide), apart 10 (by decide), apart 13 (by decide),
        apart 9 (by decide)]
    · simp only [isDigit, Bool.and_eq_true, decide_eq_true_eq, UInt8.le_iff_toNat_le]
      exact ⟨low, high⟩
  unfold dumpsNumber at member
  split at member
  · rcases List.mem_cons.mp member with rfl | inside
    · decide
    · exact digit (isDigit_of_mem_decimal inside)
  · exact digit (isDigit_of_mem_decimal member)

theorem number_ne_nil (value : ℤ) : dumpsNumber value ≠ [] := by
  unfold dumpsNumber
  split
  · exact List.cons_ne_nil _ _
  · exact decimal_ne_nil _

theorem skipWs_cons {ch : UInt8} {rest : Bytes} (other : isSpace ch = false) :
    skipWs (ch :: rest) = ch :: rest := by
  rw [skipWs, List.dropWhile_cons, other, if_neg (by decide)]

theorem skipWs_delimited {rest : Bytes} (delimited : Delimited rest) : skipWs rest = rest := by
  refine dropWhile_eq_self fun ch first => ?_
  have delimiter := delimited ch first
  simp only [isDelimiter, Bool.or_eq_true, beq_iff_eq] at delimiter
  rcases delimiter with rfl | rfl <;> rfl

theorem bare_of_boolean {value : Bool} {ch : UInt8} (member : ch ∈ dumpsBoolean value) :
    Bare ch := by
  have every : (dumpsBoolean value).all fun ch => decide (Bare ch) := by
    cases value <;> decide
  exact of_decide_eq_true (List.all_eq_true.mp every ch member)

theorem boolean_ne_nil (value : Bool) : dumpsBoolean value ≠ [] := by
  cases value <;> decide

/-- A bare value does not begin with white space. -/
theorem skipWs_bare {text rest : Bytes} (bare : ∀ ch ∈ text, Bare ch) (nonempty : text ≠ []) :
    skipWs (text ++ rest) = text ++ rest := by
  refine dropWhile_eq_self fun ch first => ?_
  rw [List.head?_append_of_ne_nil _ nonempty] at first
  exact (bare ch (List.mem_of_mem_head? first)).2.2.1

/-- The first character of a value is not white space. -/
theorem skipWs_value (value : JsonScalar) (rest : Bytes) :
    skipWs (value.dumps ++ rest) = value.dumps ++ rest := by
  cases value with
  | text value => exact skipWs_cons (by decide)
  | number value => exact skipWs_bare (fun _ => bare_of_number) (number_ne_nil value)
  | boolean value => exact skipWs_bare (fun _ => bare_of_boolean) (boolean_ne_nil value)

/-- A bare value is read to its end. -/
theorem parseJsonValue_bare {text rest : Bytes} (bare : ∀ ch ∈ text, Bare ch) (nonempty : text ≠ [])
    (delimited : Delimited rest) : parseJsonValue (text ++ rest) = some (text, rest) := by
  have plain : ∀ ch ∈ text, (!isDelimiter ch) = true := by
    intro ch member
    rw [(bare ch member).1]
    rfl
  have first : (text ++ rest).head? ≠ some 34 := by
    rw [List.head?_append_of_ne_nil _ nonempty]
    intro quote
    exact (bare 34 (List.mem_of_mem_head? quote)).2.2.2 rfl
  have stop : rest.takeWhile (fun ch => !isDelimiter ch) = [] ∧
      rest.dropWhile (fun ch => !isDelimiter ch) = rest := by
    cases rest with
    | nil => exact ⟨rfl, rfl⟩
    | cons ch rest =>
        rw [List.takeWhile_cons, List.dropWhile_cons, delimited ch rfl]
        exact ⟨rfl, rfl⟩
  have trimmed : trimCopy text = text := trim_eq_self fun ch member => (bare ch member).2.1
  rw [parseJsonValue, if_neg first, List.takeWhile_append_of_pos plain,
    List.dropWhile_append_of_pos plain, stop.1, stop.2, List.append_nil, trimmed]

/-- A value is read to its end. -/
theorem parseJsonValue_dumps (value : JsonScalar) {rest : Bytes} (delimited : Delimited rest) :
    parseJsonValue (value.dumps ++ rest) = some (value.read, rest) := by
  cases value with
  | text value =>
      have shape : (JsonScalar.text value).dumps ++ rest =
          34 :: (dumpsChars value ++ 34 :: rest) := by
        simp [JsonScalar.dumps]
      rw [shape, parseJsonValue, List.head?_cons, if_pos rfl, parseJsonStringToken, if_pos rfl,
        jsonStringLoop_chars]
      rfl
  | number value =>
      exact parseJsonValue_bare (fun _ => bare_of_number) (number_ne_nil value) delimited
  | boolean value =>
      exact parseJsonValue_bare (fun _ => bare_of_boolean) (boolean_ne_nil value) delimited

/-! ### Members -/

/-- A member is read to its end. -/
theorem parseJsonMember_dumps (member : String × JsonScalar) {rest : Bytes}
    (delimited : Delimited rest) :
    parseJsonMember (dumpsMember member ++ rest) =
      some (readChars member.1, member.2.read, rest) := by
  have shape : dumpsMember member ++ rest =
      34 :: (dumpsChars member.1 ++ 34 :: (58 :: (member.2.dumps ++ rest))) := by
    simp [dumpsMember]
  have value := skipWs_value member.2 rest
  have nonempty : member.2.dumps ++ rest ≠ [] := by
    cases member.2 with
    | text value => exact List.cons_ne_nil _ _
    | number value => exact List.append_ne_nil_of_left_ne_nil (number_ne_nil value) _
    | boolean value => exact List.append_ne_nil_of_left_ne_nil (boolean_ne_nil value) _
  rw [shape, parseJsonMember, parseJsonStringToken, if_pos rfl, jsonStringLoop_chars,
    Option.bind_some]
  simp only [skipWs_cons (show isSpace 58 = false from rfl), value, nonempty, if_false,
    parseJsonValue_dumps member.2 delimited, Option.map_some, skipWs_delimited delimited]

/-- The parameters after a member. -/
def readMember (params : Params) (member : String × JsonScalar) : Params :=
  if readChars member.1 = [] then params
  else setParam params (readChars member.1) member.2.read

/-- The member loop takes one member and the comma after it. -/
theorem jsonMembers_member (member : String × JsonScalar) (bound : ℕ) {rest : Bytes}
    (delimited : Delimited rest) (params : Params) :
    jsonMembers (bound + 1) (dumpsMember member ++ rest) params =
      jsonMembers bound (if rest.head? = some 44 then rest.tail else rest)
        (readMember params member) := by
  have read := parseJsonMember_dumps member delimited
  obtain ⟨tail, shape⟩ : ∃ tail, dumpsMember member ++ rest = 34 :: tail := ⟨_, rfl⟩
  rw [shape] at read ⊢
  rw [jsonMembers, skipWs_cons (by decide)]
  simp only [read, show (34 : UInt8) ≠ 125 by decide, show (34 : UInt8) ≠ 44 by decide, if_false]
  rfl

/-- The member loop reads the members of an object. -/
theorem jsonMembers_object {rest : List (String × JsonScalar)} :
    ∀ {member : String × JsonScalar} {bound : ℕ} {params : Params}, rest.length < bound →
      jsonMembers bound (dumpsMember member ++ (dumpsRest rest ++ [125])) params =
        (member :: rest).foldl readMember params := by
  induction rest with
  | nil =>
      intro member bound params enough
      obtain ⟨bound, rfl⟩ := Nat.exists_eq_succ_of_ne_zero (Nat.ne_of_gt enough)
      have delimited : Delimited [125] := delimited_cons rfl
      show jsonMembers (bound + 1) (dumpsMember member ++ [125]) params = _
      rw [jsonMembers_member member bound delimited]
      cases bound with
      | zero => rfl
      | succ bound => rfl
  | cons next rest ih =>
      intro member bound params enough
      obtain ⟨bound, rfl⟩ := Nat.exists_eq_succ_of_ne_zero (Nat.ne_of_gt (Nat.zero_lt_of_lt enough))
      have delimited : Delimited (44 :: (dumpsMember next ++ (dumpsRest rest ++ [125]))) :=
        delimited_cons rfl
      have shape : dumpsRest (next :: rest) ++ [125] =
          44 :: (dumpsMember next ++ (dumpsRest rest ++ [125])) := by
        simp [dumpsRest]
      rw [shape, jsonMembers_member member bound delimited]
      simp only [List.head?_cons, if_true, List.tail_cons]
      rw [ih (by simpa using enough)]
      rfl

end Mcoz.Control
