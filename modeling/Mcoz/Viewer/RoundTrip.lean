/-
What the viewer reads of what libcoz wrote.

The profile has no escapes, so a name must be UTF-8 without tabs and newlines to come through, and then
it does: with counts that are doubles the viewer reads one entry for each record, with the same type,
name, selected line and numbers, if and only if every name is such a text (`profile_roundTrip`).
-/

import Mcoz.Profiler.Log
import Mcoz.Viewer.Profile
import Mcoz.Lib.Fallible

set_option autoImplicit false

namespace Mcoz.Viewer

open Fallible Js Separated Word Mcoz.Profiler

/-! ### Entries and records -/

/-- The property is the text with these bytes. -/
def Object.hasText (obj : Object) (key : String) (bytes : Bytes) : Prop :=
  ∃ text, obj key = some (.text text) ∧ Utf8.encode text = bytes

/-- The property is the number. -/
def Object.hasNumber (obj : Object) (key : String) (value : UInt64) : Prop :=
  obj key = some (.number (.finite value.toNat))

/-- The entry has the record's type and what the viewer uses of it: the name or the selected line, the
speedup with its two decimals, and the numbers. -/
def Shows (obj : Object) (record : Record) : Prop :=
  obj "type" = some (.text record.type.toList) ∧
    match record with
    | .startup _ => True
    | .experiment file line speedup duration _ =>
        obj.hasText "selected" (showLine file line) ∧
          obj "speedup" = some (.number (toDouble (speedup / 100))) ∧
          obj.hasNumber "duration" duration
    | .throughputPoint name delta => obj.hasText "name" name ∧ obj.hasNumber "delta" delta
    | .latencyPoint name beginDelta endDelta difference =>
        obj.hasText "name" name ∧ obj.hasNumber "arrivals" beginDelta ∧
          obj.hasNumber "departures" endDelta ∧ obj.hasNumber "difference" difference
    | .runtime _ => True
    | .samples file line _ => obj.hasText "location" (showLine file line)

/-- The name of a point or a file in the record. -/
def names : Record → List Bytes
  | .experiment file _ _ _ _ => [file]
  | .throughputPoint name _ => [name]
  | .latencyPoint name _ _ _ => [name]
  | .samples file _ _ => [file]
  | _ => []

/-- The counts that the viewer reads of the record. -/
def counts : Record → List UInt64
  | .experiment _ _ _ duration _ => [duration]
  | .throughputPoint _ delta => [delta]
  | .latencyPoint _ beginDelta endDelta difference => [beginDelta, endDelta, difference]
  | _ => []

/-- UTF-8 without tabs and newlines. -/
def Plain (name : Bytes) : Prop :=
  Utf8.encode (Utf8.decode name) = name ∧ 0x09 ∉ name ∧ 0x0A ∉ name

instance (name : Bytes) : Decidable (Plain name) :=
  inferInstanceAs (Decidable (_ ∧ _))

/-! ### Printed values -/

/-- A digit or a colon. -/
theorem numeral_bounds {value : ℕ} {char : Char} (among : char ∈ ':' :: Nat.toDigits 10 value) :
    48 ≤ char.toNat ∧ char.toNat ≤ 58 := by
  rcases List.mem_cons.mp among with rfl | digit
  · decide
  · have bounds := Text.digit_bounds (Nat.isDigit_of_mem_toDigits (by decide) (by decide) digit)
    omega

theorem digits_decimal (value : ℕ) : ∀ char ∈ Nat.toDigits 10 value, char.isDigit :=
  fun _ => Nat.isDigit_of_mem_toDigits (by decide) (by decide)

theorem shown_ascii {field : Field} {text : List Char} (small : ∀ char ∈ text, char.toNat < 128)
    (printed : field.print = text.map Utf8.asciiByte) : field.shown = text := by
  rw [Field.shown, printed, Utf8.decode_map_ascii small]

theorem shown_size (value : UInt64) : (Field.size value).shown = Nat.toDigits 10 value.toNat := by
  refine shown_ascii (fun char among => ?_) rfl
  have bounds := numeral_bounds (List.mem_cons_of_mem ':' among)
  omega

theorem isDigit_digitChar {value : ℕ} (small : value < 10) : (Nat.digitChar value).isDigit := by
  have shape := Nat.toDigits_of_lt_base small
  exact digits_decimal value _ (shape ▸ List.mem_singleton_self _)

theorem shown_hundredths (value : ℕ) : (Field.hundredths value).shown =
    Nat.toDigits 10 (value / 100) ++
      '.' :: [Nat.digitChar (value / 10 % 10), Nat.digitChar (value % 10)] := by
  refine shown_ascii (fun char among => ?_) ?_
  · have digit {char : Char} (decimal : char.isDigit) : char.toNat < 128 := by
      have bounds := Text.digit_bounds decimal
      omega
    simp only [List.mem_append, List.mem_cons, List.not_mem_nil, or_false] at among
    rcases among with whole | rfl | rfl | rfl
    · exact digit (digits_decimal _ _ whole)
    · decide
    · exact digit (isDigit_digitChar (Nat.mod_lt _ (by decide)))
    · exact digit (isDigit_digitChar (Nat.mod_lt _ (by decide)))
  · rw [List.map_append]
    simp only [Field.print, List.append_assoc]
    rfl

theorem parseInt_shown {value : UInt64} (small : value.toNat < 2 ^ 53) :
    parseInt (Field.size value).shown = .finite value.toNat := by
  rw [shown_size, parseInt_digits Nat.toDigits_ne_nil (digits_decimal _), digitsValue,
    Nat.ofDigitChars_ten_toDigits, toDouble_natCast small]

theorem parseFloat_shown (value : ℕ) :
    parseFloat (Field.hundredths value).shown = toDouble (value / 100) := by
  have decimals : ∀ char ∈ [Nat.digitChar (value / 10 % 10), Nat.digitChar (value % 10)],
      char.isDigit := by
    simp only [List.mem_cons, List.not_mem_nil, or_false]
    rintro char (rfl | rfl)
    · exact isDigit_digitChar (Nat.mod_lt _ (by decide))
    · exact isDigit_digitChar (Nat.mod_lt _ (by decide))
  have spelled : digitsValue (Nat.toDigits 10 (value / 100) ++
      [Nat.digitChar (value / 10 % 10), Nat.digitChar (value % 10)]) = value := by
    rw [digitsValue, Nat.ofDigitChars_append, Nat.ofDigitChars_ten_toDigits,
      Nat.ofDigitChars_cons_digitChar_of_lt_ten (Nat.mod_lt _ (by decide)),
      Nat.ofDigitChars_cons_digitChar_of_lt_ten (Nat.mod_lt _ (by decide)), Nat.ofDigitChars_nil]
    omega
  rw [shown_hundredths, parseFloat_fraction Nat.toDigits_ne_nil (digits_decimal _) decimals,
    spelled]
  norm_num

/-- A selected line is plain exactly if its file is. -/
theorem plain_showLine {file : Bytes} {line : UInt64} :
    Plain (showLine file line) ↔ Plain file := by
  have shape : showLine file line =
      file ++ (':' :: Nat.toDigits 10 line.toNat).map Utf8.asciiByte := by
    rw [showLine, List.append_assoc]
    rfl
  have small : ∀ char ∈ ':' :: Nat.toDigits 10 line.toNat, char.toNat < 128 := by
    intro char among
    have bounds := numeral_bounds among
    omega
  have visible : ∀ byte ∈ (':' :: Nat.toDigits 10 line.toNat).map Utf8.asciiByte,
      48 ≤ byte.toNat ∧ byte.toNat < 128 := by
    intro byte among
    obtain ⟨char, there, rfl⟩ := List.mem_map.mp among
    have bounds := numeral_bounds there
    rw [Utf8.asciiByte, Nat.toUInt8, UInt8.toNat_ofNat', Nat.mod_eq_of_lt (by omega)]
    omega
  have decoded : Utf8.decode (showLine file line) =
      Utf8.decode file ++ ':' :: Nat.toDigits 10 line.toNat := by
    rw [shape, Utf8.decode_append_of_head, Utf8.decode_map_ascii small]
    exact fun byte first => (visible byte (List.mem_of_head? first)).2
  have other {byte : UInt8} (low : byte.toNat < 48) :
      byte ∈ showLine file line ↔ byte ∈ file := by
    rw [shape, List.mem_append]
    refine or_iff_left fun there => ?_
    have bounds := (visible byte there).1
    omega
  rw [Plain, Plain, other (by decide), other (by decide), decoded, Utf8.encode_append,
    Utf8.encode_of_ascii small, shape, List.append_left_inj]

/-! ### One record -/

variable {jsonParse : List Char → Option Object} {record : Record}

/-- The texts of a record are its names, with the line's number after a file's. -/
theorem plain_texts : (∀ column ∈ record.fields, ∀ bytes, column.2 = .text bytes → Plain bytes) ↔
    ∀ name ∈ names record, Plain name := by
  cases record <;> simp [Record.fields, names, plain_showLine]

theorem Shows.texts {obj : Object} (shown : Shows obj record) :
    ∀ column ∈ record.fields, ∀ bytes, column.2 = .text bytes → obj.hasText column.1 bytes := by
  cases record <;> simp_all [Shows, Record.fields]

/-- A value whose text is plain is shown without tabs and newlines. -/
theorem shown_clean {field : Field} (plain : ∀ bytes, field = .text bytes → Plain bytes) :
    '\t' ∉ field.shown ∧ '\n' ∉ field.shown := by
  have numeral {value : ℕ} {char : Char} (low : char.toNat < 48) :
      char ∉ Nat.toDigits 10 value := by
    intro among
    have bounds := numeral_bounds (List.mem_cons_of_mem ':' among)
    omega
  cases field with
  | text bytes =>
      obtain ⟨-, noTab, noNewline⟩ := plain bytes rfl
      exact ⟨fun among => noTab ((Utf8.mem_decode_ascii (by decide)).mp among),
        fun among => noNewline ((Utf8.mem_decode_ascii (by decide)).mp among)⟩
  | size value =>
      rw [shown_size]
      exact ⟨numeral (by decide), numeral (by decide)⟩
  | hundredths value =>
      have digit {place : ℕ} {char : Char} (small : place < 10) (low : char.toNat < 48) :
          char ≠ Nat.digitChar place := by
        rintro rfl
        have bounds := Text.digit_bounds (isDigit_digitChar small)
        omega
      have tens : value / 10 % 10 < 10 := Nat.mod_lt _ (by decide)
      have ones : value % 10 < 10 := Nat.mod_lt _ (by decide)
      rw [shown_hundredths]
      simp only [List.mem_append, List.mem_cons, List.not_mem_nil, or_false, not_or]
      exact ⟨⟨numeral (by decide), by decide, digit tens (by decide), digit ones (by decide)⟩,
        ⟨numeral (by decide), by decide, digit tens (by decide), digit ones (by decide)⟩⟩

/-- A record with plain names is one line. -/
theorem single_of_plain (plain : ∀ name ∈ names record, Plain name) : '\n' ∉ record.line := by
  have clean : ∀ column ∈ record.fields, '\n' ∉ column.2.shown := fun column among =>
    (shown_clean (plain_texts.mpr plain column among)).2
  have keys : '\n' ∉ record.type.toList ∧ ∀ column ∈ record.fields, '\n' ∉ column.1.toList := by
    cases record <;> simp [Record.type, Record.fields]
  rw [Record.line, lineText, List.mem_append, List.mem_flatMap]
  rintro (type | ⟨text, among, there⟩)
  · exact keys.1 type
  · obtain ⟨column, held, rfl⟩ := List.mem_map.mp among
    simp only [columnText, List.mem_cons, List.mem_append] at there
    rcases there with tab | key | equals | value
    · exact absurd tab (by decide)
    · exact keys.2 column held key
    · exact absurd equals (by decide)
    · exact clean column held value

/-- The object of a record whose values are shown without tabs. -/
theorem parseLine_record (clean : ∀ column ∈ record.fields, '\t' ∉ column.2.shown) :
    parseLine jsonParse record.line =
      some (record.fields.foldl
        (fun obj column => obj.set column.1 (readValue column.1 column.2.shown))
        (typed record.type.toList)) := by
  have absent : ∀ column ∈ record.fields.map fun column => (column.1, column.2.shown),
      '\t' ∉ column.2 := by
    intro column among
    obtain ⟨field, held, rfl⟩ := List.mem_map.mp among
    exact clean field held
  have columns := @parseLine_columns jsonParse record.type _
    (by cases record <;> simp [Record.type]) (by cases record <;> simp [Record.type])
    (by cases record <;> simp [Record.type]) (by cases record <;> simp [Record.fields] <;> decide)
    absent
  rw [List.foldl_map, List.map_map] at columns
  exact columns

theorem encode_shown {bytes : Bytes} (plain : Plain bytes) :
    Utf8.encode (Field.text bytes).shown = bytes :=
  plain.1

/-- The object shows the record. -/
theorem shows_read (small : ∀ count ∈ counts record, count.toNat < 2 ^ 53)
    (plain : ∀ column ∈ record.fields, ∀ bytes, column.2 = .text bytes → Plain bytes) :
    Shows (record.fields.foldl
      (fun obj column => obj.set column.1 (readValue column.1 column.2.shown))
      (typed record.type.toList)) record := by
  cases record <;>
    simp_all [Shows, counts, Record.fields, Object.hasText, Object.hasNumber, Object.set, typed,
      readValue, integerKeys, parseInt_shown, parseFloat_shown, encode_shown]

/-- A record that the viewer reads as one line shows itself exactly if its names are plain. -/
theorem shows_iff (small : ∀ count ∈ counts record, count.toNat < 2 ^ 53)
    (single : '\n' ∉ record.line) :
    (∃ obj, parseLine jsonParse record.line = some obj ∧ Shows obj record) ↔
      ∀ name ∈ names record, Plain name := by
  rw [← plain_texts]
  constructor
  · rintro ⟨obj, parsed, shown⟩ column among bytes text
    obtain ⟨chars, held, encoded⟩ := shown.texts column among bytes text
    have decoded : Utf8.decode bytes = chars := by rw [← encoded, Utf8.decode_encode]
    have columns : record.line.head? ≠ some '\x7b' := by
      cases record <;> simp [Record.line, lineText, Record.type]
    refine ⟨by rw [decoded, encoded], fun tab => ?_, fun newline => single ?_⟩
    · have there : '\t' ∈ Utf8.decode bytes := (Utf8.mem_decode_ascii (by decide)).mpr tab
      rw [decoded] at there
      exact no_tab_of_parseLine columns parsed held there
    · have there : '\n' ∈ Utf8.decode bytes := (Utf8.mem_decode_ascii (by decide)).mpr newline
      rw [Record.line, lineText, List.mem_append, List.mem_flatMap]
      refine .inr ⟨columnText column, List.mem_map_of_mem among, ?_⟩
      rw [columnText, Field.shown, text, Field.print]
      simp [there]
  · intro plain
    refine ⟨_, parseLine_record fun column among => (shown_clean (plain column among)).1, ?_⟩
    exact shows_read small plain

/-! ### The file -/

/-- The file begins with a letter. -/
theorem unmarked_profile (records : List Record) :
    [0xEF, 0xBB, 0xBF].isPrefixOf (profile records) = false := by
  cases records with
  | nil => rfl
  | cons record records =>
      rw [profile, List.flatMap_cons, Record.log, logLine]
      cases record <;> simp [Record.type, ascii] <;> rfl

/-- The lines of the file are those of the records. -/
theorem lines_profile (records : List Record) :
    lines '\n' (readAsText (profile records)) =
      records.flatMap fun record => lines '\n' record.line := by
  rw [readAsText, unmarked_profile, if_neg Bool.false_ne_true, decode_profile]
  induction records with
  | nil => simp
  | cons record records ih =>
      rw [List.flatMap_cons, List.flatMap_cons, List.append_assoc, List.singleton_append,
        lines_append, ih]

theorem lines_record (single : '\n' ∉ record.line) : lines '\n' record.line = [record.line] := by
  refine lines_single ?_ single
  cases record <;> simp [Record.line, lineText, Record.type]

/-- The last column of a record is a number. -/
theorem line_ending (record : Record) :
    ∃ before value, record.line = before ++ Nat.toDigits 10 value := by
  have last : ∃ columns key value, record.fields = columns ++ [(key, .size value)] := by
    cases record
    · exact ⟨[], _, _, rfl⟩
    · exact ⟨[_, _, _], _, _, rfl⟩
    · exact ⟨[_], _, _, rfl⟩
    · exact ⟨[_, _, _], _, _, rfl⟩
    · exact ⟨[], _, _, rfl⟩
    · exact ⟨[_], _, _, rfl⟩
  obtain ⟨columns, key, value, shape⟩ := last
  refine ⟨lineText record.type columns ++ '\t' :: key.toList ++ ['='], value.toNat, ?_⟩
  rw [Record.line, shape]
  simp [lineText, columnText, shown_size]

/-- Each record has a line of its own, and a record with a newline has two. -/
theorem length_lines_record (record : Record) :
    1 ≤ (lines '\n' record.line).length ∧
      ('\n' ∈ record.line → 2 ≤ (lines '\n' record.line).length) := by
  have two (among : '\n' ∈ record.line) : 2 ≤ (lines '\n' record.line).length := by
    refine two_lines among ?_ ?_
    · cases record <;> simp [Record.line, lineText, Record.type]
    · obtain ⟨before, value, shape⟩ := line_ending record
      rw [shape, List.getLast?_append_of_ne_nil _ Nat.toDigits_ne_nil]
      intro newline
      have bounds := numeral_bounds (List.mem_cons_of_mem ':' (List.mem_of_getLast? newline))
      exact absurd bounds.1 (by decide)
  refine ⟨?_, two⟩
  by_cases among : '\n' ∈ record.line
  · exact Nat.le_of_succ_le (two among)
  · rw [lines_record among]
    rfl

/-- A profile with as many entries as records has no newline in a record. -/
theorem single_of_length {records : List Record} {objs : List Object}
    (parsed : parseProfile jsonParse (readAsText (profile records)) = some objs)
    (length : objs.length = records.length) : ∀ record ∈ records, '\n' ∉ record.line := by
  rw [parseProfile, lines_profile] at parsed
  have total := (mapM_eq_some.mp parsed).length_eq
  rw [length, List.length_flatMap] at total
  have enough (rest : List Record) :
      rest.length ≤ (rest.map fun record => (lines '\n' record.line).length).sum := by
    have ones := List.length_le_sum_of_one_le
      (rest.map fun record => (lines '\n' record.line).length) fun count among => by
        obtain ⟨record, -, rfl⟩ := List.mem_map.mp among
        exact (length_lines_record record).1
    rwa [List.length_map] at ones
  intro record among newline
  have two := (length_lines_record record).2 newline
  obtain ⟨before, after, rfl⟩ := List.append_of_mem among
  have earlier := enough before
  have later := enough after
  simp only [List.length_append, List.length_cons, List.map_append, List.map_cons, List.sum_append,
    List.sum_cons] at total
  omega

theorem parseProfile_iff {records : List Record} :
    (∃ objs, parseProfile jsonParse (readAsText (profile records)) = some objs ∧
        List.Forall₂ Shows objs records) ↔
      ∀ record ∈ records, '\n' ∉ record.line ∧
        ∃ obj, parseLine jsonParse record.line = some obj ∧ Shows obj record := by
  have single (apart : ∀ record ∈ records, '\n' ∉ record.line) :
      (records.flatMap fun record => lines '\n' record.line) = records.map Record.line := by
    rw [List.map_eq_flatMap]
    exact List.flatMap_congr fun record among => lines_record (apart record among)
  constructor
  · rintro ⟨objs, parsed, shown⟩
    have apart := single_of_length parsed shown.length_eq
    rw [parseProfile, lines_profile, single apart, mapM_eq_some, List.forall₂_map_right_iff]
      at parsed
    have both := exists_forall₂.mp ⟨objs, List.Forall₂.mp (fun _ _ => And.intro) parsed shown⟩
    exact fun record among => ⟨apart record among, both record among⟩
  · intro each
    obtain ⟨objs, both⟩ := exists_forall₂.mpr fun record among => (each record among).2
    refine ⟨objs, ?_, both.imp fun _ _ => And.right⟩
    rw [parseProfile, lines_profile, single fun record among => (each record among).1, mapM_eq_some,
      List.forall₂_map_right_iff]
    exact both.imp fun _ _ => And.left

/-- The viewer reads one entry for each record, and the entry shows the record, exactly if the names
are UTF-8 without tabs and newlines. -/
theorem profile_roundTrip (jsonParse : List Char → Option Object) (records : List Record)
    (small : ∀ record ∈ records, ∀ count ∈ counts record, count.toNat < 2 ^ 53) :
    (∃ objs, parseProfile jsonParse (readAsText (profile records)) = some objs ∧
        List.Forall₂ Shows objs records) ↔
      ∀ record ∈ records, ∀ name ∈ names record, Plain name := by
  rw [parseProfile_iff]
  refine forall₂_congr fun record among => ?_
  constructor
  · rintro ⟨single, shown⟩
    exact (shows_iff (small record among) single).mp shown
  · intro plain
    have single := single_of_plain plain
    exact ⟨single, (shows_iff (small record among) single).mpr plain⟩

/-- A profile of an experiment and two points. -/
theorem profile_roundTrip_sample :
    ∃ objs, parseProfile (fun _ => none) (readAsText (profile
        [.experiment (ascii "a.c") 7 25 500 2, .throughputPoint (ascii "a.c:9") 5,
          .latencyPoint (ascii "wait") 4 3 1])) = some objs ∧
      List.Forall₂ Shows objs
        [.experiment (ascii "a.c") 7 25 500 2, .throughputPoint (ascii "a.c:9") 5,
          .latencyPoint (ascii "wait") 4 3 1] :=
  (profile_roundTrip _ _ (by simp [counts])).mpr (by decide +kernel)

/-- A name with a tab is cut: no reading of the profile shows it. -/
theorem tab_lost : 0 ∉ ascii "a\tb" ∧
    ¬ ∃ objs, parseProfile (fun _ => none)
        (readAsText (profile [.throughputPoint (ascii "a\tb") 1])) = some objs ∧
      List.Forall₂ Shows objs [.throughputPoint (ascii "a\tb") 1] := by
  refine ⟨by decide, fun read => ?_⟩
  obtain ⟨single, shown⟩ := parseProfile_iff.mp read _ (List.mem_singleton_self _)
  have plain := (shows_iff (by simp [counts]) single).mp shown _ (List.mem_singleton_self _)
  exact plain.2.1 (by decide)

end Mcoz.Viewer
