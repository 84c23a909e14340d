/-
The profile that libcoz writes.

Each record is one line of fields, `key=value` after a tab; nothing is escaped. `Record.log` is what
is inserted in the output stream for a record, and `text_log` what a reader of UTF-8 sees of it.
-/

import Mcoz.Lib.Word
import Mcoz.Lib.Utf8

set_option autoImplicit false

namespace Mcoz.Profiler

open Word

/-! ### Records -/

/-- A value that `operator<<` prints: a text, a `size_t`, or a `float` in fixed notation with two
decimals, by the number of hundredths. -/
inductive Field
  | text (bytes : Bytes)
  | size (value : UInt64)
  | hundredths (value : ℕ)

/-- A digit's byte. -/
def digit (value : ℕ) : UInt8 :=
  Utf8.asciiByte (Nat.digitChar (value % 10))

/-- The printed value. -/
def Field.print : Field → Bytes
  | text bytes => bytes
  | size value => decimal value.toNat
  | hundredths value =>
      decimal (value / 100) ++ ascii "." ++ [digit (value / 10), digit value]

/-- A tab, a key and its value. -/
def logField (column : String × Field) : Bytes :=
  ascii "\t" ++ ascii column.1 ++ ascii "=" ++ column.2.print

/-- A line of the profile. -/
def logLine (type : String) (fields : List (String × Field)) : Bytes :=
  ascii type ++ fields.flatMap logField ++ ascii "\n"

/-- What is written to the profile: the start of a run, an experiment with its selected line, the
changes of the points since it began as `get_delta`, `get_begin_delta`, `get_end_delta` and
`get_difference` return them, the time since the start, and the samples of a line. -/
inductive Record
  | startup (time : UInt64)
  | experiment (file : Bytes) (line : UInt64) (speedup : ℕ) (duration selectedSamples : UInt64)
  | throughputPoint (name : Bytes) (delta : UInt64)
  | latencyPoint (name : Bytes) (beginDelta endDelta difference : UInt64)
  | runtime (time : UInt64)
  | samples (file : Bytes) (line : UInt64) (count : UInt64)

/-- `operator<<` for a `line`. -/
def showLine (file : Bytes) (line : UInt64) : Bytes :=
  file ++ ascii ":" ++ decimal line.toNat

/-- The first column of a record. -/
def Record.type : Record → String
  | startup _ => "startup"
  | experiment _ _ _ _ _ => "experiment"
  | throughputPoint _ _ => "throughput-point"
  | latencyPoint _ _ _ _ => "latency-point"
  | runtime _ => "runtime"
  | samples _ _ _ => "samples"

/-- The other columns, in `profiler_thread`, `log_samples`, `throughput_point::saved::log` and
`latency_point::saved::log`. -/
def Record.fields : Record → List (String × Field)
  | startup time => [("time", .size time)]
  | experiment file line speedup duration selectedSamples =>
      [("selected", .text (showLine file line)), ("speedup", .hundredths speedup),
        ("duration", .size duration), ("selected-samples", .size selectedSamples)]
  | throughputPoint name delta => [("name", .text name), ("delta", .size delta)]
  | latencyPoint name beginDelta endDelta difference =>
      [("name", .text name), ("arrivals", .size beginDelta), ("departures", .size endDelta),
        ("difference", .size difference)]
  | runtime time => [("time", .size time)]
  | samples file line count =>
      [("location", .text (showLine file line)), ("count", .size count)]

/-- The line of a record. -/
def Record.log (record : Record) : Bytes :=
  logLine record.type record.fields

/-- The contents of the file, to which every run appends. -/
def profile (records : List Record) : Bytes :=
  records.flatMap Record.log

/-! ### The text of a line -/

/-- A value as text. -/
def Field.shown (field : Field) : List Char :=
  Utf8.decode field.print

/-- A column as text. -/
def columnText (column : String × Field) : List Char :=
  column.1.toList ++ '=' :: column.2.shown

/-- A line without its end, as text. -/
def lineText (type : String) (fields : List (String × Field)) : List Char :=
  type.toList ++ (fields.map columnText).flatMap ('\t' :: ·)

/-- A literal of ASCII characters. -/
def isAscii (literal : String) : Bool :=
  literal.toList.all fun char => char.toNat < 128

section Decode

variable {rest : Bytes}

theorem decode_literal {literal : String} (small : isAscii literal) :
    Utf8.decode (ascii literal ++ rest) = literal.toList ++ Utf8.decode rest := by
  refine Utf8.decode_ascii fun char among => ?_
  simpa using List.all_eq_true.mp small char among

/-- A column is decoded apart from what follows, if that begins with an ASCII byte. -/
theorem decode_logField {column : String × Field} {after : Bytes} (key : isAscii column.1)
    (small : ∀ byte ∈ after.head?, byte.toNat < 128) :
    Utf8.decode (logField column ++ after) = '\t' :: columnText column ++ Utf8.decode after := by
  rw [logField, List.append_assoc, List.append_assoc, List.append_assoc,
    decode_literal (by decide), decode_literal key, decode_literal (by decide),
    Utf8.decode_append_of_head _ small, columnText, Field.shown]
  simp

theorem decode_fields {fields : List (String × Field)} {after : Bytes}
    (keys : ∀ column ∈ fields, isAscii column.1) (small : ∀ byte ∈ after.head?, byte.toNat < 128) :
    Utf8.decode (fields.flatMap logField ++ after) =
      (fields.map columnText).flatMap ('\t' :: ·) ++ Utf8.decode after := by
  induction fields with
  | nil => rfl
  | cons column fields ih =>
      have next : ∀ byte ∈ (fields.flatMap logField ++ after).head?, byte.toNat < 128 := by
        cases fields with
        | nil => exact small
        | cons => simp [logField, ascii]
      rw [List.flatMap_cons, List.map_cons, List.flatMap_cons, List.append_assoc, List.append_assoc,
        ← ih fun other among => keys other (List.mem_cons_of_mem column among)]
      exact decode_logField (keys column List.mem_cons_self) next

/-- A line is decoded as its text and a newline. -/
theorem decode_logLine {type : String} {fields : List (String × Field)} (ascii : isAscii type)
    (keys : ∀ column ∈ fields, isAscii column.1) :
    Utf8.decode (logLine type fields ++ rest) =
      lineText type fields ++ '\n' :: Utf8.decode rest := by
  rw [logLine, List.append_assoc, List.append_assoc, decode_literal ascii,
    decode_fields keys (by simp [Word.ascii]), decode_literal (by decide), lineText,
    List.append_assoc]
  rfl

theorem isAscii_type (record : Record) : isAscii record.type := by
  cases record <;> simp only [Record.type] <;> decide

theorem isAscii_key (record : Record) : ∀ column ∈ record.fields, isAscii column.1 := by
  cases record <;> simp [Record.fields] <;> decide

/-- The text of a record's line. -/
def Record.line (record : Record) : List Char :=
  lineText record.type record.fields

/-- The file is decoded as the lines of the records. -/
theorem decode_profile (records : List Record) :
    Utf8.decode (profile records) = records.flatMap fun record => record.line ++ ['\n'] := by
  induction records with
  | nil => rw [profile, List.flatMap_nil, Utf8.decode, List.flatMap_nil]
  | cons record records ih =>
      rw [profile, List.flatMap_cons, Record.log, List.flatMap_cons, ← ih, List.append_assoc]
      exact decode_logLine (isAscii_type record) (isAscii_key record)

end Decode

end Mcoz.Profiler
