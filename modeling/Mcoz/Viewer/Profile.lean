/-
How the viewer reads a profile.

The file is read as UTF-8, split into lines, and `parseLine` makes an object of each line that is not
empty: a line of columns is split at its tabs, a column at its first equals sign. `parseLine_columns`
says what object a line of columns without tabs gives; no text in the object has a tab
(`no_tab_of_parseLine`).
-/

import Mcoz.Lib.Js
import Mcoz.Lib.Utf8
import Mcoz.Lib.Separated

set_option autoImplicit false

namespace Mcoz.Viewer

open Js Separated

/-! ### Objects -/

/-- The value of a property: a string or a number. -/
inductive Value
  | text (chars : List Char)
  | number (value : Number)
deriving DecidableEq

/-- An object, by its own properties. -/
abbrev Object := String → Option Value

/-- `obj[key] = value`. The prototype is not set to a string or a number. -/
def Object.set (obj : Object) (key : String) (value : Value) : Object :=
  fun name => if name = key ∧ key ≠ "__proto__" then some value else obj name

/-! ### Lines -/

/-- The columns that `parseLine` reads with `parseInt`. -/
def integerKeys : List String :=
  ["delta", "time", "duration", "arrivals", "departures", "difference"]

/-- The value of a column. -/
def readValue (key : String) (value : List Char) : Value :=
  if key ∈ integerKeys then .number (parseInt value)
  else if key = "speedup" then .number (parseFloat value)
  else .text value

/-- The property that a column is stored in. -/
def propertyKey (obj : Object) (key : String) : String :=
  if key = "type" ∧ obj "type" = some (.text "progress-point".toList) then "point-type" else key

/-- One turn of the loop over the parts of a line. -/
def readPart (obj : Object) (part : List Char) : Object :=
  if '=' ∈ part then
    let key := String.ofList (part.takeWhile (· ≠ '='))
    let value := (part.dropWhile (· ≠ '=')).tail
    obj.set (propertyKey obj key) (readValue key value)
  else obj

/-- The object that has a type only. -/
def typed (type : List Char) : Object :=
  fun name => if name = "type" then some (.text type) else none

/-- `parseLine`. A line in braces is given to `JSON.parse`, which may throw. -/
def parseLine (jsonParse : List Char → Option Object) (s : List Char) : Option Object :=
  if s.head? = some '\x7b' then jsonParse s
  else
    let parts := s.splitOn '\t'
    some (parts.foldl readPart (typed (parts.headD [])))

/-- `FileReader.readAsText`: UTF-8 without a byte order mark. -/
def readAsText (file : List UInt8) : List Char :=
  Utf8.decode (if [0xEF, 0xBB, 0xBF].isPrefixOf file then file.drop 3 else file)

/-- The entries of a profile, one for each line that is not empty; none if `JSON.parse` throws. -/
def parseProfile (jsonParse : List Char → Option Object) (profileText : List Char) :
    Option (List Object) :=
  (lines '\n' profileText).mapM (parseLine jsonParse)

/-! ### A line of columns -/

/-- A key that is stored under its own name, and not of a type. -/
def plainKey (key : String) : Bool :=
  !key.toList.contains '=' && !key.toList.contains '\t' && key ≠ "type" && key ≠ "__proto__"

section Columns

variable {jsonParse : List Char → Option Object}

theorem readPart_column {obj : Object} {key : String} (value : List Char) (plain : plainKey key) :
    readPart obj (key.toList ++ '=' :: value) = obj.set key (readValue key value) := by
  simp only [plainKey, Bool.and_eq_true, Bool.not_eq_true', List.contains_eq_mem,
    decide_eq_false_iff_not, decide_eq_true_eq] at plain
  obtain ⟨⟨⟨absent, -⟩, other⟩, -⟩ := plain
  have before : ∀ char ∈ key.toList, decide (char ≠ '=') = true := by
    intro char among
    rw [decide_eq_true_eq]
    rintro rfl
    exact absent among
  have present : '=' ∈ key.toList ++ '=' :: value :=
    List.mem_append_right _ List.mem_cons_self
  rw [readPart, if_pos present, List.takeWhile_append_of_pos before,
    List.dropWhile_append_of_pos before, List.takeWhile_cons_of_neg (by decide),
    List.dropWhile_cons_of_neg (by decide), List.append_nil, String.ofList_toList, List.tail_cons]
  simp only [propertyKey, other, false_and, if_false]

/-- A line of columns gives the object with the type and a property for each column. -/
theorem parseLine_columns {type : String} {columns : List (String × List Char)}
    (visible : type.toList.head?.any (· ≠ '\x7b')) (whole : '\t' ∉ type.toList)
    (word : '=' ∉ type.toList) (plain : ∀ column ∈ columns, plainKey column.1)
    (absent : ∀ column ∈ columns, '\t' ∉ column.2) :
    parseLine jsonParse (type.toList ++
        (columns.map fun column => column.1.toList ++ '=' :: column.2).flatMap ('\t' :: ·)) =
      some (columns.foldl (fun obj column => obj.set column.1 (readValue column.1 column.2))
        (typed type.toList)) := by
  obtain ⟨first, rest, shape⟩ : ∃ first rest, type.toList = first :: rest := by
    cases letters : type.toList with
    | nil => simp [letters] at visible
    | cons first rest => exact ⟨first, rest, rfl⟩
  have apart : ∀ part ∈ columns.map fun column => column.1.toList ++ '=' :: column.2,
      '\t' ∉ part := by
    intro part among
    obtain ⟨column, there, rfl⟩ := List.mem_map.mp among
    have key := plain column there
    simp only [plainKey, Bool.and_eq_true, Bool.not_eq_true', List.contains_eq_mem,
      decide_eq_false_iff_not, decide_eq_true_eq] at key
    simp [key.1.1.2, absent column there]
  have kept : readPart (typed type.toList) type.toList = typed type.toList := if_neg word
  have loop (obj : Object) : (columns.map fun column => column.1.toList ++ '=' :: column.2).foldl
      readPart obj =
        columns.foldl (fun obj column => obj.set column.1 (readValue column.1 column.2)) obj := by
    rw [List.foldl_map]
    exact List.foldl_ext _ _ _ fun obj column among => readPart_column _ (plain column among)
  rw [parseLine, if_neg (by simpa [shape] using visible), splitOn_flatMap whole apart]
  simp only [List.headD_cons, List.foldl_cons, kept, loop]

/-- No text of the object has a tab. -/
def NoTab (obj : Object) : Prop :=
  ∀ key value, obj key = some (.text value) → '\t' ∉ value

theorem noTab_typed {type : List Char} (absent : '\t' ∉ type) : NoTab (typed type) := by
  intro key value held
  rw [typed, Option.ite_none_right_eq_some] at held
  cases held.2
  exact absent

theorem noTab_readPart {obj : Object} {part : List Char} (clean : NoTab obj)
    (absent : '\t' ∉ part) : NoTab (readPart obj part) := by
  intro name value held
  unfold readPart at held
  split at held
  · rw [Object.set] at held
    split at held
    · unfold readValue at held
      split at held
      · cases held
      · split at held
        · cases held
        · cases held
          exact fun there =>
            absent ((List.dropWhile_sublist _).subset ((List.tail_sublist _).subset there))
    · exact clean name value held
  · exact clean name value held

/-- No text of a line's object has a tab. -/
theorem no_tab_of_parseLine {s value : List Char} {obj : Object} {key : String}
    (columns : s.head? ≠ some '\x7b') (parsed : parseLine jsonParse s = some obj)
    (held : obj key = some (.text value)) : '\t' ∉ value := by
  rw [parseLine, if_neg columns] at parsed
  cases parsed
  have parts : ∀ part ∈ s.splitOn '\t', '\t' ∉ part := fun part => not_mem_part
  have start : NoTab (typed ((s.splitOn '\t').headD [])) := by
    cases first : s.splitOn '\t' with
    | nil => exact absurd first (List.splitOn_ne_nil _ _)
    | cons type others =>
        have absent := parts type (by simp [first])
        exact noTab_typed absent
  have loop : ∀ (rest : List (List Char)) (obj : Object), NoTab obj →
      (∀ part ∈ rest, '\t' ∉ part) → NoTab (rest.foldl readPart obj) := by
    intro rest
    induction rest with
    | nil => exact fun obj clean _ => clean
    | cons part rest ih =>
        intro obj clean apart
        exact ih _ (noTab_readPart clean (apart part List.mem_cons_self))
          fun other among => apart other (List.mem_cons_of_mem part among)
  exact loop _ _ start parts key value held

end Columns

end Mcoz.Viewer
