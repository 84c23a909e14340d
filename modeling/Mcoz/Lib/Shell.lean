/-
The token recognition of the POSIX shell, for simple commands.

`scan` goes through a line byte by byte: blanks and operators end a token, quotes and backslashes take
the meaning from what they quote, a `#` where a token could begin starts a comment. A word stands for
itself (`Word.value`) if it is not subject to an expansion; a line with an expansion that begins with
`$` or a backquote is not followed further. `simpleCommand` takes the tokens of one simple command.

* `simpleCommand_inert`: a text that means nothing to the shell is one word of the command;
* `simpleCommand_word_iff`: before an option it is only such a text that is one word and stands for
  itself.
-/

import Mcoz.Lib.Word
import Mathlib.Data.List.Basic

set_option autoImplicit false

namespace Shell

open Word

/-! ### Tokens -/

/-- A byte of a word; `quoted` if it only stands for itself. -/
structure Piece where
  byte : UInt8
  quoted : Bool
deriving DecidableEq

/-- A word, after its quoting characters have been taken away. -/
abbrev Word := List Piece

/-- The tokens of a line. A newline is an operator. -/
inductive Token
  | word (pieces : Word)
  | ioNumber (digits : Word)
  | operator (chars : Bytes)
deriving DecidableEq

/-- The operators. -/
def operators : List Bytes :=
  [[10], [38], [124], [59], [60], [62], [40], [41], [38, 38], [124, 124], [59, 59], [60, 60],
    [62, 62], [60, 38], [62, 38], [60, 62], [60, 60, 45], [62, 124]]

/-- A space or a tab. -/
def isBlank (byte : UInt8) : Bool :=
  byte == 32 || byte == 9

/-- A byte that begins an operator. -/
def startsOperator (byte : UInt8) : Bool :=
  byte == 10 || byte == 38 || byte == 124 || byte == 59 || byte == 60 || byte == 62 ||
    byte == 40 || byte == 41

/-- A byte that ends an unquoted word. -/
def isDelimiter (byte : UInt8) : Bool :=
  isBlank byte || startsOperator byte

/-- A byte that begins an expansion: a dollar sign or a backquote. -/
def startsExpansion (byte : UInt8) : Bool :=
  byte == 36 || byte == 96

/-! ### Scanning -/

/-- Where a line continuation may stand. -/
inductive Place
  | between
  | operator (chars : Bytes)
  | plain (word : Word)
  | double (word : Word)
deriving DecidableEq

/-- Where the scanner is: at such a place, after a backslash there, in single quotes, or in a comment. -/
inductive Mode
  | at (place : Place)
  | escaped (place : Place)
  | single (word : Word)
  | comment
deriving DecidableEq

/-- A byte of an unquoted word that does not end it. -/
def extend (word : Word) (byte : UInt8) : Option Mode :=
  if byte = 92 then some (.escaped (.plain word))
  else if byte = 39 then some (.single word)
  else if byte = 34 then some (.at (.double word))
  else if startsExpansion byte then none
  else some (.at (.plain (word ++ [⟨byte, false⟩])))

/-- A byte where no token is open. -/
def enter (byte : UInt8) : Option Mode :=
  if isBlank byte then some (.at .between)
  else if startsOperator byte then some (.at (.operator [byte]))
  else if byte = 35 then some .comment
  else if byte = 92 then some (.escaped .between)
  else extend [] byte

/-- A word before a delimiter. Unquoted digits before `<` or `>` are the number of a file descriptor. -/
def closeWord (word : Word) (byte : UInt8) : Token :=
  if word ≠ [] ∧ (word.all fun piece => !piece.quoted && (48 ≤ piece.byte && piece.byte ≤ 57)) ∧
      (byte = 60 ∨ byte = 62) then .ioNumber word
  else .word word

/-- One byte: the tokens that it completes, and the next mode. -/
def step : Mode → UInt8 → Option (List Token × Mode)
  | .at .between, byte => (enter byte).map fun mode => ([], mode)
  | .at (.operator chars), byte =>
      if chars ++ [byte] ∈ operators then some ([], .at (.operator (chars ++ [byte])))
      else if byte = 92 then some ([], .escaped (.operator chars))
      else (enter byte).map fun mode => ([.operator chars], mode)
  | .at (.plain word), byte =>
      if isDelimiter byte then (enter byte).map fun mode => ([closeWord word byte], mode)
      else (extend word byte).map fun mode => ([], mode)
  | .at (.double word), byte =>
      if byte = 34 then some ([], .at (.plain word))
      else if byte = 92 then some ([], .escaped (.double word))
      else if startsExpansion byte then none
      else some ([], .at (.double (word ++ [⟨byte, true⟩])))
  | .escaped place, byte =>
      if byte = 10 then some ([], .at place)
      else
        match place with
        | .between => some ([], .at (.plain [⟨byte, true⟩]))
        | .operator chars => some ([.operator chars], .at (.plain [⟨byte, true⟩]))
        | .plain word => some ([], .at (.plain (word ++ [⟨byte, true⟩])))
        | .double word =>
            if startsExpansion byte ∨ byte = 34 ∨ byte = 92 then
              some ([], .at (.double (word ++ [⟨byte, true⟩])))
            else some ([], .at (.double (word ++ [⟨92, true⟩, ⟨byte, true⟩])))
  | .single word, byte =>
      if byte = 39 then some ([], .at (.plain word))
      else some ([], .single (word ++ [⟨byte, true⟩]))
  | .comment, byte =>
      if byte = 10 then some ([], .at (.operator [10])) else some ([], .comment)

/-- The tokens that the end of the line completes; none in quotes or after a backslash. -/
def finish : Mode → Option (List Token)
  | .at .between => some []
  | .at (.operator chars) => some [.operator chars]
  | .at (.plain word) => some [.word word]
  | .comment => some []
  | _ => none

/-- The tokens of a line from a mode on. -/
def scan (mode : Mode) : Bytes → Option (List Token)
  | [] => finish mode
  | byte :: rest => (step mode byte).bind fun (tokens, next) =>
      (scan next rest).map fun later => tokens ++ later

/-- The tokens of a line. -/
def tokens (line : Bytes) : Option (List Token) :=
  scan (.at .between) line

/-! ### Words -/

/-- The rest of a bracket expression: it closes before any slash. -/
def closes : Word → Bool
  | [] => false
  | piece :: rest =>
      if piece = ⟨93, false⟩ then true
      else if piece.byte = 47 then false
      else closes rest

/-- What follows an opening bracket makes a bracket expression: after the mark for a complement, the
first byte does not close it. -/
def isBracket : Word → Bool
  | [] => false
  | piece :: rest =>
      if piece = ⟨33, false⟩ then
        match rest with
        | [] => false
        | first :: rest => first.byte != 47 && closes rest
      else piece.byte != 47 && closes rest

/-- The word is a pattern: it has an unquoted `*` or `?`, or a bracket expression. -/
def isPattern : Word → Bool
  | [] => false
  | piece :: rest =>
      piece = ⟨42, false⟩ || piece = ⟨63, false⟩ || (piece = ⟨91, false⟩ && isBracket rest) ||
        isPattern rest

/-- The word begins with an unquoted tilde. -/
def isTilde (word : Word) : Bool :=
  word.head? = some ⟨126, false⟩

/-- The bytes of a word. -/
def Word.bytes (word : Word) : Bytes :=
  word.map Piece.byte

/-- The bytes that a word stands for, if it stands for itself. -/
def Word.value (word : Word) : Option Bytes :=
  if isTilde word || isPattern word then none else some (Word.bytes word)

/-! ### Simple commands -/

/-- A word or a redirection of a simple command. -/
inductive Item
  | word (text : Bytes)
  | redirect (descriptor : Bytes) (operator target : Bytes)
deriving DecidableEq

/-- The operators of redirections, those of here-documents apart. -/
def redirections : List Bytes :=
  [[60], [62], [62, 62], [60, 38], [62, 38], [60, 62], [62, 124]]

/-- The words and the redirections of a simple command whose words stand for themselves, in order. -/
def items : List Token → Option (List Item)
  | [] => some []
  | .word word :: rest =>
      (Word.value word).bind fun text => (items rest).map fun later => .word text :: later
  | .ioNumber digits :: .operator chars :: .word word :: rest =>
      if chars ∈ redirections then
        (Word.value word).bind fun target => (items rest).map fun later =>
          .redirect (Word.bytes digits) chars target :: later
      else none
  | .operator chars :: .word word :: rest =>
      if chars ∈ redirections then
        (Word.value word).bind fun target => (items rest).map fun later =>
          .redirect [] chars target :: later
      else none
  | _ => none

/-- The line as a simple command. -/
def simpleCommand (line : Bytes) : Option (List Item) :=
  (tokens line).bind items

/-! ### Bytes that mean nothing -/

/-- A byte that stands for itself inside a word. -/
def ordinary (byte : UInt8) : Bool :=
  !isDelimiter byte && !startsExpansion byte && byte != 92 && byte != 39 && byte != 34

/-- The pieces of bytes that are not quoted. -/
def unquoted (text : Bytes) : Word :=
  text.map fun byte => ⟨byte, false⟩

/-- A text that is one word and stands for itself. -/
def Inert (text : Bytes) : Prop :=
  (∀ byte ∈ text, ordinary byte = true) ∧ text.head? ≠ some 35 ∧
    isTilde (unquoted text) = false ∧ isPattern (unquoted text) = false

instance (text : Bytes) : Decidable (Inert text) :=
  @instDecidableAnd _ _ (List.decidableBAll _ text) inferInstance

@[simp] theorem bytes_append (word other : Word) :
    Word.bytes (word ++ other) = Word.bytes word ++ Word.bytes other :=
  List.map_append

@[simp] theorem length_bytes (word : Word) : (Word.bytes word).length = word.length :=
  List.length_map _

@[simp] theorem bytes_unquoted (text : Bytes) : Word.bytes (unquoted text) = text := by
  rw [Word.bytes, unquoted, List.map_map]
  exact List.map_id _

theorem ordinary_iff {byte : UInt8} : ordinary byte = true ↔
    isDelimiter byte = false ∧ startsExpansion byte = false ∧ byte ≠ 92 ∧ byte ≠ 39 ∧ byte ≠ 34 := by
  simp [ordinary, and_assoc]

theorem extend_ordinary {byte : UInt8} (plain : ordinary byte = true) (word : Word) :
    extend word byte = some (.at (.plain (word ++ [⟨byte, false⟩]))) := by
  obtain ⟨-, expansion, slash, quote, double⟩ := ordinary_iff.mp plain
  rw [extend, if_neg slash, if_neg quote, if_neg double, expansion, if_neg (by decide)]

/-- An ordinary byte that is not a `#` begins a word. -/
theorem enter_ordinary {byte : UInt8} (plain : ordinary byte = true) (comment : byte ≠ 35) :
    enter byte = some (.at (.plain [⟨byte, false⟩])) := by
  obtain ⟨delimiter, -, slash, -, -⟩ := ordinary_iff.mp plain
  rw [isDelimiter, Bool.or_eq_false_iff] at delimiter
  rw [enter, delimiter.1, delimiter.2, if_neg (by decide), if_neg (by decide), if_neg comment,
    if_neg slash, extend_ordinary plain, List.nil_append]

theorem closeWord_blank {byte : UInt8} (blank : isBlank byte = true) (word : Word) :
    closeWord word byte = .word word := by
  refine if_neg fun both => ?_
  obtain ⟨-, -, rfl | rfl⟩ := both
  · revert blank
    decide
  · revert blank
    decide

/-- One step of a scan. -/
theorem scan_cons_eq_some {mode : Mode} {byte : UInt8} {rest : Bytes} {found : List Token} :
    scan mode (byte :: rest) = some found ↔ ∃ now next later, step mode byte = some (now, next) ∧
      scan next rest = some later ∧ found = now ++ later := by
  rw [scan, Option.bind_eq_some_iff]
  constructor
  · rintro ⟨⟨now, next⟩, moved, rest⟩
    obtain ⟨later, scanned, rfl⟩ := Option.map_eq_some_iff.mp rest
    exact ⟨now, next, later, moved, scanned, rfl⟩
  · rintro ⟨now, next, later, moved, scanned, rfl⟩
    exact ⟨(now, next), moved, Option.map_eq_some_iff.mpr ⟨later, scanned, rfl⟩⟩

/-- The rest of a word of ordinary bytes, up to a blank. -/
theorem scan_plain_ordinary {text : Bytes} (plain : ∀ byte ∈ text, ordinary byte = true)
    (word : Word) (rest : Bytes) : scan (.at (.plain word)) (text ++ 32 :: rest) =
      (scan (.at .between) rest).map fun later => .word (word ++ unquoted text) :: later := by
  induction text generalizing word with
  | nil =>
      rw [List.nil_append, scan]
      simp only [step, show isDelimiter 32 = true from rfl, if_true, enter,
        show isBlank 32 = true from rfl, Option.map_some, Option.bind_some,
        closeWord_blank (show isBlank 32 = true from rfl), List.cons_append, List.nil_append]
      rw [unquoted, List.map_nil, List.append_nil]
  | cons byte text ih =>
      have here := plain byte List.mem_cons_self
      rw [List.cons_append, scan, step, (ordinary_iff.mp here).1, if_neg (by decide),
        extend_ordinary here]
      simp only [Option.map_some, Option.bind_some, List.nil_append, Option.map_id']
      rw [ih (fun other member => plain other (List.mem_cons_of_mem _ member)), List.append_assoc]
      rfl

/-- Ordinary bytes between blanks are one word. -/
theorem scan_inert {text : Bytes} (inert : Inert text) (nonempty : text ≠ []) (rest : Bytes) :
    scan (.at .between) (text ++ 32 :: rest) =
      (scan (.at .between) rest).map fun later => .word (unquoted text) :: later := by
  cases text with
  | nil => exact absurd rfl nonempty
  | cons byte text =>
      obtain ⟨plain, comment, -, -⟩ := inert
      have here := plain byte List.mem_cons_self
      rw [List.cons_append, scan, step, enter_ordinary here fun same => comment (by rw [same]; rfl)]
      simp only [Option.map_some, Option.bind_some, List.nil_append, Option.map_id']
      rw [scan_plain_ordinary fun other member => plain other (List.mem_cons_of_mem _ member)]
      rfl

/-- An inert text stands for itself. -/
theorem value_inert {text : Bytes} (inert : Inert text) : Word.value (unquoted text) = some text := by
  rw [Word.value, inert.2.2.1, inert.2.2.2, Bool.or_self, if_neg (by decide), bytes_unquoted]

/-! ### The word at the beginning of a line -/

/-- The word that the scanner has begun, or would begin. -/
def Mode.begun : Mode → Option Word
  | .at .between => some []
  | .at (.plain word) => some word
  | .at (.double word) => some word
  | .escaped .between => some []
  | .escaped (.plain word) => some word
  | .escaped (.double word) => some word
  | .single word => some word
  | _ => none

/-- A backslash in double quotes, which may still become a part of the word. -/
def Mode.pending : Mode → ℕ
  | .escaped (.double _) => 1
  | _ => 0

/-- The number of hyphens in a word. -/
def hyphens (word : Word) : ℕ :=
  (Word.bytes word).count 45

theorem hyphens_append (word added : Word) : hyphens (word ++ added) = hyphens word + hyphens added := by
  rw [hyphens, bytes_append, List.count_append]
  rfl

theorem hyphens_byte (byte : UInt8) (quoted : Bool) : hyphens [⟨byte, quoted⟩] = [byte].count 45 :=
  rfl

/-- What one byte does to the word that the scanner has begun: the byte adds itself at most, and a hyphen
always; or the word ends; or there was none. -/
inductive Reads (mode : Mode) (word : Word) (byte : UInt8) : List Token → Mode → Prop
  | more {next : Mode} {added : Word} (begun : next.begun = some (word ++ added))
      (count : hyphens added = [byte].count 45)
      (length : added.length + next.pending ≤ mode.pending + 1) : Reads mode word byte [] next
  | other {next : Mode} (between : next.begun = none) : Reads mode word byte [] next
  | ended {next : Mode} (plain : mode = .at (.plain word)) (delimiter : isDelimiter byte = true)
      (entered : enter byte = some next) : Reads mode word byte [closeWord word byte] next

section Reading

variable {mode next : Mode} {word : Word} {byte : UInt8} {now : List Token}

/-- The byte becomes a part of the word. -/
theorem reads_piece {quoted : Bool} (begun : next.begun = some (word ++ [⟨byte, quoted⟩]))
    (pending : next.pending = 0) : Reads mode word byte [] next :=
  .more begun rfl (by rw [pending, List.length_singleton]; omega)

/-- The byte does not become a part of the word. -/
theorem reads_nothing (begun : next.begun = some word) (visible : byte ≠ 45)
    (pending : next.pending ≤ mode.pending + 1) : Reads mode word byte [] next := by
  refine .more (begun.trans (by rw [List.append_nil])) ?_ (by simpa using pending)
  rw [List.count_singleton, if_neg (by simpa using visible)]
  rfl

theorem reads_extend (moved : extend word byte = some next) : Reads mode word byte [] next := by
  revert moved
  fun_cases extend word byte with
  | case1 slash =>
      rintro ⟨⟩
      exact reads_nothing rfl (by rw [slash]; decide) (Nat.zero_le _)
  | case2 _ quote =>
      rintro ⟨⟩
      exact reads_nothing rfl (by rw [quote]; decide) (Nat.zero_le _)
  | case3 _ _ double =>
      rintro ⟨⟩
      exact reads_nothing rfl (by rw [double]; decide) (Nat.zero_le _)
  | case4 => simp
  | case5 =>
      rintro ⟨⟩
      exact reads_piece rfl rfl

theorem reads_enter (moved : enter byte = some next) : Reads mode [] byte [] next := by
  revert moved
  fun_cases enter byte with
  | case1 blank =>
      rintro ⟨⟩
      refine reads_nothing rfl ?_ (Nat.zero_le _)
      rintro rfl
      exact Bool.noConfusion blank
  | case2 =>
      rintro ⟨⟩
      exact .other rfl
  | case3 =>
      rintro ⟨⟩
      exact .other rfl
  | case4 _ _ _ slash =>
      rintro ⟨⟩
      exact reads_nothing rfl (by rw [slash]; decide) (Nat.zero_le _)
  | case5 => exact reads_extend

/-- One byte of a word. -/
theorem reads_step (begun : mode.begun = some word) (moved : step mode byte = some (now, next)) :
    Reads mode word byte now next := by
  revert moved
  fun_cases step mode byte with
  | case1 =>
      cases begun
      intro moved
      obtain ⟨mode, entered, same⟩ := Option.map_eq_some_iff.mp moved
      cases same
      exact reads_enter entered
  | case5 open_ _ delimiter =>
      cases begun
      intro moved
      obtain ⟨mode, entered, same⟩ := Option.map_eq_some_iff.mp moved
      cases same
      exact .ended rfl delimiter entered
  | case6 =>
      cases begun
      intro moved
      obtain ⟨mode, extended, same⟩ := Option.map_eq_some_iff.mp moved
      cases same
      exact reads_extend extended
  | case7 =>
      cases begun
      rintro ⟨⟩
      exact reads_nothing rfl (by decide) (Nat.zero_le _)
  | case8 =>
      cases begun
      rintro ⟨⟩
      exact reads_nothing rfl (by decide) (Nat.le_refl _)
  | case9 => simp
  | case11 place =>
      rintro ⟨⟩
      refine reads_nothing ?_ (by decide) (Nat.zero_le _)
      cases place <;> exact begun
  | case16 =>
      cases begun
      rintro ⟨⟩
      exact .more rfl (by simp [hyphens, Word.bytes]) (Nat.le_refl _)
  | case17 =>
      cases begun
      rintro ⟨⟩
      exact reads_nothing rfl (by decide) (Nat.zero_le _)
  | case10 | case12 | case14 | case15 | case18 =>
      cases begun
      rintro ⟨⟩
      exact reads_piece rfl rfl
  | case2 | case3 | case4 | case13 | case19 | case20 => cases begun

end Reading

/-- What is left of a line after a word: nothing, or a delimiter and more. -/
def Ends (rest : Bytes) : Prop :=
  ∀ byte, rest.head? = some byte → isDelimiter byte = true

/-- Where no word is begun, a byte begins none before an operator is complete. -/
theorem step_other {mode next : Mode} {byte : UInt8} {now : List Token} (unbegun : mode.begun = none)
    (moved : step mode byte = some (now, next)) :
    (now = [] ∧ next.begun = none) ∨ ∃ chars, now = [.operator chars] := by
  revert moved
  fun_cases step mode byte with
  | case4 =>
      intro moved
      obtain ⟨mode, -, same⟩ := Option.map_eq_some_iff.mp moved
      cases same
      exact Or.inr ⟨_, rfl⟩
  | case11 place =>
      rintro ⟨⟩
      left
      refine ⟨rfl, ?_⟩
      cases place <;> first | rfl | cases unbegun
  | case13 =>
      rintro ⟨⟩
      exact Or.inr ⟨_, rfl⟩
  | case2 | case3 | case19 | case20 =>
      rintro ⟨⟩
      exact Or.inl ⟨rfl, rfl⟩
  | case1 | case5 | case6 | case7 | case8 | case9 | case10 | case12 | case14 | case15 | case16
  | case17 | case18 => cases unbegun

/-- Where no word is begun, the next token is not a word. -/
theorem scan_other {mode : Mode} {line : Bytes} {word : Word} {later : List Token}
    (unbegun : mode.begun = none) : scan mode line ≠ some (.word word :: later) := by
  induction line generalizing mode with
  | nil =>
      intro scanned
      cases mode with
      | «at» place =>
          cases place with
          | operator chars => simp [scan, finish] at scanned
          | _ => cases unbegun
      | comment => simp [scan, finish] at scanned
      | _ => simp [scan, finish] at scanned
  | cons byte rest ih =>
      intro scanned
      obtain ⟨now, next, found, moved, onwards, shape⟩ := scan_cons_eq_some.mp scanned
      rcases step_other unbegun moved with ⟨rfl, unbegun⟩ | ⟨chars, rfl⟩
      · rw [List.nil_append] at shape
        subst shape
        exact ih unbegun onwards
      · cases shape

theorem closeWord_eq_word {begun word : Word} {byte : UInt8}
    (same : closeWord begun byte = .word word) : begun = word := by
  revert same
  fun_cases closeWord begun byte <;> simp

/-- A word at the end of a line. -/
theorem finish_eq_word {mode : Mode} {word : Word} {later : List Token}
    (finished : finish mode = some (.word word :: later)) :
    mode = .at (.plain word) ∧ later = [] := by
  revert finished
  fun_cases finish mode <;> simp

/-- What a word takes of a line: the bytes up to a delimiter or the end, with the hyphens that the word has more. -/
structure Takes (line : Bytes) (word : Word) (later : List Token) (before : ℕ) (taken rest : Bytes) : Prop where
  whole : line = taken ++ rest
  ends : Ends rest
  after : scan (.at .between) rest = some later
  count : hyphens word = before + taken.count 45

section Takes

variable {line taken rest : Bytes} {word : Word} {later : List Token} {byte : UInt8} {before fewer : ℕ}

/-- At the end of a line it takes nothing more, -/
theorem Takes.nil : Takes [] word [] (hyphens word) [] [] where
  whole := rfl
  ends := by simp [Ends]
  after := rfl
  count := rfl

/-- nor before a delimiter. -/
theorem Takes.delimited {next : Mode} (delimiter : isDelimiter byte = true) (entered : enter byte = some next)
    (onwards : scan next line = some later) : Takes (byte :: line) word later (hyphens word) [] (byte :: line) where
  whole := rfl
  ends := by
    intro other first
    cases first
    exact delimiter
  after := scan_cons_eq_some.mpr ⟨[], next, later, by rw [step, entered, Option.map_some], onwards, rfl⟩
  count := rfl

/-- One more byte in front. -/
theorem Takes.cons (takes : Takes line word later before taken rest) (one : before = fewer + [byte].count 45) :
    Takes (byte :: line) word later fewer (byte :: taken) rest where
  whole := by rw [takes.whole, List.cons_append]
  ends := takes.ends
  after := takes.after
  count := by rw [takes.count, one, Nat.add_assoc, ← List.count_append, List.singleton_append]

/-- One more byte in front that is no hyphen. -/
theorem Takes.cons_other (takes : Takes line word later before taken rest) (visible : byte ≠ 45) :
    Takes (byte :: line) word later before (byte :: taken) rest :=
  takes.cons (by rw [List.count_singleton, if_neg (by simpa using visible), Nat.add_zero])

end Takes

/-- The word that the scanner has begun: the bytes that it takes add no more than themselves, and all
their hyphens. -/
theorem scan_begun {mode : Mode} {begun word : Word} {line : Bytes} {later : List Token}
    (open_ : mode.begun = some begun) (scanned : scan mode line = some (.word word :: later)) :
    ∃ taken rest, Takes line word later (hyphens begun) taken rest ∧
      word.length ≤ begun.length + mode.pending + taken.length := by
  induction line generalizing mode begun with
  | nil =>
      obtain ⟨rfl, rfl⟩ := finish_eq_word scanned
      cases open_
      exact ⟨[], [], Takes.nil, Nat.le_refl _⟩
  | cons byte line ih =>
      obtain ⟨now, next, found, moved, onwards, shape⟩ := scan_cons_eq_some.mp scanned
      cases reads_step open_ moved with
      | @more next added same count length =>
          rw [List.nil_append] at shape
          subst shape
          obtain ⟨taken, rest, takes, bound⟩ := ih same onwards
          refine ⟨byte :: taken, rest, takes.cons (by rw [hyphens_append, count]), ?_⟩
          rw [List.length_append] at bound
          rw [List.length_cons]
          omega
      | other between =>
          rw [List.nil_append] at shape
          subst shape
          exact absurd onwards (scan_other between)
      | @ended next plain delimiter entered =>
          obtain ⟨same, rfl⟩ := List.cons.inj shape
          obtain rfl := closeWord_eq_word same.symm
          exact ⟨[], byte :: line, Takes.delimited delimiter entered onwards, by simp⟩

/-- A quoting character: it takes the scanner out of the unquoted part, and is no part of the word. -/
theorem extend_quote {begun : Word} {byte : UInt8} {next : Mode}
    (extended : extend begun byte = some next) :
    next = .at (.plain (begun ++ [⟨byte, false⟩])) ∨
      next.begun = some begun ∧ next.pending = 0 ∧ byte ≠ 45 := by
  revert extended
  fun_cases extend begun byte with
  | case1 slash =>
      rintro ⟨⟩
      exact Or.inr ⟨rfl, rfl, by rw [slash]; decide⟩
  | case2 _ quote =>
      rintro ⟨⟩
      exact Or.inr ⟨rfl, rfl, by rw [quote]; decide⟩
  | case3 _ _ double =>
      rintro ⟨⟩
      exact Or.inr ⟨rfl, rfl, by rw [double]; decide⟩
  | case4 => simp
  | case5 =>
      rintro ⟨⟩
      exact Or.inl rfl

theorem ordinary_of_extend {begun word : Word} {byte : UInt8} (inside : isDelimiter byte = false)
    (extended : extend begun byte = some (.at (.plain word))) : ordinary byte = true := by
  revert extended
  fun_cases extend begun byte with
  | case5 slash quote double expansion =>
      intro _
      exact ordinary_iff.mpr ⟨inside, by simpa using expansion, slash, quote, double⟩
  | _ => simp

/-- An unquoted word goes on with ordinary bytes, or takes more bytes than it becomes longer. -/
theorem scan_plain {begun word : Word} {line : Bytes} {later : List Token}
    (scanned : scan (.at (.plain begun)) line = some (.word word :: later)) :
    ∃ taken rest, Takes line word later (hyphens begun) taken rest ∧
      (((∀ byte ∈ taken, ordinary byte = true) ∧ word = begun ++ unquoted taken) ∨
        word.length < begun.length + taken.length) := by
  induction line generalizing begun with
  | nil =>
      obtain ⟨same, rfl⟩ := finish_eq_word scanned
      cases same
      exact ⟨[], [], Takes.nil, Or.inl ⟨by simp, by simp [unquoted]⟩⟩
  | cons byte line ih =>
      obtain ⟨now, next, found, moved, onwards, shape⟩ := scan_cons_eq_some.mp scanned
      rw [step] at moved
      split at moved
      · rename_i delimiter
        obtain ⟨mode, entered, same⟩ := Option.map_eq_some_iff.mp moved
        cases same
        obtain ⟨same, rfl⟩ := List.cons.inj shape
        obtain rfl := closeWord_eq_word same.symm
        exact ⟨[], byte :: line, Takes.delimited delimiter entered onwards, Or.inl ⟨by simp, by simp [unquoted]⟩⟩
      · rename_i inside
        obtain ⟨mode, extended, same⟩ := Option.map_eq_some_iff.mp moved
        cases same
        rw [List.nil_append] at shape
        subst shape
        rcases extend_quote extended with rfl | ⟨open_, pending, visible⟩
        · obtain ⟨taken, rest, takes, either⟩ := ih onwards
          refine ⟨byte :: taken, rest, takes.cons (by rw [hyphens_append, hyphens_byte]), ?_⟩
          rcases either with ⟨plain, same⟩ | fewer
          · left
            refine ⟨List.forall_mem_cons.mpr ⟨?_, plain⟩, ?_⟩
            · exact ordinary_of_extend (by simpa using inside) extended
            · rw [same, List.append_assoc]
              rfl
          · right
            rw [List.length_append, List.length_singleton] at fewer
            rw [List.length_cons]
            omega
        · obtain ⟨taken, rest, takes, bound⟩ := scan_begun open_ onwards
          refine ⟨byte :: taken, rest, takes.cons_other visible, Or.inr ?_⟩
          rw [List.length_cons]
          omega

/-- A byte of a line before its first word. -/
theorem enter_cases {byte : UInt8} {next : Mode} (entered : enter byte = some next) :
    (isBlank byte = true ∧ next = .at .between) ∨ next.begun = none ∨
      (ordinary byte = true ∧ byte ≠ 35 ∧ next = .at (.plain [⟨byte, false⟩])) ∨
      next.begun = some [] ∧ next.pending = 0 ∧ byte ≠ 45 := by
  revert entered
  fun_cases enter byte with
  | case1 blank =>
      rintro ⟨⟩
      exact Or.inl ⟨blank, rfl⟩
  | case2 =>
      rintro ⟨⟩
      exact Or.inr (Or.inl rfl)
  | case3 =>
      rintro ⟨⟩
      exact Or.inr (Or.inl rfl)
  | case4 _ _ _ slash =>
      rintro ⟨⟩
      exact Or.inr (Or.inr (Or.inr ⟨rfl, rfl, by rw [slash]; decide⟩))
  | case5 blank operator comment slash =>
      intro extended
      have inside : isDelimiter byte = false := by simp [isDelimiter, blank, operator]
      rcases extend_quote extended with rfl | quote
      · exact Or.inr (Or.inr (Or.inl ⟨ordinary_of_extend inside extended, comment, rfl⟩))
      · exact Or.inr (Or.inr (Or.inr quote))

/-- The first word of a line is the ordinary bytes at its beginning, or is shorter than what it takes. -/
theorem tokens_word {word : Word} {line : Bytes} {later : List Token}
    (scanned : tokens line = some (.word word :: later)) :
    ∃ taken rest, Takes line word later 0 taken rest ∧
      (((∀ byte ∈ taken, ordinary byte = true) ∧ taken.head? ≠ some 35 ∧ word = unquoted taken) ∨
        word.length < taken.length) := by
  induction line with
  | nil => simp [tokens, scan, finish] at scanned
  | cons byte line ih =>
      obtain ⟨now, next, found, moved, onwards, shape⟩ := scan_cons_eq_some.mp scanned
      rw [step] at moved
      obtain ⟨mode, entered, same⟩ := Option.map_eq_some_iff.mp moved
      cases same
      rw [List.nil_append] at shape
      subst shape
      rcases enter_cases entered with ⟨blank, rfl⟩ | unbegun | ⟨plain, comment, rfl⟩ |
        ⟨open_, pending, visible⟩
      · obtain ⟨taken, rest, takes, either⟩ := ih onwards
        have visible : byte ≠ 45 := by
          rintro rfl
          exact Bool.noConfusion blank
        refine ⟨byte :: taken, rest, takes.cons_other visible, Or.inr ?_⟩
        rcases either with ⟨-, -, rfl⟩ | fewer
        · simp [unquoted]
        · rw [List.length_cons]
          omega
      · exact absurd onwards (scan_other unbegun)
      · obtain ⟨taken, rest, takes, either⟩ := scan_plain onwards
        refine ⟨byte :: taken, rest, takes.cons (by rw [hyphens_byte, Nat.zero_add]), ?_⟩
        rcases either with ⟨others, rfl⟩ | fewer
        · refine Or.inl ⟨List.forall_mem_cons.mpr ⟨plain, others⟩, ?_, rfl⟩
          simpa using comment
        · right
          rw [List.length_singleton] at fewer
          rw [List.length_cons]
          omega
      · obtain ⟨taken, rest, takes, bound⟩ := scan_begun open_ onwards
        refine ⟨byte :: taken, rest, takes.cons_other visible, Or.inr ?_⟩
        rw [List.length_nil] at bound
        rw [List.length_cons]
        omega

/-- A line too short for a word does not begin with it. -/
theorem tokens_short {word : Word} {line : Bytes} {later : List Token}
    (short : line.length < word.length) : tokens line ≠ some (.word word :: later) := by
  intro scanned
  obtain ⟨taken, rest, ⟨rfl, -, -, -⟩, either⟩ := tokens_word scanned
  rw [List.length_append] at short
  rcases either with ⟨-, -, rfl⟩ | fewer
  · rw [unquoted, List.length_map] at short
    omega
  · omega

/-- If a line begins with a word of the bytes before the next option, the word is these bytes, and they
mean nothing to the shell: a word that took the option too would have its hyphen, and one that took less
would be too short. -/
theorem ordinary_of_word {text rest : Bytes} {word : Word} {later : List Token}
    (same : Word.bytes word = text)
    (scanned : tokens (text ++ 32 :: 45 :: rest) = some (.word word :: later)) :
    (∀ byte ∈ text, ordinary byte = true) ∧ text.head? ≠ some 35 ∧ word = unquoted text ∧
      tokens (32 :: 45 :: rest) = some later := by
  obtain ⟨taken, left, ⟨split, ends, after, hyphen⟩, either⟩ := tokens_word scanned
  have length : word.length = text.length := by rw [← same, length_bytes]
  have count : text.count 45 = taken.count 45 := by rw [← same, ← Nat.zero_add (taken.count 45), ← hyphen, hyphens]
  have whole : taken = text ∧ left = 32 :: 45 :: rest := by
    rcases List.append_eq_append_iff.mp split with ⟨more, taken_eq, rest_eq⟩ | ⟨more, text_eq, left_eq⟩
    · match more with
      | [] => exact ⟨by rw [taken_eq, List.append_nil], by rw [rest_eq, List.nil_append]⟩
      | [blank] =>
          obtain ⟨-, rfl⟩ := List.cons.inj rest_eq
          exact absurd (ends 45 rfl) (by decide)
      | blank :: hyphen :: more =>
          obtain ⟨rfl, tail⟩ := List.cons.inj rest_eq
          obtain ⟨rfl, -⟩ := List.cons.inj tail
          rw [taken_eq, List.count_append, List.count_cons, List.count_cons_self] at count
          omega
    · have nothing : more = [] := by
        rw [text_eq, List.length_append] at length
        refine List.length_eq_zero_iff.mp ?_
        rcases either with ⟨-, -, rfl⟩ | fewer
        · rw [unquoted, List.length_map] at length
          omega
        · omega
      exact ⟨by rw [text_eq, nothing, List.append_nil], by rw [left_eq, nothing, List.nil_append]⟩
  obtain ⟨rfl, rfl⟩ := whole
  rcases either with ⟨plain, comment, rfl⟩ | fewer
  · exact ⟨plain, comment, rfl, after⟩
  · omega

/-! ### Words of a command -/

section Command

variable {text rest line : Bytes} {later : List Item}

/-- An inert text is a word of the command. -/
theorem simpleCommand_inert (inert : Inert text) (nonempty : text ≠ []) :
    simpleCommand (text ++ 32 :: rest) = some (.word text :: later) ↔
      simpleCommand rest = some later := by
  rw [simpleCommand, tokens, scan_inert inert nonempty, simpleCommand, tokens]
  cases scan (.at .between) rest with
  | none => simp
  | some found =>
      simp only [Option.map_some, Option.bind_some, items, value_inert inert]
      cases items found <;> simp

/-- A command that begins with a word. -/
theorem tokens_of_simpleCommand (command : simpleCommand line = some (.word text :: later)) :
    ∃ word found, tokens line = some (.word word :: found) ∧ Word.value word = some text ∧
      items found = some later := by
  obtain ⟨found, scanned, read⟩ := Option.bind_eq_some_iff.mp command
  revert scanned read
  fun_cases items found with
  | case1 => simp
  | case2 word found =>
      intro scanned read
      obtain ⟨value, stands, read⟩ := Option.bind_eq_some_iff.mp read
      obtain ⟨others, read, same⟩ := Option.map_eq_some_iff.mp read
      cases same
      exact ⟨word, found, scanned, stands, read⟩
  | case3 =>
      intro _ read
      obtain ⟨value, -, read⟩ := Option.bind_eq_some_iff.mp read
      obtain ⟨others, -, same⟩ := Option.map_eq_some_iff.mp read
      cases same
  | case4 => simp
  | case5 =>
      intro _ read
      obtain ⟨value, -, read⟩ := Option.bind_eq_some_iff.mp read
      obtain ⟨others, -, same⟩ := Option.map_eq_some_iff.mp read
      cases same
  | case6 => simp
  | case7 => simp

/-- The bytes of a word that stands for a text. -/
theorem value_eq_some {word : Word} (value : Word.value word = some text) :
    Word.bytes word = text ∧ isTilde word = false ∧ isPattern word = false := by
  obtain ⟨plain, same⟩ := Option.ite_none_left_eq_some.mp value
  rw [Bool.or_eq_true, not_or, Bool.not_eq_true, Bool.not_eq_true] at plain
  exact ⟨Option.some.inj same, plain⟩

/-- Before an option, a text is a word of the command that stands for itself only if it is inert. -/
theorem simpleCommand_word_iff (nonempty : text ≠ []) :
    simpleCommand (text ++ 32 :: 45 :: rest) = some (.word text :: later) ↔
      Inert text ∧ simpleCommand (45 :: rest) = some later := by
  constructor
  · intro command
    obtain ⟨word, found, scanned, value, read⟩ := tokens_of_simpleCommand command
    obtain ⟨same, tilde, pattern⟩ := value_eq_some value
    obtain ⟨plain, comment, rfl, after⟩ := ordinary_of_word same scanned
    have inert : Inert text := ⟨plain, comment, tilde, pattern⟩
    exact ⟨inert, (simpleCommand_inert inert nonempty).mp command⟩
  · rintro ⟨inert, command⟩
    exact (simpleCommand_inert inert nonempty).mpr command

/-- A line too short for a text does not begin with it. -/
theorem simpleCommand_short (short : line.length < text.length) :
    simpleCommand line ≠ some (.word text :: later) := by
  intro command
  obtain ⟨word, found, scanned, value, -⟩ := tokens_of_simpleCommand command
  refine tokens_short ?_ scanned
  rwa [← length_bytes, (value_eq_some value).1]

end Command

end Shell
