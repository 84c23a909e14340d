/-
Texts in single quotes.

A text in single quotes, with every quote in it taken out, quoted by a backslash and followed by a new opening quote,
is one word of a command that stands for the text, whatever bytes it has (`simpleCommand_quote`).
-/

import Mcoz.Lib.Shell

set_option autoImplicit false

namespace ShellQuote

open Word Shell

/-- The text behind the opening quote. -/
def quoteRest : Bytes → Bytes
  | [] => [39]
  | byte :: rest => if byte = 39 then 39 :: 92 :: 39 :: 39 :: quoteRest rest else byte :: quoteRest rest

/-- The text in single quotes. -/
def quote (text : Bytes) : Bytes :=
  39 :: quoteRest text

/-- The pieces of quoted bytes. -/
def quoted (text : Bytes) : Word :=
  text.map fun byte => ⟨byte, true⟩

variable {text rest : Bytes} {word : Word} {later : List Item}

/-- What the scanner makes of a quoted text: its bytes, one by one. -/
theorem scan_quoteRest :
    scan (.single word) (quoteRest text ++ rest) = scan (.at (.plain (word ++ quoted text))) rest := by
  induction text generalizing word with
  | nil =>
      rw [quoteRest, List.singleton_append, scan, step, if_pos rfl]
      simp [quoted]
  | cons byte text ih =>
      have next : word ++ quoted (byte :: text) = (word ++ [⟨byte, true⟩]) ++ quoted text := by
        rw [List.append_assoc]
        rfl
      rw [quoteRest, next]
      by_cases quote : byte = 39
      · subst quote
        rw [if_pos rfl, List.cons_append, scan, step, if_pos rfl]
        simp only [Option.bind_some, List.nil_append, Option.map_id', List.cons_append]
        rw [scan, step, show isDelimiter 92 = false from rfl, if_neg (by decide), extend, if_pos rfl]
        simp only [Option.map_some, Option.bind_some, List.nil_append, Option.map_id']
        rw [scan, step, if_neg (by decide)]
        simp only [Option.bind_some, List.nil_append, Option.map_id']
        rw [scan, step, show isDelimiter 39 = false from rfl, if_neg (by decide), extend, if_neg (by decide), if_pos rfl]
        simp only [Option.map_some, Option.bind_some, List.nil_append, Option.map_id']
        exact ih
      · rw [if_neg quote, List.cons_append, scan, step, if_neg quote]
        simp only [Option.bind_some, List.nil_append, Option.map_id']
        exact ih

/-- A quoted word before a blank. -/
theorem scan_quote : scan (.at .between) (quote text ++ 32 :: rest) =
    (scan (.at .between) rest).map fun later => .word (quoted text) :: later := by
  have opened : step (.at .between) 39 = some ([], .single []) := rfl
  have ended := @scan_plain_ordinary [] (fun byte among => by cases among) (quoted text) rest
  rw [List.nil_append, unquoted, List.map_nil, List.append_nil] at ended
  rw [quote, List.cons_append, scan, opened]
  simp only [Option.bind_some, List.nil_append, Option.map_id']
  rw [scan_quoteRest, List.nil_append, ended]

theorem isPattern_quoted : isPattern (quoted text) = false := by
  induction text with
  | nil => rfl
  | cons byte text ih =>
      rw [quoted, List.map_cons, isPattern, ← quoted, ih]
      simp

/-- A quoted text stands for itself. -/
theorem value_quoted : Word.value (quoted text) = some text := by
  have tilde : isTilde (quoted text) = false := by
    cases text <;> simp [isTilde, quoted]
  have bytes : Word.bytes (quoted text) = text := by
    rw [Word.bytes, quoted, List.map_map]
    exact List.map_id _
  rw [Word.value, tilde, isPattern_quoted, Bool.or_self, if_neg (by decide), bytes]

/-- **A quoted text is a word of the command.** -/
theorem simpleCommand_quote : simpleCommand (quote text ++ 32 :: rest) = some (.word text :: later) ↔
    simpleCommand rest = some later := by
  rw [simpleCommand, tokens, scan_quote, simpleCommand, tokens]
  cases scan (.at .between) rest with
  | none => simp
  | some found =>
      simp only [Option.map_some, Option.bind_some, items, value_quoted]
      cases items found <;> simp

/-- The bytes of a quoted text are its own, quotes and backslashes. -/
theorem mem_quote {byte : UInt8} (among : byte ∈ quote text) : byte ∈ text ∨ byte = 39 ∨ byte = 92 := by
  have inner : ∀ {text : Bytes}, byte ∈ quoteRest text → byte ∈ text ∨ byte = 39 ∨ byte = 92 := by
    intro text
    induction text with
    | nil => exact fun among => .inr (.inl (List.mem_singleton.mp among))
    | cons first text ih =>
        intro among
        rw [quoteRest] at among
        split at among
        · simp only [List.mem_cons] at among
          grind
        · rcases List.mem_cons.mp among with rfl | later
          · exact .inl List.mem_cons_self
          · exact (ih later).imp_left (List.mem_cons_of_mem _)
  rcases List.mem_cons.mp among with rfl | later
  · exact .inr (.inl rfl)
  · exact inner later

end ShellQuote
