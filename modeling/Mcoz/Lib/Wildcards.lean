/-
Patterns with a wildcard, and the languages that they stand for.

Each character of a pattern stands for a language: the wildcard for all texts, every other character for
itself. The language of the pattern is the product of these.

* `mem_language_cons`, `mem_language_wild`: the first character of a pattern;
* `mem_language_concat_wild`: a wildcard at the end of a pattern.
-/

import Mathlib.Computability.Language

set_option autoImplicit false

namespace Wildcards

variable {α : Type} [DecidableEq α] {wild : α}

/-- What a character of a pattern stands for. -/
def letter (wild ch : α) : Language α :=
  if ch = wild then ⊤ else {[ch]}

/-- The language of a pattern. -/
def language (wild : α) (pattern : List α) : Language α :=
  (pattern.map (letter wild)).prod

variable {ch : α} {pattern text : List α}

theorem mem_language_nil : text ∈ language wild [] ↔ text = [] :=
  Language.mem_one text

theorem mem_language_append {front back : List α} :
    text ∈ language wild (front ++ back) ↔
      ∃ first ∈ language wild front, ∃ second ∈ language wild back, first ++ second = text := by
  rw [language, List.map_append, List.prod_append]
  exact Language.mem_mul

theorem mem_language_cons (plain : ch ≠ wild) :
    text ∈ language wild (ch :: pattern) ↔ ∃ rest ∈ language wild pattern, text = ch :: rest := by
  rw [language, List.map_cons, List.prod_cons, letter, if_neg plain, Language.mem_mul]
  constructor
  · rintro ⟨first, rfl, rest, inside, rfl⟩
    exact ⟨rest, inside, rfl⟩
  · rintro ⟨rest, inside, rfl⟩
    exact ⟨[ch], rfl, rest, inside, rfl⟩

theorem mem_language_wild :
    text ∈ language wild (wild :: pattern) ↔ ∃ rest ∈ language wild pattern, rest <:+ text := by
  rw [language, List.map_cons, List.prod_cons, letter, if_pos rfl, Language.mem_mul]
  constructor
  · rintro ⟨run, -, rest, inside, rfl⟩
    exact ⟨rest, inside, List.suffix_append run rest⟩
  · rintro ⟨rest, inside, run, rfl⟩
    exact ⟨run, trivial, rest, inside, rfl⟩

theorem mem_language_concat_wild :
    text ∈ language wild (pattern ++ [wild]) ↔ ∃ front ∈ language wild pattern, front <+: text := by
  rw [mem_language_append]
  constructor
  · rintro ⟨front, inside, run, -, rfl⟩
    exact ⟨front, inside, List.prefix_append front run⟩
  · rintro ⟨front, inside, run, rfl⟩
    exact ⟨front, inside, run, mem_language_wild.mpr ⟨[], mem_language_nil.mpr rfl, List.nil_suffix⟩, rfl⟩

end Wildcards
