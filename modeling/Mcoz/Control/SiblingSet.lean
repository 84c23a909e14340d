/-
The sets of siblings as the control API reads them.

`_parse_sibling_set` splits what stands between the braces at the commas. It reads a printed set back as it was
(`parseSiblingSet_printSet`), so it sees the components that the analyzer found.
-/

import Mcoz.Analyzer.SiblingSets
import Mcoz.Lib.Separated
import Mcoz.Lib.Text

set_option autoImplicit false

namespace Mcoz.Control

open Analyzer SortUnique Separated

/-! ### Reading a set -/

/-- White space as `str.strip` and the regular expression have it. -/
def isWhitespace (char : Char) : Bool :=
  [133, 160, 5760, 8232, 8233, 8239, 8287, 12288].contains char.toNat ||
    (9 ≤ char.toNat && char.toNat ≤ 13) || (28 ≤ char.toNat && char.toNat ≤ 32) ||
      (8192 ≤ char.toNat && char.toNat ≤ 8202)

/-- `str.strip`. -/
def strip (text : List Char) : List Char :=
  ((text.dropWhile isWhitespace).reverse.dropWhile isWhitespace).reverse

/-- The group of `SIBLING_SET_REGEX`, if the whole text matches. -/
def setGroup (text : List Char) : Option (List Char) :=
  let group := text.tail.dropLast
  if text.head? = some '\x7b' ∧ text.tail.getLast? = some '\x7d' ∧ group ≠ [] ∧
      group.all (fun char => char.isDigit || char = ',' || isWhitespace char) then some group
  else none

/-- `int` of a part of the group: white space among the digits is an error. -/
def parseInt (part : List Char) : Option ℕ :=
  if part.all Char.isDigit then some (Nat.ofDigitChars 10 part 0) else none

/-- `_parse_sibling_set` of a string. -/
def parseSiblingSet (raw : List Char) : List ℕ :=
  match setGroup (strip raw) with
  | none => []
  | some group =>
      match (((group.splitOn ',').map strip).filter (· ≠ [])).mapM parseInt with
      | none => []
      | some values => sortUnique idLe values

section Reading

variable {text : List Char} {char : Char} {set : List ℕ}

/-- A text without white space at its ends is not changed. -/
theorem strip_eq_self (first : ∀ char, text.head? = some char → isWhitespace char = false)
    (last : ∀ char, text.getLast? = some char → isWhitespace char = false) : strip text = text := by
  have kept (text : List Char) (visible : ∀ char, text.head? = Option.some char → isWhitespace char = false) :
      text.dropWhile isWhitespace = text := by
    cases text with
    | nil => rfl
    | cons char rest => rw [List.dropWhile_cons, visible char rfl, if_neg (by decide)]
  rw [strip, kept text first, kept text.reverse, List.reverse_reverse]
  rw [List.head?_reverse]
  exact last

/-- A character of a printed id. -/
theorem isWhitespace_digit (digit : char.isDigit = true) : isWhitespace char = false ∧ char ≠ ',' := by
  have bounds := Text.digit_bounds digit
  constructor
  · simp only [isWhitespace, List.contains_eq_mem, List.mem_cons, List.not_mem_nil, or_false, Bool.or_eq_false_iff,
      Bool.and_eq_false_iff, decide_eq_false_iff_not]
    omega
  · rintro rfl
    exact absurd bounds (by decide)

theorem isDigit_toDigits {id : ℕ} (among : char ∈ Nat.toDigits 10 id) : char.isDigit = true :=
  Nat.isDigit_of_mem_toDigits (by decide) (by decide) among

/-- Between the braces, after the first id, each has a comma before it. -/
theorem intercalate_ids {first : List Char} {rest : List (List Char)} :
    [','].intercalate (first :: rest) = first ++ rest.flatMap (',' :: ·) := by
  induction rest generalizing first with
  | nil => rw [List.intercalate_singleton, List.flatMap_nil, List.append_nil]
  | cons second rest ih =>
      rw [List.intercalate_cons_cons, ih, List.flatMap_cons, List.append_assoc]
      rfl

/-- The parts between the commas are the ids. -/
theorem parts_printed {first : ℕ} {rest : List ℕ} :
    ((([','].intercalate ((first :: rest).map (Nat.toDigits 10))).splitOn ',').map strip).filter (· ≠ []) =
      (first :: rest).map (Nat.toDigits 10) := by
  have whole (id : ℕ) : ',' ∉ Nat.toDigits 10 id :=
    fun among => (isWhitespace_digit (isDigit_toDigits among)).2 rfl
  have apart : ∀ part ∈ rest.map (Nat.toDigits 10), ',' ∉ part := by
    intro part among
    obtain ⟨id, -, rfl⟩ := List.mem_map.mp among
    exact whole id
  have stripped (id : ℕ) : strip (Nat.toDigits 10 id) = Nat.toDigits 10 id :=
    strip_eq_self (fun char first => (isWhitespace_digit (isDigit_toDigits (List.mem_of_head? first))).1)
      fun char last => (isWhitespace_digit (isDigit_toDigits (List.mem_of_getLast? last))).1
  have same : ((first :: rest).map (Nat.toDigits 10)).map strip = (first :: rest).map (Nat.toDigits 10) := by
    rw [List.map_map]
    exact List.map_congr_left fun id _ => stripped id
  rw [List.map_cons, intercalate_ids, splitOn_flatMap (whole first) apart, ← List.map_cons, same,
    List.filter_eq_self]
  intro part among
  obtain ⟨id, -, rfl⟩ := List.mem_map.mp among
  exact decide_eq_true Nat.toDigits_ne_nil

/-- The digits of an id are read back. -/
theorem mapM_parseInt : (set.map (Nat.toDigits 10)).mapM parseInt = some set := by
  have digits (id : ℕ) : parseInt (Nat.toDigits 10 id) = some id := by
    rw [parseInt, if_pos (List.all_eq_true.mpr fun char among => isDigit_toDigits among),
      Nat.ofDigitChars_ten_toDigits]
  induction set with
  | nil => rfl
  | cons first rest ih => rw [List.map_cons, List.mapM_cons, digits, ih]; rfl

/-- **A printed set is read back.** -/
theorem parseSiblingSet_printSet (sorted : set.Pairwise (· < ·)) : parseSiblingSet (printSet set) = set := by
  have trimmed : strip (printSet set) = printSet set := by
    refine strip_eq_self (fun char first => ?_) fun char last => ?_
    · obtain rfl : '\x7b' = char := Option.some.inj first
      decide
    · rw [printSet, List.getLast?_concat] at last
      obtain rfl := Option.some.inj last
      decide
  rw [parseSiblingSet, trimmed]
  cases set with
  | nil => rfl
  | cons first rest =>
      have visible : [','].intercalate ((first :: rest).map (Nat.toDigits 10)) ≠ [] := by
        rw [List.map_cons, intercalate_ids]
        exact List.append_ne_nil_of_left_ne_nil Nat.toDigits_ne_nil _
      have plain : ([','].intercalate ((first :: rest).map (Nat.toDigits 10))).all
          (fun char => char.isDigit || char = ',' || isWhitespace char) = true := by
        refine List.all_eq_true.mpr fun char among => ?_
        rw [List.map_cons, intercalate_ids, List.mem_append, List.mem_flatMap] at among
        rcases among with here | ⟨part, there, inside⟩
        · rw [isDigit_toDigits here]
          rfl
        · obtain ⟨id, -, rfl⟩ := List.mem_map.mp there
          rcases List.mem_cons.mp inside with rfl | digit
          · rfl
          · rw [isDigit_toDigits digit]
            rfl
      have group : setGroup (printSet (first :: rest)) =
          some ([','].intercalate ((first :: rest).map (Nat.toDigits 10))) := by
        have tail : (printSet (first :: rest)).tail =
            [','].intercalate ((first :: rest).map (Nat.toDigits 10)) ++ ['\x7d'] := rfl
        rw [setGroup, tail, List.dropLast_concat, List.getLast?_concat]
        exact if_pos ⟨rfl, rfl, visible, plain⟩
      have strict : (first :: rest).Pairwise fun a b => idLe a b = true ∧ a ≠ b :=
        sorted.imp fun less => ⟨decide_eq_true less.le, less.ne⟩
      rw [group]
      dsimp only
      rw [parts_printed, mapM_parseInt]
      exact sortUnique_of_strict strict

end Reading

/-! ### The analyzer's sets -/

section Sets

variable {order : SetOrder} {turns : ℕ} {intervals : List (String × ServiceIntervals)}
  {siblings : List (String × List Analyzer.Row)} {fanout : List (String × List Candidate)}

/-- **The printed sets**: the search ends, and the sets are the components of two services or more, each printed
once with its ids in order. The ids number the services from 1, a service is in one set with its siblings, and
the control API reads each set back. -/
theorem siblingSets_spec (enough : 1 + 2 * (siblings.map fun entry => entry.2.length).sum ≤ turns) :
    ∃ (analysis : Analysis) (sets : List (List ℕ)),
      buildJsonOutput order turns intervals siblings fanout = some analysis ∧
      (analysis.siblingSets = sets.map printSet ∧ analysis.siblingSets.Nodup) ∧
      ((∀ set ∈ sets, ∃ component : (siblingGraph (serviceToId (serviceNames intervals siblings fanout))
          siblings).ConnectedComponent, component.supp.Nontrivial ∧ IsSet component set) ∧
        ∀ component : (siblingGraph (serviceToId (serviceNames intervals siblings fanout))
          siblings).ConnectedComponent, component.supp.Nontrivial → ∃ set ∈ sets, IsSet component set) ∧
      ((∀ service, service ∈ analysis.services.map ServiceEntry.service ↔
          service ∈ intervals.map Prod.fst ∨ service ∈ siblings.map Prod.fst ∨ service ∈ fanout.map Prod.fst) ∧
        (analysis.services.map ServiceEntry.service).Nodup ∧
        analysis.services.map ServiceEntry.serviceId = List.range' 1 analysis.services.length ∧
        analysis.serviceIndex =
          analysis.services.map fun entry => (Nat.toDigits 10 entry.serviceId, entry.service)) ∧
      (Others siblings → ∀ entry ∈ analysis.services, entry.siblingIds ≠ [] →
        ∃ set ∈ sets, entry.serviceId ∈ set ∧ ∀ id ∈ entry.siblingIds, id ∈ set) ∧
      ∀ set ∈ sets, parseSiblingSet (printSet set) = set := by
  have single : (serviceNames intervals siblings fanout).Nodup := nodup_sortUnique
  obtain ⟨sets, found, distinct, components, all⟩ := @siblingSets_eq _ siblings order turns single enough
  have read (set : List ℕ) (among : set ∈ sets) : parseSiblingSet (printSet set) = set := by
    obtain ⟨component, -, lists⟩ := components set among
    exact parseSiblingSet_printSet lists.1
  refine ⟨_, sets, by rw [buildJsonOutput, found]; rfl, ⟨rfl, ?_⟩, ⟨components, all⟩, ⟨?_, ?_, ?_, ?_⟩, ?_, read⟩
  · refine distinct.map_on fun first here second there same => ?_
    rw [← read first here, same, read second there]
  · intro service
    rw [services_entries, serviceNames, mem_sortUnique, List.mem_append, List.mem_append, or_assoc]
  · rw [services_entries]
    exact single
  · rw [ids_entries, List.length_map, serviceToId, List.length_zipIdx]
  · rw [List.map_map]
    exact serviceIndex_eq
  · intro others entry among listed
    obtain ⟨service, there, rfl⟩ := List.mem_map.mp among
    exact siblings_together single others all (get_of_mem single there) listed

/-- Sets that keep the order in which they were filled. -/
def filledOrder : SetOrder where
  pairs all := all
  ids all := all
  pairs_perm all := List.Perm.refl all
  ids_perm all := List.Perm.refl all

/-- The cart and the user's service overlap, and the catalogue and the stock. -/
def fourServices : List (String × List Analyzer.Row) :=
  [("cart", [⟨"user", 20, 1, []⟩]), ("catalogue", [⟨"stock", 15, 1, []⟩]), ("stock", [⟨"catalogue", 15, 1, []⟩]),
    ("user", [⟨"cart", 20, 1, []⟩])]

theorem serviceNames_four : serviceNames [] fourServices [] = ["cart", "catalogue", "stock", "user"] :=
  sortUnique_of_strict (by decide)

/-- Two sets are printed, and each service that lists a sibling is in one with it. -/
theorem siblingSets_spec_four : ∃ (analysis : Analysis) (sets : List (List ℕ)),
    buildJsonOutput filledOrder 9 [] fourServices [] = some analysis ∧
      (analysis.siblingSets = sets.map printSet ∧ analysis.siblingSets.Nodup) ∧
        ((∃ set ∈ sets, 1 ∈ set ∧ 4 ∈ set) ∧ ∃ set ∈ sets, 2 ∈ set ∧ 3 ∈ set) ∧
          (∀ entry ∈ analysis.services, entry.siblingIds ≠ [] →
            ∃ set ∈ sets, entry.serviceId ∈ set ∧ ∀ id ∈ entry.siblingIds, id ∈ set) ∧
            ∀ set ∈ sets, parseSiblingSet (printSet set) = set := by
  obtain ⟨analysis, sets, built, printed, ⟨-, all⟩, -, together, read⟩ :=
    @siblingSets_spec filledOrder 9 [] fourServices [] (by decide)
  have others : Others fourServices := by
    unfold Others
    decide
  have pair {a b : ℕ} (edge : (siblingGraph (serviceToId (serviceNames [] fourServices [])) fourServices).Adj a b) :
      ∃ set ∈ sets, a ∈ set ∧ b ∈ set := by
    obtain ⟨set, among, -, members⟩ := all (SimpleGraph.connectedComponentMk _ a)
      (Set.nontrivial_of_mem_mem_ne SimpleGraph.ConnectedComponent.connectedComponentMk_mem
        (SimpleGraph.ConnectedComponent.eq.mpr edge.reachable.symm) edge.1)
    exact ⟨set, among, (members a).mpr SimpleGraph.ConnectedComponent.connectedComponentMk_mem,
      (members b).mpr (SimpleGraph.ConnectedComponent.eq.mpr edge.reachable.symm)⟩
  have cart : (siblingGraph (serviceToId (serviceNames [] fourServices [])) fourServices).Adj 1 4 := by
    rw [serviceNames_four]
    exact ⟨by decide, Or.inl ⟨("cart", [⟨"user", 20, 1, []⟩]), by simp [fourServices], _, List.mem_cons_self ..,
      by decide, by decide⟩⟩
  have catalogue : (siblingGraph (serviceToId (serviceNames [] fourServices [])) fourServices).Adj 2 3 := by
    rw [serviceNames_four]
    exact ⟨by decide, Or.inl ⟨("catalogue", [⟨"stock", 15, 1, []⟩]), by simp [fourServices], _, List.mem_cons_self ..,
      by decide, by decide⟩⟩
  exact ⟨analysis, sets, built, printed, ⟨pair cart, pair catalogue⟩, together others, read⟩

end Sets

end Mcoz.Control
