/-
Canonical paths, and what they denote.

An absolute path leads from the root through its components, and `..` leads back. `canonicalize_path` follows it
and returns the names on the way that it did not leave again (`canonicalizePath_resolves`). It refuses a `..` at the
root, where a file system would stay.
-/

import Mcoz.Inspect.Scope

set_option autoImplicit false

namespace Mcoz.Inspect

open Word

/-! ### What a path denotes -/

/-- One component further, from a place below the root; the root is above itself. -/
def enter (place : List Bytes) (component : Bytes) : List Bytes :=
  if component = [] ∨ component = ascii "." then place
  else if component = ascii ".." then place.dropLast
  else place ++ [component]

/-- The place that an absolute path leads to. -/
def denoted (path : Bytes) : List Bytes :=
  (path.splitOn 47).foldl enter []

/-- The path meets a `..` at the root. -/
def Climbs (path : Bytes) : Prop :=
  ∃ front back, path.splitOn 47 = front ++ ascii ".." :: back ∧ front.foldl enter [] = []

/-- The result is an absolute path to the same place, and its components are names. -/
structure Resolves (path result : Bytes) : Prop where
  absolute : result.head? = some 47
  names : result = ascii "/" ∨
    ∀ component ∈ (result.splitOn 47).tail, component ≠ [] ∧ component ≠ ascii "." ∧ component ≠ ascii ".."
  denotes : denoted result = denoted path

/-- What `canonicalize_path` is for: it resolves the path, and leaves the result as it is. -/
def Canonicalizes (cwd path : Bytes) : Prop :=
  ∃ result, canonicalizePath cwd path = some result ∧ Resolves path result ∧
    canonicalizePath cwd result = some result

section Walk

variable {cwd path result part : Bytes} {place final parts reduced : List Bytes}

/-- A turn of the loop enters the component, unless it is a `..` at the root. -/
theorem reducePart_eq :
    reducePart place part = if part = ascii ".." ∧ place = [] then none else some (enter place part) := by
  unfold reducePart enter
  by_cases dots : part = ascii ".."
  · have other : ¬ (part = [] ∨ part = ascii ".") := by
      rw [dots]
      decide
    rw [if_pos dots, if_neg other, if_pos dots]
    by_cases root : place = []
    · rw [if_neg (by simp [root]), if_pos ⟨dots, root⟩]
    · rw [if_pos (List.length_pos_iff.mpr root), if_neg fun both => root both.2]
  · have inside : ¬ (part = ascii ".." ∧ place = []) := fun both => dots both.1
    rw [if_neg dots, if_neg inside]
    by_cases skipped : part = [] ∨ part = ascii "."
    · rw [if_pos skipped, if_neg]
      intro stays
      rcases skipped with empty | dot
      · exact List.length_pos_iff.mp stays.1 empty
      · exact stays.2 dot
    · obtain ⟨nonempty, dot⟩ := not_or.mp skipped
      rw [if_neg skipped, if_neg dots, if_pos ⟨List.length_pos_iff.mpr nonempty, dot⟩]

/-- The components that `split` drops would not change the place. -/
theorem foldlM_reducePart_filter :
    (parts.filter fun item => item ≠ []).foldlM reducePart place = parts.foldlM reducePart place := by
  induction parts generalizing place with
  | nil => rfl
  | cons part rest ih =>
      by_cases empty : part = []
      · have same : reducePart place part = some place := by
          have named : ¬ (part = ascii ".." ∧ place = []) := by
            rw [empty]
            exact fun both => absurd both.1 (by decide)
          rw [reducePart_eq, if_neg named, enter, if_pos (Or.inl empty)]
        rw [List.filter_cons_of_neg (by simpa using empty), List.foldlM_cons, same]
        exact ih
      · rw [List.filter_cons_of_pos (by simpa using empty), List.foldlM_cons, List.foldlM_cons]
        exact congrArg _ (funext fun next => ih)

/-- The loop ends in the place that the components lead to, unless it meets a `..` at the root. -/
theorem foldlM_reducePart_iff : parts.foldlM reducePart place = some final ↔
    (∀ front back, parts = front ++ ascii ".." :: back → front.foldl enter place ≠ []) ∧
      parts.foldl enter place = final := by
  induction parts generalizing place with
  | nil =>
      rw [List.foldlM_nil, List.foldl_nil]
      refine Iff.trans ?_ (and_iff_right ?_).symm
      · exact ⟨Option.some.inj, congrArg some⟩
      · intro front back split
        exact absurd split.symm (List.append_ne_nil_of_right_ne_nil _ (List.cons_ne_nil _ _))
  | cons part rest ih =>
      rw [List.foldlM_cons, reducePart_eq, List.foldl_cons]
      by_cases above : part = ascii ".." ∧ place = []
      · rw [if_pos above]
        refine iff_of_false (by simp) fun both => ?_
        exact both.1 [] rest (by rw [above.1]; rfl) above.2
      · rw [if_neg above]
        refine Iff.trans ih (and_congr_left' ?_)
        constructor
        · intro later front back split
          rcases front with _ | ⟨first, front⟩
          · intro root
            exact above ⟨(List.cons.inj split).1, root⟩
          · obtain ⟨rfl, shape⟩ := List.cons.inj split
            exact later front back shape
        · intro whole front back split
          exact whole (part :: front) back (by rw [split]; rfl)

/-- Names lead on. -/
theorem foldl_enter_of_kept (kept : ∀ part ∈ parts, Kept part) : parts.foldl enter place = place ++ parts := by
  have ran : parts.foldlM reducePart place = some (place ++ parts) := foldlM_reducePart_of_kept kept
  exact (foldlM_reducePart_iff.mp ran).2

theorem denoted_joinParts (kept : ∀ part ∈ parts, Kept part) : denoted (joinParts parts) = parts := by
  have root : enter [] [] = [] := rfl
  rw [denoted, splitOn_joinParts kept, List.foldl_cons, root, foldl_enter_of_kept kept, List.nil_append]

theorem canonicalizePath_eq_some_iff (absolute : path.head? = some 47) :
    canonicalizePath cwd path = some result ↔ ¬ Climbs path ∧ joinParts (denoted path) = result := by
  have met : (∀ front back, path.splitOn 47 = front ++ ascii ".." :: back → front.foldl enter [] ≠ []) ↔
      ¬ Climbs path := by
    simp only [Climbs, not_exists, not_and, ne_eq]
  rw [canonicalizePath, absolutePath, if_pos absolute, split, foldlM_reducePart_filter, Option.map_eq_some_iff]
  constructor
  · intro ran
    obtain ⟨final, walked, joined⟩ := ran
    obtain ⟨free, rfl⟩ := foldlM_reducePart_iff.mp walked
    exact ⟨met.mp free, joined⟩
  · intro both
    exact ⟨_, foldlM_reducePart_iff.mpr ⟨met.mpr both.1, rfl⟩, both.2⟩

/-- The names on the way to a place. -/
theorem kept_denoted (free : ¬ Climbs path) (absolute : path.head? = some 47) : ∀ part ∈ denoted path, Kept part := by
  have ran : canonicalizePath [] path = some (joinParts (denoted path)) :=
    (canonicalizePath_eq_some_iff absolute).mpr ⟨free, rfl⟩
  rw [canonicalizePath, absolutePath, if_pos absolute, Option.map_eq_some_iff] at ran
  obtain ⟨final, walked, -⟩ := ran
  have kept := foldlM_reducePart_kept (by simp) (fun part among => not_mem_split among) walked
  rw [split, foldlM_reducePart_filter] at walked
  obtain ⟨-, rfl⟩ := foldlM_reducePart_iff.mp walked
  exact kept

end Walk

/-! ### Canonical paths -/

section Canonical

variable {cwd path : Bytes}

/-- **A path is resolved**, unless it meets a `..` at the root, which is refused. What is said of the others is for
those that do not lead to the root itself. -/
theorem canonicalizePath_resolves (absolute : path.head? = some 47) :
    (canonicalizePath cwd path = none ↔ Climbs path) ∧
      (¬ Climbs path → denoted path ≠ [] → Canonicalizes cwd path) := by
  constructor
  · rw [Option.eq_none_iff_forall_ne_some]
    constructor
    · intro refused
      by_contra free
      exact refused _ ((canonicalizePath_eq_some_iff absolute).mpr ⟨free, rfl⟩)
    · intro climbs result ran
      exact ((canonicalizePath_eq_some_iff absolute).mp ran).1 climbs
  · intro free below
    have kept := kept_denoted free absolute
    have ran : canonicalizePath cwd path = some (joinParts (denoted path)) :=
      (canonicalizePath_eq_some_iff absolute).mpr ⟨free, rfl⟩
    have start : (joinParts (denoted path)).head? = some 47 := by
      cases names : denoted path with
      | nil => exact absurd names below
      | cons part rest => rfl
    have nonempty : joinParts (denoted path) ≠ [] := by
      intro empty
      rw [empty] at start
      cases start
    refine ⟨_, ran, ⟨start, Or.inr ?_, denoted_joinParts kept⟩, canonicalizePath_canonical ran nonempty⟩
    rw [splitOn_joinParts kept]
    exact fun part among => ⟨(kept part among).nonempty, (kept part among).dot, (kept part among).dots⟩

/-- Repeated slashes, dots, and a directory that is left again. -/
theorem canonicalizePath_resolves_src : Canonicalizes (ascii "/tmp") (ascii "/usr/../src//./a.c") := by
  have whole : (canonicalizePath (ascii "/tmp") (ascii "/usr/../src//./a.c")).isSome := by decide +kernel
  have free : ¬ Climbs (ascii "/usr/../src//./a.c") := by
    intro climbs
    have refused : canonicalizePath (ascii "/tmp") (ascii "/usr/../src//./a.c") = none :=
      (canonicalizePath_resolves rfl).1.mpr climbs
    rw [refused] at whole
    cases whole
  exact (canonicalizePath_resolves rfl).2 free (by decide +kernel)

/-- The parent of the root is refused, and the root becomes the empty path, which is relative. -/
theorem canonicalizePath_root : ¬ Canonicalizes (ascii "/tmp") (ascii "/..") ∧
    ¬ Canonicalizes (ascii "/tmp") (ascii "/") := by
  have refused : canonicalizePath (ascii "/tmp") (ascii "/..") = none := by decide +kernel
  have emptied : canonicalizePath (ascii "/tmp") (ascii "/") = some [] := by decide +kernel
  constructor
  · intro canonical
    obtain ⟨result, ran, -⟩ := canonical
    rw [refused] at ran
    cases ran
  · intro canonical
    obtain ⟨result, ran, resolved, -⟩ := canonical
    rw [emptied] at ran
    obtain rfl := Option.some.inj ran
    cases resolved.absolute

end Canonical

end Mcoz.Inspect
