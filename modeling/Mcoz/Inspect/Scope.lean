/-
Source files in and out of scope.

The scope is the patterns of `COZ_SOURCE_SCOPE`, and a file is in scope if its canonical path matches one of
them. A path that climbs above the root fails a `REQUIRE`, which aborts the program: `none`.
-/

import Mcoz.Lib.Word
import Mcoz.Lib.Separated
import Mathlib.Data.List.Basic

set_option autoImplicit false

namespace Mcoz.Inspect

open Word

/-! ### Paths -/

/-- `split`: the pieces between the delimiters that are not empty. -/
def split (delim : UInt8) (text : Bytes) : List Bytes :=
  (text.splitOn delim).filter fun item => item ≠ []

/-- `absolute_path`, in the working directory `cwd`. -/
def absolutePath (cwd filename : Bytes) : Bytes :=
  if filename.head? = some 47 then filename else cwd ++ ascii "/" ++ filename

/-- One part of a path in the loop of `canonicalize_path`. -/
def reducePart (reduced : List Bytes) (part : Bytes) : Option (List Bytes) :=
  if part = ascii ".." then
    if 0 < reduced.length then some reduced.dropLast else none
  else if 0 < part.length ∧ part ≠ ascii "." then
    some (reduced ++ [part])
  else
    some reduced

/-- The text of the remaining parts. -/
def joinParts (reduced : List Bytes) : Bytes :=
  reduced.flatMap fun part => ascii "/" ++ part

/-- `canonicalize_path`. -/
def canonicalizePath (cwd filename : Bytes) : Option Bytes :=
  ((split 47 (absolutePath cwd filename)).foldlM reducePart []).map joinParts

/-- A part that stays in a canonical path. -/
structure Kept (part : Bytes) : Prop where
  nonempty : part ≠ []
  dot : part ≠ ascii "."
  dots : part ≠ ascii ".."
  slash : 47 ∉ part

section Canonical

variable {cwd filename name : Bytes} {part : Bytes} {reduced reduced' parts : List Bytes}

theorem not_mem_split {delim : UInt8} {text : Bytes} (among : part ∈ split delim text) : delim ∉ part :=
  Separated.not_mem_part (List.mem_filter.mp among).1

theorem reducePart_kept (kept : ∀ part ∈ reduced, Kept part) (slash : 47 ∉ part)
    (ran : reducePart reduced part = some reduced') : ∀ part ∈ reduced', Kept part := by
  unfold reducePart at ran
  split at ran
  · split at ran
    · obtain rfl := Option.some.inj ran
      exact fun part among => kept part (List.dropLast_subset _ among)
    · cases ran
  · rename_i dots
    split at ran
    · rename_i stays
      obtain rfl := Option.some.inj ran
      intro other among
      rcases List.mem_append.mp among with old | new
      · exact kept other old
      · obtain rfl := List.mem_singleton.mp new
        exact ⟨List.length_pos_iff.mp stays.1, stays.2, dots, slash⟩
    · obtain rfl := Option.some.inj ran
      exact kept

theorem foldlM_reducePart_kept (kept : ∀ part ∈ reduced, Kept part) (slash : ∀ part ∈ parts, 47 ∉ part)
    (ran : parts.foldlM reducePart reduced = some reduced') : ∀ part ∈ reduced', Kept part := by
  induction parts generalizing reduced with
  | nil =>
      obtain rfl := Option.some.inj ran
      exact kept
  | cons part rest ih =>
      obtain ⟨absent, later⟩ := List.forall_mem_cons.mp slash
      obtain ⟨middle, first, ran'⟩ := Option.bind_eq_some_iff.mp ran
      exact ih (reducePart_kept kept absent first) later ran'

/-- Parts that stay are the result. -/
theorem foldlM_reducePart_of_kept (kept : ∀ part ∈ parts, Kept part) :
    parts.foldlM reducePart reduced = some (reduced ++ parts) := by
  induction parts generalizing reduced with
  | nil => rw [List.append_nil]; rfl
  | cons part rest ih =>
      obtain ⟨⟨nonempty, dot, dots, -⟩, later⟩ := List.forall_mem_cons.mp kept
      have step : reducePart reduced part = some (reduced ++ [part]) := by
        rw [reducePart, if_neg dots, if_pos ⟨List.length_pos_iff.mpr nonempty, dot⟩]
      rw [List.foldlM_cons, step]
      exact (ih later).trans (by rw [List.append_assoc, List.singleton_append])

/-- A canonical path begins with the root and has its parts as components. -/
theorem splitOn_joinParts (kept : ∀ part ∈ parts, Kept part) : (joinParts parts).splitOn 47 = [] :: parts :=
  Separated.splitOn_flatMap List.not_mem_nil fun part among => (kept part among).slash

/-- A canonical path is split into its parts. -/
theorem split_joinParts (kept : ∀ part ∈ parts, Kept part) : split 47 (joinParts parts) = parts := by
  rw [split, splitOn_joinParts kept, List.filter_cons_of_neg (by simp), List.filter_eq_self]
  exact fun part among => by simpa using (kept part among).nonempty

/-- A canonical path is canonical, unless it is that of the root, which is empty. -/
theorem canonicalizePath_canonical (canonical : canonicalizePath cwd filename = some name)
    (nonempty : name ≠ []) : canonicalizePath cwd name = some name := by
  obtain ⟨reduced, ran, rfl⟩ := Option.map_eq_some_iff.mp canonical
  have kept : ∀ part ∈ reduced, Kept part :=
    foldlM_reducePart_kept (by simp) (fun part among => not_mem_split among) ran
  have absolute : absolutePath cwd (joinParts reduced) = joinParts reduced := by
    cases reduced with
    | nil => exact absurd rfl nonempty
    | cons part rest => exact if_pos rfl
  rw [canonicalizePath, absolute, split_joinParts kept, foldlM_reducePart_of_kept kept]
  rfl

end Canonical

/-! ### Patterns -/

/-- `wildcard_match`: the loop over the characters that are not wildcards takes them one by one, and a
wildcard tries every rest of the subject. -/
def wildcardMatch : Bytes → Bytes → Bool
  | subject, [] => subject.isEmpty
  | [], _ :: _ => false
  | head :: subject, ch :: pattern =>
      if ch = 37 then
        (List.range (subject.length + 2)).any fun taken =>
          wildcardMatch ((head :: subject).drop taken) pattern
      else
        head = ch && wildcardMatch subject pattern

/-- `in_scope`. -/
def inScope (cwd : Bytes) (scope : List Bytes) (name : Bytes) : Option Bool :=
  (canonicalizePath cwd name).map fun normalized =>
    scope.any fun pattern => wildcardMatch normalized pattern

end Mcoz.Inspect
