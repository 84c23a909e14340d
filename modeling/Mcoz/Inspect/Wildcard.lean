/-
The patterns of the source scope.

`wildcard_match` is a loop over the characters that are not wildcards and a recursion for each rest of the
subject that a wildcard can leave. The recursion goes to shorter patterns, so it ends, and what it returns is
`wildcardMatch` (`wildcardRun_eq`). A pattern that does not end in a wildcard is matched by its language
(`wildcardMatch_iff`). One that does is only matched if its last wildcard is left something, since a subject
that has ended fails against the wildcard before it is tried (`wildcardMatch_concat_iff`).
-/

import Mcoz.Inspect.Scope
import Mcoz.Lib.Wildcards

set_option autoImplicit false

namespace Mcoz.Inspect

open Word Wildcards

/-! ### The recursion of the source -/

/-- The loop over the characters that are not wildcards: what it leaves of subject and pattern, or nothing
if two characters differ. -/
def walkPlain : Bytes → Bytes → Option (Bytes × Bytes)
  | head :: subject, ch :: pattern =>
      if ch = 37 then some (head :: subject, ch :: pattern)
      else if ch ≠ head then none
      else walkPlain subject pattern
  | subject, pattern => some (subject, pattern)

/-- The loop over the ends of a match of the wildcard, with the rests of the subject there. -/
def tryEnds (matchRest : Bytes → Option Bool) : List Bytes → Option Bool
  | [] => some false
  | rest :: rests =>
      (matchRest rest).bind fun found => if found then some true else tryEnds matchRest rests

/-- `wildcard_match`, as far as its recursion is not deeper than `depth`. -/
def wildcardRun : ℕ → Bytes → Bytes → Option Bool
  | 0, _, _ => none
  | depth + 1, subject, pattern =>
      if pattern.isEmpty ≠ subject.isEmpty then
        some false
      else
        match pattern with
        | [] => some true
        | ch :: pattern' =>
            if ch = 37 then
              -- The longest match of the wildcard leaves the shortest rest.
              tryEnds (fun rest => wildcardRun depth rest pattern') subject.tails.reverse
            else
              match walkPlain subject (ch :: pattern') with
              | none => some false
              | some (subject', pattern'') => wildcardRun depth subject' pattern''

section Recursion

variable {subject pattern rest : Bytes} {head ch : UInt8} {depth : ℕ}

theorem wildcardMatch_nil : wildcardMatch subject [] = subject.isEmpty := by
  cases subject <;> rfl

theorem wildcardMatch_cons_cons (plain : ch ≠ 37) :
    wildcardMatch (head :: subject) (ch :: pattern) = (decide (head = ch) && wildcardMatch subject pattern) := by
  rw [wildcardMatch, if_neg plain]

/-- A wildcard is matched if the subject has not ended and some rest of it matches the rest. -/
theorem wildcardMatch_wild :
    wildcardMatch subject (37 :: pattern) = true ↔
      subject ≠ [] ∧ ∃ rest, rest <:+ subject ∧ wildcardMatch rest pattern = true := by
  cases subject with
  | nil => simp [wildcardMatch]
  | cons head subject =>
      rw [wildcardMatch, if_pos rfl, List.any_eq_true]
      simp only [List.mem_range, ne_eq, reduceCtorEq, not_false_eq_true, true_and]
      constructor
      · rintro ⟨taken, -, found⟩
        exact ⟨_, List.drop_suffix .., found⟩
      · rintro ⟨rest, ⟨run, split⟩, found⟩
        have size := congrArg List.length split
        rw [List.length_append, List.length_cons] at size
        refine ⟨run.length, by omega, ?_⟩
        rwa [← split, List.drop_left]

theorem tryEnds_eq {matchRest : Bytes → Option Bool} {known : Bytes → Bool} {rests : List Bytes}
    (returns : ∀ rest ∈ rests, matchRest rest = some (known rest)) :
    tryEnds matchRest rests = some (rests.any known) := by
  induction rests with
  | nil => rfl
  | cons rest rests ih =>
      obtain ⟨now, later⟩ := List.forall_mem_cons.mp returns
      rw [tryEnds, now, List.any_cons]
      cases known rest with
      | true => rfl
      | false => exact ih later

/-- The loop over plain characters leaves what decides the match, and its pattern is no longer. -/
theorem walkPlain_spec (subject pattern : Bytes) :
    match walkPlain subject pattern with
    | none => wildcardMatch subject pattern = false
    | some (subject', pattern') =>
        wildcardMatch subject pattern = wildcardMatch subject' pattern' ∧ pattern'.length ≤ pattern.length := by
  fun_induction walkPlain subject pattern with
  | case1 head subject pattern => exact ⟨rfl, le_rfl⟩
  | case2 head subject ch pattern plain differ =>
      show wildcardMatch (head :: subject) (ch :: pattern) = false
      rw [wildcardMatch_cons_cons plain, decide_eq_false (Ne.symm differ), Bool.false_and]
  | case3 head subject ch pattern plain same ih =>
      obtain rfl : ch = head := not_not.mp same
      have step : wildcardMatch (ch :: subject) (ch :: pattern) = wildcardMatch subject pattern := by
        rw [wildcardMatch_cons_cons plain, decide_eq_true rfl, Bool.true_and]
      rw [step]
      revert ih
      cases walkPlain subject pattern with
      | none => exact id
      | some left => exact fun ⟨same, size⟩ => ⟨same, size.trans (Nat.le_succ _)⟩
  | case4 subject pattern ends => exact ⟨rfl, le_rfl⟩

/-- The loop takes the first character if it is plain, so that its pattern gets shorter. -/
theorem length_walkPlain_lt {subject' pattern' : Bytes} (plain : ch ≠ 37)
    (walked : walkPlain (head :: subject) (ch :: pattern) = some (subject', pattern')) :
    pattern'.length ≤ pattern.length := by
  rw [walkPlain, if_neg plain] at walked
  split at walked
  · cases walked
  · have spec := walkPlain_spec subject pattern
    rw [walked] at spec
    exact spec.2

/-- One call on a subject and a pattern of which neither has ended. -/
theorem wildcardRun_cons_cons :
    wildcardRun (depth + 1) (head :: subject) (ch :: pattern) =
      if ch = 37 then
        tryEnds (fun rest => wildcardRun depth rest pattern) (head :: subject).tails.reverse
      else
        match walkPlain (head :: subject) (ch :: pattern) with
        | none => some false
        | some (subject', pattern') => wildcardRun depth subject' pattern' :=
  rfl

/-- **The recursion ends**, at a depth that the length of the pattern bounds, with `wildcardMatch`. -/
theorem wildcardRun_eq (deep : pattern.length < depth) :
    wildcardRun depth subject pattern = some (wildcardMatch subject pattern) := by
  induction depth generalizing subject pattern with
  | zero => omega
  | succ depth ih =>
      rcases pattern with _ | ⟨ch, pattern⟩ <;> rcases subject with _ | ⟨head, subject⟩
      · rfl
      · rfl
      · rfl
      have shorter : pattern.length < depth := by simpa using deep
      rw [wildcardRun_cons_cons]
      by_cases wildcard : ch = 37
      · subst wildcard
        rw [if_pos rfl, tryEnds_eq fun rest _ => ih shorter, Option.some.injEq, Bool.eq_iff_iff,
          wildcardMatch_wild, List.any_eq_true]
        simp only [List.mem_reverse, List.mem_tails, ne_eq, reduceCtorEq, not_false_eq_true, true_and]
      · have spec := walkPlain_spec (head :: subject) (ch :: pattern)
        rw [if_neg wildcard]
        cases walked : walkPlain (head :: subject) (ch :: pattern) with
        | none =>
            rw [walked] at spec
            exact congrArg some spec.symm
        | some left =>
            rw [walked] at spec
            rw [spec.1]
            exact ih ((length_walkPlain_lt wildcard walked).trans_lt shorter)

end Recursion

/-! ### The language of a pattern -/

section Matching

variable {subject pattern : Bytes}

/-- A wildcard at the end of a pattern is left at least one character. -/
theorem wildcardMatch_concat_iff :
    wildcardMatch subject (pattern ++ [37]) = true ↔
      ∃ front ∈ language 37 pattern, front <+: subject ∧ front ≠ subject := by
  induction pattern generalizing subject with
  | nil =>
      rw [List.nil_append, wildcardMatch_wild]
      constructor
      · rintro ⟨more, -⟩
        exact ⟨[], mem_language_nil.mpr rfl, List.nil_prefix, more.symm⟩
      · rintro ⟨front, inside, -, more⟩
        obtain rfl := mem_language_nil.mp inside
        exact ⟨more.symm, [], List.nil_suffix, rfl⟩
  | cons ch pattern ih =>
      by_cases wildcard : ch = 37
      · subst wildcard
        rw [List.cons_append, wildcardMatch_wild]
        constructor
        · rintro ⟨-, rest, ⟨run, rfl⟩, found⟩
          obtain ⟨front, inside, start, more⟩ := ih.mp found
          refine ⟨run ++ front, mem_language_wild.mpr ⟨front, inside, List.suffix_append ..⟩, ?_, ?_⟩
          · exact (List.prefix_append_right_inj run).mpr start
          · exact fun same => more (List.append_cancel_left same)
        · rintro ⟨front, inside, ⟨back, rfl⟩, more⟩
          obtain ⟨rest, inside', run, rfl⟩ := mem_language_wild.mp inside
          have left : back ≠ [] := fun ended => more (by rw [ended, List.append_nil])
          refine ⟨by simp [left], rest ++ back, ⟨run, (List.append_assoc ..).symm⟩, ih.mpr ?_⟩
          exact ⟨rest, inside', List.prefix_append .., by simpa using left.symm⟩
      · cases subject with
        | nil =>
            refine iff_of_false (by simp [wildcardMatch]) ?_
            rintro ⟨front, -, start, more⟩
            exact more (List.prefix_nil.mp start)
        | cons head subject =>
            rw [List.cons_append, wildcardMatch_cons_cons wildcard, Bool.and_eq_true, decide_eq_true_iff, ih]
            simp only [mem_language_cons wildcard]
            constructor
            · rintro ⟨rfl, front, inside, start, more⟩
              exact ⟨head :: front, ⟨front, inside, rfl⟩, by simpa using start, by simpa using more⟩
            · rintro ⟨_, ⟨front, inside, rfl⟩, start, more⟩
              obtain ⟨same, start'⟩ := List.cons_prefix_cons.mp start
              exact ⟨same.symm, front, inside, start', fun whole => more (by rw [same, whole])⟩

/-- A pattern that does not end in a wildcard is matched by its language. -/
theorem wildcardMatch_iff (closed : pattern.getLast? ≠ some 37) :
    wildcardMatch subject pattern = true ↔ subject ∈ language 37 pattern := by
  induction pattern generalizing subject with
  | nil => rw [wildcardMatch_nil, List.isEmpty_iff, mem_language_nil]
  | cons ch pattern ih =>
      by_cases wildcard : ch = 37
      · subst wildcard
        obtain ⟨next, pattern, rfl⟩ : ∃ next rest, pattern = next :: rest :=
          List.exists_cons_of_ne_nil fun ended => closed (by rw [ended]; rfl)
        have closed' : (next :: pattern).getLast? ≠ some 37 := by
          rwa [List.getLast?_cons_cons] at closed
        rw [wildcardMatch_wild, mem_language_wild]
        constructor
        · rintro ⟨-, rest, suffix, found⟩
          exact ⟨rest, (ih closed').mp found, suffix⟩
        · rintro ⟨rest, inside, suffix⟩
          have found := (ih closed').mpr inside
          refine ⟨fun ended => ?_, rest, suffix, found⟩
          -- The rest of a subject that has ended does not match what follows the wildcard.
          subst ended
          rw [List.suffix_nil.mp suffix] at found
          cases found
      · have closed' : pattern.getLast? ≠ some 37 := by
          intro ends
          refine closed ?_
          rw [List.getLast?_cons, ends]
          rfl
        rw [mem_language_cons wildcard]
        cases subject with
        | nil => simp [wildcardMatch]
        | cons head subject =>
            rw [wildcardMatch_cons_cons wildcard, Bool.and_eq_true, decide_eq_true_iff, ih closed']
            constructor
            · rintro ⟨rfl, inside⟩
              exact ⟨subject, inside, rfl⟩
            · rintro ⟨rest, inside, same⟩
              obtain ⟨rfl, rfl⟩ := List.cons.inj same
              exact ⟨rfl, inside⟩

/-- **What `wildcard_match` decides.** It ends for every subject and pattern, and it decides the language of
the pattern exactly if the pattern does not end in a wildcard, or a subject in the language of what comes
before that wildcard has a shorter beginning in it, which leaves the wildcard something. -/
theorem wildcardMatch_exact_iff :
    (∀ depth, pattern.length < depth →
      wildcardRun depth subject pattern = some (wildcardMatch subject pattern)) ∧
    ((wildcardMatch subject pattern = true ↔ subject ∈ language 37 pattern) ↔
      (pattern.getLast? = some 37 → subject ∈ language 37 pattern.dropLast →
        ∃ front ∈ language 37 pattern.dropLast, front <+: subject ∧ front ≠ subject)) := by
  refine ⟨fun depth deep => wildcardRun_eq deep, ?_⟩
  by_cases ends : pattern.getLast? = some 37
  · obtain ⟨before, rfl⟩ := List.getLast?_eq_some_iff.mp ends
    rw [wildcardMatch_concat_iff, mem_language_concat_wild, List.dropLast_concat]
    constructor
    · intro decides _ whole
      exact decides.mpr ⟨subject, whole, List.prefix_rfl⟩
    · intro shorter
      constructor
      · rintro ⟨front, inside, start, -⟩
        exact ⟨front, inside, start⟩
      · rintro ⟨front, inside, start⟩
        by_cases whole : front = subject
        · exact shorter ends (whole ▸ inside)
        · exact ⟨front, inside, start, whole⟩
  · exact iff_of_true (wildcardMatch_iff ends) fun now => absurd now ends

end Matching

/-- A source file is not matched by its own path with a wildcard behind it. -/
theorem wildcardMatch_own_path :
    ¬ (wildcardMatch (ascii "/src/a.c") (ascii "/src/a.c%") = true ↔
      ascii "/src/a.c" ∈ language 37 (ascii "/src/a.c%")) := by
  have inside : ascii "/src/a.c" ∈ language 37 (ascii "/src/a.c" ++ [37]) :=
    mem_language_concat_wild.mpr
      ⟨ascii "/src/a.c", (wildcardMatch_iff (by decide)).mp (by decide +kernel), List.prefix_rfl⟩
  intro same
  exact absurd (same.mpr inside) (by decide +kernel)

end Mcoz.Inspect
