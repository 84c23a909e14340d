/-
Parts of a list between separators.

`splitOn` gives the parts, also the empty ones; `lines` leaves the empty ones out. No part holds the
separator (`not_mem_part`) and nothing but separators is lost (`flatten_splitOn`). A list that was put
together from parts without the separator is split into them (`splitOn_flatMap`).
-/

import Mathlib.Data.Nat.Notation

set_option autoImplicit false

namespace Separated

variable {α : Type} [DecidableEq α] {separator : α}

theorem splitOn_cons_other {element : α} (other : element ≠ separator) (rest : List α) :
    (element :: rest).splitOn separator =
      (rest.splitOn separator).modifyHead (List.cons element) := by
  rw [List.splitOn_cons_eq_if_modifyHead, if_neg (by simpa using other)]

theorem splitOn_cons_self (rest : List α) :
    (separator :: rest).splitOn separator = [] :: rest.splitOn separator := by
  rw [List.splitOn_cons_eq_if_modifyHead, if_pos (beq_self_eq_true separator)]

/-- A part does not hold the separator. -/
theorem not_mem_part {list part : List α} (among : part ∈ list.splitOn separator) :
    separator ∉ part := by
  induction list generalizing part with
  | nil =>
      rw [List.splitOn_nil, List.mem_singleton] at among
      rw [among]
      exact List.not_mem_nil
  | cons element rest ih =>
      by_cases same : element = separator
      · rw [same, splitOn_cons_self, List.mem_cons] at among
        rcases among with rfl | later
        · exact List.not_mem_nil
        · exact ih later
      · rw [splitOn_cons_other same] at among
        cases parts : rest.splitOn separator with
        | nil => exact absurd parts (List.splitOn_ne_nil separator rest)
        | cons first others =>
            rw [parts, List.modifyHead_cons, List.mem_cons] at among
            rcases among with rfl | later
            · have absent := ih (parts ▸ List.mem_cons_self)
              exact fun there => (List.mem_cons.mp there).elim (fun equal => same equal.symm) absent
            · exact ih (parts ▸ List.mem_cons_of_mem first later)

/-- Only separators are lost. -/
theorem flatten_splitOn (list : List α) :
    (list.splitOn separator).flatten = list.filter (· ≠ separator) := by
  induction list with
  | nil => simp
  | cons element rest ih =>
      by_cases same : element = separator
      · rw [same, splitOn_cons_self, List.flatten_cons, List.nil_append, ih,
          List.filter_cons_of_neg (by simp)]
      · rw [splitOn_cons_other same, List.filter_cons_of_pos (by simpa using same), ← ih]
        cases parts : rest.splitOn separator with
        | nil => exact absurd parts (List.splitOn_ne_nil separator rest)
        | cons first others => rfl

/-- What was put together is taken apart. -/
theorem splitOn_flatMap {head : List α} {parts : List (List α)} (absent : separator ∉ head)
    (apart : ∀ part ∈ parts, separator ∉ part) :
    (head ++ parts.flatMap (separator :: ·)).splitOn separator = head :: parts := by
  induction parts generalizing head with
  | nil => rw [List.flatMap_nil, List.append_nil, List.splitOn_eq_singleton absent]
  | cons part rest ih =>
      rw [List.flatMap_cons, List.cons_append, List.splitOn_append_cons_self_of_not_mem absent,
        ih (apart part List.mem_cons_self)
          fun other among => apart other (List.mem_cons_of_mem part among)]

/-! ### Lines -/

/-- The parts that are not empty. -/
def lines (separator : α) (list : List α) : List (List α) :=
  (list.splitOn separator).filter (!·.isEmpty)

@[simp] theorem lines_nil : lines separator [] = [] := by
  simp [lines]

theorem lines_append (before after : List α) :
    lines separator (before ++ separator :: after) =
      lines separator before ++ lines separator after := by
  rw [lines, List.splitOn_append_cons_self, List.filter_append]
  rfl

/-- A list without the separator is one line. -/
theorem lines_single {list : List α} (nonempty : list ≠ []) (absent : separator ∉ list) :
    lines separator list = [list] := by
  simp [lines, List.splitOn_eq_singleton absent, nonempty]

/-- A list with something besides separators has a line. -/
theorem lines_ne_nil {list : List α} {element : α} (among : element ∈ list)
    (other : element ≠ separator) : lines separator list ≠ [] := by
  intro empty
  have lost : (list.splitOn separator).flatten = list.filter (· ≠ separator) :=
    flatten_splitOn list
  have empty : (list.splitOn separator).flatten = [] := by
    rw [List.flatten_eq_nil_iff]
    intro part there
    apply Decidable.byContradiction
    intro nonempty
    have kept : part ∈ lines separator list := List.mem_filter.mpr ⟨there, by simpa using nonempty⟩
    rw [empty] at kept
    exact List.not_mem_nil kept
  have kept : element ∈ list.filter (· ≠ separator) :=
    List.mem_filter.mpr ⟨among, by simpa using other⟩
  rw [← lost, empty] at kept
  exact List.not_mem_nil kept

/-- A list that neither begins nor ends with the separator but holds it has two lines or more. -/
theorem two_lines {list : List α} (among : separator ∈ list) (first : list.head? ≠ some separator)
    (last : list.getLast? ≠ some separator) : 2 ≤ (lines separator list).length := by
  obtain ⟨before, after, rfl⟩ := List.append_of_mem among
  have left : lines separator before ≠ [] := by
    cases before with
    | nil => exact absurd rfl first
    | cons element rest =>
        have other : element ≠ separator := fun same => first (congrArg some same)
        exact lines_ne_nil List.mem_cons_self other
  have right : lines separator after ≠ [] := by
    cases ending : after.getLast? with
    | none =>
        rw [List.getLast?_eq_none_iff] at ending
        subst ending
        simp at last
    | some element =>
        have other : element ≠ separator := by
          rintro rfl
          refine last ?_
          rw [List.getLast?_append, List.getLast?_cons, ending]
          rfl
        exact lines_ne_nil (List.mem_of_getLast? ending) other
  rw [lines_append, List.length_append]
  have one := List.length_pos_iff.mpr left
  have another := List.length_pos_iff.mpr right
  omega

end Separated
