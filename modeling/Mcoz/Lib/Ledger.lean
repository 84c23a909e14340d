/-
Books of accounts.

A book gives every key a balance. It is changed by entries only: a deposit adds to a balance, a
withdrawal takes from it and is refused above the balance, a discard drops the whole balance. The
one law of a book (`balance_conserved`): over any list of posted entries,

  opening balance + deposited = closing balance + withdrawn + discarded.

`Machine.simulate` carries the law to a machine whose steps are seen as entries.
-/

import Mcoz.Lib.Machine
import Mathlib.Algebra.BigOperators.Group.List.Basic
import Mathlib.Algebra.Ring.Nat
import Mathlib.Logic.Function.Basic

set_option autoImplicit false

namespace Ledger

variable {κ : Type*}

/-- One entry of a ledger over the keys `κ`. -/
inductive Entry (κ : Type*)
  | deposit (key : κ) (amount : ℕ)
  | withdraw (key : κ) (amount : ℕ)
  | discard (key : κ) (amount : ℕ)
deriving DecidableEq

/-- The balances of all keys. -/
abbrev Book (κ : Type*) := κ → ℕ

section Sums

variable [DecidableEq κ]

/-- What an entry deposits for a key. -/
def Entry.depositFor (key : κ) : Entry κ → ℕ
  | .deposit other amount => if other = key then amount else 0
  | _ => 0

/-- What an entry withdraws for a key. -/
def Entry.withdrawFor (key : κ) : Entry κ → ℕ
  | .withdraw other amount => if other = key then amount else 0
  | _ => 0

/-- What an entry discards for a key. -/
def Entry.discardFor (key : κ) : Entry κ → ℕ
  | .discard other amount => if other = key then amount else 0
  | _ => 0

/-- The sum of the deposits for a key. -/
def deposited (key : κ) (entries : List (Entry κ)) : ℕ :=
  (entries.map (Entry.depositFor key)).sum

/-- The sum of the withdrawals for a key. -/
def withdrawn (key : κ) (entries : List (Entry κ)) : ℕ :=
  (entries.map (Entry.withdrawFor key)).sum

/-- The sum of what was discarded for a key. -/
def discarded (key : κ) (entries : List (Entry κ)) : ℕ :=
  (entries.map (Entry.discardFor key)).sum

@[simp] theorem deposited_nil (key : κ) : deposited key [] = 0 := rfl

@[simp] theorem withdrawn_nil (key : κ) : withdrawn key [] = 0 := rfl

@[simp] theorem discarded_nil (key : κ) : discarded key [] = 0 := rfl

theorem discarded_eq_zero (key : κ) {entries : List (Entry κ)}
    (kept : ∀ entry ∈ entries, entry.discardFor key = 0) : discarded key entries = 0 :=
  List.sum_eq_zero fun amount member => by
    obtain ⟨entry, held, rfl⟩ := List.mem_map.mp member
    exact kept entry held

theorem deposited_append (key : κ) (first second : List (Entry κ)) :
    deposited key (first ++ second) = deposited key first + deposited key second := by
  simp [deposited]

theorem withdrawn_append (key : κ) (first second : List (Entry κ)) :
    withdrawn key (first ++ second) = withdrawn key first + withdrawn key second := by
  simp [withdrawn]

@[simp] theorem deposited_cons (key : κ) (entry : Entry κ) (rest : List (Entry κ)) :
    deposited key (entry :: rest) = entry.depositFor key + deposited key rest := by
  simp [deposited]

@[simp] theorem withdrawn_cons (key : κ) (entry : Entry κ) (rest : List (Entry κ)) :
    withdrawn key (entry :: rest) = entry.withdrawFor key + withdrawn key rest := by
  simp [withdrawn]

@[simp] theorem discarded_cons (key : κ) (entry : Entry κ) (rest : List (Entry κ)) :
    discarded key (entry :: rest) = entry.discardFor key + discarded key rest := by
  simp [discarded]

end Sums

/-- The amount of a withdrawal. -/
def Entry.withdrawAmount : Entry κ → ℕ
  | .withdraw _ amount => amount
  | _ => 0

/-- The sum of the withdrawals for all keys. -/
def totalWithdrawn (entries : List (Entry κ)) : ℕ :=
  (entries.map Entry.withdrawAmount).sum

theorem totalWithdrawn_append (first second : List (Entry κ)) :
    totalWithdrawn (first ++ second) = totalWithdrawn first + totalWithdrawn second := by
  simp [totalWithdrawn]

section Posting

variable [DecidableEq κ]

/-- Post one entry. A withdrawal above the balance and a discard of another amount than the whole
balance are refused. -/
def post (book : Book κ) : Entry κ → Option (Book κ)
  | .deposit key amount => some (Function.update book key (book key + amount))
  | .withdraw key amount =>
      if amount ≤ book key then some (Function.update book key (book key - amount)) else none
  | .discard key amount =>
      if amount = book key then some (Function.update book key 0) else none

@[simp] theorem post_deposit (book : Book κ) (key : κ) (amount : ℕ) :
    post book (.deposit key amount) = some (Function.update book key (book key + amount)) := rfl

theorem post_withdraw_iff {book next : Book κ} {key : κ} {amount : ℕ} :
    post book (.withdraw key amount) = some next ↔
      amount ≤ book key ∧ Function.update book key (book key - amount) = next := by
  simp [post]

theorem post_discard_iff {book next : Book κ} {key : κ} {amount : ℕ} :
    post book (.discard key amount) = some next ↔
      amount = book key ∧ Function.update book key 0 = next := by
  simp [post]

/-- The law for one entry. -/
theorem post_conserved {book next : Book κ} {entry : Entry κ} (posted : post book entry = some next)
    (key : κ) :
    book key + entry.depositFor key =
      next key + entry.withdrawFor key + entry.discardFor key := by
  cases entry with
  | deposit other amount =>
      cases posted
      by_cases same : key = other
      · subst same
        simp [Entry.depositFor, Entry.withdrawFor, Entry.discardFor]
      · simp [Entry.depositFor, Entry.withdrawFor, Entry.discardFor, same, Ne.symm same]
  | withdraw other amount =>
      obtain ⟨covered, rfl⟩ := post_withdraw_iff.mp posted
      by_cases same : key = other
      · subst same
        simp only [Entry.depositFor, Entry.withdrawFor, Entry.discardFor, Function.update_self,
          if_true]
        omega
      · simp [Entry.depositFor, Entry.withdrawFor, Entry.discardFor, same, Ne.symm same]
  | discard other amount =>
      obtain ⟨whole, rfl⟩ := post_discard_iff.mp posted
      by_cases same : key = other
      · subst same
        simp [Entry.depositFor, Entry.withdrawFor, Entry.discardFor, whole]
      · simp [Entry.depositFor, Entry.withdrawFor, Entry.discardFor, same, Ne.symm same]

/-- The law of a book, over any list of posted entries. -/
theorem balance_conserved {book final : Book κ} {entries : List (Entry κ)}
    (posted : Machine.run post book entries = some final) (key : κ) :
    book key + deposited key entries =
      final key + withdrawn key entries + discarded key entries := by
  induction entries generalizing book with
  | nil =>
      cases posted
      simp
  | cons entry rest ih =>
      obtain ⟨next, first, later⟩ := Machine.run_cons_iff.mp posted
      have here := post_conserved first key
      have there := ih later
      simp only [deposited_cons, withdrawn_cons, discarded_cons]
      omega

end Posting

end Ledger
