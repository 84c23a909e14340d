/-
The command line of the daemon: its numbers and its list of victims.

`parse_uint64` reads the delay that the command line gives, `parse_uint64_param` the same delay of a
request. `parse_victim_pid_csv` reads the pids of the victims, which `set_victim_pids` stores. The
theorems say on which texts the first two agree (`parseUint64_agrees_iff`) and which lists of pids are
stored as they were written (`storedVictims_exact_iff`).
-/

import Mcoz.Daemon.Arm
import Mcoz.Lib.SortUnique

set_option autoImplicit false

namespace Mcoz.Daemon

open Word Text SortUnique

/-! ### Numbers -/

/-- `parse_uint64`. -/
def parseUint64 (text : Bytes) : Option UInt64 :=
  if text = [] then none
  else if text.all isDigit then
    (strtoull text).bind fun parsed =>
      if parsed.2 = cString text ∨ parsed.2 ≠ [] then none else some parsed.1
  else none

/-- On digits the two parsers are the same code. -/
theorem parseUint64_digits {text : Bytes} (digit : ∀ ch ∈ text, isDigit ch = true) :
    parseUint64 text = parseUint64Param text := by
  rw [parseUint64, if_pos (List.all_eq_true.mpr digit)]
  rfl

/-- Other texts are no numbers on the command line. -/
theorem parseUint64_other {text : Bytes} (other : ¬ ∀ ch ∈ text, isDigit ch = true) :
    parseUint64 text = none := by
  rw [parseUint64, if_neg fun all => other (List.all_eq_true.mp all), ite_self]

theorem parseUint64Param_eq_some {text : Bytes} {value : UInt64} :
    parseUint64Param text = some value ↔ cString text ≠ [] ∧ strtoull text = some (value, []) := by
  unfold parseUint64Param
  constructor
  · intro accepted
    obtain ⟨_, accepted⟩ := Option.ite_none_left_eq_some.mp accepted
    obtain ⟨⟨read, rest⟩, parsed, accepted⟩ := Option.bind_eq_some_iff.mp accepted
    obtain ⟨whole, same⟩ := Option.ite_none_left_eq_some.mp accepted
    obtain ⟨moved, ended⟩ := not_or.mp whole
    obtain rfl : rest = [] := not_not.mp ended
    cases same
    exact ⟨Ne.symm moved, parsed⟩
  · rintro ⟨nonempty, parsed⟩
    have filled : text ≠ [] := fun empty => nonempty (by rw [empty]; rfl)
    rw [if_neg filled, parsed, Option.bind_some,
      if_neg (not_or.mpr ⟨Ne.symm nonempty, fun rest => rest rfl⟩)]

/-- A parameter is a number exactly if the text up to its first NUL is a numeral that fits. -/
theorem parseUint64Param_isSome {text : Bytes} : (parseUint64Param text).isSome ↔
    ∃ blanks sign digits, Numeral (cString text) blanks sign digits ∧
      digitsValue digits < 2 ^ 64 := by
  rw [Option.isSome_iff_exists]
  constructor
  · rintro ⟨value, accepted⟩
    obtain ⟨nonempty, parsed⟩ := parseUint64Param_eq_some.mp accepted
    exact (strtoull_whole_iff nonempty).mp ⟨value, parsed⟩
  · rintro ⟨blanks, sign, digits, numeral, fits⟩
    have nonempty := numeral.text_nonempty
    obtain ⟨value, parsed⟩ := (strtoull_whole_iff nonempty).mpr ⟨blanks, sign, digits, numeral, fits⟩
    exact ⟨value, parseUint64Param_eq_some.mpr ⟨nonempty, parsed⟩⟩

/-- The two parsers agree on a text unless it is a numeral up to its first NUL, of a value that fits,
and not digits alone. -/
theorem parseUint64_agrees_iff (text : Bytes) : parseUint64 text = parseUint64Param text ↔
    ∀ blanks sign digits, Numeral (cString text) blanks sign digits →
      digitsValue digits < 2 ^ 64 → text = digits := by
  by_cases digit : ∀ ch ∈ text, isDigit ch = true
  · refine ⟨fun _ blanks sign digits numeral fits => ?_, fun _ => parseUint64_digits digit⟩
    by_cases empty : text = []
    · subst empty
      have shape := numeral.shape
      exact absurd (List.append_eq_nil_iff.mp (List.append_eq_nil_iff.mp shape.symm).2).2
        numeral.nonempty
    · have same := numeral.scan
      rw [(numeral_digits empty digit).scan] at same
      exact congrArg Scan.digits same
  · rw [parseUint64_other digit, eq_comm, ← Option.isNone_iff_eq_none, ← Option.not_isSome,
      Bool.not_eq_true', Bool.eq_false_iff]
    refine ⟨fun rejected blanks sign digits numeral fits => ?_, fun all accepted => ?_⟩
    · exact absurd (parseUint64Param_isSome.mpr ⟨blanks, sign, digits, numeral, fits⟩) rejected
    · obtain ⟨blanks, sign, digits, numeral, fits⟩ := parseUint64Param_isSome.mp accepted
      have same := all blanks sign digits numeral fits
      exact digit (same ▸ numeral.digit)

/-- A delay of minus one: no number on the command line, the longest delay in a request. -/
theorem minus_one_delay : parseUint64 (ascii "-1") = none ∧
    parseUint64Param (ascii "-1") = some 18446744073709551615 := by
  decide +kernel

/-! ### Victims -/

/-- The comparison of pids in `std::sort`. -/
def pidLe (a b : Int32) : Bool :=
  a ≤ b

/-- The tokens of `std::getline` with a comma. -/
def csvTokens (csv : Bytes) : List Bytes :=
  splitOn [44] csv.length csv

/-- The pid that a trimmed token of `parse_victim_pid_csv` gives: its `long`, cast to `pid_t`. -/
def victimPid (token : Bytes) : Option Int32 :=
  if token = [] then none
  else
    let read := strtol token
    if read.2 = cString token ∨ read.2 ≠ [] ∨ read.1 ≤ 0 then none else some read.1.toInt32

/-- `parse_victim_pid_csv`. -/
def parseVictimPidCsv (csv : Bytes) : List Int32 :=
  sortUnique pidLe ((csvTokens csv).filterMap fun token => victimPid (trim isBlank token))

/-- `set_victim_pids`: what it stores. -/
def setVictimPids (pids : List Int32) : List Int32 :=
  sortUnique pidLe (pids.filter (0 < ·))

/-- The pids stored for a list on the command line. -/
def storedVictims (csv : Bytes) : List Int32 :=
  setVictimPids (parseVictimPidCsv csv)

/-- The integer that a text writes as a numeral. -/
def Writes (text : Bytes) (value : ℤ) : Prop :=
  ∃ blanks sign digits, Numeral text blanks sign digits ∧
    value = if sign = [45] then -(digitsValue digits : ℤ) else digitsValue digits

/-- A positive pid that a token of the list writes. -/
def Written (csv : Bytes) (pid : Int32) : Prop :=
  0 < pid.toInt ∧ ∃ token ∈ csvTokens csv, Writes (trim isBlank token) pid.toInt

/-- The stored pids are sorted, without duplicates, and those that the list writes. -/
def StoredExactly (csv : Bytes) : Prop :=
  (storedVictims csv).Pairwise (· < ·) ∧ ∀ pid, pid ∈ storedVictims csv ↔ Written csv pid

/-- A token that is read as a pid it does not write: its number, or its number up to a NUL, is a
`long` that does not fit into `pid_t` or is not the whole token, and the pid is in its low 32 bits. -/
def Misread (token : Bytes) (pid : Int32) : Prop :=
  ∃ value : ℤ, Writes (cString token) value ∧ 0 < value ∧ value < 2 ^ 63 ∧
    (2 ^ 31 ≤ value ∨ (0 : UInt8) ∈ token) ∧ pid.toInt = value.bmod (2 ^ 32)

theorem pidLe_iff {a b : Int32} : pidLe a b = true ↔ a ≤ b :=
  decide_eq_true_iff

/-- Sorted pids without duplicates increase. -/
theorem sortUnique_pids (pids : List Int32) : (sortUnique pidLe pids).Pairwise (· < ·) := by
  refine (sortUnique_strict ?_ ?_ ?_ pids).imp fun {a b} both => ?_
  · intro a b c first second
    exact pidLe_iff.mpr (Int32.le_trans (pidLe_iff.mp first) (pidLe_iff.mp second))
  · intro a b
    rw [Bool.or_eq_true, pidLe_iff, pidLe_iff]
    exact Int32.le_total a b
  · intro a b first second
    exact Int32.le_antisymm (pidLe_iff.mp first) (pidLe_iff.mp second)
  · exact Int32.lt_of_le_of_ne (pidLe_iff.mp both.1) both.2

theorem mem_storedVictims {csv : Bytes} {pid : Int32} : pid ∈ storedVictims csv ↔
    0 < pid.toInt ∧ ∃ token ∈ csvTokens csv, victimPid (trim isBlank token) = some pid := by
  rw [storedVictims, setVictimPids, mem_sortUnique, List.mem_filter, parseVictimPidCsv,
    mem_sortUnique, List.mem_filterMap, decide_eq_true_iff, and_comm, Int32.lt_iff_toInt_lt]
  rfl

/-- `strtol` of a numeral reads it to its end. -/
theorem strtol_writes {text : Bytes} {value : ℤ} (writes : Writes (cString text) value) :
    strtol text = (Int64.ofInt (max (-2 ^ 63) (min value (2 ^ 63 - 1))), []) := by
  obtain ⟨blanks, sign, digits, numeral, rfl⟩ := writes
  rw [strtol, numeral.scan, if_neg numeral.nonempty]
  simp only [beq_iff_eq]

/-- What `strtol` read to its end is a numeral. -/
theorem writes_of_strtol {text : Bytes} (moved : (strtol text).2 ≠ cString text)
    (whole : (strtol text).2 = []) : ∃ value, Writes (cString text) value := by
  unfold strtol at moved whole
  by_cases empty : (scan text).digits = []
  · rw [if_pos empty] at moved
    exact absurd rfl moved
  · rw [if_neg empty] at whole
    obtain ⟨blanks, sign, numeral⟩ := numeral_of_scan empty whole
    exact ⟨_, blanks, sign, _, numeral, rfl⟩

theorem Writes.text_nonempty {text : Bytes} {value : ℤ} (writes : Writes text value) :
    text ≠ [] := by
  obtain ⟨_, _, _, numeral, _⟩ := writes
  exact numeral.text_nonempty

theorem Writes.cString_eq {text : Bytes} {value : ℤ} (writes : Writes text value) :
    cString text = text := by
  obtain ⟨_, _, _, numeral, _⟩ := writes
  exact numeral.cString_eq

/-- The `long` of a number. -/
theorem toInt_clamped (value : ℤ) :
    (Int64.ofInt (max (-2 ^ 63) (min value (2 ^ 63 - 1)))).toInt =
      max (-2 ^ 63) (min value (2 ^ 63 - 1)) :=
  Int64.toInt_ofInt_of_le (by omega) (by omega)

/-- A positive pid comes from a token whose number is a positive `long`, and is its low 32 bits. -/
theorem victimPid_eq_some {token : Bytes} {pid : Int32} (positive : 0 < pid.toInt) :
    victimPid token = some pid ↔ ∃ value : ℤ, Writes (cString token) value ∧ 0 < value ∧
      value < 2 ^ 63 ∧ pid.toInt = value.bmod (2 ^ 32) := by
  constructor
  · intro accepted
    obtain ⟨_, accepted⟩ := Option.ite_none_left_eq_some.mp accepted
    obtain ⟨kept, same⟩ := Option.ite_none_left_eq_some.mp accepted
    simp only [not_or, not_not] at kept
    obtain ⟨moved, whole, above⟩ := kept
    obtain ⟨value, writes⟩ := writes_of_strtol moved whole
    rw [strtol_writes writes, nonpos_iff, toInt_clamped] at above
    have narrowed : pid.toInt = (max (-2 ^ 63) (min value (2 ^ 63 - 1))).bmod (2 ^ 32) := by
      rw [← Option.some.inj same, strtol_writes writes, Int64.toInt_toInt32, toInt_clamped]
    have fits : value < 2 ^ 63 := by
      -- The largest `long` has the low bits of minus one.
      by_contra large
      have clamped : max (-2 ^ 63) (min value (2 ^ 63 - 1)) = 2 ^ 63 - 1 := by omega
      rw [narrowed, clamped] at positive
      exact absurd positive (by decide)
    have clamped : max (-2 ^ 63) (min value (2 ^ 63 - 1)) = value := by omega
    rw [clamped] at narrowed
    exact ⟨value, writes, by omega, fits, narrowed⟩
  · rintro ⟨value, writes, above, fits, same⟩
    have filled : token ≠ [] := fun empty => writes.text_nonempty (by rw [empty]; rfl)
    have clamped : max (-2 ^ 63) (min value (2 ^ 63 - 1)) = value := by omega
    have kept : ¬ ((strtol token).2 = cString token ∨ (strtol token).2 ≠ [] ∨
        (strtol token).1 ≤ 0) := by
      rw [strtol_writes writes, nonpos_iff, toInt_clamped, clamped]
      rintro (ended | rest | below)
      · exact writes.text_nonempty ended.symm
      · exact rest rfl
      · omega
    rw [victimPid, if_neg filled]
    simp only
    rw [if_neg kept, strtol_writes writes, Option.some.injEq, ← Int32.toInt_inj,
      Int64.toInt_toInt32, toInt_clamped, clamped, same]

/-- A pid that a token writes is read from it. -/
theorem victimPid_of_writes {token : Bytes} {pid : Int32} (positive : 0 < pid.toInt)
    (writes : Writes token pid.toInt) : victimPid token = some pid := by
  have below := pid.toInt_lt
  rw [victimPid_eq_some positive]
  refine ⟨pid.toInt, ?_, positive, by omega, ?_⟩
  · rw [writes.cString_eq]
    exact writes
  · rw [Int.bmod_eq_of_le (by omega) (by omega)]

/-- A pid that is read from a token is written there or misread. -/
theorem writes_or_misread {token : Bytes} {pid : Int32} (positive : 0 < pid.toInt)
    (read : victimPid token = some pid) : Writes token pid.toInt ∨ Misread token pid := by
  obtain ⟨value, writes, above, fits, same⟩ := (victimPid_eq_some positive).mp read
  by_cases plain : value < 2 ^ 31 ∧ (0 : UInt8) ∉ token
  · obtain ⟨small, whole⟩ := plain
    have all : cString token = token := by
      have cut := cString_append whole []
      rwa [List.append_nil, show cString [] = [] from rfl, List.append_nil] at cut
    rw [Int.bmod_eq_of_le (by omega) (by omega)] at same
    rw [all, ← same] at writes
    exact .inl writes
  · refine .inr ⟨value, writes, above, fits, ?_, same⟩
    by_contra neither
    obtain ⟨small, whole⟩ := not_or.mp neither
    exact plain ⟨by omega, whole⟩

/-- The pids are stored as written exactly if every pid that a token is misread as is also written. -/
theorem storedVictims_exact_iff (csv : Bytes) : StoredExactly csv ↔
    ∀ token ∈ csvTokens csv, ∀ pid : Int32, 0 < pid.toInt → Misread (trim isBlank token) pid →
      Written csv pid := by
  constructor
  · rintro ⟨_, same⟩ token member pid positive ⟨value, writes, above, fits, _, narrowed⟩
    refine (same pid).mp (mem_storedVictims.mpr ⟨positive, token, member, ?_⟩)
    exact (victimPid_eq_some positive).mpr ⟨value, writes, above, fits, narrowed⟩
  · intro written
    refine ⟨sortUnique_pids _, fun pid => ⟨fun stored => ?_, fun listed => ?_⟩⟩
    · obtain ⟨positive, token, member, read⟩ := mem_storedVictims.mp stored
      rcases writes_or_misread positive read with writes | misread
      · exact ⟨positive, token, member, writes⟩
      · exact written token member pid positive misread
    · obtain ⟨positive, token, member, writes⟩ := listed
      exact mem_storedVictims.mpr ⟨positive, token, member, victimPid_of_writes positive writes⟩

/-- The list `4294967297` stores the pid 1, which it does not write. -/
theorem storedVictims_narrowed :
    1 ∈ storedVictims (ascii "4294967297") ∧ ¬ StoredExactly (ascii "4294967297") := by
  have tokens : csvTokens (ascii "4294967297") = [ascii "4294967297"] := by decide +kernel
  have trimmed : trim isBlank (ascii "4294967297") = ascii "4294967297" := by decide +kernel
  have read : victimPid (ascii "4294967297") = some 1 := by decide +kernel
  have stored : 1 ∈ storedVictims (ascii "4294967297") := by
    rw [mem_storedVictims, tokens]
    exact ⟨by decide, _, List.mem_singleton.mpr rfl, by rw [trimmed, read]⟩
  refine ⟨stored, fun exact => ?_⟩
  obtain ⟨_, token, member, writes⟩ := (exact.2 1).mp stored
  rw [tokens, List.mem_singleton] at member
  rw [member, trimmed] at writes
  obtain ⟨blanks, sign, digits, numeral, value⟩ := writes
  have scanned : scan (ascii "4294967297") = ⟨false, ascii "4294967297", []⟩ := by
    decide +kernel
  rw [← numeral.cString_eq] at numeral
  rw [numeral.scan, Scan.mk.injEq] at scanned
  obtain ⟨unsigned, rfl, _⟩ := scanned
  rw [if_neg (ne_of_beq_false unsigned)] at value
  exact absurd value (by decide +kernel)

end Mcoz.Daemon
