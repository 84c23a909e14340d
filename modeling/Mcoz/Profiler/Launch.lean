/-
From the command line to the profile.

`coz run` puts its options into the environment of the program, and `init_coz` reads them there before the program's
`main` runs. Patterns go through one variable, separated by tabs; an option that is not given leaves an inherited
variable as it is. So with none of these inherited, every experiment in the profile is one of the fixed line at the
fixed speedup, if the user fixed them (`launched_as_asked`).
-/

import Mcoz.Inspect.Scope
import Mcoz.Lib.Dict
import Mcoz.Lib.Text
import Mcoz.Profiler.Runtime

set_option autoImplicit false

namespace Mcoz.Profiler

open Word Machine Inspect

namespace Launch

/-! ### The environment -/

/-- The environment of a process, with one entry for each name. -/
abbrev Environ := List (Bytes × Bytes)

/-- `env[name] = value`. -/
def setEnv (name : String) (value : Bytes) (env : Environ) : Environ :=
  Dict.update (ascii name) value (fun _ => value) env

/-- `getenv`. -/
def getenv (env : Environ) (name : String) : Option Bytes :=
  Dict.get env (ascii name)

/-- `getenv_safe`. -/
def getenvSafe (env : Environ) (name : String) (fallback : String) : Bytes :=
  (getenv env name).getD (ascii fallback)

/-! ### The command -/

/-- What `argparse` returns for `coz run`, with the command behind `---`. A fixed speedup is one of the choices from 0
to 100. -/
structure RunArgs where
  binaryScope : List Bytes := []
  sourceScope : List Bytes := []
  progress : List Bytes := []
  output : Bytes
  endToEnd : Bool := false
  fixedLine : Option Bytes := none
  fixedSpeedup : Option (Fin 101) := none
  remainingArgs : List Bytes

/-- `os.path.join` of a path and the next part. -/
def joinPart (path part : Bytes) : Bytes :=
  if part.head? = some 47 then part
  else if path = [] ∨ path.getLast? = some 47 then path ++ part
  else path ++ ascii "/" ++ part

/-- `library_locations`. -/
def libraryLocations (cozPrefix : Bytes) : List Bytes :=
  [[cozPrefix, ascii "..", ascii "lib64", ascii "libcoz.so"],
    [cozPrefix, ascii "..", ascii "lib", ascii "libcoz.so"],
    [cozPrefix, ascii "..", ascii "lib64", ascii "coz-profiler", ascii "libcoz.so"],
    [cozPrefix, ascii "..", ascii "lib", ascii "coz-profiler", ascii "libcoz.so"],
    [ascii "libcoz", ascii "libcoz.so"],
    [cozPrefix, ascii "libcoz", ascii "libcoz.so"],
    [cozPrefix, ascii "build", ascii "libcoz", ascii "libcoz.so"]].map fun parts => parts.tail.foldl joinPart (parts.headD [])

/-- `'\t'.join`. -/
def joinTabs (items : List Bytes) : Bytes :=
  [9].intercalate items

/-- A variable that is set only if its option is given. -/
def setGiven (name : String) (value : Option Bytes) (env : Environ) : Environ :=
  match value with
  | some value => setEnv name value env
  | none => env

/-- The fixed line, if it is given and not empty. -/
def RunArgs.givenLine (args : RunArgs) : Option Bytes :=
  args.fixedLine.filter fun name => name ≠ []

/-- The environment that `_coz_run` makes. -/
def runEnviron (args : RunArgs) (cozRuntime : Bytes) (environ : Environ) : Environ :=
  let preload :=
    match getenv environ "LD_PRELOAD" with
    | some others => others ++ ascii ":" ++ cozRuntime
    | none => cozRuntime
  let env := setEnv "LD_PRELOAD" preload environ
  let env := setEnv "COZ_BINARY_SCOPE"
    (if 0 < args.binaryScope.length then joinTabs args.binaryScope else ascii "MAIN") env
  let env := setEnv "COZ_SOURCE_SCOPE"
    (if 0 < args.sourceScope.length then joinTabs args.sourceScope else ascii "%") env
  let env := setEnv "COZ_PROGRESS_POINTS" (joinTabs args.progress) env
  let env := setEnv "COZ_OUTPUT" args.output env
  let env := setGiven "COZ_END_TO_END" (if args.endToEnd then some (ascii "1") else none) env
  let env := setGiven "COZ_FIXED_LINE" args.givenLine env
  setGiven "COZ_FIXED_SPEEDUP" (args.fixedSpeedup.map fun speedup => decimal speedup.val) env

/-- `_coz_run`: the command and its environment, unless an error ends it first. -/
def cozRun (cozPrefix : Bytes) (pathExists : Bytes → Bool) (args : RunArgs) (environ : Environ) :
    Option (List Bytes × Environ) :=
  if args.remainingArgs.length = 0 then none
  else
    match (libraryLocations cozPrefix).find? pathExists with
    | some cozRuntime => some (args.remainingArgs, runEnviron args cozRuntime environ)
    | none => none

/-! ### The program -/

/-- What `init_coz` reads; a scope is a set. -/
structure Startup where
  outputFile : Bytes
  binaryScope : List Bytes
  sourceScope : List Bytes
  endToEnd : Bool
  fixedLineName : Bytes
  fixedSpeedup : ℤ

/-- `stringstream(text) >> value` for an `int`: without any text the value stays as it is, without digits it is zero,
and out of range it is the nearest `int`. -/
def extractInt (before : ℤ) (text : Bytes) : ℤ :=
  let scan := Text.scan text
  if text.all Text.isSpace then before
  else if scan.digits = [] then 0
  else
    let magnitude : ℤ := Text.digitsValue scan.digits
    max (-2 ^ 31) (min (if scan.negative then -magnitude else magnitude) (2 ^ 31 - 1))

/-- The binary scope, in which `MAIN` stands for the main executable. -/
def replaceMain (exe : Bytes) (scope : List Bytes) : List Bytes :=
  if scope.contains (ascii "MAIN") then exe :: scope.filter (· ≠ ascii "MAIN") else scope

/-- `init_coz` without the memory map; `exe` is what `/proc/self/exe` links to, and `before` what `fixed_speedup` holds
where it is declared. A progress line ends the program. -/
def initCoz (exe : Bytes) (before : ℤ) (env : Environ) : Option Startup :=
  if split 9 (getenvSafe env "COZ_PROGRESS_POINTS" "") ≠ [] then none
  else some
    { outputFile := getenvSafe env "COZ_OUTPUT" "profile.coz"
      binaryScope := replaceMain exe (split 9 (getenvSafe env "COZ_BINARY_SCOPE" ""))
      sourceScope := split 9 (getenvSafe env "COZ_SOURCE_SCOPE" "")
      endToEnd := (getenv env "COZ_END_TO_END").isSome
      fixedLineName := getenvSafe env "COZ_FIXED_LINE" ""
      fixedSpeedup := extractInt before (getenvSafe env "COZ_FIXED_SPEEDUP" "-1") }

/-- The files of the memory map by name, in the order of the map, each with its lines. -/
abbrev Files := List (Bytes × List UInt64)

/-- `stringstream(text) >> value` for a `size_t`. -/
def extractSize (before : UInt64) (text : Bytes) : UInt64 :=
  if text.all Text.isSpace then before
  else
    match Text.strtoull text with
    | some (value, _) => value
    | none => 18446744073709551615

/-- `memory_map::find_line` of a name; `before` is what `line_no` holds where it is declared. -/
def findLine (files : Files) (before : UInt64) (name : Bytes) : Option (Bytes × UInt64) :=
  if 58 ∈ name then
    let filename := name.takeWhile (· ≠ 58)
    let lineNo := extractSize before (name.dropWhile (· ≠ 58)).tail
    (files.find? fun file => filename.isSuffixOf file.1 ∧ lineNo ∈ file.2).map fun file => (file.1, lineNo)
  else none

/-- The settings of `profiler::startup`. A fixed line that is not found ends the program. -/
def settings (files : Files) (before : UInt64) (startup : Startup) : Option Loop.Settings :=
  let fixedDelaySize :=
    if 0 ≤ startup.fixedSpeedup ∧ startup.fixedSpeedup ≤ 100 then
      some (Loop.samplePeriod * UInt64.ofNat startup.fixedSpeedup.toNat / 100)
    else none
  if startup.fixedLineName ≠ [] then
    (findLine files before startup.fixedLineName).map fun line => ⟨some line, fixedDelaySize⟩
  else some ⟨none, fixedDelaySize⟩

/-! ### What arrives -/

section Environment

variable {env : Environ} {name other : String} {value : Bytes} {given : Option Bytes}

theorem getenv_setEnv : getenv (setEnv name value env) name = some value := by
  rw [getenv, setEnv, Dict.get_update, if_pos rfl]

theorem getenv_setEnv_of_ne (apart : ascii other ≠ ascii name) : getenv (setEnv name value env) other = getenv env other := by
  rw [getenv, setEnv, Dict.get_update, if_neg apart]
  rfl

/-- A variable whose option is not given is the inherited one. -/
theorem getenv_setGiven : getenv (setGiven name given env) name = given.or (getenv env name) := by
  cases given with
  | none => rfl
  | some value => exact getenv_setEnv

theorem getenv_setGiven_of_ne (apart : ascii other ≠ ascii name) :
    getenv (setGiven name given env) other = getenv env other := by
  cases given with
  | none => rfl
  | some value => exact getenv_setEnv_of_ne apart

end Environment

section Arrival

variable {args : RunArgs} {cozRuntime : Bytes} {environ : Environ} {pattern : Bytes} {items : List Bytes}

theorem output_runEnviron : getenv (runEnviron args cozRuntime environ) "COZ_OUTPUT" = some args.output := by
  simp (disch := decide) only [runEnviron, getenv_setGiven_of_ne, getenv_setEnv]

theorem binaryScope_runEnviron : getenv (runEnviron args cozRuntime environ) "COZ_BINARY_SCOPE" =
    some (if 0 < args.binaryScope.length then joinTabs args.binaryScope else ascii "MAIN") := by
  simp (disch := decide) only [runEnviron, getenv_setGiven_of_ne, getenv_setEnv_of_ne, getenv_setEnv]

theorem sourceScope_runEnviron : getenv (runEnviron args cozRuntime environ) "COZ_SOURCE_SCOPE" =
    some (if 0 < args.sourceScope.length then joinTabs args.sourceScope else ascii "%") := by
  simp (disch := decide) only [runEnviron, getenv_setGiven_of_ne, getenv_setEnv_of_ne, getenv_setEnv]

theorem endToEnd_runEnviron : getenv (runEnviron args cozRuntime environ) "COZ_END_TO_END" =
    (if args.endToEnd then some (ascii "1") else none).or (getenv environ "COZ_END_TO_END") := by
  simp (disch := decide) only [runEnviron, getenv_setGiven_of_ne, getenv_setGiven, getenv_setEnv_of_ne]

theorem fixedLine_runEnviron : getenv (runEnviron args cozRuntime environ) "COZ_FIXED_LINE" =
    args.givenLine.or (getenv environ "COZ_FIXED_LINE") := by
  simp (disch := decide) only [runEnviron, getenv_setGiven_of_ne, getenv_setGiven, getenv_setEnv_of_ne]

theorem fixedSpeedup_runEnviron : getenv (runEnviron args cozRuntime environ) "COZ_FIXED_SPEEDUP" =
    (args.fixedSpeedup.map fun speedup => decimal speedup.val).or (getenv environ "COZ_FIXED_SPEEDUP") := by
  simp (disch := decide) only [runEnviron, getenv_setGiven_of_ne, getenv_setGiven, getenv_setEnv_of_ne]

theorem split_nil : split 9 [] = [] := rfl

/-- The pieces of the joined patterns are those of the patterns. -/
theorem mem_split_joinTabs : pattern ∈ split 9 (joinTabs items) ↔ ∃ item ∈ items, pattern ∈ split 9 item := by
  induction items with
  | nil => simp [joinTabs, split_nil]
  | cons first rest ih =>
      cases rest with
      | nil => simp [joinTabs]
      | cons second others =>
          have joined : joinTabs (first :: second :: others) = first ++ 9 :: joinTabs (second :: others) := by
            simp [joinTabs, List.intercalate]
          have parts : split 9 (first ++ 9 :: joinTabs (second :: others)) =
              split 9 first ++ split 9 (joinTabs (second :: others)) := by
            rw [split, List.splitOn_append_cons_self, List.filter_append]
            rfl
          rw [joined, parts, List.mem_append, ih]
          simp only [List.mem_cons, exists_eq_or_imp]

theorem not_blank_decimal (value : ℕ) : ¬ (decimal value).all Text.isSpace = true := by
  intro blank
  obtain ⟨ch, rest, shape⟩ := List.exists_cons_of_ne_nil (Text.decimal_ne_nil value)
  have first : ch ∈ decimal value := shape ▸ List.mem_cons_self
  have plain := (Text.digit_plain (Text.isDigit_of_mem_decimal first)).1
  rw [List.all_eq_true.mp blank ch first] at plain
  cases plain

theorem extractInt_decimal {before : ℤ} {value : ℕ} (small : value ≤ 100) : extractInt before (decimal value) = value := by
  rw [extractInt, Text.scan_decimal]
  dsimp only
  rw [if_neg (not_blank_decimal value), if_neg (Text.decimal_ne_nil value), Text.digitsValue_decimal, if_neg (by decide)]
  omega

/-- The logged speedup is the fixed one. -/
theorem logged_fixed : ∀ speedup : Fin 101,
    (Loop.samplePeriod * UInt64.ofNat speedup.val / 100 * 100 / Loop.samplePeriod).toNat = speedup.val := by
  decide +kernel

end Arrival

/-- The line that a name asks for: the file ends with the part before the colon, and the number is the one behind it. -/
def Asks (files : Files) (before : UInt64) (name file : Bytes) (line : UInt64) : Prop :=
  ∃ filename lineNo lines, name = filename ++ 58 :: lineNo ∧ (58 : UInt8) ∉ filename ∧ filename <:+ file ∧
    line = extractSize before lineNo ∧ (file, lines) ∈ files ∧ line ∈ lines

/-- What the program is told: its output file, its scopes, and its mode. -/
structure Told (args : RunArgs) (exe : Bytes) (startup : Startup) : Prop where
  outputFile : startup.outputFile = args.output
  binaryScope : ∀ pattern, pattern ∈ startup.binaryScope ↔
    (pattern ≠ ascii "MAIN" ∧ ∃ item ∈ args.binaryScope, pattern ∈ split 9 item) ∨
      pattern = exe ∧ (args.binaryScope = [] ∨ ∃ item ∈ args.binaryScope, ascii "MAIN" ∈ split 9 item)
  sourceScope : ∀ pattern, pattern ∈ startup.sourceScope ↔
    (∃ item ∈ args.sourceScope, pattern ∈ split 9 item) ∨ args.sourceScope = [] ∧ pattern = ascii "%"
  endToEnd : startup.endToEnd = args.endToEnd

/-- What a record says of an experiment is what the user has fixed. -/
def AsAsked (args : RunArgs) (files : Files) (before : UInt64) (record : Record) : Prop :=
  ∀ file line speedup duration selectedSamples,
    record = .experiment file line speedup duration selectedSamples →
      (∀ asked, args.fixedSpeedup = some asked → speedup = asked.val) ∧
        ∀ name, args.givenLine = some name → Asks files before name file line

section Launched

variable {cozPrefix exe cozRuntime : Bytes} {pathExists : Bytes → Bool} {args : RunArgs} {environ env : Environ}
  {command : List Bytes} {startup : Startup} {files : Files} {fixed : Loop.Settings}
  {speedupBefore : ℤ} {lineBefore : UInt64}

theorem cozRun_eq_some (launched : cozRun cozPrefix pathExists args environ = some (command, env)) :
    command = args.remainingArgs ∧ ∃ cozRuntime, env = runEnviron args cozRuntime environ := by
  obtain ⟨-, found⟩ := Option.ite_none_left_eq_some.mp launched
  split at found
  · obtain ⟨rfl, rfl⟩ := Prod.mk.inj (Option.some.inj found)
    exact ⟨rfl, _, rfl⟩
  · cases found

theorem mem_replaceMain {scope : List Bytes} {pattern : Bytes} : pattern ∈ replaceMain exe scope ↔
    (pattern ≠ ascii "MAIN" ∧ pattern ∈ scope) ∨ pattern = exe ∧ ascii "MAIN" ∈ scope := by
  unfold replaceMain
  by_cases main : ascii "MAIN" ∈ scope
  · rw [if_pos (List.contains_iff_mem.mpr main), List.mem_cons, List.mem_filter]
    simp [main, and_comm, or_comm]
  · rw [if_neg (mt List.contains_iff_mem.mp main)]
    refine ⟨fun among => .inl ⟨fun same => main (same ▸ among), among⟩, fun either => ?_⟩
    exact either.elim And.right fun both => absurd both.2 main

theorem told_initCoz (read : initCoz exe speedupBefore (runEnviron args cozRuntime environ) = some startup)
    (single : getenv environ "COZ_END_TO_END" = none) : Told args exe startup := by
  obtain ⟨-, same⟩ := Option.ite_none_left_eq_some.mp read
  obtain rfl := Option.some.inj same
  refine ⟨?_, fun pattern => ?_, fun pattern => ?_, ?_⟩
  · rw [getenvSafe, output_runEnviron]
    rfl
  · show pattern ∈ replaceMain exe (split 9 (getenvSafe _ _ _)) ↔ _
    rw [getenvSafe, binaryScope_runEnviron, Option.getD_some, mem_replaceMain]
    cases scope : args.binaryScope with
    | nil =>
        have main : split 9 (ascii "MAIN") = [ascii "MAIN"] := by decide
        simp [main]
    | cons first rest =>
        rw [if_pos (by simp), mem_split_joinTabs, mem_split_joinTabs]
        simp
  · show pattern ∈ split 9 (getenvSafe _ _ _) ↔ _
    rw [getenvSafe, sourceScope_runEnviron, Option.getD_some]
    cases scope : args.sourceScope with
    | nil =>
        have all : split 9 (ascii "%") = [ascii "%"] := by decide
        simp [all]
    | cons first rest =>
        rw [if_pos (by simp), mem_split_joinTabs]
        simp
  · show (getenv _ _).isSome = _
    rw [endToEnd_runEnviron, single]
    cases args.endToEnd <;> rfl

/-- A line that is found is the one that the name asks for. -/
theorem asks_of_findLine {before : UInt64} {name file : Bytes} {line : UInt64} (found : findLine files before name = some (file, line)) :
    Asks files before name file line := by
  obtain ⟨colon, inner⟩ := Option.ite_none_right_eq_some.mp found
  obtain ⟨⟨held, lines⟩, here, same⟩ := Option.map_eq_some_iff.mp inner
  obtain ⟨rfl, rfl⟩ := Prod.mk.inj same
  have both := List.find?_some here
  rw [decide_eq_true_iff] at both
  obtain ⟨suffix, among⟩ := both
  have rest : name.dropWhile (· ≠ 58) ≠ [] := by
    rw [ne_eq, List.dropWhile_eq_nil_iff]
    exact fun all => by simpa using all 58 colon
  have head := List.head_dropWhile_not (fun byte : UInt8 => decide (byte ≠ 58)) rest
  refine ⟨name.takeWhile (· ≠ 58), (name.dropWhile (· ≠ 58)).tail, lines, ?_, ?_, List.isSuffixOf_iff_suffix.mp suffix,
    rfl, List.mem_of_find?_eq_some here, among⟩
  · have first : (name.dropWhile (· ≠ 58)).head rest = 58 := by simpa using head
    have split := List.cons_head_tail rest
    rw [first] at split
    rw [split, List.takeWhile_append_dropWhile]
  · exact fun there => by simpa using List.mem_takeWhile_imp there

/-- The settings are those of the options. -/
theorem settings_asked (read : initCoz exe speedupBefore (runEnviron args cozRuntime environ) = some startup)
    (noLine : getenv environ "COZ_FIXED_LINE" = none) (noSpeedup : getenv environ "COZ_FIXED_SPEEDUP" = none)
    (found : settings files lineBefore startup = some fixed) :
    fixed.fixedDelaySize =
        (args.fixedSpeedup.map fun speedup => Loop.samplePeriod * UInt64.ofNat speedup.val / 100) ∧
      ∀ name, args.givenLine = some name → ∃ line, fixed.fixedLine = some line ∧ Asks files lineBefore name line.1 line.2 := by
  obtain ⟨-, same⟩ := Option.ite_none_left_eq_some.mp read
  obtain rfl := Option.some.inj same
  unfold settings at found
  simp only [getenvSafe, fixedLine_runEnviron, fixedSpeedup_runEnviron, noLine, noSpeedup, Option.or_none] at found
  have delay : (if 0 ≤ extractInt speedupBefore ((args.fixedSpeedup.map fun speedup => decimal speedup.val).getD (ascii "-1")) ∧
      extractInt speedupBefore ((args.fixedSpeedup.map fun speedup => decimal speedup.val).getD (ascii "-1")) ≤ 100 then
        some (Loop.samplePeriod * UInt64.ofNat
          (extractInt speedupBefore ((args.fixedSpeedup.map fun speedup => decimal speedup.val).getD (ascii "-1"))).toNat / 100)
      else none) = args.fixedSpeedup.map fun speedup => Loop.samplePeriod * UInt64.ofNat speedup.val / 100 := by
    cases args.fixedSpeedup with
    | none => rfl
    | some speedup =>
        have small : speedup.val ≤ 100 := Nat.le_of_lt_succ speedup.isLt
        rw [Option.map_some, Option.getD_some, extractInt_decimal small, if_pos (by omega), Int.toNat_natCast]
        rfl
  rw [delay] at found
  cases given : args.givenLine with
  | none =>
      rw [given] at found
      obtain rfl := Option.some.inj found
      exact ⟨rfl, fun _ now => by cases now⟩
  | some name =>
      rw [given, Option.getD_some] at found
      have named : name ≠ [] := by
        have kept := (Option.filter_eq_some_iff.mp given).2
        simpa using kept
      rw [if_pos named] at found
      obtain ⟨line, here, rfl⟩ := Option.map_eq_some_iff.mp found
      refine ⟨rfl, fun other same => ⟨line, rfl, ?_⟩⟩
      obtain rfl := Option.some.inj same
      exact asks_of_findLine here

end Launched

/-! ### The profile -/

section Runs

variable {fixed : Loop.Settings} {actions : List Loop.Action} {final thread next : Loop.ProfilerThread}
  {action : Loop.Action}

/-- An experiment is of the fixed line and of the fixed delay size. -/
def Keeps (fixed : Loop.Settings) (experiment : Loop.Experiment) : Prop :=
  (∀ line, fixed.fixedLine = some line → (experiment.file, experiment.line) = line) ∧
    ∀ delaySize, fixed.fixedDelaySize = some delaySize → experiment.delaySize = delaySize

/-- What a record says of an experiment is what is fixed. -/
def RecordKeeps (fixed : Loop.Settings) (record : Record) : Prop :=
  ∀ file line speedup duration selectedSamples,
    record = .experiment file line speedup duration selectedSamples →
      (∀ of, fixed.fixedLine = some of → (file, line) = of) ∧
        ∀ delaySize, fixed.fixedDelaySize = some delaySize → speedup = (delaySize * 100 / Loop.samplePeriod).toNat

theorem keeps_beginExperiment {reading : Loop.Beginning} : Keeps fixed (Loop.beginExperiment fixed reading) := by
  refine ⟨fun line same => ?_, fun delaySize same => ?_⟩
  · simp [Loop.beginExperiment, same]
  · simp [Loop.beginExperiment, Loop.chooseDelay, same]

theorem recordKeeps_records {experiment : Loop.Experiment} (keeps : Keeps fixed experiment) {reading : Loop.Ending} :
    ∀ record ∈ experiment.records reading, RecordKeeps fixed record := by
  intro record among file line speedup duration selectedSamples same
  rcases List.mem_cons.mp among with rfl | points
  · obtain ⟨rfl, rfl, rfl, -, -⟩ := Record.experiment.inj same
    exact ⟨keeps.1, fun delaySize held => by rw [keeps.2 delaySize held]⟩
  · rcases List.mem_append.mp points with throughput | latency
    · obtain ⟨saved, -, rfl⟩ := List.mem_map.mp throughput
      cases same
    · obtain ⟨saved, -, rfl⟩ := List.mem_map.mp latency
      cases same

theorem recordKeeps_logSamples {origin now : UInt64} {lines : List Loop.SampledLine} :
    ∀ entry ∈ Loop.logSamples origin now lines, RecordKeeps fixed entry.2 := by
  intro entry among file line speedup duration selectedSamples same
  rcases List.mem_cons.mp among with rfl | later
  · cases same
  · obtain ⟨sampled, -, rfl⟩ := List.mem_map.mp later
    cases same

/-- What a step keeps: the running experiment and the records. -/
structure AllKeep (fixed : Loop.Settings) (thread : Loop.ProfilerThread) : Prop where
  running : ∀ experiment, thread.phase.experiment = some experiment → Keeps fixed experiment
  output : ∀ entry ∈ thread.output, RecordKeeps fixed entry.2

theorem AllKeep.step (all : AllKeep fixed thread) (moved : Loop.step fixed thread action = some next) :
    AllKeep fixed next := by
  cases Loop.effect_of_step moved with
  | started now _ _ =>
      refine ⟨(fun _ now => by cases now), List.forall_mem_singleton.mpr ?_⟩
      intro file line speedup duration selectedSamples same
      cases same
  | ready _ => exact ⟨(fun _ now => by cases now), all.output⟩
  | stopped _ => exact ⟨(fun _ now => by cases now), all.output⟩
  | began reading _ _ =>
      refine ⟨fun experiment now => ?_, all.output⟩
      obtain rfl := Option.some.inj now
      exact keeps_beginExperiment
  | concluded experiment reading running _ =>
      have keeps := all.running experiment (by rw [running]; rfl)
      refine ⟨fun other now => Option.some.inj now ▸ keeps, List.forall_mem_append.mpr ⟨all.output, fun entry among => ?_⟩⟩
      obtain ⟨record, written, rfl⟩ := List.mem_map.mp among
      exact recordKeeps_records keeps record written
  | counted experiment now lines _ _ =>
      rw [Loop.ProfilerThread.countDown]
      split
      · exact ⟨(fun _ now => by cases now), List.forall_mem_append.mpr ⟨all.output, recordKeeps_logSamples⟩⟩
      · exact ⟨(fun _ now => by cases now), all.output⟩
  | exited now lines _ _ => exact ⟨(fun _ now => by cases now), List.forall_mem_append.mpr ⟨all.output, recordKeeps_logSamples⟩⟩

theorem allKeep_of_run (ran : run (Loop.step fixed) Loop.fresh actions = some final) : AllKeep fixed final := by
  refine run_history (motive := fun _ thread => AllKeep fixed thread) ⟨?_, ?_⟩ ?_ ran
  · exact fun experiment now => by cases now
  · exact fun entry among => by cases among
  · exact fun _ _ _ _ _ all moved => all.step moved

end Runs

/-- **A launched program profiles what the user has asked for**, if none of the optional variables is inherited: it
runs the command, is told the output file, the scopes and the mode of the options, and every experiment in its profile
is of the fixed speedup and of a line that the fixed name asks for, if they are given. -/
theorem launched_as_asked {cozPrefix exe : Bytes} {pathExists : Bytes → Bool} {args : RunArgs} {environ env : Environ}
    {command : List Bytes} {startup : Startup} {files : Files} {fixed : Loop.Settings} {actions : List Loop.Action}
    {speedupBefore : ℤ} {lineBefore : UInt64} {final : Loop.ProfilerThread} (launched : cozRun cozPrefix pathExists args environ = some (command, env))
    (fresh : ∀ name ∈ ["COZ_END_TO_END", "COZ_FIXED_LINE", "COZ_FIXED_SPEEDUP"], getenv environ name = none)
    (read : initCoz exe speedupBefore env = some startup) (found : settings files lineBefore startup = some fixed)
    (ran : run (Loop.step fixed) Loop.fresh actions = some final) :
    command = args.remainingArgs ∧ Told args exe startup ∧ ∀ entry ∈ final.output, AsAsked args files lineBefore entry.2 := by
  obtain ⟨rfl, cozRuntime, rfl⟩ := cozRun_eq_some launched
  obtain ⟨delay, line⟩ := settings_asked read (fresh _ (by simp)) (fresh _ (by simp)) found
  refine ⟨rfl, told_initCoz read (fresh _ (by simp)), fun entry among => ?_⟩
  intro file number speedup duration selectedSamples same
  obtain ⟨lines, speeds⟩ := (allKeep_of_run ran).output entry among file number speedup duration selectedSamples same
  refine ⟨fun asked given => ?_, fun name given => ?_⟩
  · rw [given] at delay
    rw [speeds _ delay]
    exact logged_fixed asked
  · obtain ⟨of, held, asks⟩ := line name given
    obtain rfl := lines of held
    exact asks

/-- One experiment on a fixed line at a half of the time. -/
def halfArgs : RunArgs where
  binaryScope := [ascii "MAIN", ascii "/lib/%"]
  output := ascii "profile.coz"
  fixedLine := some (ascii "a.c:10")
  fixedSpeedup := some 50
  remainingArgs := [ascii "./app"]

/-- Two files, of which one ends with the fixed name and has the fixed line. -/
def halfFiles : Files :=
  [(ascii "/src/a.c", [9, 10]), (ascii "/src/b.c", [10])]

theorem launched_as_asked_half : ∃ startup final,
    initCoz (ascii "/app") 0 (runEnviron halfArgs (ascii "/coz/../lib64/libcoz.so") []) = some startup ∧
      run (Loop.step ⟨some (ascii "/src/a.c", 10), some 500000⟩) Loop.fresh Loop.oneExperiment = some final ∧
      Told halfArgs (ascii "/app") startup ∧ ∀ entry ∈ final.output, AsAsked halfArgs halfFiles 0 entry.2 := by
  obtain ⟨startup, read⟩ := Option.isSome_iff_exists.mp
    (by decide +kernel : (initCoz (ascii "/app") 0 (runEnviron halfArgs (ascii "/coz/../lib64/libcoz.so") [])).isSome)
  have shown : ((initCoz (ascii "/app") 0 (runEnviron halfArgs (ascii "/coz/../lib64/libcoz.so") [])).bind
      (settings halfFiles 0)).map (fun fixed => (fixed.fixedLine, fixed.fixedDelaySize)) =
        some (some (ascii "/src/a.c", 10), some 500000) := by
    decide +kernel
  rw [read, Option.bind_some] at shown
  obtain ⟨⟨line, delaySize⟩, found, same⟩ := Option.map_eq_some_iff.mp shown
  obtain ⟨rfl, rfl⟩ := Prod.mk.inj same
  obtain ⟨final, ran⟩ := Option.isSome_iff_exists.mp (by decide +kernel :
    (run (Loop.step ⟨some (ascii "/src/a.c", 10), some 500000⟩) Loop.fresh Loop.oneExperiment).isSome)
  have launched : cozRun (ascii "/coz") (fun _ => true) halfArgs [] =
      some (halfArgs.remainingArgs, runEnviron halfArgs (ascii "/coz/../lib64/libcoz.so") []) := rfl
  exact ⟨startup, final, read, ran, (launched_as_asked launched (fun _ _ => rfl) read found ran).2⟩

end Launch

end Mcoz.Profiler
