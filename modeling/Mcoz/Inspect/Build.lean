/-
The map of a process.

`memory_map::build` goes through the loaded files, in the order of an unordered map, and processes those in scope, each
with the address that it is loaded at. The mappings of an address space do not overlap, so neither do the ranges of
different files, and the order does not matter: an address has the line that the map of one loaded file alone has for
it, and no other (`build_finds`).
-/

import Mcoz.Inspect.KeyOrder
import Mcoz.Inspect.LoadedFiles

set_option autoImplicit false

namespace Mcoz.Inspect

open Word KeyedMap Machine

/-! ### The loop over the files -/

/-- The debug information that is located for a file: the type of the ELF file, and its units. -/
structure DebugFile where
  type : ElfType
  units : List CompilationUnit

/-- The patterns of the files in scope, and the debug information of each path, if there is any. -/
structure Binaries where
  scope : List Bytes
  debug : Bytes → Option DebugFile

/-- The environment of a file that is loaded at an address. -/
def Env.loadedAt (env : Env) (load : UInt64) : Env :=
  { env with loadAddress := load }

/-- One turn of the loop; `none` if a path aborts the program. -/
def Env.buildFile (env : Env) (binaries : Binaries) (ranges : RangeMap) (file : Bytes × UInt64) : Option RangeMap := do
  let included ← inScope env.cwd binaries.scope file.1
  if included then
    match binaries.debug file.1 with
    | none => return ranges
    | some elf => processFile (env.loadedAt file.2) elf.type elf.units ranges
  else
    return ranges

/-- `memory_map::build`, for the loaded files in the order in which the unordered map gives them. -/
def Env.build (env : Env) (binaries : Binaries) (files : List (Bytes × UInt64)) : Option RangeMap :=
  files.foldlM (env.buildFile binaries) []

/-! ### What a file adds -/

/-- A file in scope, with debug information and a map of its own. -/
def Env.Maps (env : Env) (binaries : Binaries) (path : Bytes) (load : UInt64) (own : RangeMap) : Prop :=
  inScope env.cwd binaries.scope path = some true ∧
    ∃ elf, binaries.debug path = some elf ∧ processFile (env.loadedAt load) elf.type elf.units [] = some own

/-- The ranges that a file passes to `add_range`. -/
def Env.passedBy (env : Env) (binaries : Binaries) (file : Bytes × UInt64) : RangeMap :=
  if inScope env.cwd binaries.scope file.1 = some true then
    match binaries.debug file.1 with
    | none => []
    | some elf => (env.loadedAt file.2).passed elf.type elf.units
  else []

/-- Two walks at the same row. -/
structure SameRow (left right : LineWalk) : Prop where
  name : left.prevFilename = right.prevFilename
  line : left.prevLine = right.prevLine
  address : left.prevAddress = right.prevAddress

section File

variable {env : Env} {binaries : Binaries} {ranges other final own : RangeMap} {file : Bytes × UInt64}
variable {files : List (Bytes × UInt64)}

/-- How far a walk goes does not depend on the ranges. -/
theorem walkRow_same {left right next : LineWalk} {row : Row} (same : SameRow left right)
    (walked : env.walkRow left row = some next) :
    ∃ next', env.walkRow right row = some next' ∧ SameRow next next' := by
  obtain ⟨name, line, address⟩ := same
  obtain ⟨included, tested, rest⟩ := Option.bind_eq_some_iff.mp walked
  unfold Env.walkRow
  rw [← name, tested, Option.bind_eq_bind, Option.bind_some]
  dsimp only at rest ⊢
  by_cases closed : row.endSequence = true
  · rw [if_pos closed] at rest ⊢
    cases rest
    exact ⟨_, rfl, rfl, line, rfl⟩
  · rw [if_neg closed] at rest ⊢
    obtain ⟨filename, canonical, last⟩ := Option.bind_eq_some_iff.mp rest
    cases last
    rw [canonical]
    exact ⟨_, rfl, rfl, rfl, rfl⟩

theorem lineWalk_alone {rows : List Row} (walked : env.lineWalk rows ranges = some final) :
    ∃ own, env.lineWalk rows other = some own := by
  obtain ⟨walk, ran, -⟩ := Option.map_eq_some_iff.mp walked
  have start : SameRow { ranges := ranges } { ranges := other } := ⟨rfl, rfl, rfl⟩
  have each : ∀ (left right : LineWalk) (row : Row) (next : LineWalk), SameRow left right →
      env.walkRow left row = some next → ∃ next', env.walkRow right row = some next' ∧ SameRow next next' :=
    fun _ _ _ _ same walked => walkRow_same same walked
  obtain ⟨walk', ran', -⟩ := lockstep each start ran
  exact ⟨walk'.ranges, Option.map_eq_some_iff.mpr ⟨walk', ran', rfl⟩⟩

theorem processInlines_alone {table : Option (ℕ → Bytes)} {dies : Dies}
    (ran : env.processInlines table dies ranges = some final) :
    ∃ own, env.processInlines table dies other = some own := by
  rw [processInlines_eq dies []] at ran
  have each : ∀ (left right : RangeMap) (visit : Entry × List Entry) (next : RangeMap), True →
      env.visit table left visit = some next → ∃ next', env.visit table right visit = some next' ∧ True := by
    intro left right visit next _ visited
    obtain ⟨added, read, -⟩ := Option.map_eq_some_iff.mp visited
    exact ⟨_, Option.map_eq_some_iff.mpr ⟨added, read, rfl⟩, trivial⟩
  obtain ⟨own, ran', -⟩ := @lockstep _ _ _ _ _ (fun _ _ => True) each _ _ _ other trivial ran
  exact ⟨own, by rw [processInlines_eq dies [], ran']⟩

/-- A file that is processed after others is processed by itself as well. -/
theorem processFile_alone {type : ElfType} {units : List CompilationUnit}
    (ran : processFile env type units ranges = some final) : ∃ own, processFile env type units [] = some own := by
  have each : ∀ (left right : RangeMap) (unit : CompilationUnit) (next : RangeMap), True →
      (env.loadedAs type).processUnit left unit = some next →
        ∃ next', (env.loadedAs type).processUnit right unit = some next' ∧ True := by
    intro left right unit next _ processed
    obtain ⟨walked, lines, inlines⟩ := Option.bind_eq_some_iff.mp processed
    obtain ⟨walked', lines'⟩ := @lineWalk_alone _ _ right _ _ lines
    obtain ⟨next', inlines'⟩ := @processInlines_alone _ _ walked' _ _ _ inlines
    exact ⟨next', Option.bind_eq_some_iff.mpr ⟨walked', lines', inlines'⟩, trivial⟩
  obtain ⟨own, ran', -⟩ := @lockstep _ _ _ _ _ (fun _ _ => True) each _ _ _ [] trivial ran
  exact ⟨own, ran'⟩

/-- A file inserts what it passes. -/
theorem processFile_passed {type : ElfType} {units : List CompilationUnit}
    (ran : processFile env type units ranges = some final) : final = (env.passed type units).foldl addEntry ranges := by
  have inserted := processFile_run ran
  rw [run_insertion] at inserted
  exact (Option.some.inj inserted).symm

/-- A turn of the loop inserts what its file passes. -/
theorem buildFile_passed (ran : env.buildFile binaries ranges file = some final) :
    final = (env.passedBy binaries file).foldl addEntry ranges := by
  obtain ⟨included, tested, rest⟩ := Option.bind_eq_some_iff.mp ran
  unfold Env.passedBy
  cases included with
  | false =>
      rw [tested, if_neg (by decide)]
      exact (Option.some.inj rest).symm
  | true =>
      rw [tested, if_pos rfl]
      rw [if_pos rfl] at rest
      cases located : binaries.debug file.1 with
      | none =>
          rw [located] at rest
          exact (Option.some.inj rest).symm
      | some elf =>
          rw [located] at rest
          exact processFile_passed rest

/-- A file that has passed a range has a map of its own, which is what its ranges leave by themselves. -/
theorem maps_of_passed {entry : Interval × Line} (ran : env.buildFile binaries ranges file = some final)
    (passed : entry ∈ env.passedBy binaries file) :
    env.Maps binaries file.1 file.2 ((env.passedBy binaries file).foldl addEntry []) := by
  obtain ⟨included, tested, rest⟩ := Option.bind_eq_some_iff.mp ran
  unfold Env.passedBy at passed ⊢
  cases included with
  | false =>
      rw [tested, if_neg (by decide)] at passed
      cases passed
  | true =>
      rw [tested, if_pos rfl] at passed ⊢
      rw [if_pos rfl] at rest
      refine ⟨tested, ?_⟩
      cases located : binaries.debug file.1 with
      | none =>
          rw [located] at passed
          cases passed
      | some elf =>
          rw [located] at rest
          obtain ⟨own, alone⟩ := processFile_alone rest
          exact ⟨elf, rfl, by rw [alone, processFile_passed alone]⟩

/-- The map of a file by itself is what its ranges leave. -/
theorem own_of_maps (maps : env.Maps binaries file.1 file.2 own) :
    own = (env.passedBy binaries file).foldl addEntry [] := by
  obtain ⟨tested, elf, located, alone⟩ := maps
  unfold Env.passedBy
  rw [if_pos tested, located]
  exact processFile_passed alone

/-- The loop inserts what the files pass, one file after the other. -/
theorem build_passed (ran : files.foldlM (env.buildFile binaries) ranges = some final) :
    final = (files.map (env.passedBy binaries)).foldl (fun ranges batch => batch.foldl addEntry ranges) ranges ∧
      ∀ file ∈ files, ∃ before after, env.buildFile binaries before file = some after := by
  induction files generalizing ranges with
  | nil =>
      cases ran
      exact ⟨rfl, fun _ among => by cases among⟩
  | cons file later ih =>
      rw [List.foldlM_cons] at ran
      obtain ⟨middle, first, rest⟩ := Option.bind_eq_some_iff.mp ran
      obtain ⟨inserted, each⟩ := ih rest
      refine ⟨?_, List.forall_mem_cons.mpr ⟨⟨ranges, middle, first⟩, each⟩⟩
      rw [inserted, buildFile_passed first]
      rfl

end File

/-! ### The lines of an address space -/

/-- Every range that a loaded file passes lies in a mapping of the file. -/
def Env.Within (env : Env) (binaries : Binaries) (space : AddressSpace) : Prop :=
  ∀ path load, space.loadBase path = some load → ∀ entry ∈ env.passedBy binaries (path, load),
    entry.1.Proper ∧ ∃ mapping ∈ space.mappings, mapping.path = path ∧
      mapping.start ≤ entry.1.base ∧ entry.1.limit ≤ mapping.limit

section Space

variable {env : Env} {binaries : Binaries} {space : AddressSpace} {files : List (Bytes × UInt64)}
variable {uninit : Bytes → UInt8} {final : RangeMap} {addr : UInt64} {line : Line}

/-- Mappings of different paths do not overlap. -/
theorem mappings_apart {first second : Mapping} (left : first ∈ space.mappings) (right : second ∈ space.mappings)
    (different : first.path ≠ second.path) : first.limit ≤ second.start ∨ second.limit ≤ first.start := by
  have symmetric : Std.Symm fun a b : Mapping => a.limit ≤ b.start ∨ b.limit ≤ a.start := ⟨fun _ _ => Or.symm⟩
  have apart : space.mappings.Pairwise fun a b => a.limit ≤ b.start ∨ b.limit ≤ a.start :=
    space.ascending.imp Or.inl
  exact apart.forall left right fun same => different (congrArg Mapping.path same)

/-- The files that are read are those of the address space. -/
theorem mem_files (order : files.Perm (getLoadedFiles uninit space.maps)) {path : Bytes} {load : UInt64} :
    (path, load) ∈ files ↔ space.loadBase path = some load := by
  rw [order.mem_iff, Dict.mem_iff_get nodup_getLoadedFiles, get_getLoadedFiles]

/-- The ranges of different files do not overlap. -/
theorem passed_apart (order : files.Perm (getLoadedFiles uninit space.maps)) (within : env.Within binaries space) :
    (files.map (env.passedBy binaries)).Pairwise fun first second => ∀ entry ∈ first, ∀ other ∈ second,
      Interval.before entry.1 other.1 ∨ Interval.before other.1 entry.1 := by
  have single : (files.map Prod.fst).Nodup := (order.map Prod.fst).nodup_iff.mpr nodup_getLoadedFiles
  have paths : files.Pairwise fun first second => first.1 ≠ second.1 := List.pairwise_map.mp single
  refine List.pairwise_map.mpr (paths.imp_of_mem fun {first second} left right different entry among other among' => ?_)
  obtain ⟨-, mapping, held, path, low, high⟩ := within first.1 first.2 ((mem_files order).mp left) entry among
  obtain ⟨-, mapping', held', path', low', high'⟩ :=
    within second.1 second.2 ((mem_files order).mp right) other among'
  rcases mappings_apart held held' (path ▸ path' ▸ different) with ahead | behind
  · exact Or.inl (UInt64.le_trans (UInt64.le_trans high ahead) low')
  · exact Or.inr (UInt64.le_trans (UInt64.le_trans high' behind) low)

/-- **The line of an address** is the one that the map of a loaded file in scope has for it, processed by itself at the
address where the file is loaded, in whatever order the files are processed. -/
theorem build_finds (order : files.Perm (getLoadedFiles uninit space.maps))
    (within : env.Within binaries space) (ran : env.build binaries files = some final) :
    findLine addr final = some line ↔ ∃ path load own, space.loadBase path = some load ∧
      env.Maps binaries path load own ∧ findLine addr own = some line := by
  have proper : ∀ file ∈ files, ∀ entry ∈ env.passedBy binaries file, entry.1.Proper :=
    fun file among entry passed => (within file.1 file.2 ((mem_files order).mp among) entry passed).1
  have good : ∀ batch ∈ files.map (env.passedBy binaries), ∀ entry ∈ batch, entry.1.Proper := by
    intro batch among
    obtain ⟨file, among', rfl⟩ := List.mem_map.mp among
    exact proper file among'
  obtain ⟨inserted, each⟩ := build_passed ran
  obtain ⟨sorted, members⟩ := @mem_emplaceBatches_iff Interval Line Interval.before _ Interval.Proper
    Interval.before_composes _ good (passed_apart order within)
  have final' : Sorted final := by
    rw [inserted]
    exact sorted
  have own' {file : Bytes × UInt64} (among : file ∈ files) :
      Sorted ((env.passedBy binaries file).foldl addEntry []) :=
    (mem_emplaceAll_iff Interval.before_composes ordered_nil (proper file among)).1
  rw [findLine_eq_some_iff final']
  constructor
  · rintro ⟨range, held, around⟩
    rw [inserted] at held
    obtain ⟨batch, among, left⟩ := (members _).mp held
    obtain ⟨file, among', rfl⟩ := List.mem_map.mp among
    obtain ⟨before, after, turn⟩ := each file among'
    have passed : (range, line) ∈ env.passedBy binaries file :=
      mem_of_mem_emplaceAll Interval.before_composes (proper file among') left
    exact ⟨file.1, file.2, _, (mem_files order).mp among', maps_of_passed turn passed,
      (findLine_eq_some_iff (own' among')).mpr ⟨range, left, around⟩⟩
  · rintro ⟨path, load, own, loaded, maps, found⟩
    have among : (path, load) ∈ files := (mem_files order).mpr loaded
    have same : own = (env.passedBy binaries (path, load)).foldl addEntry [] := own_of_maps maps
    rw [same, findLine_eq_some_iff (own' among)] at found
    obtain ⟨range, left, around⟩ := found
    refine ⟨range, ?_, around⟩
    rw [inserted]
    exact (members _).mpr ⟨_, List.mem_map_of_mem among, left⟩

end Space

/-! ### An executable and a library -/

/-- A file with one range of one line. -/
def oneRange (type : ElfType) (file : Bytes) (line : ℕ) (low high : UInt64) : DebugFile :=
  ⟨type, [⟨[⟨file, line, low, false⟩, ⟨file, line, high, true⟩], none, .none⟩]⟩

/-- An executable, and a library that is mapped from an offset in its file. -/
def twoFiles : Binaries where
  scope := [[37]]
  debug path :=
    if path = ascii "/app" then some (oneRange .exec (ascii "/a.c") 3 0x400010 0x400020)
    else if path = ascii "/lib" then some (oneRange .dyn (ascii "/b.c") 7 0x1010 0x1020)
    else none

/-- The mapping of the code of a file. -/
def codeMapping (start offset : UInt64) (path : Bytes) (oneLine : (10 : UInt8) ∉ path)
    (flush : path.head? ≠ some 32 ∧ path.head? ≠ some 9) : Mapping :=
  ⟨start, start + 0x1000, true, false, true, false, offset, 8, 2, 77, path, oneLine, flush⟩

/-- The address space of the two. -/
def twoSpace : AddressSpace where
  mappings := [codeMapping 0x400000 0 (ascii "/app") (by decide) (by decide),
    codeMapping 0x500000 0x1000 (ascii "/lib") (by decide) (by decide)]
  ascending := by decide

/-- The whole of the sources is in scope. -/
def wideEnv : Env where
  cwd := ascii "/"
  sourceScope := [[37]]
  loadAddress := 0

theorem within_twoSpace : wideEnv.Within twoFiles twoSpace := by
  have every : ∀ mapping ∈ twoSpace.mappings, ∀ entry ∈ wideEnv.passedBy twoFiles (mapping.path, mapping.load),
      entry.1.Proper ∧ mapping.start ≤ entry.1.base ∧ entry.1.limit ≤ mapping.limit := by
    decide +kernel
  intro path load loaded entry passed
  obtain ⟨mapping, last, rfl⟩ := Option.map_eq_some_iff.mp loaded
  obtain ⟨held, loads⟩ := List.mem_filter.mp (List.mem_of_getLast? last)
  obtain ⟨-, rfl, -⟩ := of_decide_eq_true loads
  obtain ⟨proper, low, high⟩ := every mapping held entry passed
  exact ⟨proper, mapping, held, rfl, low, high⟩

theorem build_finds_two : ∃ final,
    wideEnv.build twoFiles [(ascii "/lib", 0x4ff000), (ascii "/app", 0x400000)] = some final ∧
      findLine 0x500014 final = some ⟨ascii "/b.c", 7⟩ ∧
      (findLine 0x500014 final = some ⟨ascii "/b.c", 7⟩ ↔ ∃ path load own,
        twoSpace.loadBase path = some load ∧ wideEnv.Maps twoFiles path load own ∧ findLine 0x500014 own = some ⟨ascii "/b.c", 7⟩) := by
  have order : [(ascii "/lib", 0x4ff000), (ascii "/app", 0x400000)].Perm
      (getLoadedFiles (fun _ => 0) twoSpace.maps) := by
    have read : getLoadedFiles (fun _ => 0) twoSpace.maps = [(ascii "/app", 0x400000), (ascii "/lib", 0x4ff000)] := by
      rw [getLoadedFiles_maps]
      decide +kernel
    rw [read]
    exact .swap _ _ _
  have final : (wideEnv.build twoFiles [(ascii "/lib", 0x4ff000), (ascii "/app", 0x400000)]).isSome = true := by
    decide +kernel
  obtain ⟨final, ran⟩ := Option.isSome_iff_exists.mp final
  have found : (wideEnv.build twoFiles [(ascii "/lib", 0x4ff000), (ascii "/app", 0x400000)]).bind
      (findLine 0x500014) = some ⟨ascii "/b.c", 7⟩ := by
    decide +kernel
  rw [ran] at found
  exact ⟨final, ran, found, build_finds order within_twoSpace ran⟩

end Mcoz.Inspect
