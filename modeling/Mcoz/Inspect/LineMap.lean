/-
The map from addresses to lines.

`process_file` walks over the rows of a unit's line table and adds the range between an in-scope row and
the row after it. `lineWalk_eq` says which ranges a walk adds, for rows in any order, and
`processFile_eq` which ones a file adds. A file is walked to its end unless a path climbs above the root
(`processFile_some`).
-/

import Mcoz.Inspect.Dies

set_option autoImplicit false

namespace Mcoz.Inspect

open Word KeyedMap

/-! ### The walk -/

/-- A row of a line table: the path of its file, its line, its address, and whether it ends a
sequence. -/
structure Row where
  file : Bytes
  line : ℕ
  address : UInt64
  endSequence : Bool
deriving DecidableEq

/-- The local variables of the walk, and the ranges. -/
structure LineWalk where
  prevFilename : Bytes := []
  prevLine : ℕ := 0
  prevAddress : UInt64 := 0
  ranges : RangeMap

/-- One turn of the loop over the rows; `none` if a path aborts the program. -/
def Env.walkRow (env : Env) (walk : LineWalk) (row : Row) : Option LineWalk := do
  let included ← inScope env.cwd env.sourceScope walk.prevFilename
  let ranges :=
    if included = true ∧ walk.prevAddress ≠ 0 then
      addRange walk.prevFilename walk.prevLine
        (Interval.shift ⟨walk.prevAddress, row.address⟩ env.loadAddress) walk.ranges
    else walk.ranges
  if row.endSequence then
    return { walk with prevAddress := 0, ranges := ranges }
  else
    let filename ← canonicalizePath env.cwd row.file
    return ⟨filename, row.line, row.address, ranges⟩

/-- The walk over the rows of a unit. -/
def Env.lineWalk (env : Env) (rows : List Row) (ranges : RangeMap) : Option RangeMap :=
  (rows.foldlM env.walkRow { ranges := ranges }).map LineWalk.ranges

/-- The type of an ELF file. -/
inductive ElfType
  | exec
  | dyn
  | other
deriving DecidableEq

/-- The load address of a file of a type: an executable is loaded at zero. -/
def Env.loadedAs (env : Env) : ElfType → Env
  | .exec => { env with loadAddress := 0 }
  | .dyn => env
  | .other => env

/-- A unit: its line table, the files of the table, and its entries. -/
structure CompilationUnit where
  rows : List Row
  table : Option (ℕ → Bytes)
  root : Dies

/-- One turn of the loop over the units. -/
def Env.processUnit (env : Env) (ranges : RangeMap) (unit : CompilationUnit) : Option RangeMap := do
  let walked ← env.lineWalk unit.rows ranges
  env.processInlines unit.table unit.root walked

/-- `memory_map::process_file`, for a file with debug information. -/
def processFile (env : Env) (type : ElfType) (units : List CompilationUnit) (ranges : RangeMap) :
    Option RangeMap :=
  units.foldlM (env.loadedAs type).processUnit ranges

/-! ### The ranges of a walk -/

/-- A row whose file, under this name, is in scope. -/
def Env.Included (env : Env) (row : Row) (filename : Bytes) : Prop :=
  canonicalizePath env.cwd row.file = some filename ∧
    inScope env.cwd env.sourceScope filename = some true

/-- The range that a row makes with the row after it. -/
def Env.rowRanges (env : Env) (row next : Row) : RangeMap :=
  if row.endSequence = true ∨ row.address = 0 then []
  else
    match canonicalizePath env.cwd row.file with
    | none => []
    | some filename =>
        if inScope env.cwd env.sourceScope filename = some true then
          [(Interval.shift ⟨row.address, next.address⟩ env.loadAddress, ⟨filename, row.line⟩)]
        else []

/-- The ranges of all rows. -/
def Env.lineRanges (env : Env) : List Row → RangeMap
  | [] => []
  | [_] => []
  | row :: next :: rest => env.rowRanges row next ++ env.lineRanges (next :: rest)

/-- The variables of the walk after a row. -/
def Env.Follows (env : Env) (row : Row) (walk : LineWalk) : Prop :=
  if row.endSequence = true then walk.prevAddress = 0
  else canonicalizePath env.cwd row.file = some walk.prevFilename ∧ walk.prevLine = row.line ∧
    walk.prevAddress = row.address

section Walk

variable {env : Env} {row next : Row} {walk walk' : LineWalk} {rows : List Row} {ranges : RangeMap}

/-- What the variables of the walk say about the row before is what makes its range. -/
theorem rowRanges_eq (follows : env.Follows row walk) {included : Bool}
    (tested : inScope env.cwd env.sourceScope walk.prevFilename = some included) :
    (env.rowRanges row next).foldl addEntry walk.ranges =
      if included = true ∧ walk.prevAddress ≠ 0 then
        addRange walk.prevFilename walk.prevLine
          (Interval.shift ⟨walk.prevAddress, next.address⟩ env.loadAddress) walk.ranges
      else walk.ranges := by
  unfold Env.Follows at follows
  unfold Env.rowRanges
  by_cases closed : row.endSequence = true
  · rw [if_pos closed] at follows
    rw [if_pos (Or.inl closed), if_neg fun both => both.2 follows]
    rfl
  rw [if_neg closed] at follows
  obtain ⟨name, line, address⟩ := follows
  by_cases zero : row.address = 0
  · rw [if_pos (Or.inr zero), if_neg fun both => both.2 (address.trans zero)]
    rfl
  rw [if_neg (not_or.mpr ⟨closed, zero⟩), name, line, address]
  cases included with
  | false => simp [tested]
  | true =>
      simp only [tested, if_true, zero, ne_eq, not_false_eq_true, and_self, List.foldl_cons,
        List.foldl_nil]
      rfl

/-- A turn of the loop adds the range of the row before. -/
theorem walkRow_ranges (follows : env.Follows row walk) (walked : env.walkRow walk next = some walk') :
    walk'.ranges = (env.rowRanges row next).foldl addEntry walk.ranges ∧ env.Follows next walk' := by
  obtain ⟨included, tested, rest⟩ := Option.bind_eq_some_iff.mp walked
  rw [rowRanges_eq follows tested]
  unfold Env.Follows
  dsimp only at rest
  split at rest
  · rename_i closed
    obtain rfl := Option.some.inj rest
    rw [if_pos closed]
    exact ⟨rfl, rfl⟩
  · rename_i opened
    obtain ⟨filename, canonical, last⟩ := Option.bind_eq_some_iff.mp rest
    obtain rfl := Option.some.inj last
    rw [if_neg opened]
    exact ⟨rfl, canonical, rfl, rfl⟩

/-- The walk adds the ranges of the rows, where the variables stand for one row before them. -/
theorem foldlM_ranges (follows : env.Follows row walk)
    (walked : rows.foldlM env.walkRow walk = some walk') :
    walk'.ranges = (env.lineRanges (row :: rows)).foldl addEntry walk.ranges := by
  induction rows generalizing row walk with
  | nil =>
      cases walked
      rfl
  | cons next rest ih =>
      rw [List.foldlM_cons] at walked
      obtain ⟨middle, first, later⟩ := Option.bind_eq_some_iff.mp walked
      obtain ⟨added, follows'⟩ := walkRow_ranges follows first
      rw [ih follows' later, added, Env.lineRanges, List.foldl_append]

/-- The walk adds the ranges of its rows, in their order. -/
theorem lineWalk_eq {final : RangeMap} (walked : env.lineWalk rows ranges = some final) :
    final = (env.lineRanges rows).foldl addEntry ranges := by
  obtain ⟨walk, ran, rfl⟩ := Option.map_eq_some_iff.mp walked
  -- Before the first row the variables are as after the end of a sequence.
  have start : env.Follows ⟨[], 0, 0, true⟩ { ranges := ranges } := rfl
  rw [foldlM_ranges start ran]
  cases rows with
  | nil => rfl
  | cons row rest => rfl

/-- A file without inlined calls adds the ranges of its rows, unit by unit. -/
theorem processFile_eq {type : ElfType} {units : List CompilationUnit} {final : RangeMap}
    (plain : ∀ unit ∈ units, unit.root.Plain) (ran : processFile env type units ranges = some final) :
    final = (units.flatMap fun unit => (env.loadedAs type).lineRanges unit.rows).foldl addEntry
      ranges := by
  induction units generalizing ranges with
  | nil =>
      cases ran
      rfl
  | cons unit rest ih =>
      obtain ⟨plainUnit, plainRest⟩ := List.forall_mem_cons.mp plain
      rw [processFile, List.foldlM_cons] at ran
      obtain ⟨middle, first, later⟩ := Option.bind_eq_some_iff.mp ran
      obtain ⟨walked, lines, inlines⟩ := Option.bind_eq_some_iff.mp first
      rw [processInlines_plain plainUnit] at inlines
      obtain rfl := Option.some.inj inlines
      rw [ih plainRest later, lineWalk_eq lines, List.flatMap_cons, List.foldl_append]

/-! ### Paths that can be walked -/

/-- The path is one that does not climb above the root. -/
def Env.Walkable (env : Env) (filename : Bytes) : Prop :=
  ∃ name, canonicalizePath env.cwd filename = some name

theorem walkRow_some (root : env.Walkable []) (before : env.Walkable walk.prevFilename)
    (now : row.endSequence = false → env.Walkable row.file) :
    ∃ walk', env.walkRow walk row = some walk' ∧ env.Walkable walk'.prevFilename := by
  obtain ⟨normalized, canonical⟩ := before
  have tested : inScope env.cwd env.sourceScope walk.prevFilename =
      some (env.sourceScope.any fun pattern => wildcardMatch normalized pattern) := by
    rw [inScope, canonical]
    rfl
  simp only [Env.walkRow, tested, Option.bind_eq_bind, Option.bind_some]
  cases closed : row.endSequence with
  | true => exact ⟨_, rfl, normalized, canonical⟩
  | false =>
      obtain ⟨filename, named⟩ := now closed
      rw [named]
      refine ⟨_, rfl, ?_⟩
      by_cases empty : filename = []
      · exact empty ▸ root
      · exact ⟨filename, canonicalizePath_canonical named empty⟩

theorem lineWalk_some (root : env.Walkable [])
    (paths : ∀ row ∈ rows, row.endSequence = false → env.Walkable row.file) :
    ∃ final, env.lineWalk rows ranges = some final := by
  have runs : ∀ walk : LineWalk, env.Walkable walk.prevFilename →
      ∃ walk', rows.foldlM env.walkRow walk = some walk' := by
    induction rows with
    | nil => exact fun walk _ => ⟨walk, rfl⟩
    | cons row rest ih =>
        intro walk before
        obtain ⟨now, later⟩ := List.forall_mem_cons.mp paths
        obtain ⟨middle, first, after⟩ := walkRow_some root before now
        obtain ⟨walk', ran⟩ := ih later middle after
        exact ⟨walk', by rw [List.foldlM_cons, first]; exact ran⟩
  obtain ⟨walk', ran⟩ := runs { ranges := ranges } root
  exact ⟨walk'.ranges, by rw [Env.lineWalk, ran]; rfl⟩

/-- Unless a path climbs above the root, a file is walked to its end. -/
theorem processFile_some {type : ElfType} {units : List CompilationUnit}
    (plain : ∀ unit ∈ units, unit.root.Plain) (root : env.Walkable [])
    (paths : ∀ unit ∈ units, ∀ row ∈ unit.rows, row.endSequence = false → env.Walkable row.file) :
    ∃ final, processFile env type units ranges = some final := by
  have same : (env.loadedAs type).Walkable = env.Walkable := by
    cases type <;> rfl
  induction units generalizing ranges with
  | nil => exact ⟨ranges, rfl⟩
  | cons unit rest ih =>
      obtain ⟨plainUnit, plainRest⟩ := List.forall_mem_cons.mp plain
      obtain ⟨now, later⟩ := List.forall_mem_cons.mp paths
      obtain ⟨middle, walked⟩ : ∃ middle, (env.loadedAs type).lineWalk unit.rows ranges = some middle :=
        lineWalk_some (same ▸ root) (same ▸ now)
      obtain ⟨final, ran⟩ : ∃ final, processFile env type rest middle = some final :=
        ih plainRest later
      refine ⟨final, ?_⟩
      rw [processFile, List.foldlM_cons]
      simp only [Env.processUnit, walked, Option.bind_eq_bind, Option.bind_some,
        processInlines_plain plainUnit]
      exact ran

end Walk

end Mcoz.Inspect
