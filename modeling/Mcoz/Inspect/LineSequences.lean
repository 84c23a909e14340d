/-
Line tables of sequences, and what `find_line` finds in them.

In a table of sequences, whose addresses do not decrease and whose extents do not overlap, no two of the
ranges that `process_file` adds conflict (`lineRanges_apart`, `Sequence.Disjoint.ranges_apart`), so all of
them are in the map. `find_line_of_process_file` is what `find_line` makes of it.
-/

import Mcoz.Inspect.LineMap

set_option autoImplicit false

namespace Mcoz.Inspect

open Word KeyedMap

/-! ### Sequences -/

/-- A sequence of a line table: rows at addresses that do not decrease, and the row that ends it, above the
first of them. -/
structure Sequence where
  body : List Row
  last : Row
  opened : ∀ row ∈ body, row.endSequence = false
  closed : last.endSequence = true
  nonzero : ∀ row ∈ body, row.address ≠ 0
  sorted : (body ++ [last]).Pairwise fun row next => row.address ≤ next.address
  nonempty : ∃ row ∈ body, row.address < last.address

/-- Two rows in a row are rows. -/
theorem mem_of_pair {rows : List Row} {row next : Row} (pair : [row, next] <:+: rows) :
    row ∈ rows ∧ next ∈ rows :=
  ⟨pair.subset (List.mem_cons_self ..), pair.subset (by simp)⟩

namespace Sequence

/-- The rows of a sequence. -/
def rows (seq : Sequence) : List Row :=
  seq.body ++ [seq.last]

/-- The extent of a sequence. -/
def Covers (seq : Sequence) (addr : UInt64) : Prop :=
  ∃ row ∈ seq.body, row.address ≤ addr ∧ addr < seq.last.address

/-- Sequences whose extents do not overlap. -/
def Disjoint (seq other : Sequence) : Prop :=
  ∀ addr, ¬ (seq.Covers addr ∧ other.Covers addr)

section Rows

variable {seq other : Sequence} {row next : Row}

/-- Of two rows of a sequence in a row, the first is not the end, and the second is not below it nor
above the end. -/
theorem of_pair (pair : [row, next] <:+: seq.rows) :
    row ∈ seq.body ∧ row.address ≤ next.address ∧ next.address ≤ seq.last.address := by
  have ordered : [row, next].Pairwise fun row next => row.address ≤ next.address :=
    seq.sorted.sublist pair.sublist
  have upper : next.address ≤ seq.last.address := by
    rcases List.mem_append.mp (mem_of_pair pair).2 with inner | final
    · exact (List.pairwise_append.mp seq.sorted).2.2 next inner seq.last (List.mem_singleton_self _)
    · rw [List.mem_singleton.mp final]
      exact UInt64.le_refl _
  refine ⟨?_, List.rel_of_pairwise_cons ordered (List.mem_singleton_self _), upper⟩
  obtain ⟨front, back, split⟩ := pair
  have body : seq.body = (front ++ [row, next] ++ back).dropLast := by
    rw [split]
    exact List.dropLast_concat.symm
  rw [body, List.append_assoc, List.dropLast_append_of_ne_nil (by simp)]
  simp

/-- Under every row there is a row of the sequence below the end. -/
theorem exists_below (member : row ∈ seq.body) :
    ∃ first ∈ seq.body, first.address ≤ row.address ∧ first.address < seq.last.address := by
  obtain ⟨lowest, inside, below⟩ := seq.nonempty
  by_cases low : row.address < seq.last.address
  · exact ⟨row, member, UInt64.le_refl _, low⟩
  · exact ⟨lowest, inside, UInt64.le_trans (UInt64.le_of_lt below) (UInt64.not_lt.mp low), below⟩

/-- Of two disjoint sequences one ends before every row of the other. -/
theorem Disjoint.apart (disjoint : seq.Disjoint other) {row' : Row} (mine : row ∈ seq.body)
    (theirs : row' ∈ other.body) :
    seq.last.address ≤ row'.address ∨ other.last.address ≤ row.address := by
  obtain ⟨first, inside, under, below⟩ := exists_below mine
  obtain ⟨first', inside', under', below'⟩ := exists_below theirs
  by_contra overlap
  obtain ⟨left, right⟩ := not_or.mp overlap
  simp only [UInt64.le_iff_toNat_le, UInt64.lt_iff_toNat_lt] at under below under' below' left right
  -- The higher of the two rows is in the extent of both.
  by_cases higher : first.address ≤ first'.address
  · refine disjoint first'.address ⟨⟨first, inside, higher, ?_⟩, first', inside', UInt64.le_refl _, ?_⟩
    · rw [UInt64.lt_iff_toNat_lt]
      omega
    · exact UInt64.lt_iff_toNat_lt.mpr below'
  · rw [UInt64.le_iff_toNat_le] at higher
    refine disjoint first.address ⟨⟨first, inside, UInt64.le_refl _, ?_⟩, first', inside', ?_, ?_⟩
    · exact UInt64.lt_iff_toNat_lt.mpr below
    · rw [UInt64.le_iff_toNat_le]
      omega
    · rw [UInt64.lt_iff_toNat_lt]
      omega

end Rows

end Sequence

/-! ### The ranges of a sequence -/

section Ranges

variable {env : Env} {row next : Row} {rows : List Row} {entry : Interval × Line}

theorem mem_rowRanges : entry ∈ env.rowRanges row next ↔
    (row.endSequence = false ∧ row.address ≠ 0) ∧ ∃ filename, env.Included row filename ∧
      entry = (Interval.shift ⟨row.address, next.address⟩ env.loadAddress, ⟨filename, row.line⟩) := by
  unfold Env.rowRanges Env.Included
  by_cases skipped : row.endSequence = true ∨ row.address = 0
  · rw [if_pos skipped]
    simp only [List.not_mem_nil, false_iff]
    rintro ⟨⟨opened, nonzero⟩, -⟩
    rcases skipped with closed | zero
    · exact Bool.false_ne_true (opened.symm.trans closed)
    · exact nonzero zero
  · rw [if_neg skipped]
    obtain ⟨opened, nonzero⟩ := not_or.mp skipped
    cases name : canonicalizePath env.cwd row.file with
    | none => simp
    | some filename => by_cases scope : inScope env.cwd env.sourceScope filename = some true <;>
        simp [scope, opened, nonzero]

/-- The ranges up to the end of a sequence, and those after it. -/
theorem lineRanges_closed {body rest : List Row} {last : Row} (closed : last.endSequence = true) :
    env.lineRanges (body ++ last :: rest) = env.lineRanges (body ++ [last]) ++ env.lineRanges rest := by
  induction body with
  | nil =>
      cases rest with
      | nil => rfl
      | cons next rest =>
          have skipped : env.rowRanges last next = [] := if_pos (Or.inl closed)
          show env.rowRanges last next ++ env.lineRanges (next :: rest) = _
          rw [skipped]
          rfl
  | cons row body ih =>
      cases body with
      | nil =>
          rw [List.nil_append, List.nil_append] at ih
          rw [List.cons_append, List.nil_append, Env.lineRanges, ih, ← List.append_assoc]
          rfl
      | cons next body =>
          rw [List.cons_append, List.cons_append, Env.lineRanges, ← List.cons_append, ih,
            ← List.append_assoc]
          rfl

/-- The ranges of a table of sequences. -/
theorem lineRanges_sequences (sequences : List Sequence) :
    env.lineRanges (sequences.flatMap Sequence.rows) =
      sequences.flatMap fun seq => env.lineRanges seq.rows := by
  induction sequences with
  | nil => rfl
  | cons seq rest ih =>
      rw [List.flatMap_cons, List.flatMap_cons, ← ih, Sequence.rows, List.append_assoc,
        List.singleton_append, lineRanges_closed seq.closed]

/-- A range of the rows is that of a row and the row after it. -/
theorem mem_lineRanges : entry ∈ env.lineRanges rows ↔
    ∃ row next, [row, next] <:+: rows ∧ entry ∈ env.rowRanges row next := by
  induction rows with
  | nil => simp [Env.lineRanges]
  | cons row rest ih =>
      cases rest with
      | nil => simp [Env.lineRanges, List.infix_cons_iff]
      | cons next rest =>
          have split : ∀ first second, [first, second] <:+: row :: next :: rest ↔
              (first = row ∧ second = next) ∨ [first, second] <:+: next :: rest := by
            intro first second
            rw [List.infix_cons_iff, List.cons_prefix_cons, List.cons_prefix_cons,
              and_iff_left List.nil_prefix]
          rw [Env.lineRanges, List.mem_append, ih]
          simp only [split]
          constructor
          · rintro (here | ⟨first, second, inside, member⟩)
            · exact ⟨row, next, Or.inl ⟨rfl, rfl⟩, here⟩
            · exact ⟨first, second, Or.inr inside, member⟩
          · rintro ⟨first, second, ⟨rfl, rfl⟩ | inside, member⟩
            · exact Or.inl member
            · exact Or.inr ⟨first, second, inside, member⟩

end Ranges

/-! ### No two ranges conflict -/

section Apart

variable {env : Env} {rows : List Row} {seq other : Sequence}

/-- The ranges of a sequence, with the rows they are made of. -/
theorem mem_ranges_iff {range : Interval} {line : Line} : (range, line) ∈ env.lineRanges seq.rows ↔
    ∃ row next, [row, next] <:+: seq.rows ∧ env.Included row line.file ∧ row.line = line.line ∧
      range = Interval.shift ⟨row.address, next.address⟩ env.loadAddress := by
  rw [mem_lineRanges]
  constructor
  · rintro ⟨row, next, pair, made⟩
    obtain ⟨-, filename, included, same⟩ := mem_rowRanges.mp made
    obtain ⟨rfl, rfl⟩ := Prod.mk.inj same
    exact ⟨row, next, pair, included, rfl, rfl⟩
  · rintro ⟨row, next, pair, included, number, rfl⟩
    have inside := (Sequence.of_pair pair).1
    refine ⟨row, next, pair, mem_rowRanges.mpr ⟨⟨seq.opened row inside, seq.nonzero row inside⟩, ?_⟩⟩
    exact ⟨line.file, included, by rw [number]⟩

/-- A row makes at most one range. -/
theorem rowRanges_pairwise {row next : Row} {rel : Interval × Line → Interval × Line → Prop} :
    (env.rowRanges row next).Pairwise rel := by
  unfold Env.rowRanges
  split
  · exact List.Pairwise.nil
  split
  · exact List.Pairwise.nil
  split
  · exact List.pairwise_singleton ..
  · exact List.Pairwise.nil

/-- The ranges of rows whose addresses do not decrease are in their order. -/
theorem lineRanges_apart (loaded : Loaded env.loadAddress (rows.map Row.address))
    (sorted : rows.Pairwise fun row next => row.address ≤ next.address) :
    (env.lineRanges rows).Pairwise fun first second => first.1.before second.1 := by
  induction rows with
  | nil => exact List.Pairwise.nil
  | cons row rest ih =>
      cases rest with
      | nil => exact List.Pairwise.nil
      | cons next rest =>
          obtain ⟨-, later⟩ := List.pairwise_cons.mp sorted
          have loadedRest : Loaded env.loadAddress ((next :: rest).map Row.address) :=
            loaded.of_subset (List.subset_cons_self ..)
          rw [Env.lineRanges, List.pairwise_append]
          refine ⟨?_, ih loadedRest later, fun first made second member => ?_⟩
          · exact rowRanges_pairwise
          · obtain ⟨-, filename, -, rfl⟩ := mem_rowRanges.mp made
            obtain ⟨start, stop, pair, other⟩ := mem_lineRanges.mp member
            obtain ⟨-, filename', -, rfl⟩ := mem_rowRanges.mp other
            have inside : start ∈ next :: rest := pair.subset (List.mem_cons_self ..)
            refine loadedRest.mono (List.mem_cons_self ..) (List.mem_map_of_mem inside) ?_
            rcases List.mem_cons.mp inside with rfl | below
            · exact UInt64.le_refl _
            · exact (List.pairwise_cons.mp later).1 start below

/-- The ranges of disjoint sequences do not conflict. -/
theorem Sequence.Disjoint.ranges_apart (disjoint : seq.Disjoint other)
    (loaded : Loaded env.loadAddress (rows.map Row.address)) (mine : seq.rows ⊆ rows)
    (theirs : other.rows ⊆ rows)
    {first second : Interval × Line} (left : first ∈ env.lineRanges seq.rows)
    (right : second ∈ env.lineRanges other.rows) :
    first.1.before second.1 ∨ second.1.before first.1 := by
  obtain ⟨row, next, pair, -, -, made⟩ := mem_ranges_iff.mp left
  obtain ⟨row', next', pair', -, -, made'⟩ := mem_ranges_iff.mp right
  obtain ⟨inside, -, upper⟩ := Sequence.of_pair pair
  obtain ⟨inside', -, upper'⟩ := Sequence.of_pair pair'
  rw [made, made']
  obtain ⟨first, second⟩ := mem_of_pair pair
  obtain ⟨first', second'⟩ := mem_of_pair pair'
  rcases disjoint.apart inside inside' with below | below
  · refine Or.inl (loaded.mono (List.mem_map_of_mem (mine second))
      (List.mem_map_of_mem (theirs first')) ?_)
    exact UInt64.le_trans upper below
  · refine Or.inr (loaded.mono (List.mem_map_of_mem (theirs second'))
      (List.mem_map_of_mem (mine first)) ?_)
    exact UInt64.le_trans upper' below

end Apart

/-! ### What `find_line` finds -/

/-- The table of a unit is these sequences. -/
def CompilationUnit.Consists (unit : CompilationUnit) (sequences : List Sequence) : Prop :=
  unit.rows = sequences.flatMap Sequence.rows

/-- An address of a row that is in scope, and the line of the row. -/
def Env.Attributed (env : Env) (sequences : List Sequence) (addr : UInt64) (line : Line) : Prop :=
  ∃ seq ∈ sequences, ∃ row next, [row, next] <:+: seq.rows ∧ env.Included row line.file ∧
    row.line = line.line ∧ row.address ≤ addr ∧ addr < next.address

section FindLine

variable {env : Env} {units : List CompilationUnit} {tables : List (List Sequence)}
  {sequences : List Sequence}

/-- The ranges of a file, sequence by sequence. -/
theorem unitRanges_eq (consists : List.Forall₂ CompilationUnit.Consists units tables) :
    (units.flatMap fun unit => env.lineRanges unit.rows) =
      tables.flatten.flatMap fun seq => env.lineRanges seq.rows := by
  induction consists with
  | nil => rfl
  | cons table _ ih =>
      rw [List.flatMap_cons, List.flatten_cons, List.flatMap_append, ih, table, lineRanges_sequences]

/-- The addresses of all rows of the sequences. -/
def addresses (sequences : List Sequence) : List UInt64 :=
  (sequences.flatMap Sequence.rows).map Row.address

theorem rows_subset {seq : Sequence} (member : seq ∈ sequences) :
    seq.rows ⊆ sequences.flatMap Sequence.rows :=
  fun _ inside => List.mem_flatMap.mpr ⟨seq, member, inside⟩

theorem address_mem {seq : Sequence} {row : Row} (member : seq ∈ sequences) (inside : row ∈ seq.rows) :
    row.address ∈ addresses sequences :=
  List.mem_map_of_mem (rows_subset member inside)

/-- The ranges of disjoint sequences are not turned around, and do not conflict. -/
theorem sequenceRanges_apart (disjoint : sequences.Pairwise Sequence.Disjoint)
    (loaded : Loaded env.loadAddress (addresses sequences)) :
    (∀ entry ∈ sequences.flatMap fun seq => env.lineRanges seq.rows, entry.1.Proper) ∧
      (sequences.flatMap fun seq => env.lineRanges seq.rows).Pairwise fun first second =>
        first.1.before second.1 ∨ second.1.before first.1 := by
  constructor
  · intro entry member
    obtain ⟨seq, inside, made⟩ := List.mem_flatMap.mp member
    obtain ⟨row, next, pair, -, -, same⟩ := mem_ranges_iff.mp made
    obtain ⟨first, second⟩ := mem_of_pair pair
    rw [same]
    exact loaded.mono (address_mem inside first) (address_mem inside second)
      (Sequence.of_pair pair).2.1
  · refine List.pairwise_flatMap.mpr ⟨fun seq member => ?_, ?_⟩
    · have own : Loaded env.loadAddress (seq.rows.map Row.address) :=
        loaded.of_subset (List.map_subset _ (rows_subset member))
      exact (lineRanges_apart own seq.sorted).imp Or.inl
    · refine disjoint.imp_of_mem fun mine theirs apart first left second right => ?_
      exact apart.ranges_apart loaded (rows_subset mine) (rows_subset theirs) left right

/-- `find_line` finds the line of the row around an address, and nothing else. -/
theorem findLine_iff (disjoint : sequences.Pairwise Sequence.Disjoint)
    (loaded : Loaded env.loadAddress (addresses sequences)) {addr : UInt64} {line : Line} :
    findLine (addr + env.loadAddress)
        ((sequences.flatMap fun seq => env.lineRanges seq.rows).foldl addEntry []) = some line ↔
      env.Attributed sequences addr line := by
  obtain ⟨proper, apart⟩ := sequenceRanges_apart disjoint loaded
  obtain ⟨sorted, members⟩ : Sorted
        ((sequences.flatMap fun seq => env.lineRanges seq.rows).foldl addEntry []) ∧
      ∀ entry, entry ∈ (sequences.flatMap fun seq => env.lineRanges seq.rows).foldl addEntry [] ↔
        entry ∈ (sequences.flatMap fun seq => env.lineRanges seq.rows) ∨ entry ∈ [] :=
    emplaceAll_of_apart Interval.before_composes ordered_nil proper (by simp) apart
  rw [findLine_eq_some_iff sorted]
  constructor
  · rintro ⟨range, member, around⟩
    have added := ((members _).mp member).resolve_right (by simp)
    obtain ⟨seq, inside, made⟩ := List.mem_flatMap.mp added
    obtain ⟨row, next, pair, included, number, rfl⟩ := mem_ranges_iff.mp made
    obtain ⟨first, second⟩ := mem_of_pair pair
    have within := (loaded.contains_iff (address_mem inside first) (address_mem inside second)).mp around
    exact ⟨seq, inside, row, next, pair, included, number, Interval.contains_iff.mp within⟩
  · rintro ⟨seq, inside, row, next, pair, included, number, within⟩
    obtain ⟨first, second⟩ := mem_of_pair pair
    have made : (Interval.shift ⟨row.address, next.address⟩ env.loadAddress, line) ∈
        env.lineRanges seq.rows := mem_ranges_iff.mpr ⟨row, next, pair, included, number, rfl⟩
    have around : (Interval.shift ⟨row.address, next.address⟩ env.loadAddress).contains
        (addr + env.loadAddress) = true :=
      (loaded.contains_iff (address_mem inside first) (address_mem inside second)).mpr
        (Interval.contains_iff.mpr within)
    exact ⟨Interval.shift ⟨row.address, next.address⟩ env.loadAddress,
      (members _).mpr (Or.inl (List.mem_flatMap.mpr ⟨seq, inside, made⟩)), around⟩

/-- In a file without inlined calls, whose tables are disjoint sequences, `find_line` finds the line of every
in-scope row at all addresses of the row, and finds none at an address of no such row. -/
theorem find_line_of_process_file {type : ElfType} {ranges : RangeMap}
    (consists : List.Forall₂ CompilationUnit.Consists units tables)
    (plain : ∀ unit ∈ units, unit.root.Plain)
    (disjoint : tables.flatten.Pairwise Sequence.Disjoint)
    (loaded : Loaded (env.loadedAs type).loadAddress (addresses tables.flatten))
    (ran : processFile env type units [] = some ranges) :
    (∀ seq ∈ tables.flatten, ∀ row next filename, [row, next] <:+: seq.rows →
        env.Included row filename → ∀ addr, row.address ≤ addr → addr < next.address →
          findLine (addr + (env.loadedAs type).loadAddress) ranges = some ⟨filename, row.line⟩) ∧
      ∀ addr, (∀ seq ∈ tables.flatten, ∀ row next filename, [row, next] <:+: seq.rows →
          env.Included row filename → ¬ (row.address ≤ addr ∧ addr < next.address)) →
        findLine (addr + (env.loadedAs type).loadAddress) ranges = none := by
  have same : (env.loadedAs type).Included = env.Included := by
    cases type <;> rfl
  obtain rfl := processFile_eq plain ran
  rw [unitRanges_eq consists]
  constructor
  · intro seq inside row next filename pair included addr low high
    refine (findLine_iff disjoint loaded).mpr ⟨seq, inside, row, next, pair, ?_, rfl, low, high⟩
    exact same ▸ included
  · intro addr outside
    refine Option.eq_none_iff_forall_ne_some.mpr fun line found => ?_
    obtain ⟨seq, inside, row, next, pair, included, -, within⟩ :=
      (findLine_iff disjoint loaded).mp found
    exact outside seq inside row next line.file pair (same ▸ included) within

end FindLine

/-! ### A table -/

/-- A file of the program, a header in between, and the file again. -/
def sampleSequence : Sequence where
  body := [⟨ascii "a.c", 10, 16, false⟩, ⟨ascii "/usr/b.h", 3, 20, false⟩, ⟨ascii "a.c", 11, 32, false⟩]
  last := ⟨ascii "a.c", 11, 48, true⟩
  opened := by simp
  closed := rfl
  nonzero := by simp
  sorted := by decide
  nonempty := ⟨_, List.mem_cons_self .., by decide⟩

/-- The program in its working directory, which is the scope, loaded at an address. -/
def sampleEnv : Env where
  cwd := ascii "/home"
  sourceScope := [ascii "/home/%"]
  loadAddress := 4096

theorem find_line_of_process_file_sample :
    ∃ ranges, processFile sampleEnv .dyn [⟨sampleSequence.rows, none, .none⟩] [] = some ranges ∧
      findLine (18 + 4096) ranges = some ⟨ascii "/home/a.c", 10⟩ ∧
        findLine (48 + 4096) ranges = none := by
  obtain ⟨ranges, ran⟩ := Option.isSome_iff_exists.mp
    (by decide +kernel : (processFile sampleEnv .dyn [⟨sampleSequence.rows, none, .none⟩] []).isSome)
  have loaded : Loaded (sampleEnv.loadedAs .dyn).loadAddress (addresses [[sampleSequence]].flatten) :=
    Loaded.of_fits (by decide)
  have consists : List.Forall₂ CompilationUnit.Consists [⟨sampleSequence.rows, none, .none⟩]
      [[sampleSequence]] := List.Forall₂.cons (by simp [CompilationUnit.Consists]) List.Forall₂.nil
  obtain ⟨found, nowhere⟩ := find_line_of_process_file consists (by simp [Dies.Plain])
    (List.pairwise_singleton ..) loaded ran
  refine ⟨ranges, ran, ?_, ?_⟩
  · exact found sampleSequence (by simp) ⟨ascii "a.c", 10, 16, false⟩ ⟨ascii "/usr/b.h", 3, 20, false⟩
      (ascii "/home/a.c") ⟨[], _, rfl⟩ ⟨by decide +kernel, by decide +kernel⟩ 18 (by decide) (by decide)
  · refine nowhere 48 fun seq inside row next filename pair _ within => ?_
    obtain rfl : seq = sampleSequence := by simpa using inside
    exact UInt64.not_lt.mpr (Sequence.of_pair pair).2.2 within.2

end Mcoz.Inspect
