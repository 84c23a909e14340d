/-
The order of the ranges in the map.

A `std::map` asks of its comparison that it is a strict weak ordering on the keys it holds. Intervals that are
not empty are one as long as they do not overlap, and the map refuses those that do. An interval that is empty or
turned around is before itself, so the map keeps its guarantees exactly as long as every such interval is refused:
`lawful_throughout_iff`.
-/

import Mcoz.Inspect.Attribution
import Mcoz.Lib.Machine

set_option autoImplicit false

namespace Mcoz.Inspect

open Word KeyedMap Machine

/-! ### What is passed to `add_range` -/

/-- The ranges of the inlined calls of a unit, in the order of its entries. -/
def Env.inlineRanges (env : Env) (unit : CompilationUnit) : RangeMap :=
  (unit.root.preorder []).flatMap fun visit => (env.addedRanges unit.table visit.1).getD []

/-- The ranges that `process_file` and `process_inlines` pass to `add_range`, in their order. -/
def Env.passed (env : Env) (type : ElfType) (units : List CompilationUnit) : RangeMap :=
  units.flatMap fun unit =>
    (env.loadedAs type).lineRanges unit.rows ++ (env.loadedAs type).inlineRanges unit

/-- An insertion. -/
def insertion (ranges : RangeMap) (entry : Interval × Line) : Option RangeMap :=
  some (addEntry ranges entry)

section Passed

variable {env : Env} {ranges final : RangeMap}

theorem run_insertion {entries : RangeMap} :
    run insertion ranges entries = some (entries.foldl addEntry ranges) := by
  induction entries generalizing ranges with
  | nil => rfl
  | cons entry rest ih => exact ih

/-- A file inserts what is passed, one range after the other. -/
theorem processFile_run {type : ElfType} {units : List CompilationUnit}
    (ran : processFile env type units ranges = some final) :
    run insertion ranges (env.passed type units) = some final := by
  rw [run_insertion]
  induction units generalizing ranges with
  | nil => exact ran
  | cons unit rest ih =>
      rw [processFile, List.foldlM_cons] at ran
      obtain ⟨middle, first, later⟩ := Option.bind_eq_some_iff.mp ran
      obtain ⟨walked, lines, inlines⟩ := Option.bind_eq_some_iff.mp first
      rw [processInlines_eq unit.root []] at inlines
      rw [← ih later, visits_eq inlines, lineWalk_eq lines, Env.passed, List.flatMap_cons, List.foldl_append,
        List.foldl_append]
      rfl

end Passed

/-! ### The guarantees of the map -/

/-- The comparison is a strict weak ordering on the stored intervals, the entries are in its order, no interval is
stored twice, and `find_line` finds the line of the range around an address. -/
structure Lawful (ranges : RangeMap) : Prop where
  order : StrictWeak Interval.before (ranges.map Prod.fst)
  sorted : ranges.Pairwise fun first second => first.1.before second.1
  single : (ranges.map Prod.fst).Nodup
  lookup : ∀ addr line, findLine addr ranges = some line ↔
    ∃ range, (range, line) ∈ ranges ∧ range.contains addr = true

/-- The interval is not empty, or it is refused since it overlaps one in the map. -/
def Sound (ranges : RangeMap) (entry : Interval × Line) : Prop :=
  entry.1.base < entry.1.limit ∨ ∃ other ∈ ranges, Conflict Interval.before other.1 entry.1

section Guarantees

variable {ranges : RangeMap} {entry : Interval × Line}

theorem not_before_self_iff {range : Interval} : ¬ range.before range ↔ range.base < range.limit :=
  UInt64.not_le

/-- **The guarantees hold** exactly if the entries are in order and no interval is empty. -/
theorem lawful_iff : Lawful ranges ↔ Sorted ranges ∧ ∀ entry ∈ ranges, entry.1.base < entry.1.limit := by
  constructor
  · intro lawful
    have full : ∀ entry ∈ ranges, entry.1.base < entry.1.limit := fun entry member =>
      not_before_self_iff.mp (lawful.order.irrefl entry.1 (List.mem_map_of_mem member))
    exact ⟨⟨lawful.sorted, fun entry member => UInt64.le_of_lt (full entry member)⟩, full⟩
  · rintro ⟨sorted, full⟩
    refine ⟨sorted.strictWeak Interval.before_composes fun entry member =>
      not_before_self_iff.mpr (full entry member), sorted.sorted, ?_, fun addr line => findLine_eq_some_iff sorted⟩
    refine List.Pairwise.map _ (fun _ _ differ => differ) (sorted.sorted.imp_of_mem ?_)
    intro first second member _ less same
    exact not_before_self_iff.mpr (full first member) (same ▸ less)

/-- An insertion keeps the guarantees exactly if it is sound. -/
theorem lawful_addEntry_iff (lawful : Lawful ranges) : Lawful (addEntry ranges entry) ↔ Sound ranges entry := by
  obtain ⟨sorted, full⟩ := lawful_iff.mp lawful
  by_cases refused : ∃ other ∈ ranges, Conflict Interval.before other.1 entry.1
  · obtain ⟨other, member, conflict⟩ := refused
    have same : addEntry ranges entry = ranges :=
      emplace_of_conflict Interval.before_composes sorted member conflict
    rw [same]
    exact iff_of_true lawful (Or.inr ⟨other, member, conflict⟩)
  · have apart : ∀ other ∈ ranges, other.1.before entry.1 ∨ entry.1.before other.1 := by
      intro other member
      by_contra neither
      exact refused ⟨other, member, not_or.mp neither⟩
    rw [Sound, or_iff_left refused]
    constructor
    · intro after
      have stored : entry ∈ addEntry ranges entry := by
        rw [addEntry, addRange, (emplace_inserts apart).2]
        exact List.mem_append_right _ (List.mem_cons_self ..)
      exact (lawful_iff.mp after).2 entry stored
    · intro below
      obtain ⟨ordered, members⟩ : Sorted (addEntry ranges entry) ∧
          ∀ other, other ∈ addEntry ranges entry ↔ other = entry ∨ other ∈ ranges :=
        emplace_of_apart Interval.before_composes sorted (UInt64.le_of_lt below) apart
      refine lawful_iff.mpr ⟨ordered, fun other member => ?_⟩
      rcases (members other).mp member with rfl | old
      · exact below
      · exact full other old

end Guarantees

/-! ### A file -/

/-- **The guarantees hold throughout** what a file inserts exactly if every insertion is sound. -/
theorem lawful_throughout_iff {env : Env} {type : ElfType} {units : List CompilationUnit}
    {ranges final : RangeMap} (start : Lawful ranges) (ran : processFile env type units ranges = some final) :
    run insertion ranges (env.passed type units) = some final ∧
      (Throughout insertion (fun _ ranges => Lawful ranges) ranges (env.passed type units) ↔
        Along insertion Sound ranges (env.passed type units)) := by
  have inserted := processFile_run ran
  refine ⟨inserted, throughout_iff start ?_ inserted⟩
  intro past state entry next _ lawful moved
  obtain rfl := Option.some.inj moved
  exact lawful_addEntry_iff lawful

theorem lawful_throughout_iff_sample :
    ∃ final, processFile sampleEnv .dyn [⟨sampleSequence.rows, none, .none⟩] [] = some final ∧
      Throughout insertion (fun _ ranges => Lawful ranges) []
        (sampleEnv.passed .dyn [⟨sampleSequence.rows, none, .none⟩]) := by
  obtain ⟨final, ran⟩ := Option.isSome_iff_exists.mp
    (by decide +kernel : (processFile sampleEnv .dyn [⟨sampleSequence.rows, none, .none⟩] []).isSome)
  have full : ((sampleEnv.passed .dyn [⟨sampleSequence.rows, none, .none⟩]).all fun entry =>
      entry.1.base < entry.1.limit) = true := by decide +kernel
  refine ⟨final, ran, (lawful_throughout_iff (lawful_iff.mpr ⟨ordered_nil, by simp⟩) ran).2.mpr ?_⟩
  exact along_of_mem fun _ entry member => Or.inl (of_decide_eq_true (List.all_eq_true.mp full entry member))

/-- Three rows at one address, and the end of the sequence. -/
def repeatedSequence : Sequence where
  body := [⟨ascii "a.c", 10, 16, false⟩, ⟨ascii "a.c", 11, 16, false⟩, ⟨ascii "a.c", 12, 16, false⟩]
  last := ⟨ascii "a.c", 12, 32, true⟩
  opened := by simp
  closed := rfl
  nonzero := by simp
  sorted := by decide
  nonempty := ⟨_, List.mem_cons_self .., by decide⟩

/-- The empty interval of the first two rows is before itself, and is stored twice. -/
theorem repeated_rows_unlawful :
    ∃ final, processFile sampleEnv .dyn [⟨repeatedSequence.rows, none, .none⟩] [] = some final ∧
      ¬ StrictWeak Interval.before (final.map Prod.fst) ∧ ¬ (final.map Prod.fst).Nodup ∧ ¬ Lawful final := by
  have stored : (processFile sampleEnv .dyn [⟨repeatedSequence.rows, none, .none⟩] []).map
      (fun ranges => ranges.map Prod.fst) = some [⟨4112, 4112⟩, ⟨4112, 4112⟩, ⟨4112, 4128⟩] := by
    decide +kernel
  obtain ⟨final, ran, keys⟩ := Option.map_eq_some_iff.mp stored
  have reflexive : ¬ StrictWeak Interval.before (final.map Prod.fst) := by
    rw [keys]
    exact fun order => order.irrefl ⟨4112, 4112⟩ (List.mem_cons_self ..) (by decide)
  have twice : ¬ (final.map Prod.fst).Nodup := by
    rw [keys]
    decide
  exact ⟨final, ran, reflexive, twice, fun lawful => twice lawful.single⟩

end Mcoz.Inspect
