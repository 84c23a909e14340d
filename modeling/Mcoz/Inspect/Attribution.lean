/-
Inlined calls, attributed to their call sites.

`process_inlines` visits the entries of a unit in preorder (`processInlines_eq`), after the walk over its
rows. Of the ranges that it adds the map takes those that overlap nothing in it (`Env.Settled`). So the
addresses of the calls are attributed to their call sites exactly if the entries can be read and each of
the addresses is in a range that overlaps nothing at its turn: `attributes_iff`.
-/

import Mcoz.Inspect.CallSites
import Mcoz.Inspect.LineSequences

set_option autoImplicit false

namespace Mcoz.Inspect

open Word KeyedMap

/-! ### The visits -/

/-- The entries in preorder, each with the entries that enclose it. -/
def Dies.preorder (above : List Entry) : Dies → List (Entry × List Entry)
  | .none => []
  | .die .invalid _ next => next.preorder above
  | .die (.entry inlined attributes abstractOrigin specification) children next =>
      (.entry inlined attributes abstractOrigin specification, above) ::
        (children.preorder (.entry inlined attributes abstractOrigin specification :: above) ++
          next.preorder above)

/-- A visit adds the ranges of its entry. -/
def Env.visit (env : Env) (table : Option (ℕ → Bytes)) (ranges : RangeMap)
    (visit : Entry × List Entry) : Option RangeMap :=
  (env.addedRanges table visit.1).map fun added => added.foldl addEntry ranges

/-- The calls of a unit, in the order of its entries. -/
def Env.unitCalls (env : Env) (unit : CompilationUnit) : RangeMap :=
  (unit.root.preorder []).flatMap fun visit => env.calls unit.table visit.1

/-- The map when the walk over the rows of a unit is done. -/
def Env.lined (env : Env) (unit : CompilationUnit) (ranges : RangeMap) : RangeMap :=
  (env.lineRanges unit.rows).foldl addEntry ranges

section Visits

variable {env : Env} {table : Option (ℕ → Bytes)} {ranges final : RangeMap}

/-- `process_inlines` makes the visits one after the other. -/
theorem processInlines_eq (dies : Dies) (above : List Entry) :
    env.processInlines table dies ranges = (dies.preorder above).foldlM (env.visit table) ranges := by
  induction dies generalizing above ranges with
  | none => rfl
  | die entry children next below beside =>
      cases entry with
      | invalid => exact beside above
      | entry inlined attributes abstractOrigin specification =>
          rw [Env.processInlines, Dies.preorder, List.foldlM_cons, Env.visit, Option.bind_eq_bind,
            Option.bind_map]
          congr 1
          funext added
          rw [Function.comp_apply, List.foldlM_append, below, Option.bind_eq_bind]
          congr 1
          funext ranges
          exact beside above

/-- The visits add the ranges of their entries, one after the other. -/
theorem visits_eq {visits : List (Entry × List Entry)}
    (ran : visits.foldlM (env.visit table) ranges = some final) :
    final = (visits.flatMap fun visit => (env.addedRanges table visit.1).getD []).foldl addEntry
      ranges := by
  induction visits generalizing ranges with
  | nil =>
      cases ran
      rfl
  | cons visit rest ih =>
      rw [List.foldlM_cons] at ran
      obtain ⟨middle, first, later⟩ := Option.bind_eq_some_iff.mp ran
      obtain ⟨added, read, rfl⟩ := Option.map_eq_some_iff.mp first
      rw [ih later, List.flatMap_cons, List.foldl_append, read, Option.getD_some]

end Visits

/-! ### What `find_line` finds -/

/-- An address of an in-scope row. -/
def Env.InRow (env : Env) (rows : List Row) (addr : UInt64) : Prop :=
  ∃ row next filename, [row, next] <:+: rows ∧ row.endSequence = false ∧ env.Included row filename ∧
    row.address ≤ addr ∧ addr < next.address

/-- An address of the code of an entry. -/
def Entry.Holds (entry : Entry) (addr : UInt64) : Prop :=
  ∃ range ∈ entry.bodyRanges, range.contains addr = true

/-- An address of a call that is in no in-scope row, and in no call around it that qualifies. -/
def Env.Owns (env : Env) (unit : CompilationUnit) (visit : Entry × List Entry) (addr : UInt64) : Prop :=
  visit.1.Holds addr ∧ ¬ env.InRow unit.rows addr ∧
    ∀ entry ∈ visit.2, env.Qualifies unit.table entry → ¬ entry.Holds addr

/-- For every call that qualifies its ranges are added, and its own addresses are at the call site. -/
def Env.AttributesCalls (env : Env) (unit : CompilationUnit) (final : RangeMap) : Prop :=
  ∀ visit ∈ unit.root.preorder [], env.Qualifies unit.table visit.1 →
    env.addedRanges unit.table visit.1 = some (env.calls unit.table visit.1) ∧
      ∀ addr, env.Owns unit visit addr →
        findLine (addr + env.loadAddress) final = some (visit.1.callSite unit.table)

/-- The rows have given the address its line, or it is in a range of a call with this line that overlaps
nothing that is in the map at its turn. -/
def Env.Settled (env : Env) (unit : CompilationUnit) (ranges : RangeMap) (addr : UInt64) (line : Line) :
    Prop :=
  findLine addr (env.lined unit ranges) = some line ∨
    ∃ front range back, env.unitCalls unit = front ++ (range, line) :: back ∧
      range.contains addr = true ∧
        ∀ other ∈ front.foldl addEntry (env.lined unit ranges),
          ¬ Conflict Interval.before other.1 range

/-- Every call that qualifies can be read, and its own addresses are settled at the call site. -/
def Env.CallsSettle (env : Env) (unit : CompilationUnit) (ranges : RangeMap) : Prop :=
  ∀ visit ∈ unit.root.preorder [], env.Qualifies unit.table visit.1 →
    env.Readable visit.1 ∧ ∀ addr, env.Owns unit visit addr →
      env.Settled unit ranges (addr + env.loadAddress) (visit.1.callSite unit.table)

section Attribution

variable {env : Env} {unit : CompilationUnit} {ranges final : RangeMap}

/-- After the rows the map is in order, if the rows are. -/
theorem lined_sorted (sorted : Sorted ranges)
    (rising : ∀ entry ∈ env.lineRanges unit.rows, entry.1.Proper) : Sorted (env.lined unit ranges) :=
  (mem_emplaceAll_iff Interval.before_composes sorted rising).1

/-- The calls are not turned around. -/
theorem unitCalls_proper (wellFormed : ∀ visit ∈ unit.root.preorder [],
      env.Qualifies unit.table visit.1 → env.WellFormed visit.1) :
    ∀ entry ∈ env.unitCalls unit, entry.1.Proper := by
  intro entry member
  obtain ⟨visit, inside, called⟩ := List.mem_flatMap.mp member
  unfold Env.calls at called
  split at called
  · rename_i qualifies
    obtain ⟨range, among, rfl⟩ := List.mem_map.mp called
    have whole := wellFormed visit inside qualifies
    exact (whole.loaded range among).mono (List.mem_cons_self ..) (by simp) (whole.proper range among)
  · cases called

/-- If the calls can be read, they are added to what the rows have left. -/
theorem processUnit_eq (wellFormed : ∀ visit ∈ unit.root.preorder [],
      env.Qualifies unit.table visit.1 → env.WellFormed visit.1)
    (readable : ∀ visit ∈ unit.root.preorder [], env.Qualifies unit.table visit.1 →
      env.Readable visit.1)
    (ran : env.processUnit ranges unit = some final) :
    final = (env.unitCalls unit).foldl addEntry (env.lined unit ranges) := by
  obtain ⟨walked, lines, inlines⟩ := Option.bind_eq_some_iff.mp ran
  obtain rfl := lineWalk_eq lines
  rw [processInlines_eq unit.root []] at inlines
  have calls : ∀ visit ∈ unit.root.preorder [],
      (env.addedRanges unit.table visit.1).getD [] = env.calls unit.table visit.1 := by
    intro visit member
    by_cases qualifies : env.Qualifies unit.table visit.1
    · rw [(addedRanges_eq_iff (wellFormed visit member qualifies) qualifies).mpr
        (readable visit member qualifies), Option.getD_some]
    · rw [Env.calls, if_neg qualifies]
      cases read : env.addedRanges unit.table visit.1 with
      | none => rfl
      | some added => exact addedRanges_of_not_qualifies qualifies read
  rw [visits_eq inlines, List.flatMap_congr calls]
  rfl

/-- If the calls can be read, an address is at a line exactly if it is settled there. -/
theorem findLine_settled_iff (sorted : Sorted ranges)
    (rising : ∀ entry ∈ env.lineRanges unit.rows, entry.1.Proper)
    (wellFormed : ∀ visit ∈ unit.root.preorder [], env.Qualifies unit.table visit.1 →
      env.WellFormed visit.1)
    (readable : ∀ visit ∈ unit.root.preorder [], env.Qualifies unit.table visit.1 →
      env.Readable visit.1)
    (ran : env.processUnit ranges unit = some final) {addr : UInt64} {line : Line} :
    findLine addr final = some line ↔ env.Settled unit ranges addr line := by
  obtain rfl := processUnit_eq wellFormed readable ran
  obtain ⟨ordered, members⟩ : Sorted ((env.unitCalls unit).foldl addEntry (env.lined unit ranges)) ∧
      ∀ entry, entry ∈ (env.unitCalls unit).foldl addEntry (env.lined unit ranges) ↔
        entry ∈ env.lined unit ranges ∨ ∃ front back, env.unitCalls unit = front ++ entry :: back ∧
          ∀ other ∈ front.foldl addEntry (env.lined unit ranges),
            ¬ Conflict Interval.before other.1 entry.1 :=
    mem_emplaceAll_iff Interval.before_composes (lined_sorted sorted rising)
      (unitCalls_proper wellFormed)
  rw [findLine_eq_some_iff ordered, Env.Settled, findLine_eq_some_iff (lined_sorted sorted rising)]
  constructor
  · rintro ⟨range, member, around⟩
    rcases (members _).mp member with old | ⟨front, back, split, free⟩
    · exact Or.inl ⟨range, old, around⟩
    · exact Or.inr ⟨front, range, back, split, around, free⟩
  · rintro (⟨range, old, around⟩ | ⟨front, range, back, split, around, free⟩)
    · exact ⟨range, (members _).mpr (Or.inl old), around⟩
    · exact ⟨range, (members _).mpr (Or.inr ⟨front, back, split, free⟩), around⟩

/-- A unit's calls are attributed to their call sites exactly if they can be read and settle there. -/
theorem calls_attributed_iff (sorted : Sorted ranges)
    (rising : ∀ entry ∈ env.lineRanges unit.rows, entry.1.Proper)
    (wellFormed : ∀ visit ∈ unit.root.preorder [], env.Qualifies unit.table visit.1 →
      env.WellFormed visit.1)
    (ran : env.processUnit ranges unit = some final) :
    env.AttributesCalls unit final ↔ env.CallsSettle unit ranges := by
  constructor
  · intro attributes
    have readable : ∀ visit ∈ unit.root.preorder [], env.Qualifies unit.table visit.1 →
        env.Readable visit.1 := fun visit member qualifies =>
      (addedRanges_eq_iff (wellFormed visit member qualifies) qualifies).mp
        (attributes visit member qualifies).1
    refine fun visit member qualifies => ⟨readable visit member qualifies, fun addr owns => ?_⟩
    exact (findLine_settled_iff sorted rising wellFormed readable ran).mp
      ((attributes visit member qualifies).2 addr owns)
  · intro settle
    have readable : ∀ visit ∈ unit.root.preorder [], env.Qualifies unit.table visit.1 →
        env.Readable visit.1 := fun visit member qualifies => (settle visit member qualifies).1
    refine fun visit member qualifies => ⟨?_, fun addr owns => ?_⟩
    · exact (addedRanges_eq_iff (wellFormed visit member qualifies) qualifies).mpr
        (readable visit member qualifies)
    · exact (findLine_settled_iff sorted rising wellFormed readable ran).mpr
        ((settle visit member qualifies).2 addr owns)

end Attribution

/-! ### A call of a function of a header -/

/-- A call in `a.c`, line 7, of a function of the header, with code from address 20 on. -/
def sampleCall (own origin : Option ℕ) (high : Value) : Entry :=
  .entry true
    { declFile := own, callFile := some 2, callLine := some 7, lowPc := some (.address 20),
      highPc := some high }
    (.entry false { declFile := origin } .invalid .invalid) .invalid

/-- The sample table, with an entry for the call. -/
def sampleUnit (call : Entry) : CompilationUnit where
  rows := sampleSequence.rows
  table := some fun index => if index = 1 then ascii "/usr/b.h" else ascii "a.c"
  root := .die call .none .none

theorem sampleUnit_rising (call : Entry) :
    ∀ entry ∈ sampleEnv.lineRanges (sampleUnit call).rows, entry.1.Proper := by
  have apart := (sequenceRanges_apart (List.pairwise_singleton Sequence.Disjoint sampleSequence)
    (Loaded.of_fits (by decide) : Loaded sampleEnv.loadAddress (addresses [sampleSequence]))).1
  exact fun entry member => apart entry (List.mem_flatMap.mpr ⟨sampleSequence, by simp, member⟩)

theorem sampleCall_wellFormed {own origin : Option ℕ} {high : Value} (proper : 20 ≤ high.endFrom 20)
    (fits : ([20, high.endFrom 20].all fun addr =>
      addr.toNat + sampleEnv.loadAddress.toNat < 2 ^ 64) = true) :
    sampleEnv.WellFormed (sampleCall own origin high) where
  low := fun value same => ⟨20, (Option.some.inj same).symm⟩
  proper := fun range member => by
    obtain rfl : range = ⟨20, high.endFrom 20⟩ := List.mem_singleton.mp member
    exact proper
  loaded := fun range member => by
    obtain rfl : range = ⟨20, high.endFrom 20⟩ := List.mem_singleton.mp member
    exact Loaded.of_fits fits

/-- With its own declaring file and an end address, the call is attributed. -/
theorem calls_attributed_sample :
    ∃ final, sampleEnv.processUnit [] (sampleUnit (sampleCall (some 1) none (.address 32))) =
        some final ∧
      sampleEnv.AttributesCalls (sampleUnit (sampleCall (some 1) none (.address 32))) final := by
  obtain ⟨final, ran⟩ := Option.isSome_iff_exists.mp (by decide +kernel :
    (sampleEnv.processUnit [] (sampleUnit (sampleCall (some 1) none (.address 32)))).isSome)
  refine ⟨final, ran, (calls_attributed_iff ordered_nil (sampleUnit_rising _) ?_ ran).mpr ?_⟩
  · intro visit member _
    obtain rfl := List.mem_singleton.mp member
    exact sampleCall_wellFormed (by decide) (by decide)
  · intro visit member _
    obtain rfl := List.mem_singleton.mp member
    refine ⟨Or.inr ⟨rfl, fun _ low high _ same => ?_⟩, fun addr owns => Or.inr ?_⟩
    · obtain rfl : Value.address 32 = high := Option.some.inj same
      trivial
    · obtain ⟨⟨range, among, inside⟩, -⟩ := owns
      obtain rfl : range = ⟨20, 32⟩ := List.mem_singleton.mp among
      have loaded : Loaded sampleEnv.loadAddress [20, 32] := Loaded.of_fits (by decide)
      refine ⟨[], Interval.shift ⟨20, 32⟩ sampleEnv.loadAddress, [], by decide +kernel, ?_, ?_⟩
      · exact (loaded.contains_iff (List.mem_cons_self ..) (by simp)).mpr inside
      · decide +kernel

/-- The header's address 24 is in no in-scope row. -/
theorem sample_not_inRow : ¬ sampleEnv.InRow sampleSequence.rows 24 := by
  rintro ⟨row, next, filename, pair, -, ⟨named, included⟩, low, high⟩
  have rows : [row, next] <:+: [⟨ascii "a.c", 10, 16, false⟩, ⟨ascii "/usr/b.h", 3, 20, false⟩,
      ⟨ascii "a.c", 11, 32, false⟩, ⟨ascii "a.c", 11, 48, true⟩] := pair
  simp only [List.infix_cons_iff, List.cons_prefix_cons, List.nil_prefix, and_true,
    List.infix_nil, List.cons_ne_nil, List.prefix_nil, and_false, or_false] at rows
  rcases rows with ⟨rfl, rfl⟩ | ⟨rfl, rfl⟩ | ⟨rfl, rfl⟩
  · exact absurd high (by decide)
  · have same : canonicalizePath sampleEnv.cwd (ascii "/usr/b.h") = some (ascii "/usr/b.h") := by
      decide +kernel
    obtain rfl : ascii "/usr/b.h" = filename := Option.some.inj (same.symm.trans named)
    exact absurd included (by decide +kernel)
  · exact absurd low (by decide)

/-- A call that is well formed, in a unit that is processed, is not attributed. -/
def Unattributed (call : Entry) : Prop :=
  sampleEnv.WellFormed call ∧ ∃ final, sampleEnv.processUnit [] (sampleUnit call) = some final ∧
    ¬ sampleEnv.AttributesCalls (sampleUnit call) final

/-- The call is not attributed if only its origin names the declaring file, if its end is given as a length,
or if its range overlaps an in-scope row. -/
theorem calls_unattributed :
    Unattributed (sampleCall none (some 1) (.address 32)) ∧
      Unattributed (sampleCall (some 1) none (.constant 12)) ∧
        Unattributed (sampleCall (some 1) none (.address 40)) := by
  refine ⟨?_, ?_, ?_⟩
  · obtain ⟨final, ran⟩ := Option.isSome_iff_exists.mp (by decide +kernel :
      (sampleEnv.processUnit [] (sampleUnit (sampleCall none (some 1) (.address 32)))).isSome)
    refine ⟨sampleCall_wellFormed (by decide) (by decide), final, ran, fun attributes => ?_⟩
    have added := (attributes _ (List.mem_cons_self ..) (by decide +kernel)).1
    exact absurd added (by decide +kernel)
  · obtain ⟨final, ran⟩ := Option.isSome_iff_exists.mp (by decide +kernel :
      (sampleEnv.processUnit [] (sampleUnit (sampleCall (some 1) none (.constant 12)))).isSome)
    refine ⟨sampleCall_wellFormed (by decide) (by decide), final, ran, fun attributes => ?_⟩
    have added := (attributes _ (List.mem_cons_self ..) (by decide +kernel)).1
    exact absurd added (by decide +kernel)
  · have unfound : (sampleEnv.processUnit [] (sampleUnit (sampleCall (some 1) none
        (.address 40)))).map (findLine (24 + 4096)) = some none := by
      decide +kernel
    obtain ⟨final, ran, lost⟩ := Option.map_eq_some_iff.mp unfound
    refine ⟨sampleCall_wellFormed (by decide) (by decide), final, ran, fun attributes => ?_⟩
    have found := (attributes _ (List.mem_cons_self ..) (by decide +kernel)).2 24
      ⟨⟨⟨20, 40⟩, List.mem_cons_self .., by decide⟩, sample_not_inRow, by simp⟩
    exact Option.some_ne_none _ (found.symm.trans lost)

end Mcoz.Inspect
