/-
What an entry says about an inlined call, and what `process_inlines` reads of it.

DWARF fixes what an entry says, and not `process_inlines`: its declaring file may be that of the entry it
comes from, and a `high_pc` that is a constant is a length. `Env.calls` are the ranges that are to be added
for an entry in this reading, each at the line of the call. They are added exactly if the entry is
`Readable` (`addedRanges_eq_iff`), and for other entries nothing is (`addedRanges_of_not_qualifies`).
-/

import Mcoz.Inspect.LineMap

set_option autoImplicit false

namespace Mcoz.Inspect

open Word KeyedMap

/-! ### What an entry says -/

namespace Entry

/-- Whether the tag of the entry is `inlined_subroutine`. -/
def inlined : Entry → Bool
  | .invalid => false
  | .entry inlined _ _ _ => inlined

/-- The attributes of the entry itself. -/
def attributes : Entry → Attributes
  | .invalid => {}
  | .entry _ attributes _ _ => attributes

/-- The path of the file that an entry names to which a reference leads, or one that it refers to: in the table of the
unit that the name stands in. -/
def referencedFile (table : Option (ℕ → Bytes)) : Entry → Option Bytes
  | .invalid => none
  | .entry _ attributes abstractOrigin specification =>
      (attributes.declFile.map fun index => filePath (attributes.otherTable.getD table) (some index)).or
        ((abstractOrigin.referencedFile table).or (specification.referencedFile table))

/-- The path of the declaring file, given on the entry or through its references. -/
def declaringFile (table : Option (ℕ → Bytes)) : Entry → Bytes
  | .invalid => []
  | .entry _ attributes abstractOrigin specification =>
      match attributes.declFile with
      | some index => filePath table (some index)
      | none => ((abstractOrigin.referencedFile table).or (specification.referencedFile table)).getD []

/-- The line of the call. -/
def callSite (table : Option (ℕ → Bytes)) (entry : Entry) : Line :=
  ⟨filePath table entry.attributes.callFile, entry.attributes.callLine.getD 0⟩

end Entry

/-- The end of a range: an address, or a constant that is the length of the range. -/
def Value.endFrom (low : UInt64) : Value → UInt64
  | .address value => value
  | .uconstant length => low + length
  | .sconstant length => low + length.toUInt64
  | .constant length => low + length

/-- The ranges of the code of an entry. -/
def Entry.bodyRanges (entry : Entry) : List Interval :=
  match entry.findAttribute Attributes.ranges with
  | some ranges => ranges
  | none =>
      match entry.findAttribute Attributes.lowPc, entry.findAttribute Attributes.highPc with
      | some (.address low), some high => [⟨low, high.endFrom low⟩]
      | _, _ => []

/-- An inlined call, in scope, of a function that is not. -/
def Env.Qualifies (env : Env) (table : Option (ℕ → Bytes)) (entry : Entry) : Prop :=
  entry.inlined = true ∧ entry.declaringFile table ≠ [] ∧ (entry.callSite table).file ≠ [] ∧
    inScope env.cwd env.sourceScope (entry.declaringFile table) = some false ∧
      inScope env.cwd env.sourceScope (entry.callSite table).file = some true

instance (env : Env) (table : Option (ℕ → Bytes)) (entry : Entry) :
    Decidable (env.Qualifies table entry) :=
  inferInstanceAs (Decidable (_ ∧ _))

/-- The ranges that are to be added for an entry. -/
def Env.calls (env : Env) (table : Option (ℕ → Bytes)) (entry : Entry) : RangeMap :=
  if env.Qualifies table entry then
    entry.bodyRanges.map fun range => (range.shift env.loadAddress, entry.callSite table)
  else []

/-- An entry of a file that is loaded in one piece, with DWARF's `low_pc` and with ranges that are not
turned around. -/
structure Env.WellFormed (env : Env) (entry : Entry) : Prop where
  low : ∀ value, entry.findAttribute Attributes.lowPc = some value → ∃ addr, value = .address addr
  proper : ∀ range ∈ entry.bodyRanges, range.Proper
  loaded : ∀ range ∈ entry.bodyRanges, Loaded env.loadAddress [range.base, range.limit]

/-! ### What `process_inlines` reads -/

/-- What is read as the end of a range that begins at `low` is its end. -/
def Env.ReadsEnd (env : Env) (entry : Entry) (low : UInt64) : Value → Prop
  | .address _ => True
  | .uconstant _ => low = 0
  | .sconstant _ => low = 0
  | .constant length => env.uninit entry = low + length

/-- The entry itself names its declaring file, and its ranges are a list, or the end is read. An entry
without code need not be read. -/
def Env.Readable (env : Env) (entry : Entry) : Prop :=
  entry.bodyRanges = [] ∨ entry.attributes.declFile.isSome = true ∧
    (entry.findAttribute Attributes.ranges = none → ∀ low high,
      entry.findAttribute Attributes.lowPc = some (.address low) →
        entry.findAttribute Attributes.highPc = some high → env.ReadsEnd entry low high)

section Reading

variable {env : Env} {table : Option (ℕ → Bytes)} {entry : Entry}

theorem readPc_eq_endFrom_iff {low : UInt64} {high : Value} :
    env.readPc entry high = high.endFrom low ↔ env.ReadsEnd entry low high := by
  cases high with
  | address value => exact iff_of_true rfl trivial
  | uconstant length => exact UInt64.right_eq_add
  | sconstant length => exact UInt64.right_eq_add
  | constant length => exact Iff.rfl

/-- The ranges of the call are read as they are, if the end of a single one is. -/
theorem callRanges_eq_iff (wellFormed : env.WellFormed entry) :
    env.callRanges entry = entry.bodyRanges ↔
      (entry.findAttribute Attributes.ranges = none → ∀ low high,
        entry.findAttribute Attributes.lowPc = some (.address low) →
          entry.findAttribute Attributes.highPc = some high → env.ReadsEnd entry low high) := by
  unfold Env.callRanges Entry.bodyRanges
  cases list : entry.findAttribute Attributes.ranges with
  | some ranges => simp
  | none =>
      cases low : entry.findAttribute Attributes.lowPc with
      | none => simp
      | some value =>
          obtain ⟨addr, rfl⟩ := wellFormed.low value low
          cases high : entry.findAttribute Attributes.highPc with
          | none => simp
          | some value => simp [Env.readPc, ← readPc_eq_endFrom_iff]

theorem shift_injective {load : UInt64} {site : Line} :
    Function.Injective fun range : Interval => (range.shift load, site) := by
  intro first second same
  obtain ⟨base, limit⟩ := first
  obtain ⟨base', limit'⟩ := second
  obtain ⟨low, high⟩ := Interval.mk.inj (Prod.mk.inj same).1
  obtain rfl : base = base' := (UInt64.add_left_inj load).mp low
  obtain rfl : limit = limit' := (UInt64.add_left_inj load).mp high
  rfl

/-- What is added: the ranges of a call whose own declaring file is out of scope, at a line in scope. -/
theorem addedRanges_eq_of {own : Bytes} (call : entry.inlined = true)
    (declared : filePath table entry.attributes.declFile = own) (named : own ≠ [])
    (site : (entry.callSite table).file ≠ [])
    (outside : inScope env.cwd env.sourceScope own = some false)
    (inside : inScope env.cwd env.sourceScope (entry.callSite table).file = some true) :
    env.addedRanges table entry = some ((env.callRanges entry).map fun range =>
      (range.shift env.loadAddress, entry.callSite table)) := by
  cases entry with
  | invalid => cases call
  | entry inlined attributes abstractOrigin specification =>
      obtain rfl : inlined = true := call
      obtain rfl : filePath table attributes.declFile = own := declared
      rw [Env.addedRanges, if_neg (by decide)]
      have both : ¬ (filePath table attributes.declFile = [] ∨ filePath table attributes.callFile = []) :=
        not_or.mpr ⟨named, site⟩
      have called : inScope env.cwd env.sourceScope (filePath table attributes.callFile) = some true :=
        inside
      simp only [if_neg both, outside, called, Option.bind_eq_bind, Option.bind_some]
      rfl

/-- Nothing is added for an entry without an own declaring file. -/
theorem addedRanges_of_unnamed (unnamed : filePath table entry.attributes.declFile = []) :
    env.addedRanges table entry = some [] := by
  cases entry with
  | invalid => rfl
  | entry inlined attributes abstractOrigin specification =>
      rw [Env.addedRanges]
      by_cases other : inlined = false
      · rw [if_pos other]
      · rw [if_neg other]
        exact if_pos (Or.inl unnamed)

/-- Nothing else is added. -/
theorem addedRanges_inv {added : RangeMap} (ran : env.addedRanges table entry = some added)
    (any : added ≠ []) :
    entry.inlined = true ∧ filePath table entry.attributes.declFile ≠ [] ∧
      (entry.callSite table).file ≠ [] ∧
        inScope env.cwd env.sourceScope (filePath table entry.attributes.declFile) = some false ∧
          inScope env.cwd env.sourceScope (entry.callSite table).file = some true := by
  cases entry with
  | invalid => exact absurd (Option.some.inj ran).symm any
  | entry inlined attributes abstractOrigin specification =>
      rw [Env.addedRanges] at ran
      by_cases other : inlined = false
      · rw [if_pos other] at ran
        exact absurd (Option.some.inj ran).symm any
      rw [if_neg other] at ran
      by_cases unnamed : filePath table attributes.declFile = [] ∨ filePath table attributes.callFile = []
      · exact absurd (Option.some.inj ((if_pos unnamed).symm.trans ran)).symm any
      obtain ⟨named, site⟩ := not_or.mp unnamed
      obtain ⟨declared, outside, ran⟩ := Option.bind_eq_some_iff.mp ((if_neg unnamed).symm.trans ran)
      cases declared with
      | true => exact absurd (Option.some.inj ran).symm any
      | false =>
          obtain ⟨called, inside, ran⟩ := Option.bind_eq_some_iff.mp ran
          cases called with
          | false => exact absurd (Option.some.inj ran).symm any
          | true => exact ⟨Bool.of_not_eq_false other, named, site, outside, inside⟩

/-- An own declaring file is the declaring file. -/
theorem declaringFile_own (own : entry.attributes.declFile.isSome = true) :
    filePath table entry.attributes.declFile = entry.declaringFile table := by
  cases entry with
  | invalid => cases own
  | entry inlined attributes abstractOrigin specification =>
      obtain ⟨index, named⟩ := Option.isSome_iff_exists.mp own
      have first : attributes.declFile = some index := named
      rw [Entry.declaringFile, Entry.attributes, first]

/-- An entry with a path of its own declaring file has the attribute. -/
theorem isSome_of_filePath {index : Option ℕ} (named : filePath table index ≠ []) :
    index.isSome = true := by
  cases index with
  | some index => rfl
  | none => cases table <;> exact absurd rfl named

/-- An entry without code is read as one. -/
theorem callRanges_of_empty (wellFormed : env.WellFormed entry) (empty : entry.bodyRanges = []) :
    env.callRanges entry = entry.bodyRanges := by
  refine (callRanges_eq_iff wellFormed).mpr fun list low high lowPc highPc => ?_
  rw [Entry.bodyRanges, list, lowPc, highPc] at empty
  cases empty

/-- For a call that qualifies, its ranges are added exactly if the entry can be read. -/
theorem addedRanges_eq_iff (wellFormed : env.WellFormed entry) (qualifies : env.Qualifies table entry) :
    env.addedRanges table entry = some (env.calls table entry) ↔ env.Readable entry := by
  obtain ⟨call, named, site, outside, inside⟩ := id qualifies
  rw [Env.calls, if_pos qualifies, Env.Readable, ← callRanges_eq_iff wellFormed]
  by_cases own : entry.attributes.declFile.isSome = true
  · have declared : filePath table entry.attributes.declFile = entry.declaringFile table :=
      declaringFile_own own
    rw [addedRanges_eq_of call declared named site outside inside, Option.some_inj,
      (List.map_injective_iff.mpr shift_injective).eq_iff]
    constructor
    · exact fun same => Or.inr ⟨own, same⟩
    · rintro (empty | ⟨-, same⟩)
      · exact callRanges_of_empty wellFormed empty
      · exact same
  · have unnamed : filePath table entry.attributes.declFile = [] := by
      by_contra named
      exact own (isSome_of_filePath named)
    rw [addedRanges_of_unnamed unnamed, Option.some_inj, eq_comm, List.map_eq_nil_iff]
    exact ⟨Or.inl, fun either => either.resolve_right fun both => own both.1⟩

/-- For another entry nothing is added. -/
theorem addedRanges_of_not_qualifies (other : ¬ env.Qualifies table entry) {added : RangeMap}
    (ran : env.addedRanges table entry = some added) : added = [] := by
  by_contra any
  obtain ⟨call, named, site, outside, inside⟩ := addedRanges_inv ran any
  have declared : filePath table entry.attributes.declFile = entry.declaringFile table :=
    declaringFile_own (isSome_of_filePath named)
  exact other ⟨call, declared ▸ named, site, declared ▸ outside, inside⟩

end Reading

end Mcoz.Inspect
