/-
Debugging entries, and what `process_inlines` adds for them.

An `Entry` is a debugging entry with what its references lead to, as the DWARF library parses it; `Dies`
is a list of siblings with their children. `process_inlines` also reads the name and the declaring line
of an entry, and uses neither. A value of the library's type `constant`, a constant of unknown sign,
is none of the three types that it tests for: the variable then keeps what was in its place (`Env.uninit`).
-/

import Mcoz.Inspect.Ranges
import Mcoz.Inspect.Scope

set_option autoImplicit false

namespace Mcoz.Inspect

open Word

/-! ### Entries -/

/-- A value of `low_pc` or `high_pc`, by its type. -/
inductive Value
  | address (value : UInt64)
  | uconstant (value : UInt64)
  | sconstant (value : Int64)
  | constant (value : UInt64)
deriving DecidableEq

/--
The attributes of an entry that `process_inlines` uses. An entry of another unit than the one that is walked, to which
a reference leads, has the files of its own unit in `otherTable`.
-/
structure Attributes where
  otherTable : Option (Option (ℕ → Bytes)) := none
  declFile : Option ℕ := none
  callFile : Option ℕ := none
  callLine : Option ℕ := none
  ranges : Option (List Interval) := none
  lowPc : Option Value := none
  highPc : Option Value := none

/-- An entry: whether its tag is `inlined_subroutine`, its attributes, and the entries of its
`abstract_origin` and its `specification`; an entry that is missing is `invalid`. -/
inductive Entry
  | invalid
  | entry (inlined : Bool) (attributes : Attributes) (abstractOrigin specification : Entry)

/-- `find_attribute`. -/
def Entry.findAttribute {α : Type} (attr : Attributes → Option α) : Entry → Option α
  | .invalid => none
  | .entry _ attributes abstractOrigin specification =>
      (attr attributes).or
        ((abstractOrigin.findAttribute attr).or (specification.findAttribute attr))

/-- Entries that are siblings, each with its children. -/
inductive Dies
  | none
  | die (entry : Entry) (children next : Dies)

/-! ### Ranges of inlined calls -/

/-- What the walk over a unit gets from its surroundings: the working directory, `source_scope`, the load
address, and what the variables hold at an entry if nothing was assigned to them. -/
structure Env where
  cwd : Bytes
  sourceScope : List Bytes
  loadAddress : UInt64
  uninit : Entry → UInt64 := fun _ => 0

/-- `table.get_file(index)->path`, or the empty text without an index or a table. -/
def filePath (table : Option (ℕ → Bytes)) (index : Option ℕ) : Bytes :=
  match table, index with
  | some path, some index => path index
  | _, _ => []

/-- The variable that a value of `low_pc` or `high_pc` of an entry is read into. -/
def Env.readPc (env : Env) (entry : Entry) : Value → UInt64
  | .address value => value
  | .uconstant value => value
  | .sconstant value => value.toUInt64
  | .constant _ => env.uninit entry

/-- The ranges of an inlined call: those of its range list, or the one from its `low_pc` to its
`high_pc`. -/
def Env.callRanges (env : Env) (entry : Entry) : List Interval :=
  match entry.findAttribute Attributes.ranges with
  | some ranges => ranges
  | none =>
      match entry.findAttribute Attributes.lowPc, entry.findAttribute Attributes.highPc with
      | some low, some high => [⟨env.readPc entry low, env.readPc entry high⟩]
      | _, _ => []

/-- What `process_inlines` adds for one entry; `none` if a path aborts the program. -/
def Env.addedRanges (env : Env) (table : Option (ℕ → Bytes)) : Entry → Option RangeMap
  | .invalid => some []
  | .entry inlined attributes abstractOrigin specification =>
      if inlined = false then some []
      else
        let declFile := filePath table attributes.declFile
        let callFile := filePath table attributes.callFile
        let callLine := attributes.callLine.getD 0
        if declFile = [] ∨ callFile = [] then some []
        else do
          let declared ← inScope env.cwd env.sourceScope declFile
          if declared then
            return []
          let called ← inScope env.cwd env.sourceScope callFile
          if !called then
            return []
          return (env.callRanges (.entry inlined attributes abstractOrigin specification)).map
            fun range => (range.shift env.loadAddress, ⟨callFile, callLine⟩)

/-- `process_inlines`, over entries that are siblings. -/
def Env.processInlines (env : Env) (table : Option (ℕ → Bytes)) : Dies → RangeMap → Option RangeMap
  | .none, ranges => some ranges
  | .die .invalid _ next, ranges => env.processInlines table next ranges
  | .die (.entry inlined attributes abstractOrigin specification) children next, ranges => do
      let added ← env.addedRanges table (.entry inlined attributes abstractOrigin specification)
      let below ← env.processInlines table children (added.foldl addEntry ranges)
      env.processInlines table next below

/-- Entries of which none is an inlined call. -/
def Dies.Plain : Dies → Prop
  | .none => True
  | .die .invalid _ next => next.Plain
  | .die (.entry inlined _ _ _) children next => inlined = false ∧ children.Plain ∧ next.Plain

/-- Without an inlined call nothing is added. -/
theorem processInlines_plain {env : Env} {table : Option (ℕ → Bytes)} {dies : Dies}
    (plain : dies.Plain) (ranges : RangeMap) : env.processInlines table dies ranges = some ranges := by
  induction dies generalizing ranges with
  | none => rfl
  | die entry children next below beside =>
      cases entry with
      | invalid => exact beside plain ranges
      | entry inlined attributes abstractOrigin specification =>
          obtain ⟨other, inner, outer⟩ := plain
          have added : env.addedRanges table (.entry inlined attributes abstractOrigin specification) =
              some [] := if_pos other
          rw [Env.processInlines, added]
          show (env.processInlines table children ranges).bind (env.processInlines table next) = _
          rw [below inner]
          exact beside outer ranges

end Mcoz.Inspect
