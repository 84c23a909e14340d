/-
The atomic accesses of `static_map`.

`insert`, `find` and `remove` go from entry to entry with one atomic access each: `insert` with a
`compare_exchange` of the tag (taken not to fail spuriously), the others with a load, and `remove` ends
with a store of the zero tag. Each thread has its own key, and the accesses of different threads
interleave.

* `call_alone` — an operation whose accesses nothing interrupts is the operation of `StaticMap`.
* `Refines` — what holds between any two accesses: the nonzero tags are the keys that were inserted and
  not removed since, and a search has passed no entry with its key. Only the operation at a key gives
  or clears the key's tag (`access_frame`), so the others leave both as they are.
* `threadTable_partialMap` — the table is a partial map from the live keys to entries.
-/

import Mcoz.Lib.Machine
import Mcoz.Profiler.ThreadTable

set_option autoImplicit false

namespace Mcoz.Profiler

open Machine

/-- The operations of `static_map`. -/
inductive TableOperation
  | insert
  | find
  | remove
deriving DecidableEq

/-- The return of an operation. -/
inductive TableEvent (size : ℕ)
  | inserted (key : Int32) (slot : Option (Fin size))
  | found (key : Int32) (slot : Option (Fin size))
  | removed (key : Int32)
deriving DecidableEq

/-- Where the operation at a key is: none is in progress, the loop is at an offset, or `remove` is to
clear the entry that it found. -/
inductive ProbePhase (size : ℕ)
  | idle
  | probing (operation : TableOperation) (offset : ℕ)
  | clearing (slot : Fin size)
deriving DecidableEq

/-- The tag that the probes of an operation look for. -/
def TableOperation.wanted (key : Int32) : TableOperation → Int32
  | .insert => 0
  | .find => key
  | .remove => key

/-- The return of an operation that found a slot, or none. -/
def TableOperation.returned {size : ℕ} (key : Int32) (slot : Option (Fin size)) :
    TableOperation → TableEvent size
  | .insert => .inserted key slot
  | .find => .found key slot
  | .remove => .removed key

/-- An atomic access: the tags after it, where the operation is then, and its return. -/
structure Access (size : ℕ) where
  tags : Fin size → Int32
  phase : ProbePhase size
  returned : List (TableEvent size)

/-- The table and the operation at each key. -/
structure Probing (V : Type) (size : ℕ) where
  map : StaticMap V size
  phase : Int32 → ProbePhase size

/-- The steps: a thread calls an operation at its key, or the operation at a key goes on. -/
inductive ProbeAction
  | call (operation : TableOperation) (key : Int32)
  | access (key : Int32)
deriving DecidableEq

namespace Probing

open StaticMap

variable {V : Type} {size : ℕ}

/-! ### The map of the live keys -/

/-- What a return says about the live keys. -/
def record (live : Int32 → Option (Fin size)) : TableEvent size → Int32 → Option (Fin size)
  | .inserted key (some slot) => Function.update live key (some slot)
  | .inserted _ none => live
  | .found _ _ => live
  | .removed key => Function.update live key none

/-- The keys inserted and not removed since, with their slots. -/
def live (events : List (TableEvent size)) : Int32 → Option (Fin size) :=
  events.foldl record fun _ => none

/-- A thread has a nonzero key, and inserts it only while it is absent. -/
def Admissible (events : List (TableEvent size)) : ProbeAction → Prop
  | .call .insert key => key ≠ 0 ∧ live events key = none
  | .call .find key => key ≠ 0
  | .call .remove key => key ≠ 0
  | .access _ => True

theorem live_append (events new : List (TableEvent size)) :
    live (events ++ new) = new.foldl record (live events) :=
  List.foldl_append

theorem record_other {key other : Int32} (live : Int32 → Option (Fin size))
    (slot : Option (Fin size)) (operation : TableOperation) (apart : other ≠ key) :
    record live (operation.returned key slot) other = live other := by
  cases operation <;> cases slot <;> simp [TableOperation.returned, record, apart]

/-! ### The accesses -/

variable [NeZero size]

/-- The body of the loop at an entry with the wanted tag. -/
def hit (tags : Fin size → Int32) (key : Int32) (slot : Fin size) : TableOperation → Access size
  | .insert => ⟨Function.update tags slot key, .idle, [.inserted key (some slot)]⟩
  | .find => ⟨tags, .idle, [.found key (some slot)]⟩
  | .remove => ⟨tags, .clearing slot, []⟩

/-- The next access of the operation at a key; behind the last entry it returns without one. -/
def access (tags : Fin size → Int32) (key : Int32) : ProbePhase size → Access size
  | .idle => ⟨tags, .idle, []⟩
  | .probing operation offset =>
      if offset < size then
        if tags (index size key offset) = operation.wanted key then
          hit tags key (index size key offset) operation
        else ⟨tags, .probing operation (offset + 1), []⟩
      else ⟨tags, .idle, [operation.returned key none]⟩
  | .clearing slot => ⟨Function.update tags slot 0, .idle, [.removed key]⟩

/-- The state after an access of the operation at a key. -/
def accessed (state : Probing V size) (key : Int32) (after : Access size) : Probing V size where
  map := { state.map with tags := after.tags }
  phase := Function.update state.phase key after.phase

/-- One step. -/
def step (state : Probing V size) : ProbeAction → Option (Probing V size)
  | .call operation key =>
      if state.phase key = .idle then
        some { state with phase := Function.update state.phase key (.probing operation 0) }
      else none
  | .access key =>
      if state.phase key = .idle then none
      else some (state.accessed key (access state.map.tags key (state.phase key)))

/-- The operations that return in a step. -/
def observe (state : Probing V size) : ProbeAction → List (TableEvent size)
  | .call _ _ => []
  | .access key => (access state.map.tags key (state.phase key)).returned

/-- The empty table, and no operation in progress. -/
def empty (values : Fin size → V) : Probing V size where
  map := ⟨fun _ => 0, values⟩
  phase := fun _ => .idle

/-- The returns of a run from the empty table. -/
def history (values : Fin size → V) (actions : List ProbeAction) : List (TableEvent size) :=
  trace step observe (empty values) actions

/-! ### Uninterrupted operations -/

/-- The tags after an operation whose probes found a slot, or none. -/
def settle (tags : Fin size → Int32) (key : Int32) (slot : Option (Fin size)) :
    TableOperation → Fin size → Int32
  | .insert => slot.elim tags fun slot => Function.update tags slot key
  | .find => tags
  | .remove => slot.elim tags fun slot => Function.update tags slot 0

/-- The operations of `StaticMap`. -/
def apply (map : StaticMap V size) (key : Int32) : TableOperation → StaticMap V size
  | .insert => (map.insert key).elim map Prod.fst
  | .find => map
  | .remove => map.remove key

theorem settle_probe (map : StaticMap V size) (key : Int32) (operation : TableOperation) :
    { map with tags := settle map.tags key (map.probe key (operation.wanted key) size 0) operation } =
      apply map key operation := by
  cases operation with
  | find => rfl
  | insert =>
      show _ = ((map.insertSlot key).map _).elim map Prod.fst
      show { map with tags := (map.insertSlot key).elim _ _ } = _
      cases map.insertSlot key <;> rfl
  | remove =>
      show { map with tags := (map.find key).elim _ _ } = map.remove key
      unfold StaticMap.remove
      cases map.find key <;> rfl

/-- Some accesses of the operation at a key, with no others between them: where they lead and what
returns. -/
def Uninterrupted (state : Probing V size) (key : Int32) (probes : ℕ) (final : Probing V size)
    (events : List (TableEvent size)) : Prop :=
  run step state (List.replicate probes (.access key)) = some final ∧
    trace step observe state (List.replicate probes (.access key)) = events

section Uninterrupted

variable {state : Probing V size} {key : Int32}

theorem access_hit {operation : TableOperation} {offset : ℕ} {tags : Fin size → Int32}
    (inside : offset < size) (here : tags (index size key offset) = operation.wanted key) :
    access tags key (.probing operation offset) =
      hit tags key (index size key offset) operation := by
  rw [access, if_pos inside, if_pos here]

theorem access_miss {operation : TableOperation} {offset : ℕ} {tags : Fin size → Int32}
    (inside : offset < size) (other : tags (index size key offset) ≠ operation.wanted key) :
    access tags key (.probing operation offset) = ⟨tags, .probing operation (offset + 1), []⟩ := by
  rw [access, if_pos inside, if_neg other]

theorem access_behind {operation : TableOperation} {offset : ℕ} {tags : Fin size → Int32}
    (behind : ¬ offset < size) : access tags key (.probing operation offset) =
      ⟨tags, .idle, [operation.returned key none]⟩ := by
  rw [access, if_neg behind]

theorem uninterrupted_nil : Uninterrupted state key 0 state [] :=
  ⟨rfl, rfl⟩

/-- One access before the others. -/
theorem Uninterrupted.cons {phase : ProbePhase size} {after : Access size} {final : Probing V size}
    {probes : ℕ} {events : List (TableEvent size)} (there : state.phase key = phase)
    (busy : phase ≠ .idle) (goes : access state.map.tags key phase = after)
    (later : Uninterrupted (state.accessed key after) key probes final events) :
    Uninterrupted state key (probes + 1) final (after.returned ++ events) := by
  subst there goes
  have moved : step state (.access key) =
      some (state.accessed key (access state.map.tags key (state.phase key))) := if_neg busy
  constructor
  · rw [List.replicate_succ, run_cons_of moved, later.1]
  · simp only [List.replicate_succ, trace, moved, Option.map_some, Option.getD_some, later.2, observe]

/-- A single access. -/
theorem uninterrupted_one {phase : ProbePhase size} {after : Access size}
    (there : state.phase key = phase) (busy : phase ≠ .idle)
    (goes : access state.map.tags key phase = after) :
    Uninterrupted state key 1 (state.accessed key after) after.returned := by
  have one := Uninterrupted.cons there busy goes uninterrupted_nil
  rwa [List.append_nil] at one

/-- The loop from an offset on. -/
theorem uninterrupted_probing (operation : TableOperation) :
    ∀ (remaining offset : ℕ) (state : Probing V size), offset + remaining = size →
      state.phase key = .probing operation offset → ∃ probes, Uninterrupted state key probes
        (state.accessed key ⟨settle state.map.tags key
          (state.map.probe key (operation.wanted key) remaining offset) operation, .idle, []⟩)
        [operation.returned key (state.map.probe key (operation.wanted key) remaining offset)]
  | 0, offset, state, shape, there => by
      have behind := uninterrupted_one there (by simp) (access_behind (by omega))
      refine ⟨1, ?_⟩
      cases operation <;> exact behind
  | remaining + 1, offset, state, shape, there => by
      have inside : offset < size := by omega
      by_cases here : state.map.tags (index size key offset) = operation.wanted key
      · have found : state.map.probe key (operation.wanted key) (remaining + 1) offset =
            some (index size key offset) := if_pos here
        rw [found]
        have goes := access_hit inside here
        cases operation with
        | insert | find => exact ⟨1, uninterrupted_one there (by simp) goes⟩
        | remove =>
            refine ⟨2, Uninterrupted.cons there (by simp) goes ?_⟩
            have clearing : (state.accessed key
                (hit state.map.tags key (index size key offset) .remove)).phase key =
              .clearing (index size key offset) := Function.update_self ..
            have cleared := uninterrupted_one clearing (by simp) rfl
            simpa [accessed, hit, access, settle, TableOperation.returned] using cleared
      · have missed : state.map.probe key (operation.wanted key) (remaining + 1) offset =
            state.map.probe key (operation.wanted key) remaining (offset + 1) := if_neg here
        rw [missed]
        obtain ⟨probes, later⟩ := uninterrupted_probing operation remaining (offset + 1)
          (state.accessed key ⟨state.map.tags, .probing operation (offset + 1), []⟩) (by omega)
          (Function.update_self ..)
        refine ⟨probes + 1, Uninterrupted.cons there (by simp) (access_miss inside here) ?_⟩
        simpa [accessed] using later

/-- **An operation alone.** From its call on, a thread that nothing interrupts does what the function
of `StaticMap` does, and returns its result. -/
theorem call_alone (operation : TableOperation) (idle : state.phase key = .idle) :
    ∃ probes,
      run step state (.call operation key :: List.replicate probes (.access key)) =
          some { state with map := apply state.map key operation } ∧
        trace step observe state (.call operation key :: List.replicate probes (.access key)) =
          [operation.returned key (state.map.probe key (operation.wanted key) size 0)] := by
  have called : step state (.call operation key) =
      some { state with phase := Function.update state.phase key (.probing operation 0) } :=
    if_pos idle
  obtain ⟨probes, ran, seen⟩ := uninterrupted_probing operation size 0
    { state with phase := Function.update state.phase key (.probing operation 0) } (by simp)
    (Function.update_self ..)
  refine ⟨probes, ?_, ?_⟩
  · rw [run_cons_of called, ran, ← settle_probe]
    simp only [accessed, Function.update_idem, ← idle, Function.update_eq_self]
  · simp only [trace, called, Option.map_some, Option.getD_some, seen]
    rfl

/-- The result of an operation alone, whatever the number of its accesses. -/
theorem returned_alone {operation : TableOperation} {probes : ℕ} {event : TableEvent size}
    (seen : trace step observe state (.call operation key :: List.replicate probes (.access key)) =
      [event]) :
    event = operation.returned key (state.map.probe key (operation.wanted key) size 0) := by
  by_cases idle : state.phase key = .idle
  · obtain ⟨enough, -, whole⟩ := call_alone operation idle
    have within : ∀ fewer more, fewer ≤ more →
        ProbeAction.call operation key :: List.replicate fewer (.access key) <+:
          .call operation key :: List.replicate more (.access key) := by
      intro fewer more le
      rw [List.prefix_cons_inj, List.prefix_replicate_iff]
      simp [le]
    rcases Nat.le_total probes enough with le | le
    · have agree := trace_prefix step observe state (within probes enough le)
      rw [seen, whole] at agree
      simpa using agree
    · have agree := trace_prefix step observe state (within enough probes le)
      rw [seen, whole] at agree
      simpa [eq_comm] using agree
  · have refused : step state (.call operation key) = none := if_neg idle
    simp [trace, refused, observe] at seen

end Uninterrupted

/-! ### Any interleaving -/

/-- The live keys are the nonzero tags. -/
def Placed (live : Int32 → Option (Fin size)) (tags : Fin size → Int32) : Prop :=
  ∀ key slot, live key = some slot ↔ key ≠ 0 ∧ tags slot = key

/-- What the operation at a key relies on between two of its accesses. -/
def Sound (tags : Fin size → Int32) (key : Int32) : ProbePhase size → Prop
  | .idle => True
  | .probing .insert _ => key ≠ 0 ∧ ∀ slot, tags slot ≠ key
  | .probing .find offset | .probing .remove offset =>
      key ≠ 0 ∧ ∀ passed, passed < offset → tags (index size key passed) ≠ key
  | .clearing slot => key ≠ 0 ∧ tags slot = key

/-- The table between two accesses. -/
structure Refines (events : List (TableEvent size)) (state : Probing V size) : Prop where
  placed : Placed (live events) state.map.tags
  sound : ∀ key, Sound state.map.tags key (state.phase key)

section Refines

variable {tags : Fin size → Int32} {live : Int32 → Option (Fin size)} {key other : Int32}
  {phase : ProbePhase size}

/-- An operation gives and clears the tag of its own key only. -/
theorem access_frame (sound : Sound tags key phase) (nonzero : other ≠ 0) (apart : other ≠ key)
    (slot : Fin size) : (access tags key phase).tags slot = other ↔ tags slot = other := by
  have written : ∀ place written, (tags place = 0 ∨ tags place = key) →
      (written = 0 ∨ written = key) →
      (Function.update tags place written slot = other ↔ tags slot = other) := by
    intro place written before after
    by_cases same : slot = place
    · rw [same, Function.update_self]
      grind
    · rw [Function.update_of_ne same]
  fun_cases access tags key phase with
  | case2 operation offset inside here =>
      cases operation with
      | insert => exact written _ key (Or.inl here) (Or.inr rfl)
      | find | remove => exact Iff.rfl
  | case5 place => exact written place 0 (Or.inr sound.2) (Or.inl rfl)
  | _ => exact Iff.rfl

/-- What the operation at a key relies on speaks of the entries with this tag. -/
theorem Sound.congr {after : Fin size → Int32} (sound : Sound tags key phase)
    (same : key ≠ 0 → ∀ slot, after slot = key ↔ tags slot = key) : Sound after key phase := by
  unfold Sound at *
  split
  · trivial
  · exact ⟨sound.1, fun slot held => sound.2 slot ((same sound.1 slot).mp held)⟩
  · exact ⟨sound.1, fun passed below held => sound.2 passed below ((same sound.1 _).mp held)⟩
  · exact ⟨sound.1, fun passed below held => sound.2 passed below ((same sound.1 _).mp held)⟩
  · exact ⟨sound.1, (same sound.1 _).mpr sound.2⟩

/-- At most one operation returns, at the key of the access. -/
theorem access_returned (tags : Fin size → Int32) (key : Int32) (phase : ProbePhase size) :
    (access tags key phase).returned = [] ∨
      ∃ operation slot, (access tags key phase).returned = [TableOperation.returned key slot operation] := by
  fun_cases access tags key phase with
  | case1 | case3 => exact Or.inl rfl
  | case2 operation offset inside here =>
      cases operation with
      | insert => exact Or.inr ⟨.insert, some _, rfl⟩
      | find => exact Or.inr ⟨.find, some _, rfl⟩
      | remove => exact Or.inl rfl
  | case4 operation offset behind => exact Or.inr ⟨operation, none, rfl⟩
  | case5 place => exact Or.inr ⟨.remove, none, rfl⟩

/-- A search that has passed every entry without the tag has seen that no entry has it. -/
theorem absent_of_passed {offset : ℕ} (behind : ¬ offset < size)
    (passed : ∀ passed, passed < offset → tags (index size key passed) ≠ key) (slot : Fin size) :
    tags slot ≠ key := by
  obtain ⟨place, below, rfl⟩ := index_surjective key slot
  exact passed place (by omega)

/-- The operation's own key stays placed. -/
theorem access_own (placed : Placed live tags) (sound : Sound tags key phase) (slot : Fin size) :
    (access tags key phase).returned.foldl record live key = some slot ↔
      key ≠ 0 ∧ (access tags key phase).tags slot = key := by
  fun_cases access tags key phase with
  | case1 | case3 => exact placed key slot
  | case2 operation offset inside here =>
      cases operation with
      | find | remove => exact placed key slot
      | insert =>
          show Function.update live key (some (index size key offset)) key = some slot ↔
            key ≠ 0 ∧ Function.update tags (index size key offset) key slot = key
          rw [Function.update_self, Option.some.injEq]
          by_cases same : slot = index size key offset
          · simp [same, sound.1]
          · simp [Function.update_of_ne same, sound.2 slot, Ne.symm same]
  | case4 operation offset behind =>
      cases operation with
      | insert | find => exact placed key slot
      | remove =>
          show Function.update live key none key = some slot ↔ key ≠ 0 ∧ tags slot = key
          simp [absent_of_passed behind sound.2 slot]
  | case5 place =>
      show Function.update live key none key = some slot ↔
        key ≠ 0 ∧ Function.update tags place 0 slot = key
      rw [Function.update_self]
      by_cases same : slot = place
      · simp [same, eq_comm]
      · have apart : tags slot ≠ key := by
          intro held
          have here := (placed key slot).mpr ⟨sound.1, held⟩
          rw [(placed key place).mpr sound] at here
          exact same (Option.some.inj here).symm
        simp [Function.update_of_ne same, apart]

/-- The live keys are the nonzero tags after an access, too. -/
theorem Placed.access (placed : Placed live tags) (sound : Sound tags key phase) :
    Placed ((access tags key phase).returned.foldl record live) (access tags key phase).tags := by
  intro other slot
  by_cases same : other = key
  · rw [same]
    exact access_own placed sound slot
  · have kept : (Probing.access tags key phase).returned.foldl record live other = live other := by
      rcases access_returned tags key phase with unchanged | ⟨operation, found, one⟩
      · rw [unchanged, List.foldl_nil]
      · rw [one, List.foldl_cons, List.foldl_nil, record_other live found operation same]
    rw [kept, placed other slot]
    refine and_congr_right fun nonzero => ?_
    exact (access_frame sound nonzero same slot).symm

/-- The operation goes on with what it relies on. -/
theorem Sound.access (sound : Sound tags key phase) :
    Sound (access tags key phase).tags key (access tags key phase).phase := by
  fun_cases Probing.access tags key phase with
  | case1 | case4 | case5 => trivial
  | case2 operation offset inside here =>
      cases operation with
      | insert | find => trivial
      | remove => exact ⟨sound.1, here⟩
  | case3 operation offset inside other =>
      cases operation with
      | insert => exact sound
      | find | remove =>
          refine ⟨sound.1, fun passed below => ?_⟩
          rcases Nat.lt_succ_iff_lt_or_eq.mp below with before | rfl
          · exact sound.2 passed before
          · exact other

/-- A search returns where its key is. -/
theorem access_found {sought : Int32} {slot : Option (Fin size)} (placed : Placed live tags)
    (sound : Sound tags key phase)
    (seen : (access tags key phase).returned = [.found sought slot]) : slot = live sought := by
  revert seen
  fun_cases Probing.access tags key phase with
  | case1 | case3 | case5 => simp
  | case2 operation offset inside here =>
      cases operation with
      | insert | remove => simp [hit]
      | find =>
          intro seen
          obtain ⟨rfl, rfl⟩ := TableEvent.found.inj (List.cons.inj seen).1
          exact ((placed key _).mpr ⟨sound.1, here⟩).symm
  | case4 operation offset behind =>
      cases operation with
      | insert | remove => simp [TableOperation.returned]
      | find =>
          intro seen
          obtain ⟨rfl, rfl⟩ := TableEvent.found.inj (List.cons.inj seen).1
          refine (Option.eq_none_iff_forall_ne_some.mpr fun place held => ?_).symm
          exact absent_of_passed behind sound.2 place ((placed key place).mp held).2

theorem refines_empty (values : Fin size → V) : Refines [] (empty values) where
  placed := fun key slot => by simp [Probing.live, empty, eq_comm]
  sound := fun _ => trivial

/-- One step of any thread. -/
theorem Refines.step {events : List (TableEvent size)} {state next : Probing V size}
    {action : ProbeAction} (refines : Refines events state) (admissible : Admissible events action)
    (moved : step state action = some next) :
    Refines (events ++ observe state action) next := by
  cases action with
  | call operation key =>
      obtain ⟨-, after⟩ := Option.ite_none_right_eq_some.mp moved
      cases after
      rw [observe, List.append_nil]
      refine ⟨refines.placed, fun other => ?_⟩
      by_cases same : other = key
      · subst same
        simp only [Function.update_self]
        cases operation with
        | insert =>
            refine ⟨admissible.1, fun slot held => ?_⟩
            have present := (refines.placed other slot).mpr ⟨admissible.1, held⟩
            rw [admissible.2] at present
            cases present
        | find | remove => exact ⟨admissible, fun _ below => absurd below (Nat.not_lt_zero _)⟩
      · simp only [Function.update_of_ne same]
        exact refines.sound other
  | access key =>
      obtain ⟨-, after⟩ := Option.ite_none_left_eq_some.mp moved
      cases after
      have own := refines.sound key
      refine ⟨?_, fun other => ?_⟩
      · rw [live_append]
        exact refines.placed.access own
      · by_cases same : other = key
        · subst same
          simp only [accessed, Function.update_self]
          exact own.access
        · simp only [accessed, Function.update_of_ne same]
          exact (refines.sound other).congr fun nonzero => access_frame own nonzero same

end Refines

/-- What the returns of a run say: a search finds its key's slot, and no slot has two live keys. -/
structure Faithful (events : List (TableEvent size)) : Prop where
  found : ∀ before key slot, before ++ [.found key slot] <+: events → slot = live before key
  unshared : ∀ before, before <+: events → ∀ key other slot, live before key = some slot →
    live before other = some slot → key = other

/-- No two live keys have the same slot. -/
theorem Refines.unshared {events : List (TableEvent size)} {state : Probing V size}
    (refines : Refines events state) {key other : Int32} {slot : Fin size}
    (first : live events key = some slot) (second : live events other = some slot) : key = other :=
  ((refines.placed key slot).mp first).2.symm.trans ((refines.placed other slot).mp second).2

/-- The returns of one more step. -/
theorem Faithful.step {events : List (TableEvent size)} {state next : Probing V size}
    {action : ProbeAction} (faithful : Faithful events) (refines : Refines events state)
    (after : Refines (events ++ observe state action) next) :
    Faithful (events ++ observe state action) := by
  cases action with
  | call operation key =>
      rw [observe, List.append_nil]
      exact faithful
  | access key =>
      have sound := refines.sound key
      rw [observe] at after ⊢
      rcases access_returned state.map.tags key (state.phase key) with silent | ⟨operation, slot, one⟩
      · rw [silent, List.append_nil]
        exact faithful
      · refine ⟨fun before sought found within => ?_, fun before within => ?_⟩
        · rw [one, List.prefix_concat_iff] at within
          rcases within with last | earlier
          · obtain ⟨rfl, same⟩ := List.append_inj' last rfl
            exact access_found refines.placed sound (one.trans same.symm)
          · exact faithful.found before sought found earlier
        · rw [one] at within after
          rcases List.prefix_concat_iff.mp within with rfl | earlier
          · exact fun first second slot => after.unshared
          · exact faithful.unshared before earlier

/-! ### Progress -/

/-- The accesses that an operation needs at most. -/
def remaining : ProbePhase size → ℕ
  | .idle => 0
  | .probing _ offset => size - offset + 2
  | .clearing _ => 1

theorem access_remaining (tags : Fin size → Int32) (key : Int32) {phase : ProbePhase size}
    (busy : phase ≠ .idle) : remaining (access tags key phase).phase < remaining phase := by
  fun_cases access tags key phase with
  | case1 => exact absurd rfl busy
  | case2 operation offset inside here => cases operation <;> simp [hit, remaining]
  | case3 operation offset inside other =>
      simp only [remaining]
      omega
  | case4 operation offset behind => simp [remaining]
  | case5 place => simp [remaining]

/-- A thread that calls no other operation makes no more accesses than its operation needs, whatever
the other threads do. -/
theorem accesses_le (key : Int32) {actions : List ProbeAction} {state final : Probing V size}
    (pending : ∀ operation, .call operation key ∉ actions)
    (ran : run step state actions = some final) :
    actions.count (.access key) ≤ remaining (state.phase key) := by
  induction actions generalizing state with
  | nil => exact Nat.zero_le _
  | cons action rest ih =>
      obtain ⟨next, moved, later⟩ := run_cons_iff.mp ran
      have onwards := ih (fun operation member =>
        pending operation (List.mem_cons_of_mem _ member)) later
      cases action with
      | call operation other =>
          obtain ⟨-, after⟩ := Option.ite_none_right_eq_some.mp moved
          cases after
          have apart : key ≠ other := by
            rintro rfl
            exact pending operation List.mem_cons_self
          simpa [Function.update_of_ne apart] using onwards
      | access other =>
          obtain ⟨busy, after⟩ := Option.ite_none_left_eq_some.mp moved
          cases after
          by_cases same : other = key
          · subst same
            have lower := access_remaining state.map.tags other busy
            simp only [accessed, Function.update_self] at onwards
            rw [List.count_cons_self]
            omega
          · simp only [accessed, Function.update_of_ne (Ne.symm same)] at onwards
            simpa [same] using onwards

/-! ### The thread table -/

/-- What the table is at each point of a run, and what the returns up to there were. -/
theorem refines_faithful {values : Fin size → V} {actions : List ProbeAction}
    {final : Probing V size}
    (admissible : Guarded step (fun past _ action => Admissible (history values past) action)
      (empty values) actions)
    (ran : run step (empty values) actions = some final) :
    Refines (history values actions) final ∧ Faithful (history values actions) := by
  refine invariant_guarded (fun past state => Refines (history values past) state ∧
    Faithful (history values past)) ⟨refines_empty values, ?_, ?_⟩ ?_ admissible ran
  · simp [history]
  · intro before within key other slot held
    rw [List.prefix_nil.mp within] at held
    cases held
  · rintro past state action next before ⟨refines, faithful⟩ admits moved
    have after := refines.step admits moved
    unfold history at *
    rw [trace_concat before]
    exact ⟨after, faithful.step refines after⟩

/-- An insertion alone fails exactly if every entry has a live key. -/
theorem insertAlone_none_iff {events : List (TableEvent size)} {state : Probing V size}
    (refines : Refines events state) {key : Int32} {probes : ℕ} {slot : Option (Fin size)}
    (seen : trace step observe state (.call .insert key :: List.replicate probes (.access key)) =
      [.inserted key slot]) :
    slot = none ↔ ∀ taken, ∃ other, live events other = some taken := by
  obtain ⟨-, rfl⟩ := TableEvent.inserted.inj (returned_alone seen)
  rw [TableOperation.wanted, probe_round_none_iff]
  refine forall_congr' fun taken => ?_
  constructor
  · intro nonzero
    exact ⟨_, (refines.placed _ taken).mpr ⟨nonzero, rfl⟩⟩
  · rintro ⟨other, held⟩ free
    obtain ⟨nonzero, tagged⟩ := (refines.placed other taken).mp held
    exact nonzero (tagged.symm.trans free)

/-- **The thread table is a partial map.** Whatever the interleaving, as long as threads have nonzero
keys and insert absent ones: every search returns the slot of its key's insertion if the key was not
removed since, and null otherwise; two live keys have two slots; every operation returns after at most
4098 accesses; and an insertion that nothing interrupts returns, null exactly if all 4096 entries
have live keys. -/
theorem threadTable_partialMap {V : Type} (values : Fin 4096 → V) {actions : List ProbeAction}
    {final : Probing V 4096}
    (admissible : Guarded step (fun past _ action => Admissible (history values past) action)
      (empty values) actions)
    (ran : run step (empty values) actions = some final) :
    Faithful (history values actions) ∧
      (∀ operation key rest later, run step final (.call operation key :: rest) = some later →
        (∀ other, .call other key ∉ rest) → rest.count (.access key) ≤ 4098) ∧
      ∀ key, final.phase key = .idle →
        (∃ probes slot, trace step observe final
          (.call .insert key :: List.replicate probes (.access key)) = [.inserted key slot]) ∧
        ∀ probes slot, trace step observe final
          (.call .insert key :: List.replicate probes (.access key)) = [.inserted key slot] →
          (slot = none ↔ ∀ taken, ∃ other, live (history values actions) other = some taken) := by
  obtain ⟨refines, faithful⟩ := refines_faithful admissible ran
  refine ⟨faithful, fun operation key rest later called pending => ?_, fun key idle => ⟨?_, ?_⟩⟩
  · obtain ⟨next, moved, onwards⟩ := run_cons_iff.mp called
    obtain ⟨-, after⟩ := Option.ite_none_right_eq_some.mp moved
    cases after
    have bound := accesses_le key pending onwards
    simpa [remaining] using bound
  · obtain ⟨probes, -, seen⟩ := call_alone .insert idle
    exact ⟨probes, _, seen⟩
  · exact fun probes slot seen => insertAlone_none_iff refines seen

/-- Two keys of one bucket, whose insertions overlap. -/
def overlapping : List ProbeAction :=
  [.call .insert 1, .call .insert 4097, .access 1, .access 4097, .access 4097, .call .find 4097,
    .call .remove 1, .access 4097, .access 1, .access 1, .access 4097]

theorem threadTable_partialMap_sample :
    Guarded step (fun past _ action => Admissible (history (fun _ : Fin 4096 => ()) past) action)
        (empty fun _ : Fin 4096 => ()) overlapping ∧
      Faithful (history (fun _ : Fin 4096 => ()) overlapping) ∧
      history (fun _ : Fin 4096 => ()) overlapping =
        [.inserted 1 (some 1), .inserted 4097 (some 2), .removed 1, .found 4097 (some 2)] := by
  have ran : ∃ final, run step (empty fun _ : Fin 4096 => ()) overlapping = some final :=
    Option.isSome_iff_exists.mp (by decide +kernel)
  obtain ⟨final, ran⟩ := ran
  have admissible : Guarded step
      (fun past _ action => Admissible (history (fun _ : Fin 4096 => ()) past) action)
      (empty fun _ : Fin 4096 => ()) overlapping := by
    refine guarded_cons ⟨by decide, rfl⟩ rfl ?_
    refine guarded_cons ⟨by decide, rfl⟩ rfl ?_
    refine guarded_cons trivial rfl ?_
    refine guarded_cons trivial rfl ?_
    refine guarded_cons trivial rfl ?_
    refine guarded_cons (by decide : (4097 : Int32) ≠ 0) rfl ?_
    refine guarded_cons (by decide : (1 : Int32) ≠ 0) rfl ?_
    refine guarded_cons trivial rfl ?_
    refine guarded_cons trivial rfl ?_
    refine guarded_cons trivial rfl ?_
    exact guarded_cons trivial rfl guarded_nil
  exact ⟨admissible, (threadTable_partialMap _ admissible ran).1, by decide +kernel⟩

end Probing

end Mcoz.Profiler
