/-
The life of a profiled thread in the thread table.

`add_thread` puts a thread in a table entry, `catch_up` and `post_block` set `in_use` around their
work on it, and `end_sampling` sets `in_use` and removes the thread. The entry's state object stays
where it is, and nothing sets `in_use` back on the way out: the next thread of the entry starts with
it set, and the handler skips its samples.
-/

import Mcoz.Lib.Machine
import Mcoz.Profiler.StaticMap

set_option autoImplicit false

namespace Mcoz.Profiler

open Machine

/-- `thread_state`, without its sampler and timer. -/
structure ThreadState where
  inUse : Bool := false
  localDelay : ℕ := 0
deriving DecidableEq

/-- Where a thread is: not registered, in the program, or in one of the profiler's functions. -/
inductive ThreadPhase
  | absent
  | running
  | catchUp
  | postBlock
  | endSampling
deriving DecidableEq

/-- The table has entries. -/
instance neZero_entries : NeZero 4096 :=
  ⟨by decide⟩

/-- The thread table and where each thread is. -/
structure Threads where
  states : StaticMap ThreadState 4096
  phase : Int32 → ThreadPhase
  numThreadsRunning : ℕ

/-- The steps of the threads. The local delay that `add_delays` or `post_block` leaves is a choice
of the environment. -/
inductive ThreadStep
  | addThread (tid : Int32) (parentDelay : ℕ)
  | enterCatchUp (tid : Int32)
  | leaveCatchUp (tid : Int32) (localDelay : ℕ)
  | enterPostBlock (tid : Int32)
  | leavePostBlock (tid : Int32) (localDelay : ℕ)
  | enterEndSampling (tid : Int32)
  | removeThread (tid : Int32) (localDelay : ℕ)
  | samplesReady (tid : Int32) (localDelay : ℕ)

/-- `set_in_use`. -/
def ThreadState.setInUse (state : ThreadState) (value : Bool) : ThreadState :=
  { state with inUse := value }

namespace Threads

/-- The empty table: no thread was ever registered. -/
def empty : Threads where
  states := ⟨fun _ => 0, fun _ => {}⟩
  phase := fun _ => .absent
  numThreadsRunning := 0

/-- `get_thread_state` and a change of the state, while the thread moves to another phase. -/
def access (threads : Threads) (tid : Int32) (here there : ThreadPhase)
    (change : ThreadState → ThreadState) : Option Threads :=
  if threads.phase tid = here then
    (threads.states.find tid).map fun slot =>
      { threads with
        states := threads.states.modify slot change
        phase := Function.update threads.phase tid there }
  else none

/-- `add_thread` and the first write of `start_thread`. A full table ends the program. -/
def addThread (threads : Threads) (tid : Int32) (parentDelay : ℕ) : Option Threads :=
  if threads.phase tid = .absent ∧ tid ≠ 0 then
    (threads.states.insert tid).map fun inserted =>
      { states := inserted.1.modify inserted.2 fun state => { state with localDelay := parentDelay }
        phase := Function.update threads.phase tid .running
        numThreadsRunning := threads.numThreadsRunning + 1 }
  else none

/-- The rest of `end_sampling`: `process_samples`, and `remove_thread`. -/
def removeThread (threads : Threads) (tid : Int32) (localDelay : ℕ) : Option Threads :=
  (threads.access tid .endSampling .absent fun state =>
    { state with localDelay := localDelay }).map fun next =>
      { next with
        states := next.states.remove tid
        numThreadsRunning := next.numThreadsRunning - 1 }

/-- `samples_ready`: the handler works on a state that is not in use. -/
def samplesReady (threads : Threads) (tid : Int32) (localDelay : ℕ) : Threads :=
  match threads.states.find tid with
  | none => threads
  | some slot =>
      if (threads.states.values slot).inUse then threads
      else
        { threads with
          states := threads.states.modify slot fun state => { state with localDelay := localDelay } }

/-- One step of a thread. -/
def step (threads : Threads) : ThreadStep → Option Threads
  | .addThread tid parentDelay => threads.addThread tid parentDelay
  | .enterCatchUp tid => threads.access tid .running .catchUp fun state => state.setInUse true
  | .leaveCatchUp tid localDelay => threads.access tid .catchUp .running fun state =>
      { state.setInUse false with localDelay := localDelay }
  | .enterPostBlock tid => threads.access tid .running .postBlock fun state => state.setInUse true
  | .leavePostBlock tid localDelay => threads.access tid .postBlock .running fun state =>
      { state.setInUse false with localDelay := localDelay }
  | .enterEndSampling tid =>
      threads.access tid .running .endSampling fun state => state.setInUse true
  | .removeThread tid localDelay => threads.removeThread tid localDelay
  | .samplesReady tid localDelay => some (threads.samplesReady tid localDelay)

/-- The entry that a step releases. -/
def releases (threads : Threads) : ThreadStep → List (Fin 4096)
  | .removeThread tid _ => (threads.states.find tid).toList
  | _ => []

/-- The handler skips the samples of no thread outside the profiler's functions. -/
def Samplable (threads : Threads) : Prop :=
  ∀ tid, threads.phase tid = .running →
    ∃ slot, threads.states.find tid = some slot ∧ (threads.states.values slot).inUse = false

/-! ### The invariant -/

/-- The tags are the registered threads, a thread in a profiler function is in use, and a free entry
is in use exactly if it was released. -/
structure Inv (released : List (Fin 4096)) (threads : Threads) : Prop where
  registered : ∀ slot, threads.states.tags slot ≠ 0 →
    threads.phase (threads.states.tags slot) ≠ .absent
  unique : ∀ slot other, threads.states.tags slot ≠ 0 →
    threads.states.tags other = threads.states.tags slot → other = slot
  held : ∀ tid, threads.phase tid ≠ .absent → tid ≠ 0 ∧ ∃ slot, threads.states.tags slot = tid
  busy : ∀ slot, threads.states.tags slot ≠ 0 →
    threads.phase (threads.states.tags slot) ≠ .running →
    (threads.states.values slot).inUse = true
  freed : ∀ slot, threads.states.tags slot = 0 →
    ((threads.states.values slot).inUse = true ↔ slot ∈ released)

/-- No entry of a thread outside the profiler's functions is in use. -/
def Idle (threads : Threads) : Prop :=
  ∀ slot, threads.phase (threads.states.tags slot) = .running →
    (threads.states.values slot).inUse = false

section Inv

variable {threads next : Threads} {released : List (Fin 4096)} {action : ThreadStep}

theorem inv_empty : Inv [] empty where
  registered := fun _ nonzero => absurd rfl nonzero
  unique := fun _ _ nonzero => absurd rfl nonzero
  held := fun _ present => absurd rfl present
  busy := fun _ nonzero => absurd rfl nonzero
  freed := fun _ _ => by simp [empty]

theorem Inv.find (inv : Inv released threads) {tid : Int32} {slot : Fin 4096} (nonzero : tid ≠ 0)
    (held : threads.states.tags slot = tid) : threads.states.find tid = some slot := by
  refine StaticMap.find_of_unique held fun other same => ?_
  exact inv.unique slot other (by rw [held]; exact nonzero) (same.trans held.symm)

theorem Inv.samplable_iff (inv : Inv released threads) : Samplable threads ↔ Idle threads := by
  constructor
  · intro samplable slot running
    obtain ⟨other, found, unused⟩ := samplable _ running
    have nonzero := (inv.held (threads.states.tags slot) (by rw [running]; decide)).1
    rw [inv.find nonzero rfl] at found
    cases found
    exact unused
  · intro idle tid running
    obtain ⟨nonzero, slot, held⟩ := inv.held tid (by rw [running]; decide)
    exact ⟨slot, inv.find nonzero held, idle slot (by rw [held]; exact running)⟩

theorem access_iff {tid : Int32} {here there : ThreadPhase} {change : ThreadState → ThreadState} :
    threads.access tid here there change = some next ↔
      threads.phase tid = here ∧ ∃ slot, threads.states.find tid = some slot ∧
        next = { threads with
          states := threads.states.modify slot change
          phase := Function.update threads.phase tid there } := by
  unfold access
  split
  · rename_i same
    simp [same, eq_comm]
  · rename_i other
    simp [other]

/-- A registered thread changes its state and its phase. -/
theorem Inv.access (inv : Inv released threads) {tid : Int32} {here there : ThreadPhase}
    {change : ThreadState → ThreadState}
    (moved : threads.access tid here there change = some next) (live : here ≠ .absent)
    (stays : there ≠ .absent) (busy : there ≠ .running → ∀ state, (change state).inUse = true) :
    Inv released next := by
  obtain ⟨phase, slot, found, rfl⟩ := access_iff.mp moved
  have tagged := StaticMap.find_tag found
  have nonzero := (inv.held tid (by rw [phase]; exact live)).1
  have elsewhere : ∀ other, other ≠ slot → threads.states.tags other ≠ tid := by
    intro other apart same
    exact apart (inv.unique slot other (by rw [tagged]; exact nonzero) (same.trans tagged.symm))
  refine ⟨fun other taken => ?_, inv.unique, fun other present => ?_, fun other taken away => ?_,
    fun other free => ?_⟩
  · by_cases same : threads.states.tags other = tid
    · show Function.update threads.phase tid there (threads.states.tags other) ≠ _
      rw [same, Function.update_self]
      exact stays
    · show Function.update threads.phase tid there (threads.states.tags other) ≠ _
      rw [Function.update_of_ne same]
      exact inv.registered other taken
  · by_cases same : other = tid
    · rw [same]
      exact ⟨nonzero, slot, tagged⟩
    · simp only [Function.update_of_ne same] at present
      exact inv.held other present
  · change Function.update threads.phase tid there (threads.states.tags other) ≠ _ at away
    by_cases same : other = slot
    · rw [same, tagged, Function.update_self] at away
      simp only [same, StaticMap.modify, Function.update_self]
      exact busy away _
    · rw [Function.update_of_ne (elsewhere other same)] at away
      simp only [StaticMap.modify, Function.update_of_ne same]
      exact inv.busy other taken away
  · have apart : other ≠ slot := by
      rintro rfl
      exact nonzero (tagged.symm.trans free)
    simp only [StaticMap.modify, Function.update_of_ne apart]
    exact inv.freed other free

theorem addThread_iff {tid : Int32} {parentDelay : ℕ} :
    threads.addThread tid parentDelay = some next ↔
      (threads.phase tid = .absent ∧ tid ≠ 0) ∧ ∃ slot, threads.states.insertSlot tid = some slot ∧
        next = {
          states := {
            tags := Function.update threads.states.tags slot tid
            values := Function.update threads.states.values slot
              { threads.states.values slot with localDelay := parentDelay } }
          phase := Function.update threads.phase tid .running
          numThreadsRunning := threads.numThreadsRunning + 1 } := by
  unfold addThread
  split
  · rename_i enters
    simp [enters, StaticMap.insert, StaticMap.modify, eq_comm]
  · rename_i other
    simp [other]

/-- A new thread tags a free entry, whose state keeps its `in_use`. -/
theorem Inv.addThread (inv : Inv released threads) {tid : Int32} {parentDelay : ℕ}
    (moved : threads.addThread tid parentDelay = some next) : Inv released next := by
  obtain ⟨⟨absent, nonzero⟩, slot, chosen, rfl⟩ := addThread_iff.mp moved
  have free := StaticMap.insertSlot_free chosen
  have elsewhere : ∀ other, threads.states.tags other ≠ 0 → threads.states.tags other ≠ tid := by
    intro other taken same
    exact inv.registered other taken (same ▸ absent)
  refine ⟨fun other taken => ?_, fun one other taken same => ?_, fun other present => ?_,
    fun other taken away => ?_, fun other empty => ?_⟩
  · by_cases same : other = slot
    · simp [same]
    · simp only [Function.update_of_ne same] at taken ⊢
      rw [Function.update_of_ne (elsewhere other taken)]
      exact inv.registered other taken
  · by_cases first : one = slot
    · by_cases second : other = slot
      · rw [first, second]
      · simp only [first, Function.update_self, Function.update_of_ne second] at same
        exact absurd same (elsewhere other (same ▸ nonzero))
    · simp only [Function.update_of_ne first] at taken same
      by_cases second : other = slot
      · simp only [second, Function.update_self] at same
        exact absurd same.symm (elsewhere one taken)
      · simp only [Function.update_of_ne second] at same
        exact inv.unique one other taken same
  · by_cases same : other = tid
    · exact ⟨same ▸ nonzero, slot, by simp [same]⟩
    · simp only [Function.update_of_ne same] at present
      obtain ⟨positive, place, held⟩ := inv.held other present
      have apart : place ≠ slot := by
        rintro rfl
        exact positive (held.symm.trans free)
      exact ⟨positive, place, by simp only [Function.update_of_ne apart]; exact held⟩
  · by_cases same : other = slot
    · simp [same] at away
    · simp only [Function.update_of_ne same] at taken away ⊢
      rw [Function.update_of_ne (elsewhere other taken)] at away
      exact inv.busy other taken away
  · have apart : other ≠ slot := by
      rintro rfl
      simp only [Function.update_self] at empty
      exact nonzero empty
    simp only [Function.update_of_ne apart] at empty ⊢
    exact inv.freed other empty

theorem removeThread_iff {tid : Int32} {localDelay : ℕ} :
    threads.removeThread tid localDelay = some next ↔
      threads.phase tid = .endSampling ∧ ∃ slot, threads.states.find tid = some slot ∧
        next = {
          states := {
            tags := Function.update threads.states.tags slot 0
            values := Function.update threads.states.values slot
              { threads.states.values slot with localDelay := localDelay } }
          phase := Function.update threads.phase tid .absent
          numThreadsRunning := threads.numThreadsRunning - 1 } := by
  unfold removeThread
  simp only [Option.map_eq_some_iff, access_iff]
  constructor
  · rintro ⟨_, ⟨ending, slot, found, rfl⟩, rfl⟩
    refine ⟨ending, slot, found, ?_⟩
    simp only [StaticMap.remove, StaticMap.find_modify, found]
    rfl
  · rintro ⟨ending, slot, found, rfl⟩
    refine ⟨_, ⟨ending, slot, found, rfl⟩, ?_⟩
    simp only [StaticMap.remove, StaticMap.find_modify, found]
    rfl

/-- An exiting thread leaves its entry free and in use. -/
theorem Inv.removeThread (inv : Inv released threads) {tid : Int32} {localDelay : ℕ}
    (moved : threads.removeThread tid localDelay = some next) :
    Inv (released ++ (threads.states.find tid).toList) next := by
  obtain ⟨ending, slot, found, rfl⟩ := removeThread_iff.mp moved
  have tagged := StaticMap.find_tag found
  have nonzero := (inv.held tid (by rw [ending]; decide)).1
  have elsewhere : ∀ other, other ≠ slot → threads.states.tags other ≠ tid := by
    intro other apart same
    exact apart (inv.unique slot other (by rw [tagged]; exact nonzero) (same.trans tagged.symm))
  rw [found]
  refine ⟨fun other taken => ?_, fun one other taken same => ?_, fun other present => ?_,
    fun other taken away => ?_, fun other free => ?_⟩
  · by_cases same : other = slot
    · simp [same] at taken
    · simp only [Function.update_of_ne same] at taken ⊢
      rw [Function.update_of_ne (elsewhere other same)]
      exact inv.registered other taken
  · by_cases first : one = slot
    · simp [first] at taken
    · simp only [Function.update_of_ne first] at taken same
      by_cases second : other = slot
      · simp only [second, Function.update_self] at same
        exact absurd same.symm taken
      · simp only [Function.update_of_ne second] at same
        exact inv.unique one other taken same
  · by_cases same : other = tid
    · simp [same] at present
    · simp only [Function.update_of_ne same] at present
      obtain ⟨positive, place, held⟩ := inv.held other present
      have apart : place ≠ slot := by
        rintro rfl
        exact same (held.symm.trans tagged)
      exact ⟨positive, place, by simp only [Function.update_of_ne apart]; exact held⟩
  · by_cases same : other = slot
    · simp [same] at taken
    · simp only [Function.update_of_ne same] at taken away ⊢
      rw [Function.update_of_ne (elsewhere other same)] at away
      exact inv.busy other taken away
  · by_cases same : other = slot
    · have inUse : (threads.states.values slot).inUse = true :=
        inv.busy slot (by rw [tagged]; exact nonzero) (by rw [tagged, ending]; decide)
      simp [same, inUse]
    · simp only [Function.update_of_ne same] at free ⊢
      rw [inv.freed other free]
      simp [same]

/-- What the signal handler changes: the local delay of a state that is not in use. -/
theorem samplesReady_eq (tid : Int32) (localDelay : ℕ) :
    (threads.samplesReady tid localDelay).phase = threads.phase ∧
      (threads.samplesReady tid localDelay).states.tags = threads.states.tags ∧
      ∀ slot, ((threads.samplesReady tid localDelay).states.values slot).inUse =
        (threads.states.values slot).inUse := by
  unfold samplesReady
  split
  · exact ⟨rfl, rfl, fun _ => rfl⟩
  · rename_i slot found
    split
    · exact ⟨rfl, rfl, fun _ => rfl⟩
    · refine ⟨rfl, rfl, fun other => ?_⟩
      by_cases same : other = slot
      · simp [same, StaticMap.modify]
      · simp [same, StaticMap.modify]

theorem Inv.samplesReady (inv : Inv released threads) (tid : Int32) (localDelay : ℕ) :
    Inv released (threads.samplesReady tid localDelay) := by
  obtain ⟨phase, tags, inUse⟩ := @samplesReady_eq threads tid localDelay
  constructor
  · rw [phase, tags]
    exact inv.registered
  · rw [tags]
    exact inv.unique
  · rw [phase, tags]
    exact inv.held
  · intro slot
    rw [phase, tags, inUse]
    exact inv.busy slot
  · intro slot
    rw [tags, inUse]
    exact inv.freed slot

/-- Every step keeps the invariant, with the entries it releases. -/
theorem Inv.step (inv : Inv released threads) (moved : threads.step action = some next) :
    Inv (released ++ threads.releases action) next := by
  cases action with
  | addThread tid parentDelay =>
      simp only [releases, List.append_nil]
      exact inv.addThread moved
  | removeThread tid localDelay => exact inv.removeThread moved
  | samplesReady tid localDelay =>
      cases moved
      simp only [releases, List.append_nil]
      exact inv.samplesReady tid localDelay
  | enterCatchUp tid | enterPostBlock tid | enterEndSampling tid =>
      simp only [releases, List.append_nil]
      exact inv.access moved (by decide) (by decide) fun _ _ => rfl
  | leaveCatchUp tid localDelay | leavePostBlock tid localDelay =>
      simp only [releases, List.append_nil]
      exact inv.access moved (by decide) (by decide) fun back => absurd rfl back

end Inv

end Threads

end Mcoz.Profiler
