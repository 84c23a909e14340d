/-
`consume_once` on several processors.

The program reads the cursor and the slots of the map value that it looked up, writes the cursor, and submits its
event. Programs on other processors and the updates of the engine come in between: an update puts a new value into the
map, and a cursor that is written after it goes to the value that was looked up, which is no longer there. A call with
nothing in between is the step `consumeOnce` of the engine (`run_call`).
-/

import Mcoz.Engine.Invariant

set_option autoImplicit false

namespace Mcoz.Engine

open Word Machine

/-! ### The parts of a call -/

/-- A call of `consume_once` that has chosen a slot: what it read, whether its map value is still in the map, and
whether the cursor is written. -/
structure Consuming where
  call : Syscall
  chosen : SlotIndex
  slot : SourceCreditSlot
  current : Bool
  moved : Bool

/-- `consume_if_policy_allows` as far as the choice of the slot. -/
def chooses (engine : Engine) (call : Syscall) : Option Consuming :=
  if shouldConsumeRaw (engine.consumePolicyMap call.cgroupId) call.syscallId then
    match engine.victimMap call.cgroupId with
    | none => none
    | some cfg =>
        if cfg.enabled = 0 then none
        else cfg.chooseSlot.map fun chosen => ⟨call, chosen, cfg.slots chosen, true, false⟩
  else none

/-- The cursor is written. -/
def moveCursor (engine : Engine) (consuming : Consuming) : Engine :=
  if consuming.current then
    { engine with
      victimMap := Function.update engine.victimMap consuming.call.cgroupId
        ((engine.victimMap consuming.call.cgroupId).map fun cfg => cfg.advanceCursor consuming.chosen) }
  else engine

/-- The event is submitted, if the ring buffer has room. -/
def submitEvent (engine : Engine) (consuming : Consuming) : Engine :=
  let stats := engine.globalStats
  if consuming.call.reserved then
    { engine with
      events := engine.events ++ [consumeEvent consuming.call consuming.slot consuming.chosen]
      globalStats := { stats with
        consumeTriggers := stats.consumeTriggers + 1
        bpfEvents := stats.bpfEvents + 1 } }
  else
    { engine with
      globalStats := { stats with
        consumeTriggers := stats.consumeTriggers + 1
        ringbufDrops := stats.ringbufDrops + 1 } }

/-- The action puts a new value of the cgroup into the map. -/
def replaces (engine : Engine) (cgroupId : UInt64) : Action → Bool
  | .arm req found updates =>
      match (engine.arm req found updates).2 with
      | .armed _ _ _ armed .. => armed = cgroupId
      | _ => false
  | .clear clearCredits updated =>
      clearCredits && (engine.victims cgroupId).isSome && (engine.victimMap cgroupId).isSome && updated cgroupId
  | .finishConsume updated =>
      match engine.poll with
      | .consuming event copy => updated && (consumption event copy).isSome && event.cgroupId = cgroupId
      | _ => false
  | _ => false

/-! ### The machine -/

/-- The engine, and the calls of `consume_once` that are in progress on the processors. -/
structure Processors where
  engine : Engine
  consuming : ℕ → Option Consuming

namespace Processors

/-- A processor chooses a slot for a system call, writes the cursor, and submits the event; or another thread takes a
step. -/
inductive Action
  | choose (cpu : ℕ) (call : Syscall)
  | move (cpu : ℕ)
  | submit (cpu : ℕ)
  | other (action : Engine.Action)

/-- The calls after a step of another thread. -/
def afterOther (state : Processors) (action : Engine.Action) (cpu : ℕ) : Option Consuming :=
  (state.consuming cpu).map fun consuming =>
    { consuming with current := consuming.current && !state.engine.replaces consuming.call.cgroupId action }

/-- One step. A system call without a choice is over at once. -/
def step (state : Processors) : Action → Option Processors
  | .choose cpu call =>
      match state.consuming cpu with
      | some _ => none
      | none => some { state with consuming := Function.update state.consuming cpu (state.engine.chooses call) }
  | .move cpu =>
      match state.consuming cpu with
      | some consuming =>
          if consuming.moved then none
          else
            some ⟨state.engine.moveCursor consuming,
              Function.update state.consuming cpu (some { consuming with moved := true })⟩
      | none => none
  | .submit cpu =>
      match state.consuming cpu with
      | some consuming =>
          if consuming.moved then
            some ⟨state.engine.submitEvent consuming, Function.update state.consuming cpu none⟩
          else none
      | none => none
  | .other (.receive _) => none
  | .other action => (state.engine.step action).map fun next => ⟨next, state.afterOther action⟩

/-- No call is in progress. -/
def idle (engine : Engine) : Processors :=
  ⟨engine, fun _ => none⟩

/-- The actions of a system call with nothing in between. -/
def callActions (cpu : ℕ) (call : Syscall) : List Action :=
  [.choose cpu call, .move cpu, .submit cpu]

section Steps

variable {state next : Processors} {cpu : ℕ} {call : Syscall}

theorem step_choose_iff : step state (.choose cpu call) = some next ↔ state.consuming cpu = none ∧
    next = { state with consuming := Function.update state.consuming cpu (state.engine.chooses call) } := by
  cases here : state.consuming cpu <;> simp [step, here, eq_comm]

theorem step_move_iff : step state (.move cpu) = some next ↔
    ∃ one, state.consuming cpu = some one ∧ one.moved = false ∧
      next = ⟨state.engine.moveCursor one, Function.update state.consuming cpu (some { one with moved := true })⟩ := by
  cases here : state.consuming cpu with
  | none => simp [step, here]
  | some one =>
      cases moved : one.moved with
      | false =>
          simp only [step, here, moved, Bool.false_eq_true, if_false, Option.some.injEq, exists_eq_left', true_and]
          exact eq_comm
      | true => simp [step, here, moved]

theorem step_submit_iff : step state (.submit cpu) = some next ↔
    ∃ one, state.consuming cpu = some one ∧ one.moved = true ∧
      next = ⟨state.engine.submitEvent one, Function.update state.consuming cpu none⟩ := by
  cases here : state.consuming cpu with
  | none => simp [step, here]
  | some one =>
      cases moved : one.moved with
      | false => simp [step, here, moved]
      | true =>
          simp only [step, here, moved, if_true, Option.some.injEq, exists_eq_left', true_and]
          exact eq_comm

end Steps

section Calls

variable {engine : Engine} {consuming : Consuming} {call : Syscall} {cpu : ℕ}

/-- What a call has chosen is the first eligible slot of its map value. -/
theorem chooses_spec (chosen : engine.chooses call = some consuming) :
    consuming.call = call ∧ consuming.current = true ∧ consuming.moved = false ∧
      ∃ cfg, engine.victimMap call.cgroupId = some cfg ∧ cfg.chooseSlot = some consuming.chosen := by
  unfold chooses at chosen
  split at chosen
  · split at chosen
    · cases chosen
    · rename_i cfg value
      split at chosen
      · cases chosen
      · obtain ⟨index, picked, rfl⟩ := Option.map_eq_some_iff.mp chosen
        exact ⟨rfl, rfl, rfl, cfg, value, picked⟩
  · cases chosen

/-- Together the parts of a call are the step of the engine. -/
theorem submit_of_chooses (chosen : engine.chooses call = some consuming) :
    (engine.moveCursor consuming).submitEvent consuming = engine.consumeIfPolicyAllows call := by
  unfold chooses at chosen
  unfold consumeIfPolicyAllows consumeOnce
  split at chosen
  · rename_i allowed
    rw [if_pos allowed]
    split at chosen
    · cases chosen
    · rename_i cfg value
      split at chosen
      · cases chosen
      · rename_i enabled
        obtain ⟨index, picked, rfl⟩ := Option.map_eq_some_iff.mp chosen
        cases reserved : call.reserved <;> simp [moveCursor, submitEvent, value, enabled, picked, reserved]
  · cases chosen

/-- **A call with nothing in between** is the step of the engine. -/
theorem run_call {state : Processors} (free : state.consuming cpu = none)
    (chosen : state.engine.chooses call = some consuming) :
    run step state (callActions cpu call) =
      some ⟨state.engine.consumeIfPolicyAllows call, state.consuming⟩ := by
  obtain ⟨-, -, waiting, -⟩ := chooses_spec chosen
  have chose : step state (.choose cpu call) =
      some ⟨state.engine, Function.update state.consuming cpu (some consuming)⟩ :=
    step_choose_iff.mpr ⟨free, by rw [chosen]⟩
  have moved : step ⟨state.engine, Function.update state.consuming cpu (some consuming)⟩ (.move cpu) =
      some ⟨state.engine.moveCursor consuming,
        Function.update state.consuming cpu (some { consuming with moved := true })⟩ := by
    simp [step, waiting]
  have ended : Function.update state.consuming cpu none = state.consuming := by
    rw [← free, Function.update_eq_self]
  rw [callActions, run_cons_of chose, run_cons_of moved]
  simp only [run_cons, step, Function.update_self, Function.update_idem, ended, if_true, Option.bind_some, run_nil,
    Option.some.injEq, Processors.mk.injEq, and_true]
  have whole := submit_of_chooses chosen
  exact whole

end Calls

/-! ### Steps of other threads -/

/-- A call after an update is the new one, or was there. -/
theorem update_eq_some {calls : ℕ → Option Consuming} {changed : Option Consuming} {cpu other : ℕ} {one : Consuming}
    (found : Function.update calls cpu changed other = some one) :
    other = cpu ∧ changed = some one ∨ other ≠ cpu ∧ calls other = some one := by
  by_cases same : other = cpu
  · subst same
    rw [Function.update_self] at found
    exact .inl ⟨rfl, found⟩
  · rw [Function.update_of_ne same] at found
    exact .inr ⟨same, found⟩

section Others

variable {state next : Processors} {action : Engine.Action} {cpu : ℕ} {consuming : Consuming}

theorem step_other_iff : step state (.other action) = some next ↔
    (∀ call, action ≠ .receive call) ∧
      ∃ engine, state.engine.step action = some engine ∧ next = ⟨engine, state.afterOther action⟩ := by
  cases action <;> simp [step, eq_comm]

theorem afterOther_eq_some (found : state.afterOther action cpu = some consuming) :
    ∃ before, state.consuming cpu = some before ∧ consuming =
      { before with current := before.current && !state.engine.replaces before.call.cgroupId action } := by
  obtain ⟨before, here, rfl⟩ := Option.map_eq_some_iff.mp found
  exact ⟨before, here, rfl⟩

end Others

/-! ### The value of a cgroup -/

section Values

variable {engine next : Engine} {action : Engine.Action} {cgroupId : UInt64} {consuming : Consuming}

/-- A step of another thread that does not replace the value of a cgroup leaves it. -/
theorem victimMap_of_kept (kept : engine.replaces cgroupId action = false) (quiet : ∀ call, action ≠ .receive call)
    (moved : engine.step action = some next) : next.victimMap cgroupId = engine.victimMap cgroupId := by
  cases effect_of_step moved with
  | @armed req found updates resolved cfg index unlocked count target armed updated reply =>
      simp only [replaces, reply, armedReply, decide_eq_false_iff_not] at kept
      exact Function.update_of_ne (Ne.symm kept) ..
  | @cleared clearCredits updated unlocked =>
      simp only [replaces, Bool.and_eq_false_iff] at kept
      simp only [clear]
      split
      · rename_i cleared
        obtain ⟨credits, known, landed⟩ := cleared
        cases value : engine.victimMap cgroupId with
        | none => rfl
        | some cfg => simp [credits, known, landed, value] at kept
      · rfl
  | @ignored call => exact absurd rfl (quiet call)
  | @received call => exact absurd rfl (quiet call)
  | @consumed event copy result updated consuming taken wrote =>
      simp only [replaces, consuming, taken, wrote, Option.isSome_some, Bool.and_self, Bool.true_and,
        decide_eq_false_iff_not] at kept
      exact Function.update_of_ne (Ne.symm kept) ..
  | _ => rfl

end Values

end Processors

end Mcoz.Engine
