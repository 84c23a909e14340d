/-
The round robin between the sources of a cgroup.

`consume_once` takes the first eligible slot from the cursor on and moves the cursor past it. Two
other writers set the cursor: `arm` points it at the slot that it armed, and `consume_credit_locked`
writes its whole copy back, with the cursor that it looked up. Calls on several processors can read
one cursor and choose one slot. `chosen_within_eight` is the fairness that is left: while no arm moves
the turn of a slot farther away, no system call of the cgroup falls between the two parts of a
decrement, and no two calls overlap, eight calls choose every slot that stays eligible.
-/

import Mcoz.Engine.Processors
import Mcoz.Lib.Rotation

set_option autoImplicit false

namespace Mcoz

open Word Machine Rotation

namespace VictimCfg

/-! ### The choice as a rotation -/

/-- The place that the cursor points at. -/
def cursor (cfg : VictimCfg) : ℕ :=
  cfg.rrCursor.toNat % maxSourceSlots

/-- The number of slots that `consume_once` would look at before a slot. -/
def waitFor (cfg : VictimCfg) (index : SlotIndex) : ℕ :=
  wait maxSourceSlots cfg.cursor index.val

theorem cursor_lt (cfg : VictimCfg) : cfg.cursor < maxSourceSlots :=
  Nat.mod_lt _ (by decide)

theorem waitFor_lt (cfg : VictimCfg) (index : SlotIndex) : cfg.waitFor index < maxSourceSlots :=
  wait_lt cfg.cursor_lt index.isLt

/-- The sum of the cursor and the step does not wrap modulo eight. -/
theorem scanIndex_eq (cfg : VictimCfg) {step : ℕ} (few : step < maxSourceSlots) :
    (scanIndex cfg.rrCursor step).val = turn maxSourceSlots cfg.cursor step := by
  have small : (UInt32.ofNat step).toNat = step := by
    rw [UInt32.toNat_ofNat']
    exact Nat.mod_eq_of_lt (by simp only [maxSourceSlots] at few; omega)
  simp only [scanIndex, turn, cursor, UInt32.toNat_add, small, maxSourceSlots]
  omega

theorem chooseSlot_eq (cfg : VictimCfg) :
    cfg.chooseSlot = choose maxSourceSlots cfg.cursor (by decide) fun i => cfg.Eligible i := by
  unfold chooseSlot choose order
  congr 1
  refine List.map_congr_left fun step few => Fin.ext ?_
  exact scanIndex_eq cfg (List.mem_range.mp few)

theorem advanceCursor_cursor (cfg : VictimCfg) (chosen : SlotIndex) :
    (cfg.advanceCursor chosen).cursor = turn maxSourceSlots chosen.val 1 := by
  have below : (chosen.val + 1) % maxSourceSlots < maxSourceSlots := Nat.mod_lt _ (by decide)
  simp only [cursor, advanceCursor, turn, UInt32.toNat_ofNat', maxSourceSlots] at below ⊢
  omega

/-- A choice of another slot brings the turn of an eligible slot nearer. -/
theorem waitFor_advance {cfg : VictimCfg} {chosen index : SlotIndex}
    (choice : cfg.chooseSlot = some chosen) (eligible : cfg.Eligible index)
    (apart : chosen ≠ index) : (cfg.advanceCursor chosen).waitFor index < cfg.waitFor index := by
  rw [chooseSlot_eq] at choice
  unfold waitFor
  rw [advanceCursor_cursor]
  exact wait_of_choose cfg.cursor_lt choice (by simpa using eligible) apart

end VictimCfg

namespace Engine

/-! ### What a system call chooses -/

/-- The slots that the step chooses on the cgroup, whether or not the ring buffer has room. -/
def choices (cgroupId : UInt64) (state : Processors) : Processors.Action → List SlotIndex
  | .submit cpu =>
      match state.consuming cpu with
      | some consuming => if consuming.call.cgroupId = cgroupId then [consuming.chosen] else []
      | none => []
  | _ => []

/-- The slots that the step chooses on the cgroup and submits an event for. -/
def emissions (cgroupId : UInt64) (state : Processors) : Processors.Action → List SlotIndex
  | .submit cpu =>
      match state.consuming cpu with
      | some consuming =>
          if consuming.call.cgroupId = cgroupId ∧ consuming.call.reserved then [consuming.chosen] else []
      | none => []
  | _ => []

/-- No call on the cgroup is in progress. -/
def Free (cgroupId : UInt64) (state : Processors) : Prop :=
  ∀ cpu consuming, state.consuming cpu = some consuming → consuming.call.cgroupId ≠ cgroupId

/-! ### The writers of the cursor -/

/-- The step does not move the turn of the slot farther away: an arm on the cgroup lands on the
slot itself or between the cursor and it, and a decrement writes back the current cursor. -/
def KeepsTurn (cgroupId : UInt64) (index : SlotIndex) (engine : Engine) : Engine.Action → Prop
  | .arm req found _ => ∀ resolved cfg armed,
      resolveTarget req.ns req.pod req.container found = some resolved →
      resolved.cgroupId = cgroupId →
      (engine.victimCfg cgroupId).arm req.sourceKey (engine.armDelay req cgroupId) req.count =
        some (cfg, armed) →
      wait maxSourceSlots armed.val index.val ≤ (engine.victimCfg cgroupId).waitFor index
  | .finishConsume _ => ∀ event copy, engine.poll = .consuming event (some copy) →
      event.cgroupId = cgroupId → copy.rrCursor = (engine.victimCfg cgroupId).rrCursor
  | _ => True

/-- The step does not move the turn of the slot farther away, and a call on the cgroup is over before the next one
begins and before an arm, a clear or a decrement writes the value of the cgroup. -/
def InTurn (cgroupId : UInt64) (index : SlotIndex) (state : Processors) : Processors.Action → Prop
  | .choose _ call => call.cgroupId = cgroupId → Free cgroupId state
  | .other action => KeepsTurn cgroupId index state.engine action ∧
      (state.engine.replaces cgroupId action = true → Free cgroupId state)
  | _ => True

section Step

variable {cgroupId : UInt64} {index : SlotIndex} {engine next : Engine} {action : Engine.Action}

theorem waitFor_congr {cfg other : VictimCfg} (same : cfg.rrCursor = other.rrCursor) :
    cfg.waitFor index = other.waitFor index := by
  rw [VictimCfg.waitFor, VictimCfg.cursor, same]
  rfl

/-- A clear that leaves the slot eligible has not landed: a cleared slot has no credits. -/
theorem victimCfg_clear {clearCredits : Bool} {updated : UInt64 → Bool}
    (eligible : ((engine.clear clearCredits updated).victimCfg cgroupId).Eligible index) :
    (engine.clear clearCredits updated).victimCfg cgroupId = engine.victimCfg cgroupId := by
  by_cases landed : clearCredits = true ∧ (engine.victims cgroupId).isSome ∧ updated cgroupId
  · have credited := eligible.2.2
    rw [victimCfg] at credited
    simp only [clear, landed, and_self, if_true] at credited
    cases value : engine.victimMap cgroupId with
    | none =>
        rw [value] at credited
        exact absurd credited (by simp [VictimCfg.zero])
    | some cfg =>
        rw [value] at credited
        exact absurd credited (by simp [VictimCfg.clearCredits])
  · unfold victimCfg
    simp only [clear]
    rw [if_neg landed]

/-- An arm puts the cursor on the slot that it picks. -/
theorem cursor_arm {cfg : VictimCfg} {sourceKey : UInt64} {delayNs : UInt64} {count : Int64}
    {slot : SlotIndex} (armed : (engine.victimCfg cgroupId).arm sourceKey delayNs count = some (cfg, slot)) :
    cfg.cursor = slot.val := by
  obtain ⟨-, -, points, -⟩ := VictimCfg.arm_spec armed
  have small := slot.isLt
  rw [VictimCfg.cursor, points]
  simp only [maxSourceSlots] at small ⊢
  omega

/-- No other step than a system call lets the slot wait longer. -/
theorem waitFor_of_step (keeps : KeepsTurn cgroupId index engine action)
    (eligible : (next.victimCfg cgroupId).Eligible index)
    (moved : engine.step action = some next) (quiet : ∀ call, action ≠ .receive call) :
    (next.victimCfg cgroupId).waitFor index ≤ (engine.victimCfg cgroupId).waitFor index := by
  have same : next.victimMap = engine.victimMap →
      (next.victimCfg cgroupId).waitFor index ≤ (engine.victimCfg cgroupId).waitFor index := by
    intro map
    rw [victimCfg_congr map]
  cases effect_of_step moved with
  | @armed req found updates resolved cfg slot unlocked count target armed updated reply =>
      rw [armSucceeded_victimCfg]
      by_cases here : cgroupId = resolved.cgroupId
      · rw [if_pos here]
        rw [← here] at armed
        have nearer := keeps resolved cfg slot target here.symm armed
        rw [VictimCfg.waitFor, cursor_arm armed]
        exact nearer
      · rw [if_neg here]
  | @cleared clearCredits updated unlocked => rw [victimCfg_clear eligible]
  | @ignored call => exact absurd rfl (quiet call)
  | @received call => exact absurd rfl (quiet call)
  | @consumed event copy result updated consuming taken wrote =>
      rw [creditConsumed_victimCfg]
      by_cases here : cgroupId = event.cgroupId
      · rw [if_pos here]
        obtain ⟨copied, rfl, consumed⟩ := Option.bind_eq_some_iff.mp taken
        have current := keeps event copied consuming here.symm
        obtain ⟨slot, -, -, -, shape, -⟩ := VictimCfg.consumeCredit_spec consumed
        refine (waitFor_congr ?_).le
        rw [shape]
        exact current
      · rw [if_neg here]
  | _ => exact same rfl

end Step

/-! ### Fairness -/

/-- The number of calls on the cgroup that can choose other slots before the slot, at most: a call in progress has
chosen the slot, or its choice leaves as many as the turn of the slot is away. -/
def Waits (cgroupId : UInt64) (index : SlotIndex) (state : Processors) (rank : ℕ) : Prop :=
  (Free cgroupId state ∧ (state.engine.victimCfg cgroupId).waitFor index ≤ rank) ∨
    ∃ cpu consuming, state.consuming cpu = some consuming ∧ consuming.call.cgroupId = cgroupId ∧
      consuming.current = true ∧
      (∀ other same, state.consuming other = some same → same.call.cgroupId = cgroupId → other = cpu) ∧
      (consuming.chosen = index ∨
        (if consuming.moved then (state.engine.victimCfg cgroupId).waitFor index
          else wait maxSourceSlots (turn maxSourceSlots consuming.chosen.val 1) index.val) + 1 ≤ rank)

section Fairness

variable {cgroupId : UInt64} {index : SlotIndex} {state next : Processors} {rank cpu : ℕ} {call : Syscall}

/-- An eligible slot is one of a value in the map. -/
theorem value_of_eligible {engine : Engine} (eligible : (engine.victimCfg cgroupId).Eligible index) :
    engine.victimMap cgroupId = some (engine.victimCfg cgroupId) := by
  unfold victimCfg at eligible ⊢
  cases value : engine.victimMap cgroupId with
  | none =>
      rw [value] at eligible
      exact absurd eligible.2.2 (by simp [VictimCfg.zero])
  | some cfg => rfl

theorem Free.update {consuming : Option Consuming} (free : Free cgroupId state)
    (elsewhere : ∀ one, consuming = some one → one.call.cgroupId ≠ cgroupId) {engine : Engine} :
    Free cgroupId ⟨engine, Function.update state.consuming cpu consuming⟩ := by
  intro other one found
  rcases Processors.update_eq_some found with ⟨-, new⟩ | ⟨-, old⟩
  · exact elsewhere one new
  · exact free other one old

/-- A call that is not on the cgroup does not matter for it. -/
theorem Waits.elsewhere {engine : Engine} {consuming : Option Consuming} (waits : Waits cgroupId index state rank)
    (before : ∀ one, state.consuming cpu = some one → one.call.cgroupId ≠ cgroupId)
    (after : ∀ one, consuming = some one → one.call.cgroupId ≠ cgroupId)
    (same : engine.victimCfg cgroupId = state.engine.victimCfg cgroupId) :
    Waits cgroupId index ⟨engine, Function.update state.consuming cpu consuming⟩ rank := by
  rcases waits with ⟨free, nearer⟩ | ⟨own, one, here, on, current, alone, chosen⟩
  · exact .inl ⟨free.update after, by rw [same]; exact nearer⟩
  · have apart : own ≠ cpu := by
      rintro rfl
      exact before one here on
    refine .inr ⟨own, one, (Function.update_of_ne apart ..).trans here, on, current, fun other two found on' => ?_, ?_⟩
    · rcases Processors.update_eq_some found with ⟨-, new⟩ | ⟨-, old⟩
      · exact absurd on' (after two new)
      · exact alone other two old on'
    · rw [same]
      exact chosen

/-- A call on the cgroup that begins when no other is in progress chooses the slot or one before it. -/
theorem Waits.choose (waits : Waits cgroupId index state rank)
    (eligible : (state.engine.victimCfg cgroupId).Eligible index)
    (inTurn : InTurn cgroupId index state (.choose cpu call))
    (moved : Processors.step state (.choose cpu call) = some next) : Waits cgroupId index next rank := by
  obtain ⟨unused, rfl⟩ := Processors.step_choose_iff.mp moved
  have before : ∀ one, state.consuming cpu = some one → one.call.cgroupId ≠ cgroupId := by
    intro one found
    rw [unused] at found
    cases found
  cases chosen : state.engine.chooses call with
  | none => exact waits.elsewhere before nofun rfl
  | some one =>
      obtain ⟨named, current, waiting, cfg, value, picked⟩ := Processors.chooses_spec chosen
      by_cases on : call.cgroupId = cgroupId
      · subst on
        have free : Free call.cgroupId state := inTurn rfl
        have nearer : (state.engine.victimCfg call.cgroupId).waitFor index ≤ rank := by
          rcases waits with ⟨-, nearer⟩ | ⟨own, other, here, on, -⟩
          · exact nearer
          · exact absurd on (free own other here)
        refine .inr ⟨cpu, one, Function.update_self .., congrArg _ named, current, fun other two found on => ?_, ?_⟩
        · rcases Processors.update_eq_some found with ⟨there, -⟩ | ⟨-, old⟩
          · exact there
          · exact absurd on (free other two old)
        · refine Classical.or_iff_not_imp_left.mpr fun apart => ?_
          rw [waiting, if_neg Bool.false_ne_true]
          rw [victimCfg, value, Option.getD_some] at eligible nearer
          have closer := VictimCfg.waitFor_advance picked eligible apart
          rw [VictimCfg.waitFor, VictimCfg.advanceCursor_cursor] at closer
          omega
      · refine waits.elsewhere before (fun other same => ?_) rfl
        obtain rfl := Option.some.inj same
        rw [named]
        exact on

/-- The cursor that a call writes is past the slot that it chose. -/
theorem Waits.move (waits : Waits cgroupId index state rank)
    (eligible : (state.engine.victimCfg cgroupId).Eligible index)
    (moved : Processors.step state (.move cpu) = some next) : Waits cgroupId index next rank := by
  obtain ⟨one, here, waiting, rfl⟩ := Processors.step_move_iff.mp moved
  by_cases on : one.call.cgroupId = cgroupId
  · rcases waits with ⟨free, -⟩ | ⟨own, other, there, on', current, alone, chosen⟩
    · exact absurd on (free cpu one here)
    · obtain rfl := alone cpu one here on
      obtain rfl := Option.some.inj (there.symm.trans here)
      refine .inr ⟨cpu, { other with moved := true }, Function.update_self .., on, current,
        fun another two found on'' => ?_, chosen.imp_right fun nearer => ?_⟩
      · rcases Processors.update_eq_some found with ⟨there, -⟩ | ⟨-, old⟩
        · exact there
        · exact alone another two old on''
      · have value := value_of_eligible eligible
        have written : ((state.engine.moveCursor other).victimCfg cgroupId) =
            (state.engine.victimCfg cgroupId).advanceCursor other.chosen := by
          rw [moveCursor, if_pos current, on, victimCfg]
          simp only [Function.update_self, value, Option.map_some, Option.getD_some]
        rw [if_pos rfl, written, VictimCfg.waitFor, VictimCfg.advanceCursor_cursor]
        rw [waiting, if_neg Bool.false_ne_true] at nearer
        exact nearer
  · refine waits.elsewhere (fun other found => ?_) (fun other found => ?_) ?_
    · obtain rfl := Option.some.inj (here.symm.trans found)
      exact on
    · obtain rfl := Option.some.inj found
      exact on
    · unfold moveCursor
      split
      · exact congrArg (Option.getD · VictimCfg.zero) (Function.update_of_ne (Ne.symm on) ..)
      · rfl

/-- A call that is over has chosen the slot, or leaves one call less before it. -/
theorem Waits.submit (waits : Waits cgroupId index state rank)
    (moved : Processors.step state (.submit cpu) = some next) :
    index ∈ choices cgroupId state (.submit cpu) ∨ ∃ rest,
      (choices cgroupId state (.submit cpu)).length + rest ≤ rank ∧ Waits cgroupId index next rest := by
  obtain ⟨one, here, written, rfl⟩ := Processors.step_submit_iff.mp moved
  have same : (state.engine.submitEvent one).victimCfg cgroupId = state.engine.victimCfg cgroupId := by
    unfold submitEvent
    dsimp only
    split <;> rfl
  by_cases on : one.call.cgroupId = cgroupId
  · have chose : choices cgroupId state (.submit cpu) = [one.chosen] := by simp [choices, here, on]
    rw [chose]
    rcases waits with ⟨free, -⟩ | ⟨own, other, there, on', current, alone, chosen⟩
    · exact absurd on (free cpu one here)
    · obtain rfl := alone cpu one here on
      obtain rfl := Option.some.inj (there.symm.trans here)
      rcases chosen with rfl | nearer
      · exact .inl (List.mem_singleton_self _)
      · rw [written, if_pos rfl] at nearer
        refine .inr ⟨(state.engine.victimCfg cgroupId).waitFor index, by rw [List.length_singleton]; omega,
          .inl ⟨fun another two found on'' => ?_, by rw [same]⟩⟩
        rcases Processors.update_eq_some found with ⟨-, gone⟩ | ⟨apart, old⟩
        · cases gone
        · exact apart (alone another two old on'')
  · have silent : choices cgroupId state (.submit cpu) = [] := by simp [choices, here, on]
    rw [silent]
    refine .inr ⟨rank, (Nat.zero_add _).le, waits.elsewhere (fun other found => ?_) nofun same⟩
    obtain rfl := Option.some.inj (here.symm.trans found)
    exact on

/-- Another thread does not let the slot wait longer. -/
theorem Waits.other {action : Engine.Action} (waits : Waits cgroupId index state rank)
    (eligible : (next.engine.victimCfg cgroupId).Eligible index)
    (inTurn : InTurn cgroupId index state (.other action))
    (moved : Processors.step state (.other action) = some next) : Waits cgroupId index next rank := by
  obtain ⟨quiet, engine, stepped, rfl⟩ := Processors.step_other_iff.mp moved
  rcases waits with ⟨free, nearer⟩ | ⟨cpu, one, here, on, current, alone, chosen⟩
  · refine .inl ⟨fun other one found => ?_, (waitFor_of_step inTurn.1 eligible stepped quiet).trans nearer⟩
    obtain ⟨before, there, rfl⟩ := Processors.afterOther_eq_some found
    exact free other before there
  · have kept : state.engine.replaces cgroupId action = false :=
      Bool.eq_false_of_not_eq_true fun replaced => inTurn.2 replaced cpu one here on
    have same : engine.victimCfg cgroupId = state.engine.victimCfg cgroupId := by
      rw [victimCfg, victimCfg, Processors.victimMap_of_kept kept quiet stepped]
    refine .inr ⟨cpu, one, ?_, on, current, fun other two found on' => ?_, ?_⟩
    · have unchanged : ({ one with current := one.current && !state.engine.replaces one.call.cgroupId action } :
          Consuming) = one := by
        rw [on, kept, Bool.not_false, Bool.and_true]
      exact (congrArg (Option.map _) here).trans (congrArg some unchanged)
    · obtain ⟨before, there, rfl⟩ := Processors.afterOther_eq_some found
      exact alone other before there on'
    · rw [same]
      exact chosen

end Fairness

section Calls

variable {cgroupId : UInt64} {index : SlotIndex} {state next : Processors} {cpu : ℕ}

/-- A call that is over leaves the cgroup free. -/
theorem Free.call {call : Syscall} (free : Free cgroupId state)
    (ran : run Processors.step state (Processors.callActions cpu call) = some next) : Free cgroupId next := by
  obtain ⟨first, chose, later⟩ := run_cons_iff.mp ran
  obtain ⟨second, moved, last⟩ := run_cons_iff.mp later
  obtain ⟨third, submitted, ended⟩ := run_cons_iff.mp last
  obtain ⟨-, rfl⟩ := Processors.step_choose_iff.mp chose
  obtain ⟨one, -, -, rfl⟩ := Processors.step_move_iff.mp moved
  obtain ⟨two, -, -, rfl⟩ := Processors.step_submit_iff.mp submitted
  obtain rfl := Option.some.inj ended
  intro other three found
  rcases Processors.update_eq_some found with ⟨-, gone⟩ | ⟨apart, found⟩
  · cases gone
  rcases Processors.update_eq_some found with ⟨same, -⟩ | ⟨-, found⟩
  · exact absurd same apart
  rcases Processors.update_eq_some found with ⟨same, -⟩ | ⟨-, found⟩
  · exact absurd same apart
  · exact free other three found

/-- A call with nothing in between is in turn. -/
theorem inTurn_call {call : Syscall} (free : Free cgroupId state) :
    Along Processors.step (InTurn cgroupId index) state (Processors.callActions cpu call) := by
  intro past action rest state' shape ran
  match past, shape with
  | [], shape =>
      obtain ⟨rfl, -⟩ := List.cons.inj shape
      obtain rfl := Option.some.inj ran
      exact fun _ => free
  | [_], shape =>
      obtain ⟨-, shape⟩ := List.cons.inj shape
      obtain ⟨rfl, -⟩ := List.cons.inj shape
      trivial
  | [_, _], shape =>
      obtain ⟨-, shape⟩ := List.cons.inj shape
      obtain ⟨-, shape⟩ := List.cons.inj shape
      obtain ⟨rfl, -⟩ := List.cons.inj shape
      trivial
  | _ :: _ :: _ :: _, shape =>
      have := congrArg List.length shape
      simp [Processors.callActions] at this

/-- Calls one after the other are in turn. -/
theorem inTurn_calls {calls : List Syscall} (free : Free cgroupId state) :
    Along Processors.step (InTurn cgroupId index) state (calls.flatMap (Processors.callActions cpu)) := by
  induction calls generalizing state with
  | nil => exact along_nil
  | cons call rest ih =>
      rw [List.flatMap_cons]
      exact (inTurn_call free).append fun next ran => ih (free.call ran)

end Calls

/-! ### Runs of several sources -/

/-- An arm of credits for a source on the cgroup 7. -/
def sourceArm (source : String) (count : Int64) : Engine.Action :=
  .arm ⟨ascii "shop", ascii "cart", [], ascii source, 1, count⟩ (some (7, [])) ⟨none, true⟩

/-- A `recvfrom` of the cgroup 7. -/
def recvfrom (reserved : Bool) : Syscall :=
  ⟨7, 45, 0, 1, reserved⟩

/-- A `recvfrom` with nothing in between. -/
def recvfromAlone (reserved : Bool) : List Processors.Action :=
  Processors.callActions 0 (recvfrom reserved)

/-- The parts of `on_ring_event`, with a system call between the lookup and the update of the
first. -/
def overtakenEvent : List Processors.Action :=
  [.other .beginEvent] ++ recvfromAlone true ++
    [.other (.finishConsume true), .other .accountTrigger, .other (.inject none), .other .accountInjection]

/-- Two processors that read the cursor before either writes it. -/
def lockstep : List Processors.Action :=
  [.choose 0 (recvfrom true), .choose 1 (recvfrom true), .move 0, .move 1, .submit 0, .submit 1]

/-- Two sources with credits and an event of each; the cursor is at the second slot. -/
def twoSources : Engine :=
  (run step (init 1000)
    [sourceArm "a" 100, sourceArm "b" 100, .receive (recvfrom true), .receive (recvfrom true)]).getD (init 1000)

/-- Eight sources with credits and an event of the last; the cursor is at the first slot. -/
def eightSources : Engine :=
  (run step (init 1000)
    (["a", "b", "c", "d", "e", "f", "g", "h"].map (sourceArm · 100) ++ [.receive (recvfrom true)])).getD (init 1000)

end Engine

end Mcoz
