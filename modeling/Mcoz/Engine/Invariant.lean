/-
The invariant of the engine, over every run.

`Inv` says that every map value is well formed, enabled and on record in `victims_`, and that the
copy which the poll thread works on under `mu_` agrees with the map value but for the cursor, the
one field that the BPF program writes. Every step keeps it (`Inv.step`), also an arm whose sum
wraps, since the sum is clamped. `Spendable` adds the delays.

The main result, `slotTable_invariant`, is the representation invariant of the slot tables with its
two consequences for `arm`.
-/

import Mcoz.Engine.Effect

set_option autoImplicit false

namespace Mcoz.Engine

open Word Machine

/-! ### The invariant -/

/-- A copy that agrees with the live map value but for the cursor. -/
structure Current (live copy : VictimCfg) : Prop where
  wellFormed : copy.WellFormed
  slots : copy.slots = live.slots
  enabled : copy.enabled = live.enabled

/-- What holds in every state of the engine. -/
structure Inv (engine : Engine) : Prop where
  active : engine.active = true
  wellFormed : ∀ cgroupId cfg, engine.victimMap cgroupId = some cfg → cfg.WellFormed
  enabled : ∀ cgroupId cfg, engine.victimMap cgroupId = some cfg → cfg.enabled ≠ 0
  known : ∀ cgroupId, (engine.victimMap cgroupId).isSome → (engine.victims cgroupId).isSome
  current : ∀ event copy, engine.poll = .consuming event copy →
    Option.Rel Current (engine.victimMap event.cgroupId) copy

/-- Every outstanding credit has a delay, and so will those armed later. -/
structure Spendable (engine : Engine) : Prop where
  defaultDelay : 0 < engine.defaultDelayNs
  consumable : ∀ cgroupId cfg, engine.victimMap cgroupId = some cfg → cfg.Consumable

theorem inv_init (defaultDelayNs : UInt64) : Inv (init defaultDelayNs) where
  active := rfl
  wellFormed := by simp [init]
  enabled := by simp [init]
  known := by simp [init]
  current := by simp [init]

theorem spendable_init {defaultDelayNs : UInt64} (delayed : 0 < defaultDelayNs) :
    Spendable (init defaultDelayNs) where
  defaultDelay := delayed
  consumable := by simp [init]

section Rules

variable {engine next : Engine}

theorem Inv.victimCfg_wellFormed (inv : Inv engine) (cgroupId : UInt64) :
    (engine.victimCfg cgroupId).WellFormed := by
  unfold victimCfg
  cases value : engine.victimMap cgroupId with
  | none => exact VictimCfg.zero_wellFormed
  | some cfg => exact inv.wellFormed cgroupId cfg value

theorem Spendable.victimCfg_consumable (spendable : Spendable engine) (cgroupId : UInt64) :
    (engine.victimCfg cgroupId).Consumable := by
  unfold victimCfg
  cases value : engine.victimMap cgroupId with
  | none => exact VictimCfg.zero_consumable
  | some cfg => exact spendable.consumable cgroupId cfg value

theorem Inv.slotCredits_nonneg (inv : Inv engine) (account : Account) :
    0 ≤ engine.slotCredits account :=
  (inv.victimCfg_wellFormed account.1).creditsFor_nonneg account.2

/-- The copy of a consumption is the live value, as far as the credits go. -/
theorem Inv.copy (inv : Inv engine) {event : ConsumeEvent} {copied : VictimCfg}
    (consuming : engine.poll = .consuming event (some copied)) :
    ∃ live, engine.victimMap event.cgroupId = some live ∧ Current live copied := by
  have related := inv.current event (some copied) consuming
  cases value : engine.victimMap event.cgroupId with
  | none =>
      rw [value] at related
      nomatch related
  | some live =>
      rw [value] at related
      cases related with
      | some agrees => exact ⟨live, rfl, agrees⟩

/-- A record is changed or made; none is lost. -/
theorem modified_isSome {key : UInt64} {change : VictimRuntime → VictimRuntime}
    (written : next.victims = modifyEntry engine.victims key change) :
    (∀ cgroupId, (engine.victims cgroupId).isSome → (next.victims cgroupId).isSome) ∧
      (next.victims key).isSome := by
  rw [written]
  exact ⟨fun _ => modifyEntry_isSome, modifyEntry_self_isSome _ _ _⟩

/-- A step that leaves the map alone. -/
theorem Inv.quiet (inv : Inv engine) (active : next.active = engine.active)
    (same : next.victimMap = engine.victimMap)
    (kept : ∀ cgroupId, (engine.victims cgroupId).isSome → (next.victims cgroupId).isSome)
    (unlocked : next.poll.locked = false) : Inv next where
  active := active.trans inv.active
  wellFormed := by rw [same]; exact inv.wellFormed
  enabled := by rw [same]; exact inv.enabled
  known := by rw [same]; exact fun cgroupId value => kept cgroupId (inv.known cgroupId value)
  current := by
    intro event copy consuming
    rw [consuming] at unlocked
    cases unlocked

/-- A step that writes one map value. -/
theorem Inv.write (inv : Inv engine) {key : UInt64} {cfg : VictimCfg}
    (active : next.active = engine.active)
    (written : next.victimMap = Function.update engine.victimMap key (some cfg))
    (wellFormed : cfg.WellFormed) (enabled : cfg.enabled ≠ 0)
    (kept : ∀ cgroupId, (engine.victims cgroupId).isSome → (next.victims cgroupId).isSome)
    (recorded : (next.victims key).isSome)
    (current : ∀ event copy, next.poll = .consuming event copy →
      Option.Rel Current (next.victimMap event.cgroupId) copy) : Inv next where
  active := active.trans inv.active
  wellFormed := by
    intro cgroupId other value
    rw [written] at value
    by_cases same : cgroupId = key
    · rw [same, Function.update_self] at value
      cases value
      exact wellFormed
    · rw [Function.update_of_ne same] at value
      exact inv.wellFormed cgroupId other value
  enabled := by
    intro cgroupId other value
    rw [written] at value
    by_cases same : cgroupId = key
    · rw [same, Function.update_self] at value
      cases value
      exact enabled
    · rw [Function.update_of_ne same] at value
      exact inv.enabled cgroupId other value
  known := by
    intro cgroupId value
    by_cases same : cgroupId = key
    · rw [same]
      exact recorded
    · rw [written, Function.update_of_ne same] at value
      exact kept cgroupId (inv.known cgroupId value)
  current := current

theorem not_consuming (unlocked : next.poll.locked = false) :
    ∀ event copy, next.poll = .consuming event copy →
      Option.Rel Current (next.victimMap event.cgroupId) copy := by
  intro event copy consuming
  rw [consuming] at unlocked
  cases unlocked

theorem Spendable.quiet (spendable : Spendable engine)
    (default : next.defaultDelayNs = engine.defaultDelayNs)
    (same : next.victimMap = engine.victimMap) : Spendable next where
  defaultDelay := by rw [default]; exact spendable.defaultDelay
  consumable := by rw [same]; exact spendable.consumable

theorem Spendable.write (spendable : Spendable engine) {key : UInt64} {cfg : VictimCfg}
    (default : next.defaultDelayNs = engine.defaultDelayNs)
    (written : next.victimMap = Function.update engine.victimMap key (some cfg))
    (consumable : cfg.Consumable) : Spendable next where
  defaultDelay := by rw [default]; exact spendable.defaultDelay
  consumable := by
    intro cgroupId other value
    rw [written] at value
    by_cases same : cgroupId = key
    · rw [same, Function.update_self] at value
      cases value
      exact consumable
    · rw [Function.update_of_ne same] at value
      exact spendable.consumable cgroupId other value

end Rules

/-! ### One step -/

section Step

variable {engine next : Engine} {action : Action}

theorem clear_victimMap {clearCredits : Bool} {updated : UInt64 → Bool} {cgroupId : UInt64}
    {cfg : VictimCfg} (value : (engine.clear clearCredits updated).victimMap cgroupId = some cfg) :
    ∃ before, engine.victimMap cgroupId = some before ∧
      (cfg = before ∨ cfg = before.clearCredits) := by
  simp only [clear] at value
  split at value
  · obtain ⟨before, held, rfl⟩ := Option.map_eq_some_iff.mp value
    exact ⟨before, held, Or.inr rfl⟩
  · exact ⟨cfg, value, Or.inl rfl⟩

theorem Inv.clear (inv : Inv engine) (clearCredits : Bool) (updated : UInt64 → Bool)
    (unlocked : engine.poll.locked = false) : Inv (engine.clear clearCredits updated) where
  active := inv.active
  wellFormed := by
    intro cgroupId cfg value
    obtain ⟨before, held, rfl | rfl⟩ := clear_victimMap value
    · exact inv.wellFormed cgroupId cfg held
    · exact (inv.wellFormed cgroupId before held).clearCredits
  enabled := by
    intro cgroupId cfg value
    obtain ⟨before, held, rfl | rfl⟩ := clear_victimMap value
    · exact inv.enabled cgroupId cfg held
    · exact inv.enabled cgroupId before held
  known := by
    intro cgroupId value
    obtain ⟨cfg, value⟩ := Option.isSome_iff_exists.mp value
    obtain ⟨before, held, -⟩ := clear_victimMap value
    have record := inv.known cgroupId (by rw [held]; rfl)
    simpa [Engine.clear] using record
  current := not_consuming unlocked

/-- The BPF program moves the cursor, also under the poll thread's copy. -/
theorem Inv.received (inv : Inv engine) {call : Syscall} {cfg : VictimCfg} {chosen : SlotIndex}
    (value : engine.victimMap call.cgroupId = some cfg) (events : List ConsumeEvent)
    (stats : GlobalStats) :
    Inv { engine with
      victimMap := Function.update engine.victimMap call.cgroupId (some (cfg.advanceCursor chosen))
      events := events
      globalStats := stats } := by
  refine inv.write rfl rfl ((inv.wellFormed _ _ value).advanceCursor chosen)
    (inv.enabled _ cfg value) (fun _ known => known) (inv.known _ (by rw [value]; rfl)) ?_
  intro event copy consuming
  have related := inv.current event copy consuming
  by_cases same : event.cgroupId = call.cgroupId
  · simp only [same, Function.update_self]
    rw [same, value] at related
    cases related with
    | some agrees => exact .some ⟨agrees.wellFormed, agrees.slots, agrees.enabled⟩
  · simp only [Function.update_of_ne same]
    exact related

/-- Every step keeps the invariant. -/
theorem Inv.step (inv : Inv engine)
    (moved : engine.step action = some next) : Inv next := by
  cases effect_of_step moved with
  | armFailed unlocked => exact inv.quiet rfl rfl (fun _ known => known) unlocked
  | @armed req _ updates resolved cfg _ unlocked count target armed updated =>
      have recorded := modified_isSome
        (engine.armSucceeded_victims req resolved cfg updates.policyUpdated)
      refine inv.write rfl rfl ?_ ?_ recorded.1 recorded.2 (not_consuming unlocked)
      · exact (inv.victimCfg_wellFormed resolved.cgroupId).arm req.sourceKey_ne_zero armed
      · rw [(VictimCfg.arm_spec armed).2.2.2]
        decide
  | policyKept => exact inv
  | policyApplied unlocked =>
      exact inv.quiet rfl rfl (modified_isSome (engine.policyApplied_victims _ _)).1 unlocked
  | recommendedFailed => exact inv
  | recommended unlocked => exact inv.quiet rfl rfl (fun _ known => known) unlocked
  | cleared unlocked => exact inv.clear _ _ unlocked
  | ignored => exact inv
  | received value _ _ => exact inv.received value _ _
  | @began event rest idle queued =>
      refine ⟨inv.active, inv.wellFormed, inv.enabled, inv.known, ?_⟩
      rintro event copy ⟨⟩
      show Option.Rel Current (engine.victimMap event.cgroupId) (engine.victimMap event.cgroupId)
      cases value : engine.victimMap event.cgroupId with
      | none => exact .none
      | some cfg => exact .some ⟨inv.wellFormed _ _ value, rfl, rfl⟩
  | dropped => exact inv.quiet rfl rfl (fun _ known => known) rfl
  | @consumed event copy result _ consuming taken _ =>
      obtain ⟨copied, rfl, consumed⟩ := Option.bind_eq_some_iff.mp taken
      obtain ⟨live, value, agrees⟩ := inv.copy consuming
      obtain ⟨index, -, -, -, shape, -⟩ := VictimCfg.consumeCredit_spec consumed
      have recorded := modified_isSome (engine.creditConsumed_victims event result)
      refine inv.write rfl rfl (agrees.wellFormed.consume consumed) ?_ recorded.1 recorded.2
        (not_consuming rfl)
      rw [shape]
      exact agrees.enabled ▸ inv.enabled _ _ value
  | triggered =>
      exact inv.quiet rfl rfl (modified_isSome (engine.triggerAccounted_victims _ _ _)).1 rfl
  | injected => exact inv.quiet rfl rfl (fun _ known => known) rfl
  | settled =>
      exact inv.quiet rfl rfl (modified_isSome (engine.injectionAccounted_victims _ _ _)).1 rfl

/-- Every step keeps the delays. -/
theorem Spendable.step (spendable : Spendable engine) (inv : Inv engine)
    (moved : engine.step action = some next) : Spendable next := by
  cases effect_of_step moved with
  | @armed req _ _ resolved _ _ _ _ _ armed =>
      refine spendable.write rfl rfl ?_
      exact (spendable.victimCfg_consumable resolved.cgroupId).arm
        (VictimCfg.effectiveDelay_pos _ _ spendable.defaultDelay) armed
  | cleared =>
      refine ⟨spendable.defaultDelay, fun cgroupId cfg value => ?_⟩
      obtain ⟨before, held, rfl | rfl⟩ := clear_victimMap value
      · exact spendable.consumable cgroupId cfg held
      · exact before.clearCredits_consumable
  | @received _ cfg _ _ _ value =>
      exact spendable.write rfl rfl (spendable.consumable _ cfg value)
  | @consumed event copy result _ consuming taken _ =>
      obtain ⟨copied, rfl, consumed⟩ := Option.bind_eq_some_iff.mp taken
      obtain ⟨live, value, agrees⟩ := inv.copy consuming
      have consumable : copied.Consumable := by
        intro i
        rw [agrees.slots]
        exact spendable.consumable _ _ value i
      exact spendable.write rfl rfl (consumable.consume consumed)
  | _ => exact spendable.quiet rfl rfl

end Step

/-! ### Every run -/

section Runs

variable {defaultDelayNs : UInt64} {actions : List Action} {final : Engine}

/-- Every run keeps the invariant. -/
theorem Inv.run {start : Engine} (inv : Inv start)
    (ran : Machine.run Engine.step start actions = some final) : Inv final :=
  Reachable.invariant Inv inv (fun _ _ _ inv moved => inv.step moved) ⟨actions, ran⟩

/-- The invariant holds after every run. -/
theorem inv_of_run (ran : run step (init defaultDelayNs) actions = some final) : Inv final :=
  (inv_init defaultDelayNs).run ran

/-- With a default delay, every outstanding credit has a delay after every run. -/
theorem spendable_of_run (delayed : 0 < defaultDelayNs)
    (ran : run step (init defaultDelayNs) actions = some final) : Spendable final := by
  have both := Reachable.invariant (fun engine => Inv engine ∧ Spendable engine)
    ⟨inv_init defaultDelayNs, spendable_init delayed⟩
    (fun _ _ _ holds moved => ⟨holds.1.step moved, holds.2.step holds.1 moved⟩) ⟨actions, ran⟩
  exact both.2

end Runs

/-! ### What an arm answers -/

/-- An arm that reaches the slot table answers "no free source slots" exactly if the scan finds no
slot. -/
theorem arm_noFreeSourceSlots_iff {engine : Engine} (active : engine.active = true)
    {req : RequestArmRequest} {found : Option (UInt64 × Bytes)} {updates : ArmUpdates}
    {resolved : ResolvedTarget} (count : 0 ≤ req.count.toInt)
    (target : resolveTarget req.ns req.pod req.container found = some resolved) :
    (engine.arm req found updates).2 = .noFreeSourceSlots req.sourceId ↔
      (engine.victimCfg resolved.cgroupId).findSlotForSource req.sourceKey = none := by
  rw [← VictimCfg.arm_eq_none_iff (engine.armDelay req resolved.cgroupId) req.count]
  fun_cases engine.arm req found updates with
  | case1 negative =>
      rw [neg_iff] at negative
      omega
  | case2 _ unresolved => simp [unresolved] at target
  | case3 _ _ _ inactive => simp [active] at inactive
  | case4 _ other same _ full =>
      cases same.symm.trans target
      simpa using full
  | case5 _ other same _ _ _ free =>
      cases same.symm.trans target
      simp [free]
  | case6 _ other same _ _ _ free =>
      cases same.symm.trans target
      simp [free, armedReply]

/-- An arm leaves the credited slots of every other source alone, on every cgroup. -/
theorem Inv.arm_frame {engine : Engine} (inv : Inv engine) (req : RequestArmRequest)
    (found : Option (UInt64 × Bytes)) (updates : ArmUpdates) (cgroupId : UInt64) (i : SlotIndex)
    (other : ((engine.victimCfg cgroupId).slots i).sourceKey ≠ req.sourceKey)
    (credited : 0 < ((engine.victimCfg cgroupId).slots i).credits.toInt) :
    ((engine.arm req found updates).1.victimCfg cgroupId).slots i =
      (engine.victimCfg cgroupId).slots i := by
  rcases arm_cases engine req found updates with
    ⟨failed, -⟩ | ⟨resolved, cfg, index, -, -, armed, -, outcome⟩
  · rw [failed]
    rfl
  · rw [outcome, armSucceeded_victimCfg]
    by_cases same : cgroupId = resolved.cgroupId
    · rw [if_pos same]
      subst same
      exact (inv.victimCfg_wellFormed _).arm_frame req.sourceKey_ne_zero armed i other credited
    · rw [if_neg same]

/-! ### The representation invariant of the slot tables -/

/-- After every run, with a default delay: every slot table is well formed and all its credits can
be consumed; an arm is refused for want of a slot exactly if no slot holds its key and all eight
have credits; and an arm leaves the credited slots of other sources alone. -/
theorem slotTable_invariant {defaultDelayNs : UInt64} (delayed : 0 < defaultDelayNs)
    {actions : List Action} {final : Engine}
    (ran : run step (init defaultDelayNs) actions = some final) :
    (∀ cgroupId cfg, final.victimMap cgroupId = some cfg →
      cfg.WellFormed ∧ cfg.Consumable ∧
        ∀ sourceKey hint, 0 < cfg.creditsFor sourceKey →
          (cfg.consumeCredit sourceKey hint).isSome) ∧
    (∀ (req : RequestArmRequest) (found : Option (UInt64 × Bytes)) (updates : ArmUpdates) resolved,
      0 ≤ req.count.toInt →
      resolveTarget req.ns req.pod req.container found = some resolved →
      ((final.arm req found updates).2 = .noFreeSourceSlots req.sourceId ↔
        (∀ i, ((final.victimCfg resolved.cgroupId).slots i).sourceKey ≠ req.sourceKey) ∧
          ∀ i, 0 < ((final.victimCfg resolved.cgroupId).slots i).credits.toInt)) ∧
    ∀ (req : RequestArmRequest) (found : Option (UInt64 × Bytes)) (updates : ArmUpdates) cgroupId i,
      ((final.victimCfg cgroupId).slots i).sourceKey ≠ req.sourceKey →
      0 < ((final.victimCfg cgroupId).slots i).credits.toInt →
      ((final.arm req found updates).1.victimCfg cgroupId).slots i =
        (final.victimCfg cgroupId).slots i := by
  have inv := inv_of_run ran
  have spendable := spendable_of_run delayed ran
  refine ⟨fun cgroupId cfg value => ?_, ?_, inv.arm_frame⟩
  · have wellFormed := inv.wellFormed cgroupId cfg value
    have consumable := spendable.consumable cgroupId cfg value
    exact ⟨wellFormed, consumable, fun sourceKey hint credited =>
      wellFormed.consumeCredit_isSome (inv.enabled cgroupId cfg value) credited
        (fun i _ => consumable i) hint⟩
  · intro req found updates resolved count target
    rw [arm_noFreeSourceSlots_iff inv.active count target]
    exact (inv.victimCfg_wellFormed resolved.cgroupId).findSlotForSource_none_iff
      req.sourceKey_ne_zero

/-- A request of credits for `web` on the cgroup of the pod `cart`. -/
def sampleRequest (count : Int64) : RequestArmRequest :=
  ⟨ascii "shop", ascii "cart", [], ascii "web", 0, count⟩

/-- The arm with this request, which finds the cgroup 7 and whose updates succeed. -/
def sampleArm (count : Int64) : Action :=
  .arm (sampleRequest count) (some (7, ascii "/sys/fs/cgroup/cart")) ⟨none, true⟩

/-- The account of the sample requests. -/
def sampleAccount : Account :=
  (7, fnv1a64 (ascii "web"))

/-- The hypotheses of `slotTable_invariant` are met by a run with one arm. -/
theorem slotTable_invariant_sample : ∃ final,
    run step (init 1000) [sampleArm 5] = some final ∧
      ∀ cgroupId cfg, final.victimMap cgroupId = some cfg → cfg.WellFormed ∧ cfg.Consumable := by
  have delayed : (0 : UInt64) < 1000 := by decide
  obtain ⟨final, ran⟩ : ∃ final, run step (init 1000) [sampleArm 5] = some final := ⟨_, rfl⟩
  refine ⟨final, ran, fun cgroupId cfg value => ?_⟩
  have holds := (slotTable_invariant delayed ran).1 cgroupId cfg value
  exact ⟨holds.1, holds.2.1⟩

end Mcoz.Engine
