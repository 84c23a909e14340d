/-
Queued events and later arms.

The BPF program queues an event against a credit and leaves the credit in its slot; the daemon takes
it when it drains the queue. Several events can be queued against one credit, and an event that
comes too late finds either nothing or the credits of a later arm. `armed_credits_kept_iff` says
which: the credits of an arm are safe until the next system call of the cgroup if and only if no
event of their account is queued at the arm, or their delay is zero and no event can take them.
-/

import Mcoz.Engine.Drain

set_option autoImplicit false

namespace Mcoz.Engine

open Word Machine

/-- The steps that may follow an arm for the account: everything but system calls of its cgroup,
further arms for it, and clears. -/
def Later (account : Account) (_ : Engine) : Action → Prop
  | .arm req found _ => ∀ resolved,
      resolveTarget req.ns req.pod req.container found = some resolved →
      account ≠ (resolved.cgroupId, req.sourceKey)
  | .receive call => call.cgroupId ≠ account.1
  | .clear _ _ => False
  | _ => True

/-- The account has these credits after every run of such steps. -/
def KeepsCredits (account : Account) (engine : Engine) (credits : ℤ) : Prop :=
  ∀ actions final, Along step (Later account) engine actions →
    run step engine actions = some final → final.slotCredits account = credits

/-- No event of the account is queued or under way to its credit. -/
structure Unqueued (account : Account) (engine : Engine) : Prop where
  queued : ∀ event ∈ engine.events, event.account ≠ account
  consuming : ∀ event copy, engine.poll = .consuming event copy → event.account ≠ account

/-- The slot of the account, if there is one, has the delay. -/
def HasDelay (account : Account) (delayNs : UInt64) (engine : Engine) : Prop :=
  ∀ i, ((engine.victimCfg account.1).slots i).sourceKey = account.2 →
    ((engine.victimCfg account.1).slots i).delayNs = delayNs

section Step

variable {account : Account} {engine next : Engine} {action : Action} {delayNs : UInt64}

theorem Unqueued.step (unqueued : Unqueued account engine) (later : Later account engine action)
    (moved : engine.step action = some next) : Unqueued account next := by
  have quiet : next.events = engine.events → next.poll.locked = false → Unqueued account next := by
    intro same unlocked
    refine ⟨by rw [same]; exact unqueued.queued, fun event copy consuming => ?_⟩
    rw [consuming] at unlocked
    cases unlocked
  cases effect_of_step moved with
  | armFailed unlocked => exact quiet rfl unlocked
  | armed unlocked => exact quiet rfl unlocked
  | policyKept => exact unqueued
  | policyApplied unlocked => exact quiet rfl unlocked
  | recommended unlocked => exact quiet rfl unlocked
  | recommendedFailed => exact unqueued
  | cleared => exact later.elim
  | ignored => exact unqueued
  | @received call cfg chosen events stats value eligible queued =>
      refine ⟨fun event member => ?_, unqueued.consuming⟩
      rcases queued with rfl | rfl
      · exact unqueued.queued event member
      · rcases List.mem_append.mp member with old | new
        · exact unqueued.queued event old
        · rw [List.mem_singleton.mp new]
          exact fun same => later (congrArg Prod.fst same)
  | @began head rest idle queued =>
      refine ⟨fun event member => unqueued.queued event ?_, ?_⟩
      · rw [queued]
        exact List.mem_cons_of_mem _ member
      · rintro event copy ⟨⟩
        exact unqueued.queued head (by rw [queued]; exact List.mem_cons_self)
  | dropped => exact quiet rfl rfl
  | consumed => exact quiet rfl rfl
  | triggered => exact quiet rfl rfl
  | injected => exact quiet rfl rfl
  | settled => exact quiet rfl rfl

/-- A later step leaves the delay of the account's slot alone. -/
theorem HasDelay.step (hasDelay : HasDelay account delayNs engine) (inv : Inv engine)
    (later : Later account engine action) (moved : engine.step action = some next) :
    HasDelay account delayNs next := by
  cases effect_of_step moved with
  | @armed req found updates resolved cfg index _ _ target armed =>
      intro i holds
      rw [armSucceeded_victimCfg] at holds ⊢
      by_cases here : account.1 = resolved.cgroupId
      · rw [if_pos here] at holds ⊢
        obtain ⟨-, written, -, -⟩ := VictimCfg.arm_spec armed
        rw [written] at holds ⊢
        by_cases same : i = index
        · rw [same, Function.update_self] at holds
          exact absurd (Prod.ext here holds.symm) (later resolved target)
        · rw [Function.update_of_ne same] at holds ⊢
          rw [← here] at holds ⊢
          exact hasDelay i holds
      · rw [if_neg here] at holds ⊢
        exact hasDelay i holds
  | cleared => exact later.elim
  | received value =>
      intro i
      rw [received_slots value rfl]
      exact hasDelay i
  | @consumed event copy result _ consuming taken _ =>
      intro i holds
      rw [creditConsumed_victimCfg] at holds ⊢
      by_cases here : account.1 = event.cgroupId
      · rw [if_pos here] at holds ⊢
        obtain ⟨copied, rfl, consumed⟩ := Option.bind_eq_some_iff.mp taken
        obtain ⟨live, value, agrees⟩ := inv.copy consuming
        obtain ⟨index, -, -, -, shape, -⟩ := VictimCfg.consumeCredit_spec consumed
        have current : (engine.victimCfg account.1).slots = copied.slots := by
          rw [here, victimCfg, value, Option.getD_some, agrees.slots]
        have before := hasDelay i
        rw [current] at before
        rw [shape] at holds ⊢
        by_cases same : i = index
        · subst same
          simp only [VictimCfg.decrement, Function.update_self] at holds ⊢
          exact before holds
        · simp only [VictimCfg.decrement, Function.update_of_ne same] at holds ⊢
          exact before holds
      · rw [if_neg here] at holds ⊢
        exact hasDelay i holds
  | _ => exact hasDelay

/-- A later step takes credits from the account only if an event of it is under way and its slot has
a delay. -/
theorem slotCredits_of_later (inv : Inv engine) (later : Later account engine action)
    (safe : (∀ event copy, engine.poll = .consuming event copy → event.account ≠ account) ∨
      HasDelay account 0 engine)
    (moved : engine.step action = some next) :
    next.slotCredits account = engine.slotCredits account := by
  cases effect_of_step moved with
  | @armed req found updates resolved cfg index _ _ target armed =>
      have other := later resolved target
      simp only [slotCredits, armSucceeded_victimCfg]
      by_cases here : account.1 = resolved.cgroupId
      · rw [if_pos here, here, (inv.victimCfg_wellFormed _).creditsFor_armed
          req.sourceKey_ne_zero armed, if_neg fun same => other (Prod.ext here same)]
      · rw [if_neg here]
  | cleared => exact later.elim
  | received value => exact VictimCfg.creditsFor_congr (received_slots value rfl account.1) _
  | @consumed event copy result _ consuming taken _ =>
      rw [slotCredits_creditConsumed inv consuming taken]
      by_cases same : account = event.account
      · rcases safe with apart | undelayed
        · exact absurd same.symm (apart event copy consuming)
        · -- The slot that the event takes from has a delay, the account's slot has none.
          obtain ⟨copied, rfl, consumed⟩ := Option.bind_eq_some_iff.mp taken
          obtain ⟨live, value, agrees⟩ := inv.copy consuming
          obtain ⟨index, holds, delayed, -, -, -⟩ := VictimCfg.consumeCredit_spec consumed
          have current : (engine.victimCfg account.1).slots = copied.slots := by
            rw [same, ConsumeEvent.account, victimCfg, value, Option.getD_some, agrees.slots]
          refine absurd ?_ delayed
          rw [← current]
          refine undelayed index ?_
          rw [current, holds, same]
          rfl
      · rw [if_neg same]
  | _ => rfl

end Step

/-! ### Where the credits stay -/

section Runs

variable {account : Account} {engine final : Engine} {actions : List Action}

/-- The credits stay as long as something holds that every step keeps and under which it leaves them. -/
theorem credits_of_still {still : Engine → Prop} (inv : Inv engine) (now : still engine)
    (stays : ∀ {engine next : Engine} {action : Action}, Inv engine → still engine → Later account engine action →
      step engine action = some next → still next ∧ next.slotCredits account = engine.slotCredits account)
    (later : Along step (Later account) engine actions) (ran : run step engine actions = some final) :
    final.slotCredits account = engine.slotCredits account := by
  have kept := invariant_along
    (fun state => Inv state ∧ still state ∧ state.slotCredits account = engine.slotCredits account)
    ⟨inv, now, rfl⟩
    (fun _ _ _ holds later moved =>
      have next := stays holds.1 holds.2.1 later moved
      ⟨holds.1.step moved, next.1, next.2.trans holds.2.2⟩)
    later ran
  exact kept.2.2

theorem credits_of_unqueued (inv : Inv engine) (unqueued : Unqueued account engine)
    (later : Along step (Later account) engine actions)
    (ran : run step engine actions = some final) :
    final.slotCredits account = engine.slotCredits account :=
  credits_of_still inv unqueued
    (fun inv unqueued later moved =>
      ⟨unqueued.step later moved, slotCredits_of_later inv later (Or.inl unqueued.consuming) moved⟩)
    later ran

theorem credits_of_undelayed (inv : Inv engine) (undelayed : HasDelay account 0 engine)
    (later : Along step (Later account) engine actions)
    (ran : run step engine actions = some final) :
    final.slotCredits account = engine.slotCredits account :=
  credits_of_still inv undelayed
    (fun inv undelayed later moved =>
      ⟨undelayed.step inv later moved, slotCredits_of_later inv later (Or.inr undelayed) moved⟩)
    later ran

theorem later_of_poll (account : Account) (engine : Engine) {action : Action}
    (poll : action.isPoll = true) : Later account engine action := by
  cases action <;> trivial

theorem hasDelay_of_later {delayNs : UInt64} (inv : Inv engine)
    (hasDelay : HasDelay account delayNs engine) (later : Along step (Later account) engine actions)
    (ran : run step engine actions = some final) : HasDelay account delayNs final := by
  have kept := invariant_along (fun state => Inv state ∧ HasDelay account delayNs state)
    ⟨inv, hasDelay⟩
    (fun _ _ _ holds later moved => ⟨holds.1.step moved, holds.2.step holds.1 later moved⟩)
    later ran
  exact kept.2

end Runs

/-! ### Where they go -/

/-- An event at the head of the queue takes a credit of its account, if the slot has a delay. -/
theorem takeCredit {engine : Engine} (inv : Inv engine) {event : ConsumeEvent}
    {rest : List ConsumeEvent} (idle : engine.poll = .idle) (queued : engine.events = event :: rest)
    {delayNs : UInt64} (hasDelay : HasDelay event.account delayNs engine) (delayed : delayNs ≠ 0)
    (credited : 0 < engine.slotCredits event.account) : ∃ final,
    run step engine [.beginEvent, .finishConsume true] = some final ∧
      final.slotCredits event.account = engine.slotCredits event.account - 1 := by
  have began := step_beginEvent idle queued
  have consuming : (engine.atHead event rest).poll =
      .consuming event (engine.victimMap event.cgroupId) := rfl
  obtain ⟨result, taken⟩ : ∃ result,
      consumption event (engine.victimMap event.cgroupId) = some result := by
    cases value : engine.victimMap event.cgroupId with
    | none =>
        rw [slotCredits, victimCfg, ConsumeEvent.account, value] at credited
        rw [show (none.getD VictimCfg.zero).creditsFor event.sourceKey = 0 from
          VictimCfg.creditsFor_of_zero _] at credited
        exact absurd credited (lt_irrefl 0)
    | some cfg =>
        have live : engine.victimCfg event.cgroupId = cfg := by rw [victimCfg, value]; rfl
        rw [slotCredits, ConsumeEvent.account, live] at credited
        have consumed := (inv.wellFormed _ _ value).consumeCredit_isSome (inv.enabled _ _ value)
          credited (fun i holds _ => ?_) event.slotIndex
        · exact Option.isSome_iff_exists.mp consumed
        · have delay := hasDelay i
          rw [ConsumeEvent.account, live] at delay
          rw [delay holds]
          exact delayed
  refine ⟨(engine.atHead event rest).creditConsumed event result, ?_, ?_⟩
  · rw [run_cons_of began]
    simp [run, step, finishConsume, consuming, taken]
  · rw [slotCredits_creditConsumed (inv.step began) consuming taken, if_pos rfl]
    rfl

/-- If an event of the account is queued, the poll thread takes a credit of it. -/
theorem takeFirst {account : Account} {delayNs : UInt64} (delayed : delayNs ≠ 0) :
    ∀ (events : List ConsumeEvent) {engine : Engine}, Inv engine → engine.poll = .idle →
      engine.events = events → (∃ event ∈ events, event.account = account) →
      HasDelay account delayNs engine → 0 < engine.slotCredits account →
      ∃ actions final, PollOnly actions ∧ run step engine actions = some final ∧
        final.slotCredits account = engine.slotCredits account - 1
  | [], _, _, _, _, stale, _, _ => by simp at stale
  | event :: rest, engine, inv, idle, queued, stale, hasDelay, credited => by
      by_cases own : event.account = account
      · subst own
        obtain ⟨final, ran, credits⟩ := takeCredit inv idle queued hasDelay delayed credited
        exact ⟨_, final, by simp [PollOnly, Action.isPoll], ran, credits⟩
      · obtain ⟨here, middle, poll, ran, idle, queued, others⟩ := takeEvent inv idle queued
        have same := others account own
        have stale : ∃ event ∈ rest, event.account = account := by
          obtain ⟨other, member, holds⟩ := stale
          rcases List.mem_cons.mp member with rfl | later
          · exact absurd holds own
          · exact ⟨other, later, holds⟩
        have later : Along step (Later account) engine here :=
          along_of_mem fun state action member => later_of_poll account state (poll action member)
        obtain ⟨there, final, poll', ran', credits⟩ := takeFirst delayed rest (inv.run ran) idle
          queued stale (hasDelay_of_later inv hasDelay later ran) (by rw [same]; exact credited)
        exact ⟨here ++ there, final, pollOnly_append poll poll', run_append_of ran ran',
          by rw [credits, same]⟩

/-! ### The credits of an arm -/

/-- An arm gives the delay to the slot of its account, and its credits to an account without. -/
theorem armed_slot {engine next : Engine} (inv : Inv engine) {req : RequestArmRequest}
    {found : Option (UInt64 × Bytes)} {updates : ArmUpdates} {resolved : ResolvedTarget}
    (target : resolveTarget req.ns req.pod req.container found = some resolved)
    (moved : engine.step (.arm req found updates) = some next)
    (ok : (engine.arm req found updates).2.ok = true)
    (spent : engine.slotCredits (resolved.cgroupId, req.sourceKey) = 0) :
    next.poll.locked = false ∧ next.events = engine.events ∧
      next.slotCredits (resolved.cgroupId, req.sourceKey) = req.count.toInt ∧
      HasDelay (resolved.cgroupId, req.sourceKey) (engine.armDelay req resolved.cgroupId) next := by
  cases effect_of_step moved with
  | armFailed _ failed => cases failed.symm.trans ok
  | @armed _ _ _ other cfg index unlocked count same armed =>
      cases same.symm.trans target
      have wellFormed := (inv.victimCfg_wellFormed resolved.cgroupId).arm req.sourceKey_ne_zero
        armed
      have upper := req.count.toInt_lt
      refine ⟨unlocked, rfl, ?_, ?_⟩
      · rw [slotCredits_armSucceeded inv count (by omega) armed, if_pos rfl, spent]
        omega
      · intro i holds
        obtain ⟨-, written, -, -⟩ := VictimCfg.arm_spec armed
        rw [armSucceeded_victimCfg, if_pos rfl] at holds ⊢
        have here : (cfg.slots index).sourceKey = req.sourceKey := by
          rw [written, Function.update_self]
          rfl
        have same := wellFormed.keysDistinct i index
          (by rw [holds]; exact req.sourceKey_ne_zero) (holds.trans here.symm)
        rw [same, written, Function.update_self]
        rfl

/-- An arm finds its account without credits. Its own credits stay in the slot until the next system
call of the cgroup, whatever the poll thread and the other sources do, if and only if no event of
the account is queued at the arm, or the arm gives no delay. -/
theorem armed_credits_kept_iff {defaultDelayNs : UInt64} {past : List Action} {engine next : Engine}
    (ran : run step (init defaultDelayNs) past = some engine) {req : RequestArmRequest}
    {found : Option (UInt64 × Bytes)} {updates : ArmUpdates} {resolved : ResolvedTarget}
    (target : resolveTarget req.ns req.pod req.container found = some resolved)
    (spent : engine.slotCredits (resolved.cgroupId, req.sourceKey) = 0)
    (moved : engine.step (.arm req found updates) = some next)
    (ok : (engine.arm req found updates).2.ok = true) (positive : 1 ≤ req.count.toInt) :
    KeepsCredits (resolved.cgroupId, req.sourceKey) next req.count.toInt ↔
    (∀ event ∈ engine.events, event.account ≠ (resolved.cgroupId, req.sourceKey)) ∨
      engine.armDelay req resolved.cgroupId = 0 := by
  have inv := inv_of_run ran
  obtain ⟨unlocked, events, credits, hasDelay⟩ := armed_slot inv target moved ok spent
  have armedInv := inv.step moved
  constructor
  · intro kept
    by_contra stale
    obtain ⟨queued, delayed⟩ := not_or.mp stale
    obtain ⟨event, member, own⟩ : ∃ event ∈ engine.events,
        event.account = (resolved.cgroupId, req.sourceKey) := by
      by_contra unqueued
      exact queued fun event member own => unqueued ⟨event, member, own⟩
    -- The poll thread finishes its event and then drains the queue down to the stale one.
    obtain ⟨first, start, poll, ran, idle, same, map, -⟩ := settle unlocked
    have later := fun (state : Engine) (action : Action) (member : action ∈ first) =>
      later_of_poll (resolved.cgroupId, req.sourceKey) state (poll action member)
    have before : start.slotCredits (resolved.cgroupId, req.sourceKey) = req.count.toInt := by
      rw [slotCredits_congr map, credits]
    obtain ⟨second, final, poll', ran', taken⟩ := takeFirst delayed start.events (armedInv.run ran)
      idle rfl ⟨event, by rw [same, events]; exact member, own⟩
      (hasDelay_of_later armedInv hasDelay (along_of_mem later) ran) (by omega)
    have kept := kept (first ++ second) final
      (along_of_mem fun state action member => later_of_poll _ state
        (pollOnly_append poll poll' action member))
      (run_append_of ran ran')
    omega
  · rintro (queued | undelayed) actions final later ran
    · have unqueued : Unqueued (resolved.cgroupId, req.sourceKey) next := by
        refine ⟨by rw [events]; exact queued, fun event copy consuming => ?_⟩
        rw [consuming] at unlocked
        cases unlocked
      rw [credits_of_unqueued armedInv unqueued later ran, credits]
    · rw [undelayed] at hasDelay
      rw [credits_of_undelayed armedInv hasDelay later ran, credits]

/-- One credit, two system calls that queue an event each, and the processing of the first. -/
def staleRun : List Action :=
  [sampleArm 1, sampleReceive, sampleReceive, .beginEvent, .finishConsume true, .accountTrigger,
    .inject none, .accountInjection]

/-- The engine after `staleRun`: no credit is left and one event is queued. -/
def staleEngine : Engine :=
  (run step (init 1000) staleRun).getD (init 1000)

/-- The engine after one more arm. -/
def rearmedEngine : Engine :=
  (staleEngine.step (sampleArm 1)).getD staleEngine

/-- The hypotheses of `armed_credits_kept_iff` are met by the arm after `staleRun`. -/
theorem armed_credits_kept_iff_sample :
    KeepsCredits sampleAccount rearmedEngine 1 ↔
      (∀ event ∈ staleEngine.events, event.account ≠ sampleAccount) ∨
        staleEngine.armDelay (sampleRequest 1) 7 = 0 := by
  have ran : run step (init 1000) staleRun = some staleEngine := rfl
  have moved : staleEngine.step (sampleArm 1) = some rearmedEngine := rfl
  obtain ⟨resolved, target, same⟩ : ∃ resolved, resolveTarget (ascii "shop") (ascii "cart") []
      (some (7, ascii "/sys/fs/cgroup/cart")) = some resolved ∧ resolved.cgroupId = 7 :=
    ⟨_, rfl, rfl⟩
  have exact := armed_credits_kept_iff ran target (by rw [same]; decide) moved (by decide) (by decide)
  rw [same] at exact
  exact exact

/-- The event that `staleRun` leaves in the queue takes the credit of the arm that follows. -/
theorem stale_event_takes_credit :
    run step (init 1000) staleRun = some staleEngine ∧
      staleEngine.slotCredits sampleAccount = 0 ∧
      staleEngine.step (sampleArm 1) = some rearmedEngine ∧
      rearmedEngine.slotCredits sampleAccount = 1 ∧
      ¬ KeepsCredits sampleAccount rearmedEngine 1 := by
  refine ⟨rfl, by decide, rfl, by decide, fun kept => ?_⟩
  have later : Along step (Later sampleAccount) rearmedEngine [.beginEvent, .finishConsume true] :=
    along_of_mem fun state action member => later_of_poll _ state (by
      rcases List.mem_pair.mp member with rfl | rfl <;> rfl)
  exact absurd (kept _ _ later rfl) (by decide)

end Mcoz.Engine
