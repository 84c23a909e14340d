/-
Credit conservation.

The engine is a book of accounts, one account for each source on each cgroup: an arm is a deposit,
a decrement of `consume_credit_locked` a withdrawal. `posts_of_step` says that a step changes the
slot tables exactly as its entries change the book, so the law of `Ledger` holds of every run
(`book_conserved`). `Balanced` ties the runtime counters to the same entries, and
`credits_conserved` puts both together.
-/

import Mcoz.Engine.Invariant

set_option autoImplicit false

namespace Mcoz

open Word Machine

/-- An arm that is answered ok is a deposit of its count. -/
def ArmReply.entries : ArmReply → List (Ledger.Entry Account)
  | .armed _ _ _ cgroupId _ _ count _ sourceKey _ _ =>
      [.deposit (cgroupId, sourceKey) count.toInt.toNat]
  | _ => []

namespace Engine

/-! ### The book -/

/-- The entries of a step: the credits that it arms, the credit that it takes. -/
def entries (engine : Engine) : Action → List (Ledger.Entry Account)
  | .arm req found updates => (engine.arm req found updates).2.entries
  | .finishConsume updated =>
      match engine.poll with
      | .consuming event copy =>
          if (consumption event copy).isSome ∧ updated then [.withdraw event.account 1] else []
      | _ => []
  | _ => []

/-- The delay that a step injects: a call of `ghost_delay_tid` that returns zero. -/
def injections (engine : Engine) : Action → List Account
  | .inject none =>
      match engine.poll with
      | .triggered event _ _ => [event.account]
      | _ => []
  | _ => []

/-- The credits of all accounts. -/
def book (engine : Engine) : Ledger.Book Account :=
  fun account => (engine.slotCredits account).toNat

theorem book_apply (engine : Engine) (account : Account) :
    engine.book account = (engine.slotCredits account).toNat := rfl

/-- The step is not an arm that lands and makes the credits of its source overflow. -/
def Fits (engine : Engine) : Action → Prop
  | .arm req found updates => ∀ resolved,
      resolveTarget req.ns req.pod req.container found = some resolved →
      (engine.arm req found updates).2.ok = true →
      engine.slotCredits (resolved.cgroupId, req.sourceKey) + req.count.toInt < 2 ^ 63
  | _ => True

/-- The step is not a `clear`. -/
def Uncleared (_ : Engine) : Action → Prop
  | .clear _ _ => False
  | _ => True

/-- The guard of the conservation law. -/
def Conserving (engine : Engine) (action : Action) : Prop :=
  Fits engine action ∧ Uncleared engine action

theorem book_init (defaultDelayNs : UInt64) (account : Account) :
    (init defaultDelayNs).book account = 0 := by
  have empty : (init defaultDelayNs).slotCredits account = 0 :=
    VictimCfg.creditsFor_of_zero account.2
  rw [book_apply, empty]
  rfl

section Step

variable {engine next : Engine} {action : Action}

theorem entries_of_failed {reply : ArmReply} (failed : reply.ok = false) : reply.entries = [] := by
  cases reply <;> first | rfl | cases failed

theorem entries_of_armed {req : RequestArmRequest} {found : Option (UInt64 × Bytes)}
    {updates : ArmUpdates} {resolved : ResolvedTarget} {cfg : VictimCfg} {index : SlotIndex}
    (reply : (engine.arm req found updates).2 = engine.armedReply req resolved cfg index) :
    engine.entries (.arm req found updates) =
      [.deposit (resolved.cgroupId, req.sourceKey) req.count.toInt.toNat] := by
  rw [entries, reply]
  rfl

theorem entries_of_dropped {event : ConsumeEvent} {copy : Option VictimCfg} {updated : Bool}
    (consuming : engine.poll = .consuming event copy)
    (refused : consumption event copy = none ∨ updated = false) :
    engine.entries (.finishConsume updated) = [] := by
  rcases refused with refused | unwritten
  · simp [entries, consuming, refused]
  · simp [entries, consuming, unwritten]

theorem entries_of_consumed {event : ConsumeEvent} {copy : Option VictimCfg}
    {result : VictimCfg.Consumption} {updated : Bool}
    (consuming : engine.poll = .consuming event copy)
    (taken : consumption event copy = some result) (wrote : updated = true) :
    engine.entries (.finishConsume updated) = [.withdraw event.account 1] := by
  simp [entries, consuming, taken, wrote]

theorem book_congr (same : ∀ cgroupId, (next.victimCfg cgroupId).slots =
    (engine.victimCfg cgroupId).slots) : next.book = engine.book := by
  funext account
  rw [book, book, slotCredits, slotCredits, VictimCfg.creditsFor_congr (same account.1)]

/-- The cursor does not count. -/
theorem received_slots {call : Syscall} {cfg : VictimCfg} {chosen : SlotIndex}
    (value : engine.victimMap call.cgroupId = some cfg)
    (written : next.victimMap =
      Function.update engine.victimMap call.cgroupId (some (cfg.advanceCursor chosen)))
    (cgroupId : UInt64) :
    (next.victimCfg cgroupId).slots = (engine.victimCfg cgroupId).slots := by
  rw [victimCfg_update written]
  by_cases same : cgroupId = call.cgroupId
  · rw [if_pos same, same, victimCfg, value, Option.getD_some, VictimCfg.advanceCursor_slots]
  · rw [if_neg same]

/-- The credits after a decrement. -/
theorem slotCredits_creditConsumed (inv : Inv engine) {event : ConsumeEvent}
    {copy : Option VictimCfg} {result : VictimCfg.Consumption}
    (consuming : engine.poll = .consuming event copy)
    (taken : consumption event copy = some result) (account : Account) :
    (engine.creditConsumed event result).slotCredits account =
      if account = event.account then engine.slotCredits event.account - 1
      else engine.slotCredits account := by
  obtain ⟨cgroupId, sourceKey⟩ := account
  obtain ⟨copied, rfl, consumed⟩ := Option.bind_eq_some_iff.mp taken
  obtain ⟨live, value, agrees⟩ := inv.copy consuming
  have current : (engine.victimCfg event.cgroupId).slots = copied.slots := by
    rw [victimCfg, value, Option.getD_some, agrees.slots]
  simp only [slotCredits, creditConsumed_victimCfg, ConsumeEvent.account, Prod.mk.injEq]
  by_cases here : cgroupId = event.cgroupId
  · rw [if_pos here, agrees.wellFormed.creditsFor_consume consumed]
    by_cases same : sourceKey = event.sourceKey
    · rw [if_pos same, if_pos ⟨here, same⟩, VictimCfg.creditsFor_congr current]
    · rw [if_neg same, if_neg fun both => same both.2, here, VictimCfg.creditsFor_congr current]
  · rw [if_neg here, if_neg fun both => here both.1]

/-- A decrement takes a credit that was there. -/
theorem slotCredits_pos_of_consumption (inv : Inv engine) {event : ConsumeEvent}
    {copy : Option VictimCfg} {result : VictimCfg.Consumption}
    (consuming : engine.poll = .consuming event copy)
    (taken : consumption event copy = some result) :
    0 < engine.slotCredits event.account := by
  obtain ⟨copied, rfl, consumed⟩ := Option.bind_eq_some_iff.mp taken
  obtain ⟨live, value, agrees⟩ := inv.copy consuming
  have positive := agrees.wellFormed.creditsFor_pos_of_consume consumed
  rwa [VictimCfg.creditsFor_congr agrees.slots,
    show live = engine.victimCfg event.cgroupId by rw [victimCfg, value, Option.getD_some]]
    at positive

/-- The credits after an arm. -/
theorem slotCredits_armSucceeded (inv : Inv engine) {req : RequestArmRequest}
    {resolved : ResolvedTarget} {cfg : VictimCfg} {index : SlotIndex}
    (count : 0 ≤ req.count.toInt)
    (fits : engine.slotCredits (resolved.cgroupId, req.sourceKey) + req.count.toInt < 2 ^ 63)
    (armed : (engine.victimCfg resolved.cgroupId).arm req.sourceKey
      (engine.armDelay req resolved.cgroupId) req.count = some (cfg, index))
    (policyUpdated : Bool) (account : Account) :
    (engine.armSucceeded req resolved cfg policyUpdated).slotCredits account =
      if account = (resolved.cgroupId, req.sourceKey) then
        engine.slotCredits (resolved.cgroupId, req.sourceKey) + req.count.toInt
      else engine.slotCredits account := by
  obtain ⟨cgroupId, sourceKey⟩ := account
  simp only [slotCredits, armSucceeded_victimCfg, Prod.mk.injEq]
  by_cases here : cgroupId = resolved.cgroupId
  · rw [if_pos here, (inv.victimCfg_wellFormed resolved.cgroupId).creditsFor_arm
      req.sourceKey_ne_zero count fits armed]
    by_cases same : sourceKey = req.sourceKey
    · rw [if_pos same, if_pos ⟨here, same⟩]
    · rw [if_neg same, if_neg fun both => same both.2, here]
  · rw [if_neg here, if_neg fun both => here both.1]

/-- A step changes the credits as its entries change the book. -/
theorem posts_of_step (inv : Inv engine) (conserving : Conserving engine action)
    (moved : engine.step action = some next) :
    run Ledger.post engine.book (engine.entries action) = some next.book := by
  have quiet : engine.entries action = [] →
      (∀ cgroupId, (next.victimCfg cgroupId).slots = (engine.victimCfg cgroupId).slots) →
      run Ledger.post engine.book (engine.entries action) = some next.book := by
    intro nothing same
    rw [nothing, book_congr same]
    rfl
  cases effect_of_step moved with
  | armFailed _ failed => exact quiet (entries_of_failed failed) fun _ => rfl
  | @armed req found updates resolved cfg index _ count target armed updated reply =>
      rw [entries_of_armed reply, run_cons, Ledger.post_deposit]
      refine congrArg some (funext fun account => ?_)
      have credits := slotCredits_armSucceeded inv count (conserving.1 resolved target (by rw [reply]; rfl))
        armed updates.policyUpdated account
      have nonneg := inv.slotCredits_nonneg (resolved.cgroupId, req.sourceKey)
      simp only [Function.update_apply, book_apply, credits]
      split
      · omega
      · rfl
  | policyKept => exact quiet rfl fun _ => rfl
  | policyApplied => exact quiet rfl fun _ => rfl
  | recommended => exact quiet rfl fun _ => rfl
  | recommendedFailed => exact quiet rfl fun _ => rfl
  | cleared => exact conserving.2.elim
  | ignored => exact quiet rfl fun _ => rfl
  | received value => exact quiet rfl (received_slots value rfl)
  | began => exact quiet rfl fun _ => rfl
  | dropped consuming refused => exact quiet (entries_of_dropped consuming refused) fun _ => rfl
  | @consumed event copy result updated consuming taken wrote =>
      have positive := slotCredits_pos_of_consumption inv consuming taken
      rw [entries_of_consumed consuming taken wrote, run_cons_of (Ledger.post_withdraw_iff.mpr ⟨?_, rfl⟩), run_nil]
      · refine congrArg some (funext fun account => ?_)
        have credits := slotCredits_creditConsumed inv consuming taken account
        simp only [Function.update_apply, book_apply, credits]
        split
        · omega
        · rfl
      · rw [book_apply]
        omega
  | triggered => exact quiet rfl fun _ => rfl
  | injected => exact quiet rfl fun _ => rfl
  | settled => exact quiet rfl fun _ => rfl

end Step

/-! ### The law of a run -/

/-- The credits armed for an account by a run. -/
def armedCredits (start : Engine) (actions : List Action) (account : Account) : ℕ :=
  Ledger.deposited account (trace step entries start actions)

/-- The successful decrements of an account's credits by a run. -/
def decrements (start : Engine) (actions : List Action) (account : Account) : ℕ :=
  Ledger.withdrawn account (trace step entries start actions)

/-- The delays injected for an account by a run. -/
def injectedDelays (start : Engine) (actions : List Action) (account : Account) : ℕ :=
  (trace step injections start actions).count account

theorem entries_undiscarded (account : Account) (engine : Engine) (action : Action) :
    ∀ entry ∈ engine.entries action, entry.discardFor account = 0 := by
  intro entry member
  cases action with
  | arm req found updates =>
      simp only [entries] at member
      cases reply : (engine.arm req found updates).2 <;> simp [reply, ArmReply.entries] at member
      rw [member]
      rfl
  | finishConsume updated =>
      simp only [entries] at member
      split at member
      · split at member
        · rw [List.mem_singleton.mp member]
          rfl
        · simp at member
      · simp at member
  | _ => simp [entries] at member

section Runs

variable {start final : Engine} {actions : List Action}

/-- The law of the book, for a run that neither overflows a slot nor clears. -/
theorem book_conserved (inv : Inv start) (met : Along step Conserving start actions)
    (ran : run step start actions = some final) (account : Account) :
    start.book account + armedCredits start actions account =
      final.book account + decrements start actions account := by
  have posted := simulate inv (fun _ _ _ inv _ moved => inv.step moved)
    (fun _ _ _ inv conserving moved => posts_of_step inv conserving moved) met ran
  have law := Ledger.balance_conserved posted account
  rw [Ledger.discarded_eq_zero account
    (trace_forall (entries_undiscarded account) start actions)] at law
  exact law

theorem armedCredits_concat {past : List Action} {middle : Engine}
    (ran : run step start past = some middle) (action : Action) (account : Account) :
    armedCredits start (past ++ [action]) account =
      armedCredits start past account + Ledger.deposited account (middle.entries action) := by
  rw [armedCredits, trace_concat ran, Ledger.deposited_append]
  rfl

theorem decrements_concat {past : List Action} {middle : Engine}
    (ran : run step start past = some middle) (action : Action) (account : Account) :
    decrements start (past ++ [action]) account =
      decrements start past account + Ledger.withdrawn account (middle.entries action) := by
  rw [decrements, trace_concat ran, Ledger.withdrawn_append]
  rfl

theorem injectedDelays_concat {past : List Action} {middle : Engine}
    (ran : run step start past = some middle) (action : Action) (account : Account) :
    injectedDelays start (past ++ [action]) account =
      injectedDelays start past account + (middle.injections action).count account := by
  rw [injectedDelays, trace_concat ran, List.count_append]
  rfl

end Runs

/-- An arm whose deposit keeps the account below the bound fits. -/
theorem fits_of_deposit {engine : Engine} (inv : Inv engine) {action : Action}
    (bounded : ∀ account,
      engine.book account + Ledger.deposited account (engine.entries action) < 2 ^ 63) :
    Fits engine action := by
  cases action with
  | arm req found updates =>
      intro resolved target ok
      have bound := bounded (resolved.cgroupId, req.sourceKey)
      rcases arm_cases engine req found updates with
        ⟨-, failed⟩ | ⟨other, cfg, index, -, same, -, -, outcome⟩
      · cases failed.symm.trans ok
      · cases same.symm.trans target
        have nonneg := inv.slotCredits_nonneg (resolved.cgroupId, req.sourceKey)
        simp only [entries, outcome, armedReply, ArmReply.entries, Ledger.deposited_cons,
          Ledger.Entry.depositFor, Ledger.deposited_nil, if_true, book_apply] at bound
        omega
  | _ => trivial

/-- A run that arms less than `2^63` credits for each account and does not clear meets the guard. -/
theorem conserving_of_bound {start final : Engine} (inv : Inv start) {actions : List Action}
    (empty : ∀ account, start.book account = 0)
    (ran : run step start actions = some final)
    (uncleared : Along step Uncleared start actions)
    (bounded : ∀ account, armedCredits start actions account < 2 ^ 63) :
    Along step Conserving start actions := by
  suffices both : Along step Uncleared start actions →
      (∀ account, armedCredits start actions account < 2 ^ 63) →
      Along step Conserving start actions from both uncleared bounded
  refine run_history (motive := fun past _ => Along step Uncleared start past →
    (∀ account, armedCredits start past account < 2 ^ 63) → Along step Conserving start past)
    (fun _ _ => along_nil) ?_ ran
  intro past state action next before ih _ uncleared bounded
  have sum := fun account => armedCredits_concat before action account
  have met := ih uncleared.left fun account => by
    have here := bounded account
    rw [sum] at here
    omega
  refine met.concat before ⟨fits_of_deposit (inv.run before) fun account => ?_, uncleared.last before⟩
  have law := book_conserved inv met before account
  have here := bounded account
  rw [sum] at here
  rw [empty] at law
  omega

end Engine

/-! ### The counters -/

namespace PollPhase

/-- The event whose decrement is not yet in `consume_trigger`. -/
def untriggered : PollPhase → Option ConsumeEvent
  | .consumed event _ _ => some event
  | _ => none

/-- The event whose injected delay is not yet in `injected_ok`. -/
def delayed : PollPhase → Option ConsumeEvent
  | .injected event _ _ none => some event
  | _ => none

end PollPhase

/-- One for the account of the event, zero for every other account. -/
def eventCount (event : Option ConsumeEvent) (account : Account) : ℕ :=
  if event.map ConsumeEvent.account = some account then 1 else 0

@[simp] theorem eventCount_none (account : Account) : eventCount none account = 0 := rfl

theorem eventCount_some (event : ConsumeEvent) (account : Account) :
    eventCount (some event) account = if account = event.account then 1 else 0 := by
  simp [eventCount, eq_comm]

/-- A delay that is not yet counted belongs to the event in flight. -/
theorem delayed_le_inFlight (poll : PollPhase) (account : Account) :
    eventCount poll.delayed account ≤ eventCount poll.inFlight account := by
  cases poll with
  | injected event delayNs desc errno => cases errno <;> simp [PollPhase.delayed, PollPhase.inFlight]
  | _ => simp [PollPhase.delayed]

theorem withdrawn_event (event : ConsumeEvent) (account : Account) :
    Ledger.withdrawn account [.withdraw event.account 1] = eventCount (some event) account := by
  simp [eventCount, Ledger.Entry.withdrawFor]

theorem count_event (event : ConsumeEvent) (account : Account) :
    [event.account].count account = eventCount (some event) account := by
  simp [eventCount, List.count_singleton]

namespace Engine

/-- The counters of an engine agree with what a run armed, took and delayed. -/
structure Balanced (armed taken delayed : Account → ℕ) (engine : Engine) : Prop where
  armedTotal : ∀ account, (engine.sourceAccountsAt account).armedTotal.toNat = armed account
  triggered : ∀ account, (engine.sourceAccountsAt account).consumeTrigger.toNat +
    eventCount engine.poll.untriggered account = taken account
  settled : ∀ account, (engine.sourceAccountsAt account).injectedOk.toNat +
    (engine.sourceAccountsAt account).injectFail.toNat +
    eventCount engine.poll.inFlight account = taken account
  delayed : ∀ account, (engine.sourceAccountsAt account).injectedOk.toNat +
    eventCount engine.poll.delayed account = delayed account

theorem balanced_init (defaultDelayNs : UInt64) :
    Balanced (fun _ => 0) (fun _ => 0) (fun _ => 0) (init defaultDelayNs) :=
  ⟨fun _ => rfl, fun _ => rfl, fun _ => rfl, fun _ => rfl⟩

section Counters

variable {engine next : Engine} {action : Action} {armed taken delayed : Account → ℕ}

/-- A step that moves no counter. -/
theorem Balanced.quiet (balanced : Balanced armed taken delayed engine)
    (entries : engine.entries action = []) (injections : engine.injections action = [])
    (same : next.sourceAccountsAt = engine.sourceAccountsAt)
    (untriggered : next.poll.untriggered = engine.poll.untriggered)
    (inFlight : next.poll.inFlight = engine.poll.inFlight)
    (delays : next.poll.delayed = engine.poll.delayed) :
    Balanced (fun account => armed account + Ledger.deposited account (engine.entries action))
      (fun account => taken account + Ledger.withdrawn account (engine.entries action))
      (fun account => delayed account + (engine.injections action).count account) next := by
  rw [entries, injections]
  refine ⟨?_, ?_, ?_, ?_⟩
  · rw [same]
    exact balanced.armedTotal
  · rw [same, untriggered]
    exact balanced.triggered
  · rw [same, inFlight]
    exact balanced.settled
  · rw [same, delays]
    exact balanced.delayed

/-- The credits of an arm are counted in `armed_total`. -/
theorem Balanced.armSucceeded (balanced : Balanced armed taken delayed engine)
    {req : RequestArmRequest} (count : 0 ≤ req.count.toInt) (resolved : ResolvedTarget)
    (cfg : VictimCfg) (policyUpdated : Bool)
    (fits : ∀ account, armed account + Ledger.deposited account
      [.deposit (resolved.cgroupId, req.sourceKey) req.count.toInt.toNat] < 2 ^ 63) :
    Balanced (fun account => armed account + Ledger.deposited account
      [.deposit (resolved.cgroupId, req.sourceKey) req.count.toInt.toNat]) taken delayed
      (engine.armSucceeded req resolved cfg policyUpdated) := by
  have nonneg := toNat_toUInt64 count
  refine ⟨fun account => ?_, fun account => ?_, fun account => ?_, fun account => ?_⟩ <;>
    rw [sourceAccountsAt_armSucceeded]
  · have below := fits account
    have before := balanced.armedTotal account
    by_cases same : account = (resolved.cgroupId, req.sourceKey)
    · simp only [same, if_true, Ledger.deposited_cons, Ledger.Entry.depositFor,
        Ledger.deposited_nil, Accounts.arm] at before below ⊢
      rw [toNat_add_of_lt (by omega)]
      omega
    · simp [same, Ne.symm same, Ledger.Entry.depositFor, before]
  · have before := balanced.triggered account
    split <;> exact before
  · have before := balanced.settled account
    split <;> exact before
  · have before := balanced.delayed account
    split <;> exact before

/-- A decrement moves no counter, and is in flight. -/
theorem Balanced.creditConsumed (balanced : Balanced armed taken delayed engine)
    {event : ConsumeEvent} {copy : Option VictimCfg}
    (consuming : engine.poll = .consuming event copy) (result : VictimCfg.Consumption) :
    Balanced armed
      (fun account => taken account + Ledger.withdrawn account [.withdraw event.account 1]) delayed
      (engine.creditConsumed event result) := by
  have triggered := balanced.triggered
  have settled := balanced.settled
  have delayed := balanced.delayed
  rw [consuming] at triggered settled delayed
  refine ⟨fun account => ?_, fun account => ?_, fun account => ?_, fun account => ?_⟩ <;>
    rw [sourceAccountsAt_creditConsumed]
  · exact balanced.armedTotal account
  · rw [withdrawn_event, ← triggered account]
    rfl
  · rw [withdrawn_event, ← settled account]
    rfl
  · exact delayed account

/-- The decrement in flight is counted in `consume_trigger`. -/
theorem Balanced.triggerAccounted (balanced : Balanced armed taken delayed engine)
    {event : ConsumeEvent} {delayNs : UInt64} {desc : Bytes}
    (consumed : engine.poll = .consumed event delayNs desc)
    (takenFits : ∀ account, taken account < 2 ^ 63) :
    Balanced armed taken delayed (engine.triggerAccounted event delayNs desc) := by
  have triggered := balanced.triggered
  have settled := balanced.settled
  have delayed := balanced.delayed
  rw [consumed] at triggered settled delayed
  refine ⟨fun account => ?_, fun account => ?_, fun account => ?_, fun account => ?_⟩ <;>
    rw [sourceAccountsAt_triggerAccounted]
  · split <;> exact balanced.armedTotal account
  · have before := triggered account
    have fits := takenFits account
    rw [PollPhase.untriggered, eventCount_some] at before
    by_cases same : account = event.account
    · rw [if_pos same] at before ⊢
      exact (congrArg (· + 0) (toNat_succ_of_lt (by omega))).trans before
    · rw [if_neg same] at before ⊢
      exact before
  · split <;> exact settled account
  · split <;> exact delayed account

/-- The event in flight is counted as injected or failed. -/
theorem Balanced.injectionAccounted (balanced : Balanced armed taken delayed engine)
    {event : ConsumeEvent} {delayNs : UInt64} {desc : Bytes} {errno : Option ℤ}
    (injected : engine.poll = .injected event delayNs desc errno)
    (takenFits : ∀ account, taken account < 2 ^ 63) :
    Balanced armed taken delayed (engine.injectionAccounted event desc errno) := by
  have triggered := balanced.triggered
  have settled := balanced.settled
  have delayed := balanced.delayed
  rw [injected] at triggered settled delayed
  refine ⟨fun account => ?_, fun account => ?_, fun account => ?_, fun account => ?_⟩ <;>
    rw [sourceAccountsAt_injectionAccounted]
  · cases errno <;> split <;> exact balanced.armedTotal account
  · cases errno <;> split <;> exact triggered account
  · have before := settled account
    have fits := takenFits account
    rw [PollPhase.inFlight, eventCount_some] at before
    by_cases same : account = event.account
    · rw [if_pos same] at before ⊢
      cases errno with
      | none =>
          show ((engine.sourceAccountsAt account).injectedOk + 1).toNat +
            (engine.sourceAccountsAt account).injectFail.toNat + 0 = taken account + 0
          rw [toNat_succ_of_lt (by omega)]
          omega
      | some errno =>
          show (engine.sourceAccountsAt account).injectedOk.toNat +
            ((engine.sourceAccountsAt account).injectFail + 1).toNat + 0 = taken account + 0
          rw [toNat_succ_of_lt (by omega)]
          omega
    · rw [if_neg same] at before ⊢
      exact before
  · have before := settled account
    have fits := takenFits account
    have after := delayed account
    cases errno with
    | none =>
        rw [PollPhase.delayed, eventCount_some] at after
        by_cases same : account = event.account
        · rw [if_pos same] at after ⊢
          refine (congrArg (· + 0) (toNat_succ_of_lt ?_)).trans after
          omega
        · rw [if_neg same] at after ⊢
          exact after
    | some errno => split <;> exact after

/-- A step moves the counters as its entries and injections say. -/
theorem Balanced.step (balanced : Balanced armed taken delayed engine)
    (moved : engine.step action = some next) (uncleared : Uncleared engine action)
    (armedFits : ∀ account,
      armed account + Ledger.deposited account (engine.entries action) < 2 ^ 63)
    (takenFits : ∀ account, taken account < 2 ^ 63) :
    Balanced (fun account => armed account + Ledger.deposited account (engine.entries action))
      (fun account => taken account + Ledger.withdrawn account (engine.entries action))
      (fun account => delayed account + (engine.injections action).count account) next := by
  cases effect_of_step moved with
  | armFailed _ failed => exact balanced.quiet (entries_of_failed failed) rfl rfl rfl rfl rfl
  | @armed req found updates resolved cfg index _ count target landed updated reply =>
      rw [entries_of_armed reply] at armedFits ⊢
      exact balanced.armSucceeded count resolved cfg updates.policyUpdated armedFits
  | policyKept => exact balanced.quiet rfl rfl rfl rfl rfl rfl
  | policyApplied => exact balanced.quiet rfl rfl (by simp) rfl rfl rfl
  | recommended => exact balanced.quiet rfl rfl rfl rfl rfl rfl
  | recommendedFailed => exact balanced.quiet rfl rfl rfl rfl rfl rfl
  | cleared => exact uncleared.elim
  | ignored => exact balanced.quiet rfl rfl rfl rfl rfl rfl
  | received => exact balanced.quiet rfl rfl rfl rfl rfl rfl
  | began idle =>
      exact balanced.quiet rfl rfl rfl (by rw [idle]; rfl) (by rw [idle]; rfl) (by rw [idle]; rfl)
  | dropped consuming refused =>
      exact balanced.quiet (entries_of_dropped consuming refused) rfl rfl
        (by rw [consuming]; rfl) (by rw [consuming]; rfl) (by rw [consuming]; rfl)
  | @consumed event copy result updated consuming took wrote =>
      rw [entries_of_consumed consuming took wrote]
      exact balanced.creditConsumed consuming result
  | triggered consumed => exact balanced.triggerAccounted consumed takenFits
  | @injected event delayNs desc errno triggered =>
      have untriggered := balanced.triggered
      have settled := balanced.settled
      have delayed := balanced.delayed
      rw [triggered] at untriggered settled delayed
      refine ⟨balanced.armedTotal, untriggered, settled, fun account => ?_⟩
      cases errno with
      | none =>
          rw [show engine.injections (.inject none) = [event.account] by simp [injections, triggered],
            count_event, ← delayed account]
          rfl
      | some errno => exact delayed account
  | settled injected => exact balanced.injectionAccounted injected takenFits

end Counters

/-- After a run that fits, the counters are those of its entries and injections. -/
theorem balanced_of_run {defaultDelayNs : UInt64} {actions : List Action} {final : Engine}
    (ran : run step (init defaultDelayNs) actions = some final)
    (met : Along step Conserving (init defaultDelayNs) actions)
    (bounded : ∀ account, armedCredits (init defaultDelayNs) actions account < 2 ^ 63) :
    Balanced (armedCredits (init defaultDelayNs) actions) (decrements (init defaultDelayNs) actions)
      (injectedDelays (init defaultDelayNs) actions) final := by
  suffices both : Along step Conserving (init defaultDelayNs) actions →
      (∀ account, armedCredits (init defaultDelayNs) actions account < 2 ^ 63) →
      Balanced (armedCredits (init defaultDelayNs) actions)
        (decrements (init defaultDelayNs) actions)
        (injectedDelays (init defaultDelayNs) actions) final from both met bounded
  refine run_history (motive := fun past state => Along step Conserving (init defaultDelayNs) past →
    (∀ account, armedCredits (init defaultDelayNs) past account < 2 ^ 63) →
    Balanced (armedCredits (init defaultDelayNs) past) (decrements (init defaultDelayNs) past)
      (injectedDelays (init defaultDelayNs) past) state)
    (fun _ _ => balanced_init defaultDelayNs) ?_ ran
  intro past state action next before ih moved met bounded
  have armed := fun account => armedCredits_concat before action account
  have fewer : ∀ account, armedCredits (init defaultDelayNs) past account < 2 ^ 63 := by
    intro account
    have here := bounded account
    rw [armed] at here
    omega
  have taken : ∀ account, decrements (init defaultDelayNs) past account < 2 ^ 63 := by
    intro account
    have law := book_conserved (inv_init defaultDelayNs) met.left before account
    have here := fewer account
    rw [book_init] at law
    omega
  have stepped := (ih met.left fewer).step moved (met.last before).2
    (fun account => by rw [← armed]; exact bounded account) taken
  rwa [← funext armed, ← funext (decrements_concat before action),
    ← funext (injectedDelays_concat before action)] at stepped

/-! ### Credit conservation -/

/-- A step of the poll thread. -/
def Action.isPoll : Action → Bool
  | .beginEvent | .finishConsume _ | .accountTrigger | .inject _ | .accountInjection => true
  | _ => false

/-- The poll thread takes credits from the account of its event only. -/
theorem slotCredits_of_poll {engine next : Engine} (inv : Inv engine) {action : Action}
    (poll : action.isPoll = true) (moved : engine.step action = some next) {account : Account}
    (other : ∀ event copy, engine.poll = .consuming event copy → event.account ≠ account) :
    next.slotCredits account = engine.slotCredits account := by
  cases effect_of_step moved with
  | consumed consuming taken =>
      rw [slotCredits_creditConsumed inv consuming taken, if_neg (other _ _ consuming).symm]
  | began => rfl
  | dropped => rfl
  | triggered => rfl
  | injected => rfl
  | settled => rfl
  | _ => cases poll

/-- Credit conservation. After every run without a clear, with fewer than `2^63` credits armed for
each account: what was armed is what is left plus what was taken; what was taken is settled, but for
the event in flight; no more delays were injected than credits armed; and the processing of an event
leaves the credits of every other account alone. -/
theorem credits_conserved {defaultDelayNs : UInt64} {actions : List Action} {final : Engine}
    (ran : run step (init defaultDelayNs) actions = some final)
    (uncleared : Along step Uncleared (init defaultDelayNs) actions)
    (bounded : ∀ account, armedCredits (init defaultDelayNs) actions account < 2 ^ 63)
    (account : Account) :
    ((final.sourceAccountsAt account).armedTotal.toNat : ℤ) =
      final.slotCredits account + decrements (init defaultDelayNs) actions account ∧
    decrements (init defaultDelayNs) actions account =
      (final.sourceAccountsAt account).injectedOk.toNat +
        (final.sourceAccountsAt account).injectFail.toNat +
        (if final.poll.inFlight.map ConsumeEvent.account = some account then 1 else 0) ∧
    injectedDelays (init defaultDelayNs) actions account ≤
      (final.sourceAccountsAt account).armedTotal.toNat ∧
    ∀ action next, action.isPoll = true → final.step action = some next →
      (∀ event copy, final.poll = .consuming event copy → event.account ≠ account) →
      next.slotCredits account = final.slotCredits account := by
  have met := conserving_of_bound (inv_init defaultDelayNs) (book_init _) ran uncleared
    bounded
  have inv := inv_of_run ran
  have balanced := balanced_of_run ran met bounded
  have law := book_conserved (inv_init defaultDelayNs) met ran account
  rw [book_init, book_apply] at law
  have nonneg := inv.slotCredits_nonneg account
  have armed := balanced.armedTotal account
  have settled := balanced.settled account
  have delayed := balanced.delayed account
  refine ⟨by omega, settled.symm, ?_, fun action next poll moved other =>
    slotCredits_of_poll inv poll moved other⟩
  have ahead := delayed_le_inFlight final.poll account
  omega

/-- A `recvfrom` on the cgroup 7. -/
def sampleReceive : Action :=
  .receive ⟨7, 45, 10, 4294967297, true⟩

/-- An arm, a system call and the whole processing of its event. -/
def sampleRun : List Action :=
  [sampleArm 5, sampleReceive, .beginEvent, .finishConsume true, .accountTrigger, .inject none,
    .accountInjection]

theorem sampleRun_entries : trace step entries (init 1000) sampleRun =
    [.deposit sampleAccount 5, .withdraw sampleAccount 1] := rfl

/-- The hypotheses of `credits_conserved` are met by the sample run. -/
theorem credits_conserved_sample : ∃ final, run step (init 1000) sampleRun = some final ∧
    ((final.sourceAccountsAt sampleAccount).armedTotal.toNat : ℤ) =
      final.slotCredits sampleAccount + decrements (init 1000) sampleRun sampleAccount := by
  refine ⟨_, rfl, (credits_conserved rfl ?_ (fun account => ?_) _).1⟩
  · exact along_of_mem fun state => by
      simp [sampleRun, sampleArm, sampleReceive, Uncleared]
  · simp only [armedCredits, sampleRun_entries, Ledger.deposited_cons, Ledger.Entry.depositFor,
      Ledger.deposited_nil]
    split <;> decide

end Engine

end Mcoz
