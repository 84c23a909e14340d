/-
What `clear(true)` leaves behind.

`clear` zeroes every counter and every credit in one critical section. An event whose credit was
taken before and whose accounts are written after it is counted in the new ledger, and a map value
whose update fails keeps its credits. `clear_fresh_iff` says that these are the only two ways:
without them nothing but an arm makes the ledger move again.
-/

import Mcoz.Engine.Drain

set_option autoImplicit false

namespace Mcoz.Engine

open Word Machine

/-- Every counter and every credit is zero. -/
structure Fresh (engine : Engine) : Prop where
  victims : ∀ cgroupId, engine.accountsAt cgroupId = Accounts.zero
  sources : ∀ account, engine.sourceAccountsAt account = Accounts.zero
  credits : ∀ cgroupId i, ((engine.victimCfg cgroupId).slots i).credits = 0

/-- The step is an arm. -/
def Action.isArm : Action → Bool
  | .arm _ _ _ => true
  | _ => false

section Step

variable {engine next : Engine} {action : Action}

theorem Fresh.congr (fresh : Fresh engine) (same : next.victims = engine.victims)
    (map : ∀ cgroupId, (next.victimCfg cgroupId).slots = (engine.victimCfg cgroupId).slots) :
    Fresh next := by
  refine ⟨fun cgroupId => ?_, fun account => ?_, fun cgroupId i => ?_⟩
  · rw [accountsAt_congr same, fresh.victims]
  · rw [sourceAccountsAt_congr same, fresh.sources]
  · rw [map, fresh.credits]

theorem sourceAccountsAt_clear (clearCredits : Bool) (updated : UInt64 → Bool)
    (account : Account) :
    (engine.clear clearCredits updated).sourceAccountsAt account = Accounts.zero := by
  simp only [sourceAccountsAt, victimAt, clear]
  cases engine.victims account.1 with
  | none => rfl
  | some vr => exact vr.sourceAccounts_clear account.2

/-- Cleared records and a map without credits are a fresh ledger. -/
theorem fresh_clear {clearCredits : Bool} {updated : UInt64 → Bool}
    (credits : ∀ cgroupId i,
      (((engine.clear clearCredits updated).victimCfg cgroupId).slots i).credits = 0) :
    Fresh (engine.clear clearCredits updated) := by
  refine ⟨fun cgroupId => ?_, sourceAccountsAt_clear clearCredits updated, credits⟩
  simp only [accountsAt, victimAt, clear]
  cases engine.victims cgroupId <;> rfl

/-- The credits after a clear: none where it wrote the map value, the old ones elsewhere. -/
theorem credits_clear (inv : Inv engine) (updated : UInt64 → Bool) (cgroupId : UInt64)
    (i : SlotIndex) :
    (((engine.clear true updated).victimCfg cgroupId).slots i).credits =
      if updated cgroupId then 0 else ((engine.victimCfg cgroupId).slots i).credits := by
  have known := inv.known cgroupId
  simp only [victimCfg, clear, true_and]
  cases value : engine.victimMap cgroupId with
  | none =>
      cases updated cgroupId <;> simp [VictimCfg.zero]
  | some cfg =>
      rw [value] at known
      cases updated cgroupId <;> simp [known, VictimCfg.clearCredits]

theorem Fresh.clear (fresh : Fresh engine) (clearCredits : Bool) (updated : UInt64 → Bool) :
    Fresh (engine.clear clearCredits updated) := by
  refine fresh_clear fun cgroupId i => ?_
  have credits := fresh.credits cgroupId i
  unfold victimCfg at credits ⊢
  simp only [Engine.clear]
  split
  · cases engine.victimMap cgroupId with
    | none => rfl
    | some cfg => rfl
  · exact credits

/-- Nothing but an arm moves a fresh ledger, once the event in flight is settled. -/
theorem Fresh.step (fresh : Fresh engine) (inv : Inv engine) (landed : engine.poll.inFlight = none)
    (unarmed : action.isArm = false) (moved : engine.step action = some next) :
    Fresh next ∧ next.poll.inFlight = none := by
  cases effect_of_step moved with
  | armFailed => cases unarmed
  | armed => cases unarmed
  | policyKept => exact ⟨fresh, landed⟩
  | @policyApplied _ _ _ resolved flags =>
      refine ⟨⟨fun cgroupId => ?_, ?_, fresh.credits⟩, landed⟩
      · rw [accountsAt_modify (engine.policyApplied_victims resolved flags)]
        split
        · exact fresh.victims resolved.cgroupId
        · exact fresh.victims cgroupId
      · rw [sourceAccountsAt_policyApplied]
        exact fresh.sources
  | recommended => exact ⟨fresh.congr rfl fun _ => rfl, landed⟩
  | recommendedFailed => exact ⟨fresh, landed⟩
  | cleared => exact ⟨fresh.clear _ _, landed⟩
  | ignored => exact ⟨fresh, landed⟩
  | received value => exact ⟨fresh.congr rfl (received_slots value rfl), landed⟩
  | began => exact ⟨fresh.congr rfl fun _ => rfl, rfl⟩
  | dropped => exact ⟨fresh.congr rfl fun _ => rfl, rfl⟩
  | @consumed event copy result _ consuming taken =>
      obtain ⟨copied, rfl, consumed⟩ := Option.bind_eq_some_iff.mp taken
      obtain ⟨live, value, agrees⟩ := inv.copy consuming
      obtain ⟨index, -, -, credited, -, -⟩ := VictimCfg.consumeCredit_spec consumed
      have empty := fresh.credits event.cgroupId index
      rw [victimCfg, value, Option.getD_some, ← agrees.slots, eq_zero_iff] at empty
      omega
  | triggered consumed =>
      rw [consumed] at landed
      cases landed
  | injected triggered =>
      rw [triggered] at landed
      cases landed
  | settled injected =>
      rw [injected] at landed
      cases landed

end Step

/-! ### After a clear -/

/-- Every run without an arm that ends with an idle poll thread and an empty queue ends with a fresh
ledger. -/
def StaysFresh (engine : Engine) : Prop :=
  ∀ actions final, (∀ action ∈ actions, action.isArm = false) →
    run step engine actions = some final → final.poll = .idle → final.events = [] → Fresh final

theorem unarmed_of_poll {actions : List Action} (poll : PollOnly actions) :
    ∀ action ∈ actions, action.isArm = false := by
  intro action member
  have own := poll action member
  cases action <;> first | rfl | cases own

/-- A fresh ledger with no event in flight stays fresh. -/
theorem Fresh.stays {engine : Engine} (inv : Inv engine) (fresh : Fresh engine)
    (landed : engine.poll.inFlight = none) : StaysFresh engine := by
  intro actions final unarmed ran _ _
  have kept := invariant_along
    (fun state => Inv state ∧ Fresh state ∧ state.poll.inFlight = none) ⟨inv, fresh, landed⟩
    (fun _ _ _ holds unarmed moved =>
      ⟨holds.1.step moved, holds.2.1.step holds.1 holds.2.2 unarmed moved⟩)
    (along_of_mem fun _ => unarmed) ran
  exact kept.2.1

/-- `clear(true)` starts a fresh ledger, whatever follows it but an arm, if and only if no event is
between its decrement and the end of its accounts and no map value with credits fails to be
updated. -/
theorem clear_fresh_iff {defaultDelayNs : UInt64} {past : List Action} {engine next : Engine}
    (ran : run step (init defaultDelayNs) past = some engine) {updated : UInt64 → Bool}
    (moved : engine.step (.clear true updated) = some next) :
    StaysFresh next ↔
      engine.poll.inFlight = none ∧ ∀ cgroupId, updated cgroupId = false →
        ∀ i, ((engine.victimCfg cgroupId).slots i).credits = 0 := by
  have inv := inv_of_run ran
  obtain ⟨unlocked, rfl⟩ := control_iff.mp moved
  constructor
  · intro stays
    obtain ⟨first, start, poll, ran, idle, -, map, counted⟩ :=
      settle (show (engine.clear true updated).poll.locked = false from unlocked)
    obtain ⟨second, poll', ran'⟩ := dropQueue start.events start idle rfl
    have fresh := stays (first ++ second) _ (unarmed_of_poll (pollOnly_append poll poll'))
      (run_append_of ran ran') idle rfl
    refine ⟨?_, fun cgroupId failed i => ?_⟩
    · cases flying : engine.poll.inFlight with
      | none => rfl
      | some event =>
          have zero : (engine.clear true updated).sourceAccountsAt event.account =
              Accounts.zero := sourceAccountsAt_clear ..
          exact absurd (fresh.sources event.account) (counted event flying zero)
    · have credits := fresh.credits cgroupId i
      have same : start.victimCfg cgroupId = (engine.clear true updated).victimCfg cgroupId :=
        victimCfg_congr map cgroupId
      change ((start.victimCfg cgroupId).slots i).credits = 0 at credits
      rw [same, credits_clear inv, failed] at credits
      exact credits
  · rintro ⟨landed, credits⟩
    refine Fresh.stays (inv.clear true updated unlocked) (fresh_clear fun cgroupId i => ?_) landed
    rw [credits_clear inv]
    cases wrote : updated cgroupId with
    | true => rfl
    | false => exact credits cgroupId wrote i

/-- One credit, and its event up to the decrement. -/
def inFlightRun : List Action :=
  [sampleArm 1, sampleReceive, .beginEvent, .finishConsume true]

/-- The engine that `clear(true)` leaves after `inFlightRun`, with all its updates done. -/
def clearedEngine : Engine :=
  (run step (init 1000) (inFlightRun ++ [.clear true fun _ => true])).getD (init 1000)

/-- The hypotheses of `clear_fresh_iff` are met by the clear after `inFlightRun`. -/
theorem clear_fresh_iff_sample : ∃ engine, run step (init 1000) inFlightRun = some engine ∧
    (StaysFresh clearedEngine ↔ engine.poll.inFlight = none ∧ ∀ cgroupId, true = false →
      ∀ i, ((engine.victimCfg cgroupId).slots i).credits = 0) := by
  obtain ⟨engine, ran, moved⟩ : ∃ engine, run step (init 1000) inFlightRun = some engine ∧
      engine.step (.clear true fun _ => true) = some clearedEngine := ⟨_, rfl, rfl⟩
  exact ⟨engine, ran, clear_fresh_iff ran moved⟩

/-- The event in flight is counted after the clear. -/
theorem event_counted_after_clear :
    run step (init 1000) (inFlightRun ++ [.clear true fun _ => true]) = some clearedEngine ∧
      ¬ StaysFresh clearedEngine := by
  refine ⟨rfl, fun stays => ?_⟩
  have fresh := stays [.accountTrigger, .inject none, .accountInjection] _
    (unarmed_of_poll (by simp [PollOnly, Action.isPoll])) rfl rfl rfl
  exact absurd (congrArg Accounts.injectedOk (fresh.sources sampleAccount)) (by decide)

end Mcoz.Engine
