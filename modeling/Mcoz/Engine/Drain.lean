/-
The poll thread left alone.

The poll thread is never stuck: from every state in which it does not hold `mu_`, its own steps
finish the event in flight (`settle`) and then take the queued events one by one (`takeEvent`), or
drop them where the map updates fail (`dropQueue`). Neither needs another thread.
-/

import Mcoz.Engine.Conservation

set_option autoImplicit false

namespace Mcoz.Engine

open Word Machine

/-- The actions are steps of the poll thread. -/
def PollOnly (actions : List Action) : Prop :=
  ∀ action ∈ actions, action.isPoll = true

theorem pollOnly_append {first second : List Action} (before : PollOnly first)
    (after : PollOnly second) : PollOnly (first ++ second) := by
  intro action member
  rcases List.mem_append.mp member with early | late
  · exact before action early
  · exact after action late

section Poll

variable {engine : Engine}

theorem inject_ne_zero {accounts : Accounts} (fresh : accounts.injectedOk = 0)
    (unfailed : accounts.injectFail = 0) (errno : Option ℤ) :
    accounts.inject errno ≠ Accounts.zero := by
  intro same
  cases errno with
  | none =>
      have counted := congrArg Accounts.injectedOk same
      simp [Accounts.inject, fresh, Accounts.zero] at counted
  | some errno =>
      have counted := congrArg Accounts.injectFail same
      simp [Accounts.inject, unfailed, Accounts.zero] at counted

/-- The event in flight can be finished, which changes neither the map nor the queue, and leaves a
count in the accounts of its source. -/
theorem settle (unlocked : engine.poll.locked = false) : ∃ actions final,
    PollOnly actions ∧ run step engine actions = some final ∧ final.poll = .idle ∧
      final.events = engine.events ∧ final.victimMap = engine.victimMap ∧
      ∀ event, engine.poll.inFlight = some event →
        engine.sourceAccountsAt event.account = Accounts.zero →
        final.sourceAccountsAt event.account ≠ Accounts.zero := by
  cases phase : engine.poll with
  | idle => exact ⟨[], engine, by simp [PollOnly], rfl, phase, rfl, rfl, by simp [PollPhase.inFlight]⟩
  | consuming event copy =>
      rw [phase] at unlocked
      cases unlocked
  | consumed event delayNs desc =>
      let triggered := engine.triggerAccounted event delayNs desc
      let injected := triggered.delayInjected event delayNs desc none
      refine ⟨[.accountTrigger, .inject none, .accountInjection],
        injected.injectionAccounted event desc none, ?_, ?_, rfl, rfl, rfl, ?_⟩
      · simp [PollOnly, Action.isPoll]
      · simp only [run, step, accountTrigger, phase, Option.bind_some]
        rfl
      · rintro _ ⟨⟩ zero
        have counted : injected.sourceAccountsAt event.account = Accounts.zero.trigger := by
          show triggered.sourceAccountsAt event.account = Accounts.zero.trigger
          rw [sourceAccountsAt_triggerAccounted, if_pos rfl, zero]
        rw [sourceAccountsAt_injectionAccounted, if_pos rfl, counted]
        exact inject_ne_zero rfl rfl none
  | triggered event delayNs desc =>
      let injected := engine.delayInjected event delayNs desc none
      refine ⟨[.inject none, .accountInjection],
        injected.injectionAccounted event desc none, ?_, ?_, rfl, rfl, rfl, ?_⟩
      · simp [PollOnly, Action.isPoll]
      · simp only [run, step, inject, phase, Option.bind_some]
        rfl
      · rintro _ ⟨⟩ zero
        have counted : injected.sourceAccountsAt event.account = Accounts.zero := zero
        rw [sourceAccountsAt_injectionAccounted, if_pos rfl, counted]
        exact inject_ne_zero rfl rfl none
  | injected event delayNs desc errno =>
      refine ⟨[.accountInjection], engine.injectionAccounted event desc errno, ?_, ?_, rfl, rfl,
        rfl, ?_⟩
      · simp [PollOnly, Action.isPoll]
      · simp only [run, step, accountInjection, phase, Option.bind_some]
      · rintro _ ⟨⟩ zero
        rw [sourceAccountsAt_injectionAccounted, if_pos rfl, zero]
        exact inject_ne_zero rfl rfl errno

/-- The poll thread at the head of the queue. -/
def atHead (engine : Engine) (event : ConsumeEvent) (rest : List ConsumeEvent) : Engine :=
  { engine with
    events := rest
    poll := .consuming event (engine.victimMap event.cgroupId) }

theorem step_beginEvent {event : ConsumeEvent} {rest : List ConsumeEvent}
    (idle : engine.poll = .idle) (queued : engine.events = event :: rest) :
    engine.step .beginEvent = some (engine.atHead event rest) := by
  simp [step, beginEvent, idle, queued, atHead]

theorem step_finishConsume {event : ConsumeEvent} {copy : Option VictimCfg}
    (consuming : engine.poll = .consuming event copy) (updated : Bool) :
    ∃ next, engine.step (.finishConsume updated) = some next ∧ next.poll.locked = false ∧
      next.events = engine.events := by
  simp only [step, finishConsume, consuming]
  cases consumption event copy with
  | none => exact ⟨_, rfl, rfl, rfl⟩
  | some result =>
      cases updated with
      | true => exact ⟨_, rfl, rfl, rfl⟩
      | false => exact ⟨_, rfl, rfl, rfl⟩

/-- The head of the queue can be taken, which leaves the credits of other accounts alone. -/
theorem takeEvent (inv : Inv engine) {event : ConsumeEvent} {rest : List ConsumeEvent}
    (idle : engine.poll = .idle) (queued : engine.events = event :: rest) : ∃ actions final,
    PollOnly actions ∧ run step engine actions = some final ∧ final.poll = .idle ∧
      final.events = rest ∧
      ∀ account, event.account ≠ account →
        final.slotCredits account = engine.slotCredits account := by
  have began := step_beginEvent idle queued
  obtain ⟨middle, moved, unlocked, events⟩ :=
    step_finishConsume (show (engine.atHead event rest).poll = .consuming event _ from rfl) true
  obtain ⟨actions, final, poll, ran, settled, same, map, -⟩ := settle unlocked
  refine ⟨.beginEvent :: .finishConsume true :: actions, final, ?_, ?_, settled, ?_, ?_⟩
  · intro action member
    rcases List.mem_cons.mp member with rfl | member
    · rfl
    rcases List.mem_cons.mp member with rfl | member
    · rfl
    · exact poll action member
  · rw [run_cons_of began, run_cons_of moved]
    exact ran
  · exact same.trans events
  · intro account other
    rw [slotCredits_congr map]
    refine slotCredits_of_poll (inv.step began) rfl moved ?_
    rintro _ _ ⟨⟩
    exact other

/-- If its map updates fail, the poll thread drops the whole queue and changes nothing else. -/
theorem dropQueue : ∀ (events : List ConsumeEvent) (engine : Engine), engine.poll = .idle →
    engine.events = events → ∃ actions, PollOnly actions ∧
      run step engine actions = some { engine with events := [] }
  | [], engine, _, empty => ⟨[], by simp [PollOnly], by rw [run_nil, ← empty]⟩
  | event :: rest, engine, idle, queued => by
      have dropped : (engine.atHead event rest).step (.finishConsume false) =
          some { engine with events := rest } := by
        simp only [step, finishConsume, atHead]
        cases consumption event (engine.victimMap event.cgroupId) <;> simp [idle]
      obtain ⟨later, poll, ran⟩ := dropQueue rest { engine with events := rest } idle rfl
      refine ⟨.beginEvent :: .finishConsume false :: later, ?_, ?_⟩
      · intro action member
        rcases List.mem_cons.mp member with rfl | member
        · rfl
        rcases List.mem_cons.mp member with rfl | member
        · rfl
        · exact poll action member
      · rw [run_cons_of (step_beginEvent idle queued), run_cons_of dropped]
        exact ran

end Poll

end Mcoz.Engine
