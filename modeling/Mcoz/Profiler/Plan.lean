/-
How long experiments last and what they try.

An experiment that sees too few visits doubles the length of the next, and one that sees many halves it. The length is
never tested against a limit; but each doubling comes after an experiment of the length that it doubles, so the length
is bounded by the time since the start and does not overflow. Over every run the lengths are `ExperimentMinTime` times
powers of two, every experiment lasts for its length, and the speedups are the multiples of 5 hundredths up to 100
unless one is fixed (`experiment_plan`). It lasts so because `wait` goes on after a signal with what is left to sleep
(`wait_lasts`).
-/

import Mcoz.Profiler.Runtime
import Mathlib.Algebra.Order.Group.Nat

set_option autoImplicit false

namespace Mcoz.Profiler

open Machine

namespace Loop

/-! ### `wait` -/

/-- `struct timespec`. -/
structure Timespec where
  seconds : ℕ
  nanoseconds : ℕ

/-- The time in nanoseconds. -/
def Timespec.total (time : Timespec) : ℕ :=
  time.seconds * 1000000000 + time.nanoseconds

/-- What `wait` asks for. -/
def timespecOf (ns : UInt64) : Timespec where
  seconds := ((ns - ns % 1000000000) / 1000000000).toNat
  nanoseconds := (ns % 1000000000).toNat

/-- How a call of `nanosleep` ends, and when: it has slept, or a handler was called and some time is left. -/
inductive Nap
  | slept (now : UInt64)
  | interrupted (now : UInt64) (left : Timespec)

/-- The loop of `wait`, which calls `nanosleep` with what is left. -/
def sleepLoop : List Nap → Option UInt64
  | [] => none
  | .slept now :: _ => some now
  | .interrupted _ _ :: rest => sleepLoop rest

/-- `wait`, when it is called at a time: what it returns. -/
def wait (ns startTime : UInt64) (naps : List Nap) : Option UInt64 :=
  if ns = 0 then some 0 else (sleepLoop naps).map (· - startTime)

/-- `nanosleep` sleeps for the time it is asked for, or leaves the rest of it. -/
def Sleeps : Timespec → UInt64 → List Nap → Prop
  | _, _, [] => True
  | asked, clock, .slept now :: _ => clock.toNat + asked.total ≤ now.toNat
  | asked, clock, .interrupted now left :: rest =>
      clock.toNat + asked.total ≤ now.toNat + left.total ∧ Sleeps left now rest

theorem total_timespecOf (ns : UInt64) : (timespecOf ns).total = ns.toNat := by
  have part : (ns % 1000000000).toNat = ns.toNat % 1000000000 := UInt64.toNat_mod ns 1000000000
  have below : ns % 1000000000 ≤ ns := UInt64.le_iff_toNat_le.mpr (part ▸ Nat.mod_le _ _)
  have whole : ((ns - ns % 1000000000) / 1000000000).toNat = (ns.toNat - ns.toNat % 1000000000) / 1000000000 := by
    rw [UInt64.toNat_div, UInt64.toNat_sub_of_le _ _ below, part]
    rfl
  rw [Timespec.total, timespecOf, whole, part]
  show (ns.toNat - ns.toNat % 1000000000) / 1000000000 * 1000000000 + ns.toNat % 1000000000 = ns.toNat
  omega

/-- However often it is interrupted, the loop ends after the time that was asked for. -/
theorem sleepLoop_lasts {asked : Timespec} {clock ended : UInt64} {naps : List Nap} (sleeps : Sleeps asked clock naps)
    (finished : sleepLoop naps = some ended) : clock.toNat + asked.total ≤ ended.toNat := by
  induction naps generalizing asked clock with
  | nil => cases finished
  | cons nap rest ih =>
      cases nap with
      | slept now =>
          obtain rfl := Option.some.inj finished
          exact sleeps
      | interrupted now left =>
          have later := ih sleeps.2 finished
          have here := sleeps.1
          omega

/-- What `wait` returns is at least what it was asked for. -/
theorem wait_lasts {ns startTime elapsed : UInt64} {naps : List Nap} (sleeps : Sleeps (timespecOf ns) startTime naps)
    (waited : wait ns startTime naps = some elapsed) : ns ≤ elapsed := by
  rw [wait] at waited
  split at waited
  · rename_i zero
    rw [zero]
    exact UInt64.zero_le
  · obtain ⟨ended, finished, rfl⟩ := Option.map_eq_some_iff.mp waited
    have late := sleepLoop_lasts sleeps finished
    rw [total_timespecOf] at late
    have onwards : startTime ≤ ended := UInt64.le_iff_toNat_le.mpr (by omega)
    rw [UInt64.le_iff_toNat_le, UInt64.toNat_sub_of_le _ _ onwards]
    omega

/-! ### The environment -/

/-- What the thread relies on: the clock counts from 1970, a random number is within its distribution, and the `wait`
of an experiment, which begins after it and is over when its end is read, sleeps as `nanosleep` is documented. -/
def Realistic (thread : ProfilerThread) : Action → Prop
  | .startup now => experimentMinTime ≤ now
  | .begin reading => reading.random ≤ zeroSpeedupWeight + speedupDivisions
  | .conclude reading => ∀ experiment, thread.phase = .running experiment → ∃ began naps elapsed,
      experiment.startTime ≤ began ∧ Sleeps (timespecOf thread.experimentLength) began naps ∧
        wait thread.experimentLength began naps = some elapsed ∧ began.toNat + elapsed.toNat ≤ reading.now.toNat
  | _ => True

/-- An experiment lasts for the planned time. -/
theorem lasts_of_realistic {thread : ProfilerThread} {reading : Ending} {experiment : Experiment}
    (realistic : Realistic thread (.conclude reading)) (running : thread.phase = .running experiment) :
    experiment.startTime.toNat + thread.experimentLength.toNat ≤ reading.now.toNat := by
  obtain ⟨began, naps, elapsed, after, sleeps, waited, ended⟩ := realistic experiment running
  have lasted := UInt64.le_iff_toNat_le.mp (wait_lasts sleeps waited)
  have later := UInt64.le_iff_toNat_le.mp after
  omega

/-- The experiment that a step concludes, with the thread before it. -/
def concludes (thread : ProfilerThread) : Action → List (ProfilerThread × Experiment × Ending)
  | .conclude reading =>
      match thread.phase with
      | .running experiment => [(thread, experiment, reading)]
      | _ => []
  | _ => []

/-! ### What is tried -/

/-- The delay size is the fixed one, or a number of twentieths of the sampling period. -/
def Tries (settings : Settings) (delaySize : UInt64) : Prop :=
  match settings.fixedDelaySize with
  | some fixed => delaySize = fixed
  | none => ∃ divisions ≤ 20, delaySize.toNat = 50000 * divisions

theorem tries_chooseDelay {settings : Settings} {random : UInt64}
    (drawn : random ≤ zeroSpeedupWeight + speedupDivisions) : Tries settings (chooseDelay settings random) := by
  rw [Tries, chooseDelay]
  cases settings.fixedDelaySize with
  | some fixed => rfl
  | none =>
      by_cases zero : random ≤ zeroSpeedupWeight
      · exact ⟨0, by decide, by simp only [if_pos zero]; rfl⟩
      · have least : (7 : ℕ) < random.toNat := by
          rw [UInt64.le_iff_toNat_le] at zero
          exact Nat.lt_of_not_le zero
        have most : random.toNat ≤ 27 := UInt64.le_iff_toNat_le.mp drawn
        have shifted : (random - zeroSpeedupWeight).toNat = random.toNat - 7 :=
          UInt64.toNat_sub_of_le _ _ (UInt64.le_iff_toNat_le.mpr (Nat.le_of_lt least))
        refine ⟨random.toNat - 7, by omega, ?_⟩
        simp only [if_neg zero]
        rw [UInt64.toNat_div, UInt64.toNat_mul, shifted]
        show (random.toNat - 7) * 1000000 % 2 ^ 64 / 20 = _
        rw [Nat.mod_eq_of_lt (by omega)]
        omega

/-- The logged speedup is a multiple of 5 hundredths. -/
theorem speedup_of_tries {settings : Settings} {delaySize : UInt64} (free : settings.fixedDelaySize = none)
    (tries : Tries settings delaySize) :
    ∃ divisions ≤ 20, (delaySize * 100 / samplePeriod).toNat = 5 * divisions := by
  rw [Tries, free] at tries
  obtain ⟨divisions, few, size⟩ := tries
  refine ⟨divisions, few, ?_⟩
  rw [UInt64.toNat_div, UInt64.toNat_mul, size]
  show 50000 * divisions * 100 % 2 ^ 64 / 1000000 = _
  rw [Nat.mod_eq_of_lt (by omega)]
  omega

/-! ### How long it is tried -/

/-- A length that was doubled some number of times. -/
def Doubled (length : UInt64) : Prop :=
  ∃ times, length.toNat = experimentMinTime.toNat * 2 ^ times

/-- The next length is again such a length, at most the double. -/
theorem doubled_nextLength {length minDelta : UInt64} (doubled : Doubled length) (small : 2 * length.toNat < 2 ^ 64) :
    Doubled (nextLength length minDelta) ∧ (nextLength length minDelta).toNat ≤ 2 * length.toNat := by
  obtain ⟨times, shape⟩ := doubled
  unfold nextLength
  split
  · have twice : (length * 2).toNat = 2 * length.toNat := by
      rw [UInt64.toNat_mul]
      show length.toNat * 2 % 2 ^ 64 = _
      rw [Nat.mod_eq_of_lt (by omega), Nat.mul_comm]
    exact ⟨⟨times + 1, by rw [twice, shape, pow_succ, Nat.mul_comm, Nat.mul_assoc]⟩, twice.le⟩
  · split
    · rename_i large
      have least : 2 * experimentMinTime.toNat ≤ length.toNat := UInt64.le_iff_toNat_le.mp large.2
      have half : (length / 2).toNat = length.toNat / 2 := UInt64.toNat_div length 2
      cases times with
      | zero =>
          have positive : 0 < experimentMinTime.toNat := by decide
          omega
      | succ times =>
          refine ⟨⟨times, ?_⟩, by omega⟩
          rw [half, shape, pow_succ, ← Nat.mul_assoc, Nat.mul_div_cancel _ (by decide)]
    · exact ⟨⟨times, shape⟩, by omega⟩

/-- The plan of a started thread: its length has been doubled from the least, and is not more than the time that has
been spent; that of a running experiment not more than the time before it began. -/
structure Planned (settings : Settings) (thread : ProfilerThread) : Prop where
  started : experimentMinTime.toNat ≤ thread.startTime.toNat
  onwards : thread.startTime.toNat ≤ thread.clock.toNat
  doubled : Doubled thread.experimentLength
  spent : thread.startTime.toNat + thread.experimentLength.toNat ≤ thread.clock.toNat + experimentMinTime.toNat
  running : ∀ experiment, thread.phase = .running experiment →
    thread.startTime.toNat + thread.experimentLength.toNat ≤ experiment.startTime.toNat + experimentMinTime.toNat ∧
      Tries settings experiment.delaySize

section Steps

variable {settings : Settings} {thread next : ProfilerThread} {action : Action}

/-- Where nothing is run and the length stays, the plan stays. -/
theorem Planned.elsewhere (planned : Planned settings thread) (startTime : next.startTime = thread.startTime)
    (clock : thread.clock ≤ next.clock) (length : next.experimentLength = thread.experimentLength)
    (idle : ∀ experiment, next.phase ≠ .running experiment) : Planned settings next := by
  have later := UInt64.le_iff_toNat_le.mp clock
  refine ⟨startTime ▸ planned.started, ?_, length ▸ planned.doubled, ?_, fun experiment now => absurd now (idle _)⟩
  · rw [startTime]
    exact planned.onwards.trans later
  · rw [startTime, length]
    exact planned.spent.trans (Nat.add_le_add_right later _)

/-- **The plan of one step.** -/
theorem Planned.step (planned : Planned settings thread) (realistic : Realistic thread action)
    (moved : Loop.step settings thread action = some next) : Planned settings next := by
  cases effect_of_step moved with
  | started now fresh _ =>
      have least : experimentMinTime.toNat ≤ now.toNat := UInt64.le_iff_toNat_le.mp realistic
      exact ⟨least, Nat.le_refl _, ⟨0, by rw [pow_zero, Nat.mul_one]⟩, Nat.le_refl _, fun _ now => by cases now⟩
  | ready waiting => exact planned.elsewhere rfl (UInt64.le_refl _) rfl fun _ now => by cases now
  | stopped choosing => exact planned.elsewhere rfl (UInt64.le_refl _) rfl fun _ now => by cases now
  | began reading choosing onwards =>
      have later := UInt64.le_iff_toNat_le.mp onwards
      refine ⟨planned.started, planned.onwards.trans later, planned.doubled,
        planned.spent.trans (Nat.add_le_add_right later _), fun experiment now => ?_⟩
      obtain rfl := Phase.running.inj now
      exact ⟨planned.spent.trans (Nat.add_le_add_right later _), tries_chooseDelay realistic⟩
  | concluded experiment reading running onwards =>
      -- The experiment has lasted for the length that is doubled now.
      have waited := lasts_of_realistic realistic running
      obtain ⟨before, -⟩ := planned.running experiment running
      have later := UInt64.le_iff_toNat_le.mp onwards
      have below := reading.now.toNat_lt
      have started := planned.started
      obtain ⟨doubled, most⟩ := @doubled_nextLength _ (experiment.minDelta reading.tested) planned.doubled (by omega)
      refine ⟨started, planned.onwards.trans later, doubled, ?_, fun _ now => by cases now⟩
      show thread.startTime.toNat + (nextLength thread.experimentLength (experiment.minDelta reading.tested)).toNat ≤
        reading.now.toNat + experimentMinTime.toNat
      omega
  | counted experiment now lines logged onwards =>
      rw [ProfilerThread.countDown]
      split
      · exact planned.elsewhere rfl onwards rfl fun _ now => by cases now
      · exact planned.elsewhere rfl (UInt64.le_refl _) rfl fun _ now => by cases now
  | exited now lines leaving onwards => exact planned.elsewhere rfl onwards rfl fun _ now => by cases now

/-- The plan begins with the startup. -/
theorem planned_of_startup (fresh : thread.phase = .fresh) (realistic : Realistic thread action)
    (moved : Loop.step settings thread action = some next) : Planned settings next := by
  cases effect_of_step moved with
  | started now _ _ =>
      have least : experimentMinTime.toNat ≤ now.toNat := UInt64.le_iff_toNat_le.mp realistic
      exact ⟨least, Nat.le_refl _, ⟨0, by rw [pow_zero, Nat.mul_one]⟩, Nat.le_refl _, fun _ now => by cases now⟩
  | ready waiting => simp [waiting] at fresh
  | stopped choosing => simp [choosing] at fresh
  | began reading choosing => simp [choosing] at fresh
  | concluded experiment reading running => simp [running] at fresh
  | counted experiment now lines logged => simp [logged] at fresh
  | exited now lines leaving => simp [leaving] at fresh

end Steps

/-! ### Runs -/

section Runs

variable {settings : Settings} {actions : List Action} {final : ProfilerThread}

/-- What is concluded has gone as planned. -/
structure AsPlanned (settings : Settings) (concluded : ProfilerThread × Experiment × Ending) : Prop where
  doubled : Doubled concluded.1.experimentLength
  spent : concluded.1.startTime.toNat + concluded.1.experimentLength.toNat ≤
    concluded.2.1.startTime.toNat + experimentMinTime.toNat
  lasted : concluded.2.1.startTime.toNat + concluded.1.experimentLength.toNat ≤ concluded.2.2.now.toNat
  tries : Tries settings concluded.2.1.delaySize
  speedup : settings.fixedDelaySize = none →
    ∃ divisions ≤ 20, (concluded.2.1.delaySize * 100 / samplePeriod).toNat = 5 * divisions

theorem Planned.concludes {thread : ProfilerThread} {action : Action} (planned : Planned settings thread)
    (realistic : Realistic thread action) : ∀ concluded ∈ concludes thread action, AsPlanned settings concluded := by
  intro concluded among
  unfold Loop.concludes at among
  split at among
  · split at among
    · rename_i reading experiment running
      obtain rfl := List.mem_singleton.mp among
      obtain ⟨spent, tries⟩ := planned.running experiment running
      exact ⟨planned.doubled, spent, lasts_of_realistic realistic running, tries, fun free => speedup_of_tries free tries⟩
    · cases among
  · cases among

/-- **Every experiment of a run goes as planned**: its planned length is the least one, doubled some number of times
without an overflow and never beyond the time since the start, it lasts for that length, and its speedup is the
fixed one or a multiple of 5 hundredths up to 100. -/
theorem experiment_plan (realistic : Along (step settings) Realistic fresh actions)
    (ran : run (step settings) fresh actions = some final) :
    (final.phase = .fresh ∨ Planned settings final) ∧
      ∀ concluded ∈ trace (step settings) concludes fresh actions, AsPlanned settings concluded := by
  refine run_history (motive := fun past thread => Along (step settings) Realistic fresh past →
    (thread.phase = .fresh ∨ Planned settings thread) ∧
      ∀ concluded ∈ trace (step settings) concludes fresh past, AsPlanned settings concluded)
    (fun _ => ⟨.inl rfl, fun _ now => by cases now⟩) ?_ ran realistic
  intro past thread action next before ih moved realistic
  obtain ⟨planned, earlier⟩ := ih realistic.left
  have here := realistic.last before
  rw [trace_concat before]
  rcases planned with fresh | planned
  · refine ⟨.inr (planned_of_startup fresh here moved), fun concluded among => ?_⟩
    refine (List.mem_append.mp among).elim (earlier concluded) fun now => ?_
    unfold concludes at now
    split at now
    · simp [fresh] at now
    · cases now
  · refine ⟨.inr (planned.step here moved), fun concluded among => ?_⟩
    exact (List.mem_append.mp among).elim (earlier concluded) (planned.concludes here concluded)

end Runs

/-- The sleep of `oneExperiment`, with a signal in between. -/
def twoNaps : List Nap :=
  [.interrupted 2200000150 ⟨0, 300000000⟩, .slept 2500000200]

theorem experiment_plan_half : ∃ final, run (step free) fresh oneExperiment = some final ∧
    (final.phase = .fresh ∨ Planned free final) ∧
      ∀ concluded ∈ trace (step free) concludes fresh oneExperiment, AsPlanned free concluded := by
  obtain ⟨final, ran⟩ := Option.isSome_iff_exists.mp
    (by decide +kernel : (run (step free) fresh oneExperiment).isSome)
  refine ⟨final, ran, experiment_plan ?_ ran⟩
  have started : experimentMinTime ≤ 1000000000 := by decide
  have drawn : (0 : UInt64) ≤ zeroSpeedupWeight + speedupDivisions := by decide
  refine along_cons started rfl (along_cons trivial rfl (along_cons drawn rfl (along_cons ?_ rfl
    (along_cons trivial rfl (along_cons trivial rfl (along_cons trivial rfl along_nil))))))
  intro experiment running
  obtain rfl := Phase.running.inj running
  refine ⟨2000000100, twoNaps, 500000100, by decide, ⟨?_, ?_⟩, rfl, by decide⟩
  · rw [total_timespecOf]
    decide
  · show 2200000150 + Timespec.total ⟨0, 300000000⟩ ≤ 2500000200
    decide

end Loop

end Mcoz.Profiler
