/-
Which visits of a progress point the log has.

The program registers its progress points and increments their counters while the profiler thread saves them at the
beginning of an experiment and logs the differences at its end. The counters are read one after the other, so the
machine is that of one counter: the profiler thread together with the visits of the program, and a reading of the
counter is that of its moment.

Every logged difference is the number of visits made in its experiment, and none is logged twice: over a run, the
differences that are logged for any lines and speedups add up to the visits made during their experiments
(`logged_visits_exact`). A point that is registered during an experiment is measured from the next one on.
-/

import Mcoz.Profiler.Runtime

set_option autoImplicit false

namespace Mcoz.Profiler

open Word Machine Loop

namespace Progress

/-! ### Counters -/

/-- A counter that `_coz_get_counter` hands out: that of a throughput point or one of a latency point. -/
inductive Counter
  | throughput (name : Bytes)
  | begins (name : Bytes)
  | ends (name : Bytes)

/-- The counter's value in a reading. -/
def Counter.read (visits : Visits) : Counter → UInt64
  | throughput name => visits.count name
  | begins name => visits.beginCount name
  | ends name => visits.endCount name

/-- The value that an experiment has saved, if it has saved the point. -/
def Counter.saved (experiment : Experiment) : Counter → Option UInt64
  | throughput name => (experiment.throughputPoints.find? fun saved => saved.name == name).map (·.startCount)
  | begins name => (experiment.latencyPoints.find? fun saved => saved.name == name).map (·.beginStartCount)
  | ends name => (experiment.latencyPoints.find? fun saved => saved.name == name).map (·.endStartCount)

/-- The point is in the map that the experiment reads. -/
def Counter.listed (reading : Beginning) : Counter → Bool
  | throughput name => reading.throughputNames.contains name
  | begins name => reading.latencyNames.contains name
  | ends name => reading.latencyNames.contains name

/-- The difference that is logged. -/
def Counter.delta (counter : Counter) (concluded : Experiment × Ending) : Option UInt64 :=
  (counter.saved concluded.1).map fun start => counter.read concluded.2.logged - start

/-- What an experiment tries: its line, and its speedup in hundredths. -/
structure Selection where
  file : Bytes
  line : UInt64
  speedup : ℕ
deriving DecidableEq

/-- The selection that `Experiment.records` logs. -/
def selection (experiment : Experiment) : Selection where
  file := experiment.file
  line := experiment.line
  speedup := (experiment.delaySize * 100 / samplePeriod).toNat

/-! ### The machine -/

/-- The profiler thread, and how often the counter has been incremented; whether its point is registered, and whether
it was when the last experiment began. -/
structure Session where
  thread : ProfilerThread
  visits : ℕ
  registered : Bool
  measured : Bool

/-- The program registers the point or visits it, or the profiler thread takes a step. -/
inductive Action
  | register
  | visit
  | profiler (action : Loop.Action)

/-- The step reads the maps of the points and the counter as they are. A map has a name once. -/
def reads (counter : Counter) (session : Session) : Loop.Action → Bool
  | .begin reading =>
      reading.throughputNames.Nodup && reading.latencyNames.Nodup &&
        counter.listed reading == session.registered && counter.read reading.visits == UInt64.ofNat session.visits
  | .conclude reading => counter.read reading.logged == UInt64.ofNat session.visits
  | _ => true

/-- Whether the running experiment measures the point, after the step. -/
def measures (session : Session) : Loop.Action → Bool
  | .begin _ => session.registered
  | _ => session.measured

/-- A step. A counter is there once its point is registered; one of 64 bits is not incremented so often that it starts
anew. -/
def step (settings : Settings) (counter : Counter) (session : Session) : Action → Option Session
  | .register => some { session with registered := true }
  | .visit =>
      if session.registered ∧ session.visits + 1 < 2 ^ 64 then some { session with visits := session.visits + 1 }
      else none
  | .profiler action =>
      if reads counter session action then
        (Loop.step settings session.thread action).map fun thread =>
          { session with thread := thread, measured := measures session action }
      else none

/-- Before the profiler starts. -/
def start : Session where
  thread := fresh
  visits := 0
  registered := false
  measured := false

/-- The experiments that the step concludes. -/
def concluded (session : Session) : Action → List (Experiment × Ending)
  | .profiler (.conclude reading) =>
      match session.thread.phase with
      | .running experiment => [(experiment, reading)]
      | _ => []
  | _ => []

/-- The visit that the step makes during an experiment that began after the point was registered. -/
def visited (session : Session) : Action → List Selection
  | .visit =>
      match session.thread.phase with
      | .running experiment => if session.measured then [selection experiment] else []
      | _ => []
  | _ => []

/-- The experiments of a run, in order. -/
def experiments (settings : Settings) (counter : Counter) (actions : List Action) : List (Experiment × Ending) :=
  trace (step settings counter) concluded start actions

/-- The visits of a run that are made during experiments which began after the point was registered. -/
def visitsDuring (settings : Settings) (counter : Counter) (actions : List Action) : List Selection :=
  trace (step settings counter) visited start actions

/-- What is logged of the counter for some selections. -/
def logged (counter : Counter) (of : Selection → Bool) (concluded : List (Experiment × Ending)) : List UInt64 :=
  (concluded.filter fun one => of (selection one.1)).filterMap counter.delta

/-- The visits of the running experiment that are not logged yet. -/
def pending (counter : Counter) (of : Selection → Bool) (session : Session) : ℕ :=
  match session.thread.phase with
  | .running experiment =>
      if of (selection experiment) then
        ((counter.saved experiment).map fun start => session.visits - start.toNat).getD 0
      else 0
  | _ => 0

/-! ### The ledger -/

section Ledger

variable {settings : Settings} {counter : Counter} {session next : Session} {action : Action}
  {past actions : List Action} {of : Selection → Bool}

/-- What an experiment saves of the counter is what it read. -/
theorem saved_begin {reading : Beginning} {start : UInt64}
    (saved : counter.saved (beginExperiment settings reading) = some start) : start = counter.read reading.visits := by
  cases counter with
  | throughput name | begins name | ends name =>
      simp only [Counter.saved, beginExperiment, List.find?_map, Option.map_map, Option.map_eq_some_iff,
        Function.comp_apply, Counter.read] at saved ⊢
      obtain ⟨other, found, rfl⟩ := saved
      have same : other = name := by simpa using List.find?_some found
      rw [same]

/-- An experiment saves the points that are in the maps. -/
theorem saved_isSome_begin (reading : Beginning) :
    (counter.saved (beginExperiment settings reading)).isSome = counter.listed reading := by
  rw [Bool.eq_iff_iff]
  cases counter <;>
    simp [Counter.saved, Counter.listed, beginExperiment, List.find?_map, Function.comp_def]

/-- The visits made during experiments are those that are logged and those of the running experiment, which has
saved a count that was reached, if the point was registered. -/
structure Balanced (settings : Settings) (counter : Counter) (past : List Action) (session : Session) : Prop where
  small : session.visits < 2 ^ 64
  saved : ∀ experiment, session.thread.phase = .running experiment →
    (counter.saved experiment).isSome = session.measured
  reached : ∀ experiment start, session.thread.phase = .running experiment →
    counter.saved experiment = some start → start.toNat ≤ session.visits
  book : ∀ of, ((logged counter of (experiments settings counter past)).map UInt64.toNat).sum +
    pending counter of session = (visitsDuring settings counter past).countP of

/-- The ways a step can end. -/
inductive Effect (settings : Settings) (counter : Counter) (session : Session) : Action → Session → Prop
  | registered : Effect settings counter session .register { session with registered := true }
  | visited (small : session.visits + 1 < 2 ^ 64) :
      Effect settings counter session .visit { session with visits := session.visits + 1 }
  | began (reading : Beginning) (choosing : session.thread.phase = .choosing) (thread : ProfilerThread)
      (phase : thread.phase = .running (beginExperiment settings reading))
      (different : reading.throughputNames.Nodup) (listed : counter.listed reading = session.registered)
      (read : counter.read reading.visits = UInt64.ofNat session.visits) :
      Effect settings counter session (.profiler (.begin reading))
        { session with thread := thread, measured := session.registered }
  | concluded (experiment : Experiment) (reading : Ending) (running : session.thread.phase = .running experiment)
      (thread : ProfilerThread) (phase : thread.phase = .logged experiment)
      (read : counter.read reading.logged = UInt64.ofNat session.visits) :
      Effect settings counter session (.profiler (.conclude reading)) { session with thread := thread }
  | elsewhere (action : Loop.Action) (idle : ∀ experiment, session.thread.phase ≠ .running experiment)
      (thread : ProfilerThread) (still : ∀ experiment, thread.phase ≠ .running experiment) :
      Effect settings counter session (.profiler action) { session with thread := thread }

theorem effect_of_step (moved : step settings counter session action = some next) :
    Effect settings counter session action next := by
  cases action with
  | register =>
      obtain rfl := Option.some.inj moved
      exact .registered
  | visit =>
      obtain ⟨small, same⟩ := Option.ite_none_right_eq_some.mp moved
      obtain rfl := Option.some.inj same
      exact .visited small.2
  | profiler action =>
      obtain ⟨read, there⟩ := Option.ite_none_right_eq_some.mp moved
      obtain ⟨thread, ran, rfl⟩ := Option.map_eq_some_iff.mp there
      have effect := Loop.effect_of_step ran
      cases effect with
      | started now fresh => exact .elsewhere _ (by simp [fresh]) _ (by simp)
      | ready waiting => exact .elsewhere _ (by simp [waiting]) _ (by simp)
      | stopped choosing => exact .elsewhere _ (by simp [choosing]) _ (by simp)
      | began reading choosing =>
          simp only [reads, Bool.and_eq_true, decide_eq_true_eq, beq_iff_eq] at read
          exact .began reading choosing _ rfl read.1.1.1 read.1.2 read.2
      | concluded experiment reading running =>
          exact .concluded experiment reading running _ rfl (beq_iff_eq.mp read)
      | counted experiment now lines logged =>
          refine .elsewhere _ (by simp [logged]) _ fun experiment => ?_
          rw [ProfilerThread.countDown]
          split <;> simp
      | exited now lines leaving => exact .elsewhere _ (by simp [leaving]) _ (by simp)

/-- Of a run that goes on, the experiments and the visits go on. -/
theorem experiments_concat (ran : run (step settings counter) start past = some session) :
    experiments settings counter (past ++ [action]) = experiments settings counter past ++ concluded session action :=
  trace_concat ran action

theorem visitsDuring_concat (ran : run (step settings counter) start past = some session) :
    visitsDuring settings counter (past ++ [action]) =
      visitsDuring settings counter past ++ visited session action :=
  trace_concat ran action

theorem logged_append (earlier later : List (Experiment × Ending)) :
    logged counter of (earlier ++ later) = logged counter of earlier ++ logged counter of later := by
  rw [logged, List.filter_append, List.filterMap_append]
  rfl

theorem pending_of_idle (idle : ∀ experiment, session.thread.phase ≠ .running experiment) :
    pending counter of session = 0 := by
  unfold pending
  split
  · rename_i experiment running
    exact absurd running (idle experiment)
  · rfl

/-- A visit is pending if it is made during an experiment, and then it counts. -/
theorem pending_visit (measured : ∀ experiment, session.thread.phase = .running experiment →
      (counter.saved experiment).isSome = session.measured) (reached : ∀ experiment start, session.thread.phase = .running experiment →
      counter.saved experiment = some start → start.toNat ≤ session.visits) :
    pending counter of { session with visits := session.visits + 1 } =
      pending counter of session + (visited session .visit).countP of := by
  unfold pending visited
  cases phase : session.thread.phase with
  | running experiment =>
      have same := measured experiment phase
      cases saved : counter.saved experiment with
      | none =>
          rw [saved, Option.isSome_none] at same
          simp [saved, ← same]
      | some start =>
          rw [saved, Option.isSome_some] at same
          have low := reached experiment start phase saved
          by_cases chosen : of (selection experiment)
          · simp only [saved, ← same, chosen, if_true, Option.map_some, Option.getD_some, List.countP_singleton]
            omega
          · simp [← same, chosen]
  | fresh | waiting | choosing | logged | leaving | done => rfl

/-- What an experiment logs is what was pending. -/
theorem logged_concluded {experiment : Experiment} {reading : Ending} (small : session.visits < 2 ^ 64)
    (running : session.thread.phase = .running experiment)
    (reached : ∀ start, counter.saved experiment = some start → start.toNat ≤ session.visits)
    (read : counter.read reading.logged = UInt64.ofNat session.visits) :
    ((logged counter of [(experiment, reading)]).map UInt64.toNat).sum = pending counter of session := by
  rw [pending, running]
  by_cases same : of (selection experiment)
  · cases saved : counter.saved experiment with
    | none => simp [logged, same, Counter.delta, saved]
    | some start =>
        have low := reached start saved
        have below : start ≤ UInt64.ofNat session.visits := by
          rw [UInt64.le_iff_toNat_le, UInt64.toNat_ofNat_of_lt' small]
          exact low
        have difference : (UInt64.ofNat session.visits - start).toNat = session.visits - start.toNat := by
          rw [UInt64.toNat_sub_of_le _ _ below, UInt64.toNat_ofNat_of_lt' small]
        simp [logged, same, Counter.delta, saved, read, difference]
  · simp [logged, same]

/-- **The ledger of one step.** -/
theorem Balanced.step (balanced : Balanced settings counter past session)
    (ran : run (step settings counter) start past = some session)
    (moved : Progress.step settings counter session action = some next) :
    Balanced settings counter (past ++ [action]) next := by
  have effect := effect_of_step moved
  have book := balanced.book
  cases effect with
  | registered =>
      refine ⟨balanced.small, balanced.saved, balanced.reached, fun of => ?_⟩
      rw [experiments_concat ran, visitsDuring_concat ran, List.countP_append, ← book of, logged_append]
      simp [concluded, visited, logged, pending]
  | visited small =>
      refine ⟨small, balanced.saved, fun experiment start running saved =>
        Nat.le_succ_of_le (balanced.reached experiment start running saved), fun of => ?_⟩
      rw [experiments_concat ran, visitsDuring_concat ran, List.countP_append, ← book of,
        pending_visit balanced.saved balanced.reached, logged_append]
      simp [concluded, logged, Nat.add_assoc]
  | began reading choosing thread phase different listed read =>
      have idle : ∀ experiment, session.thread.phase ≠ .running experiment := by simp [choosing]
      have start {count : UInt64} (saved : counter.saved (beginExperiment settings reading) = some count) :
          count.toNat = session.visits := by
        rw [saved_begin saved, read, UInt64.toNat_ofNat_of_lt' balanced.small]
      refine ⟨balanced.small, fun experiment running => ?_, fun experiment count running saved => ?_, fun of => ?_⟩
      · obtain rfl : beginExperiment settings reading = experiment := Phase.running.inj (phase.symm.trans running)
        exact (saved_isSome_begin reading).trans listed
      · obtain rfl : beginExperiment settings reading = experiment := Phase.running.inj (phase.symm.trans running)
        exact Nat.le_of_eq (start saved)
      · have nothing : pending counter of
            { session with thread := thread, measured := session.registered } = 0 := by
          unfold pending
          simp only [phase]
          cases saved : counter.saved (beginExperiment settings reading) with
          | none => simp
          | some count => simp [start saved]
        rw [experiments_concat ran, visitsDuring_concat ran, nothing, List.countP_append, ← book of,
          pending_of_idle idle, logged_append]
        simp [concluded, visited, logged]
  | concluded experiment reading running thread phase read =>
      have still : ∀ other, ({ session with thread := thread } : Session).thread.phase ≠ .running other := by
        simp [phase]
      refine ⟨balanced.small, fun other now => absurd now (still other),
        fun other start now => absurd now (still other), fun of => ?_⟩
      have paid : ((logged counter of [(experiment, reading)]).map UInt64.toNat).sum = pending counter of session :=
        logged_concluded balanced.small running
          (fun start saved => balanced.reached experiment start running saved) read
      rw [experiments_concat ran, visitsDuring_concat ran, pending_of_idle still, List.countP_append, ← book of,
        ← paid, logged_append]
      simp [Progress.concluded, visited, running]
  | elsewhere other idle thread still =>
      refine ⟨balanced.small, fun experiment now => absurd now (still experiment),
        fun experiment start now => absurd now (still experiment), fun of => ?_⟩
      have silent : concluded session (.profiler other) = [] := by
        unfold concluded
        split
        · split
          · rename_i experiment running
            exact absurd running (idle experiment)
          · rfl
        · rfl
      rw [experiments_concat ran, visitsDuring_concat ran, silent, List.append_nil, pending_of_idle still,
        List.countP_append, ← book of, pending_of_idle idle]
      simp [visited]

/-- The ledger of a run. -/
theorem balanced_run {final : Session} (ran : run (Progress.step settings counter) start actions = some final) :
    Balanced settings counter actions final := by
  refine run_history (motive := Balanced settings counter) ?_ ?_ ran
  · refine ⟨by decide, fun experiment running => ?_, fun experiment start running => ?_, fun of => ?_⟩
    · cases running
    · cases running
    · simp [experiments, visitsDuring, logged, pending, Progress.start, fresh]
  · exact fun past session action next before balanced moved => balanced.step before moved

/-- The ledger when no experiment is running. -/
theorem Balanced.exact_of_idle (balanced : Balanced settings counter past session)
    (idle : ∀ experiment, session.thread.phase ≠ .running experiment) :
    ((logged counter of (experiments settings counter past)).map UInt64.toNat).sum =
      (visitsDuring settings counter past).countP of := by
  rw [← balanced.book of, pending_of_idle idle, Nat.add_zero]

/-- **Every visit made during an experiment is logged with it, and only once.** The differences that are logged of a
counter for any lines and speedups, and the visits that the running experiment has still to log, add up to the visits
made during the experiments with these which began after the point was registered. -/
theorem logged_visits_exact {final : Session} (ran : run (Progress.step settings counter) start actions = some final)
    (of : Selection → Bool) :
    ((logged counter of (experiments settings counter actions)).map UInt64.toNat).sum + pending counter of final =
        (visitsDuring settings counter actions).countP of ∧
      ((∀ experiment, final.thread.phase ≠ .running experiment) → pending counter of final = 0) :=
  ⟨(balanced_run ran).book of, pending_of_idle⟩

/-! ### The records -/

/-- The records of a thread. -/
def recordsOf (thread : ProfilerThread) : List Record :=
  thread.output.map Prod.snd

/-- The record is not one of an experiment. -/
def isOther : Record → Bool
  | .startup _ => true
  | .runtime _ => true
  | .samples _ _ _ => true
  | _ => false

/-- The records of these experiments, in order, and other records between them. -/
inductive Logs : List Record → List (Experiment × Ending) → Prop
  | nil : Logs [] []
  | others {records more : List Record} {concluded : List (Experiment × Ending)} (before : Logs records concluded)
      (other : ∀ record ∈ more, isOther record) : Logs (records ++ more) concluded
  | experiment {records : List Record} {concluded : List (Experiment × Ending)} (before : Logs records concluded)
      (experiment : Experiment) (reading : Ending) :
      Logs (records ++ experiment.records reading) (concluded ++ [(experiment, reading)])

/-- What an experiment has logged is among the records. -/
theorem Logs.mem {records : List Record} {concluded : List (Experiment × Ending)} (logs : Logs records concluded)
    {one : Experiment × Ending} (among : one ∈ concluded) {record : Record} (its : record ∈ one.1.records one.2) :
    record ∈ records := by
  induction logs with
  | nil => cases among
  | others before other ih => exact List.mem_append_left _ (ih among)
  | experiment before experiment reading ih =>
      rcases List.mem_append.mp among with earlier | last
      · exact List.mem_append_left _ (ih earlier)
      · obtain rfl := List.mem_singleton.mp last
        exact List.mem_append_right _ its

theorem isOther_logSamples {startTime now : UInt64} {lines : List SampledLine} :
    ∀ record ∈ (logSamples startTime now lines).map Prod.snd, isOther record := by
  simp only [logSamples, List.map_cons, List.map_map, List.forall_mem_cons, List.forall_mem_map]
  exact ⟨rfl, fun _ _ => rfl⟩

/-- A step of the thread logs the experiment that it concludes. -/
theorem Logs.step {records : List (Experiment × Ending)} {thread next : ProfilerThread} {loopAction : Loop.Action}
    {visits : ℕ} {registered measured : Bool} (logs : Logs (recordsOf thread) records) (unstarted : thread.phase = .fresh → thread.output = [])
    (moved : Loop.step settings thread loopAction = some next) :
    Logs (recordsOf next) (records ++ concluded ⟨thread, visits, registered, measured⟩ (.profiler loopAction)) ∧ next.phase ≠ .fresh := by
  have quiet {records : List Record} {concluded : List (Experiment × Ending)} (logs : Logs records concluded) :
      Logs records (concluded ++ []) := by rwa [List.append_nil]
  cases Loop.effect_of_step moved with
  | started now fresh =>
      rw [recordsOf, unstarted fresh] at logs
      exact ⟨quiet (logs.others  (by simp [isOther])), fun now => by cases now⟩
  | ready waiting => exact ⟨quiet logs, fun now => by cases now⟩
  | stopped choosing => exact ⟨quiet logs, fun now => by cases now⟩
  | began reading choosing => exact ⟨quiet logs, fun now => by cases now⟩
  | concluded experiment reading running =>
      refine ⟨?_, fun now => by cases now⟩
      have one : concluded ⟨thread, visits, registered, measured⟩ (.profiler (.conclude reading)) = [(experiment, reading)] := by
        simp only [concluded, running]
      have written : recordsOf { thread with
          phase := .logged experiment
          clock := reading.now
          experimentLength := nextLength thread.experimentLength (experiment.minDelta reading.tested)
          output := thread.output ++ (experiment.records reading).map fun record => (reading.now, record) } =
            recordsOf thread ++ experiment.records reading := by
        simp [recordsOf, Function.comp_def]
      rw [one, written]
      exact logs.experiment experiment reading
  | counted experiment now lines logged =>
      rw [ProfilerThread.countDown]
      split
      · refine ⟨quiet ?_, fun now => by cases now⟩
        rw [recordsOf, List.map_append]
        exact logs.others isOther_logSamples
      · exact ⟨quiet logs, fun now => by cases now⟩
  | exited now lines leaving =>
      refine ⟨quiet ?_, fun now => by cases now⟩
      rw [recordsOf, List.map_append]
      exact logs.others isOther_logSamples

/-- **The records of a run** are those of its experiments, with others between them. -/
theorem logs_run (ran : run (Progress.step settings counter) start actions = some session) :
    Logs (recordsOf session.thread) (experiments settings counter actions) := by
  have initial : Logs (recordsOf start.thread) (experiments settings counter []) := .nil
  refine (run_history (motive := fun past session => Logs (recordsOf session.thread)
    (experiments settings counter past) ∧ (session.thread.phase = .fresh → session.thread.output = []))
    ⟨initial, fun _ => rfl⟩ ?_ ran).1
  rintro past session action next before ⟨logs, unstarted⟩ moved
  rw [experiments_concat before]
  cases action with
  | register =>
      obtain rfl := Option.some.inj moved
      exact ⟨by simpa [concluded] using logs, unstarted⟩
  | visit =>
      obtain ⟨-, same⟩ := Option.ite_none_right_eq_some.mp moved
      obtain rfl := Option.some.inj same
      exact ⟨by simpa [concluded] using logs, unstarted⟩
  | profiler action =>
      obtain ⟨-, there⟩ := Option.ite_none_right_eq_some.mp moved
      obtain ⟨thread, went, rfl⟩ := Option.map_eq_some_iff.mp there
      obtain ⟨after, onwards⟩ := logs.step unstarted went
      exact ⟨after, fun fresh => absurd fresh onwards⟩

/-- An experiment of a run has saved every point once. -/
theorem distinct_of_mem (ran : run (Progress.step settings counter) start actions = some session)
    {one : Experiment × Ending} (among : one ∈ experiments settings counter actions) :
    (one.1.throughputPoints.map fun saved => saved.name).Nodup := by
  refine (run_history (motive := fun past session =>
    (∀ experiment, session.thread.phase = .running experiment →
      (experiment.throughputPoints.map fun saved => saved.name).Nodup) ∧
    ∀ one ∈ experiments settings counter past, (one.1.throughputPoints.map fun saved => saved.name).Nodup)
    ⟨fun _ running => (by cases running), fun _ there => (by cases there)⟩ ?_ ran).2 one among
  rintro past session action next before ⟨running, done⟩ moved
  constructor
  · intro experiment now
    cases effect_of_step moved with
    | registered => exact running experiment now
    | visited => exact running experiment now
    | began reading choosing thread phase different listed read =>
        obtain rfl : beginExperiment settings reading = experiment := Phase.running.inj (phase.symm.trans now)
        simpa [beginExperiment, Function.comp_def] using different
    | concluded other reading was thread phase read => exact absurd (now.symm.trans phase) (by simp)
    | elsewhere other idle thread still => exact absurd now (still experiment)
  · intro one there
    rw [experiments_concat before, List.mem_append] at there
    rcases there with earlier | last
    · exact done one earlier
    · unfold concluded at last
      split at last
      · split at last
        · rename_i experiment now
          obtain rfl := List.mem_singleton.mp last
          exact running experiment now
        · cases last
      · cases last

end Ledger

/-- A reading of a throughput point that has been visited so often. -/
def counts (visits : UInt64) : Visits where
  count := fun _ => visits
  beginCount := fun _ => 0
  endCount := fun _ => 0

/-- A point is registered during an experiment, in which it is visited once; before the next experiment it is visited
once, during it twice, and once after it. -/
def visiting : List Action :=
  [.profiler (.startup 1000000000), .profiler .ready,
    .profiler (.begin ⟨(ascii "a.c", 10), 0, 2000000000, 0, 0, [ascii "other"], [], counts 0⟩), .register, .visit,
    .profiler (.conclude ⟨0, 2500000000, 0, counts 1, counts 1⟩), .visit, .profiler (.countdown 2500000000 []),
    .profiler (.begin ⟨(ascii "a.c", 10), 0, 2600000000, 0, 0, [ascii "point", ascii "other"], [], counts 2⟩),
    .visit, .visit, .profiler (.conclude ⟨0, 3600000000, 0, counts 4, counts 4⟩), .visit,
    .profiler (.countdown 3600000000 [])]

theorem logged_visits_exact_two :
    ((logged (.throughput (ascii "point")) (fun of => of.line = 10)
        (experiments free (.throughput (ascii "point")) visiting)).map UInt64.toNat).sum =
      (visitsDuring free (.throughput (ascii "point")) visiting).countP fun of => of.line = 10 := by
  have ends : (run (Progress.step free (.throughput (ascii "point"))) start visiting).map
      (fun session => session.thread.phase.experiment.isNone) = some true := by decide +kernel
  obtain ⟨final, ran, idle⟩ := Option.map_eq_some_iff.mp ends
  obtain ⟨book, nothing⟩ := logged_visits_exact ran fun of => of.line = 10
  have settled := nothing fun experiment running => by
    rw [running] at idle
    exact Bool.false_ne_true idle
  rwa [settled, Nat.add_zero] at book

end Progress

end Mcoz.Profiler
