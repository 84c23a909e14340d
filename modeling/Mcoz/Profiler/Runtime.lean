/-
The profiler thread and the runtimes that it logs.

`profiler_thread` logs the time of its start and then one experiment after the other. It logs the time since its
start when it ends, and also after every 32nd experiment; but there `start_time` is the variable of the experiment,
which hides the one of the thread. So the runtimes are those since the start exactly as long as no experiment whose
number is divisible by 32 began later: `runtimes_throughout_iff`.
-/

import Mcoz.Lib.Machine
import Mcoz.Profiler.Log

set_option autoImplicit false

namespace Mcoz.Profiler

open Word Machine

namespace Loop

/-! ### Constants -/

/-- `SamplePeriod`. -/
def samplePeriod : UInt64 := 1000000

/-- `SampleBatchSize`. -/
def sampleBatchSize : UInt64 := 10

/-- `SpeedupDivisions`. -/
def speedupDivisions : UInt64 := 20

/-- `ZeroSpeedupWeight`. -/
def zeroSpeedupWeight : UInt64 := 7

/-- `ExperimentMinTime`. -/
def experimentMinTime : UInt64 := samplePeriod * sampleBatchSize * 50

/-- `ExperimentTargetDelta`. -/
def experimentTargetDelta : UInt64 := 5

/-! ### An experiment -/

/-- The counters of the progress points, by their names. -/
structure Visits where
  count : Bytes → UInt64
  beginCount : Bytes → UInt64
  endCount : Bytes → UInt64

/-- `throughput_point::saved`. -/
structure SavedThroughput where
  name : Bytes
  startCount : UInt64

/-- `get_delta`. -/
def SavedThroughput.getDelta (saved : SavedThroughput) (visits : Visits) : UInt64 :=
  visits.count saved.name - saved.startCount

/-- `throughput_point::saved::log`. -/
def SavedThroughput.log (saved : SavedThroughput) (visits : Visits) : Record :=
  .throughputPoint saved.name (saved.getDelta visits)

/-- `latency_point::saved`. -/
structure SavedLatency where
  name : Bytes
  beginStartCount : UInt64
  endStartCount : UInt64

/-- `get_begin_delta`. -/
def SavedLatency.getBeginDelta (saved : SavedLatency) (visits : Visits) : UInt64 :=
  visits.beginCount saved.name - saved.beginStartCount

/-- `get_end_delta`. -/
def SavedLatency.getEndDelta (saved : SavedLatency) (visits : Visits) : UInt64 :=
  visits.endCount saved.name - saved.endStartCount

/-- `latency_point::saved::log`. -/
def SavedLatency.log (saved : SavedLatency) (visits : Visits) : Record :=
  .latencyPoint saved.name (saved.getBeginDelta visits) (saved.getEndDelta visits)
    (visits.beginCount saved.name - visits.endCount saved.name)

/-- The variables of an experiment; `startTime` is the `start_time` of the loop's body. -/
structure Experiment where
  file : Bytes
  line : UInt64
  delaySize : UInt64
  startTime : UInt64
  startingSamples : UInt64
  startingDelayTime : UInt64
  throughputPoints : List SavedThroughput
  latencyPoints : List SavedLatency

/-- What the user has fixed. -/
structure Settings where
  fixedLine : Option (Bytes × UInt64)
  fixedDelaySize : Option UInt64

/-- What the thread reads when an experiment begins: the next line, the random number, the clock, the samples of
the line, the global delay, and the progress points. -/
structure Beginning where
  nextLine : Bytes × UInt64
  random : UInt64
  now : UInt64
  samples : UInt64
  globalDelay : UInt64
  throughputNames : List Bytes
  latencyNames : List Bytes
  visits : Visits

/-- What it reads when an experiment is over. The counters are read once for the least change, and once more to
be logged. -/
structure Ending where
  globalDelay : UInt64
  now : UInt64
  samples : UInt64
  tested : Visits
  logged : Visits

/-- The choice of a delay size. -/
def chooseDelay (settings : Settings) (random : UInt64) : UInt64 :=
  match settings.fixedDelaySize with
  | some delaySize => delaySize
  | none =>
      if random ≤ zeroSpeedupWeight then 0
      else (random - zeroSpeedupWeight) * samplePeriod / speedupDivisions

/-- The beginning of an experiment. -/
def beginExperiment (settings : Settings) (reading : Beginning) : Experiment where
  file := (settings.fixedLine.getD reading.nextLine).1
  line := (settings.fixedLine.getD reading.nextLine).2
  delaySize := chooseDelay settings reading.random
  startTime := reading.now
  startingSamples := reading.samples
  startingDelayTime := reading.globalDelay
  throughputPoints := reading.throughputNames.map fun name => ⟨name, reading.visits.count name⟩
  latencyPoints := reading.latencyNames.map fun name =>
    ⟨name, reading.visits.beginCount name, reading.visits.endCount name⟩

/-- `min_delta`. -/
def Experiment.minDelta (experiment : Experiment) (visits : Visits) : UInt64 :=
  ((experiment.throughputPoints.map fun saved => saved.getDelta visits) ++
    experiment.latencyPoints.flatMap fun saved => [saved.getBeginDelta visits, saved.getEndDelta visits]).foldl
      (fun least delta => if delta < least then delta else least) 18446744073709551615

/-- The records of an experiment that is over. The speedup is a multiple of a hundredth. -/
def Experiment.records (experiment : Experiment) (reading : Ending) : List Record :=
  .experiment experiment.file experiment.line (experiment.delaySize * 100 / samplePeriod).toNat
      (reading.now - experiment.startTime - (reading.globalDelay - experiment.startingDelayTime))
      (reading.samples - experiment.startingSamples) ::
    ((experiment.throughputPoints.map fun saved => saved.log reading.logged) ++
      experiment.latencyPoints.map fun saved => saved.log reading.logged)

/-- The length of the next experiment. -/
def nextLength (experimentLength minDelta : UInt64) : UInt64 :=
  if minDelta < experimentTargetDelta then experimentLength * 2
  else if experimentTargetDelta * 2 < minDelta ∧ experimentMinTime * 2 ≤ experimentLength then
    experimentLength / 2
  else experimentLength

/-! ### The thread -/

/-- Where the thread is: before its start, before the loop, at the head of the loop, in an experiment, behind its
records, behind the loop, and at its end. -/
inductive Phase
  | fresh
  | waiting
  | choosing
  | running (experiment : Experiment)
  | logged (experiment : Experiment)
  | leaving
  | done

/-- The profiler thread: where it is, the last reading of the clock, its variables, and its records, each with the
clock when it was written. `startTime` is the `start_time` of the function's body. -/
structure ProfilerThread where
  phase : Phase
  clock : UInt64
  startTime : UInt64
  experimentLength : UInt64
  sampleLogInterval : UInt64
  sampleLogCountdown : UInt64
  output : List (UInt64 × Record)

/-- A line of the memory map, with its samples when they are tested and when they are logged. -/
structure SampledLine where
  file : Bytes
  line : UInt64
  tested : UInt64
  count : UInt64

/-- A step of the thread: it starts, a progress point is there, `_running` is found false, an experiment begins and
ends, the countdown goes on, and the thread ends. -/
inductive Action
  | startup (now : UInt64)
  | ready
  | stop
  | begin (reading : Beginning)
  | conclude (reading : Ending)
  | countdown (now : UInt64) (lines : List SampledLine)
  | exit (now : UInt64) (lines : List SampledLine)

/-- `log_samples`. -/
def logSamples (startTime now : UInt64) (lines : List SampledLine) : List (UInt64 × Record) :=
  (now, .runtime (now - startTime)) ::
    (lines.filter fun sampled => 0 < sampled.tested).map fun sampled =>
      (now, .samples sampled.file sampled.line sampled.count)

/-- The end of the loop's body: every so many experiments the samples are logged, with the `start_time` that is in
scope there. -/
def ProfilerThread.countDown (thread : ProfilerThread) (experiment : Experiment) (now : UInt64)
    (lines : List SampledLine) : ProfilerThread :=
  if thread.sampleLogCountdown - 1 = 0 then
    let interval :=
      if thread.sampleLogInterval < 20 then thread.sampleLogInterval * 2 else thread.sampleLogInterval
    { thread with
      phase := .choosing
      clock := now
      sampleLogInterval := interval
      sampleLogCountdown := interval
      output := thread.output ++ logSamples experiment.startTime now lines }
  else { thread with phase := .choosing, sampleLogCountdown := thread.sampleLogCountdown - 1 }

/-- A step, with a clock that does not go back. -/
def step (settings : Settings) (thread : ProfilerThread) (action : Action) : Option ProfilerThread :=
  match thread.phase, action with
  | .fresh, .startup now =>
      if thread.clock ≤ now then
        some
          { phase := .waiting
            clock := now
            startTime := now
            experimentLength := experimentMinTime
            sampleLogInterval := 32
            sampleLogCountdown := 32
            output := [(now, .startup now)] }
      else none
  | .waiting, .ready => some { thread with phase := .choosing }
  | .choosing, .stop => some { thread with phase := .leaving }
  | .choosing, .begin reading =>
      if thread.clock ≤ reading.now then
        some { thread with phase := .running (beginExperiment settings reading), clock := reading.now }
      else none
  | .running experiment, .conclude reading =>
      if thread.clock ≤ reading.now then
        some
          { thread with
            phase := .logged experiment
            clock := reading.now
            experimentLength := nextLength thread.experimentLength (experiment.minDelta reading.tested)
            output := thread.output ++ (experiment.records reading).map fun record => (reading.now, record) }
      else none
  | .logged experiment, .countdown now lines =>
      if thread.clock ≤ now then some (thread.countDown experiment now lines) else none
  | .leaving, .exit now lines =>
      if thread.clock ≤ now then
        some
          { thread with
            phase := .done
            clock := now
            output := thread.output ++ logSamples thread.startTime now lines }
      else none
  | _, _ => none

/-- The thread before its start. -/
def fresh : ProfilerThread where
  phase := .fresh
  clock := 0
  startTime := 0
  experimentLength := 0
  sampleLogInterval := 0
  sampleLogCountdown := 0
  output := []

/-! ### Inversion of a step -/

/-- The ways a step can end. -/
inductive Effect (settings : Settings) (thread : ProfilerThread) : Action → ProfilerThread → Prop
  | started (now : UInt64) (fresh : thread.phase = .fresh) (onwards : thread.clock ≤ now) :
      Effect settings thread (.startup now)
        { phase := .waiting
          clock := now
          startTime := now
          experimentLength := experimentMinTime
          sampleLogInterval := 32
          sampleLogCountdown := 32
          output := [(now, .startup now)] }
  | ready (waiting : thread.phase = .waiting) :
      Effect settings thread .ready { thread with phase := .choosing }
  | stopped (choosing : thread.phase = .choosing) :
      Effect settings thread .stop { thread with phase := .leaving }
  | began (reading : Beginning) (choosing : thread.phase = .choosing) (onwards : thread.clock ≤ reading.now) :
      Effect settings thread (.begin reading)
        { thread with phase := .running (beginExperiment settings reading), clock := reading.now }
  | concluded (experiment : Experiment) (reading : Ending) (running : thread.phase = .running experiment)
      (onwards : thread.clock ≤ reading.now) :
      Effect settings thread (.conclude reading)
        { thread with
          phase := .logged experiment
          clock := reading.now
          experimentLength := nextLength thread.experimentLength (experiment.minDelta reading.tested)
          output := thread.output ++ (experiment.records reading).map fun record => (reading.now, record) }
  | counted (experiment : Experiment) (now : UInt64) (lines : List SampledLine)
      (logged : thread.phase = .logged experiment) (onwards : thread.clock ≤ now) :
      Effect settings thread (.countdown now lines) (thread.countDown experiment now lines)
  | exited (now : UInt64) (lines : List SampledLine) (leaving : thread.phase = .leaving)
      (onwards : thread.clock ≤ now) :
      Effect settings thread (.exit now lines)
        { thread with
          phase := .done
          clock := now
          output := thread.output ++ logSamples thread.startTime now lines }

theorem effect_of_step {settings : Settings} {thread next : ProfilerThread} {action : Action}
    (moved : step settings thread action = some next) : Effect settings thread action next := by
  unfold step at moved
  split at moved
  · rename_i now fresh
    obtain ⟨onwards, same⟩ := Option.ite_none_right_eq_some.mp moved
    obtain rfl := Option.some.inj same
    exact .started now fresh onwards
  · rename_i waiting
    obtain rfl := Option.some.inj moved
    exact .ready waiting
  · rename_i choosing
    obtain rfl := Option.some.inj moved
    exact .stopped choosing
  · rename_i reading choosing
    obtain ⟨onwards, same⟩ := Option.ite_none_right_eq_some.mp moved
    obtain rfl := Option.some.inj same
    exact .began reading choosing onwards
  · rename_i experiment reading running
    obtain ⟨onwards, same⟩ := Option.ite_none_right_eq_some.mp moved
    obtain rfl := Option.some.inj same
    exact .concluded experiment reading running onwards
  · rename_i experiment now lines logged
    obtain ⟨onwards, same⟩ := Option.ite_none_right_eq_some.mp moved
    obtain rfl := Option.some.inj same
    exact .counted experiment now lines logged onwards
  · rename_i now lines leaving
    obtain ⟨onwards, same⟩ := Option.ite_none_right_eq_some.mp moved
    obtain rfl := Option.some.inj same
    exact .exited now lines leaving onwards
  · cases moved

/-! ### What a step writes -/

/-- The `start_time` from which a step logs the runtime, if it does. -/
def logOrigin (thread : ProfilerThread) (action : Action) : Option UInt64 :=
  match thread.phase, action with
  | .logged experiment, .countdown _ _ =>
      if thread.sampleLogCountdown - 1 = 0 then some experiment.startTime else none
  | .leaving, .exit _ _ => some thread.startTime
  | _, _ => none

/-- The experiment that the thread is in, or has just logged. -/
def Phase.experiment : Phase → Option Experiment
  | running experiment => some experiment
  | logged experiment => some experiment
  | _ => none

/-- What a step of the started thread does: the clock goes on, and it writes records with the new clock, among
them no startup, and a runtime if there is an origin. -/
structure Writes (thread : ProfilerThread) (action : Action) (next : ProfilerThread) (new : List (UInt64 × Record)) :
    Prop where
  phase : next.phase ≠ .fresh
  startTime : next.startTime = thread.startTime
  clock : thread.clock ≤ next.clock
  experiment : ∀ experiment, next.phase.experiment = some experiment →
    experiment.startTime = next.clock ∨ thread.phase.experiment = some experiment
  output : next.output = thread.output ++ new
  written : ∀ pair ∈ new, pair.1 = next.clock
  startup : ∀ pair ∈ new, ∀ start, pair.2 ≠ .startup start
  runtime : ∀ time, (∃ pair ∈ new, pair.2 = .runtime time) ↔
    ∃ origin, logOrigin thread action = some origin ∧ time = next.clock - origin

section Steps

variable {settings : Settings} {thread next : ProfilerThread} {action : Action} {now origin time : UInt64}
  {lines : List SampledLine}

theorem mem_logSamples {pair : UInt64 × Record} (among : pair ∈ logSamples origin now lines) :
    pair.1 = now ∧ (∀ start, pair.2 ≠ .startup start) ∧
      ∀ time, pair.2 = .runtime time → time = now - origin := by
  rcases List.mem_cons.mp among with rfl | later
  · exact ⟨rfl, nofun, fun time same => (Record.runtime.inj same).symm⟩
  · obtain ⟨sampled, -, rfl⟩ := List.mem_map.mp later
    exact ⟨rfl, nofun, nofun⟩

theorem runtime_logSamples :
    (∃ pair ∈ logSamples origin now lines, pair.2 = .runtime time) ↔ time = now - origin := by
  constructor
  · rintro ⟨pair, among, same⟩
    exact (mem_logSamples among).2.2 time same
  · rintro rfl
    exact ⟨_, List.mem_cons_self .., rfl⟩

/-- The records of an experiment are neither startups nor runtimes. -/
theorem mem_records {experiment : Experiment} {reading : Ending} {record : Record}
    (among : record ∈ experiment.records reading) :
    (∀ start, record ≠ .startup start) ∧ ∀ time, record ≠ .runtime time := by
  rcases List.mem_cons.mp among with rfl | points
  · exact ⟨nofun, nofun⟩
  · rcases List.mem_append.mp points with throughput | latency
    · obtain ⟨saved, -, rfl⟩ := List.mem_map.mp throughput
      exact ⟨nofun, nofun⟩
    · obtain ⟨saved, -, rfl⟩ := List.mem_map.mp latency
      exact ⟨nofun, nofun⟩

/-- A step that writes nothing. -/
theorem Writes.nothing (phase : next.phase ≠ .fresh) (startTime : next.startTime = thread.startTime)
    (clock : thread.clock ≤ next.clock)
    (experiment : ∀ experiment, next.phase.experiment = some experiment →
      experiment.startTime = next.clock ∨ thread.phase.experiment = some experiment)
    (output : next.output = thread.output) (silent : logOrigin thread action = none) :
    Writes thread action next [] where
  phase := phase
  startTime := startTime
  clock := clock
  experiment := experiment
  output := by rw [output, List.append_nil]
  written := nofun
  startup := nofun
  runtime time := by simp [silent]

/-- A step that logs the samples, and the runtime since an origin. -/
theorem Writes.samples (phase : next.phase ≠ .fresh) (startTime : next.startTime = thread.startTime)
    (clock : thread.clock ≤ next.clock) (idle : ∀ experiment, next.phase.experiment ≠ some experiment)
    (output : next.output = thread.output ++ logSamples origin next.clock lines)
    (logs : logOrigin thread action = some origin) :
    Writes thread action next (logSamples origin next.clock lines) where
  phase := phase
  startTime := startTime
  clock := clock
  experiment experiment current := absurd current (idle experiment)
  output := output
  written pair among := (mem_logSamples among).1
  startup pair among := (mem_logSamples among).2.1
  runtime time := by
    rw [runtime_logSamples, logs]
    simp

/-- **Every step of the started thread** is one of these. -/
theorem writes_of_step (started : thread.phase ≠ .fresh) (moved : step settings thread action = some next) :
    ∃ new, Writes thread action next new := by
  cases effect_of_step moved with
  | started _ fresh _ => exact absurd fresh started
  | ready waiting =>
      exact ⟨[], Writes.nothing nofun rfl (UInt64.le_refl _) nofun rfl (by simp [logOrigin, waiting])⟩
  | stopped choosing =>
      exact ⟨[], Writes.nothing nofun rfl (UInt64.le_refl _) nofun rfl (by simp [logOrigin, choosing])⟩
  | began reading choosing onwards =>
      refine ⟨[], Writes.nothing nofun rfl onwards (fun experiment chosen => Or.inl ?_) rfl
        (by simp [logOrigin, choosing])⟩
      obtain rfl := Option.some.inj chosen
      rfl
  | concluded experiment reading running onwards =>
      refine ⟨_, ⟨nofun, rfl, onwards, fun other chosen => Or.inr ?_, rfl, ?_, ?_, fun time => ?_⟩⟩
      · rw [running]
        exact chosen
      · intro pair among
        obtain ⟨record, -, rfl⟩ := List.mem_map.mp among
        rfl
      · intro pair among start
        obtain ⟨record, there, rfl⟩ := List.mem_map.mp among
        exact (mem_records there).1 start
      · refine iff_of_false ?_ (by simp [logOrigin, running])
        rintro ⟨pair, among, same⟩
        obtain ⟨record, there, rfl⟩ := List.mem_map.mp among
        exact (mem_records there).2 time same
  | counted experiment now lines logged onwards =>
      by_cases expired : thread.sampleLogCountdown - 1 = 0
      · rw [ProfilerThread.countDown, if_pos expired]
        exact ⟨_, Writes.samples nofun rfl onwards nofun rfl (by simp [logOrigin, logged, expired])⟩
      · rw [ProfilerThread.countDown, if_neg expired]
        exact ⟨[], Writes.nothing nofun rfl (UInt64.le_refl _) nofun rfl (by simp [logOrigin, logged, expired])⟩
  | exited now lines leaving onwards =>
      exact ⟨_, Writes.samples nofun rfl onwards nofun rfl (by simp [logOrigin, leaving])⟩

end Steps

/-! ### The runtimes -/

/-- Every runtime is the time from the logged startup to the moment of writing. -/
def Elapsed (output : List (UInt64 × Record)) : Prop :=
  ∀ began start, (began, Record.startup start) ∈ output → ∀ now time, (now, Record.runtime time) ∈ output →
    start.toNat + time.toNat = now.toNat

/-- No runtime is less than one before it. -/
def NonDecreasing (output : List (UInt64 × Record)) : Prop :=
  output.Pairwise fun earlier later => ∀ time time', earlier.2 = .runtime time → later.2 = .runtime time' →
    time ≤ time'

/-- If the samples are logged after an experiment, then it began when the thread started. -/
def BeganAtStart (thread : ProfilerThread) (action : Action) : Prop :=
  ∀ experiment now lines, thread.phase = .logged experiment → action = .countdown now lines →
    thread.sampleLogCountdown = 1 → experiment.startTime = thread.startTime

/-- What holds of the thread since it has started. -/
structure Started (thread : ProfilerThread) : Prop where
  phase : thread.phase ≠ .fresh
  startup : ∃ began, (began, Record.startup thread.startTime) ∈ thread.output
  only : ∀ began start, (began, Record.startup start) ∈ thread.output → start = thread.startTime
  ordered : thread.output.Pairwise fun earlier later => earlier.1 ≤ later.1
  past : ∀ pair ∈ thread.output, pair.1 ≤ thread.clock
  began : thread.startTime ≤ thread.clock
  experiment : ∀ experiment, thread.phase.experiment = some experiment → experiment.startTime ≤ thread.clock

section Runtimes

variable {settings : Settings} {thread next : ProfilerThread} {action : Action} {origin : UInt64}
  {new : List (UInt64 × Record)}

theorem Started.writes (started : Started thread) (writes : Writes thread action next new) : Started next where
  phase := writes.phase
  startup := by
    obtain ⟨began, logged⟩ := started.startup
    rw [writes.output, writes.startTime]
    exact ⟨began, List.mem_append_left _ logged⟩
  only := by
    intro began start logged
    rw [writes.output, List.mem_append] at logged
    rw [writes.startTime]
    rcases logged with old | late
    · exact started.only began start old
    · exact absurd rfl (writes.startup _ late start)
  ordered := by
    rw [writes.output, List.pairwise_append]
    refine ⟨started.ordered, List.pairwise_of_forall_mem_list fun first left second right => ?_,
      fun first old second late => ?_⟩
    · rw [writes.written first left, writes.written second right]
      exact UInt64.le_refl _
    · rw [writes.written second late]
      exact UInt64.le_trans (started.past first old) writes.clock
  past := by
    intro pair logged
    rw [writes.output, List.mem_append] at logged
    rcases logged with old | late
    · exact UInt64.le_trans (started.past pair old) writes.clock
    · rw [writes.written pair late]
      exact UInt64.le_refl _
  began := by
    rw [writes.startTime]
    exact UInt64.le_trans started.began writes.clock
  experiment := by
    intro experiment current
    rcases writes.experiment experiment current with now | before
    · rw [now]
      exact UInt64.le_refl _
    · exact UInt64.le_trans (started.experiment experiment before) writes.clock

theorem started_of_step (moved : step settings fresh action = some next) :
    Started next ∧ Elapsed next.output := by
  cases action with
  | startup now =>
      simp only [step, fresh] at moved
      obtain ⟨-, same⟩ := Option.ite_none_right_eq_some.mp moved
      obtain rfl := Option.some.inj same
      refine ⟨⟨nofun, ⟨now, List.mem_singleton_self _⟩, fun began start logged => ?_, List.pairwise_singleton .., ?_,
        UInt64.le_refl _, nofun⟩, fun began start _ now time logged => ?_⟩
      · cases List.mem_singleton.mp logged
        rfl
      · intro pair logged
        rw [List.mem_singleton.mp logged]
        exact UInt64.le_refl _
      · cases List.mem_singleton.mp logged
  | ready | stop | begin _ | conclude _ | countdown _ _ | exit _ _ => cases moved

/-- The runtime is logged from a time that is over. -/
theorem Started.origin_le (started : Started thread) (logs : logOrigin thread action = some origin) :
    origin ≤ thread.clock := by
  unfold logOrigin at logs
  split at logs
  · rename_i experiment now lines here
    split at logs
    · obtain rfl := Option.some.inj logs
      exact started.experiment experiment (by rw [here]; rfl)
    · cases logs
  · obtain rfl := Option.some.inj logs
    exact started.began
  · cases logs

theorem countdown_last : thread.sampleLogCountdown - 1 = 0 ↔ thread.sampleLogCountdown = 1 := by
  rw [UInt64.sub_eq_iff_eq_add, UInt64.zero_add]

theorem origins_iff :
    (∀ origin, logOrigin thread action = some origin → origin = thread.startTime) ↔ BeganAtStart thread action := by
  constructor
  · rintro origins experiment now lines here rfl one
    refine origins experiment.startTime ?_
    simp [logOrigin, here, countdown_last.mpr one]
  · intro began origin logs
    unfold logOrigin at logs
    split at logs
    · rename_i experiment now lines here
      split at logs
      · rename_i expired
        obtain rfl := Option.some.inj logs
        exact began experiment now lines here rfl (countdown_last.mp expired)
      · cases logs
    · exact (Option.some.inj logs).symm
    · cases logs

/-- **A step logs the time since the startup** exactly if that is where it logs from. -/
theorem elapsed_iff (started : Started thread) (elapsed : Elapsed thread.output)
    (writes : Writes thread action next new) : Elapsed next.output ↔ BeganAtStart thread action := by
  rw [← origins_iff]
  constructor
  · intro after origin logs
    obtain ⟨began, logged⟩ := started.startup
    obtain ⟨pair, among, runtime⟩ := (writes.runtime _).mpr ⟨origin, logs, rfl⟩
    have there : (next.clock, Record.runtime (next.clock - origin)) ∈ next.output := by
      rw [writes.output, ← runtime, ← writes.written pair among]
      exact List.mem_append_right _ among
    have sum := after began thread.startTime (writes.output ▸ List.mem_append_left _ logged) _ _ there
    have below := UInt64.le_trans (started.origin_le logs) writes.clock
    rw [UInt64.toNat_sub_of_le _ _ below] at sum
    rw [UInt64.le_iff_toNat_le] at below
    refine UInt64.toNat_inj.mp ?_
    omega
  · intro origins began start startup now time runtime
    rw [writes.output, List.mem_append] at startup runtime
    have logged := startup.resolve_right fun late => writes.startup _ late start rfl
    rcases runtime with old | late
    · exact elapsed began start logged now time old
    · obtain ⟨origin, logs, rfl⟩ := (writes.runtime time).mp ⟨_, late, rfl⟩
      have below := UInt64.le_trans (started.origin_le logs) writes.clock
      obtain rfl : now = next.clock := writes.written _ late
      rw [started.only began start logged, ← origins origin logs, UInt64.toNat_sub_of_le _ _ below]
      rw [UInt64.le_iff_toNat_le] at below
      omega

/-- Times since one startup do not decrease. -/
theorem Started.nonDecreasing (started : Started thread) (elapsed : Elapsed thread.output) :
    NonDecreasing thread.output := by
  obtain ⟨began, logged⟩ := started.startup
  refine started.ordered.imp_of_mem fun {earlier later} left right order time time' first second => ?_
  have sum := elapsed began _ logged earlier.1 time (first ▸ left)
  have sum' := elapsed began _ logged later.1 time' (second ▸ right)
  rw [UInt64.le_iff_toNat_le] at order ⊢
  omega

/-! ### Runs -/

/-- **In a run** every runtime is the time since the startup, and none is less than one before, exactly if the samples
are logged only after experiments that began at the startup. -/
theorem runtimes_throughout_iff {actions : List Action} {final : ProfilerThread}
    (ran : run (step settings) fresh actions = some final) :
    Throughout (step settings) (fun _ thread => Elapsed thread.output ∧ NonDecreasing thread.output) fresh actions ↔
      Along (step settings) BeganAtStart fresh actions := by
  have initial : (fresh = fresh ∨ Started fresh) ∧ Elapsed fresh.output ∧ NonDecreasing fresh.output :=
    ⟨Or.inl rfl, nofun, List.Pairwise.nil⟩
  refine @throughout_iff_of_invariant _ _ (step settings) _ _ fresh
    (fun _ thread => thread = fresh ∨ Started thread) initial ?_ ?_ actions final ran
  · rintro past thread action next - (rfl | started) - moved
    · exact Or.inr (started_of_step moved).1
    · obtain ⟨new, writes⟩ := writes_of_step started.phase moved
      exact Or.inr (started.writes writes)
  · rintro past thread action next - (rfl | started) good moved
    · obtain ⟨started, elapsed⟩ := started_of_step moved
      exact iff_of_true ⟨elapsed, started.nonDecreasing elapsed⟩ nofun
    · obtain ⟨new, writes⟩ := writes_of_step started.phase moved
      rw [← elapsed_iff started good.1 writes]
      exact ⟨And.left, fun elapsed => ⟨elapsed, (started.writes writes).nonDecreasing elapsed⟩⟩

end Runtimes

/-! ### Few experiments -/

/-- The end of an experiment's turn. -/
def Action.isCountdown : Action → Bool
  | countdown _ _ => true
  | _ => false

section Few

variable {settings : Settings} {thread next : ProfilerThread} {action : Action}

/-- The countdown goes down with each experiment, and starts again at its end. -/
theorem countdown_of_step (moved : step settings thread action = some next)
    (later : action.isCountdown = true → thread.sampleLogCountdown ≠ 1) :
    next.phase ≠ .fresh ∧ (thread.phase = .fresh ∧ action.isCountdown = false ∧ next.sampleLogCountdown = 32 ∨
      thread.phase ≠ .fresh ∧ next.sampleLogCountdown =
        if action.isCountdown then thread.sampleLogCountdown - 1 else thread.sampleLogCountdown) := by
  cases effect_of_step moved with
  | started _ fresh _ => exact ⟨nofun, Or.inl ⟨fresh, rfl, rfl⟩⟩
  | ready waiting => exact ⟨nofun, Or.inr ⟨by simp [waiting], rfl⟩⟩
  | stopped choosing => exact ⟨nofun, Or.inr ⟨by simp [choosing], rfl⟩⟩
  | began _ choosing _ => exact ⟨nofun, Or.inr ⟨by simp [choosing], rfl⟩⟩
  | concluded _ _ running _ => exact ⟨nofun, Or.inr ⟨by simp [running], rfl⟩⟩
  | counted _ _ _ logged _ =>
      have more : thread.sampleLogCountdown - 1 ≠ 0 := fun expired => later rfl (countdown_last.mp expired)
      rw [ProfilerThread.countDown, if_neg more]
      exact ⟨nofun, Or.inr ⟨by simp [logged], rfl⟩⟩
  | exited _ _ leaving _ => exact ⟨nofun, Or.inr ⟨by simp [leaving], rfl⟩⟩

/-- The countdown before the first time that it is over. -/
def Counted (past : List Action) (thread : ProfilerThread) : Prop :=
  thread.phase = .fresh ∧ past.countP Action.isCountdown = 0 ∧ thread.sampleLogCountdown = 0 ∨
    thread.phase ≠ .fresh ∧ thread.sampleLogCountdown.toNat + past.countP Action.isCountdown = 32

theorem Counted.step {past : List Action} (counted : Counted past thread)
    (below : (past ++ [action]).countP Action.isCountdown < 32) (moved : step settings thread action = some next) :
    Counted (past ++ [action]) next := by
  rw [List.countP_append, List.countP_singleton] at below
  rw [Counted, List.countP_append, List.countP_singleton]
  have one : (1 : UInt64).toNat = 1 := rfl
  have later : action.isCountdown = true → thread.sampleLogCountdown ≠ 1 := by
    intro here last
    rw [if_pos here] at below
    rw [Counted, last] at counted
    rcases counted with ⟨-, -, zero⟩ | ⟨-, sum⟩
    · exact absurd zero (by decide)
    · omega
  obtain ⟨onwards, ⟨start, other, full⟩ | ⟨started, change⟩⟩ := countdown_of_step moved later
  · obtain ⟨-, unlogged, -⟩ := counted.resolve_right fun both => both.1 start
    rw [full, other, unlogged]
    exact Or.inr ⟨onwards, rfl⟩
  · obtain ⟨-, sum⟩ := counted.resolve_left fun all => started all.1
    refine Or.inr ⟨onwards, ?_⟩
    rw [change]
    by_cases here : action.isCountdown = true
    · rw [if_pos here] at below ⊢
      have started : (1 : UInt64) ≤ thread.sampleLogCountdown := by
        rw [UInt64.le_iff_toNat_le]
        omega
      rw [if_pos here, UInt64.toNat_sub_of_le _ _ started]
      omega
    · rw [if_neg here, if_neg here]
      exact sum

/-- In a run of fewer than 32 experiments no samples are logged after an experiment. -/
theorem beganAtStart_of_few {actions : List Action} (few : actions.countP Action.isCountdown < 32) :
    Along (step settings) BeganAtStart fresh actions := by
  have counted (past : List Action) (thread : ProfilerThread) (ran : run (step settings) fresh past = some thread) :
      past.countP Action.isCountdown < 32 → Counted past thread := by
    refine run_history (motive := fun past thread => past.countP Action.isCountdown < 32 → Counted past thread)
      (fun _ => Or.inl ⟨rfl, rfl, rfl⟩) ?_ ran
    intro past thread action next _ ih moved below
    have shorter : past.countP Action.isCountdown < 32 := by
      rw [List.countP_append] at below
      omega
    exact (ih shorter).step below moved
  intro past action rest thread shape before experiment now lines here same one
  subst same
  rw [shape, List.countP_append, List.countP_cons] at few
  rcases counted past thread before (by omega) with ⟨fresh, -, -⟩ | ⟨-, sum⟩
  · rw [here] at fresh
    cases fresh
  · rw [one] at sum
    have last : (1 : UInt64).toNat = 1 := rfl
    simp only [Action.isCountdown, if_true] at few
    omega

end Few

/-! ### Runs of a thread -/

/-- No fixed line and no fixed delay size. -/
def free : Settings where
  fixedLine := none
  fixedDelaySize := none

/-- An experiment on a line, without progress points, that begins at a time and lasts for another. -/
def lasting (start duration : UInt64) : List Action :=
  [.begin ⟨(ascii "a.c", 10), 0, start, 0, 0, [], [], ⟨fun _ => 0, fun _ => 0, fun _ => 0⟩⟩,
    .conclude ⟨0, start + duration, 0, ⟨fun _ => 0, fun _ => 0, fun _ => 0⟩, ⟨fun _ => 0, fun _ => 0, fun _ => 0⟩⟩,
    .countdown (start + duration) []]

/-- A thread that starts one second after 1970, and one experiment of half a second. -/
def oneExperiment : List Action :=
  [.startup 1000000000, .ready] ++ lasting 2000000000 500000300 ++ [.stop, .exit 3000000000 []]

/-- One with three experiments, each a second after the one before. -/
def threeExperiments : List Action :=
  [.startup 1000000000, .ready] ++ lasting 2000000000 500000300 ++ lasting 3000000000 500000700 ++
    lasting 4000000000 500000100 ++ [.stop, .exit 4600000000 []]

theorem runtimes_throughout_iff_three :
    Throughout (step free) (fun _ thread => Elapsed thread.output ∧ NonDecreasing thread.output) fresh
      threeExperiments := by
  obtain ⟨final, ran⟩ := Option.isSome_iff_exists.mp
    (by decide +kernel : (run (step free) fresh threeExperiments).isSome)
  exact (runtimes_throughout_iff ran).mpr (beganAtStart_of_few (by decide))

/-- A thread that starts at one second, and an experiment every second for half of it; the 32nd lasts a little longer
than the others. -/
def manyExperiments : List Action :=
  [.startup 1000000000, .ready] ++ (List.range 64).flatMap fun number =>
    lasting (1000000000 * (number.toUInt64 + 2)) (if number = 31 then 500000900 else 500000300)

/-- The time of a startup. -/
def startupTime : Record → Option UInt64
  | .startup time => some time
  | _ => none

/-- The time of a runtime. -/
def runtimeTime : Record → Option UInt64
  | .runtime time => some time
  | _ => none

/-- The times of one kind of records, each with the clock when it was written. -/
def times (kind : Record → Option UInt64) (output : List (UInt64 × Record)) : List (UInt64 × UInt64) :=
  output.filterMap fun pair => (kind pair.2).map fun time => (pair.1, time)

theorem runtimeTime_eq_some_iff {record : Record} {time : UInt64} :
    runtimeTime record = some time ↔ record = .runtime time := by
  cases record <;> simp [runtimeTime]

theorem startupTime_eq_some_iff {record : Record} {time : UInt64} :
    startupTime record = some time ↔ record = .startup time := by
  cases record <;> simp [startupTime]

theorem mem_times {kind : Record → Option UInt64} {output : List (UInt64 × Record)} {now time : UInt64}
    (among : (now, time) ∈ times kind output) : ∃ record, (now, record) ∈ output ∧ kind record = some time := by
  obtain ⟨pair, there, same⟩ := List.mem_filterMap.mp among
  obtain ⟨time', held, shape⟩ := Option.map_eq_some_iff.mp same
  obtain ⟨rfl, rfl⟩ := Prod.mk.inj shape
  exact ⟨pair.2, there, held⟩

/-- The runtimes after the 32nd and the 64th experiment are the durations of these. -/
theorem runtimes_of_experiments : ∃ final, run (step free) fresh manyExperiments = some final ∧
    times runtimeTime final.output = [(33500000900, 500000900), (65500000300, 500000300)] ∧
      ¬ Elapsed final.output ∧ ¬ NonDecreasing final.output := by
  have written : (run (step free) fresh manyExperiments).map
      (fun thread => (times startupTime thread.output, times runtimeTime thread.output)) =
        some ([(1000000000, 1000000000)], [(33500000900, 500000900), (65500000300, 500000300)]) := by decide +kernel
  obtain ⟨final, ran, both⟩ := Option.map_eq_some_iff.mp written
  obtain ⟨startups, runtimes⟩ := Prod.mk.inj both
  refine ⟨final, ran, runtimes, fun elapsed => ?_, fun ordered => ?_⟩
  · obtain ⟨startup, logged, began⟩ := mem_times (startups ▸ List.mem_cons_self .. :
      (1000000000, 1000000000) ∈ times startupTime final.output)
    obtain ⟨runtime, there, time⟩ := mem_times (runtimes ▸ List.mem_cons_self .. :
      (33500000900, 500000900) ∈ times runtimeTime final.output)
    rw [startupTime_eq_some_iff.mp began] at logged
    rw [runtimeTime_eq_some_iff.mp time] at there
    exact absurd (elapsed 1000000000 1000000000 logged 33500000900 500000900 there) (by decide)
  · have pairs : (times runtimeTime final.output).Pairwise fun earlier later => earlier.2 ≤ later.2 := by
      refine List.Pairwise.filterMap _ (fun first second order one held other held' => ?_) ordered
      obtain ⟨time, here, rfl⟩ := Option.map_eq_some_iff.mp held
      obtain ⟨time', here', rfl⟩ := Option.map_eq_some_iff.mp held'
      exact order time time' (runtimeTime_eq_some_iff.mp here) (runtimeTime_eq_some_iff.mp here')
    rw [runtimes] at pairs
    exact absurd pairs (by decide)

end Loop

end Mcoz.Profiler
