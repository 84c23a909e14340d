/-
The syscall histogram: many CPUs in `maybe_record_syscall`.

A call looks its key up in `syscall_hist_map` and then either increments the entry that it found, in
place and atomically, or inserts an entry of one with `BPF_ANY`, which writes over an entry that
another CPU has inserted since. `total_step` is the account of one step: the counts and the calls in
flight grow by the calls that begin, less the counts that an insertion writes over. From it
`histogram_counts_iff`: the final counts are the numbers of calls exactly if every insertion finds the
entry still absent, as long as 64 bits hold these numbers.
-/

import Mcoz.Lib.Machine
import Mathlib.Algebra.Ring.Nat
import Mathlib.Data.List.Count
import Mathlib.Logic.Function.Basic

set_option autoImplicit false

namespace Mcoz

open Machine

/-! ### Data -/

/-- `syscall_hist_key`. -/
structure SyscallHistKey where
  cgroupId : UInt64
  syscallId : UInt32
deriving DecidableEq

/-- Where a CPU is in `maybe_record_syscall`: outside, past a lookup that returned the entry, or past
one that returned null. -/
inductive RecordPhase
  | idle
  | found (key : SyscallHistKey)
  | missing (key : SyscallHistKey)
deriving DecidableEq

/-- The key of a call in flight. -/
def RecordPhase.key : RecordPhase → Option SyscallHistKey
  | .idle => none
  | .found key => some key
  | .missing key => some key

/-- `syscall_hist_map`, which does not run full, and the CPUs. -/
structure Histogram where
  syscallHistMap : SyscallHistKey → Option UInt64
  cpus : List RecordPhase

/-- The map operations of one call on one CPU. -/
inductive RecordStep
  | lookup (cpu : ℕ) (key : SyscallHistKey)
  | increment (cpu : ℕ)
  | insert (cpu : ℕ)

/-- The check of `probe_targets`. -/
def probeEnabled (probeTargets : UInt64 → Option UInt8) (cgroupId : UInt64) : Bool :=
  match probeTargets cgroupId with
  | none => false
  | some enabled => enabled != 0

namespace Histogram

/-- A cleared map and as many idle CPUs. -/
def start (cpus : ℕ) : Histogram where
  syscallHistMap := fun _ => none
  cpus := List.replicate cpus .idle

/-- The call begins: the check of the cgroup and the lookup. -/
def lookup (probeTargets : UInt64 → Option UInt8) (hist : Histogram) (cpu : ℕ)
    (key : SyscallHistKey) : Option Histogram :=
  if hist.cpus[cpu]? = some .idle then
    let phase : RecordPhase := if (hist.syscallHistMap key).isSome then .found key else .missing key
    some (if probeEnabled probeTargets key.cgroupId then
        { hist with cpus := hist.cpus.set cpu phase }
      else hist)
  else none

/-- `__sync_fetch_and_add` on the entry that was found. -/
def increment (hist : Histogram) (cpu : ℕ) : Option Histogram :=
  match hist.cpus[cpu]? with
  | some (.found key) => some {
      syscallHistMap :=
        Function.update hist.syscallHistMap key ((hist.syscallHistMap key).map (· + 1))
      cpus := hist.cpus.set cpu .idle }
  | _ => none

/-- `bpf_map_update_elem` with the value one and `BPF_ANY`. -/
def insert (hist : Histogram) (cpu : ℕ) : Option Histogram :=
  match hist.cpus[cpu]? with
  | some (.missing key) => some {
      syscallHistMap := Function.update hist.syscallHistMap key (some 1)
      cpus := hist.cpus.set cpu .idle }
  | _ => none

/-- One map operation of one CPU. -/
def step (probeTargets : UInt64 → Option UInt8) (hist : Histogram) : RecordStep → Option Histogram
  | .lookup cpu key => hist.lookup probeTargets cpu key
  | .increment cpu => hist.increment cpu
  | .insert cpu => hist.insert cpu

/-! ### Counts and calls -/

/-- The count of a key. -/
def count (hist : Histogram) (key : SyscallHistKey) : ℕ :=
  ((hist.syscallHistMap key).map UInt64.toNat).getD 0

/-- The calls for a key that have not written yet. -/
def inFlight (hist : Histogram) (key : SyscallHistKey) : ℕ :=
  hist.cpus.countP fun phase => phase.key = some key

/-- The calls for a key that an operation begins. -/
def begins (key : SyscallHistKey) : RecordStep → ℕ
  | .lookup _ other => if other = key then 1 else 0
  | _ => 0

/-- The calls for a key that were made. -/
def calls (key : SyscallHistKey) (actions : List RecordStep) : ℕ :=
  (actions.map (begins key)).sum

/-- So few calls for every key that 64 bits hold their number. -/
def Few (actions : List RecordStep) : Prop :=
  ∀ key, calls key actions < 2 ^ 64

/-- The counts of a key that an operation writes over. -/
def overwritten (hist : Histogram) (key : SyscallHistKey) : RecordStep → ℕ
  | .insert cpu => if hist.cpus[cpu]? = some (.missing key) then hist.count key else 0
  | _ => 0

/-- An insertion finds the entry as absent as the lookup before it did. -/
def InsertsAbsent (hist : Histogram) : RecordStep → Prop
  | .insert cpu => ∀ key, hist.cpus[cpu]? = some (.missing key) → hist.syscallHistMap key = none
  | _ => True

/-- What holds of the map and the CPUs in every state, after these operations. -/
structure Sound (probeTargets : UInt64 → Option UInt8) (past : List RecordStep) (hist : Histogram) : Prop where
  positive : ∀ key value, hist.syscallHistMap key = some value → 0 < value.toNat
  present : ∀ key, RecordPhase.found key ∈ hist.cpus → (hist.syscallHistMap key).isSome
  enabled : ∀ phase ∈ hist.cpus, ∀ key, phase.key = some key → probeEnabled probeTargets key.cgroupId
  bounded : ∀ key, probeEnabled probeTargets key.cgroupId = true →
    hist.count key + hist.inFlight key ≤ calls key past

/-! ### One step -/

section Step

variable {probeTargets : UInt64 → Option UInt8} {hist next : Histogram} {action : RecordStep}
  {past : List RecordStep}

/-- The ways an operation can go. -/
inductive Effect (probeTargets : UInt64 → Option UInt8) (hist : Histogram) :
    RecordStep → Histogram → Prop
  | ignored {cpu : ℕ} {key : SyscallHistKey}
      (disabled : probeEnabled probeTargets key.cgroupId = false) :
      Effect probeTargets hist (.lookup cpu key) hist
  | began {cpu : ℕ} {key : SyscallHistKey} {phase : RecordPhase}
      (idle : hist.cpus[cpu]? = some .idle)
      (enabled : probeEnabled probeTargets key.cgroupId = true) (mine : phase.key = some key)
      (present : ∀ other, phase = .found other → (hist.syscallHistMap other).isSome) :
      Effect probeTargets hist (.lookup cpu key) { hist with cpus := hist.cpus.set cpu phase }
  | incremented {cpu : ℕ} {key : SyscallHistKey} (found : hist.cpus[cpu]? = some (.found key)) :
      Effect probeTargets hist (.increment cpu) {
        syscallHistMap :=
          Function.update hist.syscallHistMap key ((hist.syscallHistMap key).map (· + 1))
        cpus := hist.cpus.set cpu .idle }
  | inserted {cpu : ℕ} {key : SyscallHistKey} (missing : hist.cpus[cpu]? = some (.missing key)) :
      Effect probeTargets hist (.insert cpu) {
        syscallHistMap := Function.update hist.syscallHistMap key (some 1)
        cpus := hist.cpus.set cpu .idle }

theorem effect_of_step (moved : hist.step probeTargets action = some next) :
    Effect probeTargets hist action next := by
  cases action with
  | lookup cpu key =>
      obtain ⟨idle, ⟨⟩⟩ := Option.ite_none_right_eq_some.mp moved
      cases enabled : probeEnabled probeTargets key.cgroupId with
      | false => exact .ignored enabled
      | true =>
          rw [if_pos rfl]
          cases present : (hist.syscallHistMap key).isSome with
          | false => exact .began idle enabled rfl (by simp)
          | true =>
              refine .began idle enabled rfl ?_
              rintro other ⟨⟩
              exact present
  | increment cpu =>
      change hist.increment cpu = some next at moved
      revert moved
      fun_cases increment hist cpu with
      | case1 key found =>
          rintro ⟨⟩
          exact .incremented found
      | case2 => simp
  | insert cpu =>
      change hist.insert cpu = some next at moved
      revert moved
      fun_cases insert hist cpu with
      | case1 key missing =>
          rintro ⟨⟩
          exact .inserted missing
      | case2 => simp

/-- One CPU goes to another phase. -/
theorem inFlight_set {cpu : ℕ} {old : RecordPhase} (here : hist.cpus[cpu]? = some old)
    (phase : RecordPhase) (entries : SyscallHistKey → Option UInt64) (key : SyscallHistKey) :
    inFlight ⟨entries, hist.cpus.set cpu phase⟩ key + (if old.key = some key then 1 else 0) =
      hist.inFlight key + (if phase.key = some key then 1 else 0) := by
  obtain ⟨inside, same⟩ := List.getElem?_eq_some_iff.mp here
  rw [inFlight, inFlight, List.countP_set inside, same]
  simp only [decide_eq_true_eq]
  split
  · have positive : 0 < hist.cpus.countP fun phase => phase.key = some key :=
      List.countP_pos_iff.mpr ⟨old, List.mem_of_getElem? here, by simpa using by assumption⟩
    omega
  · omega

theorem calls_concat (key : SyscallHistKey) (past : List RecordStep) (action : RecordStep) :
    calls key (past ++ [action]) = calls key past + begins key action := by
  simp [calls]

theorem Few.left (few : Few (past ++ [action])) : Few past := by
  intro key
  have more := few key
  rw [calls_concat] at more
  omega

/-- The entry that a call increments has room. -/
theorem Sound.increments (sound : Sound probeTargets past hist) (few : Few past) {cpu : ℕ} {key : SyscallHistKey}
    (found : hist.cpus[cpu]? = some (.found key)) :
    ∃ value, hist.syscallHistMap key = some value ∧ (value + 1).toNat = value.toNat + 1 := by
  have member := List.mem_of_getElem? found
  obtain ⟨value, entry⟩ := Option.isSome_iff_exists.mp (sound.present key member)
  have busy : 0 < hist.inFlight key := List.countP_pos_iff.mpr ⟨_, member, by simp [RecordPhase.key]⟩
  have bound := sound.bounded key (sound.enabled _ member key rfl)
  have room := few key
  rw [count, entry, Option.map_some, Option.getD_some] at bound
  refine ⟨value, entry, ?_⟩
  rw [UInt64.toNat_add]
  exact Nat.mod_eq_of_lt (by show value.toNat + 1 < _; omega)

/-- The account of one step: the counts and the calls in flight of an enabled cgroup grow by the calls
that begin, less the counts that are written over. -/
theorem total_step (sound : Sound probeTargets past hist) (few : Few past)
    (moved : hist.step probeTargets action = some next) {key : SyscallHistKey}
    (enabled : probeEnabled probeTargets key.cgroupId = true) :
    next.count key + next.inFlight key + hist.overwritten key action =
      hist.count key + hist.inFlight key + begins key action := by
  cases effect_of_step moved with
  | @ignored cpu other disabled =>
      have apart : other ≠ key := by
        rintro rfl
        rw [enabled] at disabled
        cases disabled
      rw [begins, if_neg apart]
      rfl
  | @began cpu other phase idle _ mine _ =>
      have moves := inFlight_set idle phase hist.syscallHistMap key
      rw [mine] at moves
      simp only [RecordPhase.key, reduceCtorEq, if_false, Option.some.injEq] at moves
      show hist.count key + inFlight ⟨hist.syscallHistMap, hist.cpus.set cpu phase⟩ key + 0 =
        hist.count key + hist.inFlight key + if other = key then 1 else 0
      omega
  | @incremented cpu other found =>
      have moves := inFlight_set found .idle
        (Function.update hist.syscallHistMap other ((hist.syscallHistMap other).map (· + 1))) key
      obtain ⟨value, entry, more⟩ := sound.increments few found
      simp only [RecordPhase.key, reduceCtorEq, if_false, Option.some.injEq] at moves
      by_cases same : other = key
      · subst same
        simp only [if_true] at moves
        simp only [count, entry, Function.update_self, Option.map_some, Option.getD_some, more,
          overwritten, begins] at moves ⊢
        omega
      · simp only [if_neg same] at moves
        simp only [count, Function.update_of_ne (Ne.symm same), overwritten, begins]
        omega
  | @inserted cpu other missing =>
      have moves := inFlight_set missing .idle
        (Function.update hist.syscallHistMap other (some 1)) key
      simp only [RecordPhase.key, reduceCtorEq, if_false, Option.some.injEq] at moves
      by_cases same : other = key
      · subst same
        simp only [if_true] at moves
        have one : (1 : UInt64).toNat = 1 := rfl
        simp only [count, missing, Function.update_self, Option.map_some, Option.getD_some, one, if_true,
          overwritten, begins] at moves ⊢
        omega
      · simp only [if_neg same] at moves
        have elsewhere : hist.overwritten key (.insert cpu) = 0 := by
          rw [overwritten, missing, if_neg]
          simpa using same
        rw [elsewhere]
        simp only [count, Function.update_of_ne (Ne.symm same), begins]
        omega

theorem sound_start (cpus : ℕ) : Sound probeTargets [] (start cpus) where
  positive := by simp [start]
  present := fun key member => by simp [start] at member
  enabled := fun phase member key mine => by
    rw [(List.mem_replicate.mp member).2] at mine
    cases mine
  bounded := fun key _ => by simp [count, inFlight, start, List.countP_replicate, RecordPhase.key, calls]

/-- An idle CPU promises nothing. -/
theorem mem_set_idle {cpu : ℕ} {phase : RecordPhase} {key : SyscallHistKey}
    (member : phase ∈ hist.cpus.set cpu .idle) (mine : phase.key = some key) :
    phase ∈ hist.cpus := by
  rcases List.mem_or_eq_of_mem_set member with before | rfl
  · exact before
  · cases mine

theorem Sound.step (sound : Sound probeTargets past hist) (few : Few (past ++ [action]))
    (moved : hist.step probeTargets action = some next) : Sound probeTargets (past ++ [action]) next := by
  have bounded : ∀ key, probeEnabled probeTargets key.cgroupId = true →
      next.count key + next.inFlight key ≤ calls key (past ++ [action]) := by
    intro key enabled
    have account := total_step sound few.left moved enabled
    have before := sound.bounded key enabled
    rw [calls_concat]
    omega
  cases effect_of_step moved with
  | ignored => exact ⟨sound.positive, sound.present, sound.enabled, bounded⟩
  | began idle enabled mine present =>
      refine ⟨sound.positive, ?_, ?_, bounded⟩
      · intro key member
        rcases List.mem_or_eq_of_mem_set member with before | same
        · exact sound.present key before
        · exact present key same.symm
      · intro phase member key other
        rcases List.mem_or_eq_of_mem_set member with before | rfl
        · exact sound.enabled phase before key other
        · cases mine.symm.trans other
          exact enabled
  | @incremented cpu key found =>
      refine ⟨?_, ?_, ?_, bounded⟩
      · intro other value entry
        by_cases same : other = key
        · obtain ⟨before, held, more⟩ := sound.increments few.left found
          simp only [same, Function.update_self, held, Option.map_some, Option.some.injEq] at entry
          rw [← entry, more]
          exact Nat.succ_pos before.toNat
        · simp only [Function.update_of_ne same] at entry
          exact sound.positive other value entry
      · intro other member
        have before := sound.present other (mem_set_idle member rfl)
        by_cases same : other = key
        · simp only [same, Function.update_self, Option.isSome_map]
          exact same ▸ before
        · simp only [Function.update_of_ne same]
          exact before
      · exact fun phase member other mine =>
          sound.enabled phase (mem_set_idle member mine) other mine
  | @inserted cpu key missing =>
      refine ⟨?_, ?_, ?_, bounded⟩
      · intro other value entry
        by_cases same : other = key
        · simp only [same, Function.update_self] at entry
          cases entry
          exact Nat.one_pos
        · simp only [Function.update_of_ne same] at entry
          exact sound.positive other value entry
      · intro other member
        by_cases same : other = key
        · simp only [same, Function.update_self]
          rfl
        · simp only [Function.update_of_ne same]
          exact sound.present other (mem_set_idle member rfl)
      · exact fun phase member other mine =>
          sound.enabled phase (mem_set_idle member mine) other mine

/-- An insertion writes nothing over exactly if it finds the entry absent. -/
theorem insertsAbsent_iff (sound : Sound probeTargets past hist) :
    hist.InsertsAbsent action ↔ ∀ key, probeEnabled probeTargets key.cgroupId = true →
      hist.overwritten key action = 0 := by
  cases action with
  | lookup => simp [InsertsAbsent, overwritten]
  | increment => simp [InsertsAbsent, overwritten]
  | insert cpu =>
      simp only [InsertsAbsent, overwritten, ite_eq_right_iff]
      constructor
      · intro absent key _ missing
        rw [count, absent key missing]
        rfl
      · intro nothing key missing
        have enabled := sound.enabled _ (List.mem_of_getElem? missing) key rfl
        have zero := nothing key enabled missing
        cases entry : hist.syscallHistMap key with
        | none => rfl
        | some value =>
            have positive := sound.positive key value entry
            rw [count, entry, Option.map_some, Option.getD_some] at zero
            omega

end Step

/-! ### Every run -/

section Runs

variable {probeTargets : UInt64 → Option UInt8} {cpus : ℕ} {actions : List RecordStep}
  {final : Histogram}

theorem sound_of_run (few : Few actions) (ran : run (step probeTargets) (start cpus) actions = some final) :
    Sound probeTargets actions final := by
  refine run_history (motive := fun past hist => Few past → Sound probeTargets past hist)
    (fun _ => sound_start cpus) ?_ ran few
  exact fun past hist action next _ sound moved few => (sound few.left).step few moved

/-- For any number of CPUs and any interleaving of their operations from a cleared map, once all calls
are through, which are fewer than 2^64 for each key: the count of every key of an enabled cgroup is the
number of calls made for it exactly if every insertion found the entry still absent. -/
theorem histogram_counts_iff (few : ∀ key, calls key actions < 2 ^ 64)
    (ran : run (step probeTargets) (start cpus) actions = some final)
    (through : ∀ phase ∈ final.cpus, phase = .idle) :
    (∀ key, probeEnabled probeTargets key.cgroupId = true →
      final.count key = calls key actions) ↔
      Along (step probeTargets) InsertsAbsent (start cpus) actions := by
  have settled : ∀ key, final.inFlight key = 0 := fun key =>
    List.countP_eq_zero.mpr fun phase member => by simp [through phase member, RecordPhase.key]
  have history : Along (step probeTargets) InsertsAbsent (start cpus) actions ↔
      (Few actions → ∀ key, probeEnabled probeTargets key.cgroupId = true →
        final.count key + final.inFlight key = calls key actions) := by
    refine along_iff_history
      (fun past hist => Few past → ∀ key, probeEnabled probeTargets key.cgroupId = true →
        hist.count key + hist.inFlight key = calls key past)
      (fun past hist => Few past → ∃ key, probeEnabled probeTargets key.cgroupId = true ∧
        hist.count key + hist.inFlight key < calls key past) ?_ ?_ ?_ ?_ ?_ ran
    · intro _ key _
      simp [count, inFlight, start, List.countP_replicate, RecordPhase.key, calls]
    · intro past hist action next before exact absent moved few key enabled
      have sound := sound_of_run few.left before
      have account := total_step sound few.left moved enabled
      have nothing := (insertsAbsent_iff sound).mp absent key enabled
      rw [calls_concat, ← exact few.left key enabled]
      omega
    · intro past hist action next before exact present moved few
      have sound := sound_of_run few.left before
      rw [insertsAbsent_iff sound] at present
      push Not at present
      obtain ⟨key, enabled, lost⟩ := present
      have account := total_step sound few.left moved enabled
      refine ⟨key, enabled, ?_⟩
      rw [calls_concat, ← exact few.left key enabled]
      omega
    · intro past hist action next before short moved few
      obtain ⟨key, enabled, short⟩ := short few.left
      have account := total_step (sound_of_run few.left before) few.left moved enabled
      refine ⟨key, enabled, ?_⟩
      rw [calls_concat]
      omega
    · intro exact short
      obtain ⟨key, enabled, short⟩ := short few
      have same := exact few key enabled
      omega
  rw [history]
  simp only [settled, Nat.add_zero]
  exact ⟨fun counted _ => counted, fun counted => counted few⟩

end Runs

/-- Every cgroup is a probe target. -/
def allTargets : UInt64 → Option UInt8 := fun _ => some 1

/-- The key of `recvfrom` in the cgroup 7. -/
def sampleKey : SyscallHistKey := ⟨7, 45⟩

/-- Two CPUs record three calls of `recvfrom` and one of another system call, interleaved. -/
def interleavedCalls : List RecordStep :=
  [.lookup 0 sampleKey, .lookup 1 ⟨7, 47⟩, .insert 0, .lookup 0 sampleKey, .insert 1, .lookup 1 sampleKey, .increment 1,
    .increment 0]

instance (hist : Histogram) : ∀ action, Decidable (hist.InsertsAbsent action)
  | .insert cpu =>
      decidable_of_iff (∀ phase ∈ hist.cpus[cpu]?, ∀ key ∈ phase.key, phase = .missing key →
          hist.syscallHistMap key = none) <| by
        constructor
        · exact fun all key missing => all _ missing key rfl rfl
        · rintro absent phase there key - rfl
          exact absent key there
  | .lookup _ _ => .isTrue trivial
  | .increment _ => .isTrue trivial

theorem histogram_counts_iff_sample : ∃ final,
    run (step allTargets) (start 2) interleavedCalls = some final ∧ final.count sampleKey = 3 := by
  obtain ⟨final, ran, through⟩ := Option.map_eq_some_iff.mp (by decide +kernel :
    (run (step allTargets) (start 2) interleavedCalls).map (fun final => final.cpus) = some [.idle, .idle])
  have absent : Along (step allTargets) InsertsAbsent (start 2) interleavedCalls := along_of_trace (by decide +kernel)
  have few (key : SyscallHistKey) : calls key interleavedCalls < 2 ^ 64 := by
    simp only [calls, interleavedCalls, List.map_cons, List.map_nil, List.sum_cons, List.sum_nil, begins]
    split <;> split <;> simp
  have counts := (histogram_counts_iff few ran (by simp [through])).mpr absent
  exact ⟨final, ran, (counts sampleKey rfl).trans (by decide)⟩

/-- Two CPUs miss the entry and both insert it: one of two calls is counted. -/
theorem first_calls_lost : ¬ ∀ (probeTargets : UInt64 → Option UInt8) (cpus : ℕ)
    (actions : List RecordStep) (final : Histogram), (∀ key, calls key actions < 2 ^ 64) →
    run (step probeTargets) (start cpus) actions = some final →
    (∀ phase ∈ final.cpus, phase = .idle) →
    ∀ key, probeEnabled probeTargets key.cgroupId = true → final.count key = calls key actions := by
  intro counted
  have few (key : SyscallHistKey) :
      calls key [.lookup 0 sampleKey, .lookup 1 sampleKey, .insert 0, .insert 1] < 2 ^ 64 := by
    simp only [calls, List.map_cons, List.map_nil, List.sum_cons, List.sum_nil, begins]
    split <;> simp
  have two := counted allTargets 2
    [.lookup 0 sampleKey, .lookup 1 sampleKey, .insert 0, .insert 1] _ few rfl (by decide) sampleKey rfl
  exact absurd two (by decide)

end Histogram

end Mcoz
