/-
The policy that `profile_syscalls` recommends.

The histogram of a cgroup is collected, sorted by count and cut off after `top_k` rows, and the flags of
the policy are derived from the rows that are left. `Covers` says what the flags should be, from the
whole histogram; `profileSyscalls_covers_iff` says when they are: the families other than the receive
family were not sampled, or every sampled family has rows that few enough others outrank.
-/

import Mcoz.Engine.Histogram
import Mcoz.Engine.Step
import Mcoz.Lib.Ranking
import Mathlib.Algebra.Order.BigOperators.Group.List
import Mathlib.Algebra.Order.Group.Nat

set_option autoImplicit false

namespace Mcoz

open Word Ranking

/-! ### The histogram -/

/-- A system call and its count. -/
abbrev Row := UInt32 × UInt64

/-- The entries of `syscall_hist_map` in the order in which `bpf_map_get_next_key` walks them. -/
structure SyscallHistogram where
  entries : List (SyscallHistKey × UInt64)
  distinct : (entries.map Prod.fst).Nodup

/-- `collect_syscall_histogram_locked`. -/
def collectSyscallHistogramLocked (histogram : SyscallHistogram) (cgroupId : UInt64) : List Row :=
  histogram.entries.filterMap fun entry =>
    if entry.1.cgroupId = cgroupId ∧ entry.2 > 0 then some (entry.1.syscallId, entry.2) else none

/-- The comparison of the sort: by count, the largest first, then by number. -/
def outranks (a b : Row) : Bool :=
  if a.2 = b.2 then a.1 < b.1 else a.2 > b.2

/-- The rows after `std::sort` and `resize`. -/
def topRows (rows : List Row) (topK : UInt32) : List Row :=
  (ranked outranks rows).take topK.toNat

/-! ### The recommendation -/

/-- `count_of`. -/
def countOf (rows : List Row) (id : UInt32) : UInt64 :=
  rows.foldl (fun out row => if row.1 = id then out + row.2 else out) 0

/-- `recv_total`. -/
def recvTotal (rows : List Row) : UInt64 :=
  countOf rows 45 + countOf rows 47 + countOf rows 299

/-- `read_total`. -/
def readTotal (rows : List Row) : UInt64 :=
  countOf rows 0 + countOf rows 17 + countOf rows 19

/-- `io_uring_total`. -/
def ioUringTotal (rows : List Row) : UInt64 :=
  countOf rows 425 + countOf rows 426

/-- The flags of the families that were seen, the default flags if none was. -/
def flagsOf (recv read ioUring : Bool) : UInt32 :=
  let flags := (if recv then 1 ||| 2 ||| 4 else 0) ||| (if read then 8 ||| 16 ||| 32 else 0) |||
    (if ioUring then 64 else 0)
  if flags = 0 then consumeDefaultFlags else flags

/-- `recommended_flags`. -/
def recommendedFlags (rows : List Row) : UInt32 :=
  flagsOf (recvTotal rows > 0) (readTotal rows > 0) (ioUringTotal rows > 0)

/-! ### The call -/

/-- `SyscallProfileRequest`. -/
structure SyscallProfileRequest where
  ns : Bytes
  pod : Bytes
  container : Bytes
  durationMs : UInt64
  topK : UInt32
  applyPolicy : Bool

/-- `std::clamp`. -/
def clamp {ν : Type} [LT ν] [DecidableLT ν] (value low high : ν) : ν :=
  if value < low then low else if high < value then high else value

/-- What a finished profile reports. -/
structure SyscallProfile where
  resolved : ResolvedTarget
  durationMs : UInt64
  topK : UInt32
  rows : List Row
  recommended : UInt32
  applied : Option UInt32

/-- How a call of `profile_syscalls` ends. -/
inductive ProfileReply
  | namesRequired
  | unresolved
  | inactive
  | noRawTracepoint
  | noMaps
  | enableFailed (errno : ℤ)
  | applyFailed (errno : ℤ)
  | profiled (profile : SyscallProfile)

/-- `syscall_name_from_id`. -/
def syscallNameFromId (id : UInt32) : Option String :=
  if id = 0 then some "read"
  else if id = 17 then some "pread64"
  else if id = 19 then some "readv"
  else if id = 43 then some "accept"
  else if id = 45 then some "recvfrom"
  else if id = 47 then some "recvmsg"
  else if id = 288 then some "accept4"
  else if id = 299 then some "recvmmsg"
  else if id = 425 then some "io_uring_setup"
  else if id = 426 then some "io_uring_enter"
  else none

/-- The name of a row: its number if it has no other. -/
def rowName (row : Row) : Bytes :=
  match syscallNameFromId row.1 with
  | some name => ascii name
  | none => ascii "sys_" ++ decimal row.1.toNat

/-- `consume_flags_to_json_array`. -/
def consumeFlagsToJsonArray (flags : UInt32) : Bytes :=
  let names := [("recvfrom", 1), ("recvmsg", 2), ("recvmmsg", 4), ("read", 8), ("readv", 16),
    ("pread64", 32), ("io_uring", 64)]
  let pushed := names.filterMap fun (name, flag) =>
    if flags &&& flag ≠ 0 then some (ascii name) else none
  let shown := if pushed = [] then [ascii "none"] else pushed
  ascii "[" ++ (ascii ",").intercalate (shown.map fun name => ascii "\"" ++ name ++ ascii "\"") ++
    ascii "]"

/-- A row in the reply. -/
def rowJson (row : Row) : Bytes :=
  ascii "\x7b\"id\":" ++ decimal row.1.toNat
    ++ ascii ",\"name\":\"" ++ jsonEscape (rowName row) ++ ascii "\""
    ++ ascii ",\"count\":" ++ decimal row.2.toNat ++ ascii "\x7d"

/-- The text of a finished profile. -/
def SyscallProfile.json (profile : SyscallProfile) : Bytes :=
  let dominant := match profile.rows with
    | [] => ascii "none"
    | row :: _ => rowName row
  ascii "\x7b\"ok\":true,\"mode\":\"request-credit\""
    ++ ascii ",\"namespace\":\"" ++ jsonEscape profile.resolved.ns ++ ascii "\""
    ++ ascii ",\"pod\":\"" ++ jsonEscape profile.resolved.pod ++ ascii "\""
    ++ ascii ",\"container\":\"" ++ jsonEscape profile.resolved.container ++ ascii "\""
    ++ ascii ",\"cgroup_id\":" ++ decimal profile.resolved.cgroupId.toNat
    ++ ascii ",\"duration_ms\":" ++ decimal profile.durationMs.toNat
    ++ ascii ",\"top_k\":" ++ decimal profile.topK.toNat
    ++ ascii ",\"raw_tracepoint_attached\":true,\"syscalls\":["
    ++ (ascii ",").intercalate (profile.rows.map rowJson)
    ++ ascii "],\"recommendation\":\x7b\"dominant\":\"" ++ jsonEscape dominant ++ ascii "\""
    ++ ascii ",\"recv_path_count\":" ++ decimal (recvTotal profile.rows).toNat
    ++ ascii ",\"read_path_count\":" ++ decimal (readTotal profile.rows).toNat
    ++ ascii ",\"io_uring_count\":" ++ decimal (ioUringTotal profile.rows).toNat
    ++ ascii ",\"enable_read_hook\":"
    ++ ascii (if readTotal profile.rows > 0 then "true" else "false")
    ++ ascii ",\"suggested_consume_paths\":" ++ consumeFlagsToJsonArray profile.recommended
    ++ ascii ",\"suggested_raw_flags\":" ++ decimal profile.recommended.toNat
    ++ ascii "\x7d,\"apply_policy_requested\":"
    ++ ascii (if profile.applied.isSome then "true" else "false")
    ++ ascii ",\"apply_policy_ok\":true,\"applied_raw_flags\":"
    ++ (match profile.applied with
      | none => ascii "null"
      | some flags => decimal flags.toNat)
    ++ ascii ",\"applied_consume_paths\":"
    ++ (match profile.applied with
      | none => ascii "null"
      | some flags => consumeFlagsToJsonArray flags)
    ++ ascii "\x7d"

/-- The text that `profile_syscalls` leaves in `response_json`. -/
def ProfileReply.responseJson : ProfileReply → Bytes
  | .namesRequired => ascii "\x7b\"ok\":false,\"error\":\"namespace and pod are required\"\x7d"
  | .unresolved => ascii "\x7b\"ok\":false,\"error\":\"failed to resolve cgroup\"\x7d"
  | .inactive => ascii "\x7b\"ok\":false,\"error\":\"request-credit mode is not active\"\x7d"
  | .noRawTracepoint =>
      ascii "\x7b\"ok\":false,\"error\":\"raw_tracepoint/sys_enter is unavailable\"\x7d"
  | .noMaps => ascii "\x7b\"ok\":false,\"error\":\"syscall profiling maps are unavailable\"\x7d"
  | .enableFailed errno =>
      ascii "\x7b\"ok\":false,\"error\":\"failed to enable profile target\",\"errno\":"
        ++ signedDecimal errno ++ ascii "\x7d"
  | .applyFailed errno =>
      ascii "\x7b\"ok\":false,\"error\":\"failed to apply consume policy\",\"errno\":"
        ++ signedDecimal errno ++ ascii "\x7d"
  | .profiled profile => profile.json

/-- What a call finds outside the engine: the cgroup, the tracepoint and the maps, the outcome of the
updates of `probe_targets` and of `consume_policy_map`. -/
structure ProfileEnvironment where
  found : Option (UInt64 × Bytes)
  rawLink : Bool
  mapsOpen : Bool
  enableErrno : Option ℤ
  policyErrno : Option ℤ

/-- `profile_syscalls`, with the histogram that it collects. The engine is the one that its last
critical section finds; `active_` does not change before that. -/
def profileSyscalls (engine : Engine) (req : SyscallProfileRequest) (env : ProfileEnvironment)
    (histogram : SyscallHistogram) : Engine × ProfileReply :=
  if req.ns = [] ∨ req.pod = [] then (engine, .namesRequired)
  else
    match resolveTarget req.ns req.pod req.container env.found with
    | none => (engine, .unresolved)
    | some resolved =>
        if engine.active = false then (engine, .inactive)
        else if env.rawLink = false then (engine, .noRawTracepoint)
        else if env.mapsOpen = false then (engine, .noMaps)
        else
          match env.enableErrno with
          | some errno => (engine, .enableFailed errno)
          | none =>
              let topK := clamp req.topK 1 64
              let rows := topRows (collectSyscallHistogramLocked histogram resolved.cgroupId) topK
              let recommended := recommendedFlags rows
              let profile : Option UInt32 → SyscallProfile := fun applied =>
                ⟨resolved, clamp req.durationMs 100 30000, topK, rows, recommended, applied⟩
              if req.applyPolicy then
                match env.policyErrno with
                | some errno => (engine, .applyFailed errno)
                | none =>
                    (engine.installRecommended resolved.cgroupId recommended true,
                      .profiled (profile (some recommended)))
              else (engine, .profiled (profile none))

/-! ### What the flags should be -/

/-- The families of system calls. -/
inductive SyscallFamily
  | recv
  | read
  | ioUring
deriving DecidableEq

/-- The numbers of a family's calls. -/
def SyscallFamily.ids : SyscallFamily → List UInt32
  | .recv => [45, 47, 299]
  | .read => [0, 17, 19]
  | .ioUring => [425, 426]

/-- The flags of a family. -/
def SyscallFamily.bits : SyscallFamily → UInt32
  | .recv => 7
  | .read => 56
  | .ioUring => 64

/-- The count of the calls with some numbers. -/
def countAmong (rows : List Row) (ids : List UInt32) : ℕ :=
  (rows.map fun row => if row.1 ∈ ids then row.2.toNat else 0).sum

/-- A family has a nonzero count. -/
def Sampled (rows : List Row) (family : SyscallFamily) : Prop :=
  countAmong rows family.ids ≠ 0

instance (rows : List Row) (family : SyscallFamily) : Decidable (Sampled rows family) :=
  inferInstanceAs (Decidable (_ ≠ _))

/-- The flags hold the bits of exactly the families that were sampled, and are the default flags if none
was. -/
structure Covers (rows : List Row) (flags : UInt32) : Prop where
  sampled : (∃ family, Sampled rows family) →
    ∀ family, flags &&& SyscallFamily.bits family = family.bits ↔ Sampled rows family
  unsampled : (∀ family, ¬ Sampled rows family) → flags = consumeDefaultFlags

/-- The rows of the family that fewer than `topK` rows outrank do not add up to a multiple of 2^64; in
particular there is one. -/
def Visible (rows : List Row) (topK : ℕ) (family : SyscallFamily) : Prop :=
  ¬ 2 ^ 64 ∣ countAmong (rows.filter fun row => rank outranks rows row < topK) family.ids

/-- When the rows that are left tell what was sampled: only the receive family was, whose flags are the
default, or every sampled family is visible. -/
def RowsSuffice (rows : List Row) (topK : ℕ) : Prop :=
  (¬ Sampled rows .read ∧ ¬ Sampled rows .ioUring) ∨
    ∀ family, Sampled rows family → Visible rows topK family

/-! ### Counting -/

section Counting

theorem countAmong_perm {rows others : List Row} (same : rows.Perm others) (ids : List UInt32) :
    countAmong rows ids = countAmong others ids :=
  (same.map _).sum_eq

theorem countAmong_cons (rows : List Row) {id : UInt32} {ids : List UInt32} (fresh : id ∉ ids) :
    countAmong rows (id :: ids) = countAmong rows [id] + countAmong rows ids := by
  induction rows with
  | nil => rfl
  | cons row rest ih =>
      simp only [countAmong, List.map_cons, List.sum_cons] at ih ⊢
      rw [ih]
      by_cases here : row.1 = id
      · have other : row.1 ∉ ids := here ▸ fresh
        simp only [here, List.mem_cons, true_or, if_true, List.not_mem_nil, or_false]
        rw [← here, if_neg other]
        omega
      · simp only [List.mem_cons, here, false_or, List.not_mem_nil, if_false]
        omega

theorem countOf_loop (id : UInt32) : ∀ (rows : List Row) (out : UInt64),
    (rows.foldl (fun out row => if row.1 = id then out + row.2 else out) out).toNat =
      (out.toNat + countAmong rows [id]) % 2 ^ 64
  | [], out => (Nat.mod_eq_of_lt out.toNat_lt).symm
  | row :: rest, out => by
      rw [List.foldl_cons, countOf_loop id rest]
      by_cases here : row.1 = id
      · rw [if_pos here, UInt64.toNat_add]
        simp only [countAmong, List.map_cons, List.sum_cons, here, List.mem_cons, true_or, if_true]
        omega
      · simp only [countAmong, List.map_cons, List.sum_cons, List.mem_cons, here,
          List.not_mem_nil, or_false, if_false, Nat.zero_add]

theorem toNat_countOf (rows : List Row) (id : UInt32) :
    (countOf rows id).toNat = countAmong rows [id] % 2 ^ 64 := by
  rw [countOf, countOf_loop]
  exact congrArg (· % 2 ^ 64) (Nat.zero_add _)

/-- The total of a family as the code computes it. -/
def familyTotal (rows : List Row) : SyscallFamily → UInt64
  | .recv => recvTotal rows
  | .read => readTotal rows
  | .ioUring => ioUringTotal rows

/-- The total of a family is its count, modulo 2^64. -/
theorem toNat_familyTotal (rows : List Row) (family : SyscallFamily) :
    (familyTotal rows family).toNat = countAmong rows family.ids % 2 ^ 64 := by
  cases family with
  | recv =>
      show (countOf rows 45 + countOf rows 47 + countOf rows 299).toNat =
        countAmong rows [45, 47, 299] % 2 ^ 64
      rw [countAmong_cons rows (by decide : (45 : UInt32) ∉ _),
        countAmong_cons rows (by decide : (47 : UInt32) ∉ _)]
      simp only [UInt64.toNat_add, toNat_countOf]
      omega
  | read =>
      show (countOf rows 0 + countOf rows 17 + countOf rows 19).toNat =
        countAmong rows [0, 17, 19] % 2 ^ 64
      rw [countAmong_cons rows (by decide : (0 : UInt32) ∉ _),
        countAmong_cons rows (by decide : (17 : UInt32) ∉ _)]
      simp only [UInt64.toNat_add, toNat_countOf]
      omega
  | ioUring =>
      show (countOf rows 425 + countOf rows 426).toNat = countAmong rows [425, 426] % 2 ^ 64
      rw [countAmong_cons rows (by decide : (425 : UInt32) ∉ _)]
      simp only [UInt64.toNat_add, toNat_countOf]
      omega

theorem familyTotal_pos_iff (rows : List Row) (family : SyscallFamily) :
    familyTotal rows family > 0 ↔ ¬ 2 ^ 64 ∣ countAmong rows family.ids := by
  rw [gt_iff_lt, UInt64.lt_iff_toNat_lt, toNat_familyTotal, Nat.dvd_iff_mod_eq_zero]
  exact Nat.pos_iff_ne_zero

end Counting

/-! ### The rows that are left -/

section Rows

theorem outranks_iff (a b : Row) : outranks a b = true ↔
    (a.2 = b.2 ∧ a.1 < b.1) ∨ b.2 < a.2 := by
  unfold outranks
  by_cases same : a.2 = b.2
  · simp [same]
  · simp [same]

/-- The comparison leaves no choice: equal rows only are in either order. -/
theorem outranks_order : StrictTotal outranks where
  asymm := by
    intro a b first
    rw [outranks_iff] at first
    rw [← Bool.not_eq_true, outranks_iff]
    simp only [UInt32.lt_iff_toNat_lt, UInt64.lt_iff_toNat_lt, ← UInt64.toNat_inj] at first ⊢
    omega
  trans := by
    intro a b c first second
    rw [outranks_iff] at first second ⊢
    simp only [UInt32.lt_iff_toNat_lt, UInt64.lt_iff_toNat_lt, ← UInt64.toNat_inj] at first second ⊢
    omega
  total := by
    intro a b apart
    have differ : ¬ (a.1.toNat = b.1.toNat ∧ a.2.toNat = b.2.toNat) := fun both =>
      apart (Prod.ext (UInt32.toNat_inj.mp both.1) (UInt64.toNat_inj.mp both.2))
    simp only [outranks_iff, UInt32.lt_iff_toNat_lt, UInt64.lt_iff_toNat_lt, ← UInt64.toNat_inj]
    omega

/-- No row is collected twice. -/
theorem collect_nodup (histogram : SyscallHistogram) (cgroupId : UInt64) :
    (collectSyscallHistogramLocked histogram cgroupId).Nodup := by
  refine List.Nodup.filterMap ?_ (List.Nodup.of_map Prod.fst histogram.distinct)
  intro first second row here there
  obtain ⟨⟨cgroup, -⟩, ⟨⟩⟩ := Option.ite_none_right_eq_some.mp here
  obtain ⟨⟨other, -⟩, same⟩ := Option.ite_none_right_eq_some.mp there
  obtain ⟨id, count⟩ := Prod.mk.inj (Option.some.inj same)
  obtain ⟨⟨firstGroup, firstId⟩, firstCount⟩ := first
  obtain ⟨⟨secondGroup, secondId⟩, secondCount⟩ := second
  simp only at cgroup other id count
  rw [cgroup, other, id, count]

variable {rows : List Row} {topK : UInt32} {family : SyscallFamily}

/-- The total of the rows that are left is positive exactly if the family is visible. -/
theorem familyTotal_topRows (nodup : rows.Nodup) :
    familyTotal (topRows rows topK) family > 0 ↔ Visible rows topK.toNat family := by
  rw [familyTotal_pos_iff, Visible, topRows,
    countAmong_perm (perm_take_ranked outranks_order nodup topK.toNat)]

/-- What is visible was sampled. -/
theorem sampled_of_visible {count : ℕ} (visible : Visible rows count family) :
    Sampled rows family := by
  intro unsampled
  refine visible ?_
  have bound : countAmong (rows.filter fun row => rank outranks rows row < count) family.ids ≤
      countAmong rows family.ids :=
    (List.filter_sublist.map _).sum_le_sum fun _ _ => Nat.zero_le _
  rw [unsampled] at bound
  rw [Nat.le_zero.mp bound]
  exact Nat.dvd_zero _

theorem forall_family {p : SyscallFamily → Prop} :
    (∀ family, p family) ↔ p .recv ∧ p .read ∧ p .ioUring := by
  constructor
  · exact fun all => ⟨all .recv, all .read, all .ioUring⟩
  · rintro ⟨recv, read, ioUring⟩ family
    cases family <;> assumption

theorem exists_family {p : SyscallFamily → Prop} :
    (∃ family, p family) ↔ p .recv ∨ p .read ∨ p .ioUring := by
  constructor
  · rintro ⟨family, holds⟩
    cases family <;> simp [holds]
  · rintro (holds | holds | holds) <;> exact ⟨_, holds⟩

/-- The flags tell which families were seen; without another one, the receive family counts as seen. -/
theorem flagsOf_bits (recv read ioUring : Bool) :
    (flagsOf recv read ioUring &&& 7 = 7 ↔ recv = true ∨ (¬ read = true ∧ ¬ ioUring = true)) ∧
      (flagsOf recv read ioUring &&& 56 = 56 ↔ read = true) ∧
      (flagsOf recv read ioUring &&& 64 = 64 ↔ ioUring = true) ∧
      (flagsOf recv read ioUring = consumeDefaultFlags ↔ ¬ read = true ∧ ¬ ioUring = true) := by
  cases recv <;> cases read <;> cases ioUring <;> decide

/-- If a family was sampled and it was neither of the others, it was the receive family. -/
theorem recv_of_others (sampled : ∃ family, Sampled rows family) (noRead : ¬ Sampled rows .read)
    (noIoUring : ¬ Sampled rows .ioUring) : Sampled rows .recv := by
  rcases exists_family.mp sampled with sampled | sampled | sampled
  · exact sampled
  · exact absurd sampled noRead
  · exact absurd sampled noIoUring

/-- The recommended flags cover what was sampled exactly if the rows that are left tell it. -/
theorem recommendedFlags_covers_iff (nodup : rows.Nodup) :
    Covers rows (recommendedFlags (topRows rows topK)) ↔ RowsSuffice rows topK.toNat := by
  have seen : ∀ family, familyTotal (topRows rows topK) family > 0 ↔
      Visible rows topK.toNat family := fun _ => familyTotal_topRows nodup
  obtain ⟨recv, read, ioUring, unsampled⟩ := flagsOf_bits
    (familyTotal (topRows rows topK) .recv > 0) (familyTotal (topRows rows topK) .read > 0)
    (familyTotal (topRows rows topK) .ioUring > 0)
  simp only [decide_eq_true_eq, seen] at recv read ioUring unsampled
  have known : ∀ family, Visible rows topK.toNat family → Sampled rows family :=
    fun _ => sampled_of_visible
  constructor
  · intro covers
    by_cases other : Sampled rows .read ∨ Sampled rows .ioUring
    · -- The bits of the two other families are set by their own totals only.
      have bits := covers.sampled (exists_family.mpr (Or.inr other))
      have sameRead := read.symm.trans (bits .read)
      have sameIoUring := ioUring.symm.trans (bits .ioUring)
      have sameRecv := recv.symm.trans (bits .recv)
      refine Or.inr (forall_family.mpr ⟨?_, sameRead.mpr, sameIoUring.mpr⟩)
      intro sampled
      rcases sameRecv.mpr sampled with visible | ⟨noRead, noIoUring⟩
      · exact visible
      · exact absurd other (not_or.mpr ⟨mt sameRead.mpr noRead, mt sameIoUring.mpr noIoUring⟩)
    · exact Or.inl (not_or.mp other)
  · rintro (⟨noRead, noIoUring⟩ | all)
    · -- Only the receive family can be sampled, and its flags are the default.
      have hidden := And.intro (mt (known .read) noRead) (mt (known .ioUring) noIoUring)
      refine ⟨fun profiled => forall_family.mpr ⟨?_, ?_, ?_⟩, fun _ => unsampled.mpr hidden⟩
      · exact recv.trans (iff_of_true (Or.inr hidden) (recv_of_others profiled noRead noIoUring))
      · exact read.trans (iff_of_false hidden.1 noRead)
      · exact ioUring.trans (iff_of_false hidden.2 noIoUring)
    · have same : ∀ family, Visible rows topK.toNat family ↔ Sampled rows family :=
        fun family => ⟨known family, all family⟩
      rw [same, same] at unsampled
      rw [same, same, same] at recv
      refine ⟨fun profiled => forall_family.mpr ⟨?_, read.trans (same _), ioUring.trans (same _)⟩,
        fun unprofiled => unsampled.mpr ⟨unprofiled .read, unprofiled .ioUring⟩⟩
      refine recv.trans ⟨?_, Or.inl⟩
      rintro (sampled | ⟨noRead, noIoUring⟩)
      · exact sampled
      · exact recv_of_others profiled noRead noIoUring

end Rows

/-! ### The call -/

section Call

variable {engine next : Engine} {req : SyscallProfileRequest} {env : ProfileEnvironment}
  {histogram : SyscallHistogram} {profile : SyscallProfile}

/-- What a finished profile recommends and installs. -/
theorem profileSyscalls_profiled
    (finished : profileSyscalls engine req env histogram = (next, .profiled profile)) :
    profile.recommended = recommendedFlags (topRows
        (collectSyscallHistogramLocked histogram profile.resolved.cgroupId)
        (clamp req.topK 1 64)) ∧
      next = if req.applyPolicy then
        engine.installRecommended profile.resolved.cgroupId profile.recommended true else engine := by
  revert finished
  fun_cases profileSyscalls engine req env histogram with
  | case8 _ resolved _ _ _ _ _ topK rows recommended report applies =>
      rintro ⟨⟩
      exact ⟨rfl, (if_pos applies).symm⟩
  | case9 _ resolved _ _ _ _ _ topK rows recommended report unapplied =>
      rintro ⟨⟩
      exact ⟨rfl, (if_neg unapplied).symm⟩
  | _ => simp

/-- For every histogram and every `top_k`: the flags that a finished profile recommends, and those that
it installs if it is asked to, cover what was sampled exactly if the rows that are left tell it. -/
theorem profileSyscalls_covers_iff
    (finished : profileSyscalls engine req env histogram = (next, .profiled profile)) :
    let rows := collectSyscallHistogramLocked histogram profile.resolved.cgroupId
    (Covers rows profile.recommended ∧ (req.applyPolicy = true → ∃ flags,
      next.consumePolicyMap profile.resolved.cgroupId = some flags ∧ Covers rows flags)) ↔
      RowsSuffice rows (clamp req.topK 1 64).toNat := by
  intro rows
  obtain ⟨flags, after⟩ := profileSyscalls_profiled finished
  rw [← recommendedFlags_covers_iff (collect_nodup histogram profile.resolved.cgroupId), ← flags]
  refine ⟨And.left, fun covers => ⟨covers, fun applies => ⟨profile.recommended, ?_, covers⟩⟩⟩
  rw [after, if_pos applies, Engine.installRecommended, if_pos rfl]
  exact Function.update_self _ _ _

end Call

/-- Five calls of `read` and ten of `write` in the cgroup 7. -/
def sampleHistogram : SyscallHistogram where
  entries := [(⟨7, 0⟩, 5), (⟨7, 1⟩, 10)]
  distinct := by decide

/-- A request to profile the pod `cart` and to install the policy. -/
def profileRequest (topK : UInt32) : SyscallProfileRequest :=
  ⟨ascii "shop", ascii "cart", [], 2000, topK, true⟩

/-- The cgroup is found and every update succeeds. -/
def sampleEnvironment : ProfileEnvironment :=
  ⟨some (7, ascii "/sys/fs/cgroup/cart"), true, true, none, none⟩

/-- With room for both rows, the policy covers `read`. -/
theorem profileSyscalls_covers_iff_sample : ∃ next profile,
    profileSyscalls (Engine.init 1000) (profileRequest 12) sampleEnvironment sampleHistogram =
        (next, .profiled profile) ∧
      Covers (collectSyscallHistogramLocked sampleHistogram 7) profile.recommended := by
  have iff := @profileSyscalls_covers_iff (Engine.init 1000) _ (profileRequest 12) sampleEnvironment
    sampleHistogram _ rfl
  refine ⟨_, _, rfl, (iff.mpr (Or.inr ?_)).1⟩
  intro family sampled
  cases family with
  | recv => exact absurd rfl sampled
  | read =>
      unfold Visible
      decide
  | ioUring => exact absurd rfl sampled

/-- With room for one row, `write` displaces `read`, and the policy is the default. -/
theorem read_displaced : ¬ ∀ (engine next : Engine) (req : SyscallProfileRequest)
    (env : ProfileEnvironment) (histogram : SyscallHistogram) (profile : SyscallProfile),
    profileSyscalls engine req env histogram = (next, .profiled profile) →
    Covers (collectSyscallHistogramLocked histogram profile.resolved.cgroupId)
      profile.recommended := by
  intro covers
  have covered := covers (Engine.init 1000) _ (profileRequest 1) sampleEnvironment sampleHistogram _
    rfl
  have nodup := collect_nodup sampleHistogram 7
  rcases (@recommendedFlags_covers_iff _ 1 nodup).mp covered with others | visible
  · exact absurd others.1 (by decide)
  · have read := visible .read (by decide)
    unfold Visible at read
    exact absurd read (by decide)

end Mcoz
