/-
Where the fields of a sample are.

`locate_field` walks over the fields that the event samples, in the order in which the kernel writes them.
`locateField_iff` says when it finds every field where `perf_event_open` places it: unless the values of the counters
are sampled together with the callchain or with raw data behind them. The enumerator for these values is zero, so
that the walk never skips them.
-/

import Mcoz.Lib.LittleEndian
import Mcoz.Lib.Word
import Mathlib.Data.List.Nodup

set_option autoImplicit false

namespace Mcoz.Perf

open Word LittleEndian

/-! ### The code -/

/-- `perf_event::sample`. -/
inductive Sample
  | ip
  | pidTid
  | time
  | addr
  | id
  | streamId
  | cpu
  | period
  | read
  | callchain
  | raw
  | branchStack
  | regs
  | stack
  | finish
deriving DecidableEq

/--
The values of the enumerators; `finish` is `_end`, with the value of `PERF_SAMPLE_MAX`. Nothing defines
`PREF_SAMPLE_READ`, and the three below it are enumerators of the kernel's header and no macros, so that the four
`#if defined` take their second branches.
-/
def Sample.value (sampleMax : UInt64) : Sample → UInt64
  | ip => 1
  | pidTid => 2
  | time => 4
  | addr => 8
  | id => 64
  | streamId => 512
  | cpu => 128
  | period => 256
  | read => 0
  | callchain => 32
  | raw => 1024
  | branchStack => 0
  | regs => 0
  | stack => 0
  | finish => sampleMax

/-- The configuration of a `perf_event`. -/
structure PerfEvent where
  sampleType : UInt64
  readFormat : UInt64

/-- `PERF_FORMAT_TOTAL_TIME_ENABLED`, -/
def formatEnabled : UInt64 := 1
/-- `PERF_FORMAT_TOTAL_TIME_RUNNING`, -/
def formatRunning : UInt64 := 2
/-- `PERF_FORMAT_ID` and -/
def formatId : UInt64 := 4
/-- `PERF_FORMAT_GROUP`. -/
def formatGroup : UInt64 := 8

/-- `get_read_format` has one of these. -/
def PerfEvent.reads (source : PerfEvent) (format : UInt64) : Bool :=
  source.readFormat &&& format != 0

section Code

variable (sampleMax : UInt64) (source : PerfEvent) (memory : UInt64 → UInt8)

/-- `is_sampling`. -/
def PerfEvent.isSampling (field : Sample) : Bool :=
  source.sampleType &&& field.value sampleMax != 0

/-- A `uint64_t` in memory. -/
def load64 (address : UInt64) : UInt64 :=
  UInt64.ofNat (load memory address 8)

/-- A `uint32_t` in memory. -/
def load32 (address : UInt64) : UInt32 :=
  UInt32.ofNat (load memory address 4)

/-- The address behind the values of the counters. -/
def skipRead (p : UInt64) : UInt64 :=
  let p :=
    if source.reads formatGroup then
      let nr := load64 memory p
      let sz : UInt64 := if source.reads formatId then 8 + 8 else 8
      p + (8 + nr * sz)
    else
      let p := p + 8
      if source.reads formatId then p + 8 else p
  let p := if source.reads formatEnabled then p + 8 else p
  if source.reads formatRunning then p + 8 else p

/-- The address behind a field that is there. What is not supported is fatal. -/
def skip (field : Sample) (p : UInt64) : Option UInt64 :=
  match field with
  | .ip => some (p + 8)
  | .pidTid => some (p + (4 + 4))
  | .time => some (p + 8)
  | .addr => some (p + 8)
  | .id => some (p + 8)
  | .streamId => some (p + 8)
  | .cpu => some (p + (4 + 4))
  | .period => some (p + 8)
  | .read => some (skipRead source memory p)
  | .callchain => some (p + (8 + load64 memory p * 8))
  | .raw => some (p + (4 + (load32 memory p).toUInt64))
  | .branchStack => none
  | .regs => none
  | .stack => none
  | .finish => none

/-- The walk over some of the fields: at each, whether it is the one that is asked for, and past it if it is there. -/
def walk (field : Sample) : List Sample → UInt64 → Option UInt64
  | [], _ => none
  | next :: rest, p =>
      if field.value sampleMax = next.value sampleMax then some p
      else if source.isSampling sampleMax next then do walk field rest (← skip source memory next p)
      else walk field rest p

/-- `locate_field` in a record at an address. -/
def locateField (header : UInt64) (field : Sample) : Option UInt64 :=
  walk sampleMax source memory field
    [.ip, .pidTid, .time, .addr, .id, .streamId, .cpu, .period, .read, .callchain, .raw, .branchStack, .regs, .stack,
      .finish] (header + 8)

end Code

/-! ### The layout of `perf_event_open` -/

/-- The bit of a field in a sample type. -/
def Sample.bit : Sample → UInt64
  | ip => 1
  | pidTid => 2
  | time => 4
  | addr => 8
  | read => 16
  | callchain => 32
  | id => 64
  | cpu => 128
  | period => 256
  | streamId => 512
  | raw => 1024
  | _ => 0

/-- The fields in the order in which the kernel writes them. -/
def fields : List Sample :=
  [.ip, .pidTid, .time, .addr, .id, .streamId, .cpu, .period, .read, .callchain, .raw]

/-- A configuration with these fields, and with the four formats for the values of the counters. -/
structure Attributes extends PerfEvent where
  sampled : sampleType ||| 0x7ff = 0x7ff
  formatted : readFormat ||| 15 = 15

/-- The field is in the sample type. -/
def PerfEvent.Present (source : PerfEvent) (field : Sample) : Prop :=
  source.sampleType &&& field.bit ≠ 0

instance decidablePresent (source : PerfEvent) (field : Sample) : Decidable (source.Present field) :=
  inferInstanceAs (Decidable (_ ≠ _))

/-- What a sample says: the values of its fields, and of the counters with their identifiers. -/
structure SampleData where
  misc : UInt16
  ip : UInt64
  pid : UInt32
  tid : UInt32
  time : UInt64
  addr : UInt64
  id : UInt64
  streamId : UInt64
  cpu : UInt32
  reserved : UInt32
  period : UInt64
  timeEnabled : UInt64
  timeRunning : UInt64
  counter : UInt64 × UInt64
  group : List (UInt64 × UInt64)
  callchain : List UInt64
  raw : Bytes

section Layout

variable (source : PerfEvent) (data : SampleData)

/-- The times that belong to the values of the counters. -/
def times : Bytes :=
  (if source.reads formatEnabled then encode 8 data.timeEnabled.toNat else []) ++
    (if source.reads formatRunning then encode 8 data.timeRunning.toNat else [])

/-- The identifier of a counter. -/
def identifier (counter : UInt64 × UInt64) : Bytes :=
  if source.reads formatId then encode 8 counter.2.toNat else []

/-- `struct read_format`. -/
def readBlock : Bytes :=
  if source.reads formatGroup then
    encode 8 data.group.length ++ times source data ++
      data.group.flatMap fun counter => encode 8 counter.1.toNat ++ identifier source counter
  else encode 8 data.counter.1.toNat ++ times source data ++ identifier source data.counter

/-- The bytes of a field. -/
def block : Sample → Bytes
  | .ip => encode 8 data.ip.toNat
  | .pidTid => encode 4 data.pid.toNat ++ encode 4 data.tid.toNat
  | .time => encode 8 data.time.toNat
  | .addr => encode 8 data.addr.toNat
  | .id => encode 8 data.id.toNat
  | .streamId => encode 8 data.streamId.toNat
  | .cpu => encode 4 data.cpu.toNat ++ encode 4 data.reserved.toNat
  | .period => encode 8 data.period.toNat
  | .read => readBlock source data
  | .callchain => encode 8 data.callchain.length ++ data.callchain.flatMap fun ip => encode 8 ip.toNat
  | .raw => encode 4 data.raw.length ++ data.raw
  | _ => []

/-- The bytes of some fields, as far as they are present. -/
def blocks (fields : List Sample) : Bytes :=
  (fields.filter (source.Present ·)).flatMap (block source data)

/-- A sample: `PERF_RECORD_SAMPLE`, the flags and the size of the record, and then the fields. -/
def sampleRecordOf : Bytes :=
  encode 4 9 ++ encode 2 data.misc.toNat ++ encode 2 (8 + (blocks source data fields).length) ++
    blocks source data fields

/-- The address at which a field is, in a record at an address. -/
def placeOf (header : UInt64) (field : Sample) : UInt64 :=
  header + UInt64.ofNat (8 + (blocks source data (fields.takeWhile (· ≠ field))).length)

end Layout

/-! ### The walk -/

section Walk

variable {sampleMax : UInt64} {source : PerfEvent} {memory : UInt64 → UInt8} {data : SampleData} {p : UInt64}
  {field : Sample}

/-- No two of the fields have one value. -/
theorem value_inj {first second : Sample} (here : first ∈ fields) (there : second ∈ fields)
    (same : first.value sampleMax = second.value sampleMax) : first = second :=
  List.inj_on_of_nodup_map (show (fields.map (Sample.value sampleMax)).Nodup by
    show [(1 : UInt64), 2, 4, 8, 64, 512, 128, 256, 0, 32, 1024].Nodup
    decide) here there same

/-- The code takes the present fields for sampled, but the values of the counters. -/
theorem isSampling_iff (among : field ∈ fields) :
    source.isSampling sampleMax field = true ↔ source.Present field ∧ field ≠ .read := by
  have bits : field.value sampleMax = if field = .read then 0 else field.bit := by
    cases field <;> first | rfl | exact absurd among (by decide)
  rw [PerfEvent.isSampling, PerfEvent.Present, bits, bne_iff_ne]
  by_cases read : field = .read
  · rw [if_pos read, UInt64.and_zero]
    exact iff_of_false (fun other => other rfl) fun both => both.2 read
  · rw [if_neg read, and_iff_left read]

/-- **Past a field**: what is behind it is so many bytes further. -/
theorem skip_eq (among : field ∈ fields) (other : field ≠ .read) (lies : Lies memory p (block source data field))
    (short : (block source data field).length < 2 ^ 16) :
    skip source memory field p = some (p + UInt64.ofNat (block source data field).length) := by
  cases field with
  | callchain =>
      have length : (block source data .callchain).length = 8 + data.callchain.length * 8 := by
        simp [block, List.length_flatMap]
      have number : load64 memory p = UInt64.ofNat data.callchain.length := by
        rw [load64, load_encode (lies_append.mp lies).1]
        exact UInt64.ofNat_mod_size
      rw [skip, number, length, UInt64.ofNat_add, UInt64.ofNat_mul]
      rfl
  | raw =>
      have length : (block source data .raw).length = 4 + data.raw.length := by
        simp [block]
      have number : (load32 memory p).toUInt64 = UInt64.ofNat data.raw.length := by
        rw [length] at short
        rw [load32, load_encode (lies_append.mp lies).1, ← UInt64.toNat_inj, UInt32.toNat_toUInt64,
          UInt32.toNat_ofNat', UInt64.toNat_ofNat']
        omega
      rw [skip, number, length, UInt64.ofNat_add]
      rfl
  | read => exact absurd rfl other
  | branchStack => exact absurd among (by decide)
  | regs => exact absurd among (by decide)
  | stack => exact absurd among (by decide)
  | finish => exact absurd among (by decide)
  | _ => simp [skip, block]

/-- The code for the values of the counters, which the walk never comes to, gives the address behind them. -/
theorem skipRead_eq (lies : Lies memory p (block source data .read)) :
    skipRead source memory p = p + UInt64.ofNat (block source data .read).length := by
  have size : (identifier source data.counter).length = if source.reads formatId then 8 else 0 := by
    unfold identifier
    split <;> simp
  have around : (times source data).length =
      (if source.reads formatEnabled then 8 else 0) + if source.reads formatRunning then 8 else 0 := by
    unfold times
    split <;> split <;> simp
  unfold block readBlock at lies ⊢
  unfold skipRead
  by_cases group : source.reads formatGroup
  · rw [if_pos group, List.append_assoc] at lies
    have number : load64 memory p = UInt64.ofNat data.group.length := by
      rw [load64, load_encode (lies_append.mp lies).1]
      exact UInt64.ofNat_mod_size
    have entries : (data.group.flatMap fun counter => encode 8 counter.1.toNat ++ identifier source counter).length =
        data.group.length * if source.reads formatId then 16 else 8 := by
      unfold identifier
      split <;> simp [List.length_flatMap]
    simp only [if_pos group, number, List.length_append, length_encode, around, entries]
    split <;> split <;> split <;> simp only [UInt64.ofNat_add, UInt64.ofNat_mul] <;> grind
  · simp only [if_neg group, List.length_append, length_encode, around, size]
    split <;> split <;> split <;> simp only [UInt64.ofNat_add] <;> grind

/-- **The walk** to a field adds up the bytes of the fields before it that it takes for sampled. -/
theorem walk_eq {before after : List Sample} (other : ∀ next ∈ before, field.value sampleMax ≠ next.value sampleMax)
    (known : ∀ next ∈ before, next ∈ fields)
    (lies : Lies memory p ((before.filter (source.isSampling sampleMax)).flatMap (block source data)))
    (short : ((before.filter (source.isSampling sampleMax)).flatMap (block source data)).length < 2 ^ 16) :
    walk sampleMax source memory field (before ++ field :: after) p =
      some (p + UInt64.ofNat ((before.filter (source.isSampling sampleMax)).flatMap (block source data)).length) := by
  induction before generalizing p with
  | nil => simp [walk]
  | cons next before ih =>
      rw [List.forall_mem_cons] at other known
      rw [List.cons_append, walk, if_neg other.1]
      by_cases sampled : source.isSampling sampleMax next
      · rw [List.filter_cons_of_pos sampled, List.flatMap_cons] at lies short ⊢
        obtain ⟨here, later⟩ := lies_append.mp lies
        rw [List.length_append] at short ⊢
        rw [if_pos sampled, skip_eq known.1 ((isSampling_iff known.1).mp sampled).2 here (by omega)]
        show walk sampleMax source memory field (before ++ field :: after) _ = _
        rw [ih other.2 known.2 later (by omega), UInt64.ofNat_add, UInt64.add_assoc]
      · rw [List.filter_cons_of_neg sampled] at lies short ⊢
        rw [if_neg sampled, ih other.2 known.2 lies short]

end Walk

/-! ### Where the fields are found -/

section Places

variable {sampleMax : UInt64} {source : PerfEvent} {memory : UInt64 → UInt8} {data : SampleData} {header : UInt64}
  {field : Sample} {before after : List Sample}

theorem blocks_append {first second : List Sample} :
    blocks source data (first ++ second) = blocks source data first ++ blocks source data second := by
  rw [blocks, List.filter_append, List.flatMap_append]
  rfl

theorem blocks_cons {rest : List Sample} (present : source.Present field) :
    blocks source data (field :: rest) = block source data field ++ blocks source data rest := by
  rw [blocks, List.filter_cons_of_pos (by simpa using present), List.flatMap_cons]
  rfl

/-- The fields before a field. -/
theorem takeWhile_eq (order : fields = before ++ field :: after) (first : field ∉ before) :
    fields.takeWhile (· ≠ field) = before := by
  rw [order, List.takeWhile_append_of_pos]
  · simp
  · intro next among
    have other : next ≠ field := fun same => first (same ▸ among)
    simpa using other

theorem placeOf_eq (order : fields = before ++ field :: after) (first : field ∉ before) :
    placeOf source data header field = header + 8 + UInt64.ofNat (blocks source data before).length := by
  rw [placeOf, takeWhile_eq order first, UInt64.ofNat_add, ← UInt64.add_assoc]
  rfl

/-- The fields lie behind the header. -/
theorem lies_blocks (lies : Lies memory header (sampleRecordOf source data)) :
    Lies memory (header + 8) (blocks source data fields) := by
  have behind := (lies_append.mp lies).2
  simpa using behind

/-- Where the code finds a field, if what it skips are the first of the fields that are there. -/
theorem locateField_eq (lies : Lies memory header (sampleRecordOf source data))
    (fits : (sampleRecordOf source data).length < 2 ^ 16) (order : fields = before ++ field :: after)
    (first : field ∉ before) {front rest : List Sample} (begins : fields = front ++ rest)
    (skipped : before.filter (source.isSampling sampleMax) = front.filter (source.Present ·)) :
    locateField sampleMax source memory header field =
      some (header + 8 + UInt64.ofNat (blocks source data front).length) := by
  have among {next : Sample} (here : next ∈ before) : next ∈ fields := order ▸ List.mem_append_left _ here
  have split : blocks source data fields = blocks source data front ++ blocks source data rest := by
    rw [begins, blocks_append]
  have inside := lies_blocks lies
  rw [split] at inside
  have total : (blocks source data front).length < 2 ^ 16 := by
    rw [sampleRecordOf, split] at fits
    simp only [List.length_append] at fits
    omega
  have walked := @walk_eq sampleMax source memory data (header + 8) field before
    (after ++ [.branchStack, .regs, .stack, .finish])
    (fun next here same => first (value_inj (order ▸ List.mem_append_right _ List.mem_cons_self) (among here) same ▸ here))
    (fun next here => among here)
    (skipped ▸ (lies_append.mp inside).1) (skipped ▸ total)
  rw [skipped] at walked
  show walk sampleMax source memory field (fields ++ [.branchStack, .regs, .stack, .finish]) (header + 8) = _
  rw [order, List.append_assoc, List.cons_append]
  exact walked

/-- The fields that are neither the values of the counters nor behind these. -/
def front : List Sample :=
  [.ip, .pidTid, .time, .addr, .id, .streamId, .cpu, .period]

/-- The fields that are skipped before another one, if the values of the counters are not among those before it. -/
theorem filter_isSampling (known : ∀ next ∈ before, next ∈ fields)
    (absent : ∀ next ∈ before, source.Present next → next ≠ .read) :
    before.filter (source.isSampling sampleMax) = before.filter (source.Present ·) := by
  refine List.filter_congr fun next among => ?_
  rw [Bool.eq_iff_iff, isSampling_iff (known next among), decide_eq_true_iff]
  exact and_iff_left_of_imp (absent next among)

/-- The values of the counters take some bytes. -/
theorem readBlock_length : 0 < (readBlock source data).length := by
  unfold readBlock
  split <;> simp only [List.length_append, length_encode] <;> omega

/-- A field behind the values of the counters is not found, if nothing else is between them. -/
theorem locateField_ne (lies : Lies memory header (sampleRecordOf source data))
    (fits : (sampleRecordOf source data).length < 2 ^ 16) (read : source.Present .read) {between : List Sample}
    (order : fields = front ++ .read :: between ++ field :: after) (first : field ∉ front ++ .read :: between)
    (alone : ∀ next ∈ between, ¬ source.Present next) :
    locateField sampleMax source memory header field ≠ some (placeOf source data header field) := by
  have begins : fields = front ++ (.read :: between ++ field :: after) := by
    rw [order, List.append_assoc]
  have skipped : (front ++ .read :: between).filter (source.isSampling sampleMax) =
      front.filter (source.Present ·) := by
    have fieldless : (.read :: between : List Sample).filter (source.isSampling sampleMax) = [] := by
      refine List.filter_eq_nil_iff.mpr fun next here sampled => ?_
      have there : next ∈ fields := begins ▸ List.mem_append_right _ (List.mem_append_left _ here)
      obtain ⟨present, other⟩ := (isSampling_iff there).mp sampled
      exact alone next ((List.mem_cons.mp here).resolve_left other) present
    rw [List.filter_append, fieldless, List.append_nil]
    exact filter_isSampling (by decide) fun next here _ same => absurd (same ▸ here) (by decide)
  have longer : (blocks source data front).length < (blocks source data (front ++ .read :: between)).length := by
    have length := @readBlock_length source data
    rw [blocks_append, blocks_cons read, List.length_append, List.length_append]
    show _ < _ + ((readBlock source data).length + _)
    omega
  have whole : (blocks source data (front ++ .read :: between)).length < 2 ^ 16 := by
    rw [sampleRecordOf, order, blocks_append] at fits
    simp only [List.length_append] at fits
    omega
  rw [locateField_eq lies fits order first begins skipped, placeOf_eq order first]
  intro same
  have equal := UInt64.toNat_inj.mpr ((UInt64.add_right_inj _).mp (Option.some.inj same))
  rw [UInt64.toNat_ofNat', UInt64.toNat_ofNat'] at equal
  omega

/-- **Every field that is there is found** where the kernel puts it, exactly if the values of the counters are not
sampled together with the callchain or with raw data, which come behind them. -/
theorem locateField_iff (source : Attributes) (lies : Lies memory header (sampleRecordOf source.toPerfEvent data))
    (fits : (sampleRecordOf source.toPerfEvent data).length < 2 ^ 16) :
    (∀ field ∈ fields, source.Present field →
      locateField sampleMax source.toPerfEvent memory header field =
        some (placeOf source.toPerfEvent data header field)) ↔
    ¬ (source.Present .read ∧ (source.Present .callchain ∨ source.Present .raw)) := by
  constructor
  · intro found both
    obtain ⟨read, behind⟩ := both
    by_cases callchain : source.Present .callchain
    · exact @locateField_ne sampleMax source.toPerfEvent memory data header .callchain [.raw] lies fits read [] rfl
        (by decide) (by simp) (found .callchain (by decide) callchain)
    · have raw := behind.resolve_left callchain
      exact @locateField_ne sampleMax source.toPerfEvent memory data header .raw [] lies fits read [.callchain] rfl
        (by decide) (by simpa using callchain) (found .raw (by decide) raw)
  · intro apart field among present
    obtain ⟨before, after, order, first⟩ := List.eq_append_cons_of_mem among
    have known {next : Sample} (here : next ∈ before) : next ∈ fields := order ▸ List.mem_append_left _ here
    rw [placeOf_eq order first]
    refine locateField_eq lies fits order first order (filter_isSampling (fun next here => known here) ?_)
    intro next here _ same
    have behind : field = .callchain ∨ field = .raw :=
      (by decide : ∀ field ∈ fields, .read ∈ fields.takeWhile (· ≠ field) → field = .callchain ∨ field = .raw)
        field among (takeWhile_eq order first ▸ same ▸ here)
    refine apart ⟨same ▸ ‹source.Present next›, ?_⟩
    rcases behind with rfl | rfl
    · exact Or.inl present
    · exact Or.inr present

end Places

/-- A sample with a callchain of two addresses and three bytes of raw data. -/
def twoCalls : SampleData :=
  ⟨2, 0x401000, 7, 8, 9, 10, 11, 12, 0, 0, 1000000, 5, 6, (3, 4), [], [0x401234, 0x405678], [1, 2, 3]⟩

/-- A page with some bytes at its start. -/
def memoryWith (bytes : Bytes) (address : UInt64) : UInt8 :=
  bytes.getD (address - 0x1000).toNat 0

/-- An event with these sample and read formats. -/
def sampling (sampleType : UInt64) (sampled : sampleType ||| 0x7ff = 0x7ff) : Attributes :=
  ⟨⟨sampleType, 0⟩, sampled, UInt64.zero_or⟩

/-- Raw data behind an instruction pointer and a callchain. -/
theorem locateField_raw :
    locateField 0x2000000 (sampling 0x421 rfl).toPerfEvent
      (memoryWith (sampleRecordOf (sampling 0x421 rfl).toPerfEvent twoCalls)) 0x1000 .raw =
        some (placeOf (sampling 0x421 rfl).toPerfEvent twoCalls 0x1000 .raw) := by
  have located := @locateField_iff 0x2000000
    (memoryWith (sampleRecordOf (sampling 0x421 rfl).toPerfEvent twoCalls)) twoCalls 0x1000 (sampling 0x421 rfl)
    (by decide +kernel) (by decide +kernel)
  exact located.mpr (by decide) .raw (by decide) (by decide)

/-- The callchain is behind the eight bytes of a counter, but the code takes these for it. -/
theorem locateField_callchain :
    Lies (memoryWith (sampleRecordOf (sampling 0x30 rfl).toPerfEvent twoCalls)) 0x1000
      (sampleRecordOf (sampling 0x30 rfl).toPerfEvent twoCalls) ∧
    (sampling 0x30 rfl).Present .callchain ∧
    placeOf (sampling 0x30 rfl).toPerfEvent twoCalls 0x1000 .callchain = 0x1010 ∧
    locateField 0x2000000 (sampling 0x30 rfl).toPerfEvent
      (memoryWith (sampleRecordOf (sampling 0x30 rfl).toPerfEvent twoCalls)) 0x1000 .callchain = some 0x1008 :=
  ⟨by decide +kernel, by decide, by decide +kernel, by decide +kernel⟩

end Mcoz.Perf
