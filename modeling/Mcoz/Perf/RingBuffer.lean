/-
The iterator over the ring buffer of a perf event.

The kernel writes records at `data_head` modulo the size of the data area, and the iterator takes them from
`data_tail` on, each copied in one piece or in two. `iterate_records` says that an iteration yields exactly the
records that are complete and leaves `data_tail` behind the last of them, as long as the positions that the iterator
takes are values of `ptrdiff_t`, the type of the parameter that they are passed in.
-/

import Mcoz.Lib.Ring
import Mcoz.Lib.Word
import Mathlib.Data.List.Basic

set_option autoImplicit false

namespace Mcoz.Perf

open Word

/-! ### The code -/

/-- `DataPages * PageSize`. -/
def dataSize : ℕ := 2 * 0x1000

/-- The size of the buffer `_buf` of an iterator. -/
def bufSize : ℕ := 4096

/-- `sizeof(struct perf_event_header)`: the type, the flags and the size of the record. -/
def headerSize : UInt64 := 8

/--
`struct perf_event_mmap_page` with the data area that follows it. `memory` is what lies so many bytes from the start
of the data area on, where something is mapped.
-/
structure MmapPage where
  dataHead : UInt64
  dataTail : UInt64
  memory : UInt64 → Option UInt8

/-- `memcpy` from so many bytes behind the start of the data area. -/
def memcpy (mapping : MmapPage) (start bytes : UInt64) : Option Bytes :=
  Ring.read (mapping.memory ∘ UInt64.ofNat) start.toNat bytes.toNat

/-- `copy_from_ring_buffer`. The index is a `ptrdiff_t`, so that the remainder has its sign. -/
def copyFromRingBuffer (mapping : MmapPage) (index : Int64) (bytes : UInt64) : Option Bytes :=
  let startIndex := (index % Int64.ofNat dataSize).toUInt64
  let endIndex := startIndex + bytes
  if endIndex ≤ UInt64.ofNat dataSize then memcpy mapping startIndex bytes
  else do
    let chunk2Size := endIndex - UInt64.ofNat dataSize
    let chunk1Size := bytes - chunk2Size
    return (← memcpy mapping startIndex chunk1Size) ++ (← memcpy mapping 0 chunk2Size)

/-- The field `size` of a header, the last two of its bytes. -/
def sizeField (header : Bytes) : UInt64 :=
  (header.getD 6 0).toUInt64 + 256 * (header.getD 7 0).toUInt64

/-- `perf_event::iterator`. -/
structure Iter where
  index : UInt64
  head : UInt64
  mapping : Option MmapPage

/-- The constructor. -/
def Iter.new : Option MmapPage → Iter
  | some mapping => ⟨mapping.dataTail, mapping.dataHead, some mapping⟩
  | none => ⟨0, 0, none⟩

/-- `next`. There is nothing to read without a mapping. -/
def Iter.next (iterator : Iter) : Option Iter := do
  let hdr ← copyFromRingBuffer (← iterator.mapping) iterator.index.toInt64 headerSize
  return { iterator with index := iterator.index + sizeField hdr }

/-- `get`: the bytes of the record. There is no result where they are too many for the buffer. -/
def Iter.get (iterator : Iter) : Option Bytes := do
  let header ← copyFromRingBuffer (← iterator.mapping) iterator.index.toInt64 headerSize
  if (sizeField header).toNat ≤ bufSize then
    copyFromRingBuffer (← iterator.mapping) iterator.index.toInt64 (sizeField header)
  else none

/-- `has_data`. -/
def Iter.hasData (iterator : Iter) : Option Bool :=
  match iterator.mapping with
  | none => some false
  | some mapping =>
      if iterator.index + headerSize ≥ iterator.head then some false
      else do
        let hdr ← copyFromRingBuffer mapping iterator.index.toInt64 headerSize
        return !decide (iterator.index + sizeField hdr > iterator.head)

/-- The destructor: `data_tail` goes to where the iterator is. -/
def Iter.close (iterator : Iter) : Option MmapPage :=
  iterator.mapping.map fun mapping => { mapping with dataTail := iterator.index }

/-- A `for` loop over the records from an iterator to another, for at most so many turns: the records that its body
gets, and what is mapped after it. -/
def Iter.run (finish : Iter) : ℕ → Iter → Option (List Bytes × Option MmapPage)
  | 0, _ => none
  | turns + 1, iterator => do
      if (← iterator.hasData) != (← finish.hasData) then
        let record ← iterator.get
        let (records, mapping) ← Iter.run finish turns (← iterator.next)
        return (record :: records, mapping)
      else return ([], iterator.close)

/-- An iteration from `begin` to `end`. -/
def iterate (turns : ℕ) (mapping : Option MmapPage) : Option (List Bytes × Option MmapPage) :=
  (Iter.new none).run turns (Iter.new mapping)

/-! ### One copy -/

section Copy

variable {mapping : MmapPage} {index : UInt64} {list rest : Bytes}

/-- The bytes lie in the data area from the position on. -/
def Holds (mapping : MmapPage) (position : ℕ) (list : Bytes) : Prop :=
  Ring.Holds (mapping.memory ∘ UInt64.ofNat) dataSize position list

/-- The remainder of a position that is a `ptrdiff_t`. -/
theorem toUInt64_mod (small : index.toNat < 2 ^ 63) :
    (index.toInt64 % Int64.ofNat dataSize).toUInt64 = UInt64.ofNat (index.toNat % dataSize) := by
  have sign : index.toBitVec.msb = false := by
    rw [BitVec.msb_eq_false_iff_two_mul_lt]
    exact (by omega : 2 * index.toNat < 2 ^ 64)
  apply UInt64.toBitVec_inj.mp
  show (index.toInt64 % Int64.ofNat dataSize).toBitVec = _
  rw [Int64.toBitVec_mod, BitVec.srem_eq, show index.toInt64.toBitVec.msb = false from sign]
  show index.toBitVec % (8192 : BitVec 64) = (UInt64.ofNat (index.toNat % 8192)).toBitVec
  apply BitVec.eq_of_toNat_eq
  rw [BitVec.toNat_umod]
  show index.toNat % 8192 = (UInt64.ofNat (index.toNat % 8192)).toNat
  rw [UInt64.toNat_ofNat_of_lt' (lt_trans (Nat.mod_lt _ (by decide)) (by decide))]

/-- A copy of so many bytes reads so many cells. -/
theorem memcpy_ofNat {start bytes : ℕ} (startFits : start < 2 ^ 64) (bytesFit : bytes < 2 ^ 64) :
    memcpy mapping (UInt64.ofNat start) (UInt64.ofNat bytes) =
      Ring.read (mapping.memory ∘ UInt64.ofNat) start bytes := by
  rw [memcpy, UInt64.toNat_ofNat_of_lt' startFits, UInt64.toNat_ofNat_of_lt' bytesFit]

/-- **What is copied** is what lies there, also where it goes on at the start of the data area. -/
theorem copyFromRingBuffer_eq (small : index.toNat < 2 ^ 63) (room : list.length ≤ dataSize)
    (holds : Holds mapping index.toNat list) :
    copyFromRingBuffer mapping index.toInt64 (UInt64.ofNat list.length) = some list := by
  have inside : index.toNat % dataSize < dataSize := Nat.mod_lt _ (by decide)
  have size : dataSize = 8192 := rfl
  have compared : UInt64.ofNat (index.toNat % dataSize) + UInt64.ofNat list.length ≤ UInt64.ofNat dataSize ↔
      index.toNat % dataSize + list.length ≤ dataSize :=
    ofNat_add_le_iff (by omega) (by omega)
  rw [copyFromRingBuffer, toUInt64_mod small]
  by_cases one : index.toNat % dataSize + list.length ≤ dataSize
  · rw [if_pos (compared.mpr one), memcpy_ofNat (by omega) (by omega)]
    exact Ring.Holds.read holds one
  · rw [if_neg (mt compared.mp one)]
    -- The first piece goes to the end of the data area, and the second one is at its start.
    obtain ⟨first, second, rfl, whole⟩ : ∃ first second, list = first ++ second ∧
        index.toNat % dataSize + first.length = dataSize :=
      ⟨list.take (dataSize - index.toNat % dataSize), list.drop (dataSize - index.toNat % dataSize),
        (List.take_append_drop _ _).symm, by rw [List.length_take]; omega⟩
    rw [List.length_append] at room ⊢
    have chunk2 : UInt64.ofNat (index.toNat % dataSize) + UInt64.ofNat (first.length + second.length) -
        UInt64.ofNat dataSize = UInt64.ofNat second.length := by
      rw [← UInt64.ofNat_add, ← UInt64.ofNat_sub (by omega)]
      exact congrArg UInt64.ofNat (by omega)
    have chunk1 : UInt64.ofNat (first.length + second.length) - UInt64.ofNat second.length =
        UInt64.ofNat first.length := by
      rw [← UInt64.ofNat_sub (by omega), Nat.add_sub_cancel]
    obtain ⟨left, right⟩ := Ring.Holds.read_wrapped holds whole (by omega)
    simp only [chunk2, chunk1]
    rw [memcpy_ofNat (by omega) (by omega), left, show (0 : UInt64) = UInt64.ofNat 0 from rfl,
      memcpy_ofNat (by omega) (by omega), right]
    rfl

/-- The header of what lies there. -/
theorem copyFromRingBuffer_header (small : index.toNat < 2 ^ 63) (longer : 8 ≤ list.length)
    (holds : Holds mapping index.toNat list) :
    copyFromRingBuffer mapping index.toInt64 headerSize = some (list.take 8) := by
  have length : (list.take 8).length = 8 := List.length_take_of_le longer
  have header : Holds mapping index.toNat (list.take 8) := by
    rw [← List.take_append_drop 8 list] at holds
    exact (Ring.holds_append.mp holds).1
  have copied := copyFromRingBuffer_eq small (by rw [length]; decide) header
  rwa [length] at copied

end Copy

/-! ### Records -/

/-- A record: longer than its header, and as long as the header says. -/
structure IsRecord (record : Bytes) : Prop where
  longer : 8 < record.length
  length : (sizeField record).toNat = record.length

/-- A record that is not yet complete, if there is anything of it. -/
def Part (trailing : Bytes) : Prop :=
  ∃ record, IsRecord record ∧ trailing <+: record ∧ trailing ≠ record

section Records

variable {header record trailing : Bytes}

/-- The field has 16 bits. -/
theorem sizeField_lt : (sizeField header).toNat < 2 ^ 16 := by
  have low := (header.getD 6 0).toNat_lt
  have high := (header.getD 7 0).toNat_lt
  rw [sizeField, UInt64.toNat_add, UInt64.toNat_mul, UInt8.toNat_toUInt64, UInt8.toNat_toUInt64]
  show ((header.getD 6 0).toNat + 256 * (header.getD 7 0).toNat % 2 ^ 64) % 2 ^ 64 < 2 ^ 16
  omega

/-- The size is in the header. -/
theorem sizeField_take (longer : 8 ≤ trailing.length) (begins : trailing <+: record) :
    sizeField (trailing.take 8) = sizeField record := by
  obtain ⟨rest, rfl⟩ := begins
  have byte {index : ℕ} (inside : index < 8) : (trailing.take 8).getD index 0 = (trailing ++ rest).getD index 0 := by
    rw [List.getD_eq_getElem?_getD, List.getD_eq_getElem?_getD, List.getElem?_take_of_lt inside,
      List.getElem?_append_left (by omega)]
  rw [sizeField, sizeField, byte (by decide), byte (by decide)]

end Records

/-! ### The iteration -/

/--
What is ahead of an iterator: complete records that fit into its buffer, and then a part of one. They fit into the
data area, lie there, and end at the head. The positions that the iterator takes are values of `ptrdiff_t`.
-/
structure Ahead (mapping : MmapPage) (index head : UInt64) (records : List Bytes) (trailing : Bytes) : Prop where
  complete : ∀ record ∈ records, IsRecord record ∧ record.length ≤ bufSize
  part : Part trailing
  room : (records.flatten ++ trailing).length ≤ dataSize
  written : Holds mapping index.toNat (records.flatten ++ trailing)
  ends : head.toNat = index.toNat + (records.flatten ++ trailing).length
  small : index.toNat + records.flatten.length < 2 ^ 63

section Iteration

variable {mapping : MmapPage} {index head : UInt64} {record trailing : Bytes} {records : List Bytes} {turns : ℕ}

/-- What the header of a record says, where the record lies there or a part of it with the header. -/
theorem size_eq (small : index.toNat < 2 ^ 63) (longer : 8 ≤ trailing.length) (begins : trailing <+: record)
    (isRecord : IsRecord record) :
    (index + sizeField (trailing.take 8)).toNat = index.toNat + record.length := by
  have bound := @sizeField_lt record
  rw [sizeField_take longer begins, toNat_add_of_lt (by omega), isRecord.length]

theorem toNat_header (small : index.toNat < 2 ^ 63) : (index + headerSize).toNat = index.toNat + 8 :=
  toNat_add_of_lt (by rw [show headerSize.toNat = 8 from rfl]; omega)

/-- **The end**: a record that is not complete is not data. -/
theorem Ahead.hasData_nil (ahead : Ahead mapping index head [] trailing) :
    (Iter.mk index head (some mapping)).hasData = some false := by
  obtain ⟨whole, isRecord, begins, other⟩ := ahead.part
  have small : index.toNat < 2 ^ 63 := ahead.small
  have ends : head.toNat = index.toNat + trailing.length := ahead.ends
  have shorter : trailing.length < whole.length :=
    lt_of_le_of_ne begins.length_le fun same => other (begins.eq_of_length same)
  unfold Iter.hasData
  by_cases header : index + headerSize ≥ head
  · exact if_pos header
  · have less := UInt64.lt_iff_toNat_lt.mp (UInt64.not_le.mp header)
    rw [toNat_header small] at less
    have longer : 8 ≤ trailing.length := by omega
    have beyond : index + sizeField (trailing.take 8) > head := by
      rw [gt_iff_lt, UInt64.lt_iff_toNat_lt, size_eq small longer begins isRecord]
      omega
    simp only [if_neg header, copyFromRingBuffer_header small longer ahead.written]
    simp [beyond]

namespace Ahead

variable (ahead : Ahead mapping index head (record :: records) trailing)
include ahead

/-- The first of the records. -/
theorem first : IsRecord record ∧ record.length ≤ bufSize :=
  ahead.complete record List.mem_cons_self

theorem longer : 8 ≤ record.length :=
  Nat.le_of_lt ahead.first.1.longer

/-- It ends before `2 ^ 63`. -/
theorem index_lt : index.toNat + record.length < 2 ^ 63 := by
  have small := ahead.small
  rw [List.flatten_cons, List.length_append] at small
  omega

/-- It lies at the index, and what is behind it lies there. -/
theorem holds : Holds mapping index.toNat record ∧
    Holds mapping (index.toNat + record.length) (records.flatten ++ trailing) := by
  have written := ahead.written
  rw [List.flatten_cons, List.append_assoc] at written
  exact Ring.holds_append.mp written

theorem head_eq : head.toNat = index.toNat + record.length + (records.flatten ++ trailing).length := by
  rw [ahead.ends, List.flatten_cons, List.append_assoc, List.length_append, Nat.add_assoc]

/-- The copy of the header. -/
theorem copy_header : copyFromRingBuffer mapping index.toInt64 headerSize = some (record.take 8) :=
  copyFromRingBuffer_header (by have := ahead.index_lt; omega) ahead.longer ahead.holds.1

/-- What the header says. -/
theorem sizeField_header : sizeField (record.take 8) = UInt64.ofNat record.length := by
  rw [sizeField_take ahead.longer (List.prefix_refl _), ← ahead.first.1.length, UInt64.ofNat_toNat]

/-- A complete record is data. -/
theorem hasData_cons : (Iter.mk index head (some mapping)).hasData = some true := by
  have small := ahead.index_lt
  have longer := ahead.longer
  have more := ahead.first.1.longer
  have header : ¬ index + headerSize ≥ head := by
    rw [ge_iff_le, UInt64.le_iff_toNat_le, toNat_header (by omega), ahead.head_eq]
    omega
  have within : ¬ index + sizeField (record.take 8) > head := by
    rw [gt_iff_lt, UInt64.lt_iff_toNat_lt, size_eq (by omega) longer (List.prefix_refl _) ahead.first.1, ahead.head_eq]
    omega
  unfold Iter.hasData
  simp only [if_neg header, ahead.copy_header]
  simp [UInt64.not_lt.mp within]

/-- It is what the body gets. -/
theorem get_cons : (Iter.mk index head (some mapping)).get = some record := by
  have room := ahead.room
  rw [List.flatten_cons, List.append_assoc, List.length_append] at room
  have small : index.toNat < 2 ^ 63 := Nat.lt_of_le_of_lt (Nat.le_add_right _ _) ahead.index_lt
  have copied := copyFromRingBuffer_eq small (by omega) ahead.holds.1
  have fits : (sizeField (record.take 8)).toNat ≤ bufSize := by
    rw [sizeField_take ahead.longer (List.prefix_refl _), ahead.first.1.length]
    exact ahead.first.2
  unfold Iter.get
  simp only [Option.bind_eq_bind, Option.bind_some, ahead.copy_header, if_pos fits]
  rw [ahead.sizeField_header, copied]

/-- The iterator goes behind it, -/
theorem next_cons : (Iter.mk index head (some mapping)).next =
    some ⟨index + UInt64.ofNat record.length, head, some mapping⟩ := by
  unfold Iter.next
  simp only [Option.bind_eq_bind, Option.bind_some, ahead.copy_header, ahead.sizeField_header]
  rfl

/-- and the other records are ahead of it. -/
theorem step : Ahead mapping (index + UInt64.ofNat record.length) head records trailing := by
  have small := ahead.index_lt
  have moved : (index + UInt64.ofNat record.length).toNat = index.toNat + record.length := by
    have fits : (UInt64.ofNat record.length).toNat = record.length := UInt64.toNat_ofNat_of_lt' (by
      show record.length < 2 ^ 64
      omega)
    rw [toNat_add_of_lt (by omega), fits]
  have room := ahead.room
  rw [List.flatten_cons, List.append_assoc, List.length_append] at room
  have below := ahead.small
  rw [List.flatten_cons, List.length_append] at below
  exact {
    complete := fun other among => ahead.complete other (List.mem_cons_of_mem _ among)
    part := ahead.part
    room := by omega
    written := moved ▸ ahead.holds.2
    ends := moved ▸ ahead.head_eq
    small := by omega }

end Ahead

/-- So the whole run. -/
theorem Ahead.run (ahead : Ahead mapping index head records trailing) (enough : records.length < turns) :
    (Iter.new none).run turns ⟨index, head, some mapping⟩ =
      some (records, some { mapping with dataTail := index + UInt64.ofNat records.flatten.length }) := by
  obtain ⟨turns, rfl⟩ := Nat.exists_eq_succ_of_ne_zero (Nat.ne_of_gt (Nat.zero_lt_of_lt enough))
  have finish : (Iter.new none).hasData = some false := rfl
  induction records generalizing index turns with
  | nil =>
      rw [Iter.run, ahead.hasData_nil, finish]
      simp [Iter.close]
  | cons record records ih =>
      obtain ⟨turns, rfl⟩ := Nat.exists_eq_succ_of_ne_zero
        (Nat.ne_of_gt (Nat.zero_lt_of_lt (Nat.lt_of_succ_lt_succ enough)))
      rw [Iter.run, ahead.hasData_cons, finish, ahead.get_cons, ahead.next_cons]
      simp only [Option.bind_eq_bind, Option.bind_some]
      rw [ih ahead.step turns (Nat.lt_of_succ_lt_succ enough), List.flatten_cons, List.length_append,
        UInt64.ofNat_add, ← UInt64.add_assoc]
      rfl

/-- **An iteration** yields exactly the complete records, in order, and leaves `data_tail` behind the last of them. -/
theorem iterate_records (ahead : Ahead mapping mapping.dataTail mapping.dataHead records trailing)
    (enough : records.length < turns) : iterate turns (some mapping) = some (records,
      some { mapping with dataTail := mapping.dataTail + UInt64.ofNat records.flatten.length }) :=
  ahead.run enough

end Iteration

/-- A record of so many bytes with some content. -/
def sampleRecord (content : UInt8) (length : ℕ) : Bytes :=
  [9, 0, 0, 0, 2, 0, (UInt64.ofNat length).toUInt8, (UInt64.ofNat (length / 256)).toUInt8] ++
    List.replicate (length - 8) content

/-- A page of zeros and, after it, the data area with a list from so many bytes before the end of it on. -/
def pageWith (before : ℕ) (list : Bytes) (offset : UInt64) : Option UInt8 :=
  if offset.toNat < dataSize then some (list.getD ((offset.toNat + before) % dataSize) 0)
  else if 2 ^ 64 - 0x1000 ≤ offset.toNat then some 0
  else none

/-- Two records, the header of the first in two pieces, and the first bytes of a third. -/
def twoRecords : MmapPage :=
  ⟨8188 + 37, 8188, pageWith 4 (sampleRecord 1 16 ++ sampleRecord 2 12 ++ (sampleRecord 3 16).take 9)⟩

theorem isRecord_sample : IsRecord (sampleRecord 1 16) ∧ IsRecord (sampleRecord 2 12) ∧ IsRecord (sampleRecord 3 16) :=
  ⟨⟨by decide, by decide⟩, ⟨by decide, by decide⟩, ⟨by decide, by decide⟩⟩

theorem iterate_twoRecords : iterate 3 (some twoRecords) =
    some ([sampleRecord 1 16, sampleRecord 2 12], some { twoRecords with dataTail := 8188 + 28 }) := by
  obtain ⟨first, second, third⟩ := isRecord_sample
  refine @iterate_records twoRecords ((sampleRecord 3 16).take 9) [sampleRecord 1 16, sampleRecord 2 12] 3 ?_ (by decide)
  exact {
    complete := by
      intro record among
      rcases List.mem_cons.mp among with rfl | later
      · exact ⟨first, by decide⟩
      · rw [List.mem_singleton.mp later]
        exact ⟨second, by decide⟩
    part := ⟨sampleRecord 3 16, third, List.take_prefix _ _, by decide⟩
    room := by decide
    written := by
      unfold Holds Ring.Holds
      decide +kernel
    ends := by decide
    small := by decide }

/-- A record that a position of `ptrdiff_t` does not reach. -/
def farRecord : MmapPage :=
  ⟨0x8000000000000018, 0x8000000000000008, pageWith 8184 (sampleRecord 1 16)⟩

/-- From `2 ^ 63` on a position is negative, and what is copied is not in the data area, or not mapped at all. -/
theorem iterate_farRecord : Holds farRecord farRecord.dataTail.toNat (sampleRecord 1 16) ∧
    IsRecord (sampleRecord 1 16) ∧ farRecord.dataHead = farRecord.dataTail + 16 ∧
    (Iter.new (some farRecord)).hasData = none ∧ (iterate 2 (some farRecord)).isNone := by
  refine ⟨?_, isRecord_sample.1, rfl, by decide +kernel, by decide +kernel⟩
  unfold Holds Ring.Holds
  decide +kernel

end Mcoz.Perf
