/-
The method name of a Thrift message.

A binary message begins in one of two ways: a version word and the length of the name (strict), or the
length of the name alone (old style). `_parse_method_name` tells them apart by the version's upper half;
it reads the name of every message (`parseMethodName_message`) and finds none in bytes that are too short
for the name that they announce (`parseMethodName_truncated`).
-/

import Mcoz.Lib.Utf8
import Mcoz.Lib.Word

set_option autoImplicit false

namespace Mcoz.Thrift

open Word

/-- `bytes.decode("utf-8", errors="replace")`. -/
def decodeText (bytes : Bytes) : String :=
  String.ofList (Utf8.decode bytes)

/-- `_parse_method_name`. -/
def parseMethodName (frame : Bytes) : String :=
  if frame.length < 4 then ""
  else
    let first := bigEndian (frame.take 4)
    if first &&& 0xFFFF0000 = 0x80010000 then
      if frame.length < 8 then ""
      else
        let nameLen := bigEndian ((frame.drop 4).take 4)
        if 8 + nameLen > frame.length then ""
        else decodeText ((frame.drop 8).take nameLen)
    else if 4 + first > frame.length then ""
    else decodeText ((frame.drop 4).take first)

/-! ### The two formats -/

/-- The UTF-8 bytes of a name. -/
def nameBytes (name : String) : Bytes :=
  Utf8.encode name.toList

/-- The first word of a strict message with this lower half, which holds the type. -/
def strictWord (kind : ℕ) : ℕ :=
  0x80010000 + kind

/-- The messages with a name: what comes after the name is arbitrary. -/
inductive Message (name : String) : Bytes → Prop
  | strict {kind : ℕ} {body : Bytes} (kind_lt : kind < 2 ^ 16)
      (fits : (nameBytes name).length < 2 ^ 32) :
      Message name
        (be32 (strictWord kind) ++ (be32 (nameBytes name).length ++ (nameBytes name ++ body)))
  | oldStyle {body : Bytes} (fits : (nameBytes name).length < 2 ^ 31) :
      Message name (be32 (nameBytes name).length ++ (nameBytes name ++ body))

/-- The bytes that are too short for the name that they announce. -/
inductive Truncated : Bytes → Prop
  | header {frame : Bytes} (short : frame.length < 4) : Truncated frame
  | strictLength {kind : ℕ} {tail : Bytes} (kind_lt : kind < 2 ^ 16) (short : tail.length < 4) :
      Truncated (be32 (strictWord kind) ++ tail)
  | strictName {kind length : ℕ} {tail : Bytes} (kind_lt : kind < 2 ^ 16)
      (fits : length < 2 ^ 32) (short : tail.length < length) :
      Truncated (be32 (strictWord kind) ++ (be32 length ++ tail))
  | oldName {length : ℕ} {tail : Bytes} (fits : length < 2 ^ 32)
      (version : length / 2 ^ 16 ≠ 0x8001) (short : tail.length < length) :
      Truncated (be32 length ++ tail)

/-- The mask compares the upper half of the word. -/
theorem masked_iff {first : ℕ} (fits : first < 2 ^ 32) :
    first &&& 0xFFFF0000 = 0x80010000 ↔ first / 2 ^ 16 = 0x8001 := by
  have upper : first &&& 0xFFFF0000 = (first / 2 ^ 16) * 2 ^ 16 := by
    have masked : first &&& 0xFFFF0000 = (first >>> 16 &&& (2 ^ 16 - 1)) <<< 16 := by
      refine Nat.eq_of_testBit_eq fun i => ?_
      rw [show 0xFFFF0000 = (2 ^ 16 - 1) <<< 16 from rfl]
      simp only [Nat.testBit_and, Nat.testBit_shiftLeft, Nat.testBit_shiftRight]
      by_cases high : 16 ≤ i
      · simp [high, Nat.add_sub_cancel' high]
      · simp [high]
    rw [masked, Nat.and_two_pow_sub_one_eq_mod, Nat.shiftRight_eq_div_pow,
      Nat.mod_eq_of_lt (by omega), Nat.shiftLeft_eq]
  rw [upper]
  omega

/-! ### Reading -/

section Reading

variable {kind length : ℕ} {tail : Bytes}

theorem parseMethodName_strict (kind_lt : kind < 2 ^ 16) (tail : Bytes) :
    parseMethodName (be32 (strictWord kind) ++ tail) =
      if tail.length < 4 then ""
      else if bigEndian (tail.take 4) > tail.length - 4 then ""
      else decodeText ((tail.drop 4).take (bigEndian (tail.take 4))) := by
  have fits : strictWord kind < 2 ^ 32 := by
    unfold strictWord
    omega
  have version : bigEndian (be32 (strictWord kind)) &&& 0xFFFF0000 = 0x80010000 := by
    rw [bigEndian_be32 fits, masked_iff fits]
    unfold strictWord
    omega
  have total : (be32 (strictWord kind) ++ tail).length = 4 + tail.length := by simp
  have after : (be32 (strictWord kind) ++ tail).drop 8 = tail.drop 4 := rfl
  unfold parseMethodName
  rw [if_neg (by omega)]
  simp only [take_be32, drop_be32, after, total, if_pos version]
  by_cases short : tail.length < 4
  · rw [if_pos short, if_pos (by omega)]
  · rw [if_neg short, if_neg (by omega)]
    by_cases beyond : bigEndian (tail.take 4) > tail.length - 4
    · rw [if_pos beyond, if_pos (by omega)]
    · rw [if_neg beyond, if_neg (by omega)]

theorem parseMethodName_oldStyle (fits : length < 2 ^ 32) (version : length / 2 ^ 16 ≠ 0x8001)
    (tail : Bytes) :
    parseMethodName (be32 length ++ tail) =
      if length > tail.length then "" else decodeText (tail.take length) := by
  have total : (be32 length ++ tail).length = 4 + tail.length := by simp
  unfold parseMethodName
  rw [if_neg (by omega)]
  simp only [take_be32, drop_be32, total, bigEndian_be32 fits, masked_iff fits, if_neg version]
  by_cases beyond : length > tail.length
  · rw [if_pos beyond, if_pos (by omega)]
  · rw [if_neg beyond, if_neg (by omega)]

end Reading

/-- The name of a message is read. -/
theorem parseMethodName_message {name : String} {frame : Bytes} (message : Message name frame) :
    parseMethodName frame = name := by
  have decoded : decodeText (nameBytes name) = name := by
    rw [decodeText, nameBytes, Utf8.decode_encode, String.ofList_toList]
  cases message with
  | strict kind_lt fits =>
      rw [parseMethodName_strict kind_lt, if_neg (by simp), take_be32, bigEndian_be32 fits,
        drop_be32, if_neg (by simp), List.take_left' rfl, decoded]
  | oldStyle fits =>
      rw [parseMethodName_oldStyle (by omega) (by omega), if_neg (by simp), List.take_left' rfl,
        decoded]

/-- No name is read from bytes that are too short for it. -/
theorem parseMethodName_truncated {frame : Bytes} (truncated : Truncated frame) :
    parseMethodName frame = "" := by
  cases truncated with
  | header short =>
      unfold parseMethodName
      rw [if_pos short]
  | strictLength kind_lt short => rw [parseMethodName_strict kind_lt, if_pos short]
  | strictName kind_lt fits short =>
      rw [parseMethodName_strict kind_lt, if_neg (by simp), take_be32, bigEndian_be32 fits,
        if_pos (by simpa using short)]
  | oldName fits version short => rw [parseMethodName_oldStyle fits version, if_pos short]

end Mcoz.Thrift
