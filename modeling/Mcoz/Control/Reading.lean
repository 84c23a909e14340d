/-
Which objects the daemon reads as they were written.

`json.dumps` writes a character that is not ASCII as `\u` and four digits; the daemon reads the `u` and
the digits. The short escapes it knows. So it reads a flat object as it was written exactly if every
key and every string has only printable ASCII characters and those with a short escape
(`parseFlatJsonObject_iff`).
-/

import Mcoz.Control.Routing
import Mcoz.Lib.Utf8

set_option autoImplicit false

namespace Mcoz.Control

open Word Daemon

/-! ### Characters -/

/-- A character that is written as itself, or with a short escape. -/
def Short (ch : Char) : Prop :=
  32 ≤ ch.toNat ∧ ch.toNat ≤ 126 ∨ ch.toNat = 10 ∨ ch.toNat = 13 ∨ ch.toNat = 9 ∨ ch.toNat = 12 ∨
    ch.toNat = 8

instance (ch : Char) : Decidable (Short ch) :=
  inferInstanceAs (Decidable (_ ∨ _))

/-- A text of such characters. -/
def ShortText (text : String) : Prop :=
  ∀ ch ∈ text.toList, Short ch

instance (text : String) : Decidable (ShortText text) :=
  List.decidableBAll Short text.toList

/-- The UTF-8 bytes of a text. -/
def utf8 (text : String) : Bytes :=
  Utf8.encode text.toList

/-- A byte of a short character. -/
def ShortByte (byte : UInt8) : Prop :=
  32 ≤ byte.toNat ∧ byte.toNat ≤ 126 ∨ byte.toNat = 10 ∨ byte.toNat = 13 ∨ byte.toNat = 9 ∨
    byte.toNat = 12 ∨ byte.toNat = 8

theorem toNat_ofNat {value : ℕ} (small : value < 256) : (UInt8.ofNat value).toNat = value :=
  Nat.mod_eq_of_lt small

theorem utf8EncodeChar_ascii {ch : Char} (small : ch.toNat ≤ 127) :
    String.utf8EncodeChar ch = [UInt8.ofNat ch.toNat] :=
  if_pos small

/-- A short character is read as it is. -/
theorem readChar_short {ch : Char} (short : Short ch) : readChar ch = String.utf8EncodeChar ch := by
  have small : ch.toNat ≤ 127 := by
    unfold Short at short
    omega
  rw [utf8EncodeChar_ascii small]
  exact if_pos short

theorem hexDigit_short (digit : ℕ) : ShortByte (hexDigit (digit % 16)) := by
  have small : digit % 16 < 16 := Nat.mod_lt _ (by decide)
  left
  unfold hexDigit
  split <;> rw [toNat_ofNat (by omega)] <;> omega

/-- The daemon reads short bytes only. -/
theorem readUnit_short {unit : ℕ} {byte : UInt8} (member : byte ∈ readUnit unit) :
    ShortByte byte := by
  simp only [readUnit, List.mem_cons, List.not_mem_nil, or_false] at member
  rcases member with rfl | rfl | rfl | rfl | rfl
  · exact Or.inl (by decide)
  all_goals exact hexDigit_short _

theorem readChar_bytes {ch : Char} {byte : UInt8} (member : byte ∈ readChar ch) :
    ShortByte byte := by
  revert member
  fun_cases readChar ch with
  | case1 code short =>
      intro member
      obtain rfl := List.mem_singleton.mp member
      rw [ShortByte, toNat_ofNat (by omega)]
      exact short
  | case2 => exact readUnit_short
  | case3 =>
      intro member
      rcases List.mem_append.mp member with high | low
      · exact readUnit_short high
      · exact readUnit_short low

theorem readChars_bytes {text : String} {byte : UInt8} (member : byte ∈ readChars text) :
    ShortByte byte := by
  obtain ⟨ch, -, inside⟩ := List.mem_flatMap.mp member
  exact readChar_bytes inside

/-- The UTF-8 bytes of another character are not all short. -/
theorem exists_long {ch : Char} (long : ¬ Short ch) :
    ∃ byte ∈ String.utf8EncodeChar ch, ¬ ShortByte byte := by
  by_cases ascii : ch.toNat ≤ 127
  · refine ⟨UInt8.ofNat ch.toNat, by simp [utf8EncodeChar_ascii ascii], ?_⟩
    rw [ShortByte, toNat_ofNat (by omega)]
    exact long
  · have beyond : ∀ {lead : ℕ} {rest : Bytes}, 127 ≤ lead → lead < 256 →
        ∃ byte ∈ UInt8.ofNat lead :: rest, ¬ ShortByte byte := by
      intro lead rest low high
      refine ⟨UInt8.ofNat lead, List.mem_cons_self, ?_⟩
      rw [ShortByte, toNat_ofNat high]
      omega
    rw [String.utf8EncodeChar]
    show ∃ byte ∈ ite (ch.toNat ≤ 127) _ _, _
    rw [if_neg ascii]
    split
    · exact beyond (by omega) (by omega)
    · split
      · exact beyond (by omega) (by omega)
      · exact beyond (by omega) (by omega)

/-- A text of short characters is read as it is. -/
theorem readChars_of_short {text : String} (short : ShortText text) :
    readChars text = utf8 text := by
  unfold readChars utf8 Utf8.encode
  revert short
  rw [ShortText]
  generalize text.toList = chars
  intro short
  induction chars with
  | nil => rfl
  | cons ch rest ih =>
      rw [List.flatMap_cons, List.flatMap_cons, readChar_short (short ch List.mem_cons_self),
        ih fun other member => short other (List.mem_cons_of_mem _ member)]

/-- What is read is the UTF-8 encoding of no other text. -/
theorem shortText_of_read {text other : String} (same : readChars other = utf8 text) :
    ShortText text := by
  intro ch member
  by_contra long
  obtain ⟨byte, inside, outside⟩ := exists_long long
  have read : byte ∈ readChars other := by
    rw [same]
    exact List.mem_flatMap.mpr ⟨ch, member, inside⟩
  exact outside (readChars_bytes read)

theorem utf8_injective {text other : String} (same : utf8 text = utf8 other) : text = other := by
  have decoded := congrArg Utf8.decode same
  rw [utf8, utf8, Utf8.decode_encode, Utf8.decode_encode] at decoded
  exact String.toList_injective decoded

/-! ### Objects -/

/-- A flat object: its keys are not empty, and no two are the same. -/
structure FlatObject where
  members : List (String × JsonScalar)
  nodup : (members.map Prod.fst).Nodup
  keys_ne : ∀ member ∈ members, member.1 ≠ ""

/-- The bytes of a value: those of the string, or the JSON text of another value. -/
def JsonScalar.bytes : JsonScalar → Bytes
  | .text value => utf8 value
  | .number value => dumpsNumber value
  | .boolean value => dumpsBoolean value

/-- The object as a map from the bytes of its keys to those of their values. -/
def FlatObject.params (object : FlatObject) : Params := fun key =>
  (object.members.find? fun member => utf8 member.1 = key).map fun member => member.2.bytes

/-- The texts in a member. -/
def ShortMember (member : String × JsonScalar) : Prop :=
  ShortText member.1 ∧ ∀ text, member.2 = .text text → ShortText text

section Members

variable {members : List (String × JsonScalar)} {params : Params} {key : Bytes}

/-- A key that no member reads as is not changed. -/
theorem foldl_readMember_other (other : ∀ member ∈ members, readChars member.1 ≠ key) :
    members.foldl readMember params key = params key := by
  induction members generalizing params with
  | nil => rfl
  | cons member rest ih =>
      rw [List.foldl_cons, ih fun later inside => other later (List.mem_cons_of_mem _ inside)]
      have apart := other member List.mem_cons_self
      rw [readMember]
      split
      · rfl
      · rw [setParam, if_neg (Ne.symm apart)]

/-- A key that one member reads as has that member's value. -/
theorem foldl_readMember_mem {member : String × JsonScalar} (inside : member ∈ members)
    (nodup : (members.map fun member => readChars member.1).Nodup)
    (nonempty : readChars member.1 ≠ []) :
    members.foldl readMember params (readChars member.1) = some member.2.read := by
  induction members generalizing params with
  | nil => cases inside
  | cons first rest ih =>
      rw [List.map_cons, List.nodup_cons] at nodup
      rw [List.foldl_cons]
      rcases List.mem_cons.mp inside with rfl | later
      · rw [foldl_readMember_other fun other inside same => nodup.1
          (List.mem_map.mpr ⟨other, inside, same⟩)]
        rw [readMember, if_neg nonempty, setParam, if_pos rfl]
      · exact ih later nodup.2

end Members

namespace FlatObject

variable {object : FlatObject} {member : String × JsonScalar}

/-- What the daemon reads. -/
theorem parse_dumps (object : FlatObject) :
    parseFlatJsonObject (dumpsObject object.members) = object.members.foldl readMember noParams := by
  cases object.members with
  | nil => rfl
  | cons member rest => exact parseFlatJsonObject_dumps member rest

theorem params_mem (inside : member ∈ object.members) :
    object.params (utf8 member.1) = some member.2.bytes := by
  rw [params]
  cases found : object.members.find? fun other => utf8 other.1 = utf8 member.1 with
  | none =>
      have absent := List.find?_eq_none.mp found member inside
      simp at absent
  | some other =>
      have same : other.1 = member.1 := utf8_injective (by simpa using List.find?_some found)
      have equal := List.inj_on_of_nodup_map object.nodup (List.mem_of_find?_eq_some found) inside same
      rw [equal, Option.map_some]

theorem params_none {key : Bytes} (other : ∀ member ∈ object.members, utf8 member.1 ≠ key) :
    object.params key = none := by
  rw [params, List.find?_eq_none.mpr fun member inside => by simpa using other member inside]
  rfl

/-- What the daemon reads for a key, if the keys are short. -/
theorem foldl_read (object : FlatObject) (keys : ∀ member ∈ object.members, ShortText member.1)
    (inside : member ∈ object.members) :
    object.members.foldl readMember noParams (readChars member.1) = some member.2.read := by
  refine foldl_readMember_mem inside ?_ ?_
  · have read : (object.members.map fun member => readChars member.1) =
        (object.members.map Prod.fst).map utf8 := by
      rw [List.map_map]
      exact List.map_congr_left fun member inside => readChars_of_short (keys member inside)
    rw [read]
    exact object.nodup.map fun _ _ => utf8_injective
  · rw [readChars_of_short (keys member inside)]
    intro empty
    exact object.keys_ne member inside (utf8_injective empty)

end FlatObject

/-- A value is read as it is exactly if its text is short. -/
theorem read_eq_bytes_iff (value : JsonScalar) :
    value.read = value.bytes ↔ ∀ text, value = .text text → ShortText text := by
  cases value with
  | text text =>
      constructor
      · rintro same other ⟨⟩
        exact shortText_of_read same
      · exact fun short => readChars_of_short (short text rfl)
  | number value => exact iff_of_true rfl (by rintro _ ⟨⟩)
  | boolean value => exact iff_of_true rfl (by rintro _ ⟨⟩)

/-- The daemon reads a flat object as it was written exactly if all its texts are short. -/
theorem parseFlatJsonObject_iff (object : FlatObject) :
    parseFlatJsonObject (dumpsObject object.members) = object.params ↔
      ∀ member ∈ object.members, ShortMember member := by
  rw [object.parse_dumps]
  constructor
  · intro same
    have keys : ∀ member ∈ object.members, ShortText member.1 := by
      intro member inside
      by_contra long
      have read := congrFun same (utf8 member.1)
      rw [FlatObject.params_mem inside, foldl_readMember_other fun other _ equal =>
        long (shortText_of_read equal)] at read
      cases read
    intro member inside
    refine ⟨keys member inside, (read_eq_bytes_iff member.2).mp ?_⟩
    have read := congrFun same (readChars member.1)
    rw [object.foldl_read keys inside, readChars_of_short (keys member inside),
      FlatObject.params_mem inside, Option.some.injEq] at read
    exact read
  · intro short
    have keys : ∀ member ∈ object.members, ShortText member.1 := fun member inside =>
      (short member inside).1
    funext key
    by_cases held : ∃ member ∈ object.members, utf8 member.1 = key
    · obtain ⟨member, inside, rfl⟩ := held
      have value := (read_eq_bytes_iff member.2).mpr (short member inside).2
      rw [FlatObject.params_mem inside, ← value, ← object.foldl_read keys inside,
        readChars_of_short (keys member inside)]
    · have other : ∀ member ∈ object.members, utf8 member.1 ≠ key := fun member inside same =>
        held ⟨member, inside, same⟩
      rw [FlatObject.params_none other, foldl_readMember_other fun member inside => ?_]
      · rfl
      · rw [readChars_of_short (keys member inside)]
        exact other member inside

/-- An object with a letter that is not ASCII. -/
def accented : FlatObject where
  members := [("source", .text "é"), ("count", .number 3)]
  nodup := by decide
  keys_ne := by decide

/-- The daemon reads the letter's escape as its digits. -/
theorem accented_misread :
    parseFlatJsonObject (dumpsObject accented.members) (ascii "source") = some (ascii "u00e9") ∧
      accented.params (ascii "source") = some [0xC3, 0xA9] ∧
      parseFlatJsonObject (dumpsObject accented.members) ≠ accented.params := by
  have read : parseFlatJsonObject (dumpsObject accented.members) (ascii "source") =
      some (ascii "u00e9") := by
    rw [accented.parse_dumps]
    decide
  have written : accented.params (ascii "source") = some [0xC3, 0xA9] := by decide
  have apart : (some [0xC3, 0xA9] : Option Bytes) ≠ some (ascii "u00e9") := by decide
  exact ⟨read, written, fun same => apart (written.symm.trans (same ▸ read))⟩

end Mcoz.Control
