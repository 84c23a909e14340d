/-
The status of the engine.

`statusJson` is the text of `status_json`: the counters, and every victim with its sources and slots. The
names in it come from the clients (`VictimRuntime.Names`), and `json_escape` escapes quotes, backslashes,
newlines, carriage returns and tabs only. A name is a string literal if it has no other control
character (`decodeString_jsonText_iff`), and the status is JSON exactly if no name has one
(`statusJson_isJson_iff`), in every state that a run reaches.
-/

import Mcoz.Engine.Invariant
import Mcoz.Engine.SyscallProfile
import Mcoz.Lib.Json

set_option autoImplicit false

namespace Mcoz

open Word Machine

/-! ### Texts -/

/-- `"name":value`. -/
def jsonField (name : String) (value : Bytes) : Bytes :=
  ascii "\"" ++ ascii name ++ ascii "\":" ++ value

/-- An escaped text between quotes. -/
def jsonText (text : Bytes) : Bytes :=
  ascii "\"" ++ jsonEscape text ++ ascii "\""

/-- A truth value. -/
def jsonFlag (flag : Bool) : Bytes :=
  if flag then ascii "true" else ascii "false"

/-- A counter. -/
def jsonCount (count : UInt64) : Bytes :=
  decimal count.toNat

/-- Fields between braces. -/
def jsonObject (fields : List Bytes) : Bytes :=
  ascii "\x7b" ++ (ascii ",").intercalate fields ++ ascii "\x7d"

/-- Rows between brackets. -/
def jsonArray (rows : List Bytes) : Bytes :=
  ascii "[" ++ (ascii ",").intercalate rows ++ ascii "]"

/-! ### The status -/

/-- The keys of a map in the order of `std::map`. -/
structure MapOrder {ν : Type} (entries : UInt64 → Option ν) where
  keys : List UInt64
  sorted : keys.Pairwise (· < ·)
  mem : ∀ key, key ∈ keys ↔ (entries key).isSome

namespace Engine

/-- The order in which `status_json` shows the victims, and the sources of each. -/
structure StatusOrder (engine : Engine) where
  victims : MapOrder engine.victims
  sources : ∀ cgid, MapOrder ((engine.victims cgid).getD default).sources

/-- The arms that neither succeeded nor failed to inject. -/
def missed (armedTotal injectedOk injectFail : UInt64) : UInt64 :=
  if armedTotal > injectedOk + injectFail then armedTotal - (injectedOk + injectFail) else 0

/-- The object of one source: its name, its slot and its counters. -/
def sourceJson (source : Bytes) (sourceKey : UInt64) (slotIndex : Option SlotIndex)
    (slot : Option SourceCreditSlot) (sr : VictimSourceRuntime) : Bytes :=
  jsonObject [
    jsonField "source" (jsonText source),
    jsonField "source_key" (ascii "\"" ++ formatSourceKey sourceKey ++ ascii "\""),
    jsonField "slot_index" (match slotIndex with
      | some index => decimal index.val
      | none => ascii "null"),
    jsonField "delay_ns" (jsonCount ((slot.map SourceCreditSlot.delayNs).getD 0)),
    jsonField "credits" (signedDecimal ((slot.map SourceCreditSlot.credits).getD 0).toInt),
    jsonField "arm_calls" (jsonCount sr.armCalls),
    jsonField "armed_total" (jsonCount sr.armedTotal),
    jsonField "consume_trigger" (jsonCount sr.consumeTrigger),
    jsonField "bpf_events" (jsonCount sr.bpfEvents),
    jsonField "injected_ok" (jsonCount sr.injectedOk),
    jsonField "inject_fail" (jsonCount sr.injectFail),
    jsonField "miss" (jsonCount (missed sr.armedTotal sr.injectedOk sr.injectFail)),
    jsonField "last_tid" (jsonCount sr.lastTid),
    jsonField "last_ts" (jsonCount sr.lastTsNs)]

/-- A source on record, with its slot if it has one. -/
def recordedSourceJson (cfg : VictimCfg) (sr : VictimSourceRuntime) : Bytes :=
  sourceJson sr.source sr.sourceKey (cfg.findExactSlot sr.sourceKey)
    ((cfg.findExactSlot sr.sourceKey).map cfg.slots) sr

/-- A slot whose source is not on record. -/
def slotJson (cfg : VictimCfg) (index : SlotIndex) : Bytes :=
  sourceJson (formatSourceKey (cfg.slots index).sourceKey) (cfg.slots index).sourceKey (some index)
    (some (cfg.slots index)) {}

/-- The `sources` of a victim: those on record, then the slots of others. -/
def sourcesJson (cfg : VictimCfg) (recorded : List VictimSourceRuntime) : List Bytes :=
  recorded.map (recordedSourceJson cfg) ++
    ((List.finRange maxSourceSlots).filter fun index =>
      (cfg.slots index).sourceKey ≠ 0 ∧
        (cfg.slots index).sourceKey ∉ recorded.map VictimSourceRuntime.sourceKey).map (slotJson cfg)

/-- The object of one victim. -/
def victimJson (cgid : UInt64) (vr : VictimRuntime) (cfg : VictimCfg) (flags : UInt32)
    (recorded : List VictimSourceRuntime) : Bytes :=
  jsonObject [
    jsonField "cgroup_id" (jsonCount cgid),
    jsonField "namespace" (jsonText vr.ns),
    jsonField "pod" (jsonText vr.pod),
    jsonField "container" (jsonText vr.container),
    jsonField "cgroup_path" (jsonText vr.cgroupPath),
    jsonField "delay_ns" (jsonCount cfg.maxDelay),
    jsonField "credits" (signedDecimal cfg.totalCredits.toInt),
    jsonField "consume_policy_flags" (decimal flags.toNat),
    jsonField "consume_policy_paths" (consumeFlagsToJsonArray flags),
    jsonField "arm_calls" (jsonCount vr.armCalls),
    jsonField "armed_total" (jsonCount vr.armedTotal),
    jsonField "consume_trigger" (jsonCount vr.consumeTrigger),
    jsonField "bpf_events" (jsonCount vr.bpfEvents),
    jsonField "injected_ok" (jsonCount vr.injectedOk),
    jsonField "inject_fail" (jsonCount vr.injectFail),
    jsonField "refund_ok" (jsonCount vr.refundOk),
    jsonField "refund_fail" (jsonCount vr.refundFail),
    jsonField "miss" (jsonCount (missed vr.armedTotal vr.injectedOk vr.injectFail)),
    jsonField "last_tid" (jsonCount vr.lastTid),
    jsonField "last_ts" (jsonCount vr.lastTsNs),
    jsonField "last_source" (jsonText vr.lastSource),
    jsonField "last_source_key" (ascii "\"" ++ formatSourceKey vr.lastSourceKey ++ ascii "\""),
    jsonField "source_slots_capacity" (decimal maxSourceSlots),
    jsonField "sources" (jsonArray (sourcesJson cfg recorded))]

/-- The object of the victim on a cgroup. -/
def victimStatus (engine : Engine) (order : StatusOrder engine) (cgid : UInt64) : Bytes :=
  let vr := (engine.victims cgid).getD default
  victimJson cgid vr (engine.victimCfg cgid)
    ((engine.consumePolicyMap cgid).getD consumeDefaultFlags)
    ((order.sources cgid).keys.filterMap vr.sources)

/-- The victims of the status, in order. -/
def victimsJson (engine : Engine) (order : StatusOrder engine) : List Bytes :=
  order.victims.keys.map (engine.victimStatus order)

/-- `status_json`. The engine never refunds, and its counter of useless rearms is no part of a modelled
section. -/
def statusJson (engine : Engine) (order : StatusOrder engine) (rearmNoop : UInt64) : Bytes :=
  jsonObject [
    jsonField "ok" (jsonFlag true),
    jsonField "mode" (ascii "\"request-credit\""),
    jsonField "active" (jsonFlag engine.active),
    jsonField "refund_on_fail" (jsonFlag false),
    jsonField "default_delay_ns" (jsonCount engine.defaultDelayNs),
    jsonField "global" (jsonObject [
      jsonField "triggered" (jsonCount engine.triggered),
      jsonField "armed_ok" (jsonCount engine.armedOk),
      jsonField "armed_fail" (jsonCount engine.armFail),
      jsonField "consume_trigger" (jsonCount engine.globalStats.consumeTriggers),
      jsonField "bpf_events" (jsonCount engine.globalStats.bpfEvents),
      jsonField "ringbuf_drops" (jsonCount engine.globalStats.ringbufDrops),
      jsonField "injected_ok" (jsonCount engine.injectedOk),
      jsonField "inject_fail" (jsonCount engine.injectFail),
      jsonField "rearm_noop" (jsonCount rearmNoop)]),
    jsonField "cgroups" (jsonArray (engine.victimsJson order))]

/-- `request_credit_status_json`, the reply to `/status`. -/
def requestCreditStatusJson (engine : Engine) (order : StatusOrder engine) (rearmNoop : UInt64) :
    Bytes :=
  if engine.active then engine.statusJson order rearmNoop
  else ascii "\x7b\"ok\":false,\"mode\":\"request-credit\",\"active\":false\x7d"

end Engine

/-! ### Literals -/

/-- A byte as `json_escape` writes it. -/
def escapeByte (ch : UInt8) : Bytes :=
  if ch = 34 then [92, 34]
  else if ch = 92 then [92, 92]
  else if ch = 10 then ascii "\\n"
  else if ch = 13 then ascii "\\r"
  else if ch = 9 then ascii "\\t"
  else [ch]

/-- An ASCII character. -/
def isAscii (ch : UInt8) : Bool :=
  ch < 128

open Json

theorem decodeChars_escaped {esc : UInt8} {value : ℕ} (rest : Bytes)
    (known : escapeValue esc = some value) (unit : esc ≠ 117) :
    decodeChars (92 :: esc :: rest) = (decodeChars rest).map (value :: ·) := by
  rw [decodeChars.eq_def]
  simp only [if_neg unit, known]
  rfl

theorem decodeChars_unescaped {ch : UInt8} (rest : Bytes) (plain : isUnescaped ch = true) :
    decodeChars (ch :: rest) = (decodeChars rest).map (ch.toNat :: ·) := by
  have other : ch ≠ 92 := by
    rintro rfl
    exact absurd plain (by decide)
  rw [decodeChars.eq_def]
  simp only [if_neg other, if_pos plain]

/-- An escaped byte is read as the byte, unless it is a control character that is not escaped. -/
theorem decodeChars_escapeByte {ch : UInt8} (ascii : isAscii ch = true)
    (visible : isVisible ch = true) (rest : Bytes) :
    decodeChars (escapeByte ch ++ rest) = (decodeChars rest).map (ch.toNat :: ·) := by
  by_cases quote : ch = 34
  · subst quote
    exact decodeChars_escaped rest rfl (by decide)
  by_cases slash : ch = 92
  · subst slash
    exact decodeChars_escaped rest rfl (by decide)
  by_cases newline : ch = 10
  · subst newline
    exact decodeChars_escaped rest rfl (by decide)
  by_cases carriage : ch = 13
  · subst carriage
    exact decodeChars_escaped rest rfl (by decide)
  by_cases tab : ch = 9
  · subst tab
    exact decodeChars_escaped rest rfl (by decide)
  have plain : isUnescaped ch = true := by
    have high : 32 ≤ ch := by
      rcases Bool.or_eq_true_iff.mp visible with high | blank
      · exact of_decide_eq_true high
      · simp only [Json.isBlank, Bool.or_eq_true, beq_iff_eq, tab, newline, carriage, or_false]
          at blank
        rw [blank]
        decide
    simp only [isUnescaped, Bool.and_eq_true, decide_eq_true_eq, bne_iff_ne]
    exact ⟨⟨⟨high, of_decide_eq_true ascii⟩, quote⟩, slash⟩
  rw [escapeByte, if_neg quote, if_neg slash, if_neg newline, if_neg carriage, if_neg tab]
  exact decodeChars_unescaped rest plain

/-- A byte is visible if its escape is. -/
theorem visible_of_escapeByte {ch : UInt8} (shown : ∀ other ∈ escapeByte ch, isVisible other = true) :
    isVisible ch = true := by
  by_cases escaped : ch = 34 ∨ ch = 92 ∨ ch = 10 ∨ ch = 13 ∨ ch = 9
  · rcases escaped with rfl | rfl | rfl | rfl | rfl <;> decide
  · simp only [not_or] at escaped
    obtain ⟨quote, slash, newline, carriage, tab⟩ := escaped
    rw [escapeByte, if_neg quote, if_neg slash, if_neg newline, if_neg carriage, if_neg tab] at shown
    exact shown ch (List.mem_singleton.mpr rfl)

theorem visible_of_jsonEscape {text : Bytes}
    (shown : ∀ ch ∈ jsonEscape text, isVisible ch = true) : ∀ ch ∈ text, isVisible ch = true := by
  intro ch member
  exact visible_of_escapeByte fun other inside =>
    shown other (List.mem_flatMap.mpr ⟨ch, member, inside⟩)

theorem decodeChars_jsonEscape {text : Bytes} (ascii : ∀ ch ∈ text, isAscii ch = true)
    (visible : ∀ ch ∈ text, isVisible ch = true) :
    decodeChars (jsonEscape text) = some (text.map UInt8.toNat) := by
  induction text with
  | nil => rfl
  | cons ch rest ih =>
      rw [List.forall_mem_cons] at ascii visible
      have later := ih ascii.2 visible.2
      have here := decodeChars_escapeByte ascii.1 visible.1 (jsonEscape rest)
      rw [later] at here
      exact here

theorem decodeString_jsonText (text : Bytes) :
    decodeString (jsonText text) = decodeChars (jsonEscape text) :=
  decodeString_quoted (jsonEscape text)

/-- A name is a string literal that denotes it exactly if it has no control character but those that
are escaped. -/
theorem decodeString_jsonText_iff {text : Bytes} (ascii : ∀ ch ∈ text, isAscii ch = true) :
    decodeString (jsonText text) = some (text.map UInt8.toNat) ↔
      ∀ ch ∈ text, isVisible ch = true := by
  rw [decodeString_jsonText]
  constructor
  · intro decoded
    exact visible_of_jsonEscape (visible_of_le (decodeChars_le decoded))
  · exact decodeChars_jsonEscape ascii

/-! ### Fields -/

theorem isSome_decodeChars {text : Bytes} (plain : ∀ ch ∈ text, isUnescaped ch = true) :
    (decodeChars text).isSome := by
  induction text with
  | nil => rfl
  | cons ch rest ih =>
      rw [List.forall_mem_cons] at plain
      rw [decodeChars_unescaped rest plain.1, Option.isSome_map]
      exact ih plain.2

/-- A field whose name needs no escape is a member. -/
theorem isMember_field {name : String} {value : Bytes}
    (plain : (ascii name).all isUnescaped = true) (json : IsJson value) :
    IsMember (jsonField name value) := by
  refine ⟨34 :: (ascii name ++ [34]), value, ?_, isKey_literal ?_, json⟩
  · rw [jsonField, show ascii "\":" = [34, 58] by decide, show ascii "\"" = [34] by decide]
    simp
  · rw [decodeString_quoted]
    exact isSome_decodeChars (List.all_eq_true.mp plain)

theorem isJson_jsonText {text : Bytes} (ascii : ∀ ch ∈ text, isAscii ch = true)
    (visible : ∀ ch ∈ text, isVisible ch = true) : IsJson (jsonText text) :=
  .string (by rw [(decodeString_jsonText_iff ascii).mpr visible]; rfl)

theorem isJson_jsonFlag (flag : Bool) : IsJson (jsonFlag flag) := by
  cases flag
  · exact .word (.inr (.inl rfl))
  · exact .word (.inl rfl)

theorem isJson_jsonCount (count : UInt64) : IsJson (jsonCount count) :=
  isJson_decimal (.inl rfl) count.toNat

theorem isJson_signedDecimal (value : ℤ) : IsJson (signedDecimal value) := by
  unfold signedDecimal
  split
  · exact isJson_decimal (.inr (by decide)) value.natAbs
  · exact isJson_decimal (.inl rfl) value.natAbs

theorem isJson_jsonObject {fields : List Bytes} (each : ∀ field ∈ fields, IsMember field)
    (nonempty : fields ≠ []) : IsJson (jsonObject fields) := by
  have json := IsJson.object_fields each nonempty
  have shape : jsonObject fields = 123 :: ([44].intercalate fields ++ [125]) := by
    rw [jsonObject, show ascii "\x7b" = [123] by decide, show ascii "," = [44] by decide,
      show ascii "\x7d" = [125] by decide]
    simp
  rw [shape]
  exact json

theorem isJson_jsonArray {rows : List Bytes} (each : ∀ row ∈ rows, IsJson row) :
    IsJson (jsonArray rows) := by
  have json := IsJson.array_elements each
  have shape : jsonArray rows = 91 :: ([44].intercalate rows ++ [93]) := by
    rw [jsonArray, show ascii "[" = [91] by decide, show ascii "," = [44] by decide,
      show ascii "]" = [93] by decide]
    simp
  rw [shape]
  exact json

/-- A text without escapes between quotes. -/
theorem isJson_quoted {text : Bytes} (plain : ∀ ch ∈ text, isUnescaped ch = true) :
    IsJson (ascii "\"" ++ text ++ ascii "\"") := by
  refine .string ?_
  rw [show ascii "\"" = [34] by decide, List.append_assoc]
  show (decodeString (34 :: (text ++ [34]))).isSome
  rw [decodeString_quoted]
  exact isSome_decodeChars plain

/-- A digit or a lower-case letter. -/
def isPlain (ch : UInt8) : Bool :=
  Text.isDigit ch || (97 ≤ ch && ch ≤ 122)

theorem isUnescaped_of_isPlain {ch : UInt8} (plain : isPlain ch = true) :
    isUnescaped ch = true := by
  have all : ∀ value < 256, isPlain (UInt8.ofNat value) = true →
      isUnescaped (UInt8.ofNat value) = true := by
    decide +kernel
  have here := all ch.toNat ch.toNat_lt
  rw [UInt8.ofNat_toNat] at here
  exact here plain

/-- What needs no escape is ASCII and visible. -/
theorem kinds_of_isUnescaped {ch : UInt8} (plain : isUnescaped ch = true) :
    isAscii ch = true ∧ isVisible ch = true := by
  simp only [isUnescaped, Bool.and_eq_true, decide_eq_true_eq] at plain
  exact ⟨decide_eq_true plain.1.1.2, isVisible_of_le plain.1.1.1⟩

/-- The digits of a key. -/
theorem mem_toDigits {value : ℕ} {ch : Char} (member : ch ∈ Nat.toDigits 16 value) :
    ∃ digit < 16, ch = Nat.digitChar digit := by
  induction value using Nat.strong_induction_on with
  | _ value ih =>
      rw [Nat.toDigits_eq_if (by decide)] at member
      split at member
      · rename_i small
        exact ⟨value, small, List.mem_singleton.mp member⟩
      · rcases List.mem_append.mp member with before | last
        · exact ih (value / 16) (by omega) before
        · exact ⟨value % 16, Nat.mod_lt _ (by decide), List.mem_singleton.mp last⟩

/-- A key is written in hexadecimal digits and the letter x. -/
theorem formatSourceKey_plain (sourceKey : UInt64) :
    ∀ ch ∈ formatSourceKey sourceKey, isPlain ch = true := by
  have digits : ∀ digit < 16, isPlain (Nat.digitChar digit).toNat.toUInt8 = true := by
    decide
  rw [formatSourceKey, List.forall_mem_append]
  refine ⟨List.all_eq_true.mp (by decide), fun ch member => ?_⟩
  obtain ⟨digit, inside, rfl⟩ := List.mem_map.mp member
  rw [String.toList_ofList] at inside
  obtain ⟨value, small, rfl⟩ := mem_toDigits inside
  exact digits value small

theorem formatSourceKey_unescaped (sourceKey : UInt64) :
    ∀ ch ∈ formatSourceKey sourceKey, isUnescaped ch = true :=
  fun ch member => isUnescaped_of_isPlain (formatSourceKey_plain sourceKey ch member)

theorem isMember_count {name : String} (plain : (ascii name).all isUnescaped = true)
    (count : UInt64) : IsMember (jsonField name (jsonCount count)) :=
  isMember_field plain (isJson_jsonCount count)

theorem isMember_text {name : String} {text : Bytes} (plain : (ascii name).all isUnescaped = true)
    (ascii : ∀ ch ∈ text, isAscii ch = true) (visible : ∀ ch ∈ text, isVisible ch = true) :
    IsMember (jsonField name (jsonText text)) :=
  isMember_field plain (isJson_jsonText ascii visible)

theorem isMember_decimal {name : String} (plain : (ascii name).all isUnescaped = true)
    (value : ℕ) : IsMember (jsonField name (decimal value)) :=
  isMember_field plain (isJson_decimal (.inl rfl) value)

theorem isMember_signed {name : String} (plain : (ascii name).all isUnescaped = true)
    (value : ℤ) : IsMember (jsonField name (signedDecimal value)) :=
  isMember_field plain (isJson_signedDecimal value)

theorem isMember_flag {name : String} (plain : (ascii name).all isUnescaped = true)
    (flag : Bool) : IsMember (jsonField name (jsonFlag flag)) :=
  isMember_field plain (isJson_jsonFlag flag)

theorem isMember_key {name : String} (plain : (ascii name).all isUnescaped = true)
    (sourceKey : UInt64) :
    IsMember (jsonField name (ascii "\"" ++ formatSourceKey sourceKey ++ ascii "\"")) :=
  isMember_field plain (isJson_quoted (formatSourceKey_unescaped sourceKey))

/-- The object of a source is JSON if its name is. -/
theorem isJson_sourceJson {source : Bytes} (ascii : ∀ ch ∈ source, isAscii ch = true)
    (visible : ∀ ch ∈ source, isVisible ch = true) (sourceKey : UInt64)
    (slotIndex : Option SlotIndex) (slot : Option SourceCreditSlot) (sr : VictimSourceRuntime) :
    IsJson (Engine.sourceJson source sourceKey slotIndex slot sr) := by
  refine isJson_jsonObject ?_ (List.cons_ne_nil _ _)
  simp (disch := decide +kernel) only [List.forall_mem_cons, isMember_count, isMember_key,
    isMember_signed, true_and]
  refine ⟨isMember_text (by decide +kernel) ascii visible, ?_,
    fun _ among => absurd among List.not_mem_nil⟩
  cases slotIndex with
  | none => exact isMember_field (by decide +kernel) (.word (.inr (.inr rfl)))
  | some index => exact isMember_decimal (by decide +kernel) index.val

/-- The names of the flags need no escape. -/
theorem isJson_consumeFlags (flags : UInt32) : IsJson (consumeFlagsToJsonArray flags) := by
  have quoted : ∀ {shown : List Bytes}, (∀ name ∈ shown, ∀ ch ∈ name, isUnescaped ch = true) →
      IsJson (jsonArray (shown.map fun name => ascii "\"" ++ name ++ ascii "\"")) := by
    intro shown plain
    refine isJson_jsonArray fun row among => ?_
    obtain ⟨name, member, rfl⟩ := List.mem_map.mp among
    exact isJson_quoted (plain name member)
  refine quoted fun name among => ?_
  split at among
  · rw [List.mem_singleton.mp among]
    decide +kernel
  · obtain ⟨⟨text, flag⟩, known, pushed⟩ := List.mem_filterMap.mp among
    obtain ⟨_, same⟩ := Option.ite_none_right_eq_some.mp pushed
    rw [← Option.some.inj same]
    have plain : ∀ pair ∈ [("recvfrom", (1 : UInt32)), ("recvmsg", 2), ("recvmmsg", 4), ("read", 8),
        ("readv", 16), ("pread64", 32), ("io_uring", 64)],
        ∀ ch ∈ ascii pair.1, isUnescaped ch = true := by
      decide +kernel
    exact plain (text, flag) known

/-! ### Names -/

/-- The names that the status shows of a victim have characters of one kind only. -/
structure VictimRuntime.Names (kind : UInt8 → Bool) (vr : VictimRuntime) : Prop where
  ns : ∀ ch ∈ vr.ns, kind ch = true
  pod : ∀ ch ∈ vr.pod, kind ch = true
  container : ∀ ch ∈ vr.container, kind ch = true
  cgroupPath : ∀ ch ∈ vr.cgroupPath, kind ch = true
  lastSource : ∀ ch ∈ vr.lastSource, kind ch = true
  sources : ∀ key sr, vr.sources key = some sr → ∀ ch ∈ sr.source, kind ch = true

namespace Engine

/-- All names in the status have characters of one kind. -/
def Shown (kind : UInt8 → Bool) (engine : Engine) : Prop :=
  ∀ cgid vr, engine.victims cgid = some vr → vr.Names kind

end Engine

/-- The object of a victim is JSON if its names are. -/
theorem isJson_victimJson {vr : VictimRuntime} (ascii : vr.Names isAscii)
    (visible : vr.Names isVisible) (cgid : UInt64) (cfg : VictimCfg) (flags : UInt32)
    {recorded : List VictimSourceRuntime}
    (known : ∀ sr ∈ recorded, ∃ key, vr.sources key = some sr) :
    IsJson (Engine.victimJson cgid vr cfg flags recorded) := by
  have rows : ∀ row ∈ Engine.sourcesJson cfg recorded, IsJson row := by
    intro row among
    rcases List.mem_append.mp among with first | second
    · obtain ⟨sr, member, rfl⟩ := List.mem_map.mp first
      obtain ⟨key, entry⟩ := known sr member
      exact isJson_sourceJson (ascii.sources key sr entry) (visible.sources key sr entry) _ _ _ _
    · obtain ⟨index, _, rfl⟩ := List.mem_map.mp second
      have plain := formatSourceKey_unescaped (cfg.slots index).sourceKey
      exact isJson_sourceJson (fun ch member => (kinds_of_isUnescaped (plain ch member)).1)
        (fun ch member => (kinds_of_isUnescaped (plain ch member)).2) _ _ _ _
  refine isJson_jsonObject ?_ (List.cons_ne_nil _ _)
  simp (disch := decide +kernel) only [List.forall_mem_cons, isMember_count, isMember_key,
    isMember_signed, isMember_decimal, true_and]
  exact ⟨isMember_text (by decide +kernel) ascii.ns visible.ns,
    isMember_text (by decide +kernel) ascii.pod visible.pod,
    isMember_text (by decide +kernel) ascii.container visible.container,
    isMember_text (by decide +kernel) ascii.cgroupPath visible.cgroupPath,
    isMember_field (by decide +kernel) (isJson_consumeFlags flags),
    isMember_text (by decide +kernel) ascii.lastSource visible.lastSource,
    isMember_field (by decide +kernel) (isJson_jsonArray rows),
    fun _ among => absurd among List.not_mem_nil⟩

/-! ### What the status shows -/

theorem subset_intercalate {separator part : Bytes} {parts : List Bytes} (member : part ∈ parts) :
    part ⊆ separator.intercalate parts := by
  induction parts with
  | nil => cases member
  | cons first rest ih =>
      by_cases last : rest = []
      · subst last
        rw [List.mem_singleton.mp member, List.intercalate_singleton]
        exact List.Subset.refl _
      · rw [List.intercalate_cons_of_ne_nil last]
        rcases List.mem_cons.mp member with rfl | later
        · exact fun ch inside => List.mem_append_left _ (List.mem_append_left _ inside)
        · exact fun ch inside => List.mem_append_right _ (ih later inside)

theorem subset_jsonObject {field : Bytes} {fields : List Bytes} (member : field ∈ fields) :
    field ⊆ jsonObject fields := fun _ inside =>
  List.mem_append_left _ (List.mem_append_right _ (subset_intercalate member inside))

theorem subset_jsonArray {row : Bytes} {rows : List Bytes} (member : row ∈ rows) :
    row ⊆ jsonArray rows := fun _ inside =>
  List.mem_append_left _ (List.mem_append_right _ (subset_intercalate member inside))

theorem subset_jsonField (name : String) (value : Bytes) : value ⊆ jsonField name value :=
  List.subset_append_right _ _

theorem subset_jsonText (text : Bytes) : jsonEscape text ⊆ jsonText text := fun _ inside =>
  List.mem_append_left _ (List.mem_append_right _ inside)

/-- A name in a field of an object that is visible is visible. -/
theorem visible_of_field {fields : List Bytes} (visible : ∀ ch ∈ jsonObject fields, isVisible ch = true)
    {name : String} {text : Bytes} (member : jsonField name (jsonText text) ∈ fields) :
    ∀ ch ∈ text, isVisible ch = true :=
  visible_of_jsonEscape fun ch inside => visible ch
    (subset_jsonObject member (subset_jsonField name _ (subset_jsonText text inside)))

/-- The names of a victim are visible if its object is. -/
theorem names_of_victimJson {vr : VictimRuntime} {cgid : UInt64} {cfg : VictimCfg} {flags : UInt32}
    {recorded : List VictimSourceRuntime}
    (known : ∀ key sr, vr.sources key = some sr → sr ∈ recorded)
    (visible : ∀ ch ∈ Engine.victimJson cgid vr cfg flags recorded, isVisible ch = true) :
    vr.Names isVisible where
  ns := visible_of_field visible (List.mem_of_getElem? (i := 1) rfl)
  pod := visible_of_field visible (List.mem_of_getElem? (i := 2) rfl)
  container := visible_of_field visible (List.mem_of_getElem? (i := 3) rfl)
  cgroupPath := visible_of_field visible (List.mem_of_getElem? (i := 4) rfl)
  lastSource := visible_of_field visible (List.mem_of_getElem? (i := 20) rfl)
  sources := by
    intro key sr entry
    have row : Engine.recordedSourceJson cfg sr ∈ Engine.sourcesJson cfg recorded :=
      List.mem_append_left _ (List.mem_map_of_mem (known key sr entry))
    have array : Engine.recordedSourceJson cfg sr ⊆
        jsonField "sources" (jsonArray (Engine.sourcesJson cfg recorded)) :=
      fun _ inside => subset_jsonField "sources" _ (subset_jsonArray row inside)
    have shown : ∀ ch ∈ Engine.recordedSourceJson cfg sr, isVisible ch = true :=
      fun ch inside => visible ch
        (subset_jsonObject (List.mem_of_getElem? (i := 23) rfl) (array inside))
    exact visible_of_field shown (List.mem_of_getElem? (i := 0) rfl)

namespace Engine

variable {engine : Engine} (order : StatusOrder engine)

/-- The sources of the status are those on record. -/
theorem mem_recorded {cgid : UInt64} {vr : VictimRuntime} (held : engine.victims cgid = some vr)
    {sr : VictimSourceRuntime} :
    sr ∈ (order.sources cgid).keys.filterMap vr.sources ↔ ∃ key, vr.sources key = some sr := by
  rw [List.mem_filterMap]
  constructor
  · rintro ⟨key, _, entry⟩
    exact ⟨key, entry⟩
  · rintro ⟨key, entry⟩
    refine ⟨key, ((order.sources cgid).mem key).mpr ?_, entry⟩
    rw [held, Option.getD_some, entry]
    rfl

theorem victimStatus_eq {cgid : UInt64} {vr : VictimRuntime}
    (held : engine.victims cgid = some vr) : engine.victimStatus order cgid =
      victimJson cgid vr (engine.victimCfg cgid)
        ((engine.consumePolicyMap cgid).getD consumeDefaultFlags)
        ((order.sources cgid).keys.filterMap vr.sources) := by
  simp only [victimStatus, held, Option.getD_some]

/-- The victims are shown in the status. -/
theorem subset_statusJson {cgid : UInt64} (member : cgid ∈ order.victims.keys) (rearmNoop : UInt64) :
    engine.victimStatus order cgid ⊆ engine.statusJson order rearmNoop := by
  intro ch inside
  have row : engine.victimStatus order cgid ∈ engine.victimsJson order :=
    List.mem_map_of_mem member
  have array := subset_jsonField "cgroups" _ (subset_jsonArray row inside)
  exact subset_jsonObject (List.mem_of_getElem? (i := 6) rfl) array

/-- The status is JSON exactly if no name in it has a control character that is not escaped. -/
theorem statusJson_isJson_iff (ascii : engine.Shown isAscii) (rearmNoop : UInt64) :
    IsJson (engine.statusJson order rearmNoop) ↔ engine.Shown isVisible := by
  constructor
  · intro json cgid vr held
    have member : cgid ∈ order.victims.keys := (order.victims.mem cgid).mpr (by rw [held]; rfl)
    have shown := subset_statusJson order member rearmNoop
    rw [victimStatus_eq order held] at shown
    exact names_of_victimJson (fun key sr entry => (mem_recorded order held).mpr ⟨key, entry⟩)
      fun ch inside => json.visible ch (shown inside)
  · intro visible
    have rows : ∀ row ∈ engine.victimsJson order, IsJson row := by
      intro row among
      obtain ⟨cgid, member, rfl⟩ := List.mem_map.mp among
      obtain ⟨vr, held⟩ := Option.isSome_iff_exists.mp ((order.victims.mem cgid).mp member)
      rw [victimStatus_eq order held]
      exact isJson_victimJson (ascii cgid vr held) (visible cgid vr held) _ _ _
        fun sr inside => (mem_recorded order held).mp inside
    refine isJson_jsonObject ?_ (List.cons_ne_nil _ _)
    simp (disch := decide +kernel) only [List.forall_mem_cons, isMember_count, isMember_flag,
      true_and]
    refine ⟨isMember_field (by decide +kernel) ?_, isMember_field (by decide +kernel) ?_,
      isMember_field (by decide +kernel) (isJson_jsonArray rows),
      fun _ among => absurd among List.not_mem_nil⟩
    · exact .string (by decide +kernel)
    · refine isJson_jsonObject ?_ (List.cons_ne_nil _ _)
      simp (disch := decide +kernel) only [List.forall_mem_cons, isMember_count, true_and]
      exact fun _ among => absurd among List.not_mem_nil

end Engine

end Mcoz
