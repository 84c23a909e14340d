/-
The arm request over UDP: from the gate's form encoding to the daemon's map.

The gate sends the pairs of an arm as `urllib.parse.urlencode` writes them, in one datagram.
`arm_udp_server_loop` reads up to 2047 bytes of it and takes them apart with `parse_query_map`. The
encoding of a byte holds no separator (`quoteByte_plain`) and is decoded to that byte
(`urlDecode_quoteByte`), so the map of the daemon is the map of the pairs (`parseQueryMap_datagram`).
-/

import Mcoz.Daemon.Http

set_option autoImplicit false

namespace Mcoz.Transport

open Word Text Daemon

/-! ### The gate -/

/-- The bytes that `quote` leaves as they are: letters, digits, `_.-~`. -/
def alwaysSafe (ch : UInt8) : Bool :=
  (65 ≤ ch && ch ≤ 90) || (97 ≤ ch && ch ≤ 122) || isDigit ch ||
    ch == 95 || ch == 46 || ch == 45 || ch == 126

/-- A hexadecimal digit in upper case. -/
def hexUpper (digit : UInt8) : UInt8 :=
  if digit < 10 then 48 + digit else 55 + digit

/-- `quote_plus` of one byte: a blank as a plus sign, a safe byte as it is, others as `%XX`. -/
def quoteByte (ch : UInt8) : Bytes :=
  if ch = 32 then [43]
  else if alwaysSafe ch then [ch]
  else [37, hexUpper (ch / 16), hexUpper (ch % 16)]

/-- `urllib.parse.quote_plus`. -/
def quotePlus (text : Bytes) : Bytes :=
  text.flatMap quoteByte

/-- One pair of a form. -/
def quotePair (pair : Bytes × Bytes) : Bytes :=
  quotePlus pair.1 ++ 61 :: quotePlus pair.2

/-- `urllib.parse.urlencode`. -/
def urlencode (pairs : List (Bytes × Bytes)) : Bytes :=
  [38].intercalate (pairs.map quotePair)

/-! ### The daemon -/

/-- The size of `buf` in `arm_udp_server_loop`. -/
def udpBufferBytes : ℕ := 2048

/-- What `recvfrom` leaves of a datagram: a byte of the buffer is kept for a NUL. -/
def udpReceive (datagram : Bytes) : Bytes :=
  datagram.take (udpBufferBytes - 1)

/-- The map of pairs: the value of a key is the one of its last pair. -/
def pairsMap (pairs : List (Bytes × Bytes)) : Params :=
  fun key => (pairs.reverse.find? fun pair => pair.1 = key).map Prod.snd

/-! ### Bytes -/

theorem quoteByte_blank : quoteByte 32 = [43] := rfl

theorem quoteByte_safe {ch : UInt8} (safe : alwaysSafe ch = true) : quoteByte ch = [ch] := by
  have blank : ch ≠ 32 := by
    rintro rfl
    exact absurd safe (by decide)
  rw [quoteByte, if_neg blank, if_pos safe]

theorem quoteByte_escaped {ch : UInt8} (blank : ch ≠ 32) (other : alwaysSafe ch = false) :
    quoteByte ch = [37, hexUpper (ch / 16), hexUpper (ch % 16)] := by
  rw [quoteByte, if_neg blank, if_neg (Bool.eq_false_iff.mp other)]

/-- Digits of an escape are read back, and are no separators. -/
theorem hexUpper_spec {digit : UInt8} (small : digit < 16) :
    hexToInt (hexUpper digit) = some digit ∧ hexUpper digit ≠ 38 ∧ hexUpper digit ≠ 61 := by
  have all : ∀ value < 16, hexToInt (hexUpper (UInt8.ofNat value)) = some (UInt8.ofNat value) ∧
      hexUpper (UInt8.ofNat value) ≠ 38 ∧ hexUpper (UInt8.ofNat value) ≠ 61 := by
    decide
  have here := all digit.toNat (UInt8.lt_iff_toNat_lt.mp small)
  rwa [UInt8.ofNat_toNat] at here

theorem high_lt (ch : UInt8) : ch / 16 < 16 := by
  have bound := ch.toNat_lt
  rw [UInt8.lt_iff_toNat_lt, UInt8.toNat_div]
  show ch.toNat / 16 < 16
  omega

theorem low_lt (ch : UInt8) : ch % 16 < 16 := by
  rw [UInt8.lt_iff_toNat_lt, UInt8.toNat_mod]
  exact Nat.mod_lt _ (by decide)

/-- A byte is its two hexadecimal digits. -/
theorem high_low (ch : UInt8) : ch / 16 * 16 + ch % 16 = ch := by
  have bound := ch.toNat_lt
  rw [← UInt8.toNat_inj, UInt8.toNat_add, UInt8.toNat_mul, UInt8.toNat_div, UInt8.toNat_mod]
  show (ch.toNat / 16 * 16 % 256 + ch.toNat % 16) % 256 = ch.toNat
  omega

/-- A safe byte neither stands for another one nor separates. -/
theorem alwaysSafe_plain {ch : UInt8} (safe : alwaysSafe ch = true) :
    ch ≠ 43 ∧ ch ≠ 37 ∧ ch ≠ 38 ∧ ch ≠ 61 := by
  refine ⟨?_, ?_, ?_, ?_⟩ <;> (rintro rfl; exact absurd safe (by decide))

/-- The encoding of a byte holds no separator. -/
theorem quoteByte_plain {ch one : UInt8} (member : one ∈ quoteByte ch) : one ≠ 38 ∧ one ≠ 61 := by
  by_cases blank : ch = 32
  · rw [blank, quoteByte_blank, List.mem_singleton] at member
    rw [member]
    decide
  by_cases safe : alwaysSafe ch = true
  · rw [quoteByte_safe safe, List.mem_singleton] at member
    rw [member]
    exact (alwaysSafe_plain safe).2.2
  · rw [quoteByte_escaped blank (Bool.eq_false_iff.mpr safe)] at member
    simp only [List.mem_cons, List.not_mem_nil, or_false] at member
    rcases member with rfl | rfl | rfl
    · decide
    · exact (hexUpper_spec (high_lt ch)).2
    · exact (hexUpper_spec (low_lt ch)).2

theorem urlDecode_plus (rest : Bytes) : urlDecode (43 :: rest) = 32 :: urlDecode rest := by
  rw [urlDecode.eq_def]
  rfl

theorem urlDecode_plain {ch : UInt8} (rest : Bytes) (plus : ch ≠ 43) (percent : ch ≠ 37) :
    urlDecode (ch :: rest) = ch :: urlDecode rest := by
  rw [urlDecode.eq_def]
  simp only [if_neg plus, if_neg percent]

theorem urlDecode_escape {hi lo high low : UInt8} (rest : Bytes) (first : hexToInt hi = some high)
    (second : hexToInt lo = some low) :
    urlDecode (37 :: hi :: lo :: rest) = (high * 16 + low) :: urlDecode rest := by
  rw [urlDecode.eq_def]
  simp only [first, second]
  rfl

/-- The encoding of a byte is decoded to it, whatever follows. -/
theorem urlDecode_quoteByte (ch : UInt8) (rest : Bytes) :
    urlDecode (quoteByte ch ++ rest) = ch :: urlDecode rest := by
  by_cases blank : ch = 32
  · rw [blank, quoteByte_blank]
    exact urlDecode_plus rest
  by_cases safe : alwaysSafe ch = true
  · obtain ⟨plus, percent, _⟩ := alwaysSafe_plain safe
    rw [quoteByte_safe safe]
    exact urlDecode_plain rest plus percent
  · have high := (hexUpper_spec (high_lt ch)).1
    have low := (hexUpper_spec (low_lt ch)).1
    rw [quoteByte_escaped blank (Bool.eq_false_iff.mpr safe), List.cons_append, List.cons_append,
      List.cons_append, List.nil_append, urlDecode_escape rest high low, high_low]

/-! ### Texts and pairs -/

/-- A text is decoded from its encoding. -/
theorem urlDecode_quotePlus (text : Bytes) : urlDecode (quotePlus text) = text := by
  induction text with
  | nil => rfl
  | cons ch rest ih =>
      have first := urlDecode_quoteByte ch (quotePlus rest)
      rw [ih] at first
      exact first

theorem quotePlus_plain {text : Bytes} {one : UInt8} (member : one ∈ quotePlus text) :
    one ≠ 38 ∧ one ≠ 61 := by
  obtain ⟨ch, _, inside⟩ := List.mem_flatMap.mp member
  exact quoteByte_plain inside

/-- A pair is taken apart at its equals sign. -/
theorem splitEquals_quotePair (pair : Bytes × Bytes) :
    splitEquals (quotePair pair) = (quotePlus pair.1, quotePlus pair.2) := by
  have found : find [61] (quotePlus pair.1 ++ 61 :: quotePlus pair.2) =
      some (quotePlus pair.1).length :=
    @find_after (quotePlus pair.1) (quotePlus pair.2) 61 [] fun member =>
      (quotePlus_plain member).2 rfl
  rw [splitEquals, quotePair, found]
  simp only [List.take_left]
  rw [← List.drop_drop, List.drop_left]
  rfl

theorem quotePair_ne_nil (pair : Bytes × Bytes) : quotePair pair ≠ [] := by
  simp [quotePair]

/-- The encoding of a pair does not separate pairs. -/
theorem quotePair_plain (pair : Bytes × Bytes) : (38 : UInt8) ∉ quotePair pair := by
  intro member
  rcases List.mem_append.mp member with inside | inside
  · exact (quotePlus_plain inside).1 rfl
  · rcases List.mem_cons.mp inside with sign | inside
    · exact absurd sign (by decide)
    · exact (quotePlus_plain inside).1 rfl

/-- Every part of joined text but the last is followed by the separator. -/
theorem intercalate_concat (parts : List Bytes) (last : Bytes) :
    [38].intercalate (parts ++ [last]) = (parts.map (· ++ [38])).flatten ++ last := by
  induction parts with
  | nil => simp
  | cons part rest ih =>
      have more : rest ++ [last] ≠ [] := by simp
      rw [List.cons_append, List.intercalate_cons_of_ne_nil more, ih, List.map_cons,
        List.flatten_cons, List.append_assoc, List.append_assoc, List.append_assoc]

/-- Every part that is followed by a separator takes a byte. -/
theorem length_le_joined (parts : List Bytes) :
    parts.length ≤ (parts.map (· ++ [38])).flatten.length := by
  induction parts with
  | nil => exact le_rfl
  | cons part rest ih =>
      rw [List.map_cons, List.flatten_cons, List.length_append, List.length_append,
        List.length_cons, List.length_singleton]
      omega

/-- The form is split into its pairs. -/
theorem splitOn_urlencode {pairs : List (Bytes × Bytes)} (nonempty : pairs ≠ []) :
    splitOn [38] (urlencode pairs).length (urlencode pairs) = pairs.map quotePair := by
  obtain ⟨before, last, rfl⟩ := (List.eq_nil_or_concat pairs).resolve_left nonempty
  rw [List.concat_eq_append, urlencode, List.map_append, List.map_singleton, intercalate_concat]
  refine splitOn_join ?_ (fun part member => ?_) (quotePair_plain last)
  · rw [List.length_append]
    exact le_trans (length_le_joined _) (Nat.le_add_right _ _)
  · obtain ⟨pair, _, rfl⟩ := List.mem_map.mp member
    exact quotePair_plain pair

/-- Setting pairs one after the other gives each key the value of its last pair. -/
theorem foldl_setParam (pairs : List (Bytes × Bytes)) (params : Params) :
    pairs.foldl (fun params pair => setParam params pair.1 pair.2) params =
      fun key => (pairsMap pairs key).or (params key) := by
  induction pairs generalizing params with
  | nil => rfl
  | cons pair rest ih =>
      rw [List.foldl_cons, ih]
      funext key
      have last : pairsMap (pair :: rest) key =
          (pairsMap rest key).or (if key = pair.1 then some pair.2 else none) := by
        rw [pairsMap, List.reverse_cons, List.find?_append, Option.map_or, List.find?_singleton]
        by_cases same : pair.1 = key
        · rw [if_pos (decide_eq_true same), if_pos same.symm]
          rfl
        · rw [if_neg (by simpa using same), if_neg (Ne.symm same)]
          rfl
      rw [last, Option.or_assoc]
      by_cases same : key = pair.1
      · rw [setParam, if_pos same, if_pos same]
        rfl
      · rw [setParam, if_neg same, if_neg same]
        rfl

/-- The map of an encoded form is the map of its pairs. -/
theorem parseQueryMap_urlencode (pairs : List (Bytes × Bytes)) :
    parseQueryMap (urlencode pairs) = pairsMap pairs := by
  by_cases empty : pairs = []
  · subst empty
    rfl
  · have step : ∀ (params : Params) (pair : Bytes × Bytes),
        (if quotePair pair = [] then params
        else setParam params (urlDecode (splitEquals (quotePair pair)).1)
          (urlDecode (splitEquals (quotePair pair)).2)) = setParam params pair.1 pair.2 := by
      intro params pair
      rw [if_neg (quotePair_ne_nil pair), splitEquals_quotePair, urlDecode_quotePlus,
        urlDecode_quotePlus]
    rw [parseQueryMap, splitOn_urlencode empty, List.foldl_map]
    simp only [step]
    rw [foldl_setParam]
    funext key
    exact Option.or_none

/-- A form of at most 2047 bytes comes out of its datagram as the map of its pairs. -/
theorem parseQueryMap_datagram (pairs : List (Bytes × Bytes))
    (small : (urlencode pairs).length ≤ 2047) :
    parseQueryMap (udpReceive (urlencode pairs)) = pairsMap pairs := by
  have whole : udpReceive (urlencode pairs) = urlencode pairs := List.take_of_length_le small
  rw [whole]
  exact parseQueryMap_urlencode pairs

/-- A key that comes twice, with separators in a value. -/
theorem parseQueryMap_datagram_twice :
    parseQueryMap (udpReceive (urlencode [(ascii "a", ascii "1"), (ascii "a", ascii "=&%+ ")])) =
      pairsMap [(ascii "a", ascii "1"), (ascii "a", ascii "=&%+ ")] :=
  parseQueryMap_datagram _ (by decide +kernel)

end Mcoz.Transport
