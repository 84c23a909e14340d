/-
C and C++ text functions on byte strings.

Searching (`find`), trimming, lower case, `fgets` and `strtoull`, in the C locale, on lists of bytes. The
lemmas say what they do on text that was put together: the first occurrence of a separator after text
that cannot hold one (`find_after`), the lines of a joined head (`splitOn_join`), the value of printed
digits (`scan_decimal`).
-/

import Mcoz.Lib.Word
import Mathlib.Data.List.Basic
import Mathlib.Data.List.TakeWhile

set_option autoImplicit false

namespace Text

open Word

/-! ### Searching -/

/-- `std::string::find`: where the first occurrence of the pattern begins. -/
def find (pattern : Bytes) : Bytes → Option ℕ
  | [] => if pattern = [] then some 0 else none
  | ch :: rest =>
      if pattern.isPrefixOf (ch :: rest) then some 0 else (find pattern rest).map (· + 1)

/-- The lines of a text, separated by the pattern; at most `bound` separators are used. -/
def splitOn (pattern : Bytes) : ℕ → Bytes → List Bytes
  | 0, text => [text]
  | bound + 1, text =>
      match find pattern text with
      | none => [text]
      | some index => text.take index :: splitOn pattern bound (text.drop (index + pattern.length))

section Find

variable {pattern text before after : Bytes}

theorem find_cons (ch : UInt8) (rest : Bytes) : find pattern (ch :: rest) =
    if pattern.isPrefixOf (ch :: rest) then some 0 else (find pattern rest).map (· + 1) := rfl

theorem find_prefix (here : pattern <+: text) : find pattern text = some 0 := by
  cases text with
  | nil =>
      rw [List.prefix_nil.mp here]
      rfl
  | cons ch rest => rw [find_cons, if_pos (List.isPrefixOf_iff_prefix.mpr here)]

/-- An occurrence ends within the text. -/
theorem find_bound {index : ℕ} (found : find pattern text = some index) :
    index + pattern.length ≤ text.length := by
  induction text generalizing index with
  | nil =>
      unfold find at found
      split at found
      · rename_i empty
        cases found
        simp [empty]
      · cases found
  | cons ch rest ih =>
      rw [find_cons] at found
      split at found
      · rename_i here
        cases found
        rw [Nat.zero_add]
        exact (List.isPrefixOf_iff_prefix.mp here).length_le
      · obtain ⟨before, earlier, rfl⟩ := Option.map_eq_some_iff.mp found
        have bound := ih earlier
        simp only [List.length_cons]
        omega

/-- A text in whose first part no occurrence begins is searched from its second part on. -/
theorem find_append (nowhere : ∀ i, i < before.length → ¬ pattern <+: (before ++ after).drop i) :
    find pattern (before ++ after) = (find pattern after).map (· + before.length) := by
  induction before with
  | nil => simp
  | cons ch rest ih =>
      have here : ¬ pattern <+: ch :: (rest ++ after) := nowhere 0 (by simp)
      have later : find pattern (rest ++ after) = (find pattern after).map (· + rest.length) :=
        ih fun i below => nowhere (i + 1) (by simpa using below)
      rw [List.cons_append, find_cons,
        if_neg fun there => here (List.isPrefixOf_iff_prefix.mp there), later, Option.map_map]
      rfl

/-- The first byte of a pattern does not occur in text where no occurrence begins. -/
theorem not_prefix_of_not_mem {first : UInt8} {rest : Bytes} (absent : first ∉ before) :
    ∀ i, i < before.length → ¬ (first :: rest) <+: (before ++ after).drop i := by
  intro i below there
  obtain ⟨tail, same⟩ := there
  have head : (before ++ after)[i]? = some first := by
    rw [← List.head?_drop, ← same]
    rfl
  rw [List.getElem?_append_left below] at head
  exact absent (List.mem_of_getElem? head)

/-- The pattern right after text without its first byte is the first occurrence. -/
theorem find_after {first : UInt8} {rest : Bytes} (absent : first ∉ before) :
    find (first :: rest) (before ++ ((first :: rest) ++ after)) = some before.length := by
  rw [find_append (not_prefix_of_not_mem absent), find_prefix (List.prefix_append _ _)]
  simp

theorem find_absent {first : UInt8} {rest : Bytes} (absent : first ∉ text) :
    find (first :: rest) text = none := by
  have nowhere := @find_append (first :: rest) text [] (not_prefix_of_not_mem absent)
  rw [List.append_nil] at nowhere
  rw [nowhere]
  rfl

/-- A text that is shorter than the pattern does not hold it. -/
theorem find_short (short : text.length < pattern.length) : find pattern text = none := by
  cases found : find pattern text with
  | none => rfl
  | some index =>
      have bound := find_bound found
      omega

/-- A beginning of a text holds the first occurrence if it is long enough, else none. -/
theorem find_of_prefix {whole : Bytes} {index : ℕ} (found : find pattern whole = some index)
    (start : text <+: whole) :
    find pattern text = if index + pattern.length ≤ text.length then some index else none := by
  induction whole generalizing text index with
  | nil =>
      rw [List.prefix_nil.mp start]
      unfold find at found ⊢
      split at found
      · rename_i empty
        cases found
        simp [empty]
      · cases found
  | cons ch rest ih =>
      rw [find_cons] at found
      cases text with
      | nil =>
          by_cases empty : pattern = []
          · subst empty
            cases found
            rfl
          · have long : ([] : Bytes).length < pattern.length := List.length_pos_iff.mpr empty
            rw [find_short long, if_neg (by omega)]
      | cons first text =>
          obtain ⟨rfl, inner⟩ := List.cons_prefix_cons.mp start
          by_cases here : pattern <+: first :: rest
          · rw [if_pos (List.isPrefixOf_iff_prefix.mpr here)] at found
            cases found
            rw [Nat.zero_add]
            by_cases enough : pattern.length ≤ (first :: text).length
            · have inside : pattern <+: first :: text :=
                List.prefix_of_prefix_length_le here start enough
              rw [find_cons, if_pos (List.isPrefixOf_iff_prefix.mpr inside), if_pos enough]
            · rw [find_short (Nat.lt_of_not_le enough), if_neg enough]
          · rw [if_neg fun there => here (List.isPrefixOf_iff_prefix.mp there)] at found
            obtain ⟨before, earlier, rfl⟩ := Option.map_eq_some_iff.mp found
            have outside : ¬ pattern <+: first :: text := fun there =>
              here (there.trans start)
            rw [find_cons, if_neg fun there => outside (List.isPrefixOf_iff_prefix.mp there),
              ih earlier inner, List.length_cons]
            by_cases enough : before + pattern.length ≤ text.length
            · rw [if_pos enough, if_pos (by omega)]
              rfl
            · rw [if_neg enough, if_neg (by omega)]
              rfl

/-- The first occurrence in a beginning of a text is the first one of the text. -/
theorem find_extend {index : ℕ} (found : find pattern text = some index) (more : Bytes) :
    find pattern (text ++ more) = some index := by
  induction text generalizing index with
  | nil =>
      unfold find at found
      split at found
      · rename_i empty
        rw [← found, empty]
        exact find_prefix List.nil_prefix
      · cases found
  | cons ch rest ih =>
      rw [find_cons] at found
      rw [List.cons_append, find_cons]
      split at found
      · rename_i here
        have inside : pattern <+: ch :: (rest ++ more) :=
          (List.isPrefixOf_iff_prefix.mp here).trans (List.prefix_append (ch :: rest) more)
        rw [if_pos (List.isPrefixOf_iff_prefix.mpr inside), found]
      · rename_i outside
        obtain ⟨before, later, rfl⟩ := Option.map_eq_some_iff.mp found
        have bound := find_bound later
        have fresh : ¬ pattern <+: ch :: (rest ++ more) := fun there =>
          outside (List.isPrefixOf_iff_prefix.mpr (List.prefix_of_prefix_length_le there
            (List.prefix_append (ch :: rest) more) (by simp only [List.length_cons]; omega)))
        rw [if_neg fun there => fresh (List.isPrefixOf_iff_prefix.mp there), ih later]
        rfl

/-- The lines of a joined text are the lines it was joined from. -/
theorem splitOn_join {first : UInt8} {rest : Bytes} :
    ∀ {lines : List Bytes} {last : Bytes} {bound : ℕ}, lines.length ≤ bound →
      (∀ line ∈ lines, first ∉ line) → first ∉ last →
      splitOn (first :: rest) bound ((lines.map (· ++ (first :: rest))).flatten ++ last) =
        lines ++ [last]
  | [], last, bound, _, _, free => by
      cases bound with
      | zero => rfl
      | succ bound =>
          unfold splitOn
          rw [List.map_nil, List.flatten_nil, List.nil_append, find_absent free]
          rfl
  | line :: lines, last, bound, enough, absent, free => by
      cases bound with
      | zero => simp at enough
      | succ bound =>
          have ih := @splitOn_join first rest lines last bound (by simpa using enough)
            (fun other member => absent other (List.mem_cons_of_mem _ member)) free
          unfold splitOn
          rw [List.map_cons, List.flatten_cons, List.append_assoc, List.append_assoc,
            find_after (absent line List.mem_cons_self)]
          show List.take _ _ :: splitOn _ _ (List.drop _ _) = line :: (lines ++ [last])
          rw [List.take_left, ← List.drop_drop, List.drop_left, List.drop_left, ih]

end Find

/-! ### Characters -/

/-- `isspace`. -/
def isSpace (ch : UInt8) : Bool :=
  ch == 32 || (9 ≤ ch && ch ≤ 13)

/-- `isdigit`. -/
def isDigit (ch : UInt8) : Bool :=
  48 ≤ ch && ch ≤ 57

/-- `tolower`. -/
def toLower (ch : UInt8) : UInt8 :=
  if 65 ≤ ch && ch ≤ 90 then ch + 32 else ch

/-- A text in lower case. -/
def lower (text : Bytes) : Bytes :=
  text.map toLower

/-- The text without leading and trailing characters of a kind. -/
def trim (kind : UInt8 → Bool) (text : Bytes) : Bytes :=
  ((text.dropWhile kind).reverse.dropWhile kind).reverse

theorem dropWhile_eq_self {kind : UInt8 → Bool} {text : Bytes}
    (other : ∀ ch, text.head? = some ch → kind ch = false) : text.dropWhile kind = text := by
  cases text with
  | nil => rfl
  | cons ch rest => rw [List.dropWhile_cons, other ch rfl, if_neg (by decide)]

/-- A text without characters of the kind is trimmed to itself, also after one of the kind. -/
theorem trim_eq_self {kind : UInt8 → Bool} {text : Bytes}
    (other : ∀ ch ∈ text, kind ch = false) : trim kind text = text := by
  unfold trim
  rw [dropWhile_eq_self fun ch first => other ch (List.mem_of_mem_head? first),
    dropWhile_eq_self fun ch first => other ch
      (List.mem_reverse.mp (List.mem_of_mem_head? first)), List.reverse_reverse]

theorem trim_cons {kind : UInt8 → Bool} {ch : UInt8} {text : Bytes} (first : kind ch = true) :
    trim kind (ch :: text) = trim kind text := by
  unfold trim
  rw [List.dropWhile_cons, first, if_pos rfl]

theorem trim_concat {kind : UInt8 → Bool} {ch : UInt8} {text : Bytes} (last : kind ch = true) :
    trim kind (text ++ [ch]) = trim kind text := by
  unfold trim
  by_cases all : ∀ other ∈ text, kind other = true
  · have whole : ∀ other ∈ text ++ [ch], kind other = true := by
      simpa [or_imp, forall_and, last] using all
    rw [List.dropWhile_eq_nil_iff.mpr whole, List.dropWhile_eq_nil_iff.mpr all]
  · have kept : text.dropWhile kind ≠ [] := mt List.dropWhile_eq_nil_iff.mp all
    rw [List.dropWhile_append, if_neg (by simpa using kept), List.reverse_append,
      List.reverse_singleton, List.singleton_append, List.dropWhile_cons, last, if_pos rfl]

/-! ### Lines -/

/-- `fgets` with room for so many characters and a NUL: the line with its end, and the text after it. -/
def fgets : ℕ → Bytes → Bytes × Bytes
  | 0, text => ([], text)
  | _ + 1, [] => ([], [])
  | room + 1, ch :: rest =>
      if ch = 10 then ([10], rest) else (ch :: (fgets room rest).1, (fgets room rest).2)

/-- The lines that a loop of `fgets` reads, at most `bound` of them. -/
def readLines (room : ℕ) : ℕ → Bytes → List Bytes
  | 0, _ => []
  | _ + 1, [] => []
  | bound + 1, ch :: rest =>
      (fgets room (ch :: rest)).1 :: readLines room bound (fgets room (ch :: rest)).2

/-- A line that fits is read to its end. -/
theorem fgets_line : ∀ {line : Bytes} {room : ℕ} (rest : Bytes), (10 : UInt8) ∉ line →
    line.length < room → fgets room (line ++ 10 :: rest) = (line ++ [10], rest)
  | [], room + 1, rest, _, _ => by simp [fgets]
  | ch :: line, room + 1, rest, inside, fits => by
      have later := fgets_line rest (List.not_mem_of_not_mem_cons inside)
        (Nat.lt_of_succ_lt_succ fits)
      rw [List.cons_append, fgets, if_neg (Ne.symm (List.ne_of_not_mem_cons inside)), later]
      rfl

/-- Lines that fit are read one by one. -/
theorem readLines_joined {room : ℕ} : ∀ {lines : List Bytes} {bound : ℕ},
    (∀ line ∈ lines, (10 : UInt8) ∉ line ∧ line.length < room) → lines.length ≤ bound →
    readLines room bound (lines.flatMap (· ++ [10])) = lines.map (· ++ [10])
  | [], 0, _, _ => rfl
  | [], bound + 1, _, _ => rfl
  | line :: lines, bound + 1, each, enough => by
      obtain ⟨inside, fits⟩ := each line List.mem_cons_self
      have later := @readLines_joined room lines bound
        (fun other member => each other (List.mem_cons_of_mem line member))
        (Nat.le_of_succ_le_succ enough)
      have first := fgets_line (lines.flatMap (· ++ [10])) inside fits
      have shape : (line :: lines).flatMap (· ++ [10]) =
          line ++ 10 :: lines.flatMap (· ++ [10]) := by
        simp
      rw [shape, List.map_cons, ← later]
      cases line with
      | nil => simp only [List.nil_append, readLines] at first ⊢; rw [first]
      | cons ch line => simp only [List.cons_append, readLines] at first ⊢; rw [first]

/-! ### Integers -/

/-- The text up to its first NUL, as `c_str` shows it. -/
def cString (text : Bytes) : Bytes :=
  text.takeWhile (· != 0)

theorem cString_append {text : Bytes} (whole : (0 : UInt8) ∉ text) (rest : Bytes) :
    cString (text ++ rest) = text ++ cString rest := by
  refine List.takeWhile_append_of_pos fun ch member => ?_
  rw [bne_iff_ne]
  rintro rfl
  exact whole member

/-- A text with a NUL is cut there, whatever comes after it. -/
theorem cString_cut {text : Bytes} (cut : (0 : UInt8) ∈ text) (rest : Bytes) :
    cString (text ++ rest) = cString text ∧ (cString text).length < text.length := by
  induction text with
  | nil => cases cut
  | cons ch text ih =>
      by_cases nul : ch = 0
      · subst nul
        exact ⟨rfl, Nat.zero_lt_succ _⟩
      · have later : (0 : UInt8) ∈ text := by
          rcases List.mem_cons.mp cut with same | later
          · exact absurd same.symm nul
          · exact later
        obtain ⟨same, shorter⟩ := ih later
        have inside : ∀ tail, cString (ch :: tail) = ch :: cString tail := fun tail => by
          rw [cString, List.takeWhile_cons, bne_iff_ne.mpr nul, if_pos rfl, cString]
        rw [List.cons_append, inside, inside, same]
        exact ⟨rfl, Nat.succ_lt_succ shorter⟩

/-- What `strtoull` and `strtoll` read in base ten: a sign, digits, and where they stop. -/
structure Scan where
  negative : Bool
  digits : Bytes
  rest : Bytes
deriving DecidableEq

/-- The digits of a scan, after its sign. -/
def scanDigits (negative : Bool) (text : Bytes) : Scan :=
  ⟨negative, text.takeWhile isDigit, text.dropWhile isDigit⟩

/-- White space, a sign and digits. -/
def scan (text : Bytes) : Scan :=
  match (cString text).dropWhile isSpace with
  | 45 :: rest => scanDigits true rest
  | 43 :: rest => scanDigits false rest
  | rest => scanDigits false rest

/-- The number that digits denote. -/
def digitsValue (digits : Bytes) : ℕ :=
  digits.foldl (fun value ch => value * 10 + (ch.toNat - 48)) 0

/-- `strtoull` in base ten: the value and what `endptr` points to, the whole text if there are no
digits; `none` is `ERANGE`. A minus sign negates in 64 bits. -/
def strtoull (text : Bytes) : Option (UInt64 × Bytes) :=
  if (scan text).digits = [] then some (0, cString text)
  else if digitsValue (scan text).digits < 2 ^ 64 then
    let magnitude := UInt64.ofNat (digitsValue (scan text).digits)
    some (if (scan text).negative then -magnitude else magnitude, (scan text).rest)
  else none

/-- `strtoll` in base ten. -/
def strtoll (text : Bytes) : Option (Int64 × Bytes) :=
  if (scan text).digits = [] then some (0, cString text)
  else
    let magnitude : ℤ := digitsValue (scan text).digits
    let value := if (scan text).negative then -magnitude else magnitude
    if -2 ^ 63 ≤ value ∧ value < 2 ^ 63 then some (Int64.ofInt value, (scan text).rest) else none

/-- `strtol` in base ten, for a caller that does not look at `errno`: a number out of range is the
nearest `long`. -/
def strtol (text : Bytes) : Int64 × Bytes :=
  if (scan text).digits = [] then (0, cString text)
  else
    let magnitude : ℤ := digitsValue (scan text).digits
    let value := if (scan text).negative then -magnitude else magnitude
    (Int64.ofInt (max (-2 ^ 63) (min value (2 ^ 63 - 1))), (scan text).rest)

theorem digit_bounds {digit : Char} (decimal : digit.isDigit = true) :
    48 ≤ digit.toNat ∧ digit.toNat ≤ 57 := by
  simp only [Char.isDigit, Bool.and_eq_true, decide_eq_true_eq] at decimal
  exact ⟨UInt32.le_iff_toNat_le.mp decimal.1, UInt32.le_iff_toNat_le.mp decimal.2⟩

theorem toNat_digit {digit : Char} (decimal : digit.isDigit = true) :
    digit.toNat.toUInt8.toNat = digit.toNat := by
  have bounds := digit_bounds decimal
  exact Nat.mod_eq_of_lt (by omega)

theorem isDigit_of_mem_decimal {value : ℕ} {ch : UInt8} (member : ch ∈ decimal value) :
    isDigit ch = true := by
  obtain ⟨digit, held, rfl⟩ := List.mem_map.mp member
  have decimal := Nat.isDigit_of_mem_toDigits (by decide) (by decide) held
  have bounds := digit_bounds decimal
  simp only [isDigit, Bool.and_eq_true, decide_eq_true_eq, UInt8.le_iff_toNat_le,
    toNat_digit decimal]
  exact bounds

theorem decimal_ne_nil (value : ℕ) : decimal value ≠ [] := by
  intro empty
  exact Nat.toDigits_ne_nil (List.map_eq_nil_iff.mp empty)

/-- Printed digits denote the number that was printed. -/
theorem digitsValue_decimal (value : ℕ) : digitsValue (decimal value) = value := by
  have digits := @Nat.ofDigitChars_ten_toDigits value
  unfold Nat.ofDigitChars at digits
  rw [digitsValue, decimal, List.foldl_map]
  refine Eq.trans (List.foldl_ext _ _ _ fun before digit held => ?_) digits
  have decimal := Nat.isDigit_of_mem_toDigits (by decide) (by decide) held
  rw [toNat_digit decimal, Nat.mul_comm]
  rfl

/-- A digit is neither white space, nor NUL, nor a sign. -/
theorem digit_plain {ch : UInt8} (digit : isDigit ch = true) :
    isSpace ch = false ∧ (ch != 0) = true ∧ ch ≠ 45 ∧ ch ≠ 43 := by
  simp only [isDigit, Bool.and_eq_true, decide_eq_true_eq, UInt8.le_iff_toNat_le] at digit
  obtain ⟨low, high⟩ := digit
  change 48 ≤ ch.toNat at low
  change ch.toNat ≤ 57 at high
  refine ⟨?_, ?_, ?_, ?_⟩
  · simp only [isSpace, Bool.or_eq_false_iff, Bool.and_eq_false_iff, beq_eq_false_iff_ne,
      decide_eq_false_iff_not, UInt8.le_iff_toNat_le, ne_eq, ← UInt8.toNat_inj]
    show ¬ ch.toNat = 32 ∧ (¬ 9 ≤ ch.toNat ∨ ¬ ch.toNat ≤ 13)
    omega
  · rw [bne_iff_ne, ne_eq, ← UInt8.toNat_inj]
    show ¬ ch.toNat = 0
    omega
  · rw [ne_eq, ← UInt8.toNat_inj]
    show ¬ ch.toNat = 45
    omega
  · rw [ne_eq, ← UInt8.toNat_inj]
    show ¬ ch.toNat = 43
    omega

/-- A C numeral in base ten: white space, a sign and digits. -/
structure Numeral (text blanks sign digits : Bytes) : Prop where
  shape : text = blanks ++ (sign ++ digits)
  blank : ∀ ch ∈ blanks, isSpace ch = true
  signed : sign = [] ∨ sign = [43] ∨ sign = [45]
  nonempty : digits ≠ []
  digit : ∀ ch ∈ digits, isDigit ch = true

/-- Digits are scanned to their end. -/
theorem scanDigits_digits {negative : Bool} {digits : Bytes}
    (digit : ∀ ch ∈ digits, isDigit ch = true) :
    scanDigits negative digits = ⟨negative, digits, []⟩ := by
  rw [scanDigits, List.takeWhile_eq_self_iff.mpr digit, List.dropWhile_eq_nil_iff.mpr digit]

/-- The sign and the digits after the white space. -/
def scanSigned (text : Bytes) : Scan :=
  match text with
  | 45 :: rest => scanDigits true rest
  | 43 :: rest => scanDigits false rest
  | rest => scanDigits false rest

theorem scan_eq (text : Bytes) : scan text = scanSigned ((cString text).dropWhile isSpace) := rfl

theorem scanSigned_digits {digits : Bytes} (digit : ∀ ch ∈ digits, isDigit ch = true) :
    scanSigned digits = ⟨false, digits, []⟩ := by
  unfold scanSigned
  split
  · exact absurd rfl (digit_plain (digit 45 List.mem_cons_self)).2.2.1
  · exact absurd rfl (digit_plain (digit 43 List.mem_cons_self)).2.2.2
  · exact scanDigits_digits digit

/-- A numeral is scanned whole. -/
theorem Numeral.scan {text blanks sign digits : Bytes}
    (numeral : Numeral (cString text) blanks sign digits) :
    scan text = ⟨sign == [45], digits, []⟩ := by
  obtain ⟨shape, blank, signed, nonempty, digit⟩ := numeral
  have start : (sign ++ digits).dropWhile isSpace = sign ++ digits := by
    refine dropWhile_eq_self fun ch first => ?_
    rcases signed with rfl | rfl | rfl
    · exact (digit_plain (digit ch (List.mem_of_mem_head? first))).1
    · cases first
      decide
    · cases first
      decide
  rw [scan_eq, shape, List.dropWhile_append_of_pos blank, start]
  rcases signed with rfl | rfl | rfl
  · exact scanSigned_digits digit
  · exact scanDigits_digits digit
  · exact scanDigits_digits digit

/-- A numeral holds no NUL. -/
theorem Numeral.cString_eq {text blanks sign digits : Bytes}
    (numeral : Numeral text blanks sign digits) : cString text = text := by
  obtain ⟨rfl, blank, signed, nonempty, digit⟩ := numeral
  refine List.takeWhile_eq_self_iff.mpr fun ch member => ?_
  rcases List.mem_append.mp member with inside | inside
  · have space := blank ch inside
    rw [bne_iff_ne]
    rintro rfl
    exact absurd space (by decide)
  rcases List.mem_append.mp inside with inside | inside
  · rcases signed with rfl | rfl | rfl
    · cases inside
    · rw [List.mem_singleton.mp inside]
      decide
    · rw [List.mem_singleton.mp inside]
      decide
  · exact (digit_plain (digit ch inside)).2.1

theorem Numeral.text_nonempty {text blanks sign digits : Bytes}
    (numeral : Numeral text blanks sign digits) : text ≠ [] := by
  intro empty
  have shape := numeral.shape
  rw [empty] at shape
  exact numeral.nonempty
    (List.append_eq_nil_iff.mp (List.append_eq_nil_iff.mp shape.symm).2).2

/-- What was scanned to its end is a numeral. -/
theorem numeral_of_scan {text : Bytes} (nonempty : (Text.scan text).digits ≠ [])
    (whole : (Text.scan text).rest = []) :
    ∃ blanks sign, Numeral (cString text) blanks sign (Text.scan text).digits := by
  have blank : ∀ ch ∈ (cString text).takeWhile isSpace, isSpace ch = true := fun ch member =>
    List.mem_takeWhile_imp member
  have parts := List.takeWhile_append_dropWhile (p := isSpace) (l := cString text)
  rw [scan_eq] at nonempty whole ⊢
  revert nonempty whole parts
  generalize (cString text).dropWhile isSpace = rest
  intro nonempty whole parts
  have digits : ∀ {negative : Bool} {tail : Bytes}, (scanDigits negative tail).rest = [] →
      (scanDigits negative tail).digits = tail ∧ ∀ ch ∈ tail, isDigit ch = true := by
    intro negative tail all
    have digit := List.dropWhile_eq_nil_iff.mp all
    exact ⟨List.takeWhile_eq_self_iff.mpr digit, digit⟩
  revert nonempty whole
  unfold scanSigned
  split
  · intro nonempty whole
    obtain ⟨same, digit⟩ := digits whole
    rw [same] at nonempty ⊢
    exact ⟨_, [45], parts.symm, blank, .inr (.inr rfl), nonempty, digit⟩
  · intro nonempty whole
    obtain ⟨same, digit⟩ := digits whole
    rw [same] at nonempty ⊢
    exact ⟨_, [43], parts.symm, blank, .inr (.inl rfl), nonempty, digit⟩
  · intro nonempty whole
    obtain ⟨same, digit⟩ := digits whole
    rw [same] at nonempty ⊢
    exact ⟨_, [], parts.symm, blank, .inl rfl, nonempty, digit⟩

/-- Digits alone are a numeral. -/
theorem numeral_digits {digits : Bytes} (nonempty : digits ≠ [])
    (digit : ∀ ch ∈ digits, isDigit ch = true) : Numeral (cString digits) [] [] digits := by
  have whole : cString digits = digits :=
    List.takeWhile_eq_self_iff.mpr fun ch member => (digit_plain (digit ch member)).2.1
  rw [whole]
  exact ⟨rfl, fun _ member => absurd member List.not_mem_nil, .inl rfl, nonempty, digit⟩

/-- Printed digits are scanned whole. -/
theorem scan_decimal (value : ℕ) : scan (decimal value) = ⟨false, decimal value, []⟩ :=
  (numeral_digits (decimal_ne_nil value) fun _ => isDigit_of_mem_decimal).scan

/-- `strtoull` reads a text to its end exactly if it is a numeral that fits. -/
theorem strtoull_whole_iff {text : Bytes} (filled : cString text ≠ []) :
    (∃ value, strtoull text = some (value, [])) ↔
      ∃ blanks sign digits, Numeral (cString text) blanks sign digits ∧
        digitsValue digits < 2 ^ 64 := by
  constructor
  · rintro ⟨value, read⟩
    unfold strtoull at read
    by_cases empty : (scan text).digits = []
    · rw [if_pos empty] at read
      exact absurd (Prod.mk.inj (Option.some.inj read)).2 filled
    · rw [if_neg empty] at read
      obtain ⟨fits, read⟩ := Option.ite_none_right_eq_some.mp read
      obtain ⟨blanks, sign, numeral⟩ := numeral_of_scan empty (Prod.mk.inj (Option.some.inj read)).2
      exact ⟨blanks, sign, _, numeral, fits⟩
  · rintro ⟨blanks, sign, digits, numeral, fits⟩
    rw [strtoull, numeral.scan, if_neg numeral.nonempty, if_pos fits]
    exact ⟨_, rfl⟩

theorem strtoull_decimal {value : ℕ} (fits : value < 2 ^ 64) :
    strtoull (decimal value) = some (UInt64.ofNat value, []) := by
  unfold strtoull
  rw [scan_decimal, if_neg (decimal_ne_nil value), digitsValue_decimal, if_pos fits]
  rfl

theorem strtoll_decimal (value : ℕ) : strtoll (decimal value) =
    if value < 2 ^ 63 then some (Int64.ofInt value, []) else none := by
  unfold strtoll
  rw [scan_decimal, if_neg (decimal_ne_nil value), digitsValue_decimal]
  show (if -2 ^ 63 ≤ (value : ℤ) ∧ (value : ℤ) < 2 ^ 63 then _ else _) = _
  by_cases fits : value < 2 ^ 63
  · rw [if_pos (by omega), if_pos fits]
    rfl
  · rw [if_neg (by omega), if_neg fits]

end Text
