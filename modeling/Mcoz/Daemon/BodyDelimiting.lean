/-
The control server of the daemon: where the body of a request ends.

The receive loop waits for as many bytes after the head as its Content-Length announces
(`complete_iff_announced`), and ends with the first chunk that brings the last of them
(`received_announced`). The body that the handler gets is all that was received after the head, so it is
the announced one only if a chunk ends with it (`handedBody_iff`).
-/

import Mcoz.Daemon.Http

set_option autoImplicit false

namespace Mcoz.Daemon

open Word Text

/-! ### Heads -/

/-- The body that `merge_body_params` is given after `recv` returned these chunks. -/
def handedBody (chunks : List Bytes) : Bytes :=
  (parseHttpHeadersAndBody (recvHttpRequest [] chunks).1).2

/-- The end of a head: the end of its last line, and the blank line. -/
def blankLine : Bytes := crlf ++ crlf

/-- A line that is a Content-Length header. -/
def NamesLength (line : Bytes) : Prop :=
  ∃ header, splitColon line = some header ∧ lower header.1 = ascii "content-length"

/-- A line `Content-Length: n`. -/
def AnnouncesLength (line : Bytes) (length : ℕ) : Prop :=
  ∃ header, splitColon line = some header ∧ lower header.1 = ascii "content-length" ∧
    trimCopy header.2 ≠ [] ∧ (∀ ch ∈ trimCopy header.2, isDigit ch = true) ∧
    digitsValue (trimCopy header.2) = length

/-- A head before its blank line, with one Content-Length header. -/
structure RequestHead (head : Bytes) (length : ℕ) : Prop where
  ended : find blankLine (head ++ blankLine) = some head.length
  announced : ∃ before line after, splitOn crlf head.length head = before ++ line :: after ∧
    (∀ other ∈ before ++ after, ¬ NamesLength other) ∧ AnnouncesLength line length

/-- Other lines set no length. -/
theorem lineLength_other {line : Bytes} (other : ¬ NamesLength line) : lineLength line = none := by
  unfold lineLength
  cases split : splitColon line with
  | none => rfl
  | some header => rw [Option.bind_some, if_neg fun named => other ⟨header, split, named⟩]

theorem lineLength_announced {line : Bytes} {length : ℕ} (announces : AnnouncesLength line length)
    (fits : length < 2 ^ 64) : lineLength line = some (UInt64.ofNat length) := by
  obtain ⟨header, split, named, filled, digit, rfl⟩ := announces
  have read : strtoull (trimCopy header.2) =
      some (UInt64.ofNat (digitsValue (trimCopy header.2)), []) := by
    rw [strtoull, (numeral_digits filled digit).scan, if_neg filled, if_pos fits]
    rfl
  rw [lineLength, split, Option.bind_some, if_pos named, read]
  rfl

/-- Lines that set no length leave it. -/
theorem foldl_lineLength {lines : List Bytes} (other : ∀ line ∈ lines, ¬ NamesLength line)
    (length : UInt64) :
    lines.foldl (fun length line => (lineLength line).getD length) length = length := by
  induction lines with
  | nil => rfl
  | cons line rest ih =>
      rw [List.foldl_cons, lineLength_other (other line List.mem_cons_self)]
      exact ih fun later member => other later (List.mem_cons_of_mem line member)

namespace RequestHead

variable {head : Bytes} {length : ℕ}

/-- The receive loop reads the announced length in the head. -/
theorem contentLength (request : RequestHead head length) (fits : length < 2 ^ 64) :
    contentLength head = UInt64.ofNat length := by
  obtain ⟨before, line, after, lines, other, announces⟩ := request.announced
  rw [Daemon.contentLength, lines, List.foldl_append, List.foldl_cons,
    lineLength_announced announces fits, Option.getD_some]
  exact foldl_lineLength (fun line member => other line (List.mem_append_right before member)) _

/-- The first blank line of a text with this head is the end of the head. -/
theorem find_eq (request : RequestHead head length) (more : Bytes) :
    find (crlf ++ crlf) (head ++ blankLine ++ more) = some head.length :=
  find_extend request.ended more

/-- The sum of the completeness test is the sum of the integers exactly if that fits. -/
theorem sum_eq_iff (request : RequestHead head length) (fits : length < 2 ^ 64)
    (small : head.length + 4 < 2 ^ 64) :
    (UInt64.ofNat (head.length + 4) + Daemon.contentLength head).toNat = head.length + 4 + length ↔
      head.length + 4 + length < 2 ^ 64 := by
  have start : (UInt64.ofNat (head.length + 4)).toNat = head.length + 4 :=
    UInt64.toNat_ofNat_of_lt' small
  have announced : (UInt64.ofNat length).toNat = length := UInt64.toNat_ofNat_of_lt' fits
  have sum := @toNat_add_iff (UInt64.ofNat (head.length + 4)) (UInt64.ofNat length)
  rw [start, announced] at sum
  rw [request.contentLength fits]
  exact sum

/-- What was received of a stream is complete once it has the announced body. -/
theorem complete_iff_announced (request : RequestHead head length)
    (small : head.length + 4 + length < 2 ^ 64) {out more : Bytes}
    (start : out <+: head ++ blankLine ++ more) (bound : out.length < 2 ^ 64) :
    complete out = true ↔ head.length + 4 + length ≤ out.length := by
  have found := find_of_prefix (request.find_eq more) start
  unfold complete
  rw [found]
  by_cases enough : head.length + (crlf ++ crlf).length ≤ out.length
  · have same : out.take head.length = head := by
      rw [List.prefix_iff_eq_take.mp start, List.take_take, Nat.min_eq_left (by omega),
        List.append_assoc, List.take_left]
    rw [if_pos enough]
    simp only [same, request.contentLength (show length < 2 ^ 64 by omega), decide_eq_true_eq]
    exact ofNat_add_le_iff small bound
  · rw [if_neg enough]
    refine iff_of_false Bool.false_ne_true fun whole => enough ?_
    exact le_trans (Nat.le_add_right _ length) whole

/-- The receive loop ends with the first chunk that brings the last byte of the announced body. -/
theorem received_announced (request : RequestHead head length)
    (small : head.length + 4 + length ≤ maxReqBytes) {more : Bytes} :
    ∀ {chunks : List Bytes} {out : Bytes}, (∀ chunk ∈ chunks, chunk.length ≤ 4096) →
      out ++ chunks.flatten = head ++ blankLine ++ more →
      out.length < head.length + 4 + length →
      head.length + 4 + length ≤ (out ++ chunks.flatten).length →
      ∃ count, (recvHttpRequest out chunks).1 = out ++ (chunks.take count).flatten ∧
        head.length + 4 + length ≤ (out ++ (chunks.take count).flatten).length ∧
        ∀ other, head.length + 4 + length ≤ (out ++ (chunks.take other).flatten).length →
          count ≤ other
  | [], out, _, _, short, whole => by
      rw [List.flatten_nil, List.append_nil] at whole
      omega
  | chunk :: rest, out, sizes, stream, short, whole => by
      have limit : maxReqBytes = 65536 := rfl
      have size := sizes chunk List.mem_cons_self
      rw [List.flatten_cons, ← List.append_assoc] at stream whole
      have start : out ++ chunk <+: head ++ blankLine ++ more := ⟨rest.flatten, stream⟩
      have bound : (out ++ chunk).length < 2 ^ 64 := by
        rw [List.length_append]
        omega
      have done := request.complete_iff_announced (by omega) start bound
      rw [recvHttpRequest, if_neg (by omega)]
      by_cases enough : head.length + 4 + length ≤ (out ++ chunk).length
      · rw [if_pos (done.mpr enough)]
        refine ⟨1, by simp, by simpa using enough, fun other reached => ?_⟩
        by_contra unread
        rw [Nat.lt_one_iff.mp (not_le.mp unread)] at reached
        simp only [List.take_zero, List.flatten_nil, List.append_nil] at reached
        omega
      · rw [if_neg fun all => enough (done.mp all)]
        obtain ⟨count, same, reached, first⟩ := received_announced request small
          (fun other member => sizes other (List.mem_cons_of_mem chunk member)) stream
          (not_le.mp enough) whole
        refine ⟨count + 1, ?_, ?_, fun other later => ?_⟩
        · rw [same, List.take_succ_cons, List.flatten_cons, List.append_assoc]
        · rw [List.take_succ_cons, List.flatten_cons, ← List.append_assoc]
          exact reached
        · cases other with
          | zero =>
              simp only [List.take_zero, List.flatten_nil, List.append_nil] at later
              omega
          | succ other =>
              rw [List.take_succ_cons, List.flatten_cons, ← List.append_assoc] at later
              exact Nat.succ_le_succ (first other later)

/-- The handed body is what was received after the head. -/
theorem handedBody_eq (request : RequestHead head length) {more : Bytes} {chunks : List Bytes}
    {count : ℕ} (stream : chunks.flatten = head ++ blankLine ++ more)
    (received : (recvHttpRequest [] chunks).1 = (chunks.take count).flatten)
    (enough : head.length + 4 ≤ (chunks.take count).flatten.length) :
    handedBody chunks = more.take ((chunks.take count).flatten.length - (head.length + 4)) := by
  have start : (chunks.take count).flatten <+: head ++ blankLine ++ more :=
    ⟨(chunks.drop count).flatten, by
      rw [← List.flatten_append, List.take_append_drop, stream]⟩
  have ends : (head ++ blankLine).length = head.length + 4 := List.length_append
  have found := find_of_prefix (request.find_eq more) start
  rw [show (crlf ++ crlf).length = 4 from rfl, if_pos enough] at found
  rw [handedBody, received, parseHttpHeadersAndBody, found]
  show List.drop (head.length + 4) _ = _
  conv_lhs => rw [List.prefix_iff_eq_take.mp start]
  rw [List.drop_take, ← ends, List.drop_left]

end RequestHead

/-! ### The body that is handed on -/

/-- More chunks hold more bytes. -/
theorem prefix_mono (chunks : List Bytes) {count other : ℕ} (fewer : count ≤ other) :
    (chunks.take count).flatten.length ≤ (chunks.take other).flatten.length := by
  have part : chunks.take count <+: chunks.take other := List.take_prefix_take_left fewer
  obtain ⟨rest, same⟩ := part
  rw [← same, List.flatten_append, List.length_append]
  exact Nat.le_add_right _ _

theorem prefix_length (chunks : List Bytes) (count : ℕ) :
    (chunks.take count).flatten.length ≤ chunks.flatten.length := by
  have all := prefix_mono chunks (Nat.le_max_left count chunks.length)
  rwa [List.take_of_length_le (Nat.le_max_right count chunks.length)] at all

/-- The body that is handed on is the announced one exactly if a chunk ends with it, and the test of the
receive loop adds without wrapping exactly if the end of the announced body is a 64-bit position. -/
theorem handedBody_iff {head : Bytes} {length : ℕ} (request : RequestHead head length)
    (fits : length < 2 ^ 64) (small : head.length + 4 < 2 ^ 64) :
    (∀ (body rest : Bytes) (chunks : List Bytes), body.length = length →
      head.length + 4 + length ≤ maxReqBytes → (∀ chunk ∈ chunks, chunk.length ≤ 4096) →
      chunks.flatten = head ++ blankLine ++ (body ++ rest) →
      (handedBody chunks = body ↔
        ∃ count, (chunks.take count).flatten.length = head.length + 4 + length)) ∧
    ((UInt64.ofNat (head.length + 4) + contentLength head).toNat = head.length + 4 + length ↔
      head.length + 4 + length < 2 ^ 64) := by
  refine ⟨fun body rest chunks size within sizes stream => ?_, request.sum_eq_iff fits small⟩
  have total : head.length + 4 + length ≤ ([] ++ chunks.flatten).length := by
    rw [List.nil_append, stream, List.length_append, List.length_append, List.length_append, size]
    show _ ≤ head.length + 4 + (length + rest.length)
    omega
  have before : ([] : Bytes).length < head.length + 4 + length := by
    rw [List.length_nil]
    omega
  have begun : [] ++ chunks.flatten = head ++ blankLine ++ (body ++ rest) := stream
  obtain ⟨count, received, reached, first⟩ :=
    request.received_announced within sizes begun before total
  simp only [List.nil_append] at received reached first
  rw [request.handedBody_eq stream received (by omega)]
  constructor
  · intro same
    have part := prefix_length chunks count
    have cut := congrArg List.length same
    rw [stream, List.length_append, List.length_append] at part
    rw [List.length_take, List.length_append] at cut
    have ends : blankLine.length = 4 := rfl
    exact ⟨count, by rw [List.length_append] at part; omega⟩
  · rintro ⟨other, ended⟩
    have later := prefix_mono chunks (first other (le_of_eq ended.symm))
    have whole : (chunks.take count).flatten.length - (head.length + 4) = body.length := by omega
    rw [whole, List.take_left]

/-- A head whose only header is the length that these digits write. -/
def lengthHead (digits : Bytes) : Bytes :=
  ascii "POST /arm HTTP/1.1" ++ crlf ++ (ascii "Content-Length: " ++ digits)

theorem lengthHead_request {digits : Bytes}
    (ended : find blankLine (lengthHead digits ++ blankLine) = some (lengthHead digits).length)
    (lines : splitOn crlf (lengthHead digits).length (lengthHead digits) =
      [ascii "POST /arm HTTP/1.1", ascii "Content-Length: " ++ digits])
    (split : splitColon (ascii "Content-Length: " ++ digits) =
      some (ascii "Content-Length", 32 :: digits))
    (trimmed : trimCopy (32 :: digits) = digits) (filled : digits ≠ [])
    (digit : digits.all isDigit = true) : RequestHead (lengthHead digits) (digitsValue digits) := by
  refine ⟨ended, [ascii "POST /arm HTTP/1.1"], _, [], lines, fun other member => ?_, ?_⟩
  · rw [List.append_nil, List.mem_singleton] at member
    rintro ⟨header, colon, _⟩
    rw [member, show splitColon (ascii "POST /arm HTTP/1.1") = none by decide] at colon
    cases colon
  · have named : lower (ascii "Content-Length") = ascii "content-length" := by decide
    refine ⟨_, split, named, ?_⟩
    rw [trimmed]
    exact ⟨filled, List.all_eq_true.mp digit, rfl⟩

theorem lengthHead_seven : RequestHead (lengthHead (ascii "7")) 7 :=
  lengthHead_request (by decide +kernel) (by decide +kernel) (by decide +kernel)
    (by decide +kernel) (by decide) (by decide)

theorem lengthHead_one : RequestHead (lengthHead (ascii "1")) 1 :=
  lengthHead_request (by decide +kernel) (by decide +kernel) (by decide +kernel)
    (by decide +kernel) (by decide) (by decide)

theorem lengthHead_longest :
    RequestHead (lengthHead (ascii "18446744073709551615")) (2 ^ 64 - 1) :=
  lengthHead_request (by decide +kernel) (by decide +kernel) (by decide +kernel)
    (by decide +kernel) (by decide) (by decide)

/-- A request whose head, blank line and body each come in two chunks, with another request behind it. -/
def sevenBytes : List Bytes :=
  [ascii "POST /arm HTTP/1.1" ++ crlf ++ ascii "Con", ascii "tent-Length: 7" ++ crlf, crlf ++ ascii "pod=",
    ascii "web", ascii "POST"]

/-- The announced body of seven bytes. -/
theorem handedBody_iff_seven :
    (handedBody sevenBytes = ascii "pod=web" ↔
      ∃ count, (sevenBytes.take count).flatten.length = (lengthHead (ascii "7")).length + 4 + 7) ∧
    ((UInt64.ofNat ((lengthHead (ascii "7")).length + 4) +
        contentLength (lengthHead (ascii "7"))).toNat = (lengthHead (ascii "7")).length + 4 + 7 ↔
      (lengthHead (ascii "7")).length + 4 + 7 < 2 ^ 64) := by
  have iffs := handedBody_iff lengthHead_seven (by decide) (by decide +kernel)
  refine ⟨iffs.1 (ascii "pod=web") (ascii "POST") _ rfl (by decide +kernel) (by decide +kernel) ?_, iffs.2⟩
  decide +kernel

/-- A byte after the announced body is handed on with it; and a body of 2^64-1 bytes is complete
before its first byte. -/
theorem handedBody_longer :
    handedBody [lengthHead (ascii "1") ++ blankLine ++ ascii "ab"] = ascii "ab" ∧
    RequestHead (lengthHead (ascii "1")) 1 ∧
    complete (lengthHead (ascii "18446744073709551615") ++ blankLine) = true ∧
    RequestHead (lengthHead (ascii "18446744073709551615")) (2 ^ 64 - 1) :=
  ⟨by decide +kernel, lengthHead_one, by decide +kernel, lengthHead_longest⟩

end Mcoz.Daemon
