/-
What the daemon receives of a request of the control API.

The head ends where `recv_http_request` looks for its end (`find_headEnd`), and its Content-Length is
the length of the body (`contentLength_head`), so among the beginnings of a request only the whole
request is complete (`complete_iff`). Hence the receive loop ends with the whole request, at the
limit, or with the connection (`received`).
-/

import Mcoz.Control.LocalArm
import Mcoz.Daemon.Arm

set_option autoImplicit false

namespace Mcoz.Control

open Word Text Daemon

/-! ### The end of the head -/

/-- Lines that are not empty and hold no carriage return, each with its end. -/
def joined (lines : List Bytes) : Bytes :=
  (lines.map (· ++ [13, 10])).flatten

/-- A line of a head. -/
def Line (line : Bytes) : Prop :=
  line ≠ [] ∧ (13 : UInt8) ∉ line ∧ (10 : UInt8) ∉ line

/-- No blank line begins in a line or at its end, if another line follows. -/
theorem no_blank_line {line after : Bytes} (here : Line line)
    (more : ∃ ch rest, after = ch :: rest ∧ ch ≠ 13) :
    ∀ i, i < (line ++ [13, 10]).length →
      ¬ (crlf ++ crlf) <+: ((line ++ [13, 10]) ++ after).drop i := by
  obtain ⟨ch, rest, rfl, other⟩ := more
  intro i below there
  rw [List.append_assoc] at there
  by_cases inside : i < line.length
  · exact not_prefix_of_not_mem here.2.1 i inside there
  · have short : i = line.length ∨ i = line.length + 1 := by
      simp only [List.length_append, List.length_cons, List.length_nil] at below
      omega
    rcases short with rfl | rfl
    · rw [List.drop_left] at there
      simp [crlf, List.cons_prefix_cons] at there
      exact other there.1.symm
    · rw [← List.drop_drop, List.drop_left] at there
      simp [crlf, List.cons_prefix_cons] at there

/-- Text that begins with a line. -/
theorem line_append {line after : Bytes} (here : Line line) :
    ∃ ch rest, line ++ after = ch :: rest ∧ ch ≠ 13 := by
  obtain ⟨nonempty, plain, -⟩ := here
  cases line with
  | nil => exact absurd rfl nonempty
  | cons ch rest =>
      refine ⟨ch, rest ++ after, rfl, ?_⟩
      rintro rfl
      exact plain List.mem_cons_self

theorem joined_append {lines : List Bytes} {last after : Bytes}
    (all : ∀ line ∈ lines, Line line) (final : Line last) :
    ∃ ch rest, joined lines ++ (last ++ after) = ch :: rest ∧ ch ≠ 13 := by
  cases lines with
  | nil => exact @line_append last after final
  | cons line lines =>
      have first := @line_append line ([13, 10] ++ (joined lines ++ (last ++ after)))
        (all line List.mem_cons_self)
      simpa [joined, List.append_assoc] using first

/-- The blank line after joined lines is the first one. -/
theorem find_blank_line {last body : Bytes} (final : Line last) :
    ∀ {lines : List Bytes}, (∀ line ∈ lines, Line line) →
      find (crlf ++ crlf) (joined lines ++ (last ++ ([13, 10, 13, 10] ++ body))) =
        some (joined lines ++ last).length
  | [], _ => find_after final.2.1
  | line :: lines, all => by
      have ih := @find_blank_line last body final lines fun other member =>
        all other (List.mem_cons_of_mem _ member)
      have shape : joined (line :: lines) ++ (last ++ ([13, 10, 13, 10] ++ body)) =
          (line ++ [13, 10]) ++ (joined lines ++ (last ++ ([13, 10, 13, 10] ++ body))) := by
        simp [joined, List.append_assoc]
      rw [shape, find_append (no_blank_line (all line List.mem_cons_self)
        (joined_append (fun other member => all other (List.mem_cons_of_mem _ member)) final)), ih]
      simp only [Option.map_some, joined, List.map_cons, List.flatten_cons, List.length_append]
      congr 1
      omega

/-! ### The head of a request -/

theorem line_of_digits {name : Bytes} (start : Line name) (value : ℕ) :
    Line (name ++ decimal value) := by
  refine ⟨by simp [start.1], ?_, ?_⟩
  · intro member
    rcases List.mem_append.mp member with inside | digit
    · exact start.2.1 inside
    · exact absurd (isDigit_of_mem_decimal digit) (by decide)
  · intro member
    rcases List.mem_append.mp member with inside | digit
    · exact start.2.2 inside
    · exact absurd (isDigit_of_mem_decimal digit) (by decide)

theorem line_of_text {name text : Bytes} (start : Line name)
    (plain : (13 : UInt8) ∉ text ∧ (10 : UInt8) ∉ text) : Line (name ++ text) := by
  refine ⟨by simp [start.1], ?_, ?_⟩
  · intro member
    exact (List.mem_append.mp member).elim start.2.1 plain.1
  · intro member
    exact (List.mem_append.mp member).elim start.2.2 plain.2

instance (line : Bytes) : Decidable (Line line) :=
  inferInstanceAs (Decidable (_ ∧ _ ∧ _))

variable (client : HttpClient)

theorem headLines_line (length : ℕ) : ∀ line ∈ client.headLines length, Line line := by
  intro line member
  simp only [HttpClient.headLines, List.mem_cons, List.not_mem_nil, or_false] at member
  rcases member with rfl | rfl | rfl | rfl | rfl | rfl
  · decide
  · decide
  · exact line_of_digits (by decide) length
  · exact line_of_text (by decide) client.host_line
  · exact line_of_text (by decide) client.userAgent_line
  · decide

theorem closeLine_line : Line closeLine := by decide

/-- The head of a request ends at its first blank line. -/
theorem find_headEnd (length : ℕ) (body : Bytes) :
    find (crlf ++ crlf) (client.head length ++ ([13, 10, 13, 10] ++ body)) =
      some (client.head length).length := by
  have found := @find_blank_line _ body closeLine_line _ (headLines_line client length)
  rw [← List.append_assoc] at found
  exact found

theorem splitOn_head (length : ℕ) :
    splitOn crlf (client.head length).length (client.head length) =
      client.headLines length ++ [closeLine] := by
  refine splitOn_join ?_ (fun line member => (headLines_line client length line member).2.1)
    closeLine_line.2.1
  simp [HttpClient.head, HttpClient.headLines]
  omega

/-- A header line sets a length if its name is Content-Length. -/
theorem lineLength_field {start name : Bytes} (text : Bytes) (shape : start = name ++ [58, 32])
    (colon : (58 : UInt8) ∉ name) : lineLength (start ++ text) =
      if lower name = ascii "content-length" then
        (strtoull (trimCopy (32 :: text))).bind fun parsed =>
          if parsed.2 = [] then some parsed.1 else none
      else none := by
  have line : start ++ text = name ++ 58 :: 32 :: text := by
    rw [shape, List.append_assoc]
    rfl
  have found : find [58] (name ++ 58 :: 32 :: text) = some name.length :=
    @find_after name (32 :: text) 58 [] colon
  have value : (name ++ 58 :: 32 :: text).drop (name.length + 1) = 32 :: text := by
    rw [← List.drop_drop, List.drop_left]
    rfl
  rw [line, lineLength, splitColon, found]
  simp only [Option.map_some, Option.bind_some, List.take_left, value]

theorem trimCopy_decimal (value : ℕ) : trimCopy (32 :: decimal value) = decimal value := by
  unfold trimCopy
  rw [trim_cons (by decide), trim_eq_self]
  intro ch member
  have digit := isDigit_of_mem_decimal member
  simp only [isDigit, Bool.and_eq_true, decide_eq_true_eq, UInt8.le_iff_toNat_le] at digit
  obtain ⟨low, -⟩ := digit
  change 48 ≤ ch.toNat at low
  simp only [isBlank, Bool.or_eq_false_iff, beq_eq_false_iff_ne, ne_eq, ← UInt8.toNat_inj]
  show ((¬ ch.toNat = 32 ∧ ¬ ch.toNat = 10) ∧ ¬ ch.toNat = 13) ∧ ¬ ch.toNat = 9
  omega

theorem lineLength_contentLength {length : ℕ} (fits : length < 2 ^ 64) :
    lineLength (ascii "Content-Length: " ++ decimal length) = some (UInt64.ofNat length) := by
  rw [@lineLength_field _ (ascii "Content-Length") _ (by decide) (by decide), if_pos (by decide),
    trimCopy_decimal, strtoull_decimal fits]
  rfl

/-- The receive loop reads the length of the body in the head. -/
theorem contentLength_head {length : ℕ} (fits : length < 2 ^ 64) :
    contentLength (client.head length) = UInt64.ofNat length := by
  have host : lineLength (ascii "Host: " ++ client.host) = none := by
    rw [@lineLength_field _ (ascii "Host") _ (by decide) (by decide), if_neg (by decide)]
  have agent : lineLength (ascii "User-Agent: " ++ client.userAgent) = none := by
    rw [@lineLength_field _ (ascii "User-Agent") _ (by decide) (by decide), if_neg (by decide)]
  have request : lineLength (ascii "POST /arm HTTP/1.1") = none := by decide
  have encoding : lineLength (ascii "Accept-Encoding: identity") = none := by decide
  have type : lineLength (ascii "Content-Type: application/json") = none := by decide
  have close : lineLength closeLine = none := by decide
  rw [contentLength, splitOn_head]
  simp only [HttpClient.headLines, List.cons_append, List.nil_append, List.foldl_cons,
    List.foldl_nil, request, encoding, lineLength_contentLength fits, host, agent, type, close,
    Option.getD_none, Option.getD_some]

/-! ### The receive loop -/

theorem request_length (body : Bytes) :
    (client.request body).length = (client.head body.length).length + 4 + body.length := by
  simp only [HttpClient.request, List.length_append, List.length_cons, List.length_nil]
  omega

variable {client} {body : Bytes}

/-- Among the beginnings of a request only the whole request is complete. -/
theorem complete_iff (fits : (client.request body).length < 2 ^ 64) {out : Bytes}
    (start : out <+: client.request body) : complete out = true ↔ out = client.request body := by
  have length := request_length client body
  have found := find_of_prefix (find_headEnd client body.length body) start
  have bound := start.length_le
  unfold complete
  rw [found]
  by_cases enough : (client.head body.length).length + (crlf ++ crlf).length ≤ out.length
  · have head : out.take (client.head body.length).length = client.head body.length := by
      have same := List.prefix_iff_eq_take.mp start
      rw [same, List.take_take, HttpClient.request, Nat.min_eq_left (by omega), List.take_left]
    rw [if_pos enough]
    simp only [head, contentLength_head client (show body.length < 2 ^ 64 by omega),
      decide_eq_true_eq]
    rw [ofNat_add_le_iff (by omega) (by omega)]
    constructor
    · intro whole
      exact start.eq_of_length (by omega)
    · rintro rfl
      omega
  · rw [if_neg enough]
    refine iff_of_false Bool.false_ne_true ?_
    rintro rfl
    apply enough
    rw [length]
    simp only [crlf, List.length_append, List.length_cons, List.length_nil]
    omega

/-- The receive loop collects a beginning of the request, and ends with the whole request, at the
limit, or with the connection. -/
theorem received (fits : (client.request body).length < 2 ^ 64) :
    ∀ {chunks : List Bytes} {out : Bytes}, out ++ chunks.flatten <+: client.request body →
      out ≠ client.request body →
      (recvHttpRequest out chunks).1 <+: client.request body ∧
        match (recvHttpRequest out chunks).2 with
        | .complete => (recvHttpRequest out chunks).1 = client.request body
        | .full => maxReqBytes ≤ (recvHttpRequest out chunks).1.length ∧
            (recvHttpRequest out chunks).1 ≠ client.request body
        | .closed => True
  | [], out, start, short => by
      rw [List.flatten_nil, List.append_nil] at start
      unfold recvHttpRequest
      split
      · rename_i full
        exact ⟨start, full, short⟩
      · exact ⟨start, trivial⟩
  | chunk :: rest, out, start, short => by
      rw [List.flatten_cons, ← List.append_assoc] at start
      have more : out ++ chunk <+: client.request body :=
        (List.prefix_append _ _).trans start
      unfold recvHttpRequest
      split
      · rename_i full
        exact ⟨(List.prefix_append _ _).trans more, full, short⟩
      · split
        · rename_i whole
          exact ⟨more, (complete_iff fits more).mp whole⟩
        · rename_i partial_
          exact received fits start fun same => partial_ ((complete_iff fits more).mpr same)

/-- A request within the limit is received whole, unless the connection ends. -/
theorem received_whole (small : (client.request body).length ≤ maxReqBytes) {chunks : List Bytes}
    (start : chunks.flatten <+: client.request body)
    (open_ : (recvHttpRequest [] chunks).2 ≠ .closed) :
    (recvHttpRequest [] chunks).1 = client.request body := by
  have fits : (client.request body).length < 2 ^ 64 := lt_of_le_of_lt small (by decide)
  have nonempty : [] ≠ client.request body := by
    intro empty
    have length := request_length client body
    rw [← empty, List.length_nil] at length
    omega
  have begun : [] ++ chunks.flatten <+: client.request body := start
  obtain ⟨part, ending⟩ := received fits begun nonempty
  have bound := part.length_le
  cases ended : (recvHttpRequest [] chunks).2 with
  | complete =>
      rw [ended] at ending
      exact ending
  | full =>
      rw [ended] at ending
      exact part.eq_of_length (by have full := ending.1; omega)
  | closed => exact absurd ended open_

end Mcoz.Control
