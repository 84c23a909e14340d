/-
The request direction of the Thrift adapter.

The handler reads a length and a frame of that length, calls the gate's trigger and sends both on. What
`recv` returns is cut from segments, so it may be any part of the stream; `readExact_spec` says that the
cuts do not matter. `handle_framed` says what is left: the handler relays the longest prefix of the
stream that consists of complete frames, with one trigger before each.
-/

import Mcoz.Thrift.Method
import Mathlib.Data.Int.Notation

set_option autoImplicit false

namespace Mcoz.Thrift

open Word

/-! ### The socket -/

/-- Bytes that arrive together. -/
structure Segment where
  bytes : Bytes
  ne : bytes ≠ []

/-- The bytes of a stream. -/
def stream (segments : List Segment) : Bytes :=
  segments.flatMap Segment.bytes

/-- `sock.recv(size)`: at most `size` bytes of the first segment; nothing at the end of the stream. -/
def recv (size : ℕ) : List Segment → Bytes × List Segment
  | [] => ([], [])
  | segment :: rest =>
      if longer : segment.bytes.drop size ≠ [] then
        (segment.bytes.take size, ⟨segment.bytes.drop size, longer⟩ :: rest)
      else (segment.bytes, rest)

/-- The loop of `_read_exact`: `none` if the stream ends first. -/
def readExact (size : ℕ) (data : Bytes) (segments : List Segment) : Option Bytes × List Segment :=
  if data.length < size then
    match recv (size - data.length) segments with
    | ([], rest) => (none, rest)
    | (byte :: chunk, rest) => readExact size (data ++ byte :: chunk) rest
  else (some data, segments)
termination_by size - data.length
decreasing_by
  simp only [List.length_append, List.length_cons]
  omega

section Socket

variable {size : ℕ} {segments : List Segment}

/-- `recv` takes a prefix of the stream, of at most the size asked for. -/
theorem recv_spec (size : ℕ) (segments : List Segment) :
    (recv size segments).1 ++ stream (recv size segments).2 = stream segments ∧
      (recv size segments).1.length ≤ size := by
  fun_cases recv size segments with
  | case1 => exact ⟨rfl, Nat.zero_le _⟩
  | case2 segment rest longer =>
      refine ⟨?_, List.length_take_le _ _⟩
      simp only [stream, List.flatMap_cons, ← List.append_assoc, List.take_append_drop]
  | case3 segment rest shorter =>
      refine ⟨rfl, ?_⟩
      exact List.drop_eq_nil_iff.mp (Decidable.not_not.mp shorter)

/-- `recv` returns nothing only at the end of the stream. -/
theorem recv_nil (positive : 0 < size) (ended : (recv size segments).1 = []) :
    stream segments = [] := by
  revert ended
  fun_cases recv size segments with
  | case1 => exact fun _ => rfl
  | case2 segment rest longer =>
      intro ended
      rcases List.take_eq_nil_iff.mp ended with zero | empty
      · omega
      · exact absurd empty segment.ne
  | case3 segment rest shorter => exact fun ended => absurd ended segment.ne

/-- `_read_exact` takes the next bytes of the stream, or the stream is too short. -/
theorem readExact_spec (size : ℕ) (data : Bytes) (segments : List Segment)
    (few : data.length ≤ size) :
    (size ≤ data.length + (stream segments).length ∧
      ∃ rest, readExact size data segments =
          (some (data ++ (stream segments).take (size - data.length)), rest) ∧
        stream rest = (stream segments).drop (size - data.length)) ∨
    (data.length + (stream segments).length < size ∧ (readExact size data segments).1 = none) := by
  fun_induction readExact size data segments with
  | case1 data segments more rest ended =>
      right
      have nothing := recv_nil (by omega) (congrArg Prod.fst ended)
      rw [nothing]
      exact ⟨by simpa using more, rfl⟩
  | case2 data segments more byte chunk rest received ih =>
      obtain ⟨split, short⟩ := recv_spec (size - data.length) segments
      simp only [received] at split short
      have length : (data ++ byte :: chunk).length = data.length + (byte :: chunk).length := by
        rw [List.length_append]
      have total : (stream segments).length = (byte :: chunk).length + (stream rest).length := by
        rw [← split, List.length_append]
      have gap : size - data.length =
          (byte :: chunk).length + (size - (data ++ byte :: chunk).length) := by
        omega
      rcases ih (by omega) with ⟨enough, left, result, after⟩ | ⟨short, failed⟩
      · left
        refine ⟨by omega, left, ?_, ?_⟩
        · rw [result, ← split, gap, List.take_length_add_append, List.append_assoc]
        · rw [after, ← split, gap, List.drop_length_add_append]
      · right
        exact ⟨by omega, failed⟩
  | case3 data segments full =>
      left
      have done : size - data.length = 0 := by omega
      refine ⟨by omega, segments, ?_, ?_⟩
      · rw [done, List.take_zero, List.append_nil]
      · rw [done, List.drop_zero]

/-- What `_read_exact` returns comes before the rest of the stream. -/
theorem readExact_some {bytes : Bytes} {rest : List Segment}
    (read : readExact size [] segments = (some bytes, rest)) :
    stream segments = bytes ++ stream rest ∧ bytes.length = size := by
  rcases readExact_spec size [] segments (Nat.zero_le _) with
    ⟨enough, left, result, after⟩ | ⟨-, failed⟩
  · obtain ⟨found, same⟩ := Prod.mk.inj (read.symm.trans result)
    simp only [List.nil_append, List.length_nil, Nat.sub_zero, Nat.zero_add,
      Option.some.injEq] at found after enough
    subst found same
    rw [after, List.take_append_drop, List.length_take]
    exact ⟨rfl, Nat.min_eq_left enough⟩
  · rw [read] at failed
    cases failed

theorem readExact_none {rest : List Segment} (read : readExact size [] segments = (none, rest)) :
    (stream segments).length < size := by
  rcases readExact_spec size [] segments (Nat.zero_le _) with ⟨-, left, result, -⟩ | ⟨short, -⟩
  · cases read.symm.trans result
  · simpa using short

/-- A stream is shorter after `_read_exact`. -/
theorem readExact_shorter {rest : List Segment} {bytes : Bytes} (positive : 0 < size)
    (read : readExact size [] segments = (some bytes, rest)) :
    (stream rest).length < (stream segments).length := by
  obtain ⟨split, length⟩ := readExact_some read
  rw [split, List.length_append]
  omega

end Socket

/-! ### The handler -/

/-- The constants of the adapter, and the number of the connection. -/
structure Config where
  maxFrameSize : ℤ
  serviceName : String
  connId : ℕ

/-- The call that `_trigger_gate` makes. -/
structure GateCall where
  requestId : String
  path : String
  method : String
deriving DecidableEq

/-- What the handler does, in order. -/
inductive Event
  | trigger (call : GateCall)
  | send (data : Bytes)
deriving DecidableEq

/-- What becomes of a call to the gate: a status with a body, or an exception. -/
abbrev GateOutcome := Except String (ℕ × Bytes)

/-- `method or "unknown"`. -/
def methodOr (method : String) : String :=
  if method = "" then "unknown" else method

/-- `_trigger_path`. -/
def triggerPath (cfg : Config) (method : String) : String :=
  if cfg.serviceName = "" then "/thrift/" ++ methodOr method
  else "/thrift/" ++ cfg.serviceName ++ "/" ++ methodOr method

/-- The `try` of `_trigger_gate`: every exception is caught. -/
def triggerGate (outcome : GateOutcome) : Except String Unit :=
  tryCatch (outcome.map fun _ => ()) fun _ => pure ()

theorem triggerGate_ok (outcome : GateOutcome) : triggerGate outcome = .ok () := by
  cases outcome <;> rfl

/-- The call for a frame. `stamp` is the clock, in microseconds. -/
def gateCall (cfg : Config) (stamp : ℕ → ℕ) (reqSeq : ℕ) (frame : Bytes) : GateCall where
  requestId := "thrift-" ++ toString cfg.connId ++ "-" ++ toString reqSeq ++ "-" ++
    toString (stamp reqSeq)
  path := triggerPath cfg (parseMethodName frame)
  method := methodOr (parseMethodName frame)

/-- The loop of `Handler.handle`, from a request number on. An invalid size is an exception, which ends
the loop like the end of the stream. -/
def handleLoop (cfg : Config) (stamp : ℕ → ℕ) (gate : ℕ → GateOutcome) (reqSeq : ℕ)
    (segments : List Segment) : List Event :=
  match _ : readExact 4 [] segments with
  | (none, _) => []
  | (some size, rest) =>
      if _ : bigEndian size ≤ 0 ∨ cfg.maxFrameSize < bigEndian size then []
      else
        match _ : readExact (bigEndian size) [] rest with
        | (none, _) => []
        | (some frame, rest') =>
            .trigger (gateCall cfg stamp (reqSeq + 1) frame) ::
              match triggerGate (gate (reqSeq + 1)) with
              | .error _ => []
              | .ok () =>
                  .send size :: .send frame :: handleLoop cfg stamp gate (reqSeq + 1) rest'
termination_by (stream segments).length
decreasing_by
  have first := readExact_shorter (by decide) ‹readExact 4 [] segments = _›
  have second := readExact_shorter (by omega) ‹readExact (bigEndian size) [] rest = _›
  omega

/-- `Handler.handle`, once the upstream is connected. -/
def handle (cfg : Config) (stamp : ℕ → ℕ) (gate : ℕ → GateOutcome) (segments : List Segment) :
    List Event :=
  handleLoop cfg stamp gate 0 segments

/-! ### Frames -/

/-- A frame whose length is allowed. -/
structure Valid (maxFrameSize : ℤ) (frame : Bytes) : Prop where
  positive : 1 ≤ frame.length
  small : (frame.length : ℤ) ≤ maxFrameSize
  fits : frame.length < 2 ^ 32

/-- A frame on the wire. -/
def frameBytes (frame : Bytes) : Bytes :=
  be32 frame.length ++ frame

/-- The longest prefix of a stream that consists of complete frames, and the rest. -/
structure Framed (maxFrameSize : ℤ) (bytes : Bytes) (frames : List Bytes) (rest : Bytes) : Prop where
  split : bytes = frames.flatMap frameBytes ++ rest
  valid : ∀ frame ∈ frames, Valid maxFrameSize frame
  maximal : ∀ frame, Valid maxFrameSize frame → ¬ frameBytes frame <+: rest

/-- What the handler does with frames: a trigger before each. -/
def relayed (cfg : Config) (stamp : ℕ → ℕ) : ℕ → List Bytes → List Event
  | _, [] => []
  | reqSeq, frame :: rest =>
      .trigger (gateCall cfg stamp (reqSeq + 1) frame) :: .send (be32 frame.length) ::
        .send frame :: relayed cfg stamp (reqSeq + 1) rest

/-- The bytes sent upstream. -/
def sent (events : List Event) : Bytes :=
  events.flatMap fun event =>
    match event with
    | .trigger _ => []
    | .send data => data

/-- The calls to the gate. -/
def triggers (events : List Event) : List GateCall :=
  events.filterMap fun event =>
    match event with
    | .trigger call => some call
    | .send _ => none

section Frames

variable {cfg : Config} {stamp : ℕ → ℕ} {gate : ℕ → GateOutcome}

theorem sent_relayed (reqSeq : ℕ) (frames : List Bytes) :
    sent (relayed cfg stamp reqSeq frames) = frames.flatMap frameBytes := by
  induction frames generalizing reqSeq with
  | nil => rfl
  | cons frame rest ih =>
      simp only [relayed, sent, List.flatMap_cons, List.nil_append, frameBytes, List.append_assoc]
      exact congrArg (be32 frame.length ++ ·) (congrArg (frame ++ ·) (ih (reqSeq + 1)))

theorem triggers_relayed (reqSeq : ℕ) (frames : List Bytes) :
    triggers (relayed cfg stamp reqSeq frames) =
      (frames.zipIdx (reqSeq + 1)).map fun entry => gateCall cfg stamp entry.2 entry.1 := by
  induction frames generalizing reqSeq with
  | nil => rfl
  | cons frame rest ih =>
      simp only [relayed, triggers, List.filterMap_cons, List.zipIdx_cons, List.map_cons]
      exact congrArg (_ :: ·) (ih (reqSeq + 1))

/-- A frame at the head of a stream is announced by the first four bytes. -/
theorem length_of_prefix {frame bytes : Bytes} (fits : frame.length < 2 ^ 32)
    (here : frameBytes frame <+: bytes) :
    bigEndian (bytes.take 4) = frame.length ∧ 4 + frame.length ≤ bytes.length := by
  obtain ⟨tail, rfl⟩ := here
  rw [frameBytes, List.append_assoc, take_be32, bigEndian_be32 fits]
  refine ⟨rfl, ?_⟩
  simp only [List.length_append, length_be32]
  omega

/-- A stream at whose head no frame is complete. -/
theorem framed_nil {maxFrameSize : ℤ} {bytes : Bytes}
    (invalid : ∀ frame, Valid maxFrameSize frame → bigEndian (bytes.take 4) = frame.length →
      bytes.length < 4 + frame.length) : Framed maxFrameSize bytes [] bytes where
  split := rfl
  valid _ member := by cases member
  maximal frame valid here := by
    obtain ⟨announced, complete⟩ := length_of_prefix valid.fits here
    have short := invalid frame valid announced
    omega

theorem Framed.cons {maxFrameSize : ℤ} {bytes frame rest : Bytes} {frames : List Bytes}
    (valid : Valid maxFrameSize frame) (framed : Framed maxFrameSize bytes frames rest) :
    Framed maxFrameSize (frameBytes frame ++ bytes) (frame :: frames) rest where
  split := by rw [framed.split, List.flatMap_cons, List.append_assoc]
  valid other member := by
    rcases List.mem_cons.mp member with rfl | later
    · exact valid
    · exact framed.valid other later
  maximal := framed.maximal

/-- The loop relays the frames of the stream. -/
theorem handleLoop_framed (reqSeq : ℕ) (segments : List Segment) : ∃ frames rest,
    Framed cfg.maxFrameSize (stream segments) frames rest ∧
      handleLoop cfg stamp gate reqSeq segments = relayed cfg stamp reqSeq frames := by
  fun_induction handleLoop cfg stamp gate reqSeq segments with
  | case1 reqSeq segments left header =>
      have short := readExact_none header
      exact ⟨[], _, framed_nil fun frame valid _ => by omega, rfl⟩
  | case2 reqSeq segments size rest header invalid =>
      obtain ⟨split, length⟩ := readExact_some header
      refine ⟨[], _, framed_nil fun frame valid announced => ?_, rfl⟩
      rw [split, List.take_left' length] at announced
      have positive := valid.positive
      have small := valid.small
      omega
  | case3 reqSeq segments size rest header allowed left body =>
      obtain ⟨split, length⟩ := readExact_some header
      have short := readExact_none body
      refine ⟨[], _, framed_nil fun frame valid announced => ?_, rfl⟩
      rw [split, List.take_left' length] at announced
      rw [split, List.length_append]
      omega
  | case4 reqSeq segments size rest header allowed frame left body ih =>
      obtain ⟨split, length⟩ := readExact_some header
      obtain ⟨split', length'⟩ := readExact_some body
      obtain ⟨frames, after, framed, loop⟩ := ih
      have announced : be32 frame.length = size := by rw [length', be32_bigEndian length]
      have valid : Valid cfg.maxFrameSize frame := by
        have fits := bigEndian_lt length
        exact ⟨by omega, by omega, by omega⟩
      refine ⟨frame :: frames, after, ?_, ?_⟩
      · rw [split, split', ← List.append_assoc, ← announced]
        exact framed.cons valid
      · rw [loop, ← announced, triggerGate_ok]
        rfl

end Frames

/-- The adapter relays the longest prefix of the stream that consists of complete frames of an allowed
length, however the stream is cut and whatever the gate answers: it sends their bytes, calls the
trigger once for each of them, in their order, and before it sends the frame. The name that it
triggers with is that of the message, and none if the frame is too short for it. -/
theorem handle_framed (cfg : Config) :
    (∀ (stamp : ℕ → ℕ) (gate : ℕ → GateOutcome) (segments : List Segment), ∃ frames rest,
      Framed cfg.maxFrameSize (stream segments) frames rest ∧
        handle cfg stamp gate segments = relayed cfg stamp 0 frames ∧
        sent (handle cfg stamp gate segments) = frames.flatMap frameBytes ∧
        triggers (handle cfg stamp gate segments) =
          (frames.zipIdx 1).map fun entry => gateCall cfg stamp entry.2 entry.1) ∧
      (∀ (name : String) (frame : Bytes), Message name frame → parseMethodName frame = name) ∧
      (∀ frame : Bytes, Truncated frame → parseMethodName frame = "") := by
  refine ⟨fun stamp gate segments => ?_, fun _ _ => parseMethodName_message,
    fun _ => parseMethodName_truncated⟩
  obtain ⟨frames, rest, framed, relays⟩ := handleLoop_framed 0 segments
  refine ⟨frames, rest, framed, relays, ?_, ?_⟩
  · rw [handle, relays, sent_relayed]
  · rw [handle, relays, triggers_relayed]

end Mcoz.Thrift
