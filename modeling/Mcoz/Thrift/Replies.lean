/-
The reply direction of the Thrift adapter.

A relay thread copies what the server sends to the client. The handler, which reads the client's frames,
closes both sockets when its loop ends, and the server's socket keeps the timeout that it was
connected with; so a reply is lost if the client finishes early or the server pauses. A socket that is
closed with unread input, or gets more after it is closed, is reset and drops what it has still to
send, so a reply is lost too if the client goes on after a frame that ends the loop (`reply_lost`).
`replies_relayed` says when nothing is lost: the relay stays in its loop and the handler in its own
until every byte has arrived and been taken, and neither the server's socket nor the client's is reset
while a reply is on its way.
-/

import Mcoz.Lib.Machine
import Mcoz.Thrift.Framing

set_option autoImplicit false

namespace Mcoz.Thrift

open Machine Word

/-! ### The connection -/

/-- The constants of the two threads. The timeout is counted in ticks of the clock. -/
structure Settings extends Config where
  bufferSize : ℤ
  timeout : ℕ

/-- A socket as its own process has left it. -/
inductive Sock
  | live
  | shut
  | closed
deriving DecidableEq

/-- `sock.shutdown(how)`. -/
def Sock.shutdown : Sock → Sock
  | live => shut
  | shut => shut
  | closed => closed

/-- Where `_RelayThread.run` is: in `recv` for some ticks, in `sendall` with bytes left, in the
`finally`, or at its end. -/
inductive Relay
  | receiving (waited : ℕ)
  | sending (held : Bytes)
  | stopping
  | done
deriving DecidableEq

/-- Time passes. -/
def Relay.tick : Relay → Relay
  | receiving waited => receiving (waited + 1)
  | sending held => sending held
  | stopping => stopping
  | done => done

/-- Where the loop of `Handler.handle` is. -/
inductive Loop
  | header (data : Bytes)
  | frame (header data : Bytes)
  | trigger (header frame : Bytes)
  | send (parts : List Bytes)

/-- What a step of the loop sends to the server: a part, or what gets out of it before the call fails. -/
def Loop.forwarded (count : ℕ) (fails : Bool) : Loop → Bytes
  | send (part :: _) => if fails then part.take count else part
  | _ => []

/-- Where `Handler.handle` is: in its loop, or before one of the calls of its `finally`. -/
inductive Handler
  | loop (place : Loop)
  | shutUpstream
  | closeUpstream
  | shutDownstream
  | closeDownstream
  | ended

/-- One connection. `sent` is all that the server has sent, `inFlight` the part of it that has not arrived,
`queued` what the client's socket has taken from the relay and still to send, `delivered` what the client
has got; `unread`, `arrived` and `requests` are what the server's own socket and the two of the adapter
hold unread. Of the downstream socket it is the sending half that counts. -/
structure Conn where
  sent : Bytes
  inFlight : Bytes
  unread : Bytes
  serverClosed : Bool
  arrived : Bytes
  upstream : Sock
  relay : Relay
  downstream : Sock
  queued : Bytes
  delivered : Bytes
  requests : Bytes
  clientFinished : Bool
  handler : Handler

/-- Both threads at the start of their loops. -/
def Conn.start : Conn where
  sent := []
  inFlight := []
  unread := []
  serverClosed := false
  arrived := []
  upstream := .live
  relay := .receiving 0
  downstream := .live
  queued := []
  delivered := []
  requests := []
  clientFinished := false
  handler := .loop (.header [])

/-- What happens on a connection. A thread's step carries the number of bytes that its call takes. -/
inductive Action
  | serverSend (bytes : Bytes)
  | serverRecv (count : ℕ)
  | serverClose
  | arrive (count : ℕ)
  | clientSend (bytes : Bytes)
  | clientRecv (count : ℕ)
  | clientFinish
  | tick
  | relay (count : ℕ)
  | relayTimeout
  | handler (count : ℕ) (fails : Bool)

/-- The handler has not shut the client's socket. -/
def Handler.open : Handler → Bool
  | closeDownstream => false
  | ended => false
  | _ => true

namespace Conn

/-- One step of `_RelayThread.run`, the timeout apart: `recv` waits while nothing has arrived, and an
exception ends the loop as the end of the stream does. -/
def relayStep (cfg : Settings) (conn : Conn) (count : ℕ) : Option Conn :=
  match conn.relay with
  | .receiving _ =>
      if conn.upstream = .closed ∨ cfg.bufferSize ≤ 0 then some { conn with relay := .stopping }
      else if conn.arrived ≠ [] then
        let size := max 1 (min count cfg.bufferSize.toNat)
        some { conn with
          relay := .sending (conn.arrived.take size)
          arrived := conn.arrived.drop size }
      else if conn.serverClosed ∧ conn.inFlight = [] ∨ conn.upstream = .shut then
        some { conn with relay := .stopping }
      else none
  | .sending held =>
      if conn.downstream = .live then
        let left := held.drop (max 1 count)
        some { conn with
          queued := conn.queued ++ held.take (max 1 count)
          relay := if left = [] then .receiving 0 else .sending left }
      else some { conn with relay := .stopping }
  | .stopping => some { conn with relay := .done, downstream := conn.downstream.shutdown }
  | .done => none

/-- The timeout of the relay's `recv`: nothing has come for so long. -/
def timeoutStep (cfg : Settings) (conn : Conn) : Option Conn :=
  match conn.relay with
  | .receiving waited =>
      if cfg.timeout ≤ waited ∧ conn.arrived = [] ∧ ¬ (conn.serverClosed ∧ conn.inFlight = []) ∧
          conn.upstream = .live then
        some { conn with relay := .stopping }
      else none
  | _ => none

/-- `recv` on the client's socket: nothing only at the end of the stream. -/
def recvDownstream (conn : Conn) (size count : ℕ) : Option (Bytes × Bytes) :=
  if conn.requests ≠ [] then
    let size := max 1 (min count size)
    some (conn.requests.take size, conn.requests.drop size)
  else if conn.clientFinished then some ([], [])
  else none

/-- One step of the handler's loop: the next place in it, or none if the loop ends, and the bytes that
stay unread. A call upstream may fail. -/
def loopStep (cfg : Settings) (conn : Conn) (count : ℕ) (fails : Bool) :
    Loop → Option (Option Loop × Bytes)
  | .header data =>
      (conn.recvDownstream (4 - data.length) count).map fun (chunk, requests) =>
        let data := data ++ chunk
        if chunk = [] then (none, requests)
        else if data.length < 4 then (some (.header data), requests)
        else if bigEndian data ≤ 0 ∨ cfg.maxFrameSize < bigEndian data then (none, requests)
        else (some (.frame data []), requests)
  | .frame header data =>
      (conn.recvDownstream (bigEndian header - data.length) count).map fun (chunk, requests) =>
        let data := data ++ chunk
        if chunk = [] then (none, requests)
        else if data.length < bigEndian header then (some (.frame header data), requests)
        else (some (.trigger header data), requests)
  | .trigger header frame => some (some (.send [header, frame]), conn.requests)
  | .send [] => some (some (.header []), conn.requests)
  | .send (_ :: rest) =>
      some (if fails then none else some (.send rest), conn.requests)

/-- A reset of a connection: what a socket has still to send is dropped. -/
def resetIf (reset : Bool) (bytes : Bytes) : Bytes :=
  if reset then [] else bytes

/-- One step of `Handler.handle`. A socket closed with unread input is reset, and so is the server's if
something comes after it is closed. -/
def handlerStep (cfg : Settings) (conn : Conn) (count : ℕ) (fails : Bool) : Option Conn :=
  match conn.handler with
  | .loop place =>
      (conn.loopStep cfg count fails place).map fun (next, requests) =>
        { conn with
          requests := requests
          unread := conn.unread ++ place.forwarded count fails
          inFlight := resetIf (conn.serverClosed ∧ place.forwarded count fails ≠ []) conn.inFlight
          handler := match next with
            | some place => .loop place
            | none => .shutUpstream }
  | .shutUpstream =>
      some { conn with upstream := conn.upstream.shutdown, handler := .closeUpstream }
  | .closeUpstream => some { conn with upstream := .closed, handler := .shutDownstream }
  | .shutDownstream =>
      some { conn with downstream := conn.downstream.shutdown, handler := .closeDownstream }
  | .closeDownstream =>
      some { conn with
        downstream := .closed
        queued := resetIf (conn.requests ≠ []) conn.queued
        handler := .ended }
  | .ended => none

/-- One step of the connection. What comes from the server to a socket that is shut is lost with all that
is behind it, and what the client sends to one resets it. -/
def step (cfg : Settings) (conn : Conn) : Action → Option Conn
  | .serverSend bytes =>
      if conn.serverClosed = false ∧ bytes ≠ [] then
        some { conn with
          sent := conn.sent ++ bytes
          inFlight := conn.inFlight ++ bytes }
      else none
  | .serverRecv count =>
      if conn.serverClosed = false ∧ conn.unread ≠ [] then
        some { conn with unread := conn.unread.drop (max 1 count) }
      else none
  | .serverClose =>
      if conn.serverClosed = false then
        some { conn with serverClosed := true, inFlight := resetIf (conn.unread ≠ []) conn.inFlight }
      else none
  | .arrive count =>
      if conn.inFlight = [] then none
      else if conn.upstream = .live then
        some { conn with
          inFlight := conn.inFlight.drop (max 1 count)
          arrived := conn.arrived ++ conn.inFlight.take (max 1 count) }
      else some { conn with inFlight := [] }
  | .clientSend bytes =>
      if conn.clientFinished = false then
        some { conn with
          requests := conn.requests ++ bytes
          queued := resetIf (bytes ≠ [] ∧ conn.handler.open = false) conn.queued }
      else none
  | .clientRecv count =>
      if conn.queued ≠ [] then
        some { conn with
          queued := conn.queued.drop (max 1 count)
          delivered := conn.delivered ++ conn.queued.take (max 1 count) }
      else none
  | .clientFinish => some { conn with clientFinished := true }
  | .tick => some { conn with relay := conn.relay.tick }
  | .relay count => conn.relayStep cfg count
  | .relayTimeout => conn.timeoutStep cfg
  | .handler count fails => conn.handlerStep cfg count fails

end Conn

/-! ### What the relay has still to do -/

/-- The relay is in its loop. -/
def Relay.running : Relay → Bool
  | receiving _ => true
  | sending _ => true
  | stopping => false
  | done => false

/-- The steps that bring a reply forward: arrivals, the relay's, and those of a client that keeps reading. -/
def Action.forwards : Action → Bool
  | arrive _ => true
  | relay _ => true
  | clientRecv _ => true
  | _ => false

/-- The bytes that the relay has taken and not sent. -/
def Relay.held : Relay → Bytes
  | sending held => held
  | _ => []

@[simp] theorem Relay.running_tick (relay : Relay) : relay.tick.running = relay.running := by
  cases relay <;> rfl

@[simp] theorem Relay.held_tick (relay : Relay) : relay.tick.held = relay.held := by
  cases relay <;> rfl

namespace Conn

/-- What the relay can still take. -/
def readable (cfg : Settings) (conn : Conn) : Bytes :=
  if conn.upstream = .closed ∨ cfg.bufferSize ≤ 0 then [] else conn.arrived

/-- What has not arrived and will be there for the relay. -/
def coming (cfg : Settings) (conn : Conn) : Bytes :=
  if conn.relay.running ∧ conn.upstream = .live ∧ 0 < cfg.bufferSize then conn.inFlight else []

/-- The bytes that the relay will take to the client's socket. -/
def pending (cfg : Settings) (conn : Conn) : Bytes :=
  if conn.relay.running ∧ conn.downstream = .live then
    conn.relay.held ++ (conn.readable cfg ++ conn.coming cfg)
  else []

/-- What the client has got and will get. -/
def accounted (cfg : Settings) (conn : Conn) : Bytes :=
  conn.delivered ++ (conn.queued ++ conn.pending cfg)

/-- What the relay has still to do. -/
def relayWork (conn : Conn) : ℕ :=
  match conn.relay with
  | .receiving _ => 4 * conn.arrived.length + 2
  | .sending held => 4 * conn.arrived.length + 2 * held.length + 3
  | .stopping => 1
  | .done => 0

/-- A bound on the arrivals, the steps of the relay and the client's reads once the server has closed. -/
def work (conn : Conn) : ℕ :=
  5 * conn.inFlight.length + (conn.relayWork + conn.queued.length)

/-- The step loses nothing. The server sends while the relay is in its loop and the handler in its own. While
a reply is on its way from the server, the relay does not time out, the handler does not shut the
server's socket, and that is not reset: the server does not close with unread input, and gets nothing
after it has closed. The handler closes the server's socket when the relay has read everything, and shuts
the client's when the relay has sent everything. While a reply is on its way to the client, the handler
does not close the client's socket with unread input, and nothing more comes from the client once it is
shut. -/
def Lossless (cfg : Settings) (conn : Conn) : Action → Prop
  | .serverSend _ => 0 < cfg.bufferSize ∧ conn.relay.running = true ∧ conn.upstream = .live
  | .serverClose => conn.unread ≠ [] → conn.coming cfg = []
  | .relayTimeout => conn.coming cfg = []
  | .clientSend bytes => bytes ≠ [] → conn.handler.open = false → conn.queued = []
  | .handler count fails =>
      match conn.handler with
      | .loop place => conn.serverClosed = true → place.forwarded count fails ≠ [] → conn.coming cfg = []
      | .shutUpstream => conn.coming cfg = []
      | .closeUpstream => conn.relay.running = true → conn.readable cfg = []
      | .shutDownstream => conn.relay.held = []
      | .closeDownstream => conn.requests ≠ [] → conn.queued = []
      | _ => True
  | _ => True

end Conn

open Conn

/-! ### Steps -/

/-- The step that was taken. -/
inductive Effect (cfg : Settings) (conn : Conn) : Action → Conn → Prop
  | serverSent {bytes : Bytes} (filled : bytes ≠ []) (going : conn.serverClosed = false) :
      Effect cfg conn (.serverSend bytes) { conn with
        sent := conn.sent ++ bytes
        inFlight := conn.inFlight ++ bytes }
  | serverGot {count size : ℕ} : Effect cfg conn (.serverRecv count) { conn with unread := conn.unread.drop size }
  | serverClosed (going : conn.serverClosed = false) :
      Effect cfg conn .serverClose { conn with
        serverClosed := true
        inFlight := resetIf (conn.unread ≠ []) conn.inFlight }
  | arrived {count size : ℕ} (filled : conn.inFlight ≠ []) (live : conn.upstream = .live) (positive : 1 ≤ size) :
      Effect cfg conn (.arrive count) { conn with
        inFlight := conn.inFlight.drop size
        arrived := conn.arrived ++ conn.inFlight.take size }
  | refused {count : ℕ} (filled : conn.inFlight ≠ []) (unable : conn.upstream ≠ .live) :
      Effect cfg conn (.arrive count) { conn with inFlight := [] }
  | clientSent {bytes : Bytes} :
      Effect cfg conn (.clientSend bytes) { conn with
        requests := conn.requests ++ bytes
        queued := resetIf (bytes ≠ [] ∧ conn.handler.open = false) conn.queued }
  | clientGot {count size : ℕ} (filled : conn.queued ≠ []) (positive : 1 ≤ size) :
      Effect cfg conn (.clientRecv count) { conn with
        queued := conn.queued.drop size
        delivered := conn.delivered ++ conn.queued.take size }
  | clientFinished : Effect cfg conn .clientFinish { conn with clientFinished := true }
  | ticked : Effect cfg conn .tick { conn with relay := conn.relay.tick }
  | stopped {count ticks : ℕ} (receiving : conn.relay = .receiving ticks)
      (nothing : conn.readable cfg = [] ∧ conn.coming cfg = []) :
      Effect cfg conn (.relay count) { conn with relay := .stopping }
  | timedOut {ticks : ℕ} (receiving : conn.relay = .receiving ticks)
      (nothing : conn.readable cfg = []) :
      Effect cfg conn .relayTimeout { conn with relay := .stopping }
  | received {count ticks size : ℕ} (receiving : conn.relay = .receiving ticks)
      (open_ : ¬ (conn.upstream = .closed ∨ cfg.bufferSize ≤ 0)) (filled : conn.arrived ≠ [])
      (positive : 1 ≤ size) :
      Effect cfg conn (.relay count) { conn with
        relay := .sending (conn.arrived.take size)
        arrived := conn.arrived.drop size }
  | delivered {count size : ℕ} {held : Bytes} (sending : conn.relay = .sending held)
      (live : conn.downstream = .live) (positive : 1 ≤ size) :
      Effect cfg conn (.relay count) { conn with
        queued := conn.queued ++ held.take size
        relay := if held.drop size = [] then .receiving 0 else .sending (held.drop size) }
  | failed {count : ℕ} {held : Bytes} (sending : conn.relay = .sending held)
      (unable : conn.downstream ≠ .live) :
      Effect cfg conn (.relay count) { conn with relay := .stopping }
  | finished {count : ℕ} (stopping : conn.relay = .stopping) :
      Effect cfg conn (.relay count)
        { conn with relay := .done, downstream := conn.downstream.shutdown }
  | served {count : ℕ} {fails : Bool} {place : Loop} {next : Handler} {requests : Bytes}
      (serving : conn.handler = .loop place)
      (next_eq : (∃ place', next = .loop place') ∨ next = .shutUpstream) :
      Effect cfg conn (.handler count fails) { conn with
        requests := requests
        unread := conn.unread ++ place.forwarded count fails
        inFlight := resetIf (conn.serverClosed ∧ place.forwarded count fails ≠ []) conn.inFlight
        handler := next }
  | shutUp {count : ℕ} {fails : Bool} (leaving : conn.handler = .shutUpstream) :
      Effect cfg conn (.handler count fails)
        { conn with upstream := conn.upstream.shutdown, handler := .closeUpstream }
  | closedUp {count : ℕ} {fails : Bool} (leaving : conn.handler = .closeUpstream) :
      Effect cfg conn (.handler count fails)
        { conn with upstream := .closed, handler := .shutDownstream }
  | shutDown {count : ℕ} {fails : Bool} (leaving : conn.handler = .shutDownstream) :
      Effect cfg conn (.handler count fails)
        { conn with downstream := conn.downstream.shutdown, handler := .closeDownstream }
  | closedDown {count : ℕ} {fails : Bool} (leaving : conn.handler = .closeDownstream) :
      Effect cfg conn (.handler count fails) { conn with
        downstream := .closed
        queued := resetIf (conn.requests ≠ []) conn.queued
        handler := .ended }

section Steps

variable {cfg : Settings} {conn next : Conn} {action : Action}

theorem relay_effect {count : ℕ} (moved : conn.relayStep cfg count = some next) :
    Effect cfg conn (.relay count) next := by
  revert moved
  fun_cases relayStep cfg conn count with
  | case1 ticks receiving unable =>
      rintro ⟨⟩
      refine .stopped receiving ⟨if_pos unable, if_neg fun going => ?_⟩
      rcases unable with closed | empty
      · rw [closed] at going
        cases going.2.1
      · omega
  | case2 ticks receiving open_ filled =>
      rintro ⟨⟩
      exact .received receiving open_ filled (Nat.le_max_left _ _)
  | case3 ticks receiving open_ nothing ended =>
      rintro ⟨⟩
      refine .stopped receiving ⟨by rw [readable, if_neg open_, Decidable.not_not.mp nothing], ?_⟩
      rcases ended with ⟨-, empty⟩ | shut
      · rw [coming, empty, ite_self]
      · exact if_neg fun going => by simp [shut] at going
  | case4 => simp
  | case5 held sending live =>
      rintro ⟨⟩
      exact .delivered sending live (Nat.le_max_left _ _)
  | case6 held sending unable =>
      rintro ⟨⟩
      exact .failed sending unable
  | case7 stopping =>
      rintro ⟨⟩
      exact .finished stopping
  | case8 => simp

theorem handler_effect {count : ℕ} {fails : Bool}
    (moved : conn.handlerStep cfg count fails = some next) :
    Effect cfg conn (.handler count fails) next := by
  revert moved
  fun_cases handlerStep cfg conn count fails with
  | case1 place serving =>
      intro moved
      obtain ⟨⟨place', requests⟩, -, rfl⟩ := Option.map_eq_some_iff.mp moved
      refine .served serving ?_
      cases place' with
      | none => exact Or.inr rfl
      | some place' => exact Or.inl ⟨place', rfl⟩
  | case2 leaving =>
      rintro ⟨⟩
      exact .shutUp leaving
  | case3 leaving =>
      rintro ⟨⟩
      exact .closedUp leaving
  | case4 leaving =>
      rintro ⟨⟩
      exact .shutDown leaving
  | case5 leaving =>
      rintro ⟨⟩
      exact .closedDown leaving
  | case6 => simp

theorem effect_of_step (moved : conn.step cfg action = some next) :
    Effect cfg conn action next := by
  cases action with
  | serverSend bytes =>
      obtain ⟨⟨going, filled⟩, same⟩ := Option.ite_none_right_eq_some.mp moved
      cases same
      exact .serverSent filled going
  | serverRecv count =>
      obtain ⟨-, same⟩ := Option.ite_none_right_eq_some.mp moved
      cases same
      exact .serverGot
  | serverClose =>
      obtain ⟨going, same⟩ := Option.ite_none_right_eq_some.mp moved
      cases same
      exact .serverClosed going
  | arrive count =>
      obtain ⟨filled, moved⟩ := Option.ite_none_left_eq_some.mp moved
      by_cases live : conn.upstream = .live
      · rw [if_pos live] at moved
        cases moved
        exact .arrived filled live (Nat.le_max_left _ _)
      · rw [if_neg live] at moved
        cases moved
        exact .refused filled live
  | clientSend bytes =>
      obtain ⟨-, same⟩ := Option.ite_none_right_eq_some.mp moved
      cases same
      exact .clientSent
  | clientRecv count =>
      obtain ⟨filled, same⟩ := Option.ite_none_right_eq_some.mp moved
      cases same
      exact .clientGot filled (Nat.le_max_left _ _)
  | clientFinish =>
      cases moved
      exact .clientFinished
  | tick =>
      cases moved
      exact .ticked
  | relay count => exact relay_effect moved
  | relayTimeout =>
      revert moved
      rw [step]
      fun_cases timeoutStep cfg conn with
      | case1 ticks receiving late =>
          rintro ⟨⟩
          refine .timedOut receiving ?_
          rw [readable, late.2.1, ite_self]
      | case2 => simp
      | case3 => simp
  | handler count fails => exact handler_effect moved

end Steps

/-! ### What is relayed -/

/-- The upstream socket at each place of the handler. -/
def Handler.upstream : Handler → Sock
  | loop _ => .live
  | shutUpstream => .live
  | closeUpstream => .shut
  | _ => .closed

/-- The sockets are as the two threads have left them. -/
structure Sound (conn : Conn) : Prop where
  upstream : conn.upstream = conn.handler.upstream
  downstream : conn.relay.running = true → conn.handler.open = true → conn.downstream = .live
  shut : conn.handler.open = false → conn.downstream ≠ .live

section Relayed

variable {cfg : Settings} {conn next : Conn} {action : Action}

theorem Sock.shutdown_ne (sock : Sock) : sock.shutdown ≠ .live := by
  cases sock <;> simp [Sock.shutdown]

theorem sound_step (sound : Sound conn) (effect : Effect cfg conn action next) : Sound next := by
  obtain ⟨upstream, downstream, shut⟩ := sound
  cases effect with
  | serverSent filled going => exact ⟨upstream, downstream, shut⟩
  | serverGot => exact ⟨upstream, downstream, shut⟩
  | serverClosed going => exact ⟨upstream, downstream, shut⟩
  | arrived filled live positive => exact ⟨upstream, downstream, shut⟩
  | refused filled unable => exact ⟨upstream, downstream, shut⟩
  | clientSent => exact ⟨upstream, downstream, shut⟩
  | clientGot filled positive => exact ⟨upstream, downstream, shut⟩
  | clientFinished => exact ⟨upstream, downstream, shut⟩
  | ticked => exact ⟨upstream, by simpa using downstream, shut⟩
  | stopped receiving nothing => exact ⟨upstream, by simp [Relay.running], shut⟩
  | timedOut receiving nothing => exact ⟨upstream, by simp [Relay.running], shut⟩
  | received receiving open_ filled positive =>
      exact ⟨upstream, fun _ => downstream (by rw [receiving, Relay.running]), shut⟩
  | delivered sending live positive =>
      exact ⟨upstream, fun _ _ => live, fun closed => absurd live (shut closed)⟩
  | failed sending unable => exact ⟨upstream, by simp [Relay.running], shut⟩
  | finished stopping =>
      exact ⟨upstream, by simp [Relay.running], fun _ => Sock.shutdown_ne _⟩
  | served serving next_eq =>
      rw [serving] at upstream downstream shut
      obtain ⟨place, rfl⟩ | rfl := next_eq
      · exact ⟨upstream, downstream, shut⟩
      · exact ⟨upstream, downstream, shut⟩
  | shutUp leaving =>
      rw [leaving] at upstream downstream shut
      exact ⟨congrArg Sock.shutdown upstream, downstream, shut⟩
  | closedUp leaving =>
      rw [leaving] at downstream shut
      exact ⟨rfl, downstream, shut⟩
  | shutDown leaving =>
      rw [leaving] at upstream
      exact ⟨upstream, by simp [Handler.open], fun _ => Sock.shutdown_ne _⟩
  | closedDown leaving =>
      rw [leaving] at upstream
      exact ⟨upstream, by simp [Handler.open], by simp⟩

/-- What the server sends in a step is accounted for if the step is lossless, and not otherwise. -/
structure Flows (cfg : Settings) (conn : Conn) (action : Action) (next : Conn) (gained : Bytes) :
    Prop where
  sent : next.sent = conn.sent ++ gained
  kept : conn.Lossless cfg action → next.accounted cfg = conn.accounted cfg ++ gained
  lost : ¬ conn.Lossless cfg action →
    (next.accounted cfg).length < (conn.accounted cfg).length + gained.length

/-- A step in which the server sends nothing and nothing is lost. -/
theorem flows_nil (lossless : conn.Lossless cfg action) (sent : next.sent = conn.sent)
    (accounted : next.accounted cfg = conn.accounted cfg) : Flows cfg conn action next [] where
  sent := by rw [sent, List.append_nil]
  kept _ := by rw [accounted, List.append_nil]
  lost lossy := absurd lossless lossy

/-- What the relay and the two sockets determine. -/
theorem accounted_congr (delivered : next.delivered = conn.delivered)
    (queued : next.queued = conn.queued)
    (relay : next.relay.running = conn.relay.running ∧ next.relay.held = conn.relay.held)
    (downstream : next.downstream = conn.downstream) (arrived : next.arrived = conn.arrived)
    (inFlight : next.inFlight = conn.inFlight) (upstream : next.upstream = conn.upstream) :
    next.accounted cfg = conn.accounted cfg := by
  simp only [accounted, pending, readable, coming, delivered, queued, relay, downstream, arrived, inFlight,
    upstream]

/-- A step that may drop a part of what counts. -/
theorem flows_resetIf (reset : Prop) [Decidable reset] {front dropped back : Bytes} (sent : next.sent = conn.sent)
    (lossless_iff : conn.Lossless cfg action ↔ (reset → dropped = []))
    (before : conn.accounted cfg = front ++ (dropped ++ back))
    (after : next.accounted cfg = front ++ (resetIf reset dropped ++ back)) :
    Flows cfg conn action next [] where
  sent := by rw [sent, List.append_nil]
  kept lossless := by
    rw [after, before, List.append_nil, resetIf]
    by_cases loses : reset
    · rw [lossless_iff.mp lossless loses, ite_self]
    · simp only [loses, decide_false, Bool.false_eq_true, if_false]
  lost lossy := by
    obtain ⟨loses, filled⟩ := Classical.not_imp.mp (mt lossless_iff.mpr lossy)
    have positive := List.length_pos_iff.mpr filled
    rw [after, before, resetIf, decide_eq_true loses, if_pos rfl]
    simp only [List.length_append, List.length_nil]
    omega

/-- Nothing comes to a socket that is shut. -/
theorem coming_of_unable (unable : conn.upstream ≠ .live) : conn.coming cfg = [] :=
  if_neg fun going => unable going.2.1

/-- The handler shuts the server's socket first. -/
theorem Sound.downstream_live (sound : Sound conn) (running : conn.relay.running = true)
    (live : conn.upstream = .live) : conn.downstream = .live := by
  have upstream := sound.upstream.symm.trans live
  refine sound.downstream running ?_
  cases place : conn.handler <;> simp_all [Handler.upstream, Handler.open]

/-- A step that may drop what is coming, and changes nothing else that counts. -/
theorem flows_drop (drops : Prop) [Decidable drops] (sound : Sound conn) (sent : next.sent = conn.sent)
    (lossless_iff : conn.Lossless cfg action ↔ (drops → conn.coming cfg = []))
    (after : next.accounted cfg = conn.delivered ++ (conn.queued ++
      if conn.relay.running = true ∧ conn.downstream = .live then
        conn.relay.held ++ (conn.readable cfg ++ resetIf drops (conn.coming cfg))
      else [])) :
    Flows cfg conn action next [] := by
  by_cases relayed : conn.relay.running = true ∧ conn.downstream = .live
  · refine @flows_resetIf cfg conn next action drops _
      (conn.delivered ++ (conn.queued ++ (conn.relay.held ++ conn.readable cfg))) (conn.coming cfg) []
      sent lossless_iff ?_ ?_
    · rw [accounted, pending, if_pos relayed]
      simp only [List.append_assoc, List.append_nil]
    · rw [after, if_pos relayed]
      simp only [List.append_assoc, List.append_nil]
  · have nothing : conn.coming cfg = [] :=
      if_neg fun going => relayed ⟨going.1, sound.downstream_live going.1 going.2.1⟩
    refine flows_nil (lossless_iff.mpr fun _ => nothing) sent ?_
    rw [after, accounted, pending, if_neg relayed, if_neg relayed]

/-- What a reset leaves is coming. -/
theorem coming_resetIf {reset : Bool} (relay : next.relay = conn.relay) (upstream : next.upstream = conn.upstream)
    (inFlight : next.inFlight = resetIf reset conn.inFlight) :
    next.coming cfg = resetIf reset (conn.coming cfg) := by
  simp only [coming, relay, upstream, inFlight]
  cases reset <;> simp [resetIf]

/-- What the server sends. -/
theorem flows_serverSent {bytes : Bytes} (sound : Sound conn) (filled : bytes ≠ []) :
    Flows cfg conn (.serverSend bytes) { conn with
      sent := conn.sent ++ bytes
      inFlight := conn.inFlight ++ bytes } bytes where
  sent := rfl
  kept := by
    rintro ⟨positive, running, live⟩
    have unshut := sound.downstream_live running live
    simp only [accounted, pending, readable, coming, running, unshut, live, positive, and_self, if_true,
      List.append_assoc]
  lost lossy := by
    have positive := List.length_pos_iff.mpr filled
    have halted : ¬ (conn.relay.running = true ∧ conn.upstream = .live ∧ 0 < cfg.bufferSize) :=
      fun all => lossy ⟨all.2.2, all.1, all.2.1⟩
    suffices same : accounted cfg { conn with sent := conn.sent ++ bytes, inFlight := conn.inFlight ++ bytes } =
        conn.accounted cfg by
      rw [same]
      omega
    simp only [accounted, pending, readable, coming, if_neg halted]

/-- Some of what is coming arrives. -/
theorem accounted_arrived {size : ℕ} (live : conn.upstream = .live) :
    accounted cfg { conn with
      inFlight := conn.inFlight.drop size
      arrived := conn.arrived ++ conn.inFlight.take size } = conn.accounted cfg := by
  by_cases running : conn.relay.running = true
  · by_cases positive : 0 < cfg.bufferSize
    · have open_ : ¬ (Sock.live = .closed ∨ cfg.bufferSize ≤ 0) := by simpa using positive
      simp only [accounted, pending, readable, coming, live, running, positive, if_neg open_, and_self, true_and,
        if_true, List.append_assoc, List.take_append_drop]
    · have empty : cfg.bufferSize ≤ 0 := by omega
      simp only [accounted, pending, readable, coming, positive, empty, or_true, and_false, if_true, if_false]
  · simp only [accounted, pending, running, false_and, Bool.false_eq_true, if_false]

/-- What comes to a socket that is shut does not count. -/
theorem accounted_refused (unable : conn.upstream ≠ .live) :
    accounted cfg { conn with inFlight := [] } = conn.accounted cfg := by
  simp only [accounted, pending, readable, coming, unable, false_and, and_false, if_false]

/-- The relay's loop ends with nothing left to take. -/
theorem accounted_stopped {ticks : ℕ} (receiving : conn.relay = .receiving ticks)
    (nothing : conn.readable cfg = [] ∧ conn.coming cfg = []) :
    accounted cfg { conn with relay := .stopping } = conn.accounted cfg := by
  rw [accounted, accounted, pending, pending, nothing.1, nothing.2, receiving]
  simp only [Relay.running, Relay.held, List.append_nil, Bool.false_eq_true, false_and, if_false, ite_self]

/-- The relay takes what has arrived. -/
theorem accounted_received {ticks size : ℕ} (receiving : conn.relay = .receiving ticks)
    (open_ : ¬ (conn.upstream = .closed ∨ cfg.bufferSize ≤ 0)) :
    accounted cfg { conn with
      relay := .sending (conn.arrived.take size)
      arrived := conn.arrived.drop size } = conn.accounted cfg := by
  simp only [accounted, pending, readable, coming, receiving, Relay.running, Relay.held, if_neg open_,
    ← List.append_assoc, List.take_append_drop, List.nil_append]

/-- The relay sends a part of what it holds. -/
theorem accounted_delivered {size : ℕ} {held : Bytes} (sending : conn.relay = .sending held)
    (live : conn.downstream = .live) :
    accounted cfg { conn with
      queued := conn.queued ++ held.take size
      relay := if held.drop size = [] then .receiving 0 else .sending (held.drop size) } =
      conn.accounted cfg := by
  have split : held.take size ++ held.drop size = held := List.take_append_drop size held
  by_cases all : held.drop size = []
  · rw [all, List.append_nil] at split
    simp only [accounted, pending, readable, coming, sending, live, Relay.running, Relay.held, all, split,
      if_true, and_self, List.nil_append, List.append_assoc]
  · simp only [accounted, pending, readable, coming, sending, live, Relay.running, Relay.held, if_neg all,
      if_true, and_self, List.append_assoc]
    rw [← List.append_assoc (held.take size), split]

/-- The handler closes the server's socket. -/
theorem flows_closedUp {count : ℕ} {fails : Bool} (sound : Sound conn)
    (leaving : conn.handler = .closeUpstream) :
    Flows cfg conn (.handler count fails)
      { conn with upstream := .closed, handler := .shutDownstream } [] := by
  have shut : conn.upstream = .shut := sound.upstream.trans (by rw [leaving]; rfl)
  have before : conn.coming cfg = [] := coming_of_unable (by simp [shut])
  have after : coming cfg { conn with upstream := .closed, handler := .shutDownstream } = [] :=
    coming_of_unable (by simp)
  refine ⟨(List.append_nil _).symm, fun lossless => ?_, fun lossy => ?_⟩
  · simp only [Lossless, leaving] at lossless
    rw [accounted, accounted, pending, pending, before, after]
    by_cases running : conn.relay.running = true
    · rw [lossless running]
      simp only [readable, true_or, if_true, List.append_nil]
    · simp only [running, false_and, if_false, Bool.false_eq_true, List.append_nil]
  · simp only [Lossless, leaving, Classical.not_imp] at lossy
    have live := sound.downstream lossy.1 (by rw [leaving]; rfl)
    have filled := List.length_pos_iff.mpr lossy.2
    rw [accounted, accounted, pending, pending, before, after]
    simp only [lossy.1, live, and_self, if_true, List.length_append]
    simp only [readable, true_or, if_true, List.length_nil]
    rw [← readable]
    omega

/-- The handler shuts the client's socket. -/
theorem flows_shutDown {count : ℕ} {fails : Bool} (sound : Sound conn)
    (leaving : conn.handler = .shutDownstream) :
    Flows cfg conn (.handler count fails)
      { conn with downstream := conn.downstream.shutdown, handler := .closeDownstream } [] where
  sent := (List.append_nil _).symm
  kept lossless := by
    simp only [Lossless, leaving] at lossless
    have closed : conn.upstream = .closed := sound.upstream.trans (by rw [leaving]; rfl)
    simp only [accounted, pending, readable, coming, lossless, closed, true_or, reduceCtorEq, false_and, and_false,
      if_true, if_false, ite_self, List.append_nil]
  lost lossy := by
    simp only [Lossless, leaving] at lossy
    have running : conn.relay.running = true := by
      cases place : conn.relay <;> simp_all [Relay.held, Relay.running]
    have live := sound.downstream running (by rw [leaving]; rfl)
    have filled := List.length_pos_iff.mpr lossy
    simp only [accounted, pending, running, live, and_self, if_true, List.length_append,
      Sock.shutdown, reduceCtorEq, and_false, if_false, List.length_nil]
    omega

/-- A step of the machine. -/
theorem flows_step (sound : Sound conn) (effect : Effect cfg conn action next) :
    ∃ gained, Flows cfg conn action next gained := by
  cases effect with
  | serverSent filled going => exact ⟨_, flows_serverSent sound filled⟩
  | serverGot => exact ⟨[], flows_nil trivial rfl (accounted_congr rfl rfl ⟨rfl, rfl⟩ rfl rfl rfl rfl)⟩
  | serverClosed going =>
      refine ⟨[], flows_drop (conn.unread ≠ []) sound rfl Iff.rfl ?_⟩
      have came : coming cfg { conn with
          serverClosed := true
          inFlight := resetIf (conn.unread ≠ []) conn.inFlight } = resetIf (conn.unread ≠ []) (conn.coming cfg) :=
        coming_resetIf rfl rfl rfl
      rw [accounted, pending, came]
      rfl
  | arrived filled live positive => exact ⟨[], flows_nil trivial rfl (accounted_arrived live)⟩
  | refused filled unable => exact ⟨[], flows_nil trivial rfl (accounted_refused unable)⟩
  | @clientSent bytes =>
      refine ⟨[], flows_resetIf (bytes ≠ [] ∧ conn.handler.open = false) rfl ?_ rfl rfl⟩
      simp only [Lossless, and_imp]
  | clientGot filled positive =>
      refine ⟨[], flows_nil trivial rfl ?_⟩
      simp only [accounted, pending, readable, coming, List.append_assoc]
      rw [← List.append_assoc (conn.queued.take _), List.take_append_drop]
  | clientFinished => exact ⟨[], flows_nil trivial rfl (accounted_congr rfl rfl ⟨rfl, rfl⟩ rfl rfl rfl rfl)⟩
  | ticked =>
      refine ⟨[], flows_nil trivial rfl (accounted_congr rfl rfl ?_ rfl rfl rfl rfl)⟩
      exact ⟨Relay.running_tick _, Relay.held_tick _⟩
  | stopped receiving nothing =>
      exact ⟨[], flows_nil trivial rfl (accounted_stopped receiving nothing)⟩
  | timedOut receiving nothing =>
      refine ⟨[], flows_drop True sound rfl (by simp only [Lossless, true_imp_iff]) ?_⟩
      rw [accounted, pending, if_neg (by simp [Relay.running]), nothing, receiving, resetIf]
      simp [Relay.held]
  | received receiving open_ filled positive =>
      exact ⟨[], flows_nil trivial rfl (accounted_received receiving open_)⟩
  | delivered sending live positive =>
      exact ⟨[], flows_nil trivial rfl (accounted_delivered sending live)⟩
  | failed sending unable =>
      refine ⟨[], flows_nil trivial rfl ?_⟩
      simp only [accounted, pending, unable, and_false, if_false]
  | finished stopping =>
      refine ⟨[], flows_nil trivial rfl ?_⟩
      simp [accounted, pending, stopping, Relay.running]
  | @served count fails place next requests serving next_eq =>
      refine ⟨[], flows_drop (conn.serverClosed = true ∧ place.forwarded count fails ≠ []) sound rfl ?_ ?_⟩
      · simp only [Lossless, serving, and_imp]
      · have came : coming cfg { conn with
            requests := requests
            unread := conn.unread ++ place.forwarded count fails
            inFlight := resetIf (conn.serverClosed ∧ place.forwarded count fails ≠ []) conn.inFlight
            handler := next } =
            resetIf (conn.serverClosed ∧ place.forwarded count fails ≠ []) (conn.coming cfg) :=
          coming_resetIf rfl rfl rfl
        rw [accounted, pending, came]
        rfl
  | shutUp leaving =>
      have live : conn.upstream = .live := sound.upstream.trans (by rw [leaving]; rfl)
      refine ⟨[], flows_drop True sound rfl (by simp only [Lossless, leaving, true_imp_iff]) ?_⟩
      simp [accounted, pending, readable, coming, live, Sock.shutdown, resetIf]
  | closedUp leaving => exact ⟨[], flows_closedUp sound leaving⟩
  | shutDown leaving => exact ⟨[], flows_shutDown sound leaving⟩
  | closedDown leaving =>
      have unable := sound.shut (by rw [leaving]; rfl)
      refine ⟨[], @flows_resetIf cfg conn _ _ (conn.requests ≠ []) _ conn.delivered conn.queued [] rfl ?_ ?_ ?_⟩
      · simp only [Lossless, leaving]
      · simp only [accounted, pending, unable, and_false, if_false]
      · simp only [accounted, pending, reduceCtorEq, and_false, if_false]

/-! ### Work -/

theorem length_resetIf_le (reset : Bool) (queued : Bytes) :
    (resetIf reset queued).length ≤ queued.length := by
  cases reset <;> simp [resetIf]

/-- Once the server has closed, every arrival, every step of the relay and every read of the client lowers the
work, and no step adds to it. -/
theorem work_step (closed : conn.serverClosed = true) (effect : Effect cfg conn action next) :
    next.serverClosed = true ∧ (if action.forwards then 1 else 0) + next.work ≤ conn.work := by
  cases effect with
  | serverSent filled going => simp [closed] at going
  | serverGot => exact ⟨closed, by simp [Action.forwards, work, relayWork]⟩
  | serverClosed going => simp [closed] at going
  | arrived filled live positive =>
      have length := List.length_pos_iff.mpr filled
      refine ⟨closed, ?_⟩
      simp only [Action.forwards, work, relayWork, List.length_drop, List.length_append, List.length_take, if_true]
      split <;> omega
  | refused filled unable =>
      have length := List.length_pos_iff.mpr filled
      refine ⟨closed, ?_⟩
      simp only [Action.forwards, work, relayWork, List.length_nil, if_true]
      omega
  | clientSent =>
      refine ⟨closed, ?_⟩
      simp only [Action.forwards, work, relayWork]
      grind [length_resetIf_le]
  | clientGot filled positive =>
      have length := List.length_pos_iff.mpr filled
      refine ⟨closed, ?_⟩
      simp only [Action.forwards, work, relayWork, List.length_drop, if_true]
      omega
  | clientFinished => exact ⟨closed, by simp [Action.forwards, work, relayWork]⟩
  | ticked =>
      refine ⟨closed, ?_⟩
      cases place : conn.relay <;> simp [Action.forwards, work, relayWork, Relay.tick, place]
  | stopped receiving nothing =>
      refine ⟨closed, ?_⟩
      simp only [Action.forwards, work, relayWork, receiving, if_true]
      omega
  | timedOut receiving nothing =>
      refine ⟨closed, ?_⟩
      simp [Action.forwards, work, relayWork, receiving]
  | received receiving open_ filled positive =>
      have length := List.length_pos_iff.mpr filled
      refine ⟨closed, ?_⟩
      simp only [Action.forwards, work, relayWork, receiving, List.length_drop, List.length_take,
        if_true]
      omega
  | @delivered count size held sending live positive =>
      refine ⟨closed, ?_⟩
      by_cases all : held.drop size = []
      · have within := List.drop_eq_nil_iff.mp all
        simp only [Action.forwards, work, relayWork, sending, all, List.length_append,
          List.length_take, if_true]
        omega
      · have length := List.length_pos_iff.mpr all
        simp only [Action.forwards, work, relayWork, sending, if_neg all, List.length_append,
          List.length_take, List.length_drop, if_true] at length ⊢
        omega
  | failed sending unable =>
      refine ⟨closed, ?_⟩
      simp only [Action.forwards, work, relayWork, sending, if_true]
      omega
  | finished stopping =>
      refine ⟨closed, ?_⟩
      simp only [Action.forwards, work, relayWork, stopping, if_true]
      omega
  | served serving next_eq =>
      refine ⟨closed, ?_⟩
      simp only [Action.forwards, work, relayWork]
      grind [length_resetIf_le]
  | shutUp leaving => exact ⟨closed, by simp [Action.forwards, work, relayWork]⟩
  | closedUp leaving => exact ⟨closed, by simp [Action.forwards, work, relayWork]⟩
  | shutDown leaving => exact ⟨closed, by simp [Action.forwards, work, relayWork]⟩
  | closedDown leaving =>
      refine ⟨closed, ?_⟩
      simp only [Action.forwards, work, relayWork]
      grind [length_resetIf_le]

/-- What is in flight arrives, if only at a socket that is shut. -/
theorem arrive_enabled {count : ℕ} (filled : conn.inFlight ≠ []) : ∃ next, conn.step cfg (.arrive count) = some next := by
  simp only [step, if_neg filled]
  split <;> exact ⟨_, rfl⟩

/-- The relay waits for nothing but the server, and what is coming from it. -/
theorem relay_enabled (cfg : Settings) {count : ℕ} (closed : conn.serverClosed = true) (landed : conn.inFlight = [])
    (going : conn.relay ≠ .done) : ∃ next, conn.step cfg (.relay count) = some next := by
  rw [← Option.isSome_iff_exists]
  show (conn.relayStep cfg count).isSome = true
  fun_cases relayStep cfg conn count with
  | case1 => rfl
  | case2 => rfl
  | case3 => rfl
  | case4 ticks receiving open_ nothing waiting => exact absurd (Or.inl ⟨closed, landed⟩) waiting
  | case5 => rfl
  | case6 => rfl
  | case7 => rfl
  | case8 done => exact absurd done going

end Relayed

/-! ### Runs -/

theorem sound_start : Sound Conn.start := ⟨rfl, fun _ _ => rfl, by simp [Conn.start, Handler.open]⟩

section Runs

variable {cfg : Settings} {actions : List Action} {conn : Conn}

/-- Everything is accounted for after the lossless runs, and after no other. -/
theorem lossless_iff (ran : run (Conn.step cfg) Conn.start actions = some conn) :
    Along (Conn.step cfg) (Lossless cfg) Conn.start actions ↔ conn.accounted cfg = conn.sent := by
  refine along_iff_final Sound (fun conn => conn.accounted cfg = conn.sent)
    (fun conn => Sound conn ∧ (conn.accounted cfg).length < conn.sent.length)
    ⟨sound_start, ?_⟩ ?_ ?_ ?_ ?_ ?_ ran
  · simp [accounted, pending, readable, coming, Conn.start, Relay.held]
  · exact fun conn action next sound moved => sound_step sound (effect_of_step moved)
  · intro conn action next sound good lossless moved
    obtain ⟨gained, flows⟩ := @flows_step cfg _ _ _ sound (effect_of_step moved)
    rw [flows.kept lossless, flows.sent, good]
  · intro conn action next sound good lossy moved
    obtain ⟨gained, flows⟩ := @flows_step cfg _ _ _ sound (effect_of_step moved)
    refine ⟨sound_step sound (effect_of_step moved), ?_⟩
    have less := flows.lost lossy
    rw [flows.sent, List.length_append, ← good]
    exact less
  · rintro conn action next ⟨sound, missing⟩ moved
    obtain ⟨gained, flows⟩ := @flows_step cfg _ _ _ sound (effect_of_step moved)
    refine ⟨sound_step sound (effect_of_step moved), ?_⟩
    rw [flows.sent, List.length_append]
    by_cases lossless : conn.Lossless cfg action
    · rw [flows.kept lossless, List.length_append]
      omega
    · have less := flows.lost lossless
      omega
  · rintro conn good ⟨-, missing⟩
    rw [good] at missing
    omega

end Runs

/-- The client gets all that the server has sent, in order, by the time the relay has ended and the client
has read what there is, in the runs whose steps are lossless. The other runs lose something: not
everything that was sent is delivered or on its way. In every run what is in flight can arrive, the relay
can go on once the server has closed and all has arrived, and the client can read while there is
something for it; all this ends after a bounded number of steps. -/
theorem replies_relayed (cfg : Settings) {actions : List Action} {conn : Conn}
    (ran : run (Conn.step cfg) Conn.start actions = some conn) :
    (Along (Conn.step cfg) (Lossless cfg) Conn.start actions ↔
        conn.delivered ++ (conn.queued ++ conn.pending cfg) = conn.sent) ∧
      (Along (Conn.step cfg) (Lossless cfg) Conn.start actions → conn.relay = .done →
        conn.queued = [] → conn.delivered = conn.sent) ∧
      (conn.inFlight ≠ [] → ∃ next, conn.step cfg (.arrive 1) = some next) ∧
      (conn.serverClosed = true → conn.inFlight = [] → conn.relay ≠ .done →
        ∃ next, conn.step cfg (.relay 1) = some next) ∧
      (conn.queued ≠ [] → ∃ next, conn.step cfg (.clientRecv 1) = some next) ∧
      (conn.serverClosed = true → ∀ later final, run (Conn.step cfg) conn later = some final →
        later.countP Action.forwards + final.work ≤ conn.work) := by
  refine ⟨lossless_iff ran, fun lossless done empty => ?_, arrive_enabled, relay_enabled cfg, ?_, ?_⟩
  · have all := (lossless_iff ran).mp lossless
    rwa [accounted, pending, done, if_neg (by simp [Relay.running]), empty, List.append_nil,
      List.append_nil] at all
  · exact fun filled => ⟨_, if_pos filled⟩
  · intro closed later final onwards
    exact countP_le_rank (fun _ _ _ closed moved => work_step closed (effect_of_step moved)) closed
      onwards

/-! ### Lost replies -/

/-- The adapter's own constants; two ticks for the timeout. -/
def defaults : Settings where
  maxFrameSize := 16 * 1024 * 1024
  serviceName := ""
  connId := 1
  bufferSize := 65536
  timeout := 2

/-- The client sends a frame and finishes; the handler forwards the frame and closes both sockets; the
server answers. -/
def halfClosed : List Action :=
  [.clientSend [0, 0, 0, 1, 7], .clientFinish, .handler 4 false, .handler 1 false,
    .handler 0 false, .handler 0 false, .handler 0 false, .handler 0 false, .handler 4 false,
    .handler 0 false, .handler 0 false, .serverRecv 5, .serverSend [9], .serverClose, .arrive 1,
    .handler 0 false, .handler 0 false, .relay 1, .relay 1]

/-- The server answers after the timeout. -/
def paused : List Action :=
  [.tick, .tick, .relayTimeout, .relay 1, .serverSend [9], .arrive 1, .serverClose]

/-- The client sends a frame and, once the server has answered, one of no length and another byte: the
handler ends its loop and closes both sockets with the byte unread, and the answer on its way. -/
def invalidFrame : List Action :=
  [.clientSend [0, 0, 0, 1, 7], .handler 4 false, .handler 1 false, .handler 0 false,
    .handler 0 false, .handler 0 false, .handler 0 false, .serverRecv 5, .serverSend [9], .serverClose,
    .arrive 1, .relay 1, .relay 1, .clientSend [0, 0, 0, 0, 5], .handler 4 false, .handler 0 false, .handler 0 false,
    .handler 0 false, .handler 0 false, .relay 1, .relay 1]

/-- The server's answer never reaches a client that has finished, that had to wait, or whose connection is
reset. -/
theorem reply_lost :
    (∃ conn, run (Conn.step defaults) Conn.start halfClosed = some conn ∧ conn.serverClosed = true ∧
      conn.relay = .done ∧ conn.sent = [9] ∧ conn.queued = [] ∧ conn.delivered = []) ∧
    (∃ conn, run (Conn.step defaults) Conn.start paused = some conn ∧ conn.serverClosed = true ∧
      conn.relay = .done ∧ conn.sent = [9] ∧ conn.queued = [] ∧ conn.delivered = []) ∧
    (∃ conn, run (Conn.step defaults) Conn.start invalidFrame = some conn ∧
      conn.serverClosed = true ∧ conn.relay = .done ∧ conn.sent = [9] ∧ conn.queued = [] ∧
      conn.delivered = []) :=
  ⟨⟨_, rfl, rfl, rfl, rfl, rfl, rfl⟩, ⟨_, rfl, rfl, rfl, rfl, rfl, rfl⟩,
    ⟨_, rfl, rfl, rfl, rfl, rfl, rfl⟩⟩

/-- The server answers in two parts and closes before the client, which reads on, finishes. -/
def answered : List Action :=
  [.clientSend [0, 0, 0, 1, 7], .handler 4 false, .handler 1 false, .handler 0 false,
    .handler 0 false, .handler 0 false, .handler 0 false, .serverRecv 5, .serverSend [9], .tick, .arrive 1,
    .relay 9, .relay 9, .clientRecv 1, .serverSend [8, 6], .serverClose, .arrive 2, .relay 9, .relay 1, .relay 9,
    .clientFinish, .relay 1, .relay 1, .handler 4 false, .clientRecv 1, .handler 0 false,
    .handler 0 false, .handler 0 false, .handler 0 false, .clientRecv 1]

theorem replies_relayed_sample : ∃ conn,
    run (Conn.step defaults) Conn.start answered = some conn ∧ conn.relay = .done ∧
      (Along (Conn.step defaults) (Lossless defaults) Conn.start answered ↔
        conn.delivered ++ (conn.queued ++ conn.pending defaults) = conn.sent) ∧
      conn.delivered = conn.sent ∧ conn.sent = [9, 8, 6] := by
  refine ⟨_, rfl, rfl, (@replies_relayed defaults answered _ rfl).1, ?_, rfl⟩
  have all := (@replies_relayed defaults answered _ rfl).1
  exact (@replies_relayed defaults answered _ rfl).2.1 (all.mpr rfl) rfl rfl

end Mcoz.Thrift
