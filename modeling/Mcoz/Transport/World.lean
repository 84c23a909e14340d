/-
One gate, the control API and one daemon.

The gate's arm requests go to the control API over `ARM_HTTP_CONN`, one at a time under
`ARM_HTTP_LOCK`: that hop is a link. The control API sends each request that it accepts to the daemon on
a connection of its own, and the daemon does what `handleRequest` says with the bytes that it received.
Both hops lose and delay what they carry: the gate may fail at any time (a timeout, a refused or reset
connection), the control API may give up on a request that the daemon still serves, and a connection to
the daemon may end before the request is read or answered. The time that a handler waits for `LOCK` is
part of the time before its request is sent. The daemon's other clients and its own threads are the
engine's other actions.
-/

import Mcoz.Lib.Link
import Mcoz.PyGate.Program
import Mcoz.Control.LocalArm
import Mcoz.Daemon.Arm

set_option autoImplicit false

namespace Mcoz.Transport

open Word PyGate Control Daemon

/-! ### State -/

/-- A reply of the control API. -/
structure ApiReply where
  status : ℕ
  body : String
deriving DecidableEq

/-- What `_arm_transport_post` returns for a reply. -/
def ApiReply.result (reply : ApiReply) : ArmResult :=
  ⟨200 ≤ reply.status && reply.status < 300, some reply.status, reply.body⟩

/-- What `_arm_transport_post` returns after an exception. -/
def failure (text : String) : ArmResult :=
  ⟨false, none, text⟩

/-- The request to the daemon for an exchange: not sent, sent, answered by the daemon, or on a
connection that ended while the daemon read. -/
inductive Forward
  | unsent
  | sent (req : Bytes)
  | served (reply : HttpReply)
  | lost
deriving DecidableEq

/-- The three processes and what is between them. -/
structure World where
  gate : GatePool
  link : Link.State ArmCall ApiReply
  forwards : ℕ → Forward
  engine : Engine

/-- New processes. -/
def World.init (gate : Gate) (defaultDelayNs : UInt64) : World where
  gate := Threads.Pool.init gate
  link := Link.init
  forwards := fun _ => .unsent
  engine := Engine.init defaultDelayNs

/-! ### Steps -/

/-- What happens. -/
inductive Step
  | gate (move : GateMove)
  | acquire (thread : ℕ)
  | post
  | handle (index : ℕ) (body : String)
  | serve (index : ℕ) (chunks : List Bytes) (found : Option (UInt64 × Bytes))
      (updates : ArmUpdates)
  | reply (index : ℕ) (accepted : Bool) (body : String)
  | giveUp (index : ℕ) (body : String)
  | receive (closes : Bool)
  | fail (text : String)
  | engine (action : Engine.Action)

/-- The arm request that a thread of the gate has to send. -/
def armCall (pool : GatePool) (thread : ℕ) : Option ArmCall :=
  match pool.threads thread with
  | some (.call (.arm call) _) => some call
  | _ => none

theorem armCall_eq_some_iff {pool : GatePool} {thread : ℕ} {call : ArmCall} :
    armCall pool thread = some call ↔ ∃ rest, pool.threads thread = some (.call (.arm call) rest) := by
  constructor
  · intro here
    unfold armCall at here
    split at here
    · rename_i located
      cases here
      exact ⟨_, located⟩
    · cases here
  · intro located
    obtain ⟨rest, located⟩ := located
    rw [armCall, located]

/-- A step of the gate that is not the answer to an arm request. -/
def Inside (pool : GatePool) : GateMove → Bool
  | .answer thread _ => (armCall pool thread).isNone
  | _ => true

/-- The answer to an arm request. -/
def armAnswer (result : ArmResult) : (request : Call) → Answer request
  | .time => (0 : ℚ)
  | .arm _ => some result

/-- What `recv` returns: what the control API sent, at most a buffer at a time. -/
def Received (chunks : List Bytes) (req : Bytes) : Prop :=
  chunks.flatten <+: req ∧ ∀ chunk ∈ chunks, 0 < chunk.length ∧ chunk.length ≤ 4096

instance (chunks : List Bytes) (req : Bytes) : Decidable (Received chunks req) :=
  inferInstanceAs (Decidable (_ ∧ _))

/-- The engine after the action of a handler, if it has one. -/
def performed (engine : Engine) : Option Engine.Action → Option Engine
  | none => some engine
  | some action => engine.step action

/-- The reply goes to the control API, unless the connection ended. -/
def afterServe (ending : ReceiveEnd) (reply : HttpReply) : Forward :=
  match ending with
  | .closed => .lost
  | _ => .served reply

theorem afterServe_closed (reply : HttpReply) : afterServe .closed reply = .lost := rfl

theorem afterServe_open {ending : ReceiveEnd} (open_ : ending ≠ .closed) (reply : HttpReply) :
    afterServe ending reply = .served reply := by
  cases ending with
  | closed => exact absurd rfl open_
  | _ => rfl

namespace World

/-- A reply of the control API to an exchange. -/
def answer (world : World) (index : ℕ) (reply : ApiReply) : Option World :=
  (world.link.step (.reply index reply)).map fun link => { world with link := link }

/-- The thread that holds `ARM_HTTP_LOCK` returns from `_arm_transport_post`. -/
def resolve (cfg : Config) (world : World) (thread : ℕ) (result : ArmResult)
    (event : Link.Event ArmCall ApiReply) : Option World :=
  (world.link.step event).bind fun link =>
    (PyGate.step cfg world.gate (.answer thread (armAnswer result))).map fun gate =>
      { world with gate := gate, link := link }

/-- `handle`: `_handle_arm` answers a request at once or sends it to the daemon. -/
def handle (client : HttpClient) (world : World) (index : ℕ) (body : String) : Option World :=
  match world.link.exchanges[index]?, world.forwards index with
  | some exchange, .unsent =>
      match handleArm client exchange.request with
      | none => world.answer index ⟨400, body⟩
      | some req => some { world with forwards := Function.update world.forwards index (.sent req) }
  | _, _ => none

/-- `serve`: the daemon reads a request as far as `recv` returns it, and handles what it read. -/
def serve (world : World) (index : ℕ) (chunks : List Bytes) (found : Option (UInt64 × Bytes))
    (updates : ArmUpdates) : Option World :=
  match world.forwards index with
  | .sent req =>
      if Received chunks req then
        let received := recvHttpRequest [] chunks
        let handled := handleRequest world.engine received.1 found updates
        (performed world.engine handled.1).map fun engine =>
          { world with
            engine := engine
            forwards :=
              Function.update world.forwards index (afterServe received.2 handled.2) }
      else none
  | _ => none

/-- One step. -/
def step (cfg : Config) (client : HttpClient) (world : World) : Step → Option World
  | .gate move =>
      if Inside world.gate move then
        (PyGate.step cfg world.gate move).map fun gate => { world with gate := gate }
      else none
  | .acquire thread =>
      match armCall world.gate thread with
      | some _ => (world.link.step (.acquire thread)).map fun link => { world with link := link }
      | none => none
  | .post =>
      match world.link.holder with
      | some (thread, none) =>
          match armCall world.gate thread with
          | some call => (world.link.step (.post call)).map fun link => { world with link := link }
          | none => none
      | _ => none
  | .handle index body => world.handle client index body
  | .serve index chunks found updates => world.serve index chunks found updates
  | .reply index accepted body =>
      match world.forwards index with
      | .served reply => world.answer index ⟨armStatus (localArmOk reply.status accepted), body⟩
      | _ => none
  | .giveUp index body =>
      match world.forwards index with
      | .unsent => none
      | _ => world.answer index ⟨armStatus false, body⟩
  | .receive closes =>
      match world.link.holder, world.link.next with
      | some (thread, some _), some reply =>
          world.resolve cfg thread reply.result (.receive closes)
      | _, _ => none
  | .fail text =>
      match world.link.holder with
      | some (thread, _) => world.resolve cfg thread (failure text) .fail
      | none => none
  | .engine action => (world.engine.step action).map fun engine => { world with engine := engine }

end World

/-! ### Observations -/

/-- The engine's action in a step. -/
def actions (world : World) : Step → List Engine.Action
  | .serve _ chunks found updates =>
      (handleRequest world.engine (recvHttpRequest [] chunks).1 found updates).1.toList
  | .engine action => [action]
  | _ => []

/-- The credits of an arm request that a step answers ok, in the thread that sent it. -/
def okCredits (world : World) : Step → List ℕ
  | .receive _ =>
      match world.link.holder, world.link.next with
      | some (thread, _), some reply =>
          match armCall world.gate thread with
          | some call => if reply.result.ok then [call.count.toNat] else []
          | none => []
      | _, _ => []
  | _ => []

end Mcoz.Transport
