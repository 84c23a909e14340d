/-
`/consume_policy` on a cluster of control APIs.

A node that receives the request takes its `LOCK`, asks its own daemon, and if that does not answer ok
it posts the policy to one peer after the other until one does. The peers run the same handler. The
header that marks a forwarded request is sent (`_post_json`), and the handler does not look at it.

A request is known by its place in the list of all requests sent. The network and the timeouts are
the environment's: a request may never be received, and a caller may give up at any time on one that
its receiver still serves. What a daemon answers and which peers kubectl finds are arguments of a step.
-/

import Mathlib.Data.Int.Notation
import Mathlib.Data.List.Nodup
import Mathlib.Logic.Function.Basic

set_option autoImplicit false

namespace Mcoz.Cluster

/-! ### Parameters -/

/-- A policy that the handler accepts. -/
structure Policy where
  ns : String
  pod : String
  container : String
  rawFlags : ℤ
  ns_ne : ns ≠ ""
  pod_ne : pod ≠ ""
  rawFlags_pos : 0 < rawFlags

/-- The parameters of a request: `raw_flags` as `_to_int` reads it, the items of `consume_paths`. -/
structure PolicyParams where
  ns : String
  pod : String
  container : String
  rawFlags : Option ℤ
  consumePaths : List String
deriving DecidableEq

/-- `CONSUME_PATH_FLAGS`. -/
def consumePathFlags (name : String) : Option ℕ :=
  if name = "recvfrom" then some 1
  else if name = "recvmsg" then some 2
  else if name = "recvmmsg" then some 4
  else if name = "read" then some 8
  else if name = "readv" then some 16
  else if name = "pread64" then some 32
  else if name = "io_uring" then some 64
  else none

/-- The loop of `_consume_paths_to_flags`. -/
def consumePathsToFlags : List String → ℕ → Except String ℕ
  | [], flags => .ok flags
  | raw :: rest, flags =>
      let name := raw.map Char.toLower
      if name = "" ∨ name = "none" then consumePathsToFlags rest flags
      else
        match consumePathFlags name with
        | none => .error ("unknown consume path: " ++ name)
        | some flag => consumePathsToFlags rest (flags ||| flag)

/-- The handler's check of the fields. -/
def PolicyParams.accept (params : PolicyParams) (rawFlags : ℤ) : Except String Policy :=
  if present : params.ns ≠ "" ∧ params.pod ≠ "" ∧ 0 < rawFlags then
    .ok ⟨params.ns, params.pod, params.container, rawFlags, present.1, present.2.1, present.2.2⟩
  else .error "missing namespace/pod/raw_flags"

/-- The first part of `_handle_consume_policy`: the policy, or the error of a 400. -/
def PolicyParams.policy (params : PolicyParams) : Except String Policy :=
  match params.rawFlags with
  | some rawFlags => params.accept rawFlags
  | none =>
      match consumePathsToFlags params.consumePaths 0 with
      | .ok flags => params.accept flags
      | .error text => .error text

/-- The payload of a peer request. -/
def Policy.params (policy : Policy) : PolicyParams where
  ns := policy.ns
  pod := policy.pod
  container := policy.container
  rawFlags := some policy.rawFlags
  consumePaths := []

/-! ### State -/

variable {ν : Type} [DecidableEq ν]

/-- A request that was sent: its receiver, whether it has the header `X-MCOZ-Forwarded`, the request
whose handler sent it, and the client's request that it was sent for. -/
structure Request (ν : Type) where
  node : ν
  forwarded : Bool
  caller : Option ℕ
  origin : ℕ
  params : PolicyParams
deriving DecidableEq

/-- Where the handler of a request is. From `asking` until its reply it holds `LOCK`. -/
inductive Phase (ν : Type)
  | sent
  | waiting (policy : Policy)
  | asking (policy : Policy)
  | fanning (policy : Policy) (rest : List ν)
  | awaiting (policy : Policy) (rest : List ν) (peer : ℕ)
  | replied (ok : Bool)

/-- The requests, their handlers, the peers that each handler found, and the locks of the nodes. -/
structure State (ν : Type) where
  requests : List (Request ν)
  phase : ℕ → Phase ν
  peers : ℕ → List ν
  locked : ν → Bool

/-- The nodes before any request. -/
def State.init (ν : Type) : State ν where
  requests := []
  phase := fun _ => .sent
  peers := fun _ => []
  locked := fun _ => false

/-- What `_peer_ips` returns: the sorted set of the addresses that kubectl prints. -/
structure PeerIps (ν : Type) where
  ips : List ν
  nodup : ips.Nodup

/-- The addresses that `_consume_policy_distributed` does not skip: `POD_IP` is skipped if the node
has it. -/
def others (knowsIp : ν → Bool) (node : ν) (found : PeerIps ν) : List ν :=
  found.ips.filter fun ip => !(knowsIp node && ip == node)

/-! ### Steps -/

/-- What happens. -/
inductive Action (ν : Type)
  | client (node : ν) (params : PolicyParams)
  | receive (id : ℕ)
  | lock (id : ℕ)
  | daemon (id : ℕ) (ok : Bool) (found : PeerIps ν)
  | forward (id : ℕ)
  | reply (id : ℕ)
  | giveUp (id : ℕ)

namespace State

/-- The state after a handler moved. -/
def move (state : State ν) (id : ℕ) (phase : Phase ν) : State ν :=
  { state with phase := Function.update state.phase id phase }

/-- The state after one more request was sent. -/
def send (state : State ν) (request : Request ν) : State ν :=
  { state with requests := state.requests ++ [request] }

/-- The state after a handler took or released the lock of its node. -/
def setLock (state : State ν) (node : ν) (held : Bool) : State ν :=
  { state with locked := Function.update state.locked node held }

/-- The handler sends its reply and releases the lock. -/
def finish (state : State ν) (id : ℕ) (node : ν) (ok : Bool) : State ν :=
  (state.move id (.replied ok)).setLock node false

/-- The handler goes on with the peers. -/
def fanOut (state : State ν) (id : ℕ) (policy : Policy) (peers : List ν) : State ν :=
  { state.move id (.fanning policy peers) with
    peers := Function.update state.peers id peers }

end State

/-- One step. `knowsIp` says which nodes have `POD_IP`. -/
def step (knowsIp : ν → Bool) (state : State ν) : Action ν → Option (State ν)
  | .client node params =>
      some (state.send ⟨node, false, none, state.requests.length, params⟩)
  | .receive id =>
      match state.requests[id]?, state.phase id with
      | some request, .sent =>
          match request.params.policy with
          | .error _ => some (state.move id (.replied false))
          | .ok policy => some (state.move id (.waiting policy))
      | _, _ => none
  | .lock id =>
      match state.requests[id]?, state.phase id with
      | some request, .waiting policy =>
          if state.locked request.node then none
          else some ((state.move id (.asking policy)).setLock request.node true)
      | _, _ => none
  | .daemon id ok found =>
      match state.requests[id]?, state.phase id with
      | some request, .asking policy =>
          if ok then some (state.finish id request.node true)
          else some (state.fanOut id policy (others knowsIp request.node found))
      | _, _ => none
  | .forward id =>
      match state.requests[id]?, state.phase id with
      | some request, .fanning _ [] => some (state.finish id request.node false)
      | some request, .fanning policy (ip :: rest) =>
          some ((state.send ⟨ip, true, some id, request.origin, policy.params⟩).move id
            (.awaiting policy rest state.requests.length))
      | _, _ => none
  | .reply id =>
      match state.requests[id]?, state.phase id with
      | some request, .awaiting policy rest peer =>
          match state.phase peer with
          | .replied true => some (state.finish id request.node true)
          | .replied false => some (state.move id (.fanning policy rest))
          | _ => none
      | _, _ => none
  | .giveUp id =>
      match state.requests[id]?, state.phase id with
      | some _, .awaiting policy rest _ => some (state.move id (.fanning policy rest))
      | _, _ => none

end Mcoz.Cluster
