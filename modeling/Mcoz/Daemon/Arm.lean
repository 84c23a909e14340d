/-
The control server of the daemon: the `/arm` endpoint.

`parse_request_arm_from_map` turns the parameters of a request into an arm of the engine, and
`handleArm` is the part of `clear_http_server_loop` that a request for `/arm` runs through.
-/

import Mcoz.Daemon.Http
import Mcoz.Engine.Step

set_option autoImplicit false

namespace Mcoz.Daemon

open Word Text

/-! ### Parameters -/

/-- `parse_uint64_param`. -/
def parseUint64Param (text : Bytes) : Option UInt64 :=
  if text = [] then none
  else (strtoull text).bind fun parsed =>
    if parsed.2 = cString text ∨ parsed.2 ≠ [] then none else some parsed.1

/-- `parse_int64_param`. -/
def parseInt64Param (text : Bytes) : Option Int64 :=
  if text = [] then none
  else (strtoll text).bind fun parsed =>
    if parsed.2 = cString text ∨ parsed.2 ≠ [] then none else some parsed.1

/-- The first parameter unless it is empty, else the second. -/
def mapGetOr (params : Params) (key other : Bytes) : Bytes :=
  if mapGet params key = [] then mapGet params other else mapGet params key

/-- A number that may be missing: its default if the text is empty. -/
def parseOr {ν : Type} (parse : Bytes → Option ν) (missing : ν) (text : Bytes) : Option ν :=
  if text = [] then some missing else parse text

/-- The error of a request: the text of `error_json`. -/
def errorJson (message : String) : Bytes :=
  ascii "\x7b\"ok\":false,\"error\":\"" ++ ascii message ++ ascii "\"\x7d"

/-- `parse_request_arm_from_map`. -/
def parseRequestArmFromMap (q : Params) : Except Bytes RequestArmRequest :=
  match parseOr parseUint64Param 0 (mapGetOr q (ascii "delay_ns") (ascii "delayNs")) with
  | none => .error (errorJson "invalid delay_ns")
  | some delayNs =>
      match parseOr parseInt64Param 1 (mapGet q (ascii "count")) with
      | none => .error (errorJson "invalid count")
      | some count =>
          let arm : RequestArmRequest := {
            ns := mapGetOr q (ascii "namespace") (ascii "ns")
            pod := mapGet q (ascii "pod")
            container :=
              if mapGet q (ascii "container") = [] then ascii "app"
              else mapGet q (ascii "container")
            source := mapGetOr q (ascii "source") (ascii "source_id")
            delayNs := delayNs
            count := count }
          if arm.ns = [] ∨ arm.pod = [] then
            .error (errorJson "namespace and pod are required")
          else .ok arm

/-! ### The handler -/

/-- A reply of the control server. -/
structure HttpReply where
  status : ℕ
  body : Bytes
deriving DecidableEq

/-- Where a request goes: nowhere, to another endpoint, or to `/arm`, with its parsed parameters. -/
inductive ArmRoute
  | badRequest
  | other
  | arm (parsed : Except Bytes RequestArmRequest)

/-- The parameters of a request, of its query and of its body. -/
def requestParams (req query : Bytes) : Params :=
  mergeBodyParams (parseHttpHeadersAndBody req).1 (parseHttpHeadersAndBody req).2
    (parseQueryMap query)

/-- The way of a request through `clear_http_server_loop` up to `request_credit_arm`. -/
def armRoute (req : Bytes) : ArmRoute :=
  match parseHttpMethodPath req with
  | none => .badRequest
  | some (_, path) =>
      if (splitPathQuery path).1 = ascii "/arm" then
        .arm (parseRequestArmFromMap (requestParams req (splitPathQuery path).2))
      else .other

/-- What a received request does to the engine, and the reply to it. A request that was cut off in
its path asks for no endpoint. -/
def handleRequest (engine : Engine) (req : Bytes) (found : Option (UInt64 × Bytes))
    (updates : ArmUpdates) : Option Engine.Action × HttpReply :=
  match armRoute req with
  | .badRequest => (none, ⟨400, ascii "bad request\n"⟩)
  | .other => (none, ⟨404, ascii "not found\n"⟩)
  | .arm parsed =>
      if engine.active = false then (none, ⟨409, errorJson "request-credit mode is not active"⟩)
      else
        match parsed with
        | .error error => (none, ⟨400, error⟩)
        | .ok arm =>
            let reply := (engine.arm arm found updates).2
            (some (.arm arm found updates), ⟨if reply.ok then 200 else 500, reply.responseJson⟩)

/-- A reply of success is the reply to an arm that the engine made. -/
theorem handleRequest_success {engine : Engine} {req : Bytes} {found : Option (UInt64 × Bytes)}
    {updates : ArmUpdates} (success : (handleRequest engine req found updates).2.status < 300) :
    ∃ arm, armRoute req = .arm (.ok arm) ∧ (engine.arm arm found updates).2.ok = true ∧
      (handleRequest engine req found updates).1 = some (.arm arm found updates) := by
  revert success
  fun_cases handleRequest engine req found updates with
  | case5 active arm reply route =>
      intro success
      refine ⟨arm, route, ?_, rfl⟩
      by_contra failed
      simp [reply, failed] at success
  | _ =>
      intro success
      simp at success

end Mcoz.Daemon
