/-
The control API: from the arm request of a gate to the request to the daemon.

`_handle_arm` checks the parameters and `_local_arm` sends them on, as the JSON text that `json.dumps`
writes (ASCII only) in the request that `urllib` writes. A gate's request is JSON too, written and
read by the same library, so the parameters are the values of the gate's payload.
-/

import Mcoz.PyGate.Program
import Mcoz.Lib.Word

set_option autoImplicit false

namespace Mcoz.Control

open Word PyGate

/-! ### JSON texts -/

/-- A hexadecimal digit in lower case. -/
def hexDigit (digit : ℕ) : UInt8 :=
  if digit < 10 then UInt8.ofNat (48 + digit) else UInt8.ofNat (87 + digit)

/-- The escape of a UTF-16 code unit. -/
def escapeUnit (unit : ℕ) : Bytes :=
  [92, 117, hexDigit (unit / 4096 % 16), hexDigit (unit / 256 % 16), hexDigit (unit / 16 % 16),
    hexDigit (unit % 16)]

/-- A character in a JSON string: itself if it is printable ASCII, else its escape. -/
def dumpsChar (ch : Char) : Bytes :=
  let code := ch.toNat
  if code = 34 then [92, 34]
  else if code = 92 then [92, 92]
  else if 32 ≤ code ∧ code ≤ 126 then [UInt8.ofNat code]
  else if code = 10 then [92, 110]
  else if code = 13 then [92, 114]
  else if code = 9 then [92, 116]
  else if code = 12 then [92, 102]
  else if code = 8 then [92, 98]
  else if code < 65536 then escapeUnit code
  else escapeUnit (55296 + (code - 65536) / 1024) ++ escapeUnit (56320 + (code - 65536) % 1024)

/-- The characters of a JSON string. -/
def dumpsChars (text : String) : Bytes :=
  text.toList.flatMap dumpsChar

/-- A value of a flat JSON object. -/
inductive JsonScalar
  | text (text : String)
  | number (value : ℤ)
  | boolean (value : Bool)
deriving DecidableEq

/-- `json.dumps` of an integer. -/
def dumpsNumber (value : ℤ) : Bytes :=
  if value < 0 then 45 :: decimal value.natAbs else decimal value.natAbs

/-- `json.dumps` of a truth value. -/
def dumpsBoolean : Bool → Bytes
  | true => ascii "true"
  | false => ascii "false"

/-- `json.dumps` of a value. -/
def JsonScalar.dumps : JsonScalar → Bytes
  | .text value => 34 :: (dumpsChars value ++ [34])
  | .number value => dumpsNumber value
  | .boolean value => dumpsBoolean value

/-- `json.dumps` of a member. -/
def dumpsMember (member : String × JsonScalar) : Bytes :=
  34 :: (dumpsChars member.1 ++ 34 :: 58 :: member.2.dumps)

/-- The members after the first, each after a comma. -/
def dumpsRest (members : List (String × JsonScalar)) : Bytes :=
  members.flatMap fun member => 44 :: dumpsMember member

/-- `json.dumps` of a flat object, with the separators `,` and `:`. -/
def dumpsObject : List (String × JsonScalar) → Bytes
  | [] => [123, 125]
  | member :: rest => 123 :: (dumpsMember member ++ dumpsRest rest ++ [125])

/-! ### The request to the daemon -/

/-- What `urllib` puts in the head of a request besides the request itself: the host of
`ARM_LOCAL_URL` and its own name. Neither holds an end of a line. -/
structure HttpClient where
  host : Bytes
  userAgent : Bytes
  host_line : (13 : UInt8) ∉ host ∧ (10 : UInt8) ∉ host
  userAgent_line : (13 : UInt8) ∉ userAgent ∧ (10 : UInt8) ∉ userAgent

/-- The lines of the head but the last, for a body of that length. -/
def HttpClient.headLines (client : HttpClient) (length : ℕ) : List Bytes :=
  [ascii "POST /arm HTTP/1.1",
    ascii "Accept-Encoding: identity",
    ascii "Content-Length: " ++ decimal length,
    ascii "Host: " ++ client.host,
    ascii "User-Agent: " ++ client.userAgent,
    ascii "Content-Type: application/json"]

/-- The last line of the head. -/
def closeLine : Bytes := ascii "Connection: close"

/-- The head of a request without the blank line. -/
def HttpClient.head (client : HttpClient) (length : ℕ) : Bytes :=
  ((client.headLines length).map (· ++ [13, 10])).flatten ++ closeLine

/-- The request to `ARM_LOCAL_URL`. -/
def HttpClient.request (client : HttpClient) (body : Bytes) : Bytes :=
  client.head body.length ++ ([13, 10, 13, 10] ++ body)

/-- The object that `_local_arm` sends. -/
def armMembers (ns pod container : String) (delayNs count : ℤ) (source : String) :
    List (String × JsonScalar) :=
  [("namespace", .text ns), ("pod", .text pod), ("container", .text container),
    ("delay_ns", .number delayNs), ("count", .number count), ("source", .text source)]

/-- The request that `_local_arm` sends. -/
def localArmRequest (client : HttpClient) (call : ArmCall) : Bytes :=
  client.request (dumpsObject (armMembers call.target.ns call.target.pod call.target.container
    call.delayNs call.count call.source))

/-! ### The handler -/

/-- `_handle_arm` before `_local_arm`: a request without a name or with a negative number is answered
at once. -/
def handleArm (client : HttpClient) (call : ArmCall) : Option Bytes :=
  if call.target.ns = "" ∨ call.target.pod = "" then none
  else if call.delayNs < 0 ∨ call.count < 0 then none
  else some (localArmRequest client call)

/-- `ok` in `_local_arm`: the daemon answered with success, and with no other word in its body. -/
def localArmOk (status : ℕ) (accepted : Bool) : Bool :=
  200 ≤ status && status < 300 && accepted

/-- The status of the reply to the gate. -/
def armStatus (ok : Bool) : ℕ :=
  if ok then 200 else 500

end Mcoz.Control
