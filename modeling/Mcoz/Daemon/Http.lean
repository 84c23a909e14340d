/-
The control server of the daemon: reading a request.

`recv_http_request` collects what `recv` returns until the request is complete by its own
Content-Length, the limit of 64 KiB is reached, or the connection ends; its result is not looked at,
so the handlers get whatever was collected. The functions after it take the request apart and gather
its parameters from the query and from a form or JSON body.
-/

import Mcoz.Lib.Text

set_option autoImplicit false

namespace Mcoz.Daemon

open Word Text

/-! ### Receiving -/

/-- The end of a line. -/
def crlf : Bytes := [13, 10]

/-- `kMaxReqBytes`. -/
def maxReqBytes : ℕ := 64 * 1024

/-- The blanks of `trim_copy`. -/
def isBlank (ch : UInt8) : Bool :=
  ch == 32 || ch == 10 || ch == 13 || ch == 9

/-- `trim_copy`. -/
def trimCopy (text : Bytes) : Bytes :=
  trim isBlank text

/-- The name and the value of a header line: what stands before and after its first colon. -/
def splitColon (line : Bytes) : Option (Bytes × Bytes) :=
  (find [58] line).map fun colon => (line.take colon, line.drop (colon + 1))

/-- The content length that a line of the head sets, if it is its header and a number. -/
def lineLength (line : Bytes) : Option UInt64 :=
  (splitColon line).bind fun header =>
    if lower header.1 = ascii "content-length" then
      (strtoull (trimCopy header.2)).bind fun parsed =>
        if parsed.2 = [] then some parsed.1 else none
    else none

/-- `content_length` in `recv_http_request`: the last one that a line sets, zero if none does. -/
def contentLength (head : Bytes) : UInt64 :=
  (splitOn crlf head.length head).foldl (fun length line => (lineLength line).getD length) 0

/-- The test at the end of the receive loop, in the arithmetic of `size_t`. -/
def complete (out : Bytes) : Bool :=
  match find (crlf ++ crlf) out with
  | none => false
  | some hdrEnd =>
      UInt64.ofNat (hdrEnd + 4) + contentLength (out.take hdrEnd) ≤ UInt64.ofNat out.length

/-- Why the receive loop ended. -/
inductive ReceiveEnd
  | complete
  | full
  | closed
deriving DecidableEq

/-- `recv_http_request`, from what `recv` returns: the chunks, and then an end or an error. -/
def recvHttpRequest : Bytes → List Bytes → Bytes × ReceiveEnd
  | out, [] => (out, if maxReqBytes ≤ out.length then .full else .closed)
  | out, chunk :: rest =>
      if maxReqBytes ≤ out.length then (out, .full)
      else if complete (out ++ chunk) then (out ++ chunk, .complete)
      else recvHttpRequest (out ++ chunk) rest

/-! ### Parameters -/

/-- `std::map<std::string, std::string>`. -/
abbrev Params := Bytes → Option Bytes

/-- The empty map. -/
def noParams : Params := fun _ => none

/-- `map_get`. -/
def mapGet (params : Params) (key : Bytes) : Bytes :=
  (params key).getD []

/-- `params[key] = value`. -/
def setParam (params : Params) (key value : Bytes) : Params :=
  fun other => if other = key then some value else params other

/-- `hex_to_int`. -/
def hexToInt (ch : UInt8) : Option UInt8 :=
  if 48 ≤ ch && ch ≤ 57 then some (ch - 48)
  else if 97 ≤ ch && ch ≤ 102 then some (ch - 97 + 10)
  else if 65 ≤ ch && ch ≤ 70 then some (ch - 65 + 10)
  else none

/-- `url_decode`. -/
def urlDecode : Bytes → Bytes
  | [] => []
  | ch :: rest =>
      if ch = 43 then 32 :: urlDecode rest
      else if ch = 37 then
        match rest with
        | hi :: lo :: tail =>
            match hexToInt hi, hexToInt lo with
            | some hi, some lo => (hi * 16 + lo) :: urlDecode tail
            | _, _ => ch :: urlDecode (hi :: lo :: tail)
        | short => ch :: urlDecode short
      else ch :: urlDecode rest

/-- One assignment of a query: the key before the first equals sign and the value after it. -/
def splitEquals (one : Bytes) : Bytes × Bytes :=
  match find [61] one with
  | none => (one, [])
  | some eq => (one.take eq, one.drop (eq + 1))

/-- `parse_query_map`. -/
def parseQueryMap (query : Bytes) : Params :=
  (splitOn [38] query.length query).foldl (fun params one =>
    if one = [] then params
    else setParam params (urlDecode (splitEquals one).1) (urlDecode (splitEquals one).2)) noParams

/-! ### JSON bodies -/

/-- The character that an escape stands for. -/
def unescape (esc : UInt8) : UInt8 :=
  if esc = 98 then 8
  else if esc = 102 then 12
  else if esc = 110 then 10
  else if esc = 114 then 13
  else if esc = 116 then 9
  else esc

/-- The loop of `parse_json_string_token`: the characters up to the closing quote, and the rest. -/
def jsonStringLoop : Bytes → Option (Bytes × Bytes)
  | [] => none
  | ch :: rest =>
      if ch = 34 then some ([], rest)
      else if ch = 92 then
        match rest with
        | [] => none
        | esc :: tail => (jsonStringLoop tail).map fun token => (unescape esc :: token.1, token.2)
      else (jsonStringLoop rest).map fun token => (ch :: token.1, token.2)

/-- `parse_json_string_token`. -/
def parseJsonStringToken : Bytes → Option (Bytes × Bytes)
  | [] => none
  | ch :: rest => if ch = 34 then jsonStringLoop rest else none

/-- White space is skipped. -/
def skipWs (text : Bytes) : Bytes :=
  text.dropWhile isSpace

/-- The comma or brace that ends a value which is not a string. -/
def isDelimiter (ch : UInt8) : Bool :=
  ch == 44 || ch == 125

/-- A value: a string, or the trimmed text up to the next delimiter. -/
def parseJsonValue (text : Bytes) : Option (Bytes × Bytes) :=
  if text.head? = some 34 then parseJsonStringToken text
  else some (trimCopy (text.takeWhile fun ch => !isDelimiter ch),
    text.dropWhile fun ch => !isDelimiter ch)

/-- One member: a key, a colon and a value, with the white space around them. -/
def parseJsonMember (text : Bytes) : Option (Bytes × Bytes × Bytes) :=
  (parseJsonStringToken text).bind fun (key, afterKey) =>
    match skipWs afterKey with
    | 58 :: afterColon =>
        if skipWs afterColon = [] then none
        else (parseJsonValue (skipWs afterColon)).map fun (value, afterValue) =>
          (key, value, skipWs afterValue)
    | _ => none

/-- The member loop of `parse_flat_json_object`. Every round takes at least one character, so as many
rounds as the text has characters are enough. -/
def jsonMembers : ℕ → Bytes → Params → Params
  | 0, _, params => params
  | bound + 1, text, params =>
      match skipWs text with
      | [] => params
      | ch :: rest =>
          if ch = 125 then params
          else if ch = 44 then jsonMembers bound rest params
          else
            match parseJsonMember (ch :: rest) with
            | none => params
            | some (key, value, afterValue) =>
                jsonMembers bound (if afterValue.head? = some 44 then afterValue.tail else afterValue)
                  (if key = [] then params else setParam params key value)

/-- `parse_flat_json_object`. -/
def parseFlatJsonObject (body : Bytes) : Params :=
  match skipWs body with
  | 123 :: rest => jsonMembers rest.length rest noParams
  | _ => noParams

/-! ### Requests -/

/-- `iss >> word`. -/
def nextWord (text : Bytes) : Bytes × Bytes :=
  let start := text.dropWhile isSpace
  (start.takeWhile fun ch => !isSpace ch, start.dropWhile fun ch => !isSpace ch)

/-- `parse_http_method_path`. -/
def parseHttpMethodPath (req : Bytes) : Option (Bytes × Bytes) :=
  let (method, afterMethod) := nextWord req
  let (path, _) := nextWord afterMethod
  if path = [] then none
  else if method = ascii "GET" ∨ method = ascii "POST" then some (method, path)
  else none

/-- `split_path_query`. -/
def splitPathQuery (raw : Bytes) : Bytes × Bytes :=
  match find [63] raw with
  | none => (raw, [])
  | some pos => (raw.take pos, raw.drop (pos + 1))

/-- A line without the carriage return at its end. -/
def stripReturn (line : Bytes) : Bytes :=
  if line.getLast? = some 13 then line.dropLast else line

/-- The header of a line, trimmed, its name in lower case. -/
def headerOf (line : Bytes) : Option (Bytes × Bytes) :=
  (splitColon (stripReturn line)).map fun header =>
    (lower (trimCopy header.1), trimCopy header.2)

/-- The headers of `parse_http_headers_and_body`, from the lines after the request line. -/
def headersOf (head : Bytes) : Params :=
  (splitOn [10] head.length head).tail.foldl (fun headers line =>
    match headerOf line with
    | none => headers
    | some (name, value) => setParam headers name value) noParams

/-- `parse_http_headers_and_body`. -/
def parseHttpHeadersAndBody (req : Bytes) : Params × Bytes :=
  match find (crlf ++ crlf) req with
  | none => (noParams, [])
  | some hdrEnd => (headersOf (req.take hdrEnd), req.drop (hdrEnd + 4))

/-- `merge_body_params`: the parameters of the body override those of the query. -/
def mergeBodyParams (headers : Params) (body : Bytes) (out : Params) : Params :=
  if body = [] then out
  else
    let ctype := lower (mapGet headers (ascii "content-type"))
    let parsed :=
      if (find (ascii "application/json") ctype).isSome then parseFlatJsonObject body
      else if (find (ascii "application/x-www-form-urlencoded") ctype).isSome ∨
          (find (ascii "text/plain") ctype).isSome ∨ ctype = [] then parseQueryMap body
      else noParams
    fun key => (parsed key).or (out key)

end Mcoz.Daemon
