/-
How the daemon understands a request of the control API.

A request that is received whole goes to `/arm` with the parameters that the control API sent
(`armRoute_request`): the source as it is, if it is printable ASCII without quotes and backslashes,
and the numbers, as long as they fit their types (`armRoute_localArm`).
-/

import Mcoz.Control.Decoding
import Mcoz.Control.Delivery

set_option autoImplicit false

namespace Mcoz.Control

open Word Text Daemon PyGate

/-! ### The request line and the headers -/

/-- A word without white space, before a space. -/
theorem nextWord_word {word rest : Bytes} (plain : word.all (!isSpace ·))
    (nonempty : word ≠ []) : nextWord (word ++ 32 :: rest) = (word, 32 :: rest) := by
  have inside : ∀ ch ∈ word, (!isSpace ch) = true := List.all_eq_true.mp plain
  have start : (word ++ 32 :: rest).dropWhile isSpace = word ++ 32 :: rest := by
    refine dropWhile_eq_self fun ch first => ?_
    rw [List.head?_append_of_ne_nil _ nonempty] at first
    simpa using inside ch (List.mem_of_mem_head? first)
  rw [nextWord, start, List.takeWhile_append_of_pos inside, List.dropWhile_append_of_pos inside,
    List.takeWhile_cons, List.dropWhile_cons]
  simp [isSpace]

theorem nextWord_space (text : Bytes) : nextWord (32 :: text) = nextWord text := by
  rw [nextWord, nextWord, List.dropWhile_cons]
  rfl

variable (client : HttpClient)

theorem parseHttpMethodPath_head (length : ℕ) (body : Bytes) :
    parseHttpMethodPath (client.head length ++ ([13, 10, 13, 10] ++ body)) =
      some (ascii "POST", ascii "/arm") := by
  obtain ⟨rest, shape⟩ : ∃ rest, client.head length ++ ([13, 10, 13, 10] ++ body) =
      ascii "POST" ++ 32 :: (ascii "/arm" ++ 32 :: rest) := ⟨_, rfl⟩
  have second := @nextWord_word (ascii "/arm") rest (by decide) (by decide)
  rw [shape, parseHttpMethodPath, nextWord_word (by decide) (by decide)]
  simp only [nextWord_space, second]
  rfl

/-- A header line, its name in lower case and its value trimmed. -/
theorem headerOf_line {name text : Bytes} (colon : (58 : UInt8) ∉ name) :
    headerOf (name ++ 58 :: text ++ [13]) = some (lower (trimCopy name), trimCopy text) := by
  have stripped : stripReturn (name ++ 58 :: text ++ [13]) = name ++ 58 :: text := by
    rw [stripReturn, List.getLast?_concat, if_pos rfl, List.dropLast_concat]
  have found : find [58] (name ++ 58 :: text) = some name.length :=
    @find_after name text 58 [] colon
  have value : (name ++ 58 :: text).drop (name.length + 1) = text := by
    rw [← List.drop_drop, List.drop_left]
    rfl
  rw [headerOf, stripped, splitColon, found]
  simp only [Option.map_some, List.take_left, value]

/-- A line with a name, a colon and a space. -/
theorem headerOf_field {start name key : Bytes} (text : Bytes) (shape : start = name ++ [58, 32])
    (colon : (58 : UInt8) ∉ name) (named : lower (trimCopy name) = key) :
    headerOf (start ++ text ++ [13]) = some (key, trimCopy (32 :: text)) := by
  have line : start ++ text = name ++ 58 :: 32 :: text := by
    rw [shape, List.append_assoc]
    rfl
  rw [line, headerOf_line colon, named]

theorem headerLines (length : ℕ) :
    splitOn [10] (client.head length).length (client.head length) =
      (client.headLines length).map (· ++ [13]) ++ [closeLine] := by
  have shape : client.head length =
      (((client.headLines length).map (· ++ [13])).map (· ++ [10])).flatten ++ closeLine := by
    simp [HttpClient.head, HttpClient.headLines]
  have short : ((client.headLines length).map (· ++ [13])).length ≤ (client.head length).length := by
    simp [HttpClient.head, HttpClient.headLines]
    omega
  rw [shape] at short ⊢
  refine splitOn_join short (fun line member => ?_) closeLine_line.2.2
  obtain ⟨plain, held, rfl⟩ := List.mem_map.mp member
  intro newline
  rcases List.mem_append.mp newline with inside | return_
  · exact (headLines_line client length plain held).2.2 inside
  · exact absurd return_ (by decide)

/-- The daemon reads the content type that the control API sets. -/
theorem contentType_head (length : ℕ) :
    mapGet (headersOf (client.head length)) (ascii "content-type") = ascii "application/json" := by
  have encoding : headerOf (ascii "Accept-Encoding: identity" ++ [13]) =
      some (ascii "accept-encoding", ascii "identity") := by decide
  have size : headerOf (ascii "Content-Length: " ++ decimal length ++ [13]) =
      some (ascii "content-length", trimCopy (32 :: decimal length)) :=
    @headerOf_field _ (ascii "Content-Length") _ _ (by decide) (by decide) (by decide)
  have host : headerOf (ascii "Host: " ++ client.host ++ [13]) =
      some (ascii "host", trimCopy (32 :: client.host)) :=
    @headerOf_field _ (ascii "Host") _ _ (by decide) (by decide) (by decide)
  have agent : headerOf (ascii "User-Agent: " ++ client.userAgent ++ [13]) =
      some (ascii "user-agent", trimCopy (32 :: client.userAgent)) :=
    @headerOf_field _ (ascii "User-Agent") _ _ (by decide) (by decide) (by decide)
  have type : headerOf (ascii "Content-Type: application/json" ++ [13]) =
      some (ascii "content-type", ascii "application/json") := by decide
  have close : headerOf closeLine = some (ascii "connection", ascii "close") := by decide
  rw [headersOf, headerLines]
  simp only [HttpClient.headLines, List.map_cons, List.map_nil, List.cons_append, List.nil_append,
    List.tail_cons, List.foldl_cons, List.foldl_nil, encoding, size, host, agent, type, close]
  simp only [mapGet, setParam, show ascii "content-type" ≠ ascii "connection" by decide, if_false,
    if_true, Option.getD_some]

/-- The headers of a request, and the body as far as it was received. -/
theorem parseHttpHeadersAndBody_head (length : ℕ) (body : Bytes) :
    parseHttpHeadersAndBody (client.head length ++ ([13, 10, 13, 10] ++ body)) =
      (headersOf (client.head length), body) := by
  rw [parseHttpHeadersAndBody, find_headEnd client length body]
  simp only [List.take_left, ← List.drop_drop, List.drop_left]
  rfl

/-- A request with a JSON body is understood as what was received of that body. -/
theorem armRoute_head (length : ℕ) {body : Bytes} (nonempty : body ≠ []) :
    armRoute (client.head length ++ ([13, 10, 13, 10] ++ body)) =
      .arm (parseRequestArmFromMap (parseFlatJsonObject body)) := by
  have json : (find (ascii "application/json") (lower (ascii "application/json"))).isSome = true := by
    decide
  have noQuery : splitPathQuery (ascii "/arm") = (ascii "/arm", []) := by decide
  have params : requestParams (client.head length ++ ([13, 10, 13, 10] ++ body)) [] =
      parseFlatJsonObject body := by
    rw [requestParams, parseHttpHeadersAndBody_head, mergeBodyParams, if_neg nonempty]
    simp only [contentType_head, json, if_true]
    funext key
    rw [show parseQueryMap [] key = none from rfl, Option.or_none]
  rw [armRoute, parseHttpMethodPath_head]
  simp only [noQuery, if_true, params]

/-- A request that was received whole is understood as its body. -/
theorem armRoute_request {body : Bytes} (nonempty : body ≠ []) :
    armRoute (client.request body) = .arm (parseRequestArmFromMap (parseFlatJsonObject body)) :=
  armRoute_head client body.length nonempty

/-! ### The arm object -/

theorem length_dumpsRest (members : List (String × JsonScalar)) :
    members.length ≤ (dumpsRest members).length := by
  induction members with
  | nil => exact Nat.le_refl _
  | cons member rest ih =>
      simp only [dumpsRest, List.flatMap_cons, List.length_append, List.length_cons] at ih ⊢
      omega

/-- The parameters that the daemon reads in an object. -/
theorem parseFlatJsonObject_dumps (member : String × JsonScalar)
    (rest : List (String × JsonScalar)) :
    parseFlatJsonObject (dumpsObject (member :: rest)) =
      (member :: rest).foldl readMember noParams := by
  have start : skipWs (dumpsObject (member :: rest)) = dumpsObject (member :: rest) :=
    skipWs_cons (by decide)
  have shape : dumpsObject (member :: rest) =
      123 :: (dumpsMember member ++ (dumpsRest rest ++ [125])) := by
    simp [dumpsObject]
  have enough := length_dumpsRest rest
  rw [parseFlatJsonObject, start, shape]
  refine jsonMembers_object ?_
  simp only [List.length_append, List.length_cons, List.length_nil]
  omega

section Parameters

variable (ns pod container source : String) (delayNs count : ℤ)

/-- The parameters of an arm. -/
def armParams : Params :=
  (armMembers ns pod container delayNs count source).foldl readMember noParams

/-- The parameters of an arm by their keys. -/
theorem armParams_eq : armParams ns pod container source delayNs count =
    setParam (setParam (setParam (setParam (setParam (setParam noParams
      (ascii "namespace") (readChars ns)) (ascii "pod") (readChars pod))
      (ascii "container") (readChars container)) (ascii "delay_ns") (dumpsNumber delayNs))
      (ascii "count") (dumpsNumber count)) (ascii "source") (readChars source) := by
  have first : readChars "namespace" = ascii "namespace" := by decide
  have second : readChars "pod" = ascii "pod" := by decide
  have third : readChars "container" = ascii "container" := by decide
  have fourth : readChars "delay_ns" = ascii "delay_ns" := by decide
  have fifth : readChars "count" = ascii "count" := by decide
  have sixth : readChars "source" = ascii "source" := by decide
  simp only [armParams, armMembers, List.foldl_cons, List.foldl_nil, readMember, first, second,
    third, fourth, fifth, sixth, JsonScalar.read]
  rfl

theorem mapGet_source : mapGet (armParams ns pod container source delayNs count) (ascii "source") =
    readChars source := by
  rw [armParams_eq]
  rfl

theorem mapGet_count : mapGet (armParams ns pod container source delayNs count) (ascii "count") =
    dumpsNumber count := by
  rw [armParams_eq]
  rfl

end Parameters

theorem dumpsNumber_natCast (value : ℕ) : dumpsNumber value = decimal value := by
  rw [dumpsNumber, if_neg (by omega)]
  rfl

/-- The count of an arm is read as it is, if it fits. -/
theorem parseInt64Param_decimal {value : ℕ} {count : Int64}
    (parsed : parseInt64Param (decimal value) = some count) : count.toInt = value := by
  rw [parseInt64Param, if_neg (decimal_ne_nil value), strtoll_decimal] at parsed
  split at parsed
  · rename_i fits
    rw [Option.bind_some] at parsed
    split at parsed
    · cases parsed
    · cases parsed
      exact Int64.toInt_ofInt_of_le (by omega) (by omega)
  · cases parsed

/-- An arm that the daemon accepts from the control API has the source and the count of the gate's
call. -/
theorem armRoute_localArm {client : HttpClient} {call : ArmCall} {req : Bytes}
    (handled : handleArm client call = some req) {arm : RequestArmRequest}
    (route : armRoute req = .arm (.ok arm)) (nonempty : readChars call.source ≠ []) :
    arm.source = readChars call.source ∧ arm.count.toInt = call.count := by
  revert handled
  fun_cases handleArm client call with
  | case3 named positive =>
      rintro ⟨⟩
      obtain ⟨count, shape⟩ : ∃ count : ℕ, call.count = count :=
        Int.eq_ofNat_of_zero_le (by omega)
      have body : dumpsObject (armMembers call.target.ns call.target.pod call.target.container
          call.delayNs call.count call.source) ≠ [] := List.cons_ne_nil _ _
      rw [localArmRequest, armRoute_request client body, armMembers, parseFlatJsonObject_dumps] at route
      change ArmRoute.arm (parseRequestArmFromMap (armParams _ _ _ _ _ _)) = _ at route
      injection route with route
      unfold parseRequestArmFromMap at route
      rw [mapGet_count] at route
      split at route
      · cases route
      · split at route
        · cases route
        · rename_i parsed
          simp only at route
          split at route
          · cases route
          · cases route
            refine ⟨?_, ?_⟩
            · simp only [mapGetOr, mapGet_source, if_neg nonempty]
            · rw [shape, dumpsNumber_natCast, parseOr, if_neg (decimal_ne_nil count)] at parsed
              rw [shape]
              exact parseInt64Param_decimal parsed
  | _ => rintro ⟨⟩

end Mcoz.Control
