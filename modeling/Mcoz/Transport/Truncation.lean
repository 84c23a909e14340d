/-
A request that the daemon reads only in part.

`recv_http_request` stops after 64 KiB, complete or not. What it has then of an arm request with a long
container name ends inside that name: the reader keeps the namespace and the pod, and the count and the
source get their defaults. The daemon arms one credit for `unspecified` and answers with success, and
the gate counts the credits that it asked for.
-/

import Mcoz.Transport.Agreement

set_option autoImplicit false

namespace Mcoz.Transport

open Word Text Machine Threads PyGate Control Daemon

/-! ### Receiving up to the limit -/

/-- The receive loop stops at the limit, whatever is still to come. -/
theorem recvHttpRequest_full {client : HttpClient} {body : Bytes}
    (fits : (client.request body).length < 2 ^ 64) :
    ∀ {chunks : List Bytes} {out : Bytes}, (∀ chunk ∈ chunks, 0 < chunk.length) →
      out ++ chunks.flatten <+: client.request body →
      (out ++ chunks.flatten).length = maxReqBytes → maxReqBytes < (client.request body).length →
      recvHttpRequest out chunks = (out ++ chunks.flatten, .full)
  | [], out, _, _, length, _ => by
      rw [List.flatten_nil, List.append_nil] at length ⊢
      rw [recvHttpRequest, if_pos (le_of_eq length.symm)]
  | chunk :: rest, out, positive, start, length, long => by
      have more : out ++ (chunk :: rest).flatten = (out ++ chunk) ++ rest.flatten := by
        rw [List.flatten_cons, List.append_assoc]
      rw [more] at start length ⊢
      have nonempty := positive chunk List.mem_cons_self
      simp only [List.length_append] at length
      have whole : complete (out ++ chunk) ≠ true := by
        rw [ne_eq, complete_iff fits ((List.prefix_append _ _).trans start)]
        intro same
        rw [← same, List.length_append] at long
        omega
      rw [recvHttpRequest, if_neg (by omega), if_neg whole]
      exact recvHttpRequest_full fits (fun other member => positive other
        (List.mem_cons_of_mem _ member)) start (by rw [List.length_append, List.length_append,
          length]) long

/-- A text in pieces of a buffer's length. -/
def pieces : ℕ → Bytes → List Bytes
  | 0, _ => []
  | count + 1, text => text.take 4096 :: pieces count (text.drop 4096)

theorem pieces_flatten (count : ℕ) (text : Bytes) :
    (pieces count text).flatten = text.take (count * 4096) := by
  induction count generalizing text with
  | zero => simp [pieces]
  | succ count ih =>
      rw [pieces, List.flatten_cons, ih, Nat.add_mul, Nat.one_mul, Nat.add_comm (count * 4096),
        List.take_add]

theorem pieces_length {count : ℕ} {text : Bytes} (enough : count * 4096 ≤ text.length) :
    ∀ piece ∈ pieces count text, piece.length = 4096 := by
  induction count generalizing text with
  | zero => simp [pieces]
  | succ count ih =>
      intro piece member
      rw [pieces, List.mem_cons] at member
      rcases member with same | later
      · have enough : 4096 ≤ text.length := by omega
        rw [same]
        exact List.length_take_of_le enough
      · have rest : count * 4096 + 4096 ≤ text.length := by omega
        exact ih (by rw [List.length_drop]; exact Nat.le_sub_of_add_le rest) piece later

/-- A request above the limit may be received up to the limit. -/
theorem received_cut {client : HttpClient} {body : Bytes}
    (long : maxReqBytes < (client.request body).length)
    (fits : (client.request body).length < 2 ^ 64) :
    ∃ chunks, Received chunks (client.request body) ∧
      recvHttpRequest [] chunks = ((client.request body).take maxReqBytes, .full) := by
  have limit : maxReqBytes = 16 * 4096 := rfl
  have flat : (pieces 16 (client.request body)).flatten = (client.request body).take maxReqBytes := by
    rw [limit]
    exact pieces_flatten 16 _
  have whole : 16 * 4096 ≤ (client.request body).length := by
    rw [← limit]
    exact le_of_lt long
  have sizes := @pieces_length 16 (client.request body) whole
  have part : (pieces 16 (client.request body)).flatten <+: client.request body := by
    rw [flat]
    exact List.take_prefix _ _
  refine ⟨pieces 16 (client.request body), ⟨part, fun piece member => ?_⟩, ?_⟩
  · rw [sizes piece member]
    exact ⟨by decide, le_refl _⟩
  · have stopped := @recvHttpRequest_full client body fits (pieces 16 (client.request body)) []
      (fun piece member => by rw [sizes piece member]; decide) (by rw [List.nil_append]; exact part)
      (by rw [List.nil_append, flat, List.length_take_of_le (le_of_lt long)]) long
    rw [stopped, List.nil_append, flat]

/-! ### Reading a body that was cut off -/

theorem jsonStringLoop_open {text : Bytes} (plain : ∀ ch ∈ text, ch ≠ 34 ∧ ch ≠ 92) :
    jsonStringLoop text = none := by
  induction text with
  | nil => rfl
  | cons ch rest ih =>
      have here := plain ch List.mem_cons_self
      rw [jsonStringLoop_byte rest here.1 here.2, ih fun other member =>
        plain other (List.mem_cons_of_mem _ member)]
      rfl

/-- The members before the container. -/
def firstMembers (ns pod : String) : List (String × JsonScalar) :=
  [("namespace", .text ns), ("pod", .text pod)]

/-- The body of an arm request, cut off in the container. -/
def cutBody (ns pod : String) (name : Bytes) : Bytes :=
  123 :: (dumpsMember ("namespace", .text ns) ++ 44 :: (dumpsMember ("pod", .text pod) ++
    44 :: (34 :: (dumpsChars "container" ++ 34 :: 58 :: 34 :: name))))

/-- The reader keeps the members before the container. -/
theorem parseFlatJsonObject_cut (ns pod : String) {name : Bytes}
    (plain : ∀ ch ∈ name, ch ≠ 34 ∧ ch ≠ 92) :
    parseFlatJsonObject (cutBody ns pod name) =
      (firstMembers ns pod).foldl readMember noParams := by
  have cut : parseJsonMember (34 :: (dumpsChars "container" ++ 34 :: 58 :: 34 :: name)) = none := by
    rw [parseJsonMember, parseJsonStringToken, if_pos rfl, jsonStringLoop_chars, Option.bind_some]
    simp only [skipWs_cons (show isSpace 58 = false from rfl),
      skipWs_cons (show isSpace 34 = false from rfl), List.cons_ne_nil, if_false, parseJsonValue,
      List.head?_cons, if_true, parseJsonStringToken, jsonStringLoop_open plain, Option.map_none]
  have rounds : ∃ bound, (dumpsMember ("namespace", .text ns) ++ 44 :: (dumpsMember ("pod",
      .text pod) ++ 44 :: (34 :: (dumpsChars "container" ++ 34 :: 58 :: 34 :: name)))).length =
      bound + 3 := by
    refine ⟨_ - 3, (Nat.sub_add_cancel ?_).symm⟩
    simp only [List.length_append, List.length_cons]
    omega
  obtain ⟨bound, length⟩ := rounds
  rw [parseFlatJsonObject, cutBody, skipWs_cons (by decide)]
  simp only [length]
  rw [jsonMembers_member _ _ (delimited_cons rfl)]
  simp only [List.head?_cons, if_true, List.tail_cons]
  rw [jsonMembers_member _ _ (delimited_cons rfl)]
  simp only [List.head?_cons, if_true, List.tail_cons]
  rw [jsonMembers, skipWs_cons (by decide)]
  simp only [cut, show (34 : UInt8) ≠ 125 by decide, show (34 : UInt8) ≠ 44 by decide, if_false]
  rfl

theorem cutBody_append (ns pod : String) (name : Bytes) :
    cutBody ns pod name = cutBody ns pod [] ++ name := by
  simp [cutBody]

/-- The object of an arm request, up to the characters of its container. -/
theorem dumpsObject_armMembers (ns pod container source : String) (delayNs count : ℤ) :
    dumpsObject (armMembers ns pod container delayNs count source) =
      cutBody ns pod (dumpsChars container ++ 34 :: (dumpsRest [("delay_ns", .number delayNs),
        ("count", .number count), ("source", .text source)] ++ [125])) := by
  simp [dumpsObject, armMembers, dumpsRest, dumpsMember, JsonScalar.dumps, cutBody]

/-- The beginning of a request that ends inside a long container name. -/
theorem request_take {client : HttpClient} {ns pod : String} {name rest : Bytes} {kept : ℕ}
    (inside : kept ≤ name.length) :
    (client.request (cutBody ns pod (name ++ rest))).take
        ((client.head (cutBody ns pod (name ++ rest)).length).length + 4 +
          (cutBody ns pod []).length + kept) =
      client.head (cutBody ns pod (name ++ rest)).length ++
        ([13, 10, 13, 10] ++ cutBody ns pod (name.take kept)) := by
  generalize cutBody_length : (cutBody ns pod (name ++ rest)).length = length
  have shape : client.request (cutBody ns pod (name ++ rest)) =
      (client.head length ++ ([13, 10, 13, 10] ++ cutBody ns pod [])) ++ (name ++ rest) := by
    rw [HttpClient.request, cutBody_length, cutBody_append]
    simp
  have measure : (client.head length).length + 4 + (cutBody ns pod []).length + kept =
      (client.head length ++ ([13, 10, 13, 10] ++ cutBody ns pod [])).length + kept := by
    simp only [List.length_append, List.length_cons, List.length_nil]
    omega
  rw [shape, measure, List.take_length_add_append, List.take_append_of_le_length inside,
    cutBody_append ns pod (name.take kept)]
  simp

/-! ### A run with a long container name -/

/-- A name of that many characters. -/
def longName (length : ℕ) : String :=
  String.ofList (List.replicate length 'c')

/-- What the daemon makes of the beginning of an arm request. -/
def lostArm : RequestArmRequest where
  ns := ascii "d"
  pod := ascii "p"
  container := ascii "app"
  source := []
  delayNs := 0
  count := 1

theorem parse_firstMembers :
    parseRequestArmFromMap ((firstMembers "d" "p").foldl readMember noParams) = .ok lostArm := rfl

/-- What follows the container's characters in the request. -/
def cutRest : Bytes :=
  34 :: (dumpsRest [("delay_ns", .number 10), ("count", .number 16), ("source", .text "s")] ++ [125])

/-- The request with a long name. -/
theorem longRequest_eq (length : ℕ) : localArmRequest refillClient (refillCall (longName length)) =
    refillClient.request (cutBody "d" "p" (List.replicate length 99 ++ cutRest)) := by
  have plain : ∀ ch ∈ (longName length).toList, Plain ch := by
    intro ch member
    rw [longName, String.toList_ofList] at member
    rw [List.eq_of_mem_replicate member]
    decide
  have name : dumpsChars (longName length) = List.replicate length 99 := by
    rw [dumpsChars_plain plain, plainBytes, longName, String.toList_ofList, List.map_replicate]
    rfl
  rw [localArmRequest, refillCall, dumpsObject_armMembers, name]
  rfl

theorem longBody_length (length : ℕ) :
    (cutBody "d" "p" (List.replicate length 99 ++ cutRest)).length = length + 80 := by
  have start : (cutBody "d" "p" []).length = 40 := by decide
  have rest : cutRest.length = 40 := by decide
  rw [cutBody_append, List.length_append, List.length_append, List.length_replicate, start, rest]
  omega

/-- The daemon reads a request with a long name up to its limit, and makes `lostArm` of it. -/
theorem long_received {length kept : ℕ} (head : (refillClient.head (length + 80)).length + 44 + kept =
    maxReqBytes) (inside : kept ≤ length) (fits : length < 2 ^ 32) :
    ∃ chunks cut, Received chunks (localArmRequest refillClient (refillCall (longName length))) ∧
      recvHttpRequest [] chunks = (cut, .full) ∧ armRoute cut = .arm (.ok lostArm) := by
  have start : (cutBody "d" "p" []).length = 40 := by decide
  have limit : maxReqBytes = 65536 := rfl
  have total := request_length refillClient (cutBody "d" "p" (List.replicate length 99 ++ cutRest))
  rw [longBody_length] at total
  obtain ⟨chunks, received, full⟩ := received_cut (by omega)
    (show (refillClient.request (cutBody "d" "p" (List.replicate length 99 ++ cutRest))).length <
      2 ^ 64 by omega)
  refine ⟨chunks, _, by rw [longRequest_eq]; exact received, full, ?_⟩
  have measure : maxReqBytes = (refillClient.head (cutBody "d" "p" (List.replicate length 99 ++
      cutRest)).length).length + 4 + (cutBody "d" "p" []).length + kept := by
    rw [longBody_length, start, ← head]
  have nonempty : cutBody "d" "p" ((List.replicate length 99).take kept) ≠ [] :=
    List.cons_ne_nil _ _
  rw [measure, request_take (by rw [List.length_replicate]; exact inside),
    armRoute_head _ _ nonempty, parseFlatJsonObject_cut, parse_firstMembers]
  intro ch member
  rw [List.eq_of_mem_replicate (List.mem_of_mem_take member)]
  decide

theorem entries_lostArm : (Engine.init 1000).entries (armAction lostArm) =
    [.deposit (7, lostArm.sourceKey) 1] := rfl

theorem lost_armedTotal {engine : Engine}
    (acted : run Engine.step (Engine.init 1000) [armAction lostArm] = some engine) (cgroupId : UInt64) :
    (engine.sourceAccountsAt (cgroupId, gateKey refillConfig)).armedTotal.toNat = 0 := by
  have apart : lostArm.sourceKey ≠ gateKey refillConfig := by decide
  have bounded := bounded_armAction (by decide) entries_lostArm
  have balanced := Engine.balanced_of_run acted (Engine.conserving_of_bound (Engine.inv_init 1000)
    (Engine.book_init 1000) acted (uncleared_armAction lostArm) bounded) bounded
  rw [balanced.armedTotal, Engine.armedCredits, trace_one, entries_lostArm, Ledger.deposited_cons,
    Ledger.Entry.depositFor, if_neg (by simp [apart]), Ledger.deposited_nil]

/-- With a long container name the gate counts 16 credits that the daemon did not arm for its key. -/
theorem long_counted {length kept : ℕ} (head : (refillClient.head (length + 80)).length + 44 + kept =
    maxReqBytes) (inside : kept ≤ length) (fits : length < 2 ^ 32) : ∃ steps final,
    run (World.step refillConfig refillClient) (World.init (refillGate (longName length)) 1000) steps =
      some final ∧
    engineActions refillConfig refillClient (World.init (refillGate (longName length)) 1000) steps =
      [armAction lostArm] ∧
    countedCredits refillConfig refillClient (World.init (refillGate (longName length)) 1000) steps final =
      16 ∧
    armedFor final.engine (gateKey refillConfig) = 0 := by
  obtain ⟨chunks, cut, received, full, route⟩ := long_received head inside fits
  obtain ⟨final, ran, counted, acted, action, -⟩ :=
    refill_run received full (by simp) route rfl
  have token : refillConfig.directArm = false := rfl
  refine ⟨_, final, ran, action, ?_, ?_⟩
  · rw [countedCredits, token, if_neg Bool.false_ne_true]
    exact counted
  · unfold armedFor overCgroups
    exact Finset.sum_eq_zero fun cgroupId _ => lost_armedTotal acted _

/-- A container name of 70000 characters is long enough. -/
theorem long_request_miscounted : PlainSource refillConfig.sourceId ∧ ∃ steps final,
    run (World.step refillConfig refillClient) (World.init (refillGate (longName 70000)) 1000) steps =
      some final ∧
    engineActions refillConfig refillClient (World.init (refillGate (longName 70000)) 1000) steps =
      [armAction lostArm] ∧
    countedCredits refillConfig refillClient (World.init (refillGate (longName 70000)) 1000) steps final =
      16 ∧
    armedFor final.engine (gateKey refillConfig) = 0 := by
  have head : (refillClient.head (70000 + 80)).length + 44 + 65319 = maxReqBytes := by
    decide +kernel
  exact ⟨plainSource_refillConfig, @long_counted 70000 65319 head (by omega) (by omega)⟩

end Mcoz.Transport
