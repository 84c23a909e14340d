/-
The spans of a trace as Jaeger returns it.

`parse_trace` goes through the items of the answer and reads a span off each, leaves out those without an id or
with times that are no numbers, and counts a negative duration as none. So every span it returns ends when its
duration says and never before it starts (`WellFormed`), and `span_by_id` has the last span of each id
(`parseTrace_spec`).
-/

import Mcoz.Analyzer.Downstream
import Mcoz.Lib.Js

set_option autoImplicit false

namespace Mcoz.Analyzer

/-! ### Values -/

/-- A value of the answer, as `json.loads` returns it: a dictionary has one entry for each key. -/
inductive Value
  | null
  | boolean (value : Bool)
  | whole (value : ℤ)
  | float (value : Js.Number)
  | text (value : String)
  | list (items : List Value)
  | dict (members : List (String × Value))

/-- What Python's strings, `urlparse`, `str` and `int` do besides. -/
structure TraceMethods extends TextMethods where
  upper : List Char → List Char
  netloc : List Char → List Char
  /-- `str` of a value that is no string. -/
  shown : Value → String
  /-- `int` of a string, unless it is no number. -/
  int : List Char → Option ℤ

namespace Value

/-- `bool(value)`. -/
def truthy : Value → Bool
  | null => false
  | boolean value => value
  | whole value => value ≠ 0
  | float value => value ≠ .finite 0
  | text value => value ≠ ""
  | list items => !items.isEmpty
  | dict members => !members.isEmpty

/-- What a loop over the value goes through; a value without items raises a `TypeError`. -/
def items : Value → Option (List Value)
  | text value => some (value.toList.map fun letter => text (String.singleton letter))
  | list items => some items
  | dict members => some (members.map fun member => text member.1)
  | _ => none

/-- `item.get(key, default)`. -/
def getD (item : List (String × Value)) (key : String) (default : Value) : Value :=
  (Dict.get item key).getD default

/-- `str(value)`. -/
def str (methods : TraceMethods) : Value → String
  | text value => value
  | value => methods.shown value

/-- What `int(value)` does: it returns a number, or raises one of the errors that `parse_trace` catches, or the
`OverflowError` of the infinite floats, which it does not. -/
inductive Whole
  | number (value : ℤ)
  | caught
  | raised
deriving DecidableEq

/-- `int(value)`. -/
def int (methods : TraceMethods) : Value → Whole
  | whole value => .number value
  | boolean value => .number value.toInt
  | float (.finite value) => .number (value.num.tdiv value.den)
  | float (.infinite _) => .raised
  | text value =>
      match methods.int value.toList with
      | some number => .number number
      | none => .caught
  | _ => .caught

end Value

/-! ### Tags -/

/-- One turn of the loop of `tags_to_map`: the first value of a key counts. -/
def addTag (out : List (String × Value)) : Value → List (String × Value)
  | .dict item =>
      match Dict.get item "key" with
      | some (.text key) => if key ∈ out.map Prod.fst then out else out ++ [(key, Value.getD item "value" .null)]
      | _ => out
  | _ => out

/-- `tags_to_map`. -/
def tagsToMap (tags : Value) : Option (List (String × Value)) :=
  if tags.truthy then tags.items.map fun items => items.foldl addTag [] else some []

/-- The stripped text of a tag, unless the tag is missing, no text, or blank. -/
def strippedTag (text : TextMethods) (tags : List (String × Value)) (key : String) : Option (List Char) :=
  match Dict.get tags key with
  | some (.text value) => if text.strip value.toList = [] then none else some (text.strip value.toList)
  | _ => none

/-- `get_span_kind`. -/
def getSpanKind (text : TextMethods) (tags : List (String × Value)) : String :=
  match strippedTag text tags "span.kind" with
  | some value => String.ofList (text.lower value)
  | none => "unknown"

/-- The parent that a reference names. -/
def parentOfReference (methods : TraceMethods) : Value → Option String
  | .dict ref =>
      if methods.upper ((Value.getD ref "refType" (.text "")).str methods).toList ≠ "CHILD_OF".toList then none
      else
        match Dict.get ref "spanID" with
        | some (.text spanId) => if spanId = "" then none else some spanId
        | _ => none
  | _ => none

/-- `get_parent_span_id`. -/
def getParentSpanId (methods : TraceMethods) (references : Value) : Option (Option String) :=
  if references.truthy then
    references.items.map fun items => items.findSome? (parentOfReference methods)
  else some none

/-- The pattern of `extract_service_from_upstream_cluster` at the start of a text. -/
def clusterHere (value : List Char) : Option (List Char) :=
  if "outbound|".toList.isPrefixOf value then
    let rest := (value.drop "outbound|".length).dropWhile (· ≠ '|')
    let name := (rest.drop "||".length).takeWhile (· ≠ '|')
    if "||".toList.isPrefixOf rest ∧ name ≠ [] then some name else none
  else none

/-- `extract_service_from_upstream_cluster`: the pattern is searched from the left. -/
def extractServiceFromUpstreamCluster (value : List Char) : Option (List Char) :=
  value.tails.findSome? clusterHere

/-- The `http.url` branch of `extract_peer`, with the url and its stripped text, unless `urlparse` rejects the url. -/
def peerOfUrl (methods : TraceMethods) (url stripped : List Char) : Option (List Char) :=
  if methods.rejects url then none
  else if methods.netloc url ≠ [] then some (methods.netloc url)
  else if methods.path url ≠ [] then some (methods.path url)
  else some stripped

/-- A tag's text as it is. -/
def tagText (tags : List (String × Value)) (key : String) : List Char :=
  match Dict.get tags key with
  | some (.text value) => value.toList
  | _ => []

/-- `extract_peer`. -/
def extractPeer (methods : TraceMethods) (tags : List (String × Value)) (operationName : String) : Option String :=
  match ["peer.service", "net.peer.name", "rpc.service", "http.host"].findSome?
      (strippedTag methods.toTextMethods tags) with
  | some peer => some (String.ofList peer)
  | none =>
      match strippedTag methods.toTextMethods tags "http.url" with
      | some stripped => (peerOfUrl methods (tagText tags "http.url") stripped).map String.ofList
      | none =>
          match strippedTag methods.toTextMethods tags "upstream_cluster" with
          | some stripped =>
              let extracted := extractServiceFromUpstreamCluster (tagText tags "upstream_cluster")
              some (String.ofList (extracted.getD stripped))
          | none => some (if operationName = "" then "unknown-peer" else operationName)

/-! ### Spans -/

/-- The process of an item: an id that is a list or a dictionary cannot be looked up. -/
def processOf (processes : List (String × Value)) : Value → Option (List (String × Value))
  | .text processId =>
      match Dict.get processes processId with
      | some (.dict process) => some process
      | _ => some []
  | .list _ => none
  | .dict _ => none
  | _ => some []

/-- The service of a process. -/
def serviceOf (process : List (String × Value)) : String :=
  match Dict.get process "serviceName" with
  | some (.text name) => if name = "" then "unknown-service" else name
  | _ => "unknown-service"

/-- The record of an item whose times are numbers. -/
def spanRecord (spanId serviceName operationName kind peer : String) (parentSpanId : Option String)
    (startUs durationUs : ℤ) : SpanRecord where
  spanId := spanId
  serviceName := serviceName
  operationName := operationName
  startUs := startUs
  endUs := startUs + max durationUs 0
  durationUs := max durationUs 0
  kind := kind
  parentSpanId := parentSpanId
  peer := peer

/-- The body of the loop of `parse_trace` for a dictionary: the record, if the item has one, unless an error ends
the loop. -/
def readItem (methods : TraceMethods) (processes item : List (String × Value)) : Option (Option SpanRecord) := do
  let process ← processOf processes (Value.getD item "processID" .null)
  let tags ← tagsToMap (Value.getD item "tags" (.list []))
  let parentSpanId ← getParentSpanId methods (Value.getD item "references" (.list []))
  let operationName := (Value.getD item "operationName" (.text "")).str methods
  let peer ← extractPeer methods tags operationName
  match (Value.getD item "startTime" (.whole 0)).int methods with
  | .raised => none
  | .caught => some none
  | .number startUs =>
      match (Value.getD item "duration" (.whole 0)).int methods with
      | .raised => none
      | .caught => some none
      | .number durationUs =>
          let spanId := (Value.getD item "spanID" (.text "")).str methods
          if spanId = "" then some none
          else some (some (spanRecord spanId (serviceOf process) operationName
            (getSpanKind methods.toTextMethods tags) peer parentSpanId startUs durationUs))

/-- The body of the loop of `parse_trace`. -/
def readSpan (methods : TraceMethods) (processes : List (String × Value)) : Value → Option (Option SpanRecord)
  | .dict item => readItem methods processes item
  | _ => some none

/-- `spans.append(record)` and `by_id[span_id] = record`. -/
def addSpan (parsed : List SpanRecord × List (String × SpanRecord)) (record : SpanRecord) :
    List SpanRecord × List (String × SpanRecord) :=
  (parsed.1 ++ [record], Dict.update record.spanId record (fun _ => record) parsed.2)

/-- One turn of the loop of `parse_trace`. -/
def parseStep (methods : TraceMethods) (processes : List (String × Value))
    (parsed : List SpanRecord × List (String × SpanRecord)) (item : Value) :
    Option (List SpanRecord × List (String × SpanRecord)) :=
  (readSpan methods processes item).map fun record =>
    match record with
    | some record => addSpan parsed record
    | none => parsed

/-- The processes of an answer. -/
def processesOf (trace : List (String × Value)) : List (String × Value) :=
  match Value.getD trace "processes" (.dict []) with
  | .dict processes => processes
  | _ => []

/-- `parse_trace`. -/
def parseTrace (methods : TraceMethods) (trace : List (String × Value)) :
    Option (List SpanRecord × List (String × SpanRecord)) := do
  let spansRaw ← (Value.getD trace "spans" (.list [])).items
  spansRaw.foldlM (parseStep methods (processesOf trace)) ([], [])

/-! ### What it returns -/

/-- A span with an id and a service that ends when its duration says, and not before it starts. -/
structure WellFormed (span : SpanRecord) : Prop where
  named : span.spanId ≠ ""
  served : span.serviceName ≠ ""
  lasts : span.endUs = span.startUs + span.durationUs
  upright : 0 ≤ span.durationUs

/-- What the spans and `span_by_id` have in common. -/
structure Parsed (spans : List SpanRecord) (spanById : List (String × SpanRecord)) : Prop where
  wellFormed : ∀ span ∈ spans, WellFormed span
  last : ∀ spanId, Dict.get spanById spanId = spans.reverse.find? fun span => span.spanId = spanId

section Parsing

variable {methods : TraceMethods} {processes item process trace : List (String × Value)} {items : List Value}
  {record : SpanRecord} {spans : List SpanRecord} {spanById : List (String × SpanRecord)}

theorem serviceOf_ne : serviceOf process ≠ "" := by
  unfold serviceOf
  split
  · split
    · decide
    · assumption
  · decide

theorem wellFormed_of_readItem (read : readItem methods processes item = some (some record)) : WellFormed record := by
  unfold readItem at read
  simp only [Option.bind_eq_bind, Option.bind_eq_some_iff] at read
  obtain ⟨process, -, tags, -, parentSpanId, -, peer, -, read⟩ := read
  split at read
  · cases read
  · cases read
  · split at read
    · cases read
    · cases read
    · rename_i startUs _ durationUs _
      split at read
      · cases read
      · rename_i named
        obtain rfl := Option.some.inj (Option.some.inj read)
        exact ⟨named, serviceOf_ne, rfl, le_max_right ..⟩

theorem WellFormed.start_le (wellFormed : WellFormed record) : record.startUs ≤ record.endUs := by
  have lasts := wellFormed.lasts
  have upright := wellFormed.upright
  omega

theorem Parsed.add (parsed : Parsed spans spanById) (wellFormed : WellFormed record) :
    Parsed (addSpan (spans, spanById) record).1 (addSpan (spans, spanById) record).2 := by
  refine ⟨List.forall_mem_append.mpr ⟨parsed.wellFormed, List.forall_mem_singleton.mpr wellFormed⟩, fun spanId => ?_⟩
  rw [addSpan, Dict.get_update, List.reverse_append, List.reverse_singleton, List.singleton_append]
  by_cases same : spanId = record.spanId
  · rw [if_pos same, List.find?_cons, decide_eq_true same.symm]
  · rw [if_neg same, List.find?_cons, decide_eq_false (Ne.symm same), parsed.last]

/-- The loop returns what it had, and the spans of the items, one after the other. -/
theorem parsed_of_foldlM {start : List SpanRecord × List (String × SpanRecord)} (parsed : Parsed start.1 start.2)
    (read : items.foldlM (parseStep methods processes) start = some (spans, spanById)) :
    Parsed spans spanById ∧
      spans = start.1 ++ items.filterMap fun item => (readSpan methods processes item).join := by
  induction items generalizing start with
  | nil =>
      obtain rfl := Option.some.inj read
      exact ⟨parsed, (List.append_nil _).symm⟩
  | cons item rest ih =>
      rw [List.foldlM_cons, Option.bind_eq_bind, Option.bind_eq_some_iff] at read
      obtain ⟨next, here, read⟩ := read
      obtain ⟨found, read', rfl⟩ := Option.map_eq_some_iff.mp here
      cases found with
      | none =>
          obtain ⟨parsed, same⟩ := ih parsed read
          refine ⟨parsed, ?_⟩
          rw [same, List.filterMap_cons_none (by rw [read']; rfl)]
      | some record =>
          have wellFormed : WellFormed record := by
            cases item with
            | dict item => exact wellFormed_of_readItem read'
            | _ => cases read'
          obtain ⟨parsed, same⟩ := ih (parsed.add wellFormed) read
          refine ⟨parsed, ?_⟩
          rw [same, List.filterMap_cons_some (by rw [read']; rfl)]
          exact List.append_assoc ..

/-- **What `parse_trace` returns** for any answer: the spans of its items, in their order. -/
theorem parseTrace_spec (parse : parseTrace methods trace = some (spans, spanById)) :
    Parsed spans spanById ∧ ∃ items, (Value.getD trace "spans" (.list [])).items = some items ∧
      spans = items.filterMap fun item => (readSpan methods (processesOf trace) item).join := by
  obtain ⟨items, held, read⟩ := Option.bind_eq_some_iff.mp parse
  have start : Parsed [] [] := ⟨nofun, fun _ => rfl⟩
  obtain ⟨parsed, same⟩ := parsed_of_foldlM start read
  exact ⟨parsed, items, held, same⟩

end Parsing

end Mcoz.Analyzer
