/-
The service behind a client span.

`resolve_downstream_service_name` sorts the server spans below the client span and takes the service of the
longest, of the earliest of these, and of the least by name; without one it goes by the name of the peer, unless
that is an address which `urlparse` rejects (`resolveDownstreamServiceName_eq_none_iff`). The name decides a tie, so
the order of the spans does not matter (`resolveDownstreamServiceName_perm`).
-/

import Mcoz.Analyzer.Spans

set_option autoImplicit false

namespace Mcoz.Analyzer

/-! ### Children -/

/-- `build_children_by_parent`. -/
def buildChildrenByParent (spans : List SpanRecord) : List (String × List SpanRecord) :=
  Dict.group SpanRecord.parentKey (spans.filter fun span => span.parentKey ≠ "")

/-- The spans below a span. -/
def childrenOf (childrenByParent : List (String × List SpanRecord)) (parentSpanId : String) : List SpanRecord :=
  (Dict.get childrenByParent parentSpanId).getD []

/-! ### Peers -/

/-- What Python's strings and `urlparse` do with a text. -/
structure TextMethods where
  strip : List Char → List Char
  lower : List Char → List Char
  isdigit : List Char → Bool
  /-- `urlparse` raises a `ValueError`. -/
  rejects : List Char → Bool
  hostname : List Char → Option (List Char)
  path : List Char → List Char

/-- `needle in text`. -/
def occursIn (needle text : List Char) : Bool :=
  text.tails.any fun rest => needle.isPrefixOf rest

/-- The part of an address that is taken for the name, unless `urlparse` rejects the address. -/
def addressHost (text : TextMethods) (value : List Char) : Option (List Char) :=
  if occursIn "://".toList value then
    if text.rejects value then none
    else
      match text.hostname value with
      | some host => some host
      | none => some (if text.path value = [] then value else text.path value)
  else some value

/-- `value.split("/", 1)[0]`, unless the value starts with the slash. -/
def beforeSlash (value : List Char) : List Char :=
  if '/' ∈ value ∧ value.head? ≠ some '/' then value.takeWhile (· ≠ '/') else value

/-- The value without a port. -/
def beforePort (text : TextMethods) (value : List Char) : List Char :=
  if ':' ∈ value then
    let port := (value.reverse.takeWhile (· ≠ ':')).reverse
    if text.isdigit port then (value.reverse.dropWhile (· ≠ ':')).tail.reverse else value
  else value

/-- The value without the domain of the cluster. -/
def beforeDomain (value : List Char) : List Char :=
  let domain := ".svc.cluster.local".toList
  if domain.isSuffixOf value then value.take (value.length - domain.length) else value

/-- `normalize_peer_service_name`, which returns a name or nothing, unless it raises. -/
def normalizePeerServiceName (text : TextMethods) (peer : String) : Option (Option String) :=
  let value := text.lower (text.strip peer.toList)
  if value = [] then some none
  else
    (addressHost text value).map fun host =>
      let name := text.strip (beforeDomain (beforePort text (beforeSlash host)))
      if name = [] then none else some (String.ofList name)

/-! ### Services -/

/-- The order of the server children: `(-duration_us, start_us, service_name)`. -/
def serverLe (first second : SpanRecord) : Bool :=
  decide (first.durationUs > second.durationUs ∨ first.durationUs = second.durationUs ∧
    (first.startUs < second.startUs ∨ first.startUs = second.startUs ∧ first.serviceName ≤ second.serviceName))

/-- `resolve_downstream_service_name`. -/
def resolveDownstreamServiceName (text : TextMethods) (clientSpan : SpanRecord)
    (childrenByParent : List (String × List SpanRecord)) : Option String :=
  let directServerChildren :=
    (childrenOf childrenByParent clientSpan.spanId).filter fun child => child.kind = "server"
  match directServerChildren.mergeSort serverLe with
  | child :: _ => some child.serviceName
  | [] => (normalizePeerServiceName text clientSpan.peer).map fun name => name.getD "unknown-service"

/-- The service behind a client span of the trace, where there is one. -/
def downstream (text : TextMethods) (spans : List SpanRecord) (span : SpanRecord) : String :=
  (resolveDownstreamServiceName text span (buildChildrenByParent spans)).getD "unknown-service"

/-- A span without a server span below it, whose peer is an address that `urlparse` rejects. -/
def Unparsable (text : TextMethods) (spans : List SpanRecord) (span : SpanRecord) : Prop :=
  (∀ child ∈ spans, child.kind = "server" → child.parentKey ≠ "" → child.parentKey ≠ span.spanId) ∧
    occursIn "://".toList (text.lower (text.strip span.peer.toList)) = true ∧
      text.rejects (text.lower (text.strip span.peer.toList)) = true

instance (text : TextMethods) (spans : List SpanRecord) (span : SpanRecord) : Decidable (Unparsable text spans span) :=
  inferInstanceAs (Decidable (_ ∧ _))

section Resolution

variable {text : TextMethods} {spans others : List SpanRecord} {clientSpan span : SpanRecord}
  {parentSpanId peer : String} {value : List Char}

theorem childrenOf_eq : childrenOf (buildChildrenByParent spans) parentSpanId =
    spans.filter fun span => span.parentKey ≠ "" ∧ span.parentKey = parentSpanId := by
  rw [childrenOf, buildChildrenByParent, Dict.getD_group, List.filter_filter]
  exact List.filter_congr fun span _ => by rw [Bool.decide_and, Bool.and_comm]

theorem serverLe_trans (first second third : SpanRecord) (left : serverLe first second = true)
    (right : serverLe second third = true) : serverLe first third = true := by
  rw [serverLe, decide_eq_true_iff] at left right ⊢
  rcases left with longer | ⟨same, earlier | ⟨same', name⟩⟩ <;>
    rcases right with longer' | ⟨again, earlier' | ⟨again', name'⟩⟩
  all_goals first
    | exact Or.inl (by omega)
    | exact Or.inr ⟨by omega, Or.inl (by omega)⟩
    | exact Or.inr ⟨by omega, Or.inr ⟨by omega, name.trans name'⟩⟩

theorem serverLe_total (first second : SpanRecord) : (serverLe first second || serverLe second first) = true := by
  rw [Bool.or_eq_true, serverLe, serverLe, decide_eq_true_iff, decide_eq_true_iff]
  rcases lt_trichotomy first.durationUs second.durationUs with shorter | same | longer
  · exact Or.inr (Or.inl shorter)
  · rcases lt_trichotomy first.startUs second.startUs with earlier | same' | later
    · exact Or.inl (Or.inr ⟨same, Or.inl earlier⟩)
    · rcases le_total first.serviceName second.serviceName with name | name
      · exact Or.inl (Or.inr ⟨same, Or.inr ⟨same', name⟩⟩)
      · exact Or.inr (Or.inr ⟨same.symm, Or.inr ⟨same'.symm, name⟩⟩)
    · exact Or.inr (Or.inr ⟨same.symm, Or.inl later⟩)
  · exact Or.inl (Or.inl longer)

/-- Spans that the order does not tell apart are of one service. -/
theorem serverLe_antisymm {first second : SpanRecord} (left : serverLe first second = true)
    (right : serverLe second first = true) : first.serviceName = second.serviceName := by
  rw [serverLe, decide_eq_true_iff] at left right
  rcases left with longer | ⟨same, earlier | ⟨same', name⟩⟩ <;>
    rcases right with longer' | ⟨again, earlier' | ⟨again', name'⟩⟩
  all_goals first
    | omega
    | exact name.antisymm name'

/-- The first of the sorted spans is before all spans. -/
theorem serverLe_of_head {child : SpanRecord} {rest : List SpanRecord}
    (sorted : spans.mergeSort serverLe = child :: rest) : ∀ span ∈ spans, serverLe child span = true := by
  intro span among
  have member : span ∈ spans.mergeSort serverLe := List.mem_mergeSort.mpr among
  rw [sorted] at member
  have order := List.pairwise_mergeSort serverLe_trans serverLe_total spans
  rw [sorted] at order
  rcases List.mem_cons.mp member with rfl | later
  · exact (Bool.or_self _).symm.trans (serverLe_total span span)
  · exact (List.pairwise_cons.mp order).1 span later

/-- The first of the sorted spans is of the same service, whatever the order before. -/
theorem head_mergeSort_perm (order : spans.Perm others) :
    (spans.mergeSort serverLe).head?.map SpanRecord.serviceName =
      (others.mergeSort serverLe).head?.map SpanRecord.serviceName := by
  have size : (spans.mergeSort serverLe).length = (others.mergeSort serverLe).length := by
    rw [List.length_mergeSort, List.length_mergeSort, order.length_eq]
  rcases first : spans.mergeSort serverLe with _ | ⟨child, rest⟩ <;>
    rcases second : others.mergeSort serverLe with _ | ⟨child', rest'⟩
  · rfl
  · rw [first, second] at size
    cases size
  · rw [first, second] at size
    cases size
  · have here : child ∈ spans := List.mem_mergeSort.mp (first ▸ List.mem_cons_self ..)
    have there : child' ∈ others := List.mem_mergeSort.mp (second ▸ List.mem_cons_self ..)
    have left := serverLe_of_head first child' (order.mem_iff.mpr there)
    have right := serverLe_of_head second child (order.mem_iff.mp here)
    exact congrArg some (serverLe_antisymm left right)

theorem addressHost_eq_none_iff : addressHost text value = none ↔
    occursIn "://".toList value = true ∧ text.rejects value = true := by
  unfold addressHost
  split
  · rename_i address
    split
    · rename_i rejected
      exact iff_of_true rfl ⟨address, rejected⟩
    · rename_i accepted
      refine iff_of_false ?_ fun both => accepted both.2
      split <;> nofun
  · rename_i plain
    exact iff_of_false nofun fun both => plain both.1

/-- The name of a peer cannot be read exactly if the peer is an address that `urlparse` rejects. -/
theorem normalizePeerServiceName_eq_none_iff : normalizePeerServiceName text peer = none ↔
    occursIn "://".toList (text.lower (text.strip peer.toList)) = true ∧
      text.rejects (text.lower (text.strip peer.toList)) = true := by
  unfold normalizePeerServiceName
  dsimp only
  split
  · rename_i blank
    rw [blank]
    exact iff_of_false nofun fun both => absurd both.1 (by decide)
  · rw [Option.map_eq_none_iff, addressHost_eq_none_iff]

/-- A client span has no service exactly if its peer has to be parsed and is rejected. -/
theorem resolveDownstreamServiceName_eq_none_iff :
    resolveDownstreamServiceName text span (buildChildrenByParent spans) = none ↔ Unparsable text spans span := by
  have unserved : (childrenOf (buildChildrenByParent spans) span.spanId).filter (fun child => child.kind = "server") = [] ↔
      ∀ child ∈ spans, child.kind = "server" → child.parentKey ≠ "" → child.parentKey ≠ span.spanId := by
    rw [childrenOf_eq, List.filter_filter, List.filter_eq_nil_iff]
    refine forall₂_congr fun child _ => ?_
    rw [Bool.and_eq_true, decide_eq_true_iff, decide_eq_true_iff]
    tauto
  unfold resolveDownstreamServiceName Unparsable
  dsimp only
  rw [← unserved, ← normalizePeerServiceName_eq_none_iff]
  split
  · rename_i child rest sorted
    refine iff_of_false nofun fun both => ?_
    rw [both.1, List.mergeSort_nil] at sorted
    cases sorted
  · rename_i sorted
    have unserved : (childrenOf (buildChildrenByParent spans) span.spanId).filter (fun child => child.kind = "server") = [] := by
      refine List.length_eq_zero_iff.mp ((List.mergeSort_perm _ serverLe).length_eq.symm.trans ?_)
      rw [sorted, List.length_nil]
    rw [Option.map_eq_none_iff, and_iff_right unserved]

/-- **The downstream service** of a client span does not depend on the order of the spans. -/
theorem resolveDownstreamServiceName_perm (order : spans.Perm others) :
    resolveDownstreamServiceName text clientSpan (buildChildrenByParent spans) =
      resolveDownstreamServiceName text clientSpan (buildChildrenByParent others) := by
  have children : ((childrenOf (buildChildrenByParent spans) clientSpan.spanId).filter
      fun child => child.kind = "server").Perm ((childrenOf (buildChildrenByParent others) clientSpan.spanId).filter
        fun child => child.kind = "server") := by
    rw [childrenOf_eq, childrenOf_eq]
    exact (order.filter _).filter _
  have named (servers : List SpanRecord) (default : Option String) :
      (match servers.mergeSort serverLe with
        | child :: _ => some child.serviceName
        | [] => default) = ((servers.mergeSort serverLe).head?.map SpanRecord.serviceName).or default := by
    cases servers.mergeSort serverLe <;> rfl
  rw [resolveDownstreamServiceName, resolveDownstreamServiceName, named, named, head_mergeSort_perm children]

theorem downstream_perm (order : spans.Perm others) : downstream text spans = downstream text others :=
  funext fun _ => congrArg (fun name => Option.getD name "unknown-service") (resolveDownstreamServiceName_perm order)

/-- A span without children goes by its peer. -/
theorem downstream_of_childless (childless : spans.all fun child => child.parentKey ≠ span.spanId) :
    downstream text spans span = ((normalizePeerServiceName text span.peer).join).getD "unknown-service" := by
  have alone : childrenOf (buildChildrenByParent spans) span.spanId = [] := by
    rw [childrenOf_eq, List.filter_eq_nil_iff]
    intro child among both
    exact of_decide_eq_true (List.all_eq_true.mp childless child among) (of_decide_eq_true both).2
  rw [downstream, resolveDownstreamServiceName, alone, List.filter_nil, List.mergeSort_nil]
  rcases normalizePeerServiceName text span.peer with _ | name <;> rfl

end Resolution

end Mcoz.Analyzer
