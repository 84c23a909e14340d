/-
How far a policy is forwarded.

The handler of a forwarded request fans out like that of a client's request (`forwarded_again`: two
nodes whose daemons fail send the policy back and forth). `forwarded_once` is what holds if no handler
of a forwarded request gets that far: one client request causes at most as many peer requests as its
first node found peers, each to another node.
-/

import Mcoz.Cluster.ConsumePolicy
import Mcoz.Lib.Machine

set_option autoImplicit false

namespace Mcoz.Cluster

open Machine

variable {ν : Type}

/-! ### Peer requests -/

namespace Phase

/-- The handler has not looked for peers. -/
def early : Phase ν → Bool
  | .sent => true
  | .waiting _ => true
  | .asking _ => true
  | _ => false

/-- The peers that the handler has still to try. -/
def rest : Phase ν → Option (List ν)
  | .fanning _ rest => some rest
  | .awaiting _ rest _ => some rest
  | _ => none

end Phase

namespace State

/-- The receivers of the peer requests that a handler sent, in order. -/
def posts (state : State ν) (id : ℕ) : List ν :=
  (state.requests.filter fun request => request.caller = some id).map Request.node

/-- The peer requests in the whole cluster that a client's request caused. -/
def caused (state : State ν) (id : ℕ) : List (Request ν) :=
  state.requests.filter fun request => request.forwarded && request.origin == id

theorem posts_send (state : State ν) (request : Request ν) (id : ℕ) :
    (state.send request).posts id =
      state.posts id ++ if request.caller = some id then [request.node] else [] := by
  by_cases own : request.caller = some id <;> simp [posts, send, own]

end State

/-! ### The invariant -/

/-- What a handler sent is the first part of the peers that it found. -/
structure Books (posts : List ν) (phase : Phase ν) (peers : List ν) : Prop where
  nodup : peers.Nodup
  early : phase.early = true → peers = []
  asked : posts <+: peers
  left : ∀ rest, phase.rest = some rest → posts ++ rest = peers

/-- A request in the list: a client's is its own origin, a forwarded one was sent by the handler of
its origin and its own handler found no peers. -/
structure Rooted (state : State ν) (id : ℕ) (request : Request ν) : Prop where
  client : request.forwarded = false → request.caller = none ∧ request.origin = id
  forwarded : request.forwarded = true → state.peers id = [] ∧
    request.caller = some request.origin ∧
    ∃ first, state.requests[request.origin]? = some first ∧ first.forwarded = false

/-- What holds as long as no handler of a forwarded request fans out. -/
structure Inv (state : State ν) : Prop where
  unsent : ∀ id, state.requests.length ≤ id → state.phase id = .sent
  books : ∀ id, Books (state.posts id) (state.phase id) (state.peers id)
  rooted : ∀ id request, state.requests[id]? = some request → Rooted state id request

theorem inv_init : Inv (State.init ν) where
  unsent _ _ := rfl
  books _ := ⟨List.nodup_nil, fun _ => rfl, List.nil_prefix, fun _ among => by cases among⟩
  rooted _ _ among := by cases among

section Steps

variable {state next : State ν} {id : ℕ} {request : Request ν}

/-- A handler that has not looked for peers has sent nothing. -/
theorem Inv.posts_of_early (inv : Inv state) (early : (state.phase id).early = true) :
    state.posts id = [] :=
  List.prefix_nil.mp ((inv.books id).early early ▸ (inv.books id).asked)

/-- One handler goes on. -/
theorem Inv.change (inv : Inv state) (held : state.requests[id]? = some request)
    (requests : next.requests = state.requests)
    (others : ∀ other, other ≠ id →
      next.phase other = state.phase other ∧ next.peers other = state.peers other)
    (books : Books (state.posts id) (next.phase id) (next.peers id))
    (served : request.forwarded = true → next.peers id = []) : Inv next := by
  have inside : id < state.requests.length := (List.getElem?_eq_some_iff.mp held).1
  refine ⟨fun other unborn => ?_, fun other => ?_, fun other later held' => ?_⟩
  · rw [requests] at unborn
    rw [(others other (by omega)).1]
    exact inv.unsent other unborn
  · rw [State.posts, requests]
    by_cases same : other = id
    · rw [same]
      exact books
    · rw [(others other same).1, (others other same).2]
      exact inv.books other
  · rw [requests] at held'
    obtain ⟨client, forwarded⟩ := inv.rooted other later held'
    refine ⟨client, fun marked => ?_⟩
    rw [requests]
    refine ⟨?_, (forwarded marked).2⟩
    by_cases same : other = id
    · subst same
      cases held.symm.trans held'
      exact served marked
    · rw [(others other same).2]
      exact (forwarded marked).1

/-- One handler moves within its peers. -/
theorem Inv.move (inv : Inv state) {phase : Phase ν} (held : state.requests[id]? = some request)
    (requests : next.requests = state.requests) (peers : next.peers = state.peers)
    (moved : next.phase = Function.update state.phase id phase)
    (early : phase.early = true → (state.phase id).early = true)
    (rest : ∀ rest, phase.rest = some rest → (state.phase id).rest = some rest) : Inv next := by
  have old := inv.books id
  refine inv.change held requests (fun other apart => ?_) ?_ fun marked => ?_
  · rw [moved, peers, Function.update_of_ne apart]
    exact ⟨rfl, rfl⟩
  · rw [moved, peers, Function.update_self]
    exact ⟨old.nodup, fun begun => old.early (early begun), old.asked,
      fun left trying => old.left left (rest left trying)⟩
  · rw [peers]
    exact ((inv.rooted id request held).forwarded marked).1

/-- One more request is in the list. -/
theorem Inv.send (inv : Inv state) (books : ∀ id,
      Books ((state.send request).posts id) (next.phase id) (state.peers id))
    (requests : next.requests = state.requests ++ [request]) (peers : next.peers = state.peers)
    (unsent : ∀ id, state.requests.length < id → next.phase id = .sent)
    (rooted : Rooted state state.requests.length request) : Inv next := by
  have old : ∀ {origin : ℕ} {first : Request ν}, state.requests[origin]? = some first →
      next.requests[origin]? = some first := by
    intro origin first found
    rw [requests, List.getElem?_append_left (List.getElem?_eq_some_iff.mp found).1]
    exact found
  have lift : ∀ {other : ℕ} {one : Request ν}, Rooted state other one → Rooted next other one := by
    rintro other one ⟨client, forwarded⟩
    refine ⟨client, fun marked => ?_⟩
    obtain ⟨unsettled, caller, first, found, free⟩ := forwarded marked
    exact ⟨peers ▸ unsettled, caller, first, old found, free⟩
  refine ⟨fun other unborn => unsent other ?_, fun other => ?_, fun other later held => ?_⟩
  · rw [requests, List.length_append, List.length_singleton] at unborn
    omega
  · rw [peers, State.posts, requests]
    exact books other
  · rw [requests] at held
    rcases Nat.lt_trichotomy other state.requests.length with before | same | after
    · rw [List.getElem?_append_left before] at held
      exact lift (inv.rooted other later held)
    · subst same
      rw [List.getElem?_concat_length] at held
      cases held
      exact lift rooted
    · rw [List.getElem?_eq_none (by simp; omega)] at held
      cases held

/-- A client's request is in the list. -/
theorem Inv.client (inv : Inv state) (node : ν) (params : PolicyParams) :
    Inv (state.send ⟨node, false, none, state.requests.length, params⟩) := by
  refine inv.send (fun other => ?_) rfl rfl (fun other later => inv.unsent other (by omega))
    ⟨fun _ => ⟨rfl, rfl⟩, fun marked => by cases marked⟩
  rw [State.posts_send, if_neg (by simp), List.append_nil]
  exact inv.books other

/-- A handler sends a peer request: it is a client's, since it has a peer to try. -/
theorem Inv.forward (inv : Inv state) {policy : Policy} {ip : ν} {left : List ν}
    (held : state.requests[id]? = some request)
    (fanning : state.phase id = .fanning policy (ip :: left)) :
    Inv ((state.send ⟨ip, true, some id, request.origin, policy.params⟩).move id
      (.awaiting policy left state.requests.length)) := by
  have inside : id < state.requests.length := (List.getElem?_eq_some_iff.mp held).1
  have books := inv.books id
  have peers : state.posts id ++ ip :: left = state.peers id := by
    refine books.left _ ?_
    rw [fanning]
    rfl
  have client : request.forwarded = false := by
    by_contra marked
    have alone := ((inv.rooted id request held).forwarded (by simpa using marked)).1
    rw [alone] at peers
    simp at peers
  have origin := ((inv.rooted id request held).client client).2
  refine inv.send (fun other => ?_) rfl rfl (fun other later => ?_)
    ⟨fun marked => Bool.noConfusion marked,
      fun _ => ⟨?_, congrArg some origin.symm, request, ?_, client⟩⟩
  · rw [State.posts_send]
    by_cases same : other = id
    · subst same
      have shifted : state.posts other ++ [ip] ++ left = state.peers other := by
        rw [← peers, List.append_assoc]
        rfl
      rw [if_pos rfl]
      simp only [State.move, Function.update_self]
      refine ⟨books.nodup, fun begun => Bool.noConfusion begun, ⟨left, shifted⟩, ?_⟩
      rintro rest ⟨⟩
      exact shifted
    · rw [if_neg (by simpa [eq_comm] using same), List.append_nil]
      simp only [State.move, Function.update_of_ne same]
      exact inv.books other
  · simp only [State.move, Function.update_of_ne (Nat.ne_of_gt (Nat.lt_trans inside later))]
    exact inv.unsent other (Nat.le_of_lt later)
  · refine (inv.books _).early ?_
    rw [inv.unsent _ (Nat.le_refl _)]
    rfl
  · rw [origin]
    exact held

/-- A handler that sends its reply tries no more peers. -/
theorem Inv.reply [DecidableEq ν] (inv : Inv state)
    (held : state.requests[id]? = some request) (node : ν) (ok : Bool) :
    Inv (state.finish id node ok) :=
  inv.move held rfl rfl rfl (fun begun => Bool.noConfusion begun) (by rintro rest ⟨⟩)

end Steps

section Step

variable [DecidableEq ν] {knowsIp : ν → Bool} {state next : State ν} {action : Action ν}

/-- A handler of a forwarded request gets an ok from its own daemon, or finds no other node. -/
def Served (knowsIp : ν → Bool) (state : State ν) : Action ν → Prop
  | .daemon id ok found => ∀ request, state.requests[id]? = some request →
      request.forwarded = true → ok = true ∨ others knowsIp request.node found = []
  | _ => True

theorem Inv.step (inv : Inv state) (served : Served knowsIp state action)
    (moved : step knowsIp state action = some next) : Inv next := by
  revert moved
  fun_cases Cluster.step knowsIp state action with
  | case1 node params =>
      rintro ⟨⟩
      exact inv.client node params
  | case2 id request sent held =>
      rintro ⟨⟩
      exact inv.move held rfl rfl rfl (fun begun => Bool.noConfusion begun) (by rintro rest ⟨⟩)
  | case3 id request sent held policy accepted =>
      rintro ⟨⟩
      exact inv.move held rfl rfl rfl (fun _ => sent ▸ rfl) (by rintro rest ⟨⟩)
  | case6 id request policy waiting held free =>
      rintro ⟨⟩
      exact inv.move held rfl rfl rfl (fun _ => waiting ▸ rfl) (by rintro rest ⟨⟩)
  | case8 id found request policy asking held =>
      rintro ⟨⟩
      exact inv.reply held _ _
  | case9 id ok found request policy asking held failed =>
      rintro ⟨⟩
      have early : (state.phase id).early = true := by
        rw [asking]
        rfl
      refine inv.change held rfl (fun other apart => ?_) ?_ fun marked => ?_
      · exact ⟨Function.update_of_ne apart _ _, Function.update_of_ne apart _ _⟩
      · simp only [State.fanOut, State.move, Function.update_self, inv.posts_of_early early]
        refine ⟨found.nodup.filter _, fun begun => Bool.noConfusion begun, List.nil_prefix, ?_⟩
        rintro rest ⟨⟩
        rfl
      · simp only [State.fanOut, Function.update_self]
        exact (served request held marked).resolve_left failed
  | case11 id request policy fanning held =>
      rintro ⟨⟩
      exact inv.reply held _ _
  | case12 id request policy ip rest fanning held =>
      rintro ⟨⟩
      exact inv.forward held fanning
  | case14 id request policy rest peer awaiting held answered =>
      rintro ⟨⟩
      exact inv.reply held _ _
  | case15 id request policy rest peer awaiting held answered =>
      rintro ⟨⟩
      exact inv.move held rfl rfl rfl (fun begun => Bool.noConfusion begun)
        fun left trying => awaiting ▸ trying
  | case18 id request policy rest peer awaiting held =>
      rintro ⟨⟩
      exact inv.move held rfl rfl rfl (fun begun => Bool.noConfusion begun)
        fun left trying => awaiting ▸ trying
  | _ => simp

end Step

/-! ### Runs -/

section Runs

/-- The peer requests that a client's request caused are those that its own handler sent. -/
theorem Inv.caused_posts {state : State ν} (inv : Inv state) (id : ℕ) :
    (state.caused id).map Request.node = state.posts id := by
  refine congrArg (List.map Request.node) (List.filter_congr fun peer member => ?_)
  obtain ⟨other, found⟩ := List.getElem?_of_mem member
  obtain ⟨own, sent⟩ := inv.rooted other peer found
  cases marked : peer.forwarded with
  | false => simp [(own marked).1]
  | true =>
      rw [(sent marked).2.1]
      by_cases same : peer.origin = id <;> simp [same]

variable [DecidableEq ν] {knowsIp : ν → Bool} {actions : List (Action ν)} {final : State ν}

/-- As long as no handler of a forwarded request fans out, a client's request causes at most as many
peer requests as its node found peers, each to another node, and no forwarded request causes any. -/
theorem forwarded_once (ran : run (step knowsIp) (State.init ν) actions = some final)
    (served : Along (step knowsIp) (Served knowsIp) (State.init ν) actions) :
    ∀ id request, final.requests[id]? = some request →
      (request.forwarded = true → final.posts id = []) ∧
      (request.forwarded = false → (final.caused id).length ≤ (final.peers id).length ∧
        ((final.caused id).map Request.node).Nodup) := by
  have inv : Inv final := invariant_along Inv inv_init
    (fun _ _ _ inv served moved => inv.step served moved) served ran
  intro id request held
  have books := inv.books id
  refine ⟨fun marked => ?_, fun _ => ?_⟩
  · have alone := ((inv.rooted id request held).forwarded marked).1
    exact List.prefix_nil.mp (alone ▸ books.asked)
  · have posts := inv.caused_posts id
    refine ⟨?_, posts ▸ books.asked.sublist.nodup books.nodup⟩
    have count : ((final.caused id).map Request.node).length = (final.caused id).length :=
      List.length_map _
    rw [← count, posts]
    exact books.asked.length_le

end Runs

/-! ### Two nodes -/

/-- A policy for a pod. -/
def samplePolicy : PolicyParams :=
  ⟨"shop", "cart", "app", some 7, []⟩

/-- kubectl finds the nodes 0 and 1. -/
def bothNodes : PeerIps ℕ :=
  ⟨[0, 1], by decide⟩

/-- The daemon of a node answers, and its handler is done or sends its first peer request. -/
def handled (id : ℕ) (ok : Bool) : List (Action ℕ) :=
  [.receive id, .lock id, .daemon id ok bothNodes]

/-- The daemon of node 1 serves what that of node 0 does not. -/
theorem forwarded_once_sample : ∃ final,
    run (step fun _ : ℕ => true) (State.init ℕ)
        ([.client 0 samplePolicy] ++ handled 0 false ++ [.forward 0] ++ handled 1 true ++
          [.reply 0]) = some final ∧
      (final.caused 0).length ≤ (final.peers 0).length ∧ (final.caused 0).length = 1 := by
  obtain ⟨final, ran, held, one⟩ : ∃ final,
      run (step fun _ : ℕ => true) (State.init ℕ)
          ([.client 0 samplePolicy] ++ handled 0 false ++ [.forward 0] ++ handled 1 true ++
            [.reply 0]) = some final ∧
        final.requests[0]? = some ⟨0, false, none, 0, samplePolicy⟩ ∧
        (final.caused 0).length = 1 := ⟨_, rfl, rfl, rfl⟩
  refine ⟨final, ran, ((forwarded_once ran ?_ 0 _ held).2 rfl).1, one⟩
  refine along_cons trivial rfl (along_cons trivial rfl (along_cons trivial rfl
    (along_cons ?_ rfl (along_cons trivial rfl (along_cons trivial rfl (along_cons trivial rfl
      (along_cons ?_ rfl (along_cons trivial rfl along_nil))))))))
  · rintro request ⟨⟩ marked
    cases marked
  · exact fun _ _ _ => Or.inl rfl

/-- Both daemons fail: the policy goes back and forth, and a client's request to a node with one peer
has caused three peer requests, two of them to that peer. -/
theorem forwarded_again : ∃ final,
    run (step fun _ : ℕ => true) (State.init ℕ)
        ([.client 0 samplePolicy] ++ handled 0 false ++ [.forward 0] ++ handled 1 false ++
          [.forward 1, .receive 2, .giveUp 0, .forward 0, .lock 2, .daemon 2 false bothNodes,
            .forward 2]) = some final ∧
      final.peers 0 = [1] ∧ (final.caused 0).map Request.node = [1, 0, 1] ∧
      (∃ request, final.requests[1]? = some request ∧ request.forwarded = true ∧
        final.posts 1 = [0]) :=
  ⟨_, rfl, rfl, rfl, _, rfl, rfl, rfl⟩

end Mcoz.Cluster
