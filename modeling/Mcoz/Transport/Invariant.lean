/-
What holds in every state of the gate, the control API and the daemon.

`Effect` says what a step does. The gate takes the reply to the request that its thread sent
(`Link.Settled`), every request has the gate's own source and is sent on as it is, and the control API
answers with success only what the daemon has answered with success (`Inv`).
-/

import Mcoz.PyGate.Tokens
import Mcoz.Transport.World

set_option autoImplicit false

namespace Mcoz.Transport

open Word Threads PyGate Control Daemon

/-! ### What a step does -/

section Effect

variable (cfg : Config) (client : HttpClient) (world : World)

/-- The step that happened. -/
inductive Effect : Step → World → Prop
  | gated {move : GateMove} {gate : GatePool} (inside : Inside world.gate move = true)
      (moved : PyGate.step cfg world.gate move = some gate) :
      Effect (.gate move) { world with gate := gate }
  | acquired {thread : ℕ} {call : ArmCall} {link : Link.State ArmCall ApiReply}
      (here : armCall world.gate thread = some call)
      (moved : world.link.step (.acquire thread) = some link) :
      Effect (.acquire thread) { world with link := link }
  | posted {thread : ℕ} {call : ArmCall} {link : Link.State ArmCall ApiReply}
      (held : world.link.holder = some (thread, none))
      (here : armCall world.gate thread = some call)
      (moved : world.link.step (.post call) = some link) :
      Effect .post { world with link := link }
  | refused {index : ℕ} {body : String} {link : Link.State ArmCall ApiReply}
      (moved : world.link.step (.reply index ⟨400, body⟩) = some link) :
      Effect (.handle index body) { world with link := link }
  | sent {index : ℕ} {body : String} {exchange : Link.Exchange ArmCall ApiReply} {req : Bytes}
      (there : world.link.exchanges[index]? = some exchange)
      (unsent : world.forwards index = .unsent)
      (handled : handleArm client exchange.request = some req) :
      Effect (.handle index body)
        { world with forwards := Function.update world.forwards index (.sent req) }
  | served {index : ℕ} {chunks : List Bytes} {found : Option (UInt64 × Bytes)}
      {updates : ArmUpdates} {req : Bytes} {engine : Engine}
      (here : world.forwards index = .sent req) (received : Received chunks req)
      (moved : performed world.engine
        (handleRequest world.engine (recvHttpRequest [] chunks).1 found updates).1 = some engine) :
      Effect (.serve index chunks found updates)
        { world with
          engine := engine
          forwards := Function.update world.forwards index
            (afterServe (recvHttpRequest [] chunks).2
              (handleRequest world.engine (recvHttpRequest [] chunks).1 found updates).2) }
  | replied {index : ℕ} {accepted : Bool} {body : String} {reply : HttpReply}
      {link : Link.State ArmCall ApiReply} (here : world.forwards index = .served reply)
      (moved : world.link.step
        (.reply index ⟨armStatus (localArmOk reply.status accepted), body⟩) = some link) :
      Effect (.reply index accepted body) { world with link := link }
  | givenUp {index : ℕ} {body : String} {link : Link.State ArmCall ApiReply}
      (moved : world.link.step (.reply index ⟨armStatus false, body⟩) = some link) :
      Effect (.giveUp index body) { world with link := link }
  | received {thread index : ℕ} {closes : Bool} {reply : ApiReply}
      {link : Link.State ArmCall ApiReply} {gate : GatePool}
      (held : world.link.holder = some (thread, some index))
      (first : world.link.next = some reply)
      (moved : world.link.step (.receive closes) = some link)
      (answered : PyGate.step cfg world.gate (.answer thread (armAnswer reply.result)) = some gate) :
      Effect (.receive closes) { world with gate := gate, link := link }
  | failed {thread : ℕ} {sent : Option ℕ} {text : String} {link : Link.State ArmCall ApiReply}
      {gate : GatePool} (held : world.link.holder = some (thread, sent))
      (moved : world.link.step .fail = some link)
      (answered : PyGate.step cfg world.gate (.answer thread (armAnswer (failure text))) =
        some gate) :
      Effect (.fail text) { world with gate := gate, link := link }
  | acted {action : Engine.Action} {engine : Engine}
      (moved : world.engine.step action = some engine) :
      Effect (.engine action) { world with engine := engine }

variable {cfg client world}

theorem resolve_eq {thread : ℕ} {result : ArmResult} {event : Link.Event ArmCall ApiReply}
    {next : World} (moved : world.resolve cfg thread result event = some next) :
    ∃ link gate, world.link.step event = some link ∧
      PyGate.step cfg world.gate (.answer thread (armAnswer result)) = some gate ∧
      next = { world with gate := gate, link := link } := by
  obtain ⟨link, linked, later⟩ := Option.bind_eq_some_iff.mp moved
  obtain ⟨gate, answered, rfl⟩ := Option.map_eq_some_iff.mp later
  exact ⟨link, gate, linked, answered, rfl⟩

theorem effect_of_step {step : Step} {next : World} (moved : world.step cfg client step = some next) :
    Effect cfg client world step next := by
  revert moved
  fun_cases World.step cfg client world step with
  | case1 move inside =>
      intro stepped
      obtain ⟨gate, moved, rfl⟩ := Option.map_eq_some_iff.mp stepped
      exact .gated inside moved
  | case3 thread call here =>
      intro stepped
      obtain ⟨link, moved, rfl⟩ := Option.map_eq_some_iff.mp stepped
      exact .acquired here moved
  | case5 thread held call here =>
      intro stepped
      obtain ⟨link, moved, rfl⟩ := Option.map_eq_some_iff.mp stepped
      exact .posted held here moved
  | case8 index body =>
      fun_cases World.handle client world index body with
      | case1 exchange unsent there refusal =>
          intro stepped
          obtain ⟨link, moved, rfl⟩ := Option.map_eq_some_iff.mp stepped
          exact .refused moved
      | case2 exchange unsent there req handled =>
          rintro ⟨⟩
          exact .sent there unsent handled
      | case3 => simp
  | case9 index chunks found updates =>
      fun_cases World.serve world index chunks found updates with
      | case1 req here received =>
          intro stepped
          obtain ⟨engine, moved, rfl⟩ := Option.map_eq_some_iff.mp stepped
          exact .served here received moved
      | _ => simp
  | case10 index accepted body reply here =>
      intro stepped
      obtain ⟨link, moved, rfl⟩ := Option.map_eq_some_iff.mp stepped
      exact .replied here moved
  | case13 index body sent =>
      intro stepped
      obtain ⟨link, moved, rfl⟩ := Option.map_eq_some_iff.mp stepped
      exact .givenUp moved
  | case14 closes thread index reply first held =>
      intro stepped
      obtain ⟨link, gate, moved, answered, rfl⟩ := resolve_eq stepped
      exact .received held first moved answered
  | case16 text thread sent held =>
      intro stepped
      obtain ⟨link, gate, moved, answered, rfl⟩ := resolve_eq stepped
      exact .failed held moved answered
  | case18 action =>
      intro stepped
      obtain ⟨engine, moved, rfl⟩ := Option.map_eq_some_iff.mp stepped
      exact .acted moved
  | _ => simp

end Effect

/-! ### The invariant -/

section Gate

variable {cfg : Config} {pool next : GatePool} {move : GateMove} {thread : ℕ} {call : ArmCall}

/-- A thread waits for the answer to its arm request. -/
theorem armCall_of_inside (inside : Inside pool move = true)
    (moved : PyGate.step cfg pool move = some next) (here : armCall pool thread = some call) :
    armCall next thread = some call := by
  have apart : ∀ other program, other ≠ thread →
      armCall (pool.resume other program) thread = some call := by
    intro other program other_ne
    have same : (pool.resume other program).threads thread = pool.threads thread :=
      Function.update_of_ne (Ne.symm other_ne) _ _
    rw [armCall, same]
    exact here
  have busy : ∀ other, (armCall pool other).isNone → other ≠ thread := by
    rintro other idle rfl
    rw [here] at idle
    cases idle
  cases Pool.effect_of_step moved with
  | started free begun => exact apart _ _ (busy _ (by rw [armCall, free]; rfl))
  | ran located => exact apart _ (some _) (busy _ (by rw [armCall, located]; rfl))
  | answered located => exact apart _ _ (busy _ inside)
  | finished located => exact apart _ _ (busy _ (by rw [armCall, located]; rfl))

end Gate

/-- What holds in every state: the link is settled, the exchange in flight is the arm request of the
thread that holds the lock, every request is of the gate's own source and is sent on as it is, and the
control API answers with success only what the daemon has. -/
structure Inv (cfg : Config) (client : HttpClient) (world : World) : Prop where
  settled : Link.Settled world.link
  own : world.gate.Only Critical.Positive (Call.Own cfg)
  holder : ∀ thread sent, world.link.holder = some (thread, sent) →
    ∃ call, armCall world.gate thread = some call
  flying : ∀ thread index exchange, world.link.holder = some (thread, some index) →
    world.link.exchanges[index]? = some exchange →
    armCall world.gate thread = some exchange.request
  source : ∀ exchange ∈ world.link.exchanges, exchange.request.source = cfg.sourceId
  begun : ∀ index, world.forwards index ≠ .unsent → index < world.link.exchanges.length
  sent : ∀ index req exchange, world.forwards index = .sent req →
    world.link.exchanges[index]? = some exchange → handleArm client exchange.request = some req
  justified : ∀ index exchange reply, world.link.exchanges[index]? = some exchange →
    exchange.reply = some reply → reply.result.ok = true →
    ∃ served, world.forwards index = .served served ∧ served.status < 300

section Invariant

variable {cfg : Config} {client : HttpClient} {world next : World}

theorem inv_init (gate : Gate) (defaultDelayNs : UInt64) :
    Inv cfg client (World.init gate defaultDelayNs) where
  settled := Link.settled_init
  own := by rintro thread program ⟨⟩
  holder := by rintro thread sent ⟨⟩
  flying := by rintro thread index exchange ⟨⟩
  source := by rintro exchange ⟨⟩
  begun := by
    intro index sent
    exact absurd rfl sent
  sent := by rintro index req exchange ⟨⟩
  justified := by rintro index exchange reply ⟨⟩

/-- The gate posts the call of the thread that holds the lock. -/
theorem Inv.posted (inv : Inv cfg client world) {thread : ℕ} {call : ArmCall}
    {link : Link.State ArmCall ApiReply} (held : world.link.holder = some (thread, none))
    (here : armCall world.gate thread = some call)
    (moved : world.link.step (.post call) = some link) :
    Inv cfg client { world with link := link } := by
  have settled := inv.settled.step moved
  cases Link.effect_of_step moved with
  | @posted owner request held' =>
      cases held.symm.trans held'
      obtain ⟨rest, located⟩ := armCall_eq_some_iff.mp here
      have own : call.source = cfg.sourceId := (inv.own _ _ located).1
      have before : ∀ {index : ℕ} {exchange : Link.Exchange ArmCall ApiReply},
          index < world.link.exchanges.length →
          (world.link.posted thread call).exchanges[index]? = some exchange →
          world.link.exchanges[index]? = some exchange := fun old there =>
        (List.getElem?_append_left old).symm.trans there
      have last : (world.link.posted thread call).exchanges[world.link.exchanges.length]? =
          some ⟨world.link.conn.getD world.link.nextConn, call, none⟩ :=
        List.getElem?_concat_length
      refine ⟨settled, inv.own, ?_, ?_, ?_, ?_, ?_, ?_⟩
      · rintro other sent ⟨⟩
        exact ⟨call, here⟩
      · rintro other index exchange ⟨⟩ there
        cases last.symm.trans there
        exact here
      · intro exchange member
        rcases List.mem_append.mp member with old | new
        · exact inv.source exchange old
        · rw [List.mem_singleton.mp new]
          exact own
      · intro index sent
        have bound := inv.begun index sent
        show index < (world.link.exchanges ++ [_]).length
        rw [List.length_append]
        omega
      · intro index req exchange sent there
        have bound := inv.begun index (by rw [sent]; exact Forward.noConfusion)
        exact inv.sent index req exchange sent (before bound there)
      · intro index exchange reply there given ok
        by_cases old : index < world.link.exchanges.length
        · exact inv.justified index exchange reply (before old there) given ok
        · have bound := (List.getElem?_eq_some_iff.mp there).1
          change index < (world.link.exchanges ++ [_]).length at bound
          rw [List.length_append, List.length_singleton] at bound
          have same : index = world.link.exchanges.length := by omega
          subst same
          cases last.symm.trans there
          cases given

/-- A reply of the control API. -/
theorem Inv.answered (inv : Inv cfg client world) {index : ℕ} {reply : ApiReply}
    {link : Link.State ArmCall ApiReply} (moved : world.link.step (.reply index reply) = some link)
    (supported : reply.result.ok = true →
      ∃ served, world.forwards index = .served served ∧ served.status < 300) :
    Inv cfg client { world with link := link } := by
  have settled := inv.settled.step moved
  cases Link.effect_of_step moved with
  | @replied _ conn request _ here =>
      have bound : index < world.link.exchanges.length := (List.getElem?_eq_some_iff.mp here).1
      have before : ∀ {other : ℕ} {exchange : Link.Exchange ArmCall ApiReply},
          (world.link.replied index conn request reply).exchanges[other]? = some exchange →
          ∃ earlier, world.link.exchanges[other]? = some earlier ∧
            exchange.request = earlier.request ∧
            (exchange.reply = earlier.reply ∨ other = index ∧ exchange.reply = some reply) := by
        intro other exchange there
        by_cases same : other = index
        · subst same
          cases (List.getElem?_set_self bound).symm.trans there
          exact ⟨_, here, rfl, .inr ⟨rfl, rfl⟩⟩
        · exact ⟨exchange, (List.getElem?_set_ne (Ne.symm same)).symm.trans there, rfl, .inl rfl⟩
      refine ⟨settled, inv.own, inv.holder, ?_, ?_, ?_, ?_, ?_⟩
      · intro thread sent exchange held there
        obtain ⟨earlier, was, same, -⟩ := before there
        rw [same]
        exact inv.flying thread sent earlier held was
      · intro exchange member
        obtain ⟨other, there⟩ := List.mem_iff_getElem?.mp member
        obtain ⟨earlier, was, same, -⟩ := before there
        rw [same]
        exact inv.source earlier (List.mem_of_getElem? was)
      · intro other sent
        exact lt_of_lt_of_eq (inv.begun other sent) List.length_set.symm
      · intro other req exchange sent there
        obtain ⟨earlier, was, same, -⟩ := before there
        rw [same]
        exact inv.sent other req earlier sent was
      · intro other exchange given there answered ok
        obtain ⟨earlier, was, -, kept | ⟨rfl, new⟩⟩ := before there
        · exact inv.justified other earlier given was (kept ▸ answered) ok
        · cases new.symm.trans answered
          exact supported ok

/-- The thread that holds the lock returns, with a reply or without one. -/
theorem Inv.resolved (inv : Inv cfg client world) {thread : ℕ} {result : ArmResult}
    {event : Link.Event ArmCall ApiReply} {link : Link.State ArmCall ApiReply} {gate : GatePool}
    (moved : world.link.step event = some link)
    (answered : PyGate.step cfg world.gate (.answer thread (armAnswer result)) = some gate)
    (left : link.holder = none) (same : link.exchanges = world.link.exchanges) :
    Inv cfg client { world with gate := gate, link := link } where
  settled := inv.settled.step moved
  own := Pool.Only.step own_performs.start inv.own answered
  holder := by simp [left]
  flying := by simp [left]
  source := by
    simp only [same]
    exact inv.source
  begun := by
    simp only [same]
    exact inv.begun
  sent := by
    simp only [same]
    exact inv.sent
  justified := by
    simp only [same]
    exact inv.justified

/-- A request to the daemon goes on: it is sent, or it comes back. -/
theorem Inv.forwarded (inv : Inv cfg client world) {index : ℕ} {forward : Forward}
    (engine : Engine) (there : index < world.link.exchanges.length)
    (pending : ∀ served, world.forwards index ≠ .served served)
    (sent : ∀ req exchange, forward = .sent req → world.link.exchanges[index]? = some exchange →
      handleArm client exchange.request = some req) :
    Inv cfg client { world with
      engine := engine
      forwards := Function.update world.forwards index forward } where
  settled := inv.settled
  own := inv.own
  holder := inv.holder
  flying := inv.flying
  source := inv.source
  begun other begun := by
    by_cases same : other = index
    · rw [same]
      exact there
    · exact inv.begun other (by simpa [Function.update_of_ne same] using begun)
  sent other req exchange here located := by
    by_cases same : other = index
    · subst same
      exact sent req exchange (by simpa using here) located
    · exact inv.sent other req exchange (by simpa [Function.update_of_ne same] using here) located
  justified other exchange reply located answered ok := by
    obtain ⟨served, here, success⟩ := inv.justified other exchange reply located answered ok
    by_cases same : other = index
    · subst same
      exact absurd here (pending served)
    · exact ⟨served, by simpa [Function.update_of_ne same] using here, success⟩

/-- A reply of success to the gate follows one of the daemon. -/
theorem success_of_reply {status : ℕ} {accepted : Bool} {body : String}
    (ok : (ApiReply.mk (armStatus (localArmOk status accepted)) body).result.ok = true) :
    status < 300 := by
  by_contra above
  have refused : localArmOk status accepted = false := by
    simp [localArmOk, above]
  rw [refused] at ok
  cases ok

theorem Inv.step (inv : Inv cfg client world) {step : Step}
    (stepped : world.step cfg client step = some next) : Inv cfg client next := by
  cases effect_of_step stepped with
  | gated inside moved =>
      refine ⟨inv.settled, Pool.Only.step own_performs.start inv.own moved, ?_, ?_, inv.source,
        inv.begun, inv.sent, inv.justified⟩
      · intro thread sent held
        obtain ⟨call, here⟩ := inv.holder thread sent held
        exact ⟨call, armCall_of_inside inside moved here⟩
      · intro thread index exchange held there
        exact armCall_of_inside inside moved (inv.flying thread index exchange held there)
  | @acquired thread call link here moved =>
      have settled := inv.settled.step moved
      cases Link.effect_of_step moved with
      | acquired free =>
          refine ⟨settled, inv.own, ?_, ?_, inv.source, inv.begun, inv.sent, inv.justified⟩
          · rintro other sent ⟨⟩
            exact ⟨call, here⟩
          · rintro other index exchange ⟨⟩
  | posted held here moved => exact inv.posted held here moved
  | refused moved => exact inv.answered moved (by rintro ⟨⟩)
  | sent there unsent handled =>
      refine inv.forwarded world.engine (List.getElem?_eq_some_iff.mp there).1 ?_ ?_
      · intro served here
        cases unsent.symm.trans here
      · rintro req exchange ⟨⟩ located
        cases there.symm.trans located
        exact handled
  | @served index chunks found updates req engine here received moved =>
      refine inv.forwarded engine
        (inv.begun index (by rw [here]; exact Forward.noConfusion)) ?_ ?_
      · intro served there
        cases here.symm.trans there
      · intro other exchange same
        unfold afterServe at same
        split at same <;> cases same
  | replied here moved =>
      exact inv.answered moved fun ok => ⟨_, here, success_of_reply ok⟩
  | givenUp moved => exact inv.answered moved (by rintro ⟨⟩)
  | received held first moved answered =>
      have effect := Link.effect_of_step moved
      refine inv.resolved moved answered ?_ ?_ <;> cases effect <;> rfl
  | failed held moved answered =>
      have effect := Link.effect_of_step moved
      refine inv.resolved moved answered ?_ ?_ <;> cases effect <;> rfl
  | acted moved =>
      exact ⟨inv.settled, inv.own, inv.holder, inv.flying, inv.source, inv.begun, inv.sent,
        inv.justified⟩

end Invariant

end Mcoz.Transport
