/-
The gate and the daemon agree on the credits that were issued.

A reply of success travels backwards: the gate takes the reply to the request that its thread sent, the
control API gives such a reply only after one of the daemon, and the daemon gives one only after an arm,
of the gate's own source and count if it received the request whole (`deposit_of_success`). Each credit
is passed on once at most: `Books` compares the sums, from the gate's count to the daemon's
`armed_total`.
-/

import Mcoz.PyGate.Credits
import Mcoz.Control.Routing
import Mcoz.Engine.Conservation
import Mcoz.Transport.Invariant
import Mathlib.Data.Fintype.BigOperators

set_option autoImplicit false

namespace Mcoz.Transport

open Word Machine Threads PyGate Control Daemon

/-! ### Credits -/

/-- The key of the gate's source. -/
def gateKey (cfg : Config) : UInt64 :=
  fnv1a64 (ascii cfg.sourceId)

/-- A sum over all cgroups. -/
def overCgroups (amount : UInt64 → ℕ) : ℕ :=
  ∑ cgroupId : Fin UInt64.size, amount (UInt64.ofFin cgroupId)

/-- `armed_total` of a source on all cgroups. -/
def armedFor (engine : Engine) (key : UInt64) : ℕ :=
  overCgroups fun cgroupId => (engine.sourceAccountsAt (cgroupId, key)).armedTotal.toNat

/-- The credits of a request that is answered ok. -/
def worth (call : ArmCall) (reply : ApiReply) : ℕ :=
  if reply.result.ok then call.count.toNat else 0

/-- The credits of a request that the daemon has answered with success. -/
def servedCredits : Option ArmCall → Forward → ℕ
  | some call, .served reply => if reply.status < 300 then call.count.toNat else 0
  | _, _ => 0

/-- The credits that the daemon has answered with success. -/
def served (world : World) : ℕ :=
  ∑ index ∈ Finset.range world.link.requests.length,
    servedCredits world.link.requests[index]? (world.forwards index)

/-- The step does not let the daemon read a request that is longer than its limit. -/
def Small (world : World) : Step → Prop
  | .serve index _ _ _ => ∀ req, world.forwards index = .sent req → req.length ≤ maxReqBytes
  | _ => True

/-- A source that is not empty, of printable ASCII without quotes and backslashes. -/
def PlainSource (source : String) : Prop :=
  source ≠ "" ∧ ∀ ch ∈ source.toList, Plain ch

section Credits

variable {cfg : Config} {client : HttpClient} {world next : World} {step : Step}

theorem overCgroups_add (first second : UInt64 → ℕ) :
    overCgroups (fun cgroupId => first cgroupId + second cgroupId) =
      overCgroups first + overCgroups second :=
  Finset.sum_add_distrib

theorem overCgroups_deposit (cgroupId key : UInt64) (amount : ℕ) :
    overCgroups (fun other => Ledger.deposited (other, key) [.deposit (cgroupId, key) amount]) =
      amount := by
  unfold overCgroups
  rw [Finset.sum_eq_single cgroupId.toFin]
  · simp [Ledger.Entry.depositFor]
  · intro other _ apart
    have ne : cgroupId ≠ UInt64.ofFin other := by
      rintro rfl
      exact apart rfl
    simp [Ledger.Entry.depositFor, ne]
  · intro absent
    exact absurd (Finset.mem_univ _) absent

/-- The control API answers no more than the daemon has. -/
theorem Inv.total_le_served (inv : Inv cfg client world) :
    Link.total worth world.link ≤ served world := by
  rw [served, Link.State.requests, List.length_map]
  refine Finset.sum_le_sum fun index _ => ?_
  rw [List.getElem?_map]
  cases there : world.link.exchanges[index]? with
  | none => exact Nat.zero_le _
  | some exchange =>
      obtain ⟨conn, call, given⟩ := exchange
      cases given with
      | none => exact Nat.zero_le _
      | some reply =>
          show worth call reply ≤ servedCredits (some call) _
          rw [worth]
          split
          · rename_i ok
            obtain ⟨answer, here, success⟩ := inv.justified index _ reply there rfl ok
            rw [here, servedCredits, if_pos success]
          · exact Nat.zero_le _

/-- An arm of a gate's request that the daemon received whole and answered with success is a deposit
of its credits for the gate's key. -/
theorem deposit_of_success {call : ArmCall} {req : Bytes} {chunks : List Bytes} {engine : Engine}
    {found : Option (UInt64 × Bytes)} {updates : ArmUpdates}
    (handled : handleArm client call = some req) (received : Received chunks req)
    (open_ : (recvHttpRequest [] chunks).2 ≠ .closed) (small : req.length ≤ maxReqBytes)
    (plain : PlainSource call.source)
    (success : (handleRequest engine (recvHttpRequest [] chunks).1 found updates).2.status < 300) :
    ∃ action cgroupId,
      (handleRequest engine (recvHttpRequest [] chunks).1 found updates).1 = some action ∧
        engine.entries action =
          [.deposit (cgroupId, fnv1a64 (ascii call.source)) call.count.toNat] := by
  obtain ⟨body, shape⟩ : ∃ body, req = client.request body := by
    revert handled
    unfold handleArm
    split
    · rintro ⟨⟩
    · split
      · rintro ⟨⟩
      · rintro ⟨⟩
        exact ⟨_, rfl⟩
  have whole : (recvHttpRequest [] chunks).1 = req := by
    subst shape
    exact received_whole small received.1 open_
  rw [whole] at success ⊢
  obtain ⟨arm, route, ok, action⟩ := handleRequest_success success
  have bytes : readChars call.source = ascii call.source := readChars_plain plain.2
  have nonempty : readChars call.source ≠ [] := by
    rw [bytes]
    intro empty
    refine plain.1 (String.toList_eq_nil_iff.mp ?_)
    exact List.map_eq_nil_iff.mp empty
  obtain ⟨source, count⟩ := armRoute_localArm handled route nonempty
  have key : arm.sourceKey = fnv1a64 (ascii call.source) := by
    rw [RequestArmRequest.sourceKey, RequestArmRequest.sourceId, source, if_neg nonempty, bytes]
  rcases Engine.arm_cases engine arm found updates with
    ⟨-, failed⟩ | ⟨resolved, cfg, index, -, -, -, -, outcome⟩
  · cases failed.symm.trans ok
  · refine ⟨_, resolved.cgroupId, action, ?_⟩
    rw [Engine.entries_of_armed (by rw [outcome]), key, count]

/-- The credits that a step arms for the gate's key, on all cgroups. -/
def stepCredits (cfg : Config) (world : World) (step : Step) : ℕ :=
  overCgroups fun cgroupId =>
    Engine.armedCredits world.engine (actions world step) (cgroupId, gateKey cfg)

theorem servedCredits_pending (call : Option ArmCall) {forward : Forward}
    (pending : ∀ reply, forward ≠ .served reply) : servedCredits call forward = 0 := by
  cases call with
  | none => rfl
  | some call =>
      cases forward with
      | served reply => exact absurd rfl (pending reply)
      | _ => rfl

theorem served_congr (requests : next.link.requests = world.link.requests)
    (forwards : next.forwards = world.forwards) : served next = served world := by
  rw [served, served, requests, forwards]

/-- A request to the daemon goes on. -/
theorem served_update {index : ℕ} {forward : Forward} {engine : Engine}
    (there : index < world.link.requests.length)
    (idle : servedCredits world.link.requests[index]? (world.forwards index) = 0) :
    served { world with
      engine := engine
      forwards := Function.update world.forwards index forward } =
      served world + servedCredits world.link.requests[index]? forward := by
  have changed := Link.sum_change
    (fun i => servedCredits world.link.requests[i]? (world.forwards i))
    (fun i => servedCredits world.link.requests[i]? (Function.update world.forwards index forward i))
    there fun other apart => by rw [Function.update_of_ne apart]
  simp only [Function.update_self, idle, Nat.add_zero] at changed
  exact changed

/-- A request that is posted has not been served. -/
theorem Inv.served_posted (inv : Inv cfg client world) {call : ArmCall}
    (requests : next.link.requests = world.link.requests ++ [call])
    (forwards : next.forwards = world.forwards) : served next = served world := by
  have unsent : world.forwards world.link.requests.length = .unsent := by
    by_contra begun
    have bound := inv.begun _ begun
    rw [Link.State.requests, List.length_map] at bound
    exact Nat.lt_irrefl _ bound
  have last : servedCredits (world.link.requests ++ [call])[world.link.requests.length]?
      .unsent = 0 := servedCredits_pending _ (by simp)
  rw [served, served, requests, forwards, List.length_append, List.length_singleton,
    Finset.sum_range_succ, unsent, last, Nat.add_zero]
  refine Finset.sum_congr rfl fun index inside => ?_
  rw [List.getElem?_append_left (Finset.mem_range.mp inside)]

/-- What the daemon answers with success to a request it arms when it serves the request. -/
theorem Inv.servedCredits_le (inv : Inv cfg client world) (plain : PlainSource cfg.sourceId)
    {index : ℕ} {chunks : List Bytes} {found : Option (UInt64 × Bytes)} {updates : ArmUpdates}
    {req : Bytes} {exchange : Link.Exchange ArmCall ApiReply}
    (there : world.link.exchanges[index]? = some exchange) (here : world.forwards index = .sent req)
    (received : Received chunks req) (small : req.length ≤ maxReqBytes) :
    servedCredits (some exchange.request) (afterServe (recvHttpRequest [] chunks).2
        (handleRequest world.engine (recvHttpRequest [] chunks).1 found updates).2) ≤
      stepCredits cfg world (.serve index chunks found updates) := by
  by_cases open_ : (recvHttpRequest [] chunks).2 = .closed
  · rw [open_, afterServe_closed, servedCredits_pending _ (by simp)]
    exact Nat.zero_le _
  rw [afterServe_open open_, servedCredits]
  split
  · rename_i success
    have source := inv.source exchange (List.mem_of_getElem? there)
    obtain ⟨action, cgroupId, acted, entries⟩ := deposit_of_success
      (inv.sent index req exchange here there) received open_ small
      (by rw [source]; exact plain) success
    have armed : stepCredits cfg world (.serve index chunks found updates) =
        exchange.request.count.toNat := by
      have deposit := overCgroups_deposit cgroupId (gateKey cfg) exchange.request.count.toNat
      rw [source] at entries
      rw [stepCredits, actions, acted, Option.toList_some]
      simp only [Engine.armedCredits, trace_one, entries]
      exact deposit
    exact le_of_eq armed.symm
  · exact Nat.zero_le _

/-- What the daemon answers with success in a step it arms in that step. -/
theorem Inv.served_step (inv : Inv cfg client world) (plain : PlainSource cfg.sourceId)
    (small : Small world step) (stepped : world.step cfg client step = some next) :
    served next ≤ served world + stepCredits cfg world step := by
  have kept : next.link.requests = world.link.requests → next.forwards = world.forwards →
      served next ≤ served world + stepCredits cfg world step := by
    intro requests forwards
    rw [served_congr requests forwards]
    exact Nat.le_add_right _ _
  cases effect_of_step stepped with
  | gated inside moved => exact kept rfl rfl
  | acquired here moved => exact kept (Link.requests_of_step moved (by simp)) rfl
  | @posted thread call link held here moved =>
      cases Link.effect_of_step moved with
      | posted =>
          have requests : ∀ owner, (world.link.posted owner call).requests =
              world.link.requests ++ [call] := fun owner => by
            simp [Link.State.requests, Link.State.posted]
          exact le_trans (le_of_eq (inv.served_posted (requests _) rfl)) (Nat.le_add_right _ _)
  | refused moved => exact kept (Link.requests_of_step moved (by simp)) rfl
  | @sent index body exchange req there unsent handled =>
      have bound : index < world.link.requests.length := by
        rw [Link.State.requests, List.length_map]
        exact (List.getElem?_eq_some_iff.mp there).1
      have same := @served_update world index (.sent req) world.engine bound
        (servedCredits_pending _ (by simp [unsent]))
      rw [servedCredits_pending _ (by simp)] at same
      exact le_trans (le_of_eq same) (Nat.le_add_right _ _)
  | @served index chunks found updates req engine here received moved =>
      have bound := inv.begun index (by rw [here]; exact Forward.noConfusion)
      obtain ⟨exchange, there⟩ : ∃ exchange, world.link.exchanges[index]? = some exchange :=
        ⟨_, List.getElem?_eq_getElem bound⟩
      have request : world.link.requests[index]? = some exchange.request := by
        rw [Link.State.requests, List.getElem?_map, there]
        rfl
      have counted := @served_update world index (afterServe (recvHttpRequest [] chunks).2
        (handleRequest world.engine (recvHttpRequest [] chunks).1 found updates).2) engine
        (by rw [Link.State.requests, List.length_map]; exact bound)
        (servedCredits_pending _ (by simp [here]))
      refine le_trans (le_of_eq counted) (Nat.add_le_add_left ?_ _)
      rw [request]
      exact inv.servedCredits_le plain there here received (small req here)
  | replied here moved => exact kept (Link.requests_of_step moved (by simp)) rfl
  | givenUp moved => exact kept (Link.requests_of_step moved (by simp)) rfl
  | received held first moved answered =>
      exact kept (Link.requests_of_step moved (by simp)) rfl
  | failed held moved answered => exact kept (Link.requests_of_step moved (by simp)) rfl
  | acted moved => exact kept rfl rfl

/-- A step of the gate alone earns nothing. -/
theorem earned_inside {pool : GatePool} {move : GateMove} (inside : Inside pool move = true) :
    pool.earned earn move = 0 := by
  cases move with
  | answer thread reply =>
      have idle : (armCall pool thread).isNone = true := inside
      unfold armCall at idle
      cases here : pool.threads thread with
      | none => simp only [Pool.earned, here]
      | some program =>
          rw [here] at idle
          cases program with
          | call request rest =>
              cases request with
              | time =>
                  simp only [Pool.earned, here]
                  rfl
              | arm call => cases idle
          | _ => simp only [Pool.earned, here]
  | _ => rfl

/-- The answer to an arm request earns its credits. -/
theorem earned_armAnswer {pool : GatePool} {thread : ℕ} {call : ArmCall}
    (here : armCall pool thread = some call) (result : ArmResult) :
    pool.earned earn (.answer thread (armAnswer result) : GateMove) =
      if result.ok then call.count.toNat else 0 := by
  obtain ⟨rest, located⟩ := armCall_eq_some_iff.mp here
  simp only [Pool.earned, located]
  rfl

/-- What a reply is worth is what the gate counts as answered. -/
theorem okCredits_received {thread : ℕ} {sent : Option ℕ} {closes : Bool} {call : ArmCall}
    {reply : ApiReply} (held : world.link.holder = some (thread, sent))
    (first : world.link.next = some reply) (here : armCall world.gate thread = some call) :
    (okCredits world (.receive closes)).sum = worth call reply := by
  simp only [okCredits, held, first, here, worth]
  split <;> rfl

/-- The gate counts credits from the replies of success only. -/
theorem Inv.counted_step (inv : Inv cfg client world) {total : ℕ}
    (counted : Counted world.gate total) (stepped : world.step cfg client step = some next) :
    Counted next.gate (total + (okCredits world step).sum : ℕ) := by
  cases effect_of_step stepped with
  | gated inside moved =>
      have grown := counted_step counted moved
      rwa [earned_inside inside] at grown
  | received held first moved answered =>
      obtain ⟨call, here⟩ := inv.holder _ _ held
      have grown := counted_step counted answered
      rw [okCredits_received held first here, worth]
      rw [earned_armAnswer here] at grown
      exact_mod_cast grown
  | failed held moved answered =>
      obtain ⟨call, here⟩ := inv.holder _ _ held
      have grown := counted_step counted answered
      rwa [earned_armAnswer here] at grown
  | _ => exact counted

/-- The gate takes each reply of success once at most. -/
theorem Inv.balance_step (inv : Inv cfg client world)
    (stepped : world.step cfg client step = some next) :
    (okCredits world step).sum + Link.outstanding worth next.link + Link.total worth world.link ≤
      Link.outstanding worth world.link + Link.total worth next.link := by
  cases effect_of_step stepped with
  | acquired here moved => exact Link.balance_step inv.settled moved
  | posted held here moved => exact Link.balance_step inv.settled moved
  | refused moved => exact Link.balance_step inv.settled moved
  | replied here moved => exact Link.balance_step inv.settled moved
  | givenUp moved => exact Link.balance_step inv.settled moved
  | failed held moved answered => exact Link.balance_step inv.settled moved
  | @received thread index closes reply link gate held first moved answered =>
      obtain ⟨exchange, there, -⟩ := inv.settled.sent thread index held
      have here := inv.flying thread index exchange held there
      have took : Link.taken worth world.link (.receive closes) = worth exchange.request reply := by
        rw [Link.taken, Link.inFlight_some held, there, first]
      have balance := @Link.balance_step _ _ worth _ _ _ inv.settled moved
      rw [okCredits_received held first here, ← took]
      exact balance
  | _ => exact le_of_eq (by simp [okCredits])

end Credits

/-! ### Runs -/

/-- The credits of the arm requests that a run answers ok. -/
def answeredCredits (cfg : Config) (client : HttpClient) (start : World) (steps : List Step) : ℕ :=
  (trace (World.step cfg client) okCredits start steps).sum

/-- The engine's actions in a run. -/
def engineActions (cfg : Config) (client : HttpClient) (start : World) (steps : List Step) :
    List Engine.Action :=
  trace (World.step cfg client) actions start steps

/-- The credits that the gate counts as armed after a run: those of its direct arms that were answered
ok, or `refill_credits_added`. -/
def countedCredits (cfg : Config) (client : HttpClient) (start : World) (steps : List Step)
    (final : World) : ℤ :=
  if cfg.directArm then answeredCredits cfg client start steps
  else final.gate.shared.stats.refillCreditsAdded

section Runs

variable {cfg : Config} {client : HttpClient} {gate : Gate} {defaultDelayNs : UInt64}
  {steps : List Step} {final : World}

/-- The engine of a run runs its actions. -/
theorem engine_of_step {world next : World} {step : Step}
    (stepped : world.step cfg client step = some next) :
    run Engine.step world.engine (actions world step) = some next.engine := by
  cases effect_of_step stepped with
  | served here received moved =>
      rw [actions]
      unfold performed at moved
      split at moved
      · rename_i waiting
        cases moved
        rw [waiting]
        rfl
      · rename_i action acting
        rw [acting]
        exact run_cons_iff.mpr ⟨_, moved, rfl⟩
  | acted moved => exact run_cons_iff.mpr ⟨_, moved, rfl⟩
  | _ => rfl

/-- What a history passed on: from the daemon's arms to its replies of success, to the control API's,
to the gate. -/
structure Books (cfg : Config) (client : HttpClient) (start : World) (past : List Step)
    (world : World) : Prop where
  inv : Inv cfg client world
  engine : run Engine.step start.engine (engineActions cfg client start past) = some world.engine
  counted : Counted world.gate (answeredCredits cfg client start past)
  answered : answeredCredits cfg client start past + Link.outstanding worth world.link ≤
    Link.total worth world.link
  served : served world ≤ overCgroups fun cgroupId =>
    Engine.armedCredits start.engine (engineActions cfg client start past) (cgroupId, gateKey cfg)

theorem books_of_run (plain : PlainSource cfg.sourceId)
    (fresh : gate.stats.refillCreditsAdded = 0)
    (ran : run (World.step cfg client) (World.init gate defaultDelayNs) steps = some final)
    (small : Along (World.step cfg client) Small (World.init gate defaultDelayNs) steps) :
    Books cfg client (World.init gate defaultDelayNs) steps final := by
  revert small
  refine run_history (motive := fun past world =>
    Along (World.step cfg client) Small (World.init gate defaultDelayNs) past →
    Books cfg client (World.init gate defaultDelayNs) past world) (fun _ => ?_) ?_ ran
  · exact ⟨inv_init gate defaultDelayNs, rfl, counted_init fresh, le_refl _, Nat.zero_le _⟩
  · intro past world step next before ih stepped small
    obtain ⟨inv, engine, counted, answered, armed⟩ := ih small.left
    have credits : answeredCredits cfg client (World.init gate defaultDelayNs) (past ++ [step]) =
        answeredCredits cfg client (World.init gate defaultDelayNs) past +
          (okCredits world step).sum := by
      rw [answeredCredits, trace_concat before, List.sum_append, answeredCredits]
    have acts : engineActions cfg client (World.init gate defaultDelayNs) (past ++ [step]) =
        engineActions cfg client (World.init gate defaultDelayNs) past ++ actions world step :=
      trace_concat before step
    refine ⟨inv.step stepped, ?_, ?_, ?_, ?_⟩
    · rw [acts]
      exact run_append_of engine (engine_of_step stepped)
    · rw [credits]
      exact inv.counted_step counted stepped
    · rw [credits]
      have balance := inv.balance_step stepped
      omega
    · have step_served := inv.served_step plain (small.last before) stepped
      have sum : (overCgroups fun cgroupId => Engine.armedCredits (World.init gate
          defaultDelayNs).engine (engineActions cfg client (World.init gate defaultDelayNs)
            (past ++ [step])) (cgroupId, gateKey cfg)) =
          (overCgroups fun cgroupId => Engine.armedCredits (World.init gate defaultDelayNs).engine
            (engineActions cfg client (World.init gate defaultDelayNs) past)
            (cgroupId, gateKey cfg)) + stepCredits cfg world step := by
        rw [stepCredits, ← overCgroups_add]
        refine congrArg overCgroups (funext fun cgroupId => ?_)
        rw [acts, Engine.armedCredits, trace_append engine, Ledger.deposited_append]
        rfl
      rw [sum]
      exact le_trans step_served (Nat.add_le_add_right armed _)

/-- After every run in which the daemon reads no request longer than its limit, the credits that the
gate counts were answered ok, and the daemon has armed them for the gate's key. -/
theorem counted_le_armed {active : Bool} {delayNs count : ℤ} {target : Target}
    (plain : PlainSource cfg.sourceId)
    (ran : run (World.step cfg client)
      (World.init (Gate.init active delayNs count target) defaultDelayNs) steps = some final)
    (uncleared : Along Engine.step Engine.Uncleared (Engine.init defaultDelayNs)
      (engineActions cfg client
        (World.init (Gate.init active delayNs count target) defaultDelayNs) steps))
    (bounded : ∀ account, Engine.armedCredits (Engine.init defaultDelayNs)
      (engineActions cfg client
        (World.init (Gate.init active delayNs count target) defaultDelayNs) steps) account < 2 ^ 63)
    (small : Along (World.step cfg client) Small
      (World.init (Gate.init active delayNs count target) defaultDelayNs) steps) :
    countedCredits cfg client (World.init (Gate.init active delayNs count target) defaultDelayNs)
        steps final ≤
      answeredCredits cfg client
        (World.init (Gate.init active delayNs count target) defaultDelayNs) steps ∧
    answeredCredits cfg client
        (World.init (Gate.init active delayNs count target) defaultDelayNs) steps ≤
      armedFor final.engine (gateKey cfg) := by
  have books := books_of_run plain rfl ran small
  have met := Engine.conserving_of_bound (Engine.inv_init defaultDelayNs) (Engine.book_init _)
    books.engine uncleared bounded
  have balanced := Engine.balanced_of_run books.engine met bounded
  constructor
  · unfold countedCredits
    split
    · exact le_refl _
    · exact books.counted.le
  · have passed := books.answered
    have given := books.inv.total_le_served
    have armed : armedFor final.engine (gateKey cfg) = overCgroups fun cgroupId =>
        Engine.armedCredits (Engine.init defaultDelayNs) (engineActions cfg client
          (World.init (Gate.init active delayNs count target) defaultDelayNs) steps)
          (cgroupId, gateKey cfg) :=
      congrArg overCgroups (funext fun cgroupId => balanced.armedTotal _)
    rw [armed]
    refine le_trans ?_ books.served
    omega

end Runs

/-! ### One refill -/

/-- A gate of the source `s`, in token mode. -/
def refillConfig : Config where
  refill := RefillConfig.normalize 16 4 8
  sourceId := "s"

theorem plainSource_refillConfig : PlainSource refillConfig.sourceId :=
  ⟨by decide, by simp [refillConfig, Plain]⟩

/-- The control API beside a daemon on the port 8080. -/
def refillClient : HttpClient where
  host := ascii "127.0.0.1:8080"
  userAgent := ascii "Python-urllib/3.11"
  host_line := by decide
  userAgent_line := by decide

/-- The gate of a container. -/
def refillGate (container : String) : Gate :=
  Gate.init true 10 1 ⟨"d", "p", container⟩

/-- The arm request of its first refill. -/
def refillCall (container : String) : ArmCall :=
  ⟨stampedId "refill-" 0, "/refill/async", ⟨"d", "p", container⟩, "s", 10, 16⟩

/-- An arm of the daemon that finds the cgroup 7. -/
def armAction (arm : RequestArmRequest) : Engine.Action :=
  .arm arm (some (7, ascii "/sys/fs/cgroup/p")) ⟨none, true⟩

/-- The refill worker finds no tokens, and the control API sends its request on. -/
def requestSent : List Step :=
  [.gate (.start 0 .refillWorkerTurn), .gate (.answer 0 okReply), .gate (.critical 0),
    .gate (.critical 0), .gate (.critical 0), .gate (.answer 0 okReply), .gate (.critical 0),
    .acquire 0, .post, .handle 0 ""]

/-- The daemon reads the request in pieces. -/
def requestServed (chunks : List Bytes) : Step :=
  .serve 0 chunks (some (7, ascii "/sys/fs/cgroup/p")) ⟨none, true⟩

/-- The replies come back, and the tokens are added. -/
def replyTaken : List Step :=
  [.reply 0 true "", .receive true, .gate (.critical 0), .gate (.critical 0)]

/-- The state of a run when the daemon has read the request. -/
def World.served (world : World) (engine : Engine) (reply : HttpReply) : World :=
  { world with engine := engine, forwards := Function.update world.forwards 0 (.served reply) }

section Refill

variable {container : String} {chunks : List Bytes} {read : Bytes} {ending : ReceiveEnd}
  {arm : RequestArmRequest}

/-- The daemon arms what it makes of the request. -/
theorem serve_refill {world : World} (engine : world.engine = Engine.init 1000)
    (sent : world.forwards 0 = .sent (localArmRequest refillClient (refillCall container)))
    (received : Received chunks (localArmRequest refillClient (refillCall container)))
    (reads : recvHttpRequest [] chunks = (read, ending)) (open_ : ending ≠ .closed)
    (route : armRoute read = .arm (.ok arm))
    (ok : ((Engine.init 1000).arm arm (some (7, ascii "/sys/fs/cgroup/p")) ⟨none, true⟩).2.ok =
      true) :
    ∃ engine body, run Engine.step (Engine.init 1000) [armAction arm] = some engine ∧
      world.step refillConfig refillClient (requestServed chunks) =
        some (world.served engine ⟨200, body⟩) ∧
      actions world (requestServed chunks) = [armAction arm] := by
  have handled : ∃ engine body, run Engine.step (Engine.init 1000) [armAction arm] = some engine ∧
      handleRequest (Engine.init 1000) read (some (7, ascii "/sys/fs/cgroup/p")) ⟨none, true⟩ =
        (some (armAction arm), ⟨200, body⟩) ∧
      performed (Engine.init 1000) (some (armAction arm)) = some engine := by
    have active : (Engine.init 1000).active ≠ false := by decide
    rw [handleRequest, route]
    simp only [if_neg active, ok, if_true]
    exact ⟨_, _, rfl, rfl, rfl⟩
  obtain ⟨next, body, ran, handled, acted⟩ := handled
  refine ⟨next, body, ran, ?_, ?_⟩
  · show world.serve 0 chunks _ _ = _
    rw [World.serve, sent]
    simp only [if_pos received, reads, engine, handled, acted, Option.map_some,
      afterServe_open open_]
    rfl
  · simp only [actions, requestServed, reads, engine, handled]
    rfl

/-- The run of a refill, whatever the daemon reads of its request. -/
theorem refill_run (received : Received chunks (localArmRequest refillClient (refillCall container)))
    (reads : recvHttpRequest [] chunks = (read, ending)) (open_ : ending ≠ .closed)
    (route : armRoute read = .arm (.ok arm))
    (ok : ((Engine.init 1000).arm arm (some (7, ascii "/sys/fs/cgroup/p")) ⟨none, true⟩).2.ok =
      true) :
    ∃ final, run (World.step refillConfig refillClient) (World.init (refillGate container) 1000)
        (requestSent ++ requestServed chunks :: replyTaken) = some final ∧
      final.gate.shared.stats.refillCreditsAdded = 16 ∧
      run Engine.step (Engine.init 1000) [armAction arm] = some final.engine ∧
      engineActions refillConfig refillClient (World.init (refillGate container) 1000)
        (requestSent ++ requestServed chunks :: replyTaken) = [armAction arm] ∧
      ((localArmRequest refillClient (refillCall container)).length ≤ maxReqBytes →
        Along (World.step refillConfig refillClient) Small
          (World.init (refillGate container) 1000)
          (requestSent ++ requestServed chunks :: replyTaken)) := by
  -- What comes before and after the daemon's step does not depend on what it reads.
  have first : ∃ world, run (World.step refillConfig refillClient)
      (World.init (refillGate container) 1000) requestSent = some world ∧
      world.engine = Engine.init 1000 ∧
      world.forwards 0 = .sent (localArmRequest refillClient (refillCall container)) ∧
      trace (World.step refillConfig refillClient) actions
        (World.init (refillGate container) 1000) requestSent = [] ∧
      ∀ engine body, ∃ final, run (World.step refillConfig refillClient)
        (world.served engine ⟨200, body⟩) replyTaken = some final ∧
        final.gate.shared.stats.refillCreditsAdded = 16 ∧ final.engine = engine ∧
        trace (World.step refillConfig refillClient) actions (world.served engine ⟨200, body⟩)
          replyTaken = [] :=
    ⟨_, rfl, rfl, rfl, rfl, fun engine body => ⟨_, rfl, rfl, rfl, rfl⟩⟩
  obtain ⟨world, before, engine, sent, quiet, later⟩ := first
  obtain ⟨next, body, acted, stepped, action⟩ :=
    serve_refill engine sent received reads open_ route ok
  obtain ⟨final, after, counted, same, rest⟩ := later next body
  refine ⟨final, run_append_of before (run_cons_iff.mpr ⟨_, stepped, after⟩), counted,
    by rw [same]; exact acted, ?_, fun short => ?_⟩
  · rw [engineActions, trace_append before, quiet, List.nil_append, trace, action, stepped,
      Option.map_some, Option.getD_some, rest, List.append_nil]
  · refine Along.append ?_ fun middle reached => ?_
    · exact along_of_mem fun state => by simp [requestSent, Small]
    obtain rfl := Option.some.inj (before.symm.trans reached)
    refine along_cons ?_ stepped ?_
    · intro req here
      cases sent.symm.trans here
      exact short
    · exact along_of_mem fun state => by simp [replyTaken, Small]

theorem uncleared_armAction (arm : RequestArmRequest) :
    Along Engine.step Engine.Uncleared (Engine.init 1000) [armAction arm] :=
  along_of_mem fun state => by simp [armAction, Engine.Uncleared]

/-- One arm of the sample runs keeps every account below the bound. -/
theorem bounded_armAction {key : UInt64} {amount : ℕ} (small : amount < 2 ^ 63)
    (entered : (Engine.init 1000).entries (armAction arm) = [.deposit (7, key) amount])
    (account : Account) :
    Engine.armedCredits (Engine.init 1000) [armAction arm] account < 2 ^ 63 := by
  rw [Engine.armedCredits, trace_one, entered, Ledger.deposited_cons, Ledger.deposited_nil,
    Ledger.Entry.depositFor]
  split <;> omega

end Refill

/-- What the daemon makes of the request of a short container name. -/
def wholeArm : RequestArmRequest where
  ns := ascii "d"
  pod := ascii "p"
  container := ascii "app"
  source := ascii "s"
  delayNs := 10
  count := 16

/-- The request of a short container name, in one piece. -/
def wholeRequest : Bytes :=
  localArmRequest refillClient (refillCall "app")

/-- The run of a refill that is received whole. -/
def wholeRun : List Step :=
  requestSent ++ requestServed [wholeRequest] :: replyTaken

theorem armRoute_wholeRequest : armRoute wholeRequest = .arm (.ok wholeArm) := by
  have nonempty : dumpsObject (armMembers "d" "p" "app" 10 16 "s") ≠ [] := List.cons_ne_nil _ _
  have route := armRoute_request refillClient nonempty
  rw [armMembers, parseFlatJsonObject_dumps] at route
  exact route.trans rfl

theorem wholeRequest_received : Received [wholeRequest] wholeRequest ∧
    (recvHttpRequest [] [wholeRequest]) = (wholeRequest, .complete) ∧
    wholeRequest.length ≤ maxReqBytes := by
  decide +kernel

/-- The hypotheses of `counted_le_armed` are met by a refill that is received whole. -/
theorem counted_le_armed_sample : ∃ final,
    run (World.step refillConfig refillClient) (World.init (refillGate "app") 1000) wholeRun =
        some final ∧
      answeredCredits refillConfig refillClient (World.init (refillGate "app") 1000) wholeRun ≤
        armedFor final.engine (gateKey refillConfig) := by
  obtain ⟨received, reads, short⟩ := wholeRequest_received
  obtain ⟨final, ran, -, acted, action, small⟩ :=
    refill_run received reads (by decide) armRoute_wholeRequest rfl
  refine ⟨final, ran, (counted_le_armed plainSource_refillConfig ran ?_ ?_ (small short)).2⟩
  · exact action ▸ uncleared_armAction wholeArm
  · exact action ▸ bounded_armAction (by decide) rfl

end Mcoz.Transport
