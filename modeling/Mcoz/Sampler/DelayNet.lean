/-
The delays between the daemons.

At a threshold hit a daemon sends the delay to every peer of the service, itself included, in a datagram of eight bytes;
if no datagram leaves, it delays its own victims. Every daemon receives delays and calls `ghost_delay` for each of its
victims. The network may lose, repeat, reorder and forge datagrams.

`delays_conserved` follows a delay from the hit to the calls, over every run and every order of the steps: what is
planned is sent, refused or still to send; what is sent, repeated or forged arrives, is lost or is in flight; and what
has arrived is a call for each victim, made or still to make. So where nothing goes wrong on the way, every victim of
every peer is delayed once for each hit.
-/

import Mcoz.Lib.Expiring
import Mcoz.Lib.Stock
import Mcoz.Lib.Word

set_option autoImplicit false

namespace Mcoz.Sampler

open Word Machine Stock

namespace DelayNet

/-! ### Datagrams -/

/-- `htobe64`: the bytes of a number as they are sent. -/
def be64 (value : ℕ) : Bytes :=
  [(value / 2 ^ 56).toUInt8, (value / 2 ^ 48).toUInt8, (value / 2 ^ 40).toUInt8, (value / 2 ^ 32).toUInt8,
    (value / 2 ^ 24).toUInt8, (value / 2 ^ 16).toUInt8, (value / 2 ^ 8).toUInt8, value.toUInt8]

/-- A datagram on its way. -/
structure Datagram (D : Type) where
  src : D
  dst : D
  payload : Bytes
deriving DecidableEq

/-- The way of a delay: its sender, its receiver and its length. -/
abbrev Leg (D : Type) := D × D × UInt64

/-- What `delay_consumer_only` takes a datagram for: `recvfrom` cuts a longer one off. -/
def Datagram.leg {D : Type} (datagram : Datagram D) : Option (Leg D) :=
  if 8 ≤ datagram.payload.length then
    some (datagram.src, datagram.dst, UInt64.ofNat (bigEndian (datagram.payload.take 8)))
  else none

/-! ### The daemons -/

/-- The pids that `set_victim_pids` has stored on each daemon, `POD_IP`, and whether the service and the port are set. -/
structure Config (D : Type) where
  victims : D → List Int32
  distinct : ∀ daemon, (victims daemon).Nodup
  selfIp : D → Option D
  enabled : D → Bool

/-- Where the sampling loop of a daemon is: behind `resolve_peers`, in the loop of `send_delay_to_peers`, or in the
loop of `apply_delay_to_cgroups`, with what is left of each. -/
inductive Sender (D : Type)
  | idle
  | opening (ns : UInt64) (rest : List D)
  | sending (ns : UInt64) (rest : List D) (sent : Bool)
  | applying (ns : UInt64) (rest : List Int32)

/-- Where `delay_consumer_only` is: in `recvfrom`, or in the loop of `apply_delay_to_cgroups` for a datagram. -/
inductive Receiver (D : Type)
  | waiting
  | applying (src : D) (ns : UInt64) (rest : List Int32)

/-- The daemons, each with its cache of peers, and the datagrams in flight. -/
structure Net (D : Type) where
  senders : D → Sender D
  receivers : D → Receiver D
  peers : D → Expiring.Cache Unit (List D)
  inFlight : List (Datagram D)

/-- A step: a threshold hit with the lookup of the peers (`getaddrinfo` fails with `none`), `socket`, `sendto`, the end
of the loop, a `ghost_delay`; what the network does; and the steps of a receiver. -/
inductive Action (D : Type)
  | hit (daemon : D) (ns : UInt64) (call : Expiring.Call Unit (Option (List D)))
  | socket (daemon : D) (opened : Bool)
  | sendto (daemon : D) (accepted : Bool)
  | finish (daemon : D)
  | ghost (daemon : D)
  | applied (daemon : D)
  | lose (datagram : Datagram D)
  | duplicate (datagram : Datagram D)
  | forge (datagram : Datagram D)
  | receive (datagram : Datagram D)
  | ghostReceived (daemon : D)
  | appliedReceived (daemon : D)

section Steps

variable {D : Type} [DecidableEq D]

/-- `resolve_peers`: what `getaddrinfo` finds is kept for a second. No peers are as good as a failure. -/
def resolvePeers (cfg : Config D) (daemon : D) (includeSelf : Bool) : Expiring.Plan Unit Unit (List D) (Option (List D)) where
  key := id
  fetch := fun found _ =>
    if cfg.enabled daemon then
      (found.map fun addresses => addresses.filter fun ip => includeSelf || cfg.selfIp daemon ≠ some ip).filter (· ≠ [])
    else none
  usable := fun _ _ => true
  timeToLive := 1000000000
  keeps := false

/-- `apply_delay_to_cgroups` of the sampling loop; a delay of zero calls nothing. -/
def Config.fallback (cfg : Config D) (daemon : D) (ns : UInt64) : Sender D :=
  if ns = 0 then .idle else .applying ns (cfg.victims daemon)

/-- What the receiver does with a datagram. -/
def Config.taken (cfg : Config D) (datagram : Datagram D) : Receiver D :=
  match datagram.leg with
  | some (src, _, ns) => if ns = 0 then .waiting else .applying src ns (cfg.victims datagram.dst)
  | none => .waiting

/-- One step. -/
def step (cfg : Config D) (net : Net D) : Action D → Option (Net D)
  | .hit daemon ns call =>
      match net.senders daemon with
      | .idle =>
          let plan := resolvePeers cfg daemon true
          -- `g_peer_cache_ts` is the time of the lookup
          if call.stored = call.asked then
            (plan.step (net.peers daemon) call).map fun cache =>
              { net with
                peers := Function.update net.peers daemon cache
                senders := Function.update net.senders daemon
                  (match plan.answer (net.peers daemon) call with
                    | some peers => .opening ns peers
                    | none => cfg.fallback daemon ns) }
          else none
      | _ => none
  | .socket daemon opened =>
      match net.senders daemon with
      | .opening ns rest =>
          some { net with
            senders := Function.update net.senders daemon
              (if opened then .sending ns rest false else cfg.fallback daemon ns) }
      | _ => none
  | .sendto daemon accepted =>
      match net.senders daemon with
      | .sending ns (peer :: rest) sent =>
          some { net with
            senders := Function.update net.senders daemon (.sending ns rest (sent || accepted))
            inFlight := if accepted then ⟨daemon, peer, be64 ns.toNat⟩ :: net.inFlight else net.inFlight }
      | _ => none
  | .finish daemon =>
      match net.senders daemon with
      | .sending ns [] sent =>
          some { net with
            senders := Function.update net.senders daemon (if sent then .idle else cfg.fallback daemon ns) }
      | _ => none
  | .ghost daemon =>
      match net.senders daemon with
      | .applying ns (_ :: rest) =>
          some { net with senders := Function.update net.senders daemon (.applying ns rest) }
      | _ => none
  | .applied daemon =>
      match net.senders daemon with
      | .applying _ [] => some { net with senders := Function.update net.senders daemon .idle }
      | _ => none
  | .lose datagram =>
      if datagram ∈ net.inFlight then some { net with inFlight := net.inFlight.erase datagram } else none
  | .duplicate datagram =>
      if datagram ∈ net.inFlight then some { net with inFlight := datagram :: net.inFlight } else none
  | .forge datagram => some { net with inFlight := datagram :: net.inFlight }
  | .receive datagram =>
      match net.receivers datagram.dst with
      | .waiting =>
          if datagram ∈ net.inFlight then
            some { net with
              receivers := Function.update net.receivers datagram.dst (cfg.taken datagram)
              inFlight := net.inFlight.erase datagram }
          else none
      | _ => none
  | .ghostReceived daemon =>
      match net.receivers daemon with
      | .applying src ns (_ :: rest) =>
          some { net with receivers := Function.update net.receivers daemon (.applying src ns rest) }
      | _ => none
  | .appliedReceived daemon =>
      match net.receivers daemon with
      | .applying _ _ [] => some { net with receivers := Function.update net.receivers daemon .waiting }
      | _ => none

/-- The daemons before the first hit. -/
def start (D : Type) : Net D where
  senders := fun _ => .idle
  receivers := fun _ => .waiting
  peers := fun _ => Expiring.empty
  inFlight := []

/-! ### What is observed -/

/-- The legs that a hit plans. -/
def planned (cfg : Config D) (net : Net D) : Action D → List (Leg D)
  | .hit daemon ns call =>
      (((resolvePeers cfg daemon true).answer (net.peers daemon) call).getD []).map fun peer => (daemon, peer, ns)
  | _ => []

/-- The leg of a datagram that leaves. -/
def accepted (net : Net D) : Action D → List (Leg D)
  | .sendto daemon true =>
      match net.senders daemon with
      | .sending ns (peer :: _) _ => [(daemon, peer, ns)]
      | _ => []
  | _ => []

/-- The legs that come to nothing, since `socket` or `sendto` fails. -/
def refused (net : Net D) : Action D → List (Leg D)
  | .sendto daemon false =>
      match net.senders daemon with
      | .sending ns (peer :: _) _ => [(daemon, peer, ns)]
      | _ => []
  | .socket daemon false =>
      match net.senders daemon with
      | .opening ns rest => rest.map fun peer => (daemon, peer, ns)
      | _ => []
  | _ => []

/-- What the network repeats or makes up. -/
def added (_ : Net D) : Action D → List (Leg D)
  | .duplicate datagram => datagram.leg.toList
  | .forge datagram => datagram.leg.toList
  | _ => []

/-- What the network loses. -/
def lost (_ : Net D) : Action D → List (Leg D)
  | .lose datagram => datagram.leg.toList
  | _ => []

/-- What is received. -/
def arrived (_ : Net D) : Action D → List (Leg D)
  | .receive datagram => datagram.leg.toList
  | _ => []

/-- The hits of which no datagram leaves, so that the daemon delays its own victims. -/
def localHits (cfg : Config D) (net : Net D) : Action D → List (D × UInt64)
  | .hit daemon ns call =>
      match (resolvePeers cfg daemon true).answer (net.peers daemon) call with
      | some _ => []
      | none => [(daemon, ns)]
  | .socket daemon false =>
      match net.senders daemon with
      | .opening ns _ => [(daemon, ns)]
      | _ => []
  | .finish daemon =>
      match net.senders daemon with
      | .sending ns [] false => [(daemon, ns)]
      | _ => []
  | _ => []

/-- The calls of `ghost_delay`: the sender of the datagram, if there is one, the daemon, the pid and the delay. -/
def ghosts (net : Net D) : Action D → List (Option D × D × Int32 × UInt64)
  | .ghost daemon =>
      match net.senders daemon with
      | .applying ns (pid :: _) => [(none, daemon, pid, ns)]
      | _ => []
  | .ghostReceived daemon =>
      match net.receivers daemon with
      | .applying src ns (pid :: _) => [(some src, daemon, pid, ns)]
      | _ => []
  | _ => []

/-! ### What is left to do -/

/-- The datagrams that a sender is still to send to a peer. -/
def Sender.toSend (sender : Sender D) (peer : D) (ns : UInt64) : ℕ :=
  match sender with
  | .opening delay rest => if delay = ns then rest.count peer else 0
  | .sending delay rest _ => if delay = ns then rest.count peer else 0
  | _ => 0

/-- The calls that a sender is still to make. -/
def Sender.toCall (sender : Sender D) (pid : Int32) (ns : UInt64) : ℕ :=
  match sender with
  | .applying delay rest => if delay = ns then rest.count pid else 0
  | _ => 0

/-- The calls that a receiver is still to make for a sender. -/
def Receiver.toCall (receiver : Receiver D) (src : D) (pid : Int32) (ns : UInt64) : ℕ :=
  match receiver with
  | .applying sender delay rest => if sender = src ∧ delay = ns then rest.count pid else 0
  | .waiting => 0

/-- The datagrams in flight on a leg. -/
def Net.flying (net : Net D) (leg : Leg D) : ℕ :=
  (net.inFlight.filterMap Datagram.leg).count leg

section Left

variable {peer : D} {pid : Int32} {ns delay : UInt64} {rest : List D} {pids : List Int32} {sent : Bool}

@[simp] theorem toSend_idle : (Sender.idle : Sender D).toSend peer ns = 0 := rfl

@[simp] theorem toSend_opening : (Sender.opening delay rest).toSend peer ns = if delay = ns then rest.count peer else 0 := rfl

@[simp] theorem toSend_sending :
    (Sender.sending delay rest sent).toSend peer ns = if delay = ns then rest.count peer else 0 := rfl

@[simp] theorem toSend_applying : (Sender.applying delay pids : Sender D).toSend peer ns = 0 := rfl

omit [DecidableEq D]

@[simp] theorem toCall_idle : (Sender.idle : Sender D).toCall pid ns = 0 := rfl

@[simp] theorem toCall_opening : (Sender.opening delay rest).toCall pid ns = 0 := rfl

@[simp] theorem toCall_sending : (Sender.sending delay rest sent).toCall pid ns = 0 := rfl

@[simp] theorem toCall_applying :
    (Sender.applying delay pids : Sender D).toCall pid ns = if delay = ns then pids.count pid else 0 := rfl

end Left

@[simp] theorem toCall_waiting {src : D} {pid : Int32} {ns : UInt64} :
    (Receiver.waiting : Receiver D).toCall src pid ns = 0 := rfl

end Steps

/-! ### What a step does -/

section Effects

variable {D : Type} [DecidableEq D] {cfg : Config D} {net next : Net D} {action : Action D}

/-- The ways a step can end. -/
inductive Effect (cfg : Config D) (net : Net D) : Action D → Net D → Prop
  | planned (daemon : D) (delay : UInt64) (call : Expiring.Call Unit (Option (List D))) (cache : Expiring.Cache Unit (List D))
      (peers : List D) (idle : net.senders daemon = .idle)
      (found : (resolvePeers cfg daemon true).answer (net.peers daemon) call = some peers) :
      Effect cfg net (.hit daemon delay call)
        { net with
          peers := Function.update net.peers daemon cache
          senders := Function.update net.senders daemon (.opening delay peers) }
  | alone (daemon : D) (delay : UInt64) (call : Expiring.Call Unit (Option (List D))) (cache : Expiring.Cache Unit (List D))
      (idle : net.senders daemon = .idle)
      (unresolved : (resolvePeers cfg daemon true).answer (net.peers daemon) call = none) :
      Effect cfg net (.hit daemon delay call)
        { net with
          peers := Function.update net.peers daemon cache
          senders := Function.update net.senders daemon (cfg.fallback daemon delay) }
  | opened (daemon : D) (delay : UInt64) (rest : List D) (opening : net.senders daemon = .opening delay rest) :
      Effect cfg net (.socket daemon true)
        { net with senders := Function.update net.senders daemon (.sending delay rest false) }
  | unopened (daemon : D) (delay : UInt64) (rest : List D) (opening : net.senders daemon = .opening delay rest) :
      Effect cfg net (.socket daemon false)
        { net with senders := Function.update net.senders daemon (cfg.fallback daemon delay) }
  | sent (daemon : D) (delay : UInt64) (peer : D) (rest : List D) (before : Bool)
      (sending : net.senders daemon = .sending delay (peer :: rest) before) :
      Effect cfg net (.sendto daemon true)
        { net with
          senders := Function.update net.senders daemon (.sending delay rest true)
          inFlight := ⟨daemon, peer, be64 delay.toNat⟩ :: net.inFlight }
  | unsent (daemon : D) (delay : UInt64) (peer : D) (rest : List D) (before : Bool)
      (sending : net.senders daemon = .sending delay (peer :: rest) before) :
      Effect cfg net (.sendto daemon false)
        { net with senders := Function.update net.senders daemon (.sending delay rest before) }
  | finished (daemon : D) (delay : UInt64) (sending : net.senders daemon = .sending delay [] true) :
      Effect cfg net (.finish daemon) { net with senders := Function.update net.senders daemon .idle }
  | failed (daemon : D) (delay : UInt64) (sending : net.senders daemon = .sending delay [] false) :
      Effect cfg net (.finish daemon)
        { net with senders := Function.update net.senders daemon (cfg.fallback daemon delay) }
  | ghost (daemon : D) (delay : UInt64) (pid : Int32) (rest : List Int32)
      (applying : net.senders daemon = .applying delay (pid :: rest)) :
      Effect cfg net (.ghost daemon) { net with senders := Function.update net.senders daemon (.applying delay rest) }
  | applied (daemon : D) (delay : UInt64) (applying : net.senders daemon = .applying delay []) :
      Effect cfg net (.applied daemon) { net with senders := Function.update net.senders daemon .idle }
  | lost (datagram : Datagram D) (flying : datagram ∈ net.inFlight) :
      Effect cfg net (.lose datagram) { net with inFlight := net.inFlight.erase datagram }
  | duplicated (datagram : Datagram D) (flying : datagram ∈ net.inFlight) :
      Effect cfg net (.duplicate datagram) { net with inFlight := datagram :: net.inFlight }
  | forged (datagram : Datagram D) : Effect cfg net (.forge datagram) { net with inFlight := datagram :: net.inFlight }
  | received (datagram : Datagram D) (waiting : net.receivers datagram.dst = .waiting) (flying : datagram ∈ net.inFlight) :
      Effect cfg net (.receive datagram)
        { net with
          receivers := Function.update net.receivers datagram.dst (cfg.taken datagram)
          inFlight := net.inFlight.erase datagram }
  | ghostReceived (daemon src : D) (delay : UInt64) (pid : Int32) (rest : List Int32)
      (applying : net.receivers daemon = .applying src delay (pid :: rest)) :
      Effect cfg net (.ghostReceived daemon)
        { net with receivers := Function.update net.receivers daemon (.applying src delay rest) }
  | appliedReceived (daemon src : D) (delay : UInt64) (applying : net.receivers daemon = .applying src delay []) :
      Effect cfg net (.appliedReceived daemon) { net with receivers := Function.update net.receivers daemon .waiting }

theorem effect_of_step (moved : step cfg net action = some next) : Effect cfg net action next := by
  revert moved
  fun_cases step cfg net action with
  | case1 daemon delay call idle plan here =>
      intro moved
      obtain ⟨cache, -, rfl⟩ := Option.map_eq_some_iff.mp moved
      cases found : (resolvePeers cfg daemon true).answer (net.peers daemon) call with
      | some peers => exact .planned daemon delay call cache peers idle found
      | none => exact .alone daemon delay call cache idle found
  | case4 daemon opened delay rest opening =>
      intro moved
      obtain rfl := Option.some.inj moved
      cases opened with
      | true => exact .opened daemon delay rest opening
      | false => exact .unopened daemon delay rest opening
  | case6 daemon accepted delay peer rest sent sending =>
      intro moved
      obtain rfl := Option.some.inj moved
      cases accepted with
      | true => simpa using Effect.sent daemon delay peer rest sent sending
      | false => simpa using Effect.unsent daemon delay peer rest sent sending
  | case8 daemon delay sent sending =>
      intro moved
      obtain rfl := Option.some.inj moved
      cases sent with
      | true => exact .finished daemon delay sending
      | false => exact .failed daemon delay sending
  | case10 daemon delay pid rest applying =>
      intro moved
      obtain rfl := Option.some.inj moved
      exact .ghost daemon delay pid rest applying
  | case12 daemon delay applying =>
      intro moved
      obtain rfl := Option.some.inj moved
      exact .applied daemon delay applying
  | case14 datagram flying =>
      intro moved
      obtain rfl := Option.some.inj moved
      exact .lost datagram flying
  | case16 datagram flying =>
      intro moved
      obtain rfl := Option.some.inj moved
      exact .duplicated datagram flying
  | case18 datagram =>
      intro moved
      obtain rfl := Option.some.inj moved
      exact .forged datagram
  | case19 datagram waiting flying =>
      intro moved
      obtain rfl := Option.some.inj moved
      exact .received datagram waiting flying
  | case22 daemon src delay pid rest applying =>
      intro moved
      obtain rfl := Option.some.inj moved
      exact .ghostReceived daemon src delay pid rest applying
  | case24 daemon src delay applying =>
      intro moved
      obtain rfl := Option.some.inj moved
      exact .appliedReceived daemon src delay applying
  | _ => exact fun moved => by cases moved

/-! ### The balances of a step -/

variable {daemon src dst peer : D} {ns delay : UInt64} {pid : Int32} {new : Sender D}

theorem count_legs (rest : List D) :
    (rest.map fun peer => (daemon, peer, delay)).count (src, dst, ns) =
      if daemon = src ∧ delay = ns then rest.count dst else 0 := by
  induction rest with
  | nil => simp
  | cons peer rest ih =>
      rw [List.map_cons, List.count_cons, ih, List.count_cons]
      by_cases same : daemon = src ∧ delay = ns
      · obtain ⟨rfl, rfl⟩ := same
        simp
      · rw [if_neg same, if_neg same, Nat.zero_add, if_neg]
        simpa [and_comm, and_assoc] using fun here there => fun last => same ⟨here, last⟩

@[simp] theorem toSend_fallback : (cfg.fallback daemon delay).toSend peer ns = 0 := by
  unfold Config.fallback
  split <;> rfl

/-- **What is planned is sent, refused or still to send.** -/
theorem planned_balance (effect : Effect cfg net action next) :
    (next.senders src).toSend dst ns + ((accepted net action).count (src, dst, ns) +
      (refused net action).count (src, dst, ns)) =
        (net.senders src).toSend dst ns + (planned cfg net action).count (src, dst, ns) := by
  cases effect with
  | planned daemon delay call cache peers idle found =>
      by_cases same : src = daemon
      · subst same
        simp [accepted, refused, planned, found, idle, count_legs]
      · simp [accepted, refused, planned, found, Function.update_of_ne same, count_legs, Ne.symm same]
  | alone daemon delay call cache idle unresolved =>
      by_cases same : src = daemon
      · subst same
        simp [accepted, refused, planned, unresolved, idle]
      · simp [accepted, refused, planned, unresolved, Function.update_of_ne same]
  | opened daemon delay rest opening =>
      by_cases same : src = daemon
      · subst same
        simp [accepted, refused, planned, opening]
      · simp [accepted, refused, planned, Function.update_of_ne same]
  | unopened daemon delay rest opening =>
      by_cases same : src = daemon
      · subst same
        simp [accepted, refused, planned, opening, count_legs]
      · simp [accepted, refused, planned, opening, Function.update_of_ne same, count_legs, Ne.symm same]
  | sent daemon delay peer rest before sending | unsent daemon delay peer rest before sending =>
      by_cases same : src = daemon
      · subst same
        by_cases delay' : delay = ns
        · simp [accepted, refused, planned, sending, delay', List.count_cons]
        · simp [accepted, refused, planned, sending, delay']
      · simp [accepted, refused, planned, sending, Function.update_of_ne same, Ne.symm same]
  | finished daemon delay sending | failed daemon delay sending =>
      by_cases same : src = daemon
      · subst same
        simp [accepted, refused, planned, sending]
      · simp [accepted, refused, planned, Function.update_of_ne same]
  | ghost daemon delay pid rest applying =>
      by_cases same : src = daemon
      · subst same
        simp [accepted, refused, planned, applying]
      · simp [accepted, refused, planned, Function.update_of_ne same]
  | applied daemon delay applying =>
      by_cases same : src = daemon
      · subst same
        simp [accepted, refused, planned, applying]
      · simp [accepted, refused, planned, Function.update_of_ne same]
  | _ => rfl

theorem bigEndian_be64 {value : ℕ} (fits : value < 2 ^ 64) : bigEndian (be64 value) = value := by
  simp only [bigEndian, be64, List.foldl_cons, List.foldl_nil, Nat.toUInt8, UInt8.toNat_ofNat']
  omega

omit [DecidableEq D] in
/-- A delay is received as it was sent. -/
theorem leg_sent : (Datagram.mk daemon peer (be64 delay.toNat)).leg = some (daemon, peer, delay) := by
  have long : 8 ≤ (be64 delay.toNat).length := Nat.le_refl 8
  have whole : (be64 delay.toNat).take 8 = be64 delay.toNat := rfl
  rw [Datagram.leg]
  dsimp only
  rw [if_pos long, whole, bigEndian_be64 delay.toNat_lt, UInt64.ofNat_toNat]

theorem flying_cons (datagram : Datagram D) (leg : Leg D) :
    ((datagram :: net.inFlight).filterMap Datagram.leg).count leg = net.flying leg + datagram.leg.toList.count leg := by
  unfold Net.flying
  cases found : datagram.leg with
  | none => rw [List.filterMap_cons_none found, Option.toList_none, List.count_nil, Nat.add_zero]
  | some other =>
      rw [List.filterMap_cons_some found, List.count_cons, Option.toList_some, List.count_cons, List.count_nil, Nat.zero_add]

theorem flying_erase {datagram : Datagram D} (flying : datagram ∈ net.inFlight) (leg : Leg D) :
    ((net.inFlight.erase datagram).filterMap Datagram.leg).count leg + datagram.leg.toList.count leg = net.flying leg := by
  have same := ((List.perm_cons_erase flying).filterMap Datagram.leg).count_eq leg
  rw [Net.flying, same]
  exact (@flying_cons D _ { net with inFlight := net.inFlight.erase datagram } datagram leg).symm

/-- **What is sent, repeated or forged arrives, is lost or is in flight.** -/
theorem flying_balance (effect : Effect cfg net action next) (leg : Leg D) :
    next.flying leg + ((arrived net action).count leg + (lost net action).count leg) =
      net.flying leg + ((accepted net action).count leg + (added net action).count leg) := by
  cases effect with
  | sent daemon delay peer rest before sending =>
      have more := @flying_cons D _ net ⟨daemon, peer, be64 delay.toNat⟩ leg
      rw [leg_sent] at more
      simp only [arrived, lost, accepted, added, sending, List.count_nil, Nat.add_zero]
      exact more
  | lost datagram flying =>
      simp only [arrived, lost, accepted, added, List.count_nil, Nat.add_zero, Nat.zero_add]
      exact flying_erase flying leg
  | received datagram waiting flying =>
      simp only [arrived, lost, accepted, added, List.count_nil, Nat.add_zero]
      exact flying_erase flying leg
  | duplicated datagram flying =>
      simp only [arrived, lost, accepted, added, List.count_nil, Nat.add_zero, Nat.zero_add]
      exact flying_cons datagram leg
  | forged datagram =>
      simp only [arrived, lost, accepted, added, List.count_nil, Nat.add_zero, Nat.zero_add]
      exact flying_cons datagram leg
  | unsent daemon delay peer rest before sending => simp [arrived, lost, accepted, added, Net.flying]
  | _ => rfl

omit [DecidableEq D] in
theorem ends_of_leg {datagram : Datagram D} {leg : Leg D} (found : datagram.leg = some leg) :
    leg.1 = datagram.src ∧ leg.2.1 = datagram.dst := by
  obtain ⟨-, same⟩ := Option.ite_none_right_eq_some.mp found
  obtain rfl := Option.some.inj same
  exact ⟨rfl, rfl⟩

/-- The calls that a datagram makes. -/
theorem toCall_taken {datagram : Datagram D} (nonzero : ns ≠ 0) : (cfg.taken datagram).toCall src pid ns =
    (cfg.victims datagram.dst).count pid * datagram.leg.toList.count (src, datagram.dst, ns) := by
  unfold Config.taken
  cases found : datagram.leg with
  | none => simp
  | some leg =>
      obtain ⟨from', to', delay⟩ := leg
      obtain ⟨rfl, rfl⟩ := ends_of_leg found
      dsimp only
      by_cases zero : delay = 0
      · have other : delay ≠ ns := fun same => nonzero (same.symm.trans zero)
        rw [if_pos zero]
        simp [other]
      · rw [if_neg zero]
        by_cases same : datagram.src = src ∧ delay = ns
        · obtain ⟨rfl, rfl⟩ := same
          simp [Receiver.toCall]
        · have apart : (datagram.src, datagram.dst, delay) ≠ (src, datagram.dst, ns) := by
            simpa using fun first => fun last => same ⟨first, last⟩
          simp [Receiver.toCall, if_neg same, apart]

/-- **What has arrived is a call for each victim, made or still to make.** -/
theorem received_balance (effect : Effect cfg net action next) (nonzero : ns ≠ 0) :
    (next.receivers dst).toCall src pid ns + (ghosts net action).count (some src, dst, pid, ns) =
      (net.receivers dst).toCall src pid ns +
        (cfg.victims dst).count pid * (arrived net action).count (src, dst, ns) := by
  cases effect with
  | received datagram waiting flying =>
      by_cases same : dst = datagram.dst
      · subst same
        dsimp only
        rw [Function.update_self, toCall_taken nonzero, waiting]
        simp [ghosts, arrived]
      · have other : datagram.leg.toList.count (src, dst, ns) = 0 := by
          rw [List.count_eq_zero]
          intro among
          exact same (ends_of_leg (Option.mem_toList.mp among)).2
        simp [ghosts, arrived, Function.update_of_ne same, other]
  | ghostReceived daemon sender delay first rest applying =>
      by_cases same : dst = daemon
      · subst same
        by_cases here : sender = src ∧ delay = ns
        · obtain ⟨rfl, rfl⟩ := here
          simp [ghosts, arrived, applying, Receiver.toCall, List.count_cons]
        · simp only [ghosts, arrived, applying, Receiver.toCall, Function.update_self, if_neg here]
          have apart : (some sender, dst, first, delay) ≠ (some src, dst, pid, ns) := by
            simp only [ne_eq, Prod.mk.injEq, Option.some.injEq]
            exact fun both => here ⟨both.1, both.2.2.2⟩
          simp [apart]
      · simp [ghosts, arrived, applying, Function.update_of_ne same, Ne.symm same]
  | appliedReceived daemon sender delay applying =>
      by_cases same : dst = daemon
      · subst same
        simp [ghosts, arrived, applying, Receiver.toCall]
      · simp [ghosts, arrived, Function.update_of_ne same]
  | ghost daemon delay first rest applying => simp [ghosts, arrived, applying]
  | _ => rfl

omit [DecidableEq D] in
theorem toCall_fallback (nonzero : ns ≠ 0) :
    (cfg.fallback daemon delay).toCall pid ns = if delay = ns then (cfg.victims daemon).count pid else 0 := by
  unfold Config.fallback
  by_cases zero : delay = 0
  · rw [if_pos zero, if_neg fun same => nonzero (same.symm.trans zero)]
    rfl
  · rw [if_neg zero]
    rfl

/-- **A hit of which nothing is sent is a call for each victim, made or still to make.** -/
theorem local_balance (effect : Effect cfg net action next) (nonzero : ns ≠ 0) :
    (next.senders dst).toCall pid ns + (ghosts net action).count (none, dst, pid, ns) =
      (net.senders dst).toCall pid ns + (cfg.victims dst).count pid * (localHits cfg net action).count (dst, ns) := by
  cases effect with
  | planned daemon delay call cache peers idle found =>
      by_cases same : dst = daemon
      · subst same
        simp [ghosts, localHits, idle, found]
      · simp [ghosts, localHits, found, Function.update_of_ne same]
  | alone daemon delay call cache idle unresolved =>
      by_cases same : dst = daemon
      · subst same
        simp [ghosts, localHits, idle, unresolved, toCall_fallback nonzero, List.count_cons]
      · simp [ghosts, localHits, unresolved, Function.update_of_ne same, Ne.symm same]
  | opened daemon delay rest opening =>
      by_cases same : dst = daemon
      · subst same
        simp [ghosts, localHits, opening]
      · simp [ghosts, localHits, Function.update_of_ne same]
  | unopened daemon delay rest opening =>
      by_cases same : dst = daemon
      · subst same
        simp [ghosts, localHits, opening, toCall_fallback nonzero, List.count_cons]
      · simp [ghosts, localHits, opening, Function.update_of_ne same, Ne.symm same]
  | sent daemon delay peer rest before sending | unsent daemon delay peer rest before sending =>
      by_cases same : dst = daemon
      · subst same
        simp [ghosts, localHits, sending]
      · simp [ghosts, localHits, Function.update_of_ne same]
  | finished daemon delay sending =>
      by_cases same : dst = daemon
      · subst same
        simp [ghosts, localHits, sending]
      · simp [ghosts, localHits, sending, Function.update_of_ne same]
  | failed daemon delay sending =>
      by_cases same : dst = daemon
      · subst same
        simp [ghosts, localHits, sending, toCall_fallback nonzero, List.count_cons]
      · simp [ghosts, localHits, sending, Function.update_of_ne same, Ne.symm same]
  | ghost daemon delay first rest applying =>
      by_cases same : dst = daemon
      · subst same
        by_cases here : delay = ns
        · subst here
          simp [ghosts, localHits, applying, List.count_cons]
        · simp [ghosts, localHits, applying, here]
      · simp [ghosts, localHits, applying, Function.update_of_ne same, Ne.symm same]
  | applied daemon delay applying =>
      by_cases same : dst = daemon
      · subst same
        simp [ghosts, localHits, applying]
      · simp [ghosts, localHits, Function.update_of_ne same]
  | ghostReceived daemon sender delay first rest applying => simp [ghosts, localHits, applying]
  | _ => rfl

end Effects

/-! ### Runs -/

section Runs

variable {D : Type} [DecidableEq D] {cfg : Config D} {final : Net D} {actions : List (Action D)}

/-- How often something is observed in a run. -/
def times {β : Type} [BEq β] (cfg : Config D) (observe : Net D → Action D → List β) (actions : List (Action D))
    (item : β) : ℕ :=
  (trace (step cfg) observe (start D) actions).count item

theorem times_eq_total {β : Type} [BEq β] (observe : Net D → Action D → List β)
    (ran : run (step cfg) (start D) actions = some final) (item : β) : times cfg observe actions item =
      total (step cfg) (fun net action => (observe net action).count item) (start D) actions :=
  count_trace ran item

variable {src dst : D} {ns : UInt64} {pid : Int32}

theorem planned_times (ran : run (step cfg) (start D) actions = some final) :
    times cfg (planned cfg) actions (src, dst, ns) =
      times cfg accepted actions (src, dst, ns) + times cfg refused actions (src, dst, ns) +
        (final.senders src).toSend dst ns := by
  have balance := stock_of_run (fun net : Net D => (net.senders src).toSend dst ns) ran
    (fun net action next moved => planned_balance (effect_of_step moved))
  rw [total_add ran] at balance
  rw [times_eq_total _ ran, times_eq_total _ ran, times_eq_total _ ran]
  simp only [start, toSend_idle] at balance ⊢
  omega

theorem flying_times (ran : run (step cfg) (start D) actions = some final) (leg : Leg D) :
    times cfg accepted actions leg + times cfg added actions leg =
      times cfg arrived actions leg + times cfg lost actions leg + final.flying leg := by
  have balance := stock_of_run (fun net : Net D => net.flying leg) ran
    (fun net action next moved => flying_balance (effect_of_step moved) leg)
  rw [total_add ran, total_add ran] at balance
  rw [times_eq_total _ ran, times_eq_total _ ran, times_eq_total _ ran, times_eq_total _ ran]
  have nothing : (start D).flying leg = 0 := rfl
  omega

omit [DecidableEq D] in
theorem count_victims (daemon : D) (pid : Int32) :
    (cfg.victims daemon).count pid = if pid ∈ cfg.victims daemon then 1 else 0 := by
  by_cases victim : pid ∈ cfg.victims daemon
  · rw [if_pos victim, List.count_eq_one_of_mem (cfg.distinct daemon) victim]
  · rw [if_neg victim, List.count_eq_zero_of_not_mem victim]

theorem received_times (ran : run (step cfg) (start D) actions = some final) (nonzero : ns ≠ 0) :
    times cfg ghosts actions (some src, dst, pid, ns) + (final.receivers dst).toCall src pid ns =
      if pid ∈ cfg.victims dst then times cfg arrived actions (src, dst, ns) else 0 := by
  have balance := stock_of_run (fun net : Net D => (net.receivers dst).toCall src pid ns) ran
    (fun net action next moved => received_balance (effect_of_step moved) nonzero)
  rw [total_mul _ ran, count_victims, ite_mul, one_mul, zero_mul] at balance
  rw [times_eq_total _ ran, times_eq_total _ ran]
  simp only [start, toCall_waiting] at balance ⊢
  omega

theorem local_times (ran : run (step cfg) (start D) actions = some final) (nonzero : ns ≠ 0) :
    times cfg ghosts actions (none, dst, pid, ns) + (final.senders dst).toCall pid ns =
      if pid ∈ cfg.victims dst then times cfg (localHits cfg) actions (dst, ns) else 0 := by
  have balance := stock_of_run (fun net : Net D => (net.senders dst).toCall pid ns) ran
    (fun net action next moved => local_balance (effect_of_step moved) nonzero)
  rw [total_mul _ ran, count_victims, ite_mul, one_mul, zero_mul] at balance
  rw [times_eq_total _ ran, times_eq_total _ ran]
  simp only [start, toCall_idle] at balance ⊢
  omega

/-- **Delays are conserved**: where nothing goes wrong on the way, a victim is delayed as often as was planned. -/
theorem delays_conserved (ran : run (step cfg) (start D) actions = some final) (nonzero : ns ≠ 0) (src dst : D) (pid : Int32) :
    times cfg (planned cfg) actions (src, dst, ns) =
        times cfg accepted actions (src, dst, ns) + times cfg refused actions (src, dst, ns) +
          (final.senders src).toSend dst ns ∧
      times cfg accepted actions (src, dst, ns) + times cfg added actions (src, dst, ns) =
        times cfg arrived actions (src, dst, ns) + times cfg lost actions (src, dst, ns) + final.flying (src, dst, ns) ∧
      (times cfg ghosts actions (some src, dst, pid, ns) + (final.receivers dst).toCall src pid ns =
        if pid ∈ cfg.victims dst then times cfg arrived actions (src, dst, ns) else 0) ∧
      (times cfg ghosts actions (none, dst, pid, ns) + (final.senders dst).toCall pid ns =
        if pid ∈ cfg.victims dst then times cfg (localHits cfg) actions (dst, ns) else 0) ∧
      times cfg ghosts actions (some src, dst, pid, ns) ≤
        times cfg (planned cfg) actions (src, dst, ns) + times cfg added actions (src, dst, ns) ∧
      (pid ∈ cfg.victims dst →
        times cfg refused actions (src, dst, ns) = 0 → times cfg added actions (src, dst, ns) = 0 →
        times cfg lost actions (src, dst, ns) = 0 → (final.senders src).toSend dst ns = 0 →
        final.flying (src, dst, ns) = 0 → (final.receivers dst).toCall src pid ns = 0 →
        times cfg ghosts actions (some src, dst, pid, ns) = times cfg (planned cfg) actions (src, dst, ns)) := by
  have first := @planned_times D _ cfg final actions src dst ns ran
  have second := flying_times ran (src, dst, ns)
  have third := @received_times D _ cfg final actions src dst ns pid ran nonzero
  refine ⟨first, second, third, local_times ran nonzero, ?_, ?_⟩
  · split at third <;> omega
  · intro victim refused added lost toSend flying toCall
    rw [if_pos victim] at third
    omega

/-- Two daemons, each with one victim. -/
def pair : Config Bool where
  victims := fun daemon => if daemon then [41] else [42]
  distinct := fun daemon => by cases daemon <;> exact List.nodup_singleton _
  selfIp := some
  enabled := fun _ => true

/-- A hit that reaches the other daemon; its own datagram is lost. -/
def hitOnce : List (Action Bool) :=
  [.hit false 5000 ⟨(), some [false, true], 7, 7⟩, .socket false true, .sendto false true, .sendto false true,
    .finish false, .lose ⟨false, false, be64 5000⟩, .receive ⟨false, true, be64 5000⟩, .ghostReceived true,
    .appliedReceived true]

theorem delays_conserved_pair : ∃ final, run (step pair) (start Bool) hitOnce = some final ∧
    times pair ghosts hitOnce (some false, true, 41, 5000) + (final.receivers true).toCall false 41 5000 =
      times pair arrived hitOnce (false, true, 5000) ∧
    times pair ghosts hitOnce (some false, true, 41, 5000) = 1 := by
  obtain ⟨final, ran⟩ := Option.isSome_iff_exists.mp
    (by decide +kernel : (run (step pair) (start Bool) hitOnce).isSome)
  have nonzero : (5000 : UInt64) ≠ 0 := by decide
  exact ⟨final, ran, (delays_conserved ran nonzero false true 41).2.2.1, by decide +kernel⟩

end Runs

end DelayNet

end Mcoz.Sampler
