/-
A client that sends requests over connections, one at a time.

The client's threads share one connection under one lock. The holder of the lock sends a request on the
connection, or on a new one if there is none, and takes the next reply that comes back on it; when
something fails it drops the connection and leaves the lock. The server may answer a request at any
time, also after its connection was dropped; the replies on a connection keep their order.

* `Settled`, what holds in every state: the live connection carries no reply but the one to the
  holder's own request;
* `taken_reply`: what the holder takes is the reply to its own request;
* `balance_step`: of the worth of the replies given, each is taken once at most.
-/

import Mathlib.Algebra.BigOperators.Group.Finset.Basic
import Mathlib.Logic.Function.Basic

set_option autoImplicit false

namespace Link

open Finset

variable {Req Rep : Type}

/-! ### The machine -/

/-- A request on a connection, and its reply once the server has given it. -/
structure Exchange (Req Rep : Type) where
  conn : ℕ
  request : Req
  reply : Option Rep

/-- The client's end and the connections. `holder` is the owner of the lock, with the number of the
exchange that it has begun; `streams` holds the replies that were given but not taken. -/
structure State (Req Rep : Type) where
  holder : Option (ℕ × Option ℕ)
  conn : Option ℕ
  nextConn : ℕ
  exchanges : List (Exchange Req Rep)
  streams : ℕ → List Rep

/-- No connection yet. -/
def init : State Req Rep :=
  ⟨none, none, 0, [], fun _ => []⟩

/-- What happens on a link. -/
inductive Event (Req Rep : Type)
  | acquire (owner : ℕ)
  | post (request : Req)
  | reply (index : ℕ) (reply : Rep)
  | receive (closes : Bool)
  | fail

namespace State

/-- The exchange that the holder of the lock has begun. -/
def inFlight (link : State Req Rep) : Option (Exchange Req Rep) :=
  (link.holder.bind Prod.snd).bind fun index => link.exchanges[index]?

/-- The next reply of the live connection. -/
def next (link : State Req Rep) : Option Rep :=
  link.conn.bind fun conn => (link.streams conn).head?

/-- The requests that were sent. -/
def requests (link : State Req Rep) : List Req :=
  link.exchanges.map Exchange.request

/-- The holder has sent a request. -/
def posted (link : State Req Rep) (owner : ℕ) (request : Req) : State Req Rep :=
  let conn := link.conn.getD link.nextConn
  { link with
    holder := some (owner, some link.exchanges.length)
    conn := some conn
    nextConn := max link.nextConn (conn + 1)
    exchanges := link.exchanges ++ [⟨conn, request, none⟩] }

/-- The server has answered an exchange. -/
def replied (link : State Req Rep) (index conn : ℕ) (request : Req) (reply : Rep) :
    State Req Rep :=
  { link with
    exchanges := link.exchanges.set index ⟨conn, request, some reply⟩
    streams := Function.update link.streams conn (link.streams conn ++ [reply]) }

/-- The holder has taken a reply. -/
def received (link : State Req Rep) (conn : ℕ) (rest : List Rep) (closes : Bool) :
    State Req Rep :=
  { link with
    holder := none
    conn := if closes then none else some conn
    streams := Function.update link.streams conn rest }

/-- One event. -/
def step (link : State Req Rep) : Event Req Rep → Option (State Req Rep)
  | .acquire owner =>
      match link.holder with
      | none => some { link with holder := some (owner, none) }
      | some _ => none
  | .post request =>
      match link.holder with
      | some (owner, none) => some (link.posted owner request)
      | _ => none
  | .reply index reply =>
      match link.exchanges[index]? with
      | some ⟨conn, request, none⟩ => some (link.replied index conn request reply)
      | _ => none
  | .receive closes =>
      match link.holder, link.conn with
      | some (_, some _), some conn =>
          match link.streams conn with
          | _ :: rest => some (link.received conn rest closes)
          | [] => none
      | _, _ => none
  | .fail =>
      match link.holder with
      | some _ => some { link with holder := none, conn := none }
      | none => none

end State

open State

/-- The event that happened. -/
inductive Effect (link : State Req Rep) : Event Req Rep → State Req Rep → Prop
  | acquired {owner : ℕ} (free : link.holder = none) :
      Effect link (.acquire owner) { link with holder := some (owner, none) }
  | posted {owner : ℕ} {request : Req} (held : link.holder = some (owner, none)) :
      Effect link (.post request) (link.posted owner request)
  | replied {index conn : ℕ} {request : Req} {reply : Rep}
      (here : link.exchanges[index]? = some ⟨conn, request, none⟩) :
      Effect link (.reply index reply) (link.replied index conn request reply)
  | received {owner index conn : ℕ} {reply : Rep} {rest : List Rep} {closes : Bool}
      (held : link.holder = some (owner, some index)) (open_ : link.conn = some conn)
      (first : link.streams conn = reply :: rest) :
      Effect link (.receive closes) (link.received conn rest closes)
  | failed {owner : ℕ} {sent : Option ℕ} (held : link.holder = some (owner, sent)) :
      Effect link .fail { link with holder := none, conn := none }

section Step

variable {link next : State Req Rep} {event : Event Req Rep}

theorem effect_of_step (moved : link.step event = some next) : Effect link event next := by
  revert moved
  fun_cases State.step link event with
  | case1 owner free =>
      rintro ⟨⟩
      exact .acquired free
  | case3 request owner held =>
      rintro ⟨⟩
      exact .posted held
  | case5 index reply conn request here =>
      rintro ⟨⟩
      exact .replied here
  | case7 closes owner index conn open_ held reply rest first =>
      rintro ⟨⟩
      exact .received held open_ first
  | case10 owner held =>
      rintro ⟨⟩
      exact .failed held
  | _ => simp

/-- Only the holder sends requests. -/
theorem requests_of_step (moved : link.step event = some next)
    (quiet : ∀ request, event ≠ .post request) : next.requests = link.requests := by
  cases effect_of_step moved with
  | posted held => exact absurd rfl (quiet _)
  | @replied index conn request reply here =>
      obtain ⟨bound, value⟩ := List.getElem?_eq_some_iff.mp here
      refine List.ext_getElem? fun other => ?_
      rw [requests, requests, List.getElem?_map, List.getElem?_map]
      by_cases same : other = index
      · subst same
        rw [State.replied, List.getElem?_set_self bound, here]
        rfl
      · rw [State.replied, List.getElem?_set_ne (Ne.symm same)]
  | _ => rfl

end Step

/-! ### The live connection -/

/-- The live connection carries the reply to the exchange in flight, if it has been given, and no
other; and only that exchange waits for a reply on it. -/
structure Settled (link : State Req Rep) : Prop where
  exchange_fresh : ∀ exchange ∈ link.exchanges, exchange.conn < link.nextConn
  conn_fresh : ∀ conn, link.conn = some conn → conn < link.nextConn
  stream_fresh : ∀ conn, link.nextConn ≤ conn → link.streams conn = []
  sent : ∀ owner index, link.holder = some (owner, some index) →
    ∃ exchange, link.exchanges[index]? = some exchange ∧ link.conn = some exchange.conn
  stream : ∀ conn, link.conn = some conn →
    link.streams conn = (link.inFlight.bind Exchange.reply).toList
  waiting : ∀ index exchange, link.exchanges[index]? = some exchange →
    link.conn = some exchange.conn → exchange.reply = none →
    ∃ owner, link.holder = some (owner, some index)

section Settled

variable {link next : State Req Rep} {event : Event Req Rep}

theorem settled_init : Settled (init : State Req Rep) where
  exchange_fresh := by simp [init]
  conn_fresh := by simp [init]
  stream_fresh _ _ := rfl
  sent := by simp [init]
  stream := by simp [init]
  waiting := by simp [init]

theorem inFlight_none (held : ∀ owner index, link.holder ≠ some (owner, some index)) :
    link.inFlight = none := by
  unfold inFlight
  cases holder : link.holder with
  | none => rfl
  | some pair =>
      obtain ⟨owner, sent⟩ := pair
      cases sent with
      | none => rfl
      | some index => exact absurd holder (held owner index)

theorem inFlight_some {owner index : ℕ} (held : link.holder = some (owner, some index)) :
    link.inFlight = link.exchanges[index]? := by
  rw [inFlight, held]
  rfl

/-- The exchange that was replied to. -/
theorem exchange_replied {index conn : ℕ} {request : Req} (here : link.exchanges[index]? =
    some ⟨conn, request, none⟩) (reply : Rep) :
    (link.replied index conn request reply).exchanges[index]? = some ⟨conn, request, some reply⟩ :=
  List.getElem?_set_self (List.getElem?_eq_some_iff.mp here).1

/-- A reply to another exchange than the one in flight. -/
theorem inFlight_replied {index conn : ℕ} {request : Req} {reply : Rep}
    (apart : ∀ owner, link.holder ≠ some (owner, some index)) :
    (link.replied index conn request reply).inFlight = link.inFlight := by
  cases held : link.holder with
  | none => simp [inFlight, State.replied, held]
  | some pair =>
      obtain ⟨owner, sent⟩ := pair
      cases sent with
      | none => simp [inFlight, State.replied, held]
      | some sent =>
          have still : (link.replied index conn request reply).holder = some (owner, some sent) :=
            held
          rw [inFlight_some still, inFlight_some held]
          refine List.getElem?_set_ne ?_
          rintro rfl
          exact apart owner held

/-- A client that leaves the lock, with its connection or without it. -/
theorem Settled.leave (settled : Settled link) {conn : Option ℕ} {streams : ℕ → List Rep}
    (kept : ∀ live, conn = some live → link.conn = some live ∧ streams live = [])
    (others : ∀ other, link.nextConn ≤ other → streams other = [])
    (answered : ∀ live, conn = some live → ∀ (index : ℕ) (exchange : Exchange Req Rep),
      link.exchanges[index]? = some exchange → exchange.conn = live → exchange.reply ≠ none) :
    Settled { link with holder := none, conn := conn, streams := streams } where
  exchange_fresh := settled.exchange_fresh
  conn_fresh live here := settled.conn_fresh live (kept live here).1
  stream_fresh := others
  sent := by simp
  stream live here := by
    rw [inFlight_none (by simp)]
    exact (kept live here).2
  waiting index exchange there live unanswered :=
    absurd unanswered (answered _ live index exchange there rfl)

theorem Settled.acquired (settled : Settled link) (free : link.holder = none) (owner : ℕ) :
    Settled { link with holder := some (owner, none) } where
  exchange_fresh := settled.exchange_fresh
  conn_fresh := settled.conn_fresh
  stream_fresh := settled.stream_fresh
  sent := by simp
  stream conn live := by
    rw [inFlight_none (by simp)]
    have quiet := settled.stream conn live
    rwa [inFlight_none (by simp [free])] at quiet
  waiting index exchange there live unanswered := by
    obtain ⟨other, held⟩ := settled.waiting index exchange there live unanswered
    cases free.symm.trans held

theorem Settled.posted (settled : Settled link) {owner : ℕ}
    (held : link.holder = some (owner, none)) (request : Req) :
    Settled (link.posted owner request) := by
  have newest : (link.posted owner request).exchanges[link.exchanges.length]? =
      some ⟨link.conn.getD link.nextConn, request, none⟩ := by
    simp [State.posted]
  refine ⟨?_, ?_, ?_, ?_, ?_, ?_⟩
  · intro exchange member
    rcases List.mem_append.mp member with old | new
    · exact lt_of_lt_of_le (settled.exchange_fresh exchange old) (le_max_left _ _)
    · rw [List.mem_singleton.mp new]
      exact lt_of_lt_of_le (Nat.lt_succ_self _) (le_max_right _ _)
  · rintro conn ⟨⟩
    exact lt_of_lt_of_le (Nat.lt_succ_self _) (le_max_right _ _)
  · intro conn fresh
    exact settled.stream_fresh conn (le_trans (le_max_left _ _) fresh)
  · rintro other index ⟨⟩
    exact ⟨_, newest, rfl⟩
  · rintro conn ⟨⟩
    rw [inFlight_some rfl, newest]
    show link.streams (link.conn.getD link.nextConn) = []
    cases live : link.conn with
    | none => exact settled.stream_fresh _ (le_refl _)
    | some conn =>
        have quiet := settled.stream conn live
        rwa [inFlight_none (by simp [held])] at quiet
  · intro index exchange there live unanswered
    by_cases old : index < link.exchanges.length
    · have before : link.exchanges[index]? = some exchange := by
        rw [← there]
        exact (List.getElem?_append_left old).symm
      cases open_ : link.conn with
      | none =>
          have fresh := settled.exchange_fresh exchange (List.mem_of_getElem? before)
          have same : link.conn.getD link.nextConn = exchange.conn := Option.some.inj live
          rw [open_, Option.getD_none] at same
          omega
      | some conn =>
          have same : link.conn.getD link.nextConn = exchange.conn := Option.some.inj live
          rw [open_, Option.getD_some] at same
          obtain ⟨other, sent⟩ := settled.waiting index exchange before (by rw [open_, same])
            unanswered
          cases held.symm.trans sent
    · have bound : index < (link.posted owner request).exchanges.length :=
        (List.getElem?_eq_some_iff.mp there).1
      have last : index = link.exchanges.length := by
        simp only [State.posted, List.length_append, List.length_singleton] at bound
        omega
      exact ⟨owner, by rw [last]; rfl⟩

theorem Settled.replied (settled : Settled link) {index conn : ℕ} {request : Req}
    (here : link.exchanges[index]? = some ⟨conn, request, none⟩) (reply : Rep) :
    Settled (link.replied index conn request reply) := by
  have fresh := settled.exchange_fresh _ (List.mem_of_getElem? here)
  have written := exchange_replied here reply
  have others : ∀ other, other ≠ index →
      (link.replied index conn request reply).exchanges[other]? = link.exchanges[other]? :=
    fun other apart => List.getElem?_set_ne (Ne.symm apart)
  refine ⟨?_, settled.conn_fresh, ?_, ?_, ?_, ?_⟩
  · intro exchange member
    rcases List.mem_or_eq_of_mem_set member with old | rfl
    · exact settled.exchange_fresh exchange old
    · exact fresh
  · intro other above
    show Function.update link.streams conn _ other = []
    rw [Function.update_of_ne (by intro same; subst same; exact absurd fresh (not_lt.mpr above))]
    exact settled.stream_fresh other above
  · intro owner sent held
    obtain ⟨exchange, there, live⟩ := settled.sent owner sent held
    by_cases same : sent = index
    · subst same
      cases there.symm.trans here
      exact ⟨_, written, live⟩
    · exact ⟨exchange, (others sent same).trans there, live⟩
  · intro live open_
    show Function.update link.streams conn _ live = _
    by_cases same : live = conn
    · subst same
      obtain ⟨owner, held⟩ := settled.waiting index _ here open_ rfl
      have quiet := settled.stream live open_
      rw [inFlight_some held, here] at quiet
      have still : (link.replied index live request reply).holder = some (owner, some index) :=
        held
      have now := (inFlight_some still).trans written
      rw [Function.update_self, quiet, now]
      rfl
    · rw [Function.update_of_ne same, settled.stream live open_, inFlight_replied]
      intro owner held
      obtain ⟨exchange, there, its⟩ := settled.sent owner index held
      cases there.symm.trans here
      exact same (Option.some.inj (open_.symm.trans its))
  · intro other exchange there live unanswered
    by_cases same : other = index
    · subst same
      cases written.symm.trans there
      cases unanswered
    · exact settled.waiting other exchange ((others other same).symm.trans there) live unanswered

/-- What the holder takes is the reply to its own request. -/
theorem Settled.taken_reply (settled : Settled link) {owner index conn : ℕ} {reply : Rep}
    {rest : List Rep} (held : link.holder = some (owner, some index))
    (open_ : link.conn = some conn) (first : link.streams conn = reply :: rest) :
    rest = [] ∧ ∃ exchange, link.exchanges[index]? = some exchange ∧
      exchange.reply = some reply ∧ exchange.conn = conn := by
  obtain ⟨exchange, there, live⟩ := settled.sent owner index held
  have only := settled.stream conn open_
  rw [inFlight_some held, there, first, Option.bind_some] at only
  cases given : exchange.reply with
  | none =>
      rw [given] at only
      cases only
  | some answer =>
      rw [given] at only
      cases only
      exact ⟨rfl, exchange, there, given, Option.some.inj (live.symm.trans open_)⟩

theorem Settled.received (settled : Settled link) {owner index conn : ℕ} {reply : Rep}
    {rest : List Rep} (held : link.holder = some (owner, some index))
    (open_ : link.conn = some conn) (first : link.streams conn = reply :: rest) (closes : Bool) :
    Settled (link.received conn rest closes) := by
  obtain ⟨rfl, exchange, there, given, its⟩ := settled.taken_reply held open_ first
  have kept : ∀ live, (if closes then none else some conn) = some live → live = conn := by
    intro live same
    cases closes <;> cases same
    rfl
  refine settled.leave (fun live same => ?_) (fun other fresh => ?_)
    fun live same other exchange' there' its' unanswered => ?_
  · rw [kept live same]
    exact ⟨open_, Function.update_self _ _ _⟩
  · by_cases same : other = conn
    · rw [same]
      exact Function.update_self _ _ _
    · rw [Function.update_of_ne same]
      exact settled.stream_fresh other fresh
  · obtain ⟨owner', held'⟩ := settled.waiting other exchange' there'
      (by rw [its', kept live same]; exact open_) unanswered
    cases held.symm.trans held'
    cases there.symm.trans there'
    cases given.symm.trans unanswered

theorem Settled.step (settled : Settled link) (moved : link.step event = some next) :
    Settled next := by
  cases effect_of_step moved with
  | acquired free => exact settled.acquired free _
  | posted held => exact settled.posted held _
  | replied here => exact settled.replied here _
  | received held open_ first => exact settled.received held open_ first _
  | failed held =>
      exact settled.leave (by simp) settled.stream_fresh (by simp)

end Settled

/-! ### The worth of replies -/

section Worth

variable (worth : Req → Rep → ℕ)

/-- What an exchange is worth: nothing before it is answered. -/
def exchangeWorth : Option (Exchange Req Rep) → ℕ
  | some ⟨_, request, some reply⟩ => worth request reply
  | _ => 0

/-- What all exchanges are worth. -/
def total (link : State Req Rep) : ℕ :=
  ∑ index ∈ range link.exchanges.length, exchangeWorth worth link.exchanges[index]?

/-- What the exchange in flight is worth. -/
def outstanding (link : State Req Rep) : ℕ :=
  exchangeWorth worth link.inFlight

/-- What the holder takes. -/
def taken (link : State Req Rep) : Event Req Rep → ℕ
  | .receive _ =>
      match link.inFlight, link.next with
      | some exchange, some reply => worth exchange.request reply
      | _, _ => 0
  | _ => 0

variable {worth}

/-- A sum of which one term changes. -/
theorem sum_change {count index : ℕ} (before after : ℕ → ℕ) (below : index < count)
    (others : ∀ other, other ≠ index → after other = before other) :
    (∑ i ∈ range count, after i) + before index = (∑ i ∈ range count, before i) + after index := by
  have member := mem_range.mpr below
  have rest : ∑ i ∈ (range count).erase index, after i = ∑ i ∈ (range count).erase index, before i :=
    sum_congr rfl fun other inside => others other (ne_of_mem_erase inside)
  rw [← add_sum_erase _ after member, ← add_sum_erase _ before member, rest]
  omega

variable {link next : State Req Rep} {event : Event Req Rep}

/-- Without an exchange in flight nothing is outstanding. -/
theorem outstanding_idle (idle : ∀ owner index, link.holder ≠ some (owner, some index)) :
    outstanding worth link = 0 := by
  rw [outstanding, inFlight_none idle]
  rfl

theorem outstanding_posted (owner : ℕ) (request : Req) :
    outstanding worth (link.posted owner request) = 0 := by
  have sent : (link.posted owner request).holder = some (owner, some link.exchanges.length) := rfl
  rw [outstanding, inFlight_some sent, State.posted, List.getElem?_concat_length]
  rfl

theorem total_posted (owner : ℕ) (request : Req) :
    total worth (link.posted owner request) = total worth link := by
  simp only [total, State.posted, List.length_append, List.length_singleton, sum_range_succ,
    List.getElem?_concat_length, exchangeWorth, Nat.add_zero]
  refine sum_congr rfl fun index inside => ?_
  rw [List.getElem?_append_left (mem_range.mp inside)]

/-- A reply adds what it is worth. -/
theorem total_replied {index conn : ℕ} {request : Req}
    (here : link.exchanges[index]? = some ⟨conn, request, none⟩) (reply : Rep) :
    total worth (link.replied index conn request reply) = total worth link + worth request reply := by
  have length : (link.replied index conn request reply).exchanges.length = link.exchanges.length :=
    List.length_set
  have changed : total worth (link.replied index conn request reply) +
      exchangeWorth worth link.exchanges[index]? = total worth link +
      exchangeWorth worth (link.replied index conn request reply).exchanges[index]? := by
    rw [total, total, length]
    exact sum_change _ _ (List.getElem?_eq_some_iff.mp here).1 fun other apart =>
      congrArg (exchangeWorth worth) (List.getElem?_set_ne (Ne.symm apart))
  rw [here, exchange_replied here] at changed
  exact changed

/-- What is outstanding after a reply is this reply, or what it was. -/
theorem outstanding_replied {index conn : ℕ} {request : Req}
    (here : link.exchanges[index]? = some ⟨conn, request, none⟩) (reply : Rep) :
    outstanding worth (link.replied index conn request reply) ≤
      outstanding worth link + worth request reply := by
  by_cases flies : ∃ owner, link.holder = some (owner, some index)
  · obtain ⟨owner, held⟩ := flies
    have still : (link.replied index conn request reply).holder = some (owner, some index) := held
    rw [outstanding, inFlight_some still, exchange_replied here]
    exact Nat.le_add_left _ _
  · rw [outstanding, inFlight_replied fun owner held => flies ⟨owner, held⟩]
    exact Nat.le_add_right _ _

/-- The holder takes what was outstanding. -/
theorem taken_received (settled : Settled link) {owner index conn : ℕ} {reply : Rep} {rest : List Rep}
    (held : link.holder = some (owner, some index)) (open_ : link.conn = some conn)
    (first : link.streams conn = reply :: rest) (closes : Bool) :
    taken worth link (.receive closes) = outstanding worth link := by
  obtain ⟨-, exchange, there, given, -⟩ := settled.taken_reply held open_ first
  have flying : link.inFlight = some exchange := (inFlight_some held).trans there
  have head : link.next = some reply := by
    rw [State.next, open_, Option.bind_some, first]
    rfl
  rw [taken, outstanding, flying, head]
  obtain ⟨_, request, _⟩ := exchange
  cases given
  rfl

/-- What is taken and what is in flight was given, and nothing of it is taken again. -/
theorem balance_step (settled : Settled link) (moved : link.step event = some next) :
    taken worth link event + outstanding worth next + total worth link ≤
      outstanding worth link + total worth next := by
  cases effect_of_step moved with
  | @acquired owner free =>
      have idle : outstanding worth { link with holder := some (owner, none) } = 0 :=
        outstanding_idle (by simp)
      show 0 + _ + total worth link ≤ _ + total worth link
      omega
  | @posted owner request held =>
      rw [outstanding_posted, total_posted]
      show 0 + 0 + total worth link ≤ _
      omega
  | @replied index conn request reply here =>
      have flying : outstanding worth (link.replied index conn request reply) ≤
          outstanding worth link + worth request reply := outstanding_replied here reply
      rw [total_replied here]
      show 0 + _ + _ ≤ _
      omega
  | @received owner index conn reply rest closes held open_ first =>
      have idle : outstanding worth (link.received conn rest closes) = 0 :=
        outstanding_idle fun _ _ held => nomatch held
      have same : total worth (link.received conn rest closes) = total worth link := rfl
      rw [taken_received settled held open_ first, idle, same]
      omega
  | failed held =>
      have idle : outstanding worth { link with holder := none, conn := none } = 0 :=
        outstanding_idle (by simp)
      show 0 + _ + total worth link ≤ _ + total worth link
      omega

end Worth

end Link
