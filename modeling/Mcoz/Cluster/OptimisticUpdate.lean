/-
Updates under an optimistic lock.

`update_api` adds to the value of the `GlobalDelay` object, from a copy of the object that it keeps. It puts the whole
object back under the resource version of its copy, so the server takes a put only if nobody has written since, and
after one conflict it gets the object again and tries once more. Over any number of such updaters, of other writers,
and of requests and answers that are delayed, lost or cut short, no write is undone (`no_update_lost`): the value is
what it was at first, with the delta of every request that was answered with 200, of every put that was taken without
an answer, and with what others wrote, each once.

The get reads the value into an `int`, so this holds as long as the value is below 2^31 when it is got. Above that the
next put sets the value back by a multiple of 2^32 (`narrowed_value_lost`).
-/

import Mcoz.Cluster.GlobalDelay

set_option autoImplicit false

namespace Mcoz.Cluster.OptimisticUpdate

open Machine GlobalDelay

variable {ρ ν : Type}

/-! ### The object -/

/-- The object at the server: its spec, the rest of it, and its resource version. -/
structure Stored (ρ : Type) where
  spec : DelaySpec
  rest : ρ
  rv : ℕ

/-- `g_cache`, once it is ready. -/
structure Cache (ρ : Type) where
  full : ρ
  value : Int64
  version : Int64
  rv : ℕ

/-- `j["spec"].value("value", 0)`: a number of the object, read into an `int`. -/
def narrow (number : ℕ) : Int64 :=
  (Int64.ofNat number).toInt32.toInt64

/-- `refresh_cache`, with an answer. -/
def Stored.fetch (object : Stored ρ) : Cache ρ :=
  ⟨object.rest, narrow object.spec.value, narrow object.spec.version, object.rv⟩

/-- The cache after the answer to a put: here the default is an `int64_t`. -/
def Stored.echo (object : Stored ρ) : Cache ρ :=
  ⟨object.rest, Int64.ofNat object.spec.value, Int64.ofNat object.spec.version, object.rv⟩

/-- `make_next_from_cache`. -/
def Cache.next (cache : Cache ρ) (delta : Int64) : Cache ρ :=
  { cache with value := cache.value + delta, version := cache.version + 1 }

/-- What the server says to a put. -/
inductive Verdict (ρ : Type)
  | taken (object : Stored ρ)
  | conflict
  | invalid

/-- A put of the whole object: it is refused if the resource version is another one or the spec is out of bounds. A
write gives the object a resource version above all before. -/
def Stored.put (object : Stored ρ) (gap : ℕ) (next : Cache ρ) : Verdict ρ :=
  if next.rv = object.rv then
    match DelaySpec.validate next.value.toInt next.version.toInt with
    | some spec => .taken ⟨spec, next.full, object.rv + 1 + gap⟩
    | none => .invalid
  else .conflict

/-! ### An updater -/

/-- Where an updater is: before its server is up, without a request, or in `update_with_cache` with a delta, about to
get the object for the first time, to put it (`again` after a conflict), or to get it after a conflict. -/
inductive Phase
  | starting
  | idle
  | seeding (delta : Int64)
  | putting (delta : Int64) (again : Bool)
  | refreshing (delta : Int64)
deriving DecidableEq

/-- An updater, with its cache if that is ready. -/
structure Updater (ρ : Type) where
  cache : Option (Cache ρ)
  phase : Phase

/-- What comes of a get: the object, no answer of 200, or a body that is cut short. -/
inductive Fetched
  | answered
  | failed
  | cut
deriving DecidableEq

/-- What comes back of a put: the answer, or its code without the whole of its body. -/
inductive Returned
  | whole
  | cut
deriving DecidableEq

/-- The steps of an updater: a request for `/update` takes the lock, a get, a put (`none` if nothing comes back, where
the server may get the put later, or never), or the process is started again. A request to the server and its answer
are one step: the updater waits for the answer, so what others do before it comes they could as well do after. -/
inductive Move
  | request (delta : Int64)
  | get (fetched : Fetched)
  | put (returned : Option Returned)
  | restart
deriving DecidableEq

/-- The status of an answer to `/update`. -/
inductive Status
  | ok
  | conflict
  | badGateway
  | serverError
deriving DecidableEq

/-- A put under way: the copy it was made of, and the delta. -/
abbrev Message (ρ : Type) := Cache ρ × Int64

/-- What a step leaves: the object, the updater, the status of the answer if the request has one now, and a put that is
still under way. -/
structure Left (ρ : Type) where
  object : Stored ρ
  updater : Updater ρ
  status : Option Status := none
  sent : Option (Message ρ) := none

/-- A step of an updater. -/
def Updater.move (updater : Updater ρ) (object : Stored ρ) (gap : ℕ) : Move → Option (Left ρ)
  | .request delta =>
      match updater.phase with
      | .idle => some { object, updater := { updater with
          phase := if updater.cache.isSome then .putting delta false else .seeding delta } }
      | _ => none
  | .get fetched =>
      match updater.phase, fetched with
      | .starting, .answered => some { object, updater := ⟨some object.fetch, .idle⟩ }
      | .starting, .failed => some { object, updater := { updater with phase := .idle } }
      -- No handler is around the first get, so the program ends, and is started again.
      | .starting, .cut => some { object, updater := ⟨none, .starting⟩ }
      | .seeding delta, .answered => some { object, updater := ⟨some object.fetch, .putting delta false⟩ }
      | .refreshing delta, .answered => some { object, updater := ⟨some object.fetch, .putting delta true⟩ }
      | .seeding _, .failed => some { object, updater := { updater with phase := .idle }, status := some .badGateway }
      | .refreshing _, .failed =>
          some { object, updater := { updater with phase := .idle }, status := some .badGateway }
      | .seeding _, .cut => some { object, updater := { updater with phase := .idle }, status := some .serverError }
      | .refreshing _, .cut =>
          some { object, updater := { updater with phase := .idle }, status := some .serverError }
      | _, _ => none
  | .put returned =>
      match updater.phase, updater.cache with
      | .putting delta again, some cache =>
          match returned with
          | none => some ⟨object, { updater with phase := .idle }, some .badGateway, some (cache, delta)⟩
          | some returned =>
              match object.put gap (cache.next delta) with
              | .taken object' =>
                  -- Without the body, the resource version and the rest of the copy stay those of before.
                  let cache' := if returned = .whole then object'.echo else cache.next delta
                  some { object := object', updater := ⟨some cache', .idle⟩, status := some .ok }
              | .conflict =>
                  if again then some { object, updater := { updater with phase := .idle }, status := some .conflict }
                  else some { object, updater := { updater with phase := .refreshing delta } }
              | .invalid => some { object, updater := { updater with phase := .idle }, status := some .badGateway }
      | _, _ => none
  | .restart => some { object, updater := ⟨none, .starting⟩ }

/-- The delta of the request in hand. -/
def Phase.delta : Phase → Int64
  | .starting => 0
  | .idle => 0
  | .seeding delta => delta
  | .putting delta _ => delta
  | .refreshing delta => delta

/-! ### The cluster -/

/-- The object, its updaters, and the puts that nobody waits for any more. -/
structure State (ρ ν : Type) where
  object : Stored ρ
  updaters : ν → Updater ρ
  inFlight : List (Message ρ)

/-- A step of an updater, a put that arrives late, or a write by anybody else: the daemons and the sidecars patch the
object as well. -/
inductive Action (ρ ν : Type)
  | own (who : ν) (gap : ℕ) (move : Move)
  | late (index gap : ℕ)
  | other (spec : DelaySpec) (rest : ρ) (gap : ℕ)

/-- The object after a put. -/
def Verdict.object (before : Stored ρ) : Verdict ρ → Stored ρ
  | .taken object => object
  | .conflict => before
  | .invalid => before

/-- A put that is taken. -/
def Verdict.isTaken : Verdict ρ → Bool
  | .taken _ => true
  | .conflict => false
  | .invalid => false

/-- A step of the cluster. -/
def step [DecidableEq ν] (state : State ρ ν) : Action ρ ν → Option (State ρ ν)
  | .own who gap move =>
      ((state.updaters who).move state.object gap move).map fun left =>
        ⟨left.object, Function.update state.updaters who left.updater, state.inFlight ++ left.sent.toList⟩
  | .late index gap =>
      (state.inFlight[index]?).map fun message =>
        { state with
          object := (state.object.put gap (message.1.next message.2)).object state.object
          inFlight := state.inFlight.eraseIdx index }
  | .other spec rest gap => some { state with object := ⟨spec, rest, state.object.rv + 1 + gap⟩ }

/-- The delta of a request that is answered with 200 in a step. -/
def heard (state : State ρ ν) : Action ρ ν → List ℤ
  | .own who gap move =>
      match (state.updaters who).move state.object gap move with
      | some left => if left.status = some .ok then [(state.updaters who).phase.delta.toInt] else []
      | none => []
  | .late .. => []
  | .other .. => []

/-- The delta of a put that is taken when its request is over. -/
def unheard (state : State ρ ν) : Action ρ ν → List ℤ
  | .own .. => []
  | .late index gap =>
      match state.inFlight[index]? with
      | some message =>
          if (state.object.put gap (message.1.next message.2)).isTaken then [message.2.toInt] else []
      | none => []
  | .other .. => []

/-- What another writer adds to the value. -/
def written (state : State ρ ν) : Action ρ ν → List ℤ
  | .own .. => []
  | .late .. => []
  | .other spec _ _ => [spec.value - state.object.spec.value]

/-- What another writer makes of the rest of the object. -/
def rests (_ : State ρ ν) : Action ρ ν → List ρ
  | .own .. => []
  | .late .. => []
  | .other _ rest _ => [rest]

/-- A value that is got is below 2^31. -/
def Narrow (state : State ρ ν) : Action ρ ν → Prop
  | .own _ _ (.get .answered) => state.object.spec.value < 2 ^ 31
  | _ => True

/-! ### A copy under its resource version -/

/-- A copy is of the object or of an older one, and under the object's resource version it is the object. -/
structure Cache.Coherent (cache : Cache ρ) (object : Stored ρ) : Prop where
  old : cache.rv ≤ object.rv
  same : cache.rv = object.rv → cache.full = object.rest ∧ cache.value = Int64.ofNat object.spec.value

section Copy

variable {object object' : Stored ρ} {cache : Cache ρ} {delta : Int64} {gap : ℕ}

/-- A copy is out of date after a write. -/
theorem Cache.Coherent.later (coherent : cache.Coherent object) (write : object.rv < object'.rv) :
    cache.Coherent object' :=
  ⟨coherent.old.trans write.le, fun same => absurd same (Nat.ne_of_lt (coherent.old.trans_lt write))⟩

theorem toInt_ofNat {value : ℕ} (fits : value < 2 ^ 63) : (Int64.ofNat value).toInt = value := by
  rw [Int64.toInt_ofNat_of_lt (by omega)]

/-- A small number is got as it is. -/
theorem narrow_eq {value : ℕ} (fits : value < 2 ^ 31) : narrow value = Int64.ofNat value := by
  have whole : (Int64.ofNat value).toInt = value := toInt_ofNat (by omega)
  rw [narrow, ← Int64.toInt_inj, Int32.toInt_toInt64, Int64.toInt_toInt32, whole]
  exact Int.bmod_eq_of_le (by omega) (by omega)

theorem coherent_fetch (fits : object.spec.value < 2 ^ 31) : object.fetch.Coherent object :=
  ⟨Nat.le_refl _, fun _ => ⟨rfl, narrow_eq fits⟩⟩

theorem coherent_echo : object.echo.Coherent object :=
  ⟨Nat.le_refl _, fun _ => ⟨rfl, rfl⟩⟩

/-- A sum that the schema accepts has not wrapped around. -/
theorem toInt_add_of_nonneg {first second : Int64} (left : 0 ≤ first.toInt) (sum : 0 ≤ (first + second).toInt) :
    (first + second).toInt = first.toInt + second.toInt := by
  have bound := first.toInt_lt
  have low := second.le_toInt
  have high := second.toInt_lt
  rw [Int64.toInt_add, Int.bmod_def] at sum ⊢
  omega

/-- **A put that is taken** adds its delta to the object, and leaves the rest of it. -/
theorem put_taken (coherent : cache.Coherent object) (took : object.put gap (cache.next delta) = .taken object') :
    (object'.spec.value : ℤ) = object.spec.value + delta.toInt ∧ object'.rest = object.rest ∧
      object.rv < object'.rv := by
  unfold Stored.put at took
  by_cases current : (cache.next delta).rv = object.rv
  · rw [if_pos current] at took
    obtain ⟨full, value⟩ := coherent.same current
    cases valid : DelaySpec.validate (cache.next delta).value.toInt (cache.next delta).version.toInt with
    | none =>
        rw [valid] at took
        cases took
    | some spec =>
        rw [valid] at took
        cases took
        have accepted : object.spec.mergePatch (cache.next delta).value.toInt
            (some (cache.next delta).version.toInt) = some spec := valid
        have said : (spec.value : ℤ) = (cache.value + delta).toInt := mergePatch_value accepted
        have whole : cache.value.toInt = object.spec.value := by
          rw [value, toInt_ofNat object.spec.value_lt]
        have exact' : (cache.value + delta).toInt = cache.value.toInt + delta.toInt :=
          toInt_add_of_nonneg (by omega) (by omega)
        have write : object.rv < object.rv + 1 + gap := by omega
        exact ⟨by rw [said, exact', whole], full, write⟩
  · rw [if_neg current] at took
    cases took

end Copy

/-! ### What a step does -/

/-- What a step of an updater does: it writes nothing and answers no request with 200, or it puts what it has in its
cache, which is taken, and answers with 200. -/
inductive Effect (updater : Updater ρ) (object : Stored ρ) (gap : ℕ) (move : Move) (left : Left ρ) : Prop
  | kept (object' : left.object = object) (status : left.status ≠ some .ok)
      (cache : ∀ cache, left.updater.cache = some cache →
        updater.cache = some cache ∨ cache = object.fetch ∧ move = .get .answered)
      (sent : ∀ message, left.sent = some message → updater.cache = some message.1)
  | taken (cache : Cache ρ) (held : updater.cache = some cache) (status : left.status = some .ok)
      (took : object.put gap (cache.next updater.phase.delta) = .taken left.object) (sent : left.sent = none)
      (cache' : left.updater.cache = some left.object.echo ∨
        left.updater.cache = some (cache.next updater.phase.delta))

section Step

variable {updater : Updater ρ} {object : Stored ρ} {gap : ℕ} {move : Move} {left : Left ρ}

theorem move_cases (moved : updater.move object gap move = some left) : Effect updater object gap move left := by
  obtain ⟨cache, phase⟩ := updater
  cases move with
  | request delta =>
      cases phase <;> cases moved
      exact .kept rfl nofun (fun _ held => Or.inl held) nofun
  | get fetched =>
      cases phase <;> cases fetched <;> cases moved
      all_goals refine .kept rfl nofun (fun other held => ?_) nofun
      all_goals first
        | exact Or.inl held
        | exact Or.inr ⟨(Option.some.inj held).symm, rfl⟩
        | cases held
  | put returned =>
      cases phase with
      | putting delta again =>
          cases cache with
          | none => cases moved
          | some cache =>
              cases returned with
              | none =>
                  cases moved
                  exact .kept rfl nofun (fun _ held => Or.inl held) fun message sent => by cases sent; rfl
              | some returned =>
                  dsimp only [Updater.move] at moved
                  split at moved
                  · rename_i object' took
                    cases moved
                    refine .taken cache rfl rfl took rfl ?_
                    by_cases whole : returned = .whole
                    · rw [if_pos whole]
                      exact Or.inl rfl
                    · rw [if_neg whole]
                      exact Or.inr rfl
                  · split at moved <;> cases moved <;> exact .kept rfl nofun (fun _ held => Or.inl held) nofun
                  · cases moved
                    exact .kept rfl nofun (fun _ held => Or.inl held) nofun
      | _ => cases moved
  | restart =>
      cases moved
      exact .kept rfl nofun nofun nofun

end Step

/-! ### Runs -/

/-- Every copy is coherent: those of the updaters, and those that puts under way were made of. -/
structure Coherent (state : State ρ ν) : Prop where
  caches : ∀ who cache, (state.updaters who).cache = some cache → cache.Coherent state.object
  inFlight : ∀ message ∈ state.inFlight, message.1.Coherent state.object

section Run

variable {state next start final : State ρ ν} {action : Action ρ ν} {actions : List (Action ρ ν)}

/-- A write makes every copy an old one. -/
theorem Coherent.later (coherent : Coherent state) {object : Stored ρ} (write : state.object.rv < object.rv) :
    (∀ who cache, (state.updaters who).cache = some cache → cache.Coherent object) ∧
      ∀ message ∈ state.inFlight, message.1.Coherent object :=
  ⟨fun who cache held => (coherent.caches who cache held).later write,
    fun message among => (coherent.inFlight message among).later write⟩

variable [DecidableEq ν]

/-- **One step**: the copies stay coherent, and the object has what the step adds to it, and no more. -/
theorem step_adds (coherent : Coherent state) (narrow : Narrow state action) (moved : step state action = some next) :
    Coherent next ∧
      (next.object.spec.value : ℤ) = state.object.spec.value + (heard state action).sum + (unheard state action).sum +
        (written state action).sum ∧
      next.object.rest = ((rests state action).getLast?).getD state.object.rest := by
  cases action with
  | own who gap move =>
      obtain ⟨left, went, rfl⟩ := Option.map_eq_some_iff.mp moved
      have own : heard state (.own who gap move) =
          if left.status = some .ok then [(state.updaters who).phase.delta.toInt] else [] := by
        rw [heard, went]
      rw [own]
      cases move_cases went with
      | kept object' status cache sent =>
          rw [if_neg status]
          refine ⟨⟨fun other copy held => ?_, fun message among => ?_⟩, ?_, ?_⟩
          · dsimp only at held ⊢
            rw [object']
            by_cases here : other = who
            · rw [here, Function.update_self] at held
              rcases cache copy held with before | ⟨rfl, rfl⟩
              · exact coherent.caches who copy before
              · exact coherent_fetch narrow
            · rw [Function.update_of_ne here] at held
              exact coherent.caches other copy held
          · dsimp only at among ⊢
            rw [object']
            rcases List.mem_append.mp among with before | new
            · exact coherent.inFlight message before
            · exact coherent.caches who message.1 (sent message (Option.mem_toList.mp new))
          · dsimp only
            rw [object']
            simp [unheard, written]
          · dsimp only
            rw [object']
            rfl
      | taken cache held status took sent cache' =>
          obtain ⟨value, rest, write⟩ := put_taken (coherent.caches who cache held) took
          obtain ⟨caches, inFlight⟩ := coherent.later write
          rw [if_pos status]
          refine ⟨⟨fun other copy held' => ?_, fun message among => ?_⟩, ?_, rest⟩
          · dsimp only at held' ⊢
            by_cases here : other = who
            · rw [here, Function.update_self] at held'
              rcases cache' with whole | cut
              · rw [whole] at held'
                cases held'
                exact coherent_echo
              · rw [cut] at held'
                cases held'
                have before := caches who cache held
                exact ⟨before.old, fun same =>
                  absurd same (Nat.ne_of_lt ((coherent.caches who cache held).old.trans_lt write))⟩
            · rw [Function.update_of_ne here] at held'
              exact caches other copy held'
          · dsimp only at among ⊢
            rw [sent] at among
            exact inFlight message (by simpa using among)
          · dsimp only
            rw [value]
            simp [unheard, written]
  | late index gap =>
      obtain ⟨message, there, rfl⟩ := Option.map_eq_some_iff.mp moved
      have among : message ∈ state.inFlight := List.mem_of_getElem? there
      have late : unheard state (.late index gap) =
          if (state.object.put gap (message.1.next message.2)).isTaken then [message.2.toInt] else [] := by
        rw [unheard, there]
      have kept : ∀ other ∈ state.inFlight.eraseIdx index, other ∈ state.inFlight :=
        fun other held => List.mem_of_mem_eraseIdx held
      rw [late]
      cases took : state.object.put gap (message.1.next message.2) with
      | taken object' =>
          obtain ⟨value, rest, write⟩ := put_taken (coherent.inFlight message among) took
          obtain ⟨caches, inFlight⟩ := coherent.later write
          refine ⟨⟨caches, fun other held => inFlight other (kept other held)⟩, ?_, rest⟩
          show (object'.spec.value : ℤ) = _
          rw [value]
          simp [heard, written, Verdict.isTaken]
      | conflict =>
          refine ⟨⟨coherent.caches, fun other held => coherent.inFlight other (kept other held)⟩, ?_, rfl⟩
          simp [heard, written, Verdict.isTaken, Verdict.object]
      | invalid =>
          refine ⟨⟨coherent.caches, fun other held => coherent.inFlight other (kept other held)⟩, ?_, rfl⟩
          simp [heard, written, Verdict.isTaken, Verdict.object]
  | other spec rest gap =>
      cases moved
      have write : state.object.rv < state.object.rv + 1 + gap := by omega
      obtain ⟨caches, inFlight⟩ :=
        @Coherent.later _ _ state coherent ⟨spec, rest, state.object.rv + 1 + gap⟩ write
      refine ⟨⟨caches, inFlight⟩, ?_, rfl⟩
      simp [heard, unheard, written]

/-- **No update is lost, and none is made twice**: from updaters without a copy, in every run in which a value is below
2^31 whenever it is got. -/
theorem no_update_lost (fresh : ∀ who, (start.updaters who).cache = none) (quiet : start.inFlight = [])
    (ran : run step start actions = some final) (narrow : Along step Narrow start actions) :
    (final.object.spec.value : ℤ) = start.object.spec.value + (trace step heard start actions).sum +
        (trace step unheard start actions).sum + (trace step written start actions).sum ∧
      final.object.rest = ((trace step rests start actions).getLast?).getD start.object.rest := by
  have initial : Coherent start := by
    refine ⟨fun who cache held => ?_, fun message among => ?_⟩
    · rw [fresh who] at held
      cases held
    · rw [quiet] at among
      cases among
  have guarded : Guarded step (fun _ => Narrow) start actions := narrow
  refine (invariant_guarded (fun past state => Coherent state ∧
    ((state.object.spec.value : ℤ) = start.object.spec.value + (trace step heard start past).sum +
        (trace step unheard start past).sum + (trace step written start past).sum ∧
      state.object.rest = ((trace step rests start past).getLast?).getD start.object.rest))
    ⟨initial, by simp, rfl⟩ ?_ guarded ran).2
  intro past state action next before ⟨coherent, value, rest⟩ small moved
  obtain ⟨coherent', value', rest'⟩ := step_adds coherent small moved
  refine ⟨coherent', ?_, ?_⟩
  · rw [value', value, trace_concat before, trace_concat before, trace_concat before, List.sum_append,
      List.sum_append, List.sum_append]
    omega
  · rw [rest', rest, trace_concat before, List.getLast?_append, Option.getD_or]

end Run

/-! ### Two updaters -/

/-- Two updaters that have just been started. -/
def twoUpdaters : State ℕ Bool where
  object := ⟨⟨100, 3, by decide, by decide⟩, 1, 10⟩
  updaters _ := ⟨none, .starting⟩
  inFlight := []

/-- The second updater has a conflict, and does not hear of its second put, which arrives after the request. -/
def race : List (Action ℕ Bool) :=
  [.own true 0 (.get .answered), .own false 0 (.get .answered), .own true 0 (.request 5), .own false 0 (.request 7),
    .own true 0 (.put (some .whole)), .own false 0 (.put (some .cut)), .own false 0 (.get .answered),
    .own false 0 (.put none), .late 0 4, .other ⟨120, 5, by decide, by decide⟩ 2 0]

theorem no_update_lost_race : ∃ final, run step twoUpdaters race = some final ∧ final.object.spec.value = 120 ∧
    (final.object.spec.value : ℤ) = twoUpdaters.object.spec.value + (trace step heard twoUpdaters race).sum +
        (trace step unheard twoUpdaters race).sum + (trace step written twoUpdaters race).sum ∧
      final.object.rest = ((trace step rests twoUpdaters race).getLast?).getD twoUpdaters.object.rest := by
  have narrow : Along step Narrow twoUpdaters race := by
    refine along_cons (of_decide_eq_true rfl : (100 : ℕ) < 2 ^ 31) rfl ?_
    refine along_cons (of_decide_eq_true rfl : (100 : ℕ) < 2 ^ 31) rfl ?_
    refine along_cons trivial rfl (along_cons trivial rfl (along_cons trivial rfl (along_cons trivial rfl ?_)))
    refine along_cons (of_decide_eq_true rfl : (105 : ℕ) < 2 ^ 31) rfl ?_
    exact along_cons trivial rfl (along_cons trivial rfl (along_cons trivial rfl along_nil))
  exact ⟨_, rfl, rfl, no_update_lost (fun _ => rfl) rfl rfl narrow⟩

/-- Above 2^31 a get takes a multiple of 2^32 off the value, and the next put writes what is left. -/
example : ∃ final, run step
    { twoUpdaters with object := ⟨⟨2 ^ 32 + 5, 3, by decide, by decide⟩, 1, 10⟩ }
    [.own true 0 (.get .answered), .own true 0 (.request 1), .own true 0 (.put (some .whole))] = some final ∧
      final.object.spec.value = 6 :=
  ⟨_, rfl, rfl⟩

end Mcoz.Cluster.OptimisticUpdate
