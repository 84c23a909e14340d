/-
Caches whose entries expire.

A `Plan` says how a request is answered without a cache (`fetch`), under which key an answer is kept and for how long,
and how a kept answer is tested before it is used again. In every run an answer is one that a fetch has given for a
request of the same key, now or not longer ago than the time to live (`answer_recent`), and there is no answer only
where a fetch has none now (`answer_eq_none`). So where the fetches of that time agree, the cache makes no difference
(`answer_eq_fetch`).
-/

import Mcoz.Lib.Dict
import Mcoz.Lib.Machine

set_option autoImplicit false

namespace Expiring

open Machine

variable {ρ κ ν ε : Type} [DecidableEq κ]

/-- How the requests are answered. A fetch without an answer drops the kept one unless `keeps`. -/
structure Plan (ρ κ ν ε : Type) where
  key : ρ → κ
  fetch : ε → ρ → Option ν
  usable : ε → ν → Bool
  timeToLive : ℕ
  keeps : Bool

/-- A call, with the clock at the lookup and at the store. -/
structure Call (ρ ε : Type) where
  request : ρ
  environment : ε
  asked : ℕ
  stored : ℕ

/-- The kept answers, each with the time of its store. -/
structure Cache (κ ν : Type) where
  clock : ℕ
  entries : List (κ × ν × ℕ)

/-- The cache before the first call. -/
def empty : Cache κ ν where
  clock := 0
  entries := []

/-- The answer of a call without the cache. -/
def Plan.plain (plan : Plan ρ κ ν ε) (call : Call ρ ε) : Option ν :=
  plan.fetch call.environment call.request

/-- The kept answer, if it is young enough and passes the test. -/
def Plan.hit (plan : Plan ρ κ ν ε) (cache : Cache κ ν) (call : Call ρ ε) : Option ν :=
  (Dict.get cache.entries (plan.key call.request)).bind fun kept =>
    if call.asked - kept.2 < plan.timeToLive ∧ plan.usable call.environment kept.1 then some kept.1 else none

/-- The answer of a call. -/
def Plan.answer (plan : Plan ρ κ ν ε) (cache : Cache κ ν) (call : Call ρ ε) : Option ν :=
  (plan.hit cache call).or (plan.plain call)

/-- What a fetch leaves. -/
def Plan.fetched (plan : Plan ρ κ ν ε) (entries : List (κ × ν × ℕ)) (call : Call ρ ε) : List (κ × ν × ℕ) :=
  match plan.plain call with
  | some value => Dict.update (plan.key call.request) (value, call.stored) (fun _ => (value, call.stored)) entries
  | none => if plan.keeps then entries else entries.filter fun entry => entry.1 ≠ plan.key call.request

/-- A call, with a clock that does not go back. -/
def Plan.step (plan : Plan ρ κ ν ε) (cache : Cache κ ν) (call : Call ρ ε) : Option (Cache κ ν) :=
  if cache.clock ≤ call.asked ∧ call.asked ≤ call.stored then
    some ⟨call.stored, if (plan.hit cache call).isSome then cache.entries else plan.fetched cache.entries call⟩
  else none

variable {plan : Plan ρ κ ν ε} {cache next : Cache κ ν} {call : Call ρ ε} {past : List (Call ρ ε)}
  {entries : List (κ × ν × ℕ)} {key : κ} {value : ν} {time : ℕ}

/-- A kept answer is one of a call that was made. -/
def Kept (plan : Plan ρ κ ν ε) (past : List (Call ρ ε)) (cache : Cache κ ν) : Prop :=
  ∀ key value time, Dict.get cache.entries key = some (value, time) →
    ∃ earlier ∈ past, plan.key earlier.request = key ∧ plan.plain earlier = some value ∧ earlier.stored = time

theorem get_filter_ne {other : κ} (held : Dict.get (entries.filter fun entry => entry.1 ≠ other) key = some (value, time)) :
    Dict.get entries key = some (value, time) := by
  by_cases same : key = other
  · have among := Dict.mem_of_get held
    exact absurd same (by simpa using (List.mem_filter.mp among).2)
  · rw [← held, Dict.get, Dict.get, List.find?_filter]
    congr 2
    funext entry
    by_cases here : entry.1 = key
    · simp [here, same]
    · simp [here]

theorem Kept.step (kept : Kept plan past cache) (moved : plan.step cache call = some next) :
    Kept plan (past ++ [call]) next := by
  obtain ⟨-, same⟩ := Option.ite_none_right_eq_some.mp moved
  obtain rfl := Option.some.inj same
  have older {key : κ} {value : ν} {time : ℕ} (held : Dict.get cache.entries key = some (value, time)) :
      ∃ earlier ∈ past ++ [call], plan.key earlier.request = key ∧ plan.plain earlier = some value ∧
        earlier.stored = time := by
    obtain ⟨earlier, made, facts⟩ := kept key value time held
    exact ⟨earlier, List.mem_append_left _ made, facts⟩
  intro key value time held
  dsimp only at held
  by_cases hit : (plan.hit cache call).isSome
  · rw [if_pos hit] at held
    exact older held
  · rw [if_neg hit, Plan.fetched] at held
    cases answer : plan.plain call with
    | some found =>
        rw [answer] at held
        dsimp only at held
        rw [Dict.get_update] at held
        by_cases here : key = plan.key call.request
        · rw [if_pos here] at held
          obtain ⟨rfl, rfl⟩ := Prod.mk.inj (Option.some.inj held)
          exact ⟨call, List.mem_append_right _ (List.mem_singleton_self call), here.symm, answer, rfl⟩
        · rw [if_neg here] at held
          exact older held
    | none =>
        rw [answer] at held
        dsimp only at held
        by_cases keeps : plan.keeps
        · rw [if_pos keeps] at held
          exact older held
        · rw [if_neg keeps] at held
          exact older (get_filter_ne held)

theorem kept_of_run (ran : run plan.step empty past = some cache) : Kept plan past cache := by
  refine run_history (motive := fun past cache => Kept plan past cache) ?_ ?_ ran
  · exact fun key value time held => by cases held
  · exact fun _ _ _ _ _ kept moved => kept.step moved

/-- **An answer is recent.** -/
theorem answer_recent (ran : run plan.step empty past = some cache) (answered : plan.answer cache call = some value) :
    plan.plain call = some value ∨ ∃ earlier ∈ past, plan.key earlier.request = plan.key call.request ∧
      plan.plain earlier = some value ∧ call.asked - earlier.stored < plan.timeToLive ∧
      plan.usable call.environment value := by
  rcases Option.or_eq_some_iff.mp answered with hit | ⟨-, fetched⟩
  · obtain ⟨⟨held, time⟩, found, young⟩ := Option.bind_eq_some_iff.mp hit
    obtain ⟨⟨age, passes⟩, same⟩ := Option.ite_none_right_eq_some.mp young
    obtain rfl := Option.some.inj same
    obtain ⟨earlier, made, key, plain, rfl⟩ := kept_of_run ran _ _ _ found
    exact .inr ⟨earlier, made, key, plain, age, passes⟩
  · exact .inl fetched

/-- Without an answer the fetch has none. -/
theorem answer_eq_none (unanswered : plan.answer cache call = none) : plan.plain call = none :=
  (Option.or_eq_none_iff.mp unanswered).2

/-- **The cache makes no difference** where the fetches for the key, as long as their answers live, agree. -/
theorem answer_eq_fetch (ran : run plan.step empty past = some cache)
    (agree : ∀ earlier ∈ past, plan.key earlier.request = plan.key call.request →
      call.asked - earlier.stored < plan.timeToLive → plan.plain earlier = plan.plain call) :
    plan.answer cache call = plan.plain call := by
  cases answered : plan.answer cache call with
  | none => exact (answer_eq_none answered).symm
  | some value =>
      rcases answer_recent ran answered with now | ⟨earlier, made, key, plain, age, -⟩
      · exact now.symm
      · rw [← agree earlier made key age, plain]

end Expiring
