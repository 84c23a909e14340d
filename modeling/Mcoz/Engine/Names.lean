/-
The names in the status, over the runs of the engine.

A name of the status comes from a request or from the cgroup file system, or the engine makes it of a
key. So a kind of characters to which digits and lower-case letters belong is kept by every step whose
names are of that kind (`Named.step`). With the kind of what JSON may show, the reply to `/status` is
JSON in every state that such steps reach (`status_isJson`).
-/

import Mcoz.Engine.Status

set_option autoImplicit false

namespace Mcoz

open Word Machine Json

/-! ### The names of a step -/

/-- The names that a critical section brings in are of one kind. -/
def Engine.Action.Names (kind : UInt8 → Bool) : Engine.Action → Prop
  | .arm req found _ =>
      (∀ ch ∈ req.ns ++ req.pod ++ req.container ++ req.source, kind ch = true) ∧
        ∀ cgid path, found = some (cgid, path) → ∀ ch ∈ path, kind ch = true
  | .applyConsumePolicy req found _ =>
      (∀ ch ∈ req.ns ++ req.pod ++ req.container, kind ch = true) ∧
        ∀ cgid path, found = some (cgid, path) → ∀ ch ∈ path, kind ch = true
  | .installRecommended _ _ _ => True
  | .clear _ _ => True
  | .receive _ => True
  | .beginEvent => True
  | .finishConsume _ => True
  | .accountTrigger => True
  | .inject _ => True
  | .accountInjection => True

/-- The source description that the poll thread carries. -/
def PollPhase.desc : PollPhase → Bytes
  | .idle => []
  | .consuming _ _ => []
  | .consumed _ _ desc => desc
  | .triggered _ _ desc => desc
  | .injected _ _ desc _ => desc

/-- The names in the status, and the one that the poll thread carries, are of one kind. -/
structure Engine.Named (kind : UInt8 → Bool) (engine : Engine) : Prop where
  shown : engine.Shown kind
  desc : ∀ ch ∈ engine.poll.desc, kind ch = true

section Kind

variable {kind : UInt8 → Bool}

/-- A record of a map is changed, or it was there before. -/
theorem modifyEntry_eq_some {κ ν : Type} [DecidableEq κ] [Inhabited ν] {entries : κ → Option ν}
    {key other : κ} {change : ν → ν} {value : ν}
    (entry : modifyEntry entries key change other = some value) :
    (other = key ∧ value = change ((entries key).getD default)) ∨ entries other = some value := by
  unfold modifyEntry at entry
  by_cases same : other = key
  · rw [same, Function.update_self] at entry
    exact .inl ⟨same, (Option.some.inj entry).symm⟩
  · rw [Function.update_of_ne same] at entry
    exact .inr entry

theorem names_default : (default : VictimRuntime).Names kind where
  ns := fun _ among => absurd among List.not_mem_nil
  pod := fun _ among => absurd among List.not_mem_nil
  container := fun _ among => absurd among List.not_mem_nil
  cgroupPath := fun _ among => absurd among List.not_mem_nil
  lastSource := fun _ among => absurd among List.not_mem_nil
  sources := fun _ _ entry => nomatch entry

/-- A victim that is on record or made has names of the kind. -/
theorem Engine.Shown.getD {engine : Engine} (shown : engine.Shown kind) (cgid : UInt64) :
    ((engine.victims cgid).getD default).Names kind := by
  cases held : engine.victims cgid with
  | none => exact names_default
  | some vr => exact shown cgid vr held

/-- A change of a victim that keeps the kind of its names. -/
theorem Engine.Shown.modify {engine next : Engine} (shown : engine.Shown kind) {key : UInt64}
    {change : VictimRuntime → VictimRuntime}
    (written : next.victims = modifyEntry engine.victims key change)
    (keeps : ∀ vr : VictimRuntime, vr.Names kind → (change vr).Names kind) : next.Shown kind := by
  intro cgid vr held
  rw [written] at held
  rcases modifyEntry_eq_some held with ⟨_, rfl⟩ | before
  · exact keeps _ (shown.getD key)
  · exact shown cgid vr before

/-- A source whose entry is changed to one with a name of the kind. -/
theorem sources_modify {sources after : UInt64 → Option VictimSourceRuntime} {key : UInt64}
    {change : VictimSourceRuntime → VictimSourceRuntime}
    (written : after = modifyEntry sources key change)
    (before : ∀ key sr, sources key = some sr → ∀ ch ∈ sr.source, kind ch = true)
    (named : ∀ sr : VictimSourceRuntime, (∀ ch ∈ sr.source, kind ch = true) →
      ∀ ch ∈ (change sr).source, kind ch = true) :
    ∀ other sr, after other = some sr → ∀ ch ∈ sr.source, kind ch = true := by
  intro other sr entry
  rw [written] at entry
  rcases modifyEntry_eq_some entry with ⟨_, rfl⟩ | held
  · refine named _ ?_
    cases held : sources key with
    | none => exact fun _ member => absurd member List.not_mem_nil
    | some sr => exact before key sr held
  · exact before other sr held

/-! ### Changes of a victim -/

theorem app_plain : (ascii "app").all isPlain = true := by decide

theorem unspecified_plain : (ascii "unspecified").all isPlain = true := by decide

/-- The names of a resolved target come from the request and from the lookup. -/
theorem resolveTarget_names (plain : ∀ ch, isPlain ch = true → kind ch = true)
    {ns pod container : Bytes} {found : Option (UInt64 × Bytes)} {resolved : ResolvedTarget}
    (target : resolveTarget ns pod container found = some resolved)
    (names : ∀ ch ∈ ns ++ pod ++ container, kind ch = true)
    (path : ∀ cgid path, found = some (cgid, path) → ∀ ch ∈ path, kind ch = true) :
    (∀ ch ∈ resolved.ns, kind ch = true) ∧ (∀ ch ∈ resolved.pod, kind ch = true) ∧
      (∀ ch ∈ resolved.container, kind ch = true) ∧ ∀ ch ∈ resolved.cgroupPath, kind ch = true := by
  simp only [List.forall_mem_append] at names
  obtain ⟨⟨first, second⟩, third⟩ := names
  unfold resolveTarget at target
  split at target
  · cases target
  · rename_i cgid cgroupPath
    obtain ⟨_, same⟩ := Option.ite_none_left_eq_some.mp target
    cases same
    refine ⟨first, second, ?_, path cgid cgroupPath rfl⟩
    by_cases unnamed : container = []
    · rw [if_pos unnamed]
      exact fun ch member => plain ch (List.all_eq_true.mp app_plain ch member)
    · rw [if_neg unnamed]
      exact third

theorem sourceId_names (plain : ∀ ch, isPlain ch = true → kind ch = true) {req : RequestArmRequest}
    (names : ∀ ch ∈ req.source, kind ch = true) : ∀ ch ∈ req.sourceId, kind ch = true := by
  rw [RequestArmRequest.sourceId]
  by_cases unnamed : req.source = []
  · rw [if_pos unnamed]
    exact fun ch member => plain ch (List.all_eq_true.mp unspecified_plain ch member)
  · rw [if_neg unnamed]
    exact names

theorem formatSourceKey_names (plain : ∀ ch, isPlain ch = true → kind ch = true)
    (sourceKey : UInt64) : ∀ ch ∈ formatSourceKey sourceKey, kind ch = true :=
  fun ch member => plain ch (formatSourceKey_plain sourceKey ch member)

namespace VictimRuntime.Names

variable {vr : VictimRuntime} (names : vr.Names kind)

include names

theorem recordArm {req : RequestArmRequest} {resolved : ResolvedTarget}
    (target : (∀ ch ∈ resolved.ns, kind ch = true) ∧ (∀ ch ∈ resolved.pod, kind ch = true) ∧
      (∀ ch ∈ resolved.container, kind ch = true) ∧ ∀ ch ∈ resolved.cgroupPath, kind ch = true)
    (source : ∀ ch ∈ req.sourceId, kind ch = true) (delayNs : UInt64) :
    (vr.recordArm req resolved delayNs).Names kind where
  ns := target.1
  pod := target.2.1
  container := target.2.2.1
  cgroupPath := target.2.2.2
  lastSource := source
  sources := by
    have written : (vr.recordArm req resolved delayNs).sources =
        modifyEntry vr.sources req.sourceKey fun sr => sr.recordArm req delayNs := rfl
    exact sources_modify written names.sources fun _ _ => source

theorem noteSource (plain : ∀ ch, isPlain ch = true → kind ch = true) (sourceKey : UInt64) :
    (Engine.noteSource vr sourceKey).Names kind := by
  have made := @sources_modify kind vr.sources _ sourceKey
    (fun sr => { sr with sourceKey := sourceKey, source := formatSourceKey sourceKey }) rfl
    names.sources fun _ _ => formatSourceKey_names plain sourceKey
  unfold Engine.noteSource
  split
  · exact ⟨names.ns, names.pod, names.container, names.cgroupPath, names.lastSource, made⟩
  · exact names

theorem sourceDesc (plain : ∀ ch, isPlain ch = true → kind ch = true) (sourceKey : UInt64) :
    ∀ ch ∈ Engine.sourceDesc vr sourceKey, kind ch = true := by
  unfold Engine.sourceDesc
  split
  · exact formatSourceKey_names plain sourceKey
  · rename_i sr held
    exact names.sources sourceKey sr held

theorem recordTrigger {desc : Bytes} (source : ∀ ch ∈ desc, kind ch = true) (event : ConsumeEvent)
    (delayNs : UInt64) : (vr.recordTrigger event delayNs desc).Names kind where
  ns := names.ns
  pod := names.pod
  container := names.container
  cgroupPath := names.cgroupPath
  lastSource := source
  sources := by
    have written : (vr.recordTrigger event delayNs desc).sources =
        modifyEntry vr.sources event.sourceKey fun sr => sr.recordTrigger event delayNs desc := rfl
    refine sources_modify written names.sources fun sr named => ?_
    show ∀ ch ∈ (if sr.source = [] then desc else sr.source), kind ch = true
    split
    · exact source
    · exact named

theorem recordInjection {desc : Bytes} (source : ∀ ch ∈ desc, kind ch = true) (event : ConsumeEvent)
    (errno : Option ℤ) : (vr.recordInjection event desc errno).Names kind := by
  have written : (vr.recordInjection event desc errno).sources = modifyEntry vr.sources
      event.sourceKey fun sr => sr.recordInjection event desc errno := by
    cases errno <;> rfl
  have entries := sources_modify written names.sources fun sr named => by
    have same : (sr.recordInjection event desc errno).source =
        if sr.source = [] then desc else sr.source := by
      cases errno <;> rfl
    rw [same]
    split
    · exact source
    · exact named
  cases errno <;>
    exact ⟨names.ns, names.pod, names.container, names.cgroupPath, names.lastSource, entries⟩

theorem clear : vr.clear.Names kind where
  ns := names.ns
  pod := names.pod
  container := names.container
  cgroupPath := names.cgroupPath
  lastSource := fun _ member => absurd member List.not_mem_nil
  sources := by
    intro key sr entry
    obtain ⟨before, held, rfl⟩ := Option.map_eq_some_iff.mp entry
    exact names.sources key before held

end VictimRuntime.Names

/-! ### Steps and runs -/

namespace Engine

variable {engine next : Engine}

theorem Named.applyConsumePolicy (plain : ∀ ch, isPlain ch = true → kind ch = true)
    (named : engine.Named kind) {req : ConsumePolicyApplyRequest}
    {found : Option (UInt64 × Bytes)} {updated : Bool}
    (names : ∀ ch ∈ req.ns ++ req.pod ++ req.container, kind ch = true)
    (path : ∀ cgid path, found = some (cgid, path) → ∀ ch ∈ path, kind ch = true) :
    (engine.applyConsumePolicy req found updated).Named kind := by
  fun_cases engine.applyConsumePolicy req found updated with
  | case4 _ resolved target =>
      obtain ⟨ns, pod, container, cgroupPath⟩ := resolveTarget_names plain target names path
      refine ⟨named.shown.modify (engine.policyApplied_victims resolved _) fun vr before => ?_,
        named.desc⟩
      exact ⟨ns, pod, container, cgroupPath, before.lastSource, before.sources⟩
  | _ => exact named

/-- What the poll thread carries in its phase. -/
theorem Named.carried {phase : PollPhase} (named : engine.Named kind) (here : engine.poll = phase) :
    ∀ ch ∈ phase.desc, kind ch = true :=
  here ▸ named.desc

/-- A step whose names are of the kind keeps the kind. -/
theorem Named.step (plain : ∀ ch, isPlain ch = true → kind ch = true) (named : engine.Named kind)
    {action : Action} (names : action.Names kind) (moved : engine.step action = some next) :
    next.Named kind := by
  have kept : ∀ {other : Engine}, other.victims = engine.victims →
      (∀ ch ∈ other.poll.desc, kind ch = true) → other.Named kind := by
    intro other same desc
    refine ⟨fun cgid vr held => ?_, desc⟩
    rw [same] at held
    exact named.shown cgid vr held
  have silent : ∀ ch ∈ ([] : Bytes), kind ch = true := fun _ member => absurd member List.not_mem_nil
  cases effect_of_step moved with
  | armFailed => exact kept rfl named.desc
  | @armed req found updates resolved cfg index unlocked count target =>
      obtain ⟨request, path⟩ := names
      rw [List.forall_mem_append] at request
      have source := sourceId_names plain request.2
      have places := resolveTarget_names plain target request.1 path
      exact ⟨named.shown.modify (engine.armSucceeded_victims req resolved cfg _)
        fun vr before => before.recordArm places source _, named.desc⟩
  | @policyKept req found updated => exact named
  | @policyApplied req found updated =>
      obtain ⟨_, same⟩ := control_iff.mp moved
      rw [← same]
      exact named.applyConsumePolicy plain names.1 names.2
  | recommended => exact kept rfl named.desc
  | recommendedFailed => exact named
  | cleared =>
      refine ⟨fun cgid vr held => ?_, named.desc⟩
      obtain ⟨before, known, rfl⟩ := Option.map_eq_some_iff.mp held
      exact (named.shown cgid before known).clear
  | ignored => exact named
  | received => exact kept rfl named.desc
  | began => exact kept rfl silent
  | dropped => exact kept rfl silent
  | @consumed event copy result =>
      refine ⟨named.shown.modify (engine.creditConsumed_victims event result) fun vr before =>
        before.noteSource plain event.sourceKey, ?_⟩
      exact (named.shown.getD event.cgroupId).sourceDesc plain event.sourceKey
  | @triggered event delayNs desc consumed =>
      have source : ∀ ch ∈ desc, kind ch = true := named.carried consumed
      exact ⟨named.shown.modify (engine.triggerAccounted_victims event delayNs desc) fun vr before =>
        before.recordTrigger source event delayNs, source⟩
  | @injected event delayNs desc errno triggered =>
      have source : ∀ ch ∈ desc, kind ch = true := named.carried triggered
      exact kept rfl source
  | @settled event delayNs desc errno injected =>
      have source : ∀ ch ∈ desc, kind ch = true := named.carried injected
      exact ⟨named.shown.modify (engine.injectionAccounted_victims event desc errno) fun vr before =>
        before.recordInjection source event errno, silent⟩

/-- Runs whose names are of the kind keep the kind. -/
theorem named_of_run (plain : ∀ ch, isPlain ch = true → kind ch = true) {defaultDelayNs : UInt64}
    {actions : List Action} {final : Engine}
    (ran : run step (init defaultDelayNs) actions = some final)
    (names : ∀ action ∈ actions, action.Names kind) : final.Named kind := by
  have initial : (init defaultDelayNs).Named kind :=
    ⟨fun _ _ held => (nomatch held), fun _ member => absurd member List.not_mem_nil⟩
  exact invariant_along (Named kind) initial
    (fun _ _ _ named names moved => named.step plain names moved)
    (along_of_mem fun _ => names) ran

end Engine

end Kind

namespace Engine

/-! ### The reply -/

/-- Every map has an order. -/
theorem mapOrder_nonempty {ν : Type} (entries : UInt64 → Option ν) : Nonempty (MapOrder entries) := by
  let all := (List.finRange UInt64.size).map UInt64.ofFin
  have increasing : all.Pairwise (· < ·) :=
    List.pairwise_map.mpr ((List.pairwise_lt_finRange _).imp fun below => below)
  have every : ∀ key : UInt64, key ∈ all := fun key =>
    List.mem_map.mpr ⟨key.toFin, List.mem_finRange _, rfl⟩
  refine ⟨⟨all.filter fun key => (entries key).isSome, increasing.filter _, fun key => ?_⟩⟩
  rw [List.mem_filter]
  exact and_iff_right (every key)

theorem statusOrder_nonempty (engine : Engine) : Nonempty (StatusOrder engine) :=
  ⟨⟨(mapOrder_nonempty _).some, fun _ => (mapOrder_nonempty _).some⟩⟩

/-- Digits and lower-case letters are ASCII, and visible. -/
theorem kinds_of_isPlain {ch : UInt8} (plain : isPlain ch = true) :
    isAscii ch = true ∧ isVisible ch = true :=
  kinds_of_isUnescaped (isUnescaped_of_isPlain plain)

/-- An escaped name is a string literal that denotes it exactly if it has no other control character than
a tab, a newline or a carriage return; the reply to `/status` is JSON exactly if all its names are so;
and they are so if the names of every step were. -/
theorem status_isJson {defaultDelayNs : UInt64} {actions : List Action} {final : Engine}
    (ran : run step (init defaultDelayNs) actions = some final)
    (ascii : ∀ action ∈ actions, action.Names isAscii) (order : StatusOrder final)
    (rearmNoop : UInt64) :
    (∀ text : Bytes, (∀ ch ∈ text, isAscii ch = true) →
      (decodeString (jsonText text) = some (text.map UInt8.toNat) ↔
        ∀ ch ∈ text, isVisible ch = true)) ∧
    (IsJson (final.requestCreditStatusJson order rearmNoop) ↔ final.Shown isVisible) ∧
    ((∀ action ∈ actions, action.Names isVisible) →
      IsJson (final.requestCreditStatusJson order rearmNoop)) := by
  have active : final.active = true := (inv_of_run ran).active
  have names : final.Shown isAscii :=
    (named_of_run (fun _ plain => (kinds_of_isPlain plain).1) ran ascii).shown
  have reply : final.requestCreditStatusJson order rearmNoop = final.statusJson order rearmNoop := by
    rw [requestCreditStatusJson, active, if_pos rfl]
  have shown := statusJson_isJson_iff order names rearmNoop
  rw [← reply] at shown
  refine ⟨fun text => decodeString_jsonText_iff, shown, fun visible => shown.mpr ?_⟩
  exact (named_of_run (fun _ plain => (kinds_of_isPlain plain).2) ran visible).shown

/-- An arm of a pod by this name, which finds the cgroup 7. -/
def namedArm (pod : Bytes) : Action :=
  .arm ⟨ascii "shop", pod, [], ascii "web", 0, 1⟩ (some (7, ascii "/sys/fs/cgroup/cart")) ⟨none, true⟩

theorem namedArm_names {kind : UInt8 → Bool} {pod : Bytes}
    (request : ∀ ch ∈ ascii "shop" ++ pod ++ [] ++ ascii "web", kind ch = true)
    (path : ∀ ch ∈ ascii "/sys/fs/cgroup/cart", kind ch = true) :
    ∀ action ∈ [namedArm pod], action.Names kind := by
  intro action member
  rw [List.mem_singleton.mp member]
  refine ⟨request, fun cgid other found => ?_⟩
  cases found
  exact path

/-- The status after an arm of a pod with an ordinary name. -/
theorem status_isJson_cart : ∃ final, ∃ order : StatusOrder final,
    run step (init 1000) [namedArm (ascii "cart")] = some final ∧
      IsJson (final.requestCreditStatusJson order 0) := by
  obtain ⟨final, ran⟩ : ∃ final, run step (init 1000) [namedArm (ascii "cart")] = some final :=
    ⟨_, rfl⟩
  obtain ⟨order⟩ := statusOrder_nonempty final
  have letters := @namedArm_names isAscii (ascii "cart") (by decide +kernel) (by decide +kernel)
  have visible := @namedArm_names isVisible (ascii "cart") (by decide +kernel) (by decide +kernel)
  exact ⟨final, order, ran, (status_isJson ran letters order 0).2.2 visible⟩

/-- A name with the control character 1 is no string literal, and after an arm of a pod by that name the
status is no JSON. -/
theorem status_control : decodeString (jsonText [1]) = none ∧
    ∃ final, run step (init 1000) [namedArm [1]] = some final ∧
      ∀ order : StatusOrder final, ¬ IsJson (final.requestCreditStatusJson order 0) := by
  refine ⟨by decide +kernel, ?_⟩
  obtain ⟨final, ran, vr, held, pod⟩ : ∃ final, run step (init 1000) [namedArm [1]] = some final ∧
      ∃ vr, final.victims 7 = some vr ∧ vr.pod = [1] := ⟨_, rfl, _, rfl, rfl⟩
  refine ⟨final, ran, fun order json => ?_⟩
  have active : final.active = true := (inv_of_run ran).active
  rw [requestCreditStatusJson, active, if_pos rfl] at json
  have letters := @namedArm_names isAscii [1] (by decide +kernel) (by decide +kernel)
  have names : final.Shown isAscii :=
    (named_of_run (fun _ plain => (kinds_of_isPlain plain).1) ran letters).shown
  have shown := ((statusJson_isJson_iff order names 0).mp json 7 vr held).pod
  rw [pod] at shown
  exact absurd (shown 1 (List.mem_singleton.mpr rfl)) (by decide)

end Engine

end Mcoz
