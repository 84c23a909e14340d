/-
Which container `resolve_container_id` picks.

`kubectl` prints a line with a name and an id for each container of a pod. The loop over the lines stops
at the first usable container of the requested name and keeps a fallback meanwhile. The fallback is
meant to be a container other than the proxy and the sandbox, but the line after that test fills it with
whatever comes first. `resolveContainerId_iff` says when that makes no difference.
-/

import Mcoz.Daemon.Http

set_option autoImplicit false

namespace Mcoz.Daemon

open Word Text

/-! ### The code -/

/-- `strip_container_prefix`. -/
def stripContainerPrefix (cid : Bytes) : Bytes :=
  match find (ascii "://") cid with
  | none => cid
  | some pos => cid.drop (pos + 3)

/-- The name and the id in a line; `none` where the loop goes on to the next line. -/
def containerOf (line : Bytes) : Option (Bytes × Bytes) :=
  let s := trim isBlank (cString line)
  if s = [] then none
  else
    match find [124] s with
    | none => none
    | some sep =>
        let name := trim isBlank (s.take sep)
        let cid := trim isBlank (s.drop (sep + 1))
        if cid = [] ∨ cid = ascii "null" ∨ cid = ascii "<no value>" then none
        else if stripContainerPrefix cid = [] then none
        else some (name, stripContainerPrefix cid)

/-- The names that the fallback avoids. -/
def isProxy (name : Bytes) : Bool :=
  name == ascii "istio-proxy" || name == ascii "POD"

/-- The loop of `resolve_container_id`, with its fallback. -/
def selectLoop (container : Bytes) : List Bytes → Bytes → Option Bytes
  | [], fallback => if fallback = [] then none else some fallback
  | line :: rest, fallback =>
      match containerOf line with
      | none => selectLoop container rest fallback
      | some (name, cid) =>
          if container ≠ [] ∧ name = container then some cid
          else
            let other := if fallback = [] ∧ isProxy name = false then cid else fallback
            selectLoop container rest (if other = [] then cid else other)

/-- `resolve_container_id`, given what `kubectl` prints; `none` is a `popen` that fails. The buffer has
1024 characters, one of them for the NUL. -/
def resolveContainerId (container : Bytes) (output : Option Bytes) : Option Bytes :=
  output.bind fun text => selectLoop container (readLines 1023 text.length text) []

/-! ### What it should pick -/

/-- The lines as `kubectl` prints them. -/
def printed (lines : List Bytes) : Bytes :=
  lines.flatMap (· ++ [10])

/-- The containers with a usable id. -/
def usable (lines : List Bytes) : List (Bytes × Bytes) :=
  lines.filterMap containerOf

/-- The first usable container of the requested name. An empty name requests none. -/
def requested (container : Bytes) (lines : List Bytes) : Option (Bytes × Bytes) :=
  (usable lines).find? fun one => container ≠ [] ∧ one.1 = container

/-- The first usable container that is no proxy. -/
def firstOther (lines : List Bytes) : Option (Bytes × Bytes) :=
  (usable lines).find? fun one => isProxy one.1 = false

/-- The selection as it is meant: the requested container, else the first that is no proxy, else the
first one. -/
def selectContainer (container : Bytes) (lines : List Bytes) : Option Bytes :=
  (((requested container lines).or (firstOther lines)).or (usable lines).head?).map Prod.snd

/-! ### What it picks -/

section Lines

theorem containerOf_nonempty {line name cid : Bytes} (found : containerOf line = some (name, cid)) :
    cid ≠ [] := by
  revert found
  fun_cases containerOf line with
  | case5 _ _ _ _ _ _ _ full =>
      intro same
      obtain ⟨-, rfl⟩ := Prod.mk.inj (Option.some.inj same)
      exact full
  | _ => simp

/-- The end of a line is trimmed off. -/
theorem containerOf_newline (line : Bytes) : containerOf (line ++ [10]) = containerOf line := by
  have same : trim isBlank (cString (line ++ [10])) = trim isBlank (cString line) := by
    by_cases cut : (0 : UInt8) ∈ line
    · rw [(cString_cut cut [10]).1]
    · have whole : cString line = line := by simpa [cString] using cString_append cut []
      have ended : cString (line ++ [10]) = line ++ [10] := cString_append cut [10]
      rw [ended, whole, trim_concat (by decide)]
  rw [containerOf, same, containerOf]

/-- The loop only sees the usable containers. -/
theorem selectLoop_spec (container : Bytes) : ∀ (lines : List Bytes) (fallback : Bytes),
    selectLoop container lines fallback =
      ((requested container lines).map Prod.snd).or
        (if fallback = [] then (usable lines).head?.map Prod.snd else some fallback)
  | [], fallback => by
      by_cases empty : fallback = [] <;> simp [selectLoop, requested, usable, empty]
  | line :: rest, fallback => by
      rw [selectLoop]
      cases found : containerOf line with
      | none =>
          have same : usable (line :: rest) = usable rest := List.filterMap_cons_none found
          simp only [requested, same]
          exact selectLoop_spec container rest fallback
      | some one =>
          obtain ⟨name, cid⟩ := one
          have more : usable (line :: rest) = (name, cid) :: usable rest :=
            List.filterMap_cons_some found
          have full := containerOf_nonempty found
          by_cases asked : container ≠ [] ∧ name = container
          · simp [requested, more, asked]
          · have passed : requested container (line :: rest) = requested container rest := by
              rw [requested, more, List.find?_cons_of_neg (by simpa using asked), requested]
            simp only [if_neg asked]
            rw [selectLoop_spec container rest, passed, more]
            -- Whatever the proxy test says, an empty fallback becomes this container.
            by_cases empty : fallback = []
            · by_cases proxy : isProxy name = false <;> simp [empty, proxy, full]
            · simp [empty]

/-- Every line is printed with its end. -/
theorem length_le_printed (lines : List Bytes) : lines.length ≤ (printed lines).length := by
  induction lines with
  | nil => exact Nat.le_refl 0
  | cons line lines ih =>
      simp only [printed, List.flatMap_cons, List.length_append, List.length_cons,
        List.length_nil] at ih ⊢
      omega

/-- What the function picks: the requested container, else the first one, proxy or not. -/
theorem resolveContainerId_eq (container : Bytes) {lines : List Bytes}
    (fit : ∀ line ∈ lines, (10 : UInt8) ∉ line ∧ line.length + 1 < 1024) :
    resolveContainerId container (some (printed lines)) =
      ((requested container lines).or (usable lines).head?).map Prod.snd := by
  have enough := length_le_printed lines
  have read : readLines 1023 (printed lines).length (printed lines) = lines.map (· ++ [10]) :=
    readLines_joined (fun line member => ⟨(fit line member).1, by have := (fit line member).2; omega⟩)
      enough
  have same : usable (lines.map (· ++ [10])) = usable lines := by
    simp only [usable, List.filterMap_map]
    exact List.filterMap_congr fun line _ => containerOf_newline line
  rw [resolveContainerId, Option.bind_some, read, selectLoop_spec, requested, same, if_pos rfl,
    Option.map_or, requested]

/-- For every list of lines that fit and every container: the function picks what it should exactly if a
usable container has the requested name, or every usable one is a proxy, or the first one that is no
proxy has the id of the first one. -/
theorem resolveContainerId_iff (container : Bytes) {lines : List Bytes}
    (fit : ∀ line ∈ lines, (10 : UInt8) ∉ line ∧ line.length + 1 < 1024) :
    resolveContainerId container (some (printed lines)) = selectContainer container lines ↔
      (requested container lines).isSome ∨ firstOther lines = none ∨
        (firstOther lines).map Prod.snd = (usable lines).head?.map Prod.snd := by
  rw [resolveContainerId_eq container fit, selectContainer]
  cases asked : requested container lines with
  | some one => simp
  | none =>
      cases other : firstOther lines with
      | none => simp
      | some one => simp [eq_comm]

end Lines

/-- A pod with a proxy and an application. -/
def proxyFirst : List Bytes :=
  [ascii "istio-proxy|containerd://aaaa", ascii "app|containerd://bbbb"]

theorem proxyFirst_fit : ∀ line ∈ proxyFirst, (10 : UInt8) ∉ line ∧ line.length + 1 < 1024 := by
  decide

/-- The requested container is picked, wherever the proxy stands. -/
theorem resolveContainerId_iff_sample :
    resolveContainerId (ascii "app") (some (printed proxyFirst)) =
      selectContainer (ascii "app") proxyFirst :=
  (resolveContainerId_iff (ascii "app") proxyFirst_fit).mpr (Or.inl (by decide +kernel))

/-- For another name the proxy is picked, since it comes first. -/
theorem proxy_picked : ¬ ∀ (container : Bytes) (lines : List Bytes),
    (∀ line ∈ lines, (10 : UInt8) ∉ line ∧ line.length + 1 < 1024) →
    resolveContainerId container (some (printed lines)) = selectContainer container lines := by
  intro picks
  have picked := (resolveContainerId_iff (ascii "web") proxyFirst_fit).mp
    (picks (ascii "web") proxyFirst proxyFirst_fit)
  exact absurd picked (by decide +kernel)

end Mcoz.Daemon
