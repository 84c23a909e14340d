/-
How the engine resolves its targets.

`resolve_target` asks `kubectl` for the id of a container and searches the cgroup file system for it; the answers are
kept for 30 seconds under the names of the target, as long as their cgroup is still there. `target_recent`: in every
run of the requests that the engine serves, what is resolved is the asked target, found now or less than 30 seconds
ago, and its cgroup is the first of the directories with the best score for the id that was found.
-/

import Mcoz.Daemon.ContainerId
import Mcoz.Daemon.ContainerSelection
import Mcoz.Engine.State
import Mcoz.Lib.Best
import Mcoz.Lib.Expiring

set_option autoImplicit false

namespace Mcoz

open Word Text Machine

namespace Targets

/-! ### The code -/

/-- The names of a target in a request. -/
structure Request where
  ns : Bytes
  pod : Bytes
  container : Bytes

/-- The node of the daemon during a call: what a command prints, the paths that are there, the directories in the order
of `recursive_directory_iterator` until it ends or throws, and the inode of a path, which is zero if `stat` fails. -/
structure Node where
  popen : Bytes → Option Bytes
  access : Bytes → Bool
  directories : Bytes → List Bytes
  inode : Bytes → UInt64

/-- `scan_roots`. -/
def scanRoots (node : Node) : List Bytes :=
  [ascii "/sys/fs/cgroup", ascii "/sys/fs/cgroup/unified", ascii "/sys/fs/cgroup/perf_event"].flatMap fun root =>
    if node.access root then
      root :: ([ascii "/kubepods.slice", ascii "/kubepods", ascii "/system.slice"].map (root ++ ·)).filter node.access
    else []

/-- `v1_controllers`. -/
def v1Controllers : List Bytes :=
  [ascii "/sys/fs/cgroup/hugetlb/", ascii "/sys/fs/cgroup/memory/", ascii "/sys/fs/cgroup/cpu/",
    ascii "/sys/fs/cgroup/cpuacct/", ascii "/sys/fs/cgroup/cpuset/", ascii "/sys/fs/cgroup/blkio/",
    ascii "/sys/fs/cgroup/pids/", ascii "/sys/fs/cgroup/freezer/", ascii "/sys/fs/cgroup/net_cls/",
    ascii "/sys/fs/cgroup/net_prio/", ascii "/sys/fs/cgroup/devices/"]

/-- `score_path`. -/
def scorePath (path : Bytes) : ℤ :=
  (if (ascii "/sys/fs/cgroup/unified/").isPrefixOf path then 200 else 0) +
    (if (ascii "/sys/fs/cgroup/kubepods").isPrefixOf path ∨ (ascii "/sys/fs/cgroup/kubepods.slice").isPrefixOf path
      then 150 else 0) +
    (if (find (ascii "/kubepods") path).isSome then 50 else 0) +
    (if (ascii "/sys/fs/cgroup/perf_event/").isPrefixOf path then 20 else 0) -
    (if v1Controllers.any fun start => start.isPrefixOf path then 100 else 0)

/-- `path.filename()`. -/
def fileName (path : Bytes) : Bytes :=
  (path.reverse.takeWhile (· ≠ 47)).reverse

/-- Whether the name of a directory is one of the container. -/
def isNamed (cid path : Bytes) : Bool :=
  fileName path == ascii "cri-containerd-" ++ cid ++ ascii ".scope" || (find cid (fileName path)).isSome

/-- The directories with such a name, in the order of the search. -/
def candidates (node : Node) (cid : Bytes) : List Bytes :=
  ((scanRoots node).flatMap node.directories).filter (isNamed cid)

/-- `find_cgroup_by_cid`; an empty path is a failure. -/
def findCgroupByCid (node : Node) (cid : Bytes) : Bytes :=
  if cid = [] then []
  else (((candidates node cid).foldl (Best.keep scorePath) (-1000000, none)).2).getD []

/-- The name of the container, which is `app` unless the request has one. -/
def Request.containerName (request : Request) : Bytes :=
  if request.container = [] then ascii "app" else request.container

/-- The lookups of `resolve_target`: the cgroup and its path. -/
def locate (node : Node) (request : Request) : Option (UInt64 × Bytes) :=
  (Daemon.resolveContainerId request.containerName (node.popen (Daemon.kubectlLine request.ns request.pod))).bind
    fun cid =>
      let cgroupPath := findCgroupByCid node cid
      if cgroupPath = [] then none else some (node.inode cgroupPath, cgroupPath)

/-- `key`. -/
def Request.key (request : Request) : Bytes :=
  request.ns ++ ascii "/" ++ request.pod ++ ascii "/" ++ request.containerName

/-- The cache of `resolve_target`. -/
def targetCache : Expiring.Plan Request Bytes ResolvedTarget Node where
  key := Request.key
  fetch := fun node request => resolveTarget request.ns request.pod request.container (locate node request)
  usable := fun node resolved => node.access resolved.cgroupPath
  timeToLive := 30000000000
  keeps := true

/-! ### The search -/

/-- The first of the directories of the container with the best score. -/
def IsBest (node : Node) (cid path : Bytes) : Prop :=
  ∃ front back, candidates node cid = front ++ path :: back ∧
    (∀ other ∈ front, scorePath other < scorePath path) ∧ ∀ other ∈ back, scorePath other ≤ scorePath path

theorem isBest_findCgroupByCid {node : Node} {cid path : Bytes} (found : findCgroupByCid node cid = path)
    (nonempty : path ≠ []) : IsBest node cid path := by
  unfold findCgroupByCid at found
  split at found
  · exact absurd found.symm nonempty
  · have outcome := @Best.outcome_keep _ _ _ scorePath (-1000000) (candidates node cid)
    generalize (candidates node cid).foldl (Best.keep scorePath) (-1000000, none) = kept at found outcome
    cases outcome with
    | none low => exact absurd found.symm nonempty
    | first best front back shape high earlier later =>
        obtain rfl : best = path := found
        exact ⟨front, back, shape, earlier, later⟩

/-! ### The names -/

/-- A name without a slash is found at the front of a key. -/
theorem cut_slash {first second : Bytes} (plain : (47 : UInt8) ∉ first) (plain' : (47 : UInt8) ∉ second)
    {rest others : Bytes} (same : first ++ 47 :: rest = second ++ 47 :: others) : first = second ∧ rest = others := by
  induction first generalizing second with
  | nil =>
      cases second with
      | nil => exact ⟨rfl, (List.cons.inj same).2⟩
      | cons byte second => exact absurd (List.mem_cons.mpr (.inl (List.cons.inj same).1)) plain'
  | cons byte first ih =>
      cases second with
      | nil => exact absurd (List.mem_cons.mpr (.inl (List.cons.inj same).1.symm)) plain
      | cons byte' second =>
          obtain ⟨rfl, tail⟩ := List.cons.inj same
          obtain ⟨rfl, rfl⟩ := ih (fun there => plain (List.mem_cons_of_mem _ there))
            (fun there => plain' (List.mem_cons_of_mem _ there)) tail
          exact ⟨rfl, rfl⟩

/-- Neither the namespace nor the pod has a slash, as Kubernetes demands of names. -/
def Request.Plain (request : Request) : Prop :=
  (47 : UInt8) ∉ request.ns ∧ (47 : UInt8) ∉ request.pod

theorem Request.key_eq (request : Request) :
    request.key = request.ns ++ 47 :: (request.pod ++ 47 :: request.containerName) := by
  simp only [Request.key, List.append_assoc]
  rfl

/-- The key of a target has its names. -/
theorem names_of_key {request other : Request} (plain : request.Plain) (plain' : other.Plain)
    (same : request.key = other.key) :
    request.ns = other.ns ∧ request.pod = other.pod ∧ request.containerName = other.containerName := by
  rw [Request.key_eq, Request.key_eq] at same
  obtain ⟨ns, rest⟩ := cut_slash plain.1 plain'.1 same
  exact ⟨ns, cut_slash plain.2 plain'.2 rest⟩

/-! ### What is resolved -/

/-- What a lookup of the names resolves: the names, and the best cgroup of the container that `kubectl` names. -/
structure Resolves (node : Node) (ns pod container : Bytes) (resolved : ResolvedTarget) : Prop where
  names : resolved.ns = ns ∧ resolved.pod = pod ∧ resolved.container = container
  best : ∃ cid, Daemon.resolveContainerId container (node.popen (Daemon.kubectlLine ns pod)) = some cid ∧
    IsBest node cid resolved.cgroupPath
  cgroupId : resolved.cgroupId = node.inode resolved.cgroupPath ∧ resolved.cgroupId ≠ 0

theorem resolves_of_plain {call : Expiring.Call Request Node} {resolved : ResolvedTarget}
    (plain : targetCache.plain call = some resolved) :
    Resolves call.environment call.request.ns call.request.pod call.request.containerName resolved := by
  unfold Expiring.Plan.plain at plain
  dsimp only [targetCache] at plain
  cases located : locate call.environment call.request with
  | none => simp [resolveTarget, located] at plain
  | some found =>
      obtain ⟨cgroupId, cgroupPath⟩ := found
      rw [located] at plain
      obtain ⟨nonzero, same⟩ := Option.ite_none_left_eq_some.mp plain
      obtain rfl := Option.some.inj same
      obtain ⟨cid, picked, rest⟩ := Option.bind_eq_some_iff.mp located
      obtain ⟨nonempty, there⟩ := Option.ite_none_left_eq_some.mp rest
      obtain ⟨rfl, rfl⟩ := Prod.mk.inj (Option.some.inj there)
      exact ⟨⟨rfl, rfl, rfl⟩, ⟨cid, picked, isBest_findCgroupByCid rfl nonempty⟩, rfl, nonzero⟩

section Runs

variable {past : List (Expiring.Call Request Node)} {cache : Expiring.Cache Bytes ResolvedTarget}
  {call : Expiring.Call Request Node}

/-- A resolved target is the asked one, found at some time. -/
theorem found_recently {resolved : ResolvedTarget} (ran : run targetCache.step Expiring.empty past = some cache)
    (plain : ∀ one ∈ past ++ [call], one.request.Plain) (answered : targetCache.answer cache call = some resolved) :
    ∃ earlier ∈ past ++ [call],
      Resolves earlier.environment call.request.ns call.request.pod call.request.containerName resolved ∧
        (earlier = call ∨ call.asked - earlier.stored < 30000000000 ∧ call.environment.access resolved.cgroupPath) := by
  have last : call ∈ past ++ [call] := List.mem_append_right _ (List.mem_singleton_self call)
  rcases Expiring.answer_recent ran answered with now | ⟨earlier, made, key, before, young, there⟩
  · exact ⟨call, last, resolves_of_plain now, .inl rfl⟩
  · have among : earlier ∈ past ++ [call] := List.mem_append_left _ made
    have found := resolves_of_plain before
    obtain ⟨ns, pod, container⟩ := names_of_key (plain earlier among) (plain call last) key
    rw [ns, pod, container] at found
    exact ⟨earlier, among, found, .inr ⟨young, there⟩⟩

end Runs

/-- **A resolved target is recent.** Of every call in a run: what is resolved is the asked target as a lookup of this
call, or of one less than 30 seconds ago, has found it, with a cgroup that is then still there; if nothing is
resolved, the lookups of this call find nothing; and where the lookups of 30 seconds agree, the cache makes no
difference. -/
theorem target_recent {past : List (Expiring.Call Request Node)} {cache : Expiring.Cache Bytes ResolvedTarget}
    {call : Expiring.Call Request Node} (ran : run targetCache.step Expiring.empty past = some cache)
    (plain : ∀ one ∈ past ++ [call], one.request.Plain) :
    (∀ resolved, targetCache.answer cache call = some resolved → ∃ earlier ∈ past ++ [call],
      Resolves earlier.environment call.request.ns call.request.pod call.request.containerName resolved ∧
        (earlier = call ∨ call.asked - earlier.stored < 30000000000 ∧ call.environment.access resolved.cgroupPath)) ∧
      (targetCache.answer cache call = none → targetCache.plain call = none) ∧
      ((∀ earlier ∈ past, earlier.request.key = call.request.key → call.asked - earlier.stored < 30000000000 →
        targetCache.plain earlier = targetCache.plain call) → targetCache.answer cache call = targetCache.plain call) :=
  ⟨fun _ answered => found_recently ran plain answered, Expiring.answer_eq_none, Expiring.answer_eq_fetch ran⟩

/-- A node on which the container `c1` runs. -/
def cartNode : Node where
  popen := fun _ => some (ascii "app|containerd://c1\n")
  access := fun _ => true
  directories := fun root =>
    if root = ascii "/sys/fs/cgroup" then
      [ascii "/sys/fs/cgroup/pids/c1", ascii "/sys/fs/cgroup/kubepods/c1", ascii "/sys/fs/cgroup/kubepods/c1x"]
    else []
  inode := fun _ => 7

/-- A request at some time; the second one finds no `kubectl`. -/
def cartCall (asked : ℕ) : Expiring.Call Request Node where
  request := ⟨ascii "shop", ascii "cart", []⟩
  environment := if asked = 0 then cartNode else { cartNode with popen := fun _ => none }
  asked := asked
  stored := asked + 5

theorem target_recent_cart : ∃ cache resolved, run targetCache.step Expiring.empty [cartCall 0] = some cache ∧
    targetCache.answer cache (cartCall 20) = some resolved ∧ ∃ earlier ∈ [cartCall 0] ++ [cartCall 20],
      Resolves earlier.environment (ascii "shop") (ascii "cart") (ascii "app") resolved ∧
        (earlier = cartCall 20 ∨
          (cartCall 20).asked - earlier.stored < 30000000000 ∧ (cartCall 20).environment.access resolved.cgroupPath) := by
  have plain : ∀ one ∈ [cartCall 0] ++ [cartCall 20], one.request.Plain := by
    intro one among
    rcases List.mem_cons.mp among with rfl | last
    · exact ⟨by decide, by decide⟩
    · obtain rfl := List.mem_singleton.mp last
      exact ⟨by decide, by decide⟩
  obtain ⟨cache, ran⟩ := Option.isSome_iff_exists.mp
    (by decide +kernel : (run targetCache.step Expiring.empty [cartCall 0]).isSome)
  have held : ((run targetCache.step Expiring.empty [cartCall 0]).bind fun cache =>
      targetCache.answer cache (cartCall 20)).isSome := by
    decide +kernel
  rw [ran, Option.bind_some] at held
  obtain ⟨resolved, answered⟩ := Option.isSome_iff_exists.mp held
  exact ⟨cache, resolved, ran, answered, (target_recent ran plain).1 resolved answered⟩

end Targets

end Mcoz
