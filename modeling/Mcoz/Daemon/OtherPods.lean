/-
The pods that share the node with the target.

`discover_other_pods` asks kubectl for all pods, a line of fields for each, and looks for the cgroup directory of those
that are marked and run on this node. What kubectl prints is read back field by field (`discoverLine_line`), and the
search takes the first directory of the tree that carries a name of the pod's container, one with a task before one
without, and the whole names of containers before other names (`findCgroupByTokens_eq`). So the victims are the
directories of exactly the pods that are meant: `other_pods_discovered`.
-/

import Mcoz.Daemon.ContainerSelection
import Mcoz.Engine.Targets
import Mcoz.Lib.Separated

set_option autoImplicit false

namespace Mcoz.Daemon

open Word Text Targets

/-! ### The search -/

/-- The directories that the search goes through, in its order, and which of them have a task. -/
structure CgroupTree where
  dirs : List Bytes
  named : [] ∉ dirs
  hasPid : Bytes → Bool

/-- A directory with a token in its name or its path. -/
def carries (dir tok : Bytes) : Bool :=
  tok ≠ [] && ((find tok (fileName dir)).isSome || (find tok dir).isSome)

/-- The inner loop of `scan`, over the tokens: it returns a directory, or goes on with a fallback. -/
def scanTokens (tree : CgroupTree) (requireTasks : Bool) (dir : Bytes) : List Bytes → Bytes → Except Bytes Bytes
  | [], fallback => .ok fallback
  | tok :: rest, fallback =>
      if !carries dir tok then scanTokens tree requireTasks dir rest fallback
      else if !requireTasks || tree.hasPid dir then .error dir
      else scanTokens tree requireTasks dir rest (if fallback = [] then dir else fallback)

/-- The outer loop of `scan`, over the directories. -/
def scanDirs (tree : CgroupTree) (tokens : List Bytes) (requireTasks : Bool) : List Bytes → Bytes → Bytes
  | [], fallback => fallback
  | dir :: rest, fallback =>
      match scanTokens tree requireTasks dir tokens fallback with
      | .error found => found
      | .ok fallback => scanDirs tree tokens requireTasks rest fallback

/-- A token that is part of the whole name of a container. -/
def isStrong (tok : Bytes) : Bool :=
  (find (ascii "cri-containerd-") tok).isSome || (find (ascii ".scope") tok).isSome

/-- `find_cgroup_by_tokens`. -/
def findCgroupByTokens (tree : CgroupTree) (tokens : List Bytes) : Bytes :=
  let strong := tokens.filter isStrong
  let whole := if strong = [] then [] else scanDirs tree strong true tree.dirs []
  if whole ≠ [] then whole
  else
    let again := if strong = [] then [] else scanDirs tree strong false tree.dirs []
    if again ≠ [] then again
    else
      let other := scanDirs tree tokens true tree.dirs []
      if other ≠ [] then other else scanDirs tree tokens false tree.dirs []

/-! ### The lines -/

/-- What is known of the node: its name (empty if it has none), the pod that is left out, and the target's cgroup. -/
structure Discovery where
  myNode : Bytes
  exclude : Bytes
  target : Bytes
  tree : CgroupTree

/-- `is_system_ns`. -/
def isSystemNs (ns : Bytes) : Bool :=
  [ascii "kube-system", ascii "kube-public", ascii "kube-node-lease"].contains ns

/-- The text after a marker, or the whole text without one. -/
def afterMarker (marker text : Bytes) : Bytes :=
  match find marker text with
  | none => text
  | some pos => text.drop (pos + marker.length)

/-- The names by which the directory of a pod is looked for. -/
def podTokens (cid uid : Bytes) : List Bytes :=
  (if cid = [] then [] else [cid, ascii "cri-containerd-" ++ cid ++ ascii ".scope"]) ++
    if uid = [] then [] else [ascii "pod" ++ uid.map (fun ch => if ch = 45 then 95 else ch), uid]

/-- The cgroup directory that a turn of the loop adds, for the fields of a line. -/
def discoverFields (env : Discovery) (ns pod uid ann node cid : Bytes) : Option Bytes :=
  if ns = [] ∨ pod = [] then none
  else if isSystemNs ns then none
  else if env.exclude ≠ [] ∧ ns ++ 47 :: pod = env.exclude then none
  else if env.myNode ≠ [] ∧ node ≠ [] ∧ node ≠ env.myNode then none
  else if ann ≠ ascii "true" then none
  else
    let cid := if cid = [] then cid else afterMarker (ascii "cri-o://") (afterMarker (ascii "containerd://") cid)
    if cid = [] ∧ uid = [] then none
    else
      let found := findCgroupByTokens env.tree (podTokens cid uid)
      if found = [] ∨ found = env.target then none else some found

/-- A turn of the loop over the lines. -/
def discoverLine (env : Discovery) (line : Bytes) : Option Bytes :=
  let raw := cString line
  if (find (ascii "Error") raw).isSome || (find (ascii "forbidden") raw).isSome then none
  else
    let fields := raw.splitOn 124
    let field (index : ℕ) := trim isBlank (fields.getD index [])
    discoverFields env (field 0) (field 1) (field 2) (field 3) (field 4) (field 5)

/-- `discover_other_pods`: the paths of the victims' cgroups, from what kubectl prints. -/
def discoverOtherPods (env : Discovery) (output : Bytes) : List Bytes :=
  (readLines 4095 output.length output).filterMap (discoverLine env)

/-! ### What kubectl prints -/

/-- A field of a line: no separator, line end or NUL is in it, and no blank around it. -/
structure PlainField (text : Bytes) : Prop where
  whole : (124 : UInt8) ∉ text ∧ (10 : UInt8) ∉ text ∧ (0 : UInt8) ∉ text
  trimmed : trim isBlank text = text

instance {text : Bytes} : Decidable (PlainField text) :=
  decidable_of_iff
    (((124 : UInt8) ∉ text ∧ (10 : UInt8) ∉ text ∧ (0 : UInt8) ∉ text) ∧ trim isBlank text = text)
    ⟨fun both => ⟨both.1, both.2⟩, fun plain => ⟨plain.whole, plain.trimmed⟩⟩

/-- A pod, with the fields that are asked for; one that it has not is empty. -/
structure Pod where
  ns : Bytes
  name : Bytes
  uid : Bytes
  annotation : Bytes
  node : Bytes
  containerId : Bytes
  plain : ∀ text ∈ [ns, name, uid, annotation, node, containerId], PlainField text

/-- The fields after the first. -/
def Pod.later (pod : Pod) : List Bytes :=
  [pod.name, pod.uid, pod.annotation, pod.node, pod.containerId]

/-- The line of a pod. -/
def Pod.line (pod : Pod) : Bytes :=
  pod.ns ++ pod.later.flatMap (124 :: ·)

/-- A line that is read whole and not taken for an error. -/
def Pod.Legible (pod : Pod) : Prop :=
  pod.line.length < 4095 ∧ find (ascii "Error") (pod.line ++ [10]) = none ∧
    find (ascii "forbidden") (pod.line ++ [10]) = none

/-! ### The search, without its loops -/

section Search

variable {tree : CgroupTree} {tokens dirs : List Bytes} {dir fallback : Bytes}

/-- A directory that carries one of the tokens. -/
def carriesOne (tokens : List Bytes) (dir : Bytes) : Bool :=
  tokens.any (carries dir)

theorem scanTokens_eq {requireTasks : Bool} : scanTokens tree requireTasks dir tokens fallback =
    if carriesOne tokens dir then
      if !requireTasks || tree.hasPid dir then .error dir else .ok (if fallback = [] then dir else fallback)
    else .ok fallback := by
  induction tokens generalizing fallback with
  | nil => rfl
  | cons tok rest ih =>
      rw [scanTokens]
      by_cases carried : carries dir tok = true
      · have here : carriesOne (tok :: rest) dir = true := by simp [carriesOne, carried]
        rw [if_neg (by simp [carried]), if_pos here]
        by_cases returned : (!requireTasks || tree.hasPid dir) = true
        · rw [if_pos returned, if_pos returned]
        · rw [if_neg returned, if_neg returned, ih, if_neg returned]
          by_cases empty : fallback = []
          · rw [if_pos empty]
            by_cases nameless : dir = [] <;> simp [nameless]
          · rw [if_neg empty, if_neg empty, ite_self]
      · have same : carriesOne (tok :: rest) dir = carriesOne rest dir := by simp [carriesOne, carried]
        rw [if_pos (by simp [carried]), ih, same]

/-- The loops take the first directory that may be returned, else what the fallback was at first, else the first that
carries a token. -/
theorem scanDirs_eq {requireTasks : Bool} (named : [] ∉ dirs) : scanDirs tree tokens requireTasks dirs fallback =
    (dirs.find? fun dir => carriesOne tokens dir && (!requireTasks || tree.hasPid dir)).getD
      (if fallback = [] then (dirs.find? (carriesOne tokens)).getD [] else fallback) := by
  induction dirs generalizing fallback with
  | nil => by_cases empty : fallback = [] <;> simp [scanDirs, empty]
  | cons dir rest ih =>
      have nonempty : dir ≠ [] := fun same => named (same ▸ List.mem_cons_self)
      have ih := fun fallback => @ih fallback fun among => named (List.mem_cons_of_mem _ among)
      rw [scanDirs, scanTokens_eq]
      by_cases carried : carriesOne tokens dir = true
      · rw [if_pos carried, List.find?_cons_of_pos carried]
        by_cases returned : (!requireTasks || tree.hasPid dir) = true
        · rw [if_pos returned, List.find?_cons_of_pos (by rw [carried, returned]; rfl)]
          rfl
        · have passed : ¬ (carriesOne tokens dir && (!requireTasks || tree.hasPid dir)) = true := by
            rw [Bool.and_eq_true]
            exact fun both => returned both.2
          have skipped : (dir :: rest).find? (fun dir => carriesOne tokens dir && (!requireTasks || tree.hasPid dir)) =
              rest.find? fun dir => carriesOne tokens dir && (!requireTasks || tree.hasPid dir) :=
            List.find?_cons_of_neg passed
          rw [if_neg returned, skipped]
          dsimp only
          rw [ih]
          by_cases empty : fallback = []
          · rw [if_pos empty, if_neg nonempty, if_pos empty]
            rfl
          · rw [if_neg empty, if_neg empty, if_neg empty]
      · have passed : ¬ (carriesOne tokens dir && (!requireTasks || tree.hasPid dir)) = true := by
          rw [Bool.and_eq_true]
          exact fun both => carried both.1
        have skipped : (dir :: rest).find? (fun dir => carriesOne tokens dir && (!requireTasks || tree.hasPid dir)) =
            rest.find? fun dir => carriesOne tokens dir && (!requireTasks || tree.hasPid dir) :=
          List.find?_cons_of_neg passed
        rw [if_neg carried, skipped, List.find?_cons_of_neg carried]
        exact ih fallback

/-- The directory for some tokens: the first that carries a whole name and has a task, the first that carries a whole
name, the first that carries any token and has a task, or the first that carries any. -/
def CgroupTree.choose (tree : CgroupTree) (tokens : List Bytes) : Option Bytes :=
  let strong := tokens.filter isStrong
  (tree.dirs.find? fun dir => carriesOne strong dir && tree.hasPid dir).or
    ((tree.dirs.find? (carriesOne strong)).or
      ((tree.dirs.find? fun dir => carriesOne tokens dir && tree.hasPid dir).or
        (tree.dirs.find? (carriesOne tokens))))

/-- Without a token no directory is found. -/
theorem find_carriesOne_nil {kind : Bytes → Bool} :
    (tree.dirs.find? fun dir => carriesOne [] dir && kind dir) = none ∧ tree.dirs.find? (carriesOne []) = none :=
  ⟨List.find?_eq_none.mpr fun _ _ => Bool.false_ne_true, List.find?_eq_none.mpr fun _ _ => Bool.false_ne_true⟩

theorem choose_nil : tree.choose [] = none := by
  obtain ⟨tasks, any⟩ := @find_carriesOne_nil tree tree.hasPid
  show ((tree.dirs.find? fun dir => carriesOne [] dir && tree.hasPid dir).or ((tree.dirs.find? (carriesOne [])).or
    ((tree.dirs.find? fun dir => carriesOne [] dir && tree.hasPid dir).or (tree.dirs.find? (carriesOne []))))) = none
  rw [tasks, any]
  rfl

theorem choose_ne_nil : tree.choose tokens ≠ some [] := by
  intro chosen
  unfold CgroupTree.choose at chosen
  simp only [Option.or_eq_some_iff] at chosen
  rcases chosen with found | ⟨-, found | ⟨-, found | ⟨-, found⟩⟩⟩ <;>
    exact tree.named (List.mem_of_find?_eq_some found)

/-- What a search finds is no empty path. -/
theorem find_ne_nil {kind : Bytes → Bool} : tree.dirs.find? kind ≠ some [] :=
  fun found => tree.named (List.mem_of_find?_eq_some found)

/-- Both searches for the same tokens: the one for a directory with a task falls back on the other itself. -/
theorem scanDirs_tasks : scanDirs tree tokens true tree.dirs [] =
    ((tree.dirs.find? fun dir => carriesOne tokens dir && tree.hasPid dir).or
      (tree.dirs.find? (carriesOne tokens))).getD [] := by
  rw [scanDirs_eq tree.named, if_pos rfl, Option.getD_or]
  rfl

theorem scanDirs_any : scanDirs tree tokens false tree.dirs [] = (tree.dirs.find? (carriesOne tokens)).getD [] := by
  rw [scanDirs_eq tree.named, if_pos rfl]
  simp only [Bool.not_false, Bool.true_or, Bool.and_true]
  cases tree.dirs.find? fun dir => carriesOne tokens dir <;> rfl

/-- **The search** finds what is to be chosen. -/
theorem findCgroupByTokens_eq : findCgroupByTokens tree tokens = (tree.choose tokens).getD [] := by
  have whole : (if tokens.filter isStrong = [] then [] else scanDirs tree (tokens.filter isStrong) true tree.dirs []) =
      ((tree.dirs.find? fun dir => carriesOne (tokens.filter isStrong) dir && tree.hasPid dir).or
        (tree.dirs.find? (carriesOne (tokens.filter isStrong)))).getD [] := by
    by_cases weak : tokens.filter isStrong = []
    · rw [if_pos weak, weak, find_carriesOne_nil.1, (@find_carriesOne_nil tree tree.hasPid).2]
      rfl
    · rw [if_neg weak]
      exact scanDirs_tasks
  have again : (if tokens.filter isStrong = [] then [] else scanDirs tree (tokens.filter isStrong) false tree.dirs []) =
      (tree.dirs.find? (carriesOne (tokens.filter isStrong))).getD [] := by
    by_cases weak : tokens.filter isStrong = []
    · rw [if_pos weak, weak, (@find_carriesOne_nil tree tree.hasPid).2]
      rfl
    · rw [if_neg weak]
      exact scanDirs_any
  unfold findCgroupByTokens CgroupTree.choose
  dsimp only
  rw [whole, again, scanDirs_tasks, scanDirs_any]
  have first := @find_ne_nil tree fun dir => carriesOne (tokens.filter isStrong) dir && tree.hasPid dir
  have second := @find_ne_nil tree (carriesOne (tokens.filter isStrong))
  have third := @find_ne_nil tree fun dir => carriesOne tokens dir && tree.hasPid dir
  have fourth := @find_ne_nil tree (carriesOne tokens)
  revert first second third fourth
  generalize (tree.dirs.find? fun dir => carriesOne (tokens.filter isStrong) dir && tree.hasPid dir) = a
  generalize tree.dirs.find? (carriesOne (tokens.filter isStrong)) = b
  generalize (tree.dirs.find? fun dir => carriesOne tokens dir && tree.hasPid dir) = c
  generalize tree.dirs.find? (carriesOne tokens) = d
  intro first second third fourth
  cases a <;> cases b <;> cases c <;> cases d <;> simp_all

end Search

/-! ### A line is read back -/

section Line

variable {env : Discovery} {pod : Pod}

instance : Decidable pod.Legible :=
  inferInstanceAs (Decidable (_ ∧ _))

/-- A pod that is not a victim, wherever its cgroup is. -/
def Pod.Spared (pod : Pod) (env : Discovery) : Prop :=
  pod.ns = [] ∨ pod.name = [] ∨ isSystemNs pod.ns = true ∨
    (env.exclude ≠ [] ∧ pod.ns ++ 47 :: pod.name = env.exclude) ∨
    (env.myNode ≠ [] ∧ pod.node ≠ [] ∧ pod.node ≠ env.myNode) ∨ pod.annotation ≠ ascii "true"

instance : Decidable (pod.Spared env) :=
  inferInstanceAs (Decidable (_ ∨ _))

/-- The id of the pod's container, without the name of its runtime. -/
def Pod.cid (pod : Pod) : Bytes :=
  afterMarker (ascii "cri-o://") (afterMarker (ascii "containerd://") pod.containerId)

/-- The cgroup of a pod, unless it is the target's. -/
def Pod.cgroup (pod : Pod) (env : Discovery) : Option Bytes :=
  (env.tree.choose (podTokens pod.cid pod.uid)).filter (· ≠ env.target)

/-- What the fields of a pod add. -/
theorem discoverFields_pod :
    discoverFields env pod.ns pod.name pod.uid pod.annotation pod.node pod.containerId =
      if pod.Spared env then none else pod.cgroup env := by
  have cid : (if pod.containerId = [] then pod.containerId
      else afterMarker (ascii "cri-o://") (afterMarker (ascii "containerd://") pod.containerId)) = pod.cid := by
    by_cases absent : pod.containerId = []
    · rw [if_pos absent, Pod.cid, absent]
      rfl
    · rw [if_neg absent, Pod.cid]
  have last : (if pod.cid = [] ∧ pod.uid = [] then none
      else
        if findCgroupByTokens env.tree (podTokens pod.cid pod.uid) = [] ∨
            findCgroupByTokens env.tree (podTokens pod.cid pod.uid) = env.target then none
        else some (findCgroupByTokens env.tree (podTokens pod.cid pod.uid))) = pod.cgroup env := by
    rw [findCgroupByTokens_eq, Pod.cgroup]
    cases chosen : env.tree.choose (podTokens pod.cid pod.uid) with
    | none => split <;> simp
    | some dir =>
        have nonempty : dir ≠ [] := fun same => choose_ne_nil (same ▸ chosen)
        have named : ¬ (pod.cid = [] ∧ pod.uid = []) := by
          rintro ⟨noCid, noUid⟩
          have bare : podTokens pod.cid pod.uid = [] := by
            rw [noCid, noUid]
            rfl
          rw [bare, choose_nil] at chosen
          cases chosen
        rw [if_neg named, Option.getD_some]
        by_cases own : dir = env.target
        · rw [if_pos (Or.inr own), Option.filter_some, if_neg (by simpa using own)]
        · rw [if_neg (not_or.mpr ⟨nonempty, own⟩), Option.filter_some, if_pos (by simpa using own)]
  unfold discoverFields
  dsimp only
  rw [cid, last]
  by_cases unnamed : pod.ns = [] ∨ pod.name = []
  · have spared : pod.Spared env := unnamed.elim Or.inl fun noName => Or.inr (Or.inl noName)
    rw [if_pos unnamed, if_pos spared]
  by_cases system : isSystemNs pod.ns = true
  · have spared : pod.Spared env := Or.inr (Or.inr (Or.inl system))
    rw [if_neg unnamed, if_pos system, if_pos spared]
  by_cases excluded : env.exclude ≠ [] ∧ pod.ns ++ 47 :: pod.name = env.exclude
  · have spared : pod.Spared env := Or.inr (Or.inr (Or.inr (Or.inl excluded)))
    rw [if_neg unnamed, if_neg system, if_pos excluded, if_pos spared]
  by_cases elsewhere : env.myNode ≠ [] ∧ pod.node ≠ [] ∧ pod.node ≠ env.myNode
  · have spared : pod.Spared env := Or.inr (Or.inr (Or.inr (Or.inr (Or.inl elsewhere))))
    rw [if_neg unnamed, if_neg system, if_neg excluded, if_pos elsewhere, if_pos spared]
  by_cases unmarked : pod.annotation ≠ ascii "true"
  · have spared : pod.Spared env := Or.inr (Or.inr (Or.inr (Or.inr (Or.inr unmarked))))
    rw [if_neg unnamed, if_neg system, if_neg excluded, if_neg elsewhere, if_pos unmarked, if_pos spared]
  · have meant : ¬ pod.Spared env := by
      rintro (here | here | here | here | here | here)
      exacts [unnamed (Or.inl here), unnamed (Or.inr here), system here, excluded here, elsewhere here, unmarked here]
    rw [if_neg unnamed, if_neg system, if_neg excluded, if_neg elsewhere, if_neg unmarked, if_neg meant]

/-- The fields of a line. -/
theorem splitOn_line : (pod.line ++ [10]).splitOn 124 =
    [pod.ns, pod.name, pod.uid, pod.annotation, pod.node, pod.containerId ++ [10]] := by
  have shape : pod.line ++ [10] = pod.ns ++
      [pod.name, pod.uid, pod.annotation, pod.node, pod.containerId ++ [10]].flatMap (124 :: ·) := by
    simp [Pod.line, Pod.later]
  have apart (text : Bytes) (among : text ∈ [pod.ns, pod.name, pod.uid, pod.annotation, pod.node, pod.containerId]) :
      (124 : UInt8) ∉ text := (pod.plain text among).whole.1
  rw [shape]
  refine Separated.splitOn_flatMap (apart pod.ns (by simp)) fun part among => ?_
  simp only [List.mem_cons, List.not_mem_nil, or_false] at among
  rcases among with rfl | rfl | rfl | rfl | rfl
  · exact apart _ (by simp)
  · exact apart _ (by simp)
  · exact apart _ (by simp)
  · exact apart _ (by simp)
  · exact fun held => (List.mem_append.mp held).elim (apart pod.containerId (by simp)) (by decide)

/-- Every character of a line is of a field, or a separator. -/
theorem not_mem_line {ch : UInt8} (other : ch ≠ 124)
    (absent : ∀ text ∈ [pod.ns, pod.name, pod.uid, pod.annotation, pod.node, pod.containerId], ch ∉ text) :
    ch ∉ pod.line := by
  simp only [List.forall_mem_cons] at absent
  obtain ⟨ns, name, uid, annotation, node, containerId, -⟩ := absent
  simp [Pod.line, Pod.later, other, ns, name, uid, annotation, node, containerId]

/-- What the line of a pod adds. -/
theorem discoverLine_line (legible : pod.Legible) : discoverLine env (pod.line ++ [10]) =
    if pod.Spared env then none else pod.cgroup env := by
  obtain ⟨-, noError, notForbidden⟩ := legible
  have trimmed (text : Bytes) (among : text ∈ [pod.ns, pod.name, pod.uid, pod.annotation, pod.node, pod.containerId]) :
      trim isBlank text = text := (pod.plain text among).trimmed
  have whole : cString (pod.line ++ [10]) = pod.line ++ [10] :=
    cString_append (not_mem_line (by decide) fun text among => (pod.plain text among).whole.2.2) [10]
  have last : trim isBlank (pod.containerId ++ [10]) = pod.containerId := by
    rw [trim_concat (by decide), trimmed pod.containerId (by simp)]
  unfold discoverLine
  dsimp only
  rw [whole, noError, notForbidden, splitOn_line, if_neg (by decide)]
  simp only [List.getD_cons_zero, List.getD_cons_succ]
  rw [trimmed pod.ns (by simp), trimmed pod.name (by simp), trimmed pod.uid (by simp),
    trimmed pod.annotation (by simp), trimmed pod.node (by simp), last, discoverFields_pod]

/-- The lines of pods are read one by one. -/
theorem readLines_pods {pods : List Pod} (legible : ∀ pod ∈ pods, pod.Legible) :
    readLines 4095 (pods.flatMap fun pod => pod.line ++ [10]).length (pods.flatMap fun pod => pod.line ++ [10]) =
      pods.map fun pod => pod.line ++ [10] := by
  have shape : (pods.flatMap fun pod => pod.line ++ [10]) = printed (pods.map Pod.line) := by
    rw [printed, List.flatMap_map]
  have fits : ∀ line ∈ pods.map Pod.line, (10 : UInt8) ∉ line ∧ line.length < 4095 := by
    intro line among
    obtain ⟨pod, among', rfl⟩ := List.mem_map.mp among
    exact ⟨not_mem_line (by decide) fun text held => (pod.plain text held).whole.2.1, (legible pod among').1⟩
  have read : readLines 4095 (printed (pods.map Pod.line)).length (printed (pods.map Pod.line)) =
      (pods.map Pod.line).map (· ++ [10]) :=
    readLines_joined fits (length_le_printed _)
  rw [shape, read, List.map_map]
  rfl

end Line

/-- **The victims** are the cgroups of exactly the pods that are marked, run on this node, and are neither the target
nor of the system, each found by a name of its container or its uid. -/
theorem other_pods_discovered {env : Discovery} {pods : List Pod} (legible : ∀ pod ∈ pods, pod.Legible) :
    discoverOtherPods env (pods.flatMap fun pod => pod.line ++ [10]) =
      pods.filterMap fun pod => if pod.Spared env then none else pod.cgroup env := by
  rw [discoverOtherPods, readLines_pods legible, List.filterMap_map]
  exact List.filterMap_congr fun pod among => discoverLine_line (legible pod among)

/-! ### A node with two pods -/

/-- A pod that is marked, on a node. -/
def markedPod (name cid : String) (plain : ∀ text ∈ [ascii "shop", ascii name, ascii "12-34", ascii "true",
    ascii "node1", ascii ("containerd://" ++ cid)], PlainField text) : Pod :=
  ⟨ascii "shop", ascii name, ascii "12-34", ascii "true", ascii "node1", ascii ("containerd://" ++ cid), plain⟩

/-- The target and another pod. -/
def shopPods : List Pod :=
  [markedPod "front" "aa11" (by decide +kernel), markedPod "cart" "bb22" (by decide +kernel)]

theorem legible_shopPods : ∀ pod ∈ shopPods, pod.Legible := by
  decide +kernel

/-- The node of the shop; the cgroup of the cart has a directory in each of two trees, and a task in the second. -/
def shopNode : Discovery where
  myNode := ascii "node1"
  exclude := ascii "shop/front"
  target := ascii "/cg/cri-containerd-aa11.scope"
  tree :=
    { dirs := [ascii "/cg", ascii "/cg/cri-containerd-aa11.scope", ascii "/cg/cri-containerd-bb22.scope",
        ascii "/cg/perf_event/cri-containerd-bb22.scope"]
      named := by decide
      hasPid := fun dir => dir == ascii "/cg/perf_event/cri-containerd-bb22.scope" }

theorem other_pods_discovered_shop :
    discoverOtherPods shopNode (shopPods.flatMap fun pod => pod.line ++ [10]) =
        shopPods.filterMap (fun pod => if pod.Spared shopNode then none else pod.cgroup shopNode) ∧
      shopPods.filterMap (fun pod => if pod.Spared shopNode then none else pod.cgroup shopNode) =
        [ascii "/cg/perf_event/cri-containerd-bb22.scope"] :=
  ⟨other_pods_discovered legible_shopPods, by decide +kernel⟩

end Mcoz.Daemon
