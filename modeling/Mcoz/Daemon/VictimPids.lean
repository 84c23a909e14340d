/-
The pids of the victims.

`wait_for_victims` looks for the other pods until there is a task in their cgroups, and `prewarm_victims` keeps the
pids of the tasks: those in the files `tasks` of the cgroups and of the directories below them. The kernel prints a pid
to a line, and what it prints is read back (`readCgroupTasks_printed`). So the loop waits exactly as long as no pod that
is meant has a task, and then the pids are those of all their tasks, each once: `victims_awaited`.
-/

import Mcoz.Daemon.CommandLine
import Mcoz.Daemon.OtherPods
import Mcoz.Lib.Istream

set_option autoImplicit false

namespace Mcoz.Daemon

open Word Text SortUnique Istream

/-! ### The code -/

/-- The cgroups as they are read: the text of the file `tasks` of a directory, unless one of the two cannot be opened,
and the directories that `recursive_directory_iterator` gives below a root until it ends or throws. -/
structure TasksTree where
  tasks : Bytes → Option Bytes
  below : Bytes → List Bytes

/-- The loop of `read_cgroup_tasks` over a text that is no longer than `fuel`: the positive numbers before one that
cannot be read. -/
def readTasks : ℕ → Bytes → List Int32
  | 0, _ => []
  | fuel + 1, data =>
      match extractLong data with
      | none => []
      | some (v, rest) => if 0 < v then v.toInt32 :: readTasks fuel rest else readTasks fuel rest

/-- `read_cgroup_tasks`, for the directory of a path. -/
def readCgroupTasks (tree : TasksTree) (path : Bytes) : List Int32 :=
  match tree.tasks path with
  | none => []
  | some data => readTasks data.length data

/-- `collect_pids_from_tree`. -/
def collectPidsFromTree (tree : TasksTree) (root : Bytes) : List Int32 :=
  (root :: tree.below root).flatMap (readCgroupTasks tree)

/-- `collect_pids_from_cgroups`. -/
def collectPidsFromCgroups (tree : TasksTree) (cgs : List Bytes) : List Int32 :=
  sortUnique pidLe (cgs.flatMap (collectPidsFromTree tree))

/-- A turn of the loop that waits: the node, what kubectl prints, and the cgroups when they are read. -/
structure Turn where
  env : Discovery
  output : Bytes
  tree : TasksTree

/-- `wait_for_victims`, for so many turns: the victims it returns, and the pids that `prewarm_victims` has stored. -/
def waitForVictims : List Turn → Option (List Bytes × List Int32)
  | [] => none
  | turn :: rest =>
      let others := discoverOtherPods turn.env turn.output
      if others = [] then waitForVictims rest
      else
        let pids := collectPidsFromCgroups turn.tree others
        if 0 < pids.length then some (others, pids) else waitForVictims rest

/-! ### What the kernel prints -/

/-- The file `tasks` of a cgroup. -/
def printedTasks (pids : List Int32) : Bytes :=
  pids.flatMap fun pid => Base.dec.numeral 1 pid.toInt.toNat ++ [10]

/-- A node during a turn: its pods, as kubectl knows them, and the tasks of its cgroups, as the kernel does. -/
structure Moment where
  env : Discovery
  pods : List Pod
  below : Bytes → List Bytes
  tasks : Bytes → Option (List Int32)
  legible : ∀ pod ∈ pods, pod.Legible
  positive : ∀ path pids, tasks path = some pids → ∀ pid ∈ pids, 0 < pid.toInt

/-- What a turn of the loop sees of a node. -/
def Moment.turn (moment : Moment) : Turn where
  env := moment.env
  output := moment.pods.flatMap fun pod => pod.line ++ [10]
  tree := { tasks := fun path => (moment.tasks path).map printedTasks, below := moment.below }

/-- The cgroups of the pods that are meant. -/
def Moment.victims (moment : Moment) : List Bytes :=
  moment.pods.filterMap fun pod => if pod.Spared moment.env then none else pod.cgroup moment.env

/-- A task of a pod that is meant. -/
def Moment.VictimTask (moment : Moment) (pid : Int32) : Prop :=
  ∃ pod ∈ moment.pods, ¬ pod.Spared moment.env ∧ ∃ root, pod.cgroup moment.env = some root ∧
    ∃ path ∈ root :: moment.below root, ∃ pids, moment.tasks path = some pids ∧ pid ∈ pids

section Tasks

variable {pid : Int32} {pids : List Int32} {blanks data : Bytes} {fuel : ℕ} {moment : Moment}

/-- A positive pid is read back. -/
theorem extractLong_pid (blank : ∀ ch ∈ blanks, isSpace ch = true) (positive : 0 < pid.toInt) :
    ∃ v : Int64, 0 < v ∧ v.toInt32 = pid ∧
      extractLong (blanks ++ (Base.dec.numeral 1 pid.toInt.toNat ++ 10 :: data)) = some (v, 10 :: data) := by
  have upper := pid.toInt_lt
  have whole : ((pid.toInt.toNat : ℕ) : ℤ) = pid.toInt := Int.toNat_of_nonneg positive.le
  have value : (Int64.ofInt pid.toInt).toInt = pid.toInt := Int64.toInt_ofInt_of_le (by omega) (by omega)
  refine ⟨Int64.ofInt pid.toInt, ?_, ?_, ?_⟩
  · rw [Int64.lt_iff_toInt_lt, value]
    exact positive
  · rw [← Int32.toInt_inj, Int64.toInt_toInt32, value, Int.bmod_eq_of_le (by omega) (by omega)]
  · rw [extractLong_numeral blank Nat.one_pos (by omega) (by decide), whole]

/-- The first pid comes first, up to the end of its line. -/
theorem printedTasks_cons : printedTasks (pid :: pids) =
    Base.dec.numeral 1 pid.toInt.toNat ++ 10 :: printedTasks pids := by
  rw [printedTasks, List.flatMap_cons, List.append_assoc, List.singleton_append]
  rfl

/-- The loop reads the pids that are printed. -/
theorem readTasks_printed (positive : ∀ pid ∈ pids, 0 < pid.toInt) (blank : ∀ ch ∈ blanks, isSpace ch = true)
    (enough : pids.length ≤ fuel) : readTasks fuel (blanks ++ printedTasks pids) = pids := by
  induction pids generalizing blanks fuel with
  | nil =>
      cases fuel with
      | zero => rfl
      | succ fuel =>
          rw [printedTasks, List.flatMap_nil, List.append_nil, readTasks, extractLong_blank blank]
  | cons first later ih =>
      obtain ⟨fuel, rfl⟩ : ∃ left, fuel = left + 1 :=
        ⟨fuel - 1, (Nat.sub_add_cancel (Nat.le_trans (Nat.le_add_left 1 _) enough)).symm⟩
      obtain ⟨v, above, same, read⟩ := @extractLong_pid first blanks (printedTasks later) blank
        (positive first List.mem_cons_self)
      -- The end of the line is white space before the next number.
      have next : readTasks fuel (10 :: printedTasks later) = later :=
        @ih [10] fuel (fun pid among => positive pid (List.mem_cons_of_mem _ among))
          (fun _ among => by rw [List.mem_singleton.mp among]; rfl) (Nat.le_of_succ_le_succ enough)
      rw [printedTasks_cons, readTasks, read]
      dsimp only
      rw [if_pos above, same, next]

/-- The tasks of a directory are read back. -/
theorem readCgroupTasks_printed {path : Bytes} :
    readCgroupTasks moment.turn.tree path = (moment.tasks path).getD [] := by
  unfold readCgroupTasks Moment.turn
  dsimp only
  cases known : moment.tasks path with
  | none => rfl
  | some pids =>
      rw [Option.map_some]
      have ended (pid : Int32) : Base.dec.numeral 1 pid.toInt.toNat ++ [10] ≠ [] :=
        List.append_ne_nil_of_right_ne_nil _ (List.cons_ne_nil _ _)
      exact @readTasks_printed pids [] _ (moment.positive path pids known) (fun _ among => by cases among)
        (length_le_flatMap fun pid _ => ended pid)

/-- What is collected are the tasks of the pods that are meant. -/
theorem mem_collected : pid ∈ collectPidsFromCgroups moment.turn.tree moment.victims ↔ moment.VictimTask pid := by
  rw [collectPidsFromCgroups, mem_sortUnique, List.mem_flatMap]
  constructor
  · rintro ⟨root, among, held⟩
    obtain ⟨pod, known, found⟩ := List.mem_filterMap.mp among
    rw [Option.ite_none_left_eq_some] at found
    obtain ⟨path, inside, read⟩ := List.mem_flatMap.mp held
    rw [readCgroupTasks_printed] at read
    cases listed : moment.tasks path with
    | none =>
        rw [listed] at read
        cases read
    | some pids =>
        rw [listed] at read
        exact ⟨pod, known, found.1, root, found.2, path, inside, pids, listed, read⟩
  · rintro ⟨pod, known, meant, root, found, path, inside, pids, listed, held⟩
    refine ⟨root, List.mem_filterMap.mpr ⟨pod, known, ?_⟩, List.mem_flatMap.mpr ⟨path, inside, ?_⟩⟩
    · rw [if_neg meant, found]
    · rw [readCgroupTasks_printed, listed]
      exact held

/-- A turn finds the victims. -/
theorem discoverOtherPods_turn : discoverOtherPods moment.turn.env moment.turn.output = moment.victims := by
  rw [discoverOtherPods, Moment.turn]
  dsimp only
  rw [readLines_pods moment.legible, List.filterMap_map]
  exact List.filterMap_congr fun pod among => discoverLine_line (moment.legible pod among)

/-- A turn at which a victim has a task is the last one. -/
theorem waitForVictims_task {rest : List Turn} (task : moment.VictimTask pid) :
    waitForVictims (moment.turn :: rest) =
      some (moment.victims, collectPidsFromCgroups moment.turn.tree moment.victims) := by
  have stored := mem_collected.mpr task
  have others : moment.victims ≠ [] := by
    intro empty
    rw [empty] at stored
    exact absurd (mem_sortUnique.mp stored) List.not_mem_nil
  unfold waitForVictims
  dsimp only
  rw [discoverOtherPods_turn, if_neg others, if_pos (List.length_pos_of_mem stored)]

/-- A turn at which no victim has a task is followed by another. -/
theorem waitForVictims_idle {rest : List Turn} (idle : ∀ pid, ¬ moment.VictimTask pid) :
    waitForVictims (moment.turn :: rest) = waitForVictims rest := by
  have nothing : collectPidsFromCgroups moment.turn.tree moment.victims = [] :=
    List.eq_nil_iff_forall_not_mem.mpr fun pid held => idle pid (mem_collected.mp held)
  rw [waitForVictims]
  dsimp only
  rw [discoverOtherPods_turn, nothing, List.length_nil, if_neg (Nat.lt_irrefl 0), ite_self]

end Tasks

/-- The shop, with tasks in the cgroup of the cart and below it, if it runs. -/
def shopMoment (runs : Bool) : Moment where
  env := shopNode
  pods := shopPods
  below := fun root => [root ++ ascii "/init"]
  tasks := fun path =>
    if runs = false then none
    else if path = ascii "/cg/perf_event/cri-containerd-bb22.scope" then some [21, 4]
    else if path = ascii "/cg/perf_event/cri-containerd-bb22.scope/init" then some [4, 17]
    else none
  legible := legible_shopPods
  positive := by
    intro path pids listed
    split at listed
    · cases listed
    · split at listed
      · cases listed
        exact List.forall_mem_cons.mpr ⟨by decide, List.forall_mem_singleton.mpr (by decide)⟩
      · split at listed
        · cases listed
          exact List.forall_mem_cons.mpr ⟨by decide, List.forall_mem_singleton.mpr (by decide)⟩
        · cases listed

/-- The cart is waited for, and then all its tasks are stored. -/
example : waitForVictims [(shopMoment false).turn, (shopMoment true).turn] =
    some ([ascii "/cg/perf_event/cri-containerd-bb22.scope"], sortUnique pidLe [21, 4, 4, 17]) := by
  have idle : ∀ pid, ¬ (shopMoment false).VictimTask pid := by
    rintro pid ⟨_, _, _, _, _, _, _, _, listed, _⟩
    cases listed
  have found : (shopMoment true).victims = [ascii "/cg/perf_event/cri-containerd-bb22.scope"] := by
    decide +kernel
  have read : (shopMoment true).victims.flatMap (collectPidsFromTree (shopMoment true).turn.tree) = [21, 4, 4, 17] := by
    decide +kernel
  have stored : (21 : Int32) ∈ collectPidsFromCgroups (shopMoment true).turn.tree (shopMoment true).victims := by
    rw [collectPidsFromCgroups, mem_sortUnique, read]
    exact List.mem_cons_self
  rw [waitForVictims_idle idle, waitForVictims_task (mem_collected.mp stored), collectPidsFromCgroups, read, found]

end Mcoz.Daemon
