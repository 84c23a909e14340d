/-
The BPF programs, and which of them consumes for a system call.

`start` attaches up to four programs, and most system calls that may consume a credit are seen by two of them:
`mcoz_on_raw_sys_enter` sees every call, the recv tracepoints see theirs, and `mcoz_on_read` sees a read when it
has returned. They are told apart by the runtime flags alone. Whatever `start` could attach, one program at most
owns a call (`owner`), so the engine receives every system call at most once: `syscalls_received_once`.
-/

import Mcoz.Lib.Machine
import Mcoz.Engine.Step

set_option autoImplicit false

namespace Mcoz.Hooks

open Machine
open Engine (Syscall shouldConsumeRaw)

/-! ### What `start` attaches -/

/-- What comes of the calls of `start`: each `bpf_program__attach`, and whether the object has `mcoz_on_read`. -/
structure Attempts where
  recvfrom : Bool
  recvmsg : Bool
  raw : Bool
  readProgram : Bool
  read : Bool

/-- The links that are kept. The two tracepoints are kept together or not at all. -/
structure Links where
  recv : Bool
  raw : Bool
  read : Bool
deriving DecidableEq

/-- The part of `start` that attaches the programs; it fails if no recv call would be seen. -/
def attach (enableReadHook : Bool) (attempts : Attempts) : Option Links :=
  let recvTracepointsReady := attempts.recvfrom && attempts.recvmsg
  if !attempts.raw && !recvTracepointsReady then none
  else
    some
      { recv := recvTracepointsReady
        raw := attempts.raw
        read := enableReadHook && attempts.readProgram && attempts.read }

/-- `runtime_flags`. -/
structure RuntimeFlags where
  rawConsumeEnabled : UInt8
  readExitHookEnabled : UInt8

/-- What `start` writes to `runtime_flags_map`, before any victim is armed. -/
def runtimeFlags (links : Links) : RuntimeFlags where
  rawConsumeEnabled := if links.raw then 1 else 0
  readExitHookEnabled := if links.read then 1 else 0

/-- `raw_consume_enabled`. -/
def RuntimeFlags.raw (flags : RuntimeFlags) : Bool :=
  flags.rawConsumeEnabled != 0

/-- `read_exit_hook_enabled`. -/
def RuntimeFlags.readExit (flags : RuntimeFlags) : Bool :=
  flags.readExitHookEnabled != 0

@[simp] theorem raw_runtimeFlags (links : Links) : (runtimeFlags links).raw = links.raw := by
  cases raw : links.raw <;> simp [runtimeFlags, RuntimeFlags.raw, raw]

@[simp] theorem readExit_runtimeFlags (links : Links) : (runtimeFlags links).readExit = links.read := by
  cases read : links.read <;> simp [runtimeFlags, RuntimeFlags.readExit, read]

/-! ### The programs -/

/-- The programs of `request_credit.bpf.c`. -/
inductive Program
  | onRecvfrom
  | onRecvmsg
  | onRead
  | onRawSysEnter
deriving DecidableEq

namespace Program

/-- `__NR_read`. -/
def read : UInt32 := 0

/-- `__NR_recvfrom`. -/
def recvfrom : UInt32 := 45

/-- `__NR_recvmsg`. -/
def recvmsg : UInt32 := 47

/-- The program is attached. -/
def attached (links : Links) : Program → Bool
  | onRecvfrom => links.recv
  | onRecvmsg => links.recv
  | onRead => links.read
  | onRawSysEnter => links.raw

/-- The system calls that the program is run for. -/
def sees (syscallId : UInt32) : Program → Bool
  | onRecvfrom => syscallId == recvfrom
  | onRecvmsg => syscallId == recvmsg
  | onRead => syscallId == read
  | onRawSysEnter => true

/-- What a run of the program does to the engine's maps. The other map of `mcoz_on_raw_sys_enter`, the
histogram, is that of `Histogram`. -/
def exec (flags : RuntimeFlags) (engine : Engine) (call : Syscall) (ret : Int64) : Program → Engine
  | onRecvfrom => if flags.raw then engine else engine.consumeIfPolicyAllows call
  | onRecvmsg => if flags.raw then engine else engine.consumeIfPolicyAllows call
  | onRead =>
      if ret ≤ 0 then engine
      else if flags.raw && !flags.readExit then engine
      else engine.consumeIfPolicyAllows { call with syscallId := read }
  | onRawSysEnter =>
      if !flags.raw then engine
      else if call.syscallId == read && flags.readExit then engine
      else if shouldConsumeRaw (engine.consumePolicyMap call.cgroupId) call.syscallId then
        engine.consumeOnce call
      else engine

/-- The program gets as far as the policy. -/
def consumes (flags : RuntimeFlags) (syscallId : UInt32) (ret : Int64) : Program → Bool
  | onRecvfrom => !flags.raw
  | onRecvmsg => !flags.raw
  | onRead => 0 < ret && (!flags.raw || flags.readExit)
  | onRawSysEnter => flags.raw && !(syscallId == read && flags.readExit)

end Program

/-! ### The machine -/

/-- A program runs for a system call, which has a number of its own and, when it is over, a return value; or
another thread takes a step. -/
inductive Action
  | program (hook : Program) (number : ℕ) (call : Syscall) (ret : Int64)
  | other (action : Engine.Action)

/-- The step of a thread that is not in a system call. -/
def otherStep (engine : Engine) : Engine.Action → Option Engine
  | .receive _ => none
  | action => engine.step action

/-- The kernel runs an attached program for a call that it sees. -/
def step (links : Links) (flags : RuntimeFlags) (engine : Engine) : Action → Option Engine
  | .program hook _ call ret =>
      if hook.attached links ∧ hook.sees call.syscallId then some (hook.exec flags engine call ret) else none
  | .other action => otherStep engine action

/-- What the engine makes of the step. -/
def received (flags : RuntimeFlags) : Action → List Engine.Action
  | .program hook _ call ret => if hook.consumes flags call.syscallId ret then [.receive call] else []
  | .other action => [action]

/-- The program that ran, and for which call. -/
def Action.firing : Action → Option (ℕ × Program)
  | .program hook number _ _ => some (number, hook)
  | .other _ => none

/-- The call that a program ran for: its number and what it is. -/
def Action.identity : Action → Option (ℕ × UInt32)
  | .program _ number call _ => some (number, call.syscallId)
  | .other _ => none

/-- The kernel runs a program at most once for a call, and a call stays what it is. -/
structure Kernel (actions : List Action) : Prop where
  once : (actions.filterMap Action.firing).Nodup
  same : ∀ number first second, (number, first) ∈ actions.filterMap Action.identity →
    (number, second) ∈ actions.filterMap Action.identity → first = second

/-- The step belongs to the call with this number. -/
def Action.ofCall (number : ℕ) : Action → Bool
  | .program _ its _ _ => its == number
  | .other _ => false

/-- What the engine receives of a call. -/
def receipts (flags : RuntimeFlags) (number : ℕ) (actions : List Action) : List Engine.Action :=
  (actions.filter (Action.ofCall number)).flatMap (received flags)

/-- The program that consumes for a system call, if one does. -/
def owner (links : Links) (syscallId : UInt32) : Option Program :=
  if links.raw then
    if syscallId = Program.read ∧ links.read then some .onRead else some .onRawSysEnter
  else if syscallId = Program.recvfrom then some .onRecvfrom
  else if syscallId = Program.recvmsg then some .onRecvmsg
  else if syscallId = Program.read ∧ links.read then some .onRead
  else none

/-- The owner of the call has run, after a read that returned data. -/
def Owned (links : Links) (number : ℕ) (actions : List Action) : Prop :=
  ∃ hook call ret, Action.program hook number call ret ∈ actions ∧ owner links call.syscallId = some hook ∧
    (hook = .onRead → 0 < ret)

/-! ### One step -/

section Step

variable {links : Links} {flags : RuntimeFlags} {engine next : Engine} {action : Action}

/-- A program does nothing, or what the policy allows. -/
theorem exec_eq {hook : Program} {call : Syscall} {ret : Int64} (seen : hook.sees call.syscallId) :
    hook.exec flags engine call ret =
      if hook.consumes flags call.syscallId ret then engine.consumeIfPolicyAllows call else engine := by
  cases hook with
  | onRecvfrom => cases raw : flags.raw <;> simp [Program.exec, Program.consumes, raw]
  | onRecvmsg => cases raw : flags.raw <;> simp [Program.exec, Program.consumes, raw]
  | onRead =>
      have same : { call with syscallId := Program.read } = call := by
        rw [← (beq_iff_eq.mp seen : call.syscallId = Program.read)]
      by_cases returned : 0 < ret
      · have positive : ¬ ret ≤ 0 := Int64.not_le.mpr returned
        cases raw : flags.raw <;> cases read : flags.readExit <;>
          simp [Program.exec, Program.consumes, raw, read, returned, positive, same]
      · have nothing : ret ≤ 0 := Int64.not_lt.mp returned
        simp [Program.exec, Program.consumes, returned, nothing]
  | onRawSysEnter =>
      cases raw : flags.raw
      · simp [Program.exec, Program.consumes, raw]
      · by_cases read : (call.syscallId == Program.read && flags.readExit) = true
        · simp only [Program.exec, Program.consumes, raw, read]
          simp
        · simp only [Program.exec, Program.consumes, raw, read]
          simp [Engine.consumeIfPolicyAllows]

/-- A step is what the engine makes of it. -/
theorem run_received (moved : step links flags engine action = some next) :
    run Engine.step engine (received flags action) = some next := by
  cases action with
  | program hook number call ret =>
      obtain ⟨⟨-, seen⟩, same⟩ := Option.ite_none_right_eq_some.mp moved
      rw [exec_eq seen] at same
      obtain rfl := Option.some.inj same
      rw [received]
      by_cases consuming : hook.consumes flags call.syscallId ret = true
      · rw [if_pos consuming, if_pos consuming]
        rfl
      · rw [if_neg consuming, if_neg consuming]
        rfl
  | other action =>
      have there : engine.step action = some next := by
        cases action <;> first | exact moved | cases moved
      rw [received, run_cons_of there, run_nil]

/-- **The flags that `start` writes** let a program through exactly if it owns the call. -/
theorem consumes_iff_owner {hook : Program} {syscallId : UInt32} {ret : Int64}
    (attached : hook.attached links) (seen : hook.sees syscallId) :
    hook.consumes (runtimeFlags links) syscallId ret ↔
      owner links syscallId = some hook ∧ (hook = .onRead → 0 < ret) := by
  cases hook with
  | onRecvfrom =>
      obtain rfl : syscallId = Program.recvfrom := beq_iff_eq.mp seen
      cases raw : links.raw <;> simp [Program.consumes, owner, raw]
      split <;> simp
  | onRecvmsg =>
      obtain rfl : syscallId = Program.recvmsg := beq_iff_eq.mp seen
      cases raw : links.raw <;> simp [Program.consumes, owner, raw]
      · decide
      · split <;> simp
  | onRead =>
      obtain rfl : syscallId = Program.read := beq_iff_eq.mp seen
      have read : links.read = true := attached
      have noRecvfrom : Program.read ≠ Program.recvfrom := by decide
      have noRecvmsg : Program.read ≠ Program.recvmsg := by decide
      cases raw : links.raw <;> simp [Program.consumes, owner, raw, read, noRecvfrom, noRecvmsg]
  | onRawSysEnter =>
      have raw : links.raw = true := attached
      simp only [Program.consumes, owner, raw_runtimeFlags, readExit_runtimeFlags, raw, Bool.true_and, if_true]
      by_cases reading : syscallId = Program.read ∧ links.read = true
      · simp [reading.1, reading.2]
      · have apart := not_and_or.mp reading
        rw [if_neg reading]
        simpa using apart

end Step

/-! ### Whole runs -/

section Run

variable {links : Links} {flags : RuntimeFlags} {engine final : Engine} {actions : List Action}

/-- A program that ran is attached, and sees the call. -/
theorem enabled_of_mem {hook : Program} {number : ℕ} {call : Syscall} {ret : Int64}
    (ran : run (step links flags) engine actions = some final)
    (among : Action.program hook number call ret ∈ actions) :
    hook.attached links ∧ hook.sees call.syscallId := by
  obtain ⟨past, rest, rfl⟩ := List.append_of_mem among
  obtain ⟨state, -, onwards⟩ := run_append_iff.mp ran
  obtain ⟨next, moved, -⟩ := run_cons_iff.mp onwards
  exact (Option.ite_none_right_eq_some.mp moved).1

/-- The engine receives one thing of a call for each program that consumes for it. -/
theorem mem_receipts_iff {number : ℕ} {action : Engine.Action} :
    action ∈ receipts flags number actions ↔
      ∃ hook call ret, Action.program hook number call ret ∈ actions ∧
        hook.consumes flags call.syscallId ret = true ∧ action = .receive call := by
  rw [receipts, List.mem_flatMap]
  constructor
  · rintro ⟨step, among, seen⟩
    obtain ⟨member, its⟩ := List.mem_filter.mp among
    cases step with
    | program hook other call ret =>
        obtain rfl : other = number := beq_iff_eq.mp its
        rw [received] at seen
        by_cases consuming : hook.consumes flags call.syscallId ret = true
        · rw [if_pos consuming] at seen
          exact ⟨hook, call, ret, member, consuming, List.mem_singleton.mp seen⟩
        · rw [if_neg consuming] at seen
          cases seen
    | other action => cases its
  · rintro ⟨hook, call, ret, member, consuming, rfl⟩
    refine ⟨_, List.mem_filter.mpr ⟨member, beq_self_eq_true number⟩, ?_⟩
    rw [received, if_pos consuming]
    exact List.mem_singleton_self _

/-- The step consumes for the call. -/
def Action.consumesFor (flags : RuntimeFlags) (number : ℕ) : Action → Bool
  | .program hook its call ret => its == number && hook.consumes flags call.syscallId ret
  | .other _ => false

theorem length_receipts (number : ℕ) :
    (receipts flags number actions).length = actions.countP (Action.consumesFor flags number) := by
  induction actions with
  | nil => rfl
  | cons action rest ih =>
      rw [List.countP_cons, ← ih]
      cases action with
      | program hook its call ret =>
          by_cases same : its = number
          · by_cases consuming : hook.consumes flags call.syscallId ret = true <;>
              simp [receipts, Action.ofCall, Action.consumesFor, received, same, consuming, Nat.add_comm]
          · simp [receipts, Action.ofCall, Action.consumesFor, same]
      | other action => simp [receipts, Action.ofCall, Action.consumesFor]

/-- One program at most consumes for a call. -/
theorem length_receipts_le (ran : run (step links (runtimeFlags links)) engine actions = some final)
    (kernel : Kernel actions) (number : ℕ) : (receipts (runtimeFlags links) number actions).length ≤ 1 := by
  rw [length_receipts]
  by_cases consumed : ∃ action ∈ actions, action.consumesFor (runtimeFlags links) number
  · obtain ⟨action, among, consuming⟩ := consumed
    cases action with
    | other action => cases consuming
    | program hook its call ret =>
        obtain ⟨rfl, consumes⟩ := (Bool.and_eq_true_iff.mp consuming).imp_left beq_iff_eq.mp
        obtain ⟨attached, seen⟩ := enabled_of_mem ran among
        have owns := ((consumes_iff_owner attached seen).mp consumes).1
        -- any other program that consumes for the call is its owner as well
        have alike : ∀ other ∈ actions, other.consumesFor (runtimeFlags links) its = true →
            (other.firing == Option.some (its, hook)) = true := by
          intro other member also
          cases other with
          | other action => cases also
          | program second number again value =>
              obtain ⟨rfl, consumesToo⟩ := (Bool.and_eq_true_iff.mp also).imp_left beq_iff_eq.mp
              obtain ⟨attached, seen⟩ := enabled_of_mem ran member
              have owns' := ((consumes_iff_owner attached seen).mp consumesToo).1
              have identical : again.syscallId = call.syscallId :=
                kernel.same number _ _ (List.mem_filterMap.mpr ⟨_, member, rfl⟩)
                  (List.mem_filterMap.mpr ⟨_, among, rfl⟩)
              rw [identical, owns] at owns'
              rw [Action.firing, Option.some.inj owns', beq_self_eq_true]
        calc actions.countP (Action.consumesFor (runtimeFlags links) its)
            ≤ actions.countP fun other => other.firing == Option.some (its, hook) :=
              List.countP_mono_left alike
          _ = (actions.filterMap Action.firing).count (its, hook) := (List.count_filterMap).symm
          _ ≤ 1 := List.nodup_iff_count_le_one.mp kernel.once _
  · have never : actions.countP (Action.consumesFor (runtimeFlags links) number) = 0 :=
      List.countP_eq_zero.mpr fun action among consuming => consumed ⟨action, among, consuming⟩
    rw [never]
    exact Nat.zero_le 1

/-- Once `start` has succeeded, the calls of the recv family that the tracepoints know have an owner. -/
theorem owner_recv {enableReadHook : Bool} {attempts : Attempts} {syscallId : UInt32}
    (started : attach enableReadHook attempts = some links)
    (recv : syscallId = Program.recvfrom ∨ syscallId = Program.recvmsg) : (owner links syscallId).isSome := by
  have noRead : syscallId ≠ Program.read := by
    rcases recv with rfl | rfl <;> decide
  obtain ⟨failed, same⟩ := Option.ite_none_left_eq_some.mp started
  obtain rfl := Option.some.inj same
  by_cases raw : attempts.raw = true
  · simp [owner, raw, noRead]
  · have ready : attempts.recvfrom = true ∧ attempts.recvmsg = true := by simpa [raw] using failed
    rcases recv with rfl | rfl
    · simp [owner, raw]
    · have apart : Program.recvmsg ≠ Program.recvfrom := by decide
      simp [owner, raw, apart]

/-- **The engine receives every system call at most once**, whatever programs `start` could attach: the run is one
of the engine, in which a call is received exactly if its owner has run for it, after a read only if that
returned data; and the calls of the recv tracepoints have an owner. -/
theorem syscalls_received_once {enableReadHook : Bool} {attempts : Attempts}
    (started : attach enableReadHook attempts = some links)
    (ran : run (step links (runtimeFlags links)) engine actions = some final) (kernel : Kernel actions) :
    run Engine.step engine (actions.flatMap (received (runtimeFlags links))) = some final ∧
      (∀ number, (receipts (runtimeFlags links) number actions).length ≤ 1 ∧
        (receipts (runtimeFlags links) number actions ≠ [] ↔ Owned links number actions)) ∧
      (owner links Program.recvfrom).isSome ∧ (owner links Program.recvmsg).isSome := by
  refine ⟨?_, ?_, owner_recv started (.inl rfl), owner_recv started (.inr rfl)⟩
  · rw [← trace_flatMap ran]
    exact @simulate _ _ _ _ (step links (runtimeFlags links)) (fun _ => received (runtimeFlags links))
      Engine.step id (fun _ => True) (fun _ _ => True) engine trivial (fun _ _ _ _ _ _ => trivial)
      (fun _ _ _ _ _ moved => run_received moved) actions final (along_of_forall (fun _ _ => trivial) actions) ran
  · intro number
    refine ⟨length_receipts_le ran kernel number, ?_⟩
    constructor
    · intro nonempty
      obtain ⟨action, among⟩ := List.exists_mem_of_ne_nil _ nonempty
      obtain ⟨hook, call, ret, member, consumes, -⟩ := mem_receipts_iff.mp among
      obtain ⟨attached, seen⟩ := enabled_of_mem ran member
      exact ⟨hook, call, ret, member, (consumes_iff_owner attached seen).mp consumes⟩
    · rintro ⟨hook, call, ret, member, owns⟩
      obtain ⟨attached, seen⟩ := enabled_of_mem ran member
      exact List.ne_nil_of_mem
        (mem_receipts_iff.mpr ⟨hook, call, ret, member, (consumes_iff_owner attached seen).mpr owns, rfl⟩)

/-- Both programs see a receive. -/
def seenTwice : List Action :=
  [.program .onRawSysEnter 0 ⟨7, Program.recvfrom, 0, 0, true⟩ 0,
    .program .onRecvfrom 0 ⟨7, Program.recvfrom, 0, 0, true⟩ 0]

theorem syscalls_received_once_twice : ∃ final,
    run Engine.step (Engine.init 10000000) (seenTwice.flatMap (received (runtimeFlags ⟨true, true, true⟩))) =
        some final ∧
      (receipts (runtimeFlags ⟨true, true, true⟩) 0 seenTwice).length ≤ 1 := by
  obtain ⟨final, ran⟩ := Option.isSome_iff_exists.mp (show (run (step ⟨true, true, true⟩
    (runtimeFlags ⟨true, true, true⟩)) (Engine.init 10000000) seenTwice).isSome = true from rfl)
  have started : attach true ⟨true, true, true, true, true⟩ = some ⟨true, true, true⟩ := rfl
  have kernel : Kernel seenTwice := by
    refine ⟨by decide, ?_⟩
    intro number first second one two
    simp [seenTwice, Action.identity] at one two
    rw [one.2, two.2]
  have once := syscalls_received_once started ran kernel
  exact ⟨final, once.1, (once.2.1 0).1⟩

end Run

end Mcoz.Hooks
