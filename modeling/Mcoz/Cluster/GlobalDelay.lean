/-
The cluster-wide global delay.

Every node adds its local delays to the value of one `GlobalDelay` object. `crd_update_thread` of the
daemon takes what is pending, gets the object and patches the sum; the sidecar's `inc_loop` does so for
every line of its FIFO. The get and the patch are two requests: nothing in a patch says from which
value it was computed. After a patch that fails, the daemon adds the delta to what is pending again,
the sidecar goes on with the next line. The sidecar closes its FIFO when no producer has it open, and
opens it again: what is written in between is gone when the last producer closes it. The shell reads a
number with a leading zero as octal.

The answers of the API server are the environment's: any request may fail. `accurate_along` says when
the object has the sum of what was patched and every node still has the rest.
-/

import Mcoz.Lib.Json
import Mcoz.Lib.Ledger

set_option autoImplicit false

namespace Mcoz.Cluster.GlobalDelay

open Machine Ledger Word Text

/-! ### The object -/

/-- The spec of the object, with the bounds of its schema: `format: int64`, `minimum: 0`. -/
structure DelaySpec where
  value : ℕ
  version : ℕ
  value_lt : value < 2 ^ 63
  version_lt : version < 2 ^ 63

/-- The spec with two numbers in it; the schema refuses numbers out of bounds. -/
def DelaySpec.validate (value version : ℤ) : Option DelaySpec :=
  if allowed : (0 ≤ value ∧ value < 2 ^ 63) ∧ 0 ≤ version ∧ version < 2 ^ 63 then
    some ⟨value.toNat, version.toNat, by omega, by omega⟩
  else none

/-- A merge patch of the value, and of the version if the patch has one. -/
def DelaySpec.mergePatch (spec : DelaySpec) (value : ℤ) (version : Option ℤ) : Option DelaySpec :=
  validate value (version.getD spec.version)

/-- What a patch leaves is what it says. -/
theorem mergePatch_value {spec patched : DelaySpec} {value : ℤ} {version : Option ℤ}
    (accepted : spec.mergePatch value version = some patched) : (patched.value : ℤ) = value := by
  unfold DelaySpec.mergePatch DelaySpec.validate at accepted
  split at accepted
  · rename_i allowed
    cases accepted
    exact Int.toNat_of_nonneg allowed.1.1
  · cases accepted

/-! ### The daemon -/

/-- `operator>>` of a string: the next word and what follows it. -/
def nextWord (text : Bytes) : Bytes × Bytes :=
  let start := text.dropWhile isSpace
  (start.takeWhile fun ch => !isSpace ch, start.dropWhile fun ch => !isSpace ch)

/-- `std::stoull`; `none` is an exception. -/
def stoull (text : Bytes) : Option UInt64 :=
  if (scan text).digits = [] then none else (strtoull text).map Prod.fst

/-- What `kubectl_get_spec` reads from a line: the value and the version, zero if it is unreadable. -/
def readSpec (line : Bytes) : Option (UInt64 × UInt64) :=
  let first := nextWord line
  let second := nextWord first.2
  (stoull first.1).map fun value => (value, (stoull second.1).getD 0)

/-- What `kubectl get` prints for `'{.spec.value} {.spec.version}'`. -/
def DelaySpec.line (spec : DelaySpec) : Bytes :=
  decimal spec.value ++ 32 :: decimal spec.version

theorem nextWord_word {word : Bytes} (plain : ∀ ch ∈ word, isSpace ch = false) (nonempty : word ≠ [])
    (rest : Bytes) : nextWord (word ++ 32 :: rest) = (word, 32 :: rest) := by
  have start : (word ++ 32 :: rest).dropWhile isSpace = word ++ 32 :: rest := by
    refine dropWhile_eq_self fun ch first => plain ch ?_
    rw [List.head?_append_of_ne_nil _ nonempty] at first
    exact List.mem_of_mem_head? first
  have inside : ∀ ch ∈ word, (!isSpace ch) = true := fun ch member => by rw [plain ch member]; rfl
  rw [nextWord, start, List.takeWhile_append_of_pos inside, List.dropWhile_append_of_pos inside]
  simp [isSpace]

theorem nextWord_last {word : Bytes} (plain : ∀ ch ∈ word, isSpace ch = false) :
    nextWord (32 :: word) = (word, []) := by
  have start : (32 :: word).dropWhile isSpace = word := by
    rw [List.dropWhile_cons, if_pos (by rfl)]
    exact dropWhile_eq_self fun ch first => plain ch (List.mem_of_mem_head? first)
  have inside : ∀ ch ∈ word, (!isSpace ch) = true := fun ch member => by rw [plain ch member]; rfl
  rw [nextWord, start, List.takeWhile_eq_self_iff.mpr inside, List.dropWhile_eq_nil_iff.mpr inside]

theorem stoull_decimal {value : ℕ} (fits : value < 2 ^ 64) :
    stoull (decimal value) = some (UInt64.ofNat value) := by
  rw [stoull, scan_decimal, if_neg (decimal_ne_nil value), strtoull_decimal fits, Option.map_some]

/-- An answer is read as it was printed. -/
theorem readSpec_line (spec : DelaySpec) :
    readSpec spec.line = some (UInt64.ofNat spec.value, UInt64.ofNat spec.version) := by
  have digits : ∀ value ch, ch ∈ decimal value → isSpace ch = false :=
    fun value ch member => (digit_plain (isDigit_of_mem_decimal member)).1
  have value := spec.value_lt
  have version := spec.version_lt
  rw [readSpec, DelaySpec.line, nextWord_word (digits _) (decimal_ne_nil _), nextWord_last (digits _),
    stoull_decimal (by omega), stoull_decimal (by omega)]
  rfl

/-- Where `crd_update_thread` is: before the loop, at the head of the loop, about to get the object with
a delta in hand, about to patch it with what it takes for current, or about to give the delta back.
`again` is the second get of `kubectl_get_spec`, by the other name of the resource. -/
inductive UpdatePhase
  | starting (again : Bool)
  | idle
  | reading (delta : UInt64) (again : Bool)
  | patching (delta curVal curVer : UInt64)
  | requeueing (delta : UInt64)
deriving DecidableEq

/-- The daemon: `g_pending_delta` and `crd_update_thread`. -/
structure Hostctl where
  pendingDelta : UInt64
  cachedVal : UInt64
  cachedVer : UInt64
  phase : UpdatePhase
deriving DecidableEq

/-- The steps of a daemon: a local producer adds a delta, the thread takes what is pending, gets the
object, patches it, or gives a delta back. A request is answered or fails. -/
inductive HostctlAction
  | addDelta (delta : UInt64)
  | exchange
  | get (answered : Bool)
  | patch (answered : Bool)
  | requeue
deriving DecidableEq

namespace Hostctl

/-- One `kubectl get`. -/
def get (spec : DelaySpec) (node : Hostctl) (answered : Bool) : Option Hostctl :=
  match node.phase, if answered then readSpec spec.line else none with
  | .starting _, some (value, version) =>
      some { node with cachedVal := value, cachedVer := version, phase := .idle }
  | .starting again, none =>
      some { node with phase := if again then .idle else .starting true }
  | .reading delta _, some (value, version) =>
      some { node with phase := .patching delta value version }
  | .reading delta again, none =>
      some { node with
        phase := if again then .patching delta node.cachedVal node.cachedVer else .reading delta true }
  | _, _ => none

/-- `kubectl_patch_spec` and what follows it. -/
def patch (spec : DelaySpec) (node : Hostctl) (answered : Bool) : Option (DelaySpec × Hostctl) :=
  match node.phase with
  | .patching delta curVal curVer =>
      let nextVal := curVal + delta
      let nextVer := curVer + 1
      if answered then
        (spec.mergePatch nextVal.toNat (some nextVer.toNat)).map fun patched =>
          (patched, { node with cachedVal := nextVal, cachedVer := nextVer, phase := .idle })
      else some (spec, { node with phase := .requeueing delta })
  | _ => none

/-- One step. -/
def step (spec : DelaySpec) (node : Hostctl) : HostctlAction → Option (DelaySpec × Hostctl)
  | .addDelta delta => some (spec, { node with pendingDelta := node.pendingDelta + delta })
  | .exchange =>
      if node.phase = .idle then
        some (spec,
          { node with
            pendingDelta := 0
            phase := if node.pendingDelta = 0 then .idle else .reading node.pendingDelta false })
      else none
  | .get answered => (node.get spec answered).map fun next => (spec, next)
  | .patch answered => node.patch spec answered
  | .requeue =>
      match node.phase with
      | .requeueing delta =>
          some (spec, { node with pendingDelta := node.pendingDelta + delta, phase := .idle })
      | _ => none

/-- What a producer adds in a step. -/
def added : HostctlAction → ℕ
  | .addDelta delta => delta.toNat
  | _ => 0

/-- The delta of a patch that succeeds. -/
def applied (node : Hostctl) : HostctlAction → ℕ
  | .patch answered =>
      match node.phase with
      | .patching delta _ _ => if answered then delta.toNat else 0
      | _ => 0
  | _ => 0

/-- The delta in the thread's hands. -/
def held (node : Hostctl) : ℕ :=
  match node.phase with
  | .reading delta _ | .patching delta _ _ | .requeueing delta => delta.toNat
  | _ => 0

/-- What was added and is not in the object yet. -/
def outstanding (node : Hostctl) : ℕ :=
  node.pendingDelta.toNat + node.held

/-- The sum that a step makes is the sum of the numbers, and what is patched comes on top of what the
object has. -/
def Undisturbed (spec : DelaySpec) (node : Hostctl) : HostctlAction → Prop
  | .addDelta delta => node.pendingDelta.toNat + delta.toNat < 2 ^ 64
  | .exchange => True
  | .get _ => True
  | .patch answered =>
      match node.phase with
      | .patching delta curVal _ =>
          answered → curVal.toNat = spec.value ∧ curVal.toNat + delta.toNat < 2 ^ 64
      | _ => True
  | .requeue =>
      match node.phase with
      | .requeueing delta => node.pendingDelta.toNat + delta.toNat < 2 ^ 64
      | _ => True

theorem get_outstanding {spec : DelaySpec} {node next : Hostctl} {answered : Bool}
    (moved : node.get spec answered = some next) : next.outstanding = node.outstanding := by
  unfold get at moved
  split at moved
  · rename_i again value version phase read
    cases moved
    simp [outstanding, held, phase]
  · rename_i again phase failed
    cases moved
    cases again <;> simp [outstanding, held, phase]
  · rename_i delta again value version phase read
    cases moved
    simp [outstanding, held, phase]
  · rename_i delta again phase failed
    cases moved
    cases again <;> simp [outstanding, held, phase]
  · cases moved

/-- One patch. The new value is the object's value and the delta only if the old one still was the
object's and the sum fits. -/
theorem patch_iff {spec patched : DelaySpec} {node next : Hostctl} {answered : Bool}
    (moved : node.patch spec answered = some (patched, next)) :
    patched.value = spec.value + node.applied (.patch answered) ∧
        node.outstanding = next.outstanding + node.applied (.patch answered) ↔
      node.Undisturbed spec (.patch answered) := by
  unfold patch at moved
  cases phase : node.phase with
  | patching delta curVal curVer =>
      simp only [phase] at moved
      cases answered with
      | false =>
          cases moved
          simp [Undisturbed, applied, outstanding, held, phase]
      | true =>
          rw [if_pos rfl] at moved
          obtain ⟨_, accepted, same⟩ := Option.map_eq_some_iff.mp moved
          cases same
          have value : patched.value = (curVal + delta).toNat := by
            have printed := mergePatch_value accepted
            omega
          simp only [Undisturbed, applied, outstanding, held, phase, if_true, forall_const, value,
            UInt64.toNat_add]
          have known := spec.value_lt
          have current := curVal.toNat_lt
          have small := delta.toNat_lt
          omega
  | _ => simp [phase] at moved

/-- **One step of a daemon.** The value and what is outstanding change by the delta exactly if the step
is undisturbed. -/
theorem step_iff {spec patched : DelaySpec} {node next : Hostctl} {action : HostctlAction}
    (moved : node.step spec action = some (patched, next)) :
    patched.value = spec.value + node.applied action ∧
        node.outstanding + added action = next.outstanding + node.applied action ↔
      node.Undisturbed spec action := by
  cases action with
  | addDelta delta =>
      cases moved
      simp only [Undisturbed, ← toNat_add_iff, applied, added, outstanding, held]
      omega
  | exchange =>
      obtain ⟨idle, after⟩ := Option.ite_none_right_eq_some.mp moved
      cases after
      simp only [Undisturbed, applied, added, outstanding, held, idle]
      by_cases zero : node.pendingDelta = 0
      · simp [zero]
      · simp [zero]
  | get answered =>
      obtain ⟨next, got, same⟩ := Option.map_eq_some_iff.mp moved
      cases same
      simp [Undisturbed, applied, added, get_outstanding got]
  | patch answered => exact patch_iff moved
  | requeue =>
      unfold step at moved
      cases phase : node.phase with
      | requeueing delta =>
          simp only [phase] at moved
          cases moved
          simp only [Undisturbed, ← toNat_add_iff, applied, added, outstanding, held, phase]
          omega
      | _ => simp [phase] at moved

/-- A patch right after an answered get is undisturbed. -/
theorem undisturbed_of_get {spec : DelaySpec} {node next : Hostctl}
    (moved : node.get spec true = some next) (fits : spec.value + node.held < 2 ^ 64) :
    next.Undisturbed spec (.patch true) := by
  unfold get at moved
  rw [if_pos rfl, readSpec_line] at moved
  have known := spec.value_lt
  cases phase : node.phase with
  | starting again =>
      simp only [phase] at moved
      cases moved
      trivial
  | reading delta again =>
      simp only [phase] at moved
      cases moved
      simp only [held, phase] at fits
      have read : (UInt64.ofNat spec.value).toNat = spec.value := by
        rw [UInt64.toNat_ofNat']
        exact Nat.mod_eq_of_lt (by omega)
      exact fun _ => ⟨read, by omega⟩
  | _ => simp [phase] at moved

end Hostctl

/-! ### The sidecar -/

/-- `[[ "$text" =~ ^[0-9]+$ ]]`. -/
def isNumber (text : Bytes) : Bool :=
  text != [] && text.all isDigit

/-- A text that the test accepts. -/
abbrev Numeral := {text : Bytes // isNumber text = true}

/-- The number that a numeral denotes. -/
def Numeral.value (numeral : Numeral) : ℕ :=
  digitsValue numeral.val

/-- The number that digits denote in base 8. -/
def octalValue (digits : Bytes) : ℕ :=
  digits.foldl (fun value ch => value * 8 + (ch.toNat - 48)) 0

/-- The number that `$((...))` reads: with a leading zero it is octal, and an 8 or a 9 in it is an error. -/
def Numeral.arithmetic (numeral : Numeral) : Option ℕ :=
  if numeral.val.head? = some 48 then
    if numeral.val.all (· < 56) then some (octalValue numeral.val) else none
  else some numeral.value

/-- A numeral in `$((...))`, in 64 bits. -/
def Numeral.word (numeral : Numeral) : Int64 :=
  Int64.ofInt (numeral.arithmetic.getD 0)

/-- The numeral `0`. -/
def zero : Numeral :=
  ⟨ascii "0", rfl⟩

/-- `cur`, from the output of `get_value`. -/
def currentValue (output : Bytes) : Numeral :=
  let cur := if output = [] then ascii "0" else output
  if number : isNumber cur then ⟨cur, number⟩ else zero

/-- What `read -r` makes of a line: without null bytes, and without blanks around it. -/
def readDelta (line : Bytes) : Bytes :=
  trim (fun ch => ch == 32 || ch == 9) (line.filter (· != 0))

/-- The delta that a line is; other lines are none. -/
def lineDelta (line : Bytes) : ℕ :=
  if isNumber (readDelta line) then digitsValue (readDelta line) else 0

/-- Where `inc_loop` is: at its end, by an error; the FIFO is closed; at the head of the inner loop; about to get
the value with a delta in hand; about to patch; or after the inner loop, which has read the end of the file. -/
inductive IncPhase
  | dead
  | closed
  | waiting
  | reading (delta : Numeral)
  | patching (delta : Numeral) (cur : Int64)
  | ended
deriving DecidableEq

/-- The loop has the FIFO open. -/
def IncPhase.reads : IncPhase → Bool
  | dead => false
  | closed => false
  | _ => true

/-- The sidecar: the lines in its FIFO, the number of producers that have it open, and `inc_loop`. -/
structure Sidecar where
  fifo : List Bytes
  writers : ℕ
  phase : IncPhase
deriving DecidableEq

/-- The steps of a sidecar: a local producer opens the FIFO, writes a line or closes the FIFO; the loop opens the
FIFO again for a producer that still has it open, reads a line or the end of the file, gets the value, patches it, or
closes the FIFO. -/
inductive SidecarAction
  | openWriter
  | write (line : Bytes)
  | closeWriter
  | reopen
  | readLine
  | readEnd
  | get (answered : Bool)
  | patch (answered : Bool)
  | closeReader
deriving DecidableEq

namespace Sidecar

/-- The FIFO keeps its lines as long as someone has it open. -/
def kept (node : Sidecar) : Sidecar :=
  if node.writers = 0 ∧ node.phase.reads = false then { node with fifo := [] } else node

/-- One step. A producer that opens the FIFO waits for the loop to open it, and a line is written while the loop has
it open. `jq` gives the number that it prints for the sum. -/
def step (jq : ℤ → ℤ) (spec : DelaySpec) (node : Sidecar) : SidecarAction → Option (DelaySpec × Sidecar)
  | .openWriter =>
      if node.phase = .dead then none
      else
        some (spec, { node with
          writers := node.writers + 1
          phase := if node.phase = .closed then .waiting else node.phase })
  | .write line =>
      if 0 < node.writers ∧ node.phase.reads then some (spec, { node with fifo := node.fifo ++ [line] })
      else none
  | .closeWriter =>
      if 0 < node.writers then some (spec, kept { node with writers := node.writers - 1 }) else none
  | .reopen =>
      if node.phase = .closed ∧ 0 < node.writers then some (spec, { node with phase := .waiting }) else none
  | .readLine =>
      match node.phase, node.fifo with
      | .waiting, line :: rest =>
          some (spec, { node with
            fifo := rest
            phase := if number : isNumber (readDelta line) then .reading ⟨readDelta line, number⟩ else .waiting })
      | _, _ => none
  | .readEnd =>
      if node.phase = .waiting ∧ node.fifo = [] ∧ node.writers = 0 then
        some (spec, { node with phase := .ended })
      else none
  | .closeReader =>
      if node.phase = .ended then some (spec, kept { node with phase := .closed }) else none
  | .get answered =>
      match node.phase with
      | .reading delta =>
          let cur := currentValue (if answered then decimal spec.value else [])
          -- An error in the arithmetic ends the subshell of the loop.
          if delta.arithmetic = none then some (spec, kept { node with phase := .dead })
          else some (spec, { node with phase := .patching delta cur.word })
      | _ => none
  | .patch answered =>
      match node.phase with
      | .patching delta cur =>
          -- `patch_value "$next" || true`: the loop goes on either way, and the delta is not kept.
          if answered then
            (spec.mergePatch (jq (cur + delta.word).toInt) none).map fun patched =>
              (patched, { node with phase := .waiting })
          else some (spec, { node with phase := .waiting })
      | _ => none

/-- What a producer adds in a step. -/
def added : SidecarAction → ℕ
  | .write line => lineDelta line
  | _ => 0

/-- The delta of a patch that succeeds. -/
def applied (node : Sidecar) : SidecarAction → ℕ
  | .patch answered =>
      match node.phase with
      | .patching delta _ => if answered then delta.value else 0
      | _ => 0
  | _ => 0

/-- The delta in the loop's hands. -/
def held (node : Sidecar) : ℕ :=
  match node.phase with
  | .reading delta | .patching delta _ => delta.value
  | _ => 0

/-- The deltas in the FIFO. -/
def queued (node : Sidecar) : ℕ :=
  (node.fifo.map lineDelta).sum

/-- What was added and is not in the object yet. -/
def outstanding (node : Sidecar) : ℕ :=
  node.queued + node.held

/-- The sum that is patched is made of the number that is meant, and jq prints it as it is. -/
def Exact (jq : ℤ → ℤ) (node : Sidecar) : SidecarAction → Prop
  | .patch true =>
      match node.phase with
      | .patching delta cur => delta.arithmetic = some delta.value ∧
          jq (cur + delta.word).toInt = (cur + delta.word).toInt
      | _ => True
  | _ => True

/-- What is patched comes on top of what the object has, in range, and only a zero delta fails; the shell reads the
delta without an error; and who is the last to close the FIFO leaves no deltas in it. -/
def Undisturbed (jq : ℤ → ℤ) (spec : DelaySpec) (node : Sidecar) (action : SidecarAction) : Prop :=
  node.Exact jq action ∧
    match action with
    | .closeWriter => node.writers = 1 → node.phase.reads = false → node.queued = 0
    | .closeReader => node.writers = 0 → node.queued = 0
    | .get _ =>
        match node.phase with
        | .reading delta => delta.arithmetic ≠ none
        | _ => True
    | .patch answered =>
        match node.phase with
        | .patching delta cur =>
            if answered then cur.toInt = spec.value ∧ cur.toInt + delta.value < 2 ^ 63
            else delta.value = 0
        | _ => True
    | _ => True

theorem Numeral.arithmetic_decimal {numeral : Numeral} {value : ℕ} (same : numeral.val = decimal value) :
    numeral.arithmetic = some value := by
  unfold Numeral.arithmetic Numeral.value
  rw [same, digitsValue_decimal]
  rcases Json.decimal_head value with digit | other
  · have zero : digitsValue [48] = value := digit ▸ digitsValue_decimal value
    rw [digit, ← zero]
    rfl
  · rw [if_neg other]

/-- Digits that denote zero are zeros. -/
theorem zeros_of_digitsValue {digits : Bytes} (zero : digitsValue digits = 0) : ∀ ch ∈ digits, ch.toNat ≤ 48 := by
  have all (start : ℕ) (digits : Bytes)
      (zero : digits.foldl (fun value ch => value * 10 + (ch.toNat - 48)) start = 0) :
      start = 0 ∧ ∀ ch ∈ digits, ch.toNat ≤ 48 := by
    induction digits generalizing start with
    | nil => exact ⟨zero, fun _ member => absurd member List.not_mem_nil⟩
    | cons ch rest ih =>
        obtain ⟨first, others⟩ := ih _ zero
        have sum : start * 10 + (ch.toNat - 48) = 0 := first
        refine ⟨by omega, fun other member => ?_⟩
        rcases List.mem_cons.mp member with rfl | later
        · omega
        · exact others other later
  exact (all 0 digits zero).2

/-- A number in which the shell finds an error is not zero. -/
theorem Numeral.positive_of_error {numeral : Numeral} (error : numeral.arithmetic = none) : 0 < numeral.value := by
  refine Nat.pos_of_ne_zero fun zero => ?_
  unfold Numeral.arithmetic at error
  split at error
  · have octal : numeral.val.all (· < 56) = true := by
      refine List.all_eq_true.mpr fun ch member => decide_eq_true (UInt8.lt_iff_toNat_lt.mpr ?_)
      exact (zeros_of_digitsValue zero ch member).trans_lt (by decide)
    rw [if_pos octal] at error
    cases error
  · cases error

theorem isNumber_decimal (value : ℕ) : isNumber (decimal value) = true := by
  simp only [isNumber, Bool.and_eq_true, bne_iff_ne, List.all_eq_true]
  exact ⟨decimal_ne_nil value, fun _ => isDigit_of_mem_decimal⟩

theorem outstanding_kept {node : Sidecar} : node.kept.outstanding = node.outstanding ↔
    (node.writers = 0 → node.phase.reads = false → node.queued = 0) := by
  unfold kept
  split
  · rename_i last
    simp only [outstanding, queued, held, List.map_nil, List.sum_nil, last.1, last.2, forall_const]
    omega
  · rename_i open_
    exact iff_of_true rfl fun unused closed => absurd ⟨unused, closed⟩ open_

theorem phase_kept {node : Sidecar} : node.kept.phase = node.phase := by
  unfold kept
  split <;> rfl

theorem queued_kept_le (node : Sidecar) : node.kept.queued ≤ node.queued := by
  unfold kept
  split
  · exact Nat.zero_le _
  · exact le_rfl

/-- An answer is read as it was printed. -/
theorem word_currentValue (value : ℕ) : (currentValue (decimal value)).word = Int64.ofInt value := by
  have same : (currentValue (decimal value)).val = decimal value := by
    unfold currentValue
    rw [if_neg (decimal_ne_nil value), dif_pos (isNumber_decimal value)]
  rw [Numeral.word, Numeral.arithmetic_decimal same]
  rfl

/-- `$((cur + delta))` is the sum in 64 bits. -/
theorem toInt_add_word (cur : Int64) {delta : Numeral} (decimal : delta.arithmetic = some delta.value) :
    (cur + delta.word).toInt = (cur.toInt + delta.value).bmod (2 ^ 64) := by
  rw [Int64.toInt_add, Numeral.word, decimal, Option.getD_some, Int64.toInt_ofInt]
  exact Int.add_bmod_bmod

/-- One patch. -/
theorem patch_iff {jq : ℤ → ℤ} {spec patched : DelaySpec} {node next : Sidecar} {answered : Bool}
    (moved : node.step jq spec (.patch answered) = some (patched, next)) (faithful : node.Exact jq (.patch answered)) :
    patched.value = spec.value + node.applied (.patch answered) ∧
        node.outstanding = next.outstanding + node.applied (.patch answered) ↔
      node.Undisturbed jq spec (.patch answered) := by
  rw [Undisturbed, and_iff_right faithful]
  unfold step at moved
  cases phase : node.phase with
  | patching delta cur =>
      simp only [phase] at moved
      cases answered with
      | false =>
          cases moved
          simp [applied, outstanding, queued, held, phase]
      | true =>
          rw [if_pos rfl] at moved
          obtain ⟨_, accepted, same⟩ := Option.map_eq_some_iff.mp moved
          cases same
          simp only [Exact, phase] at faithful
          have value := mergePatch_value accepted
          rw [faithful.2, toInt_add_word cur faithful.1, Int.bmod_def] at value
          simp only [applied, outstanding, queued, held, phase, if_true]
          have known := spec.value_lt
          have left := patched.value_lt
          have lower := cur.le_toInt
          have upper := cur.toInt_lt
          split at value <;> omega
  | _ => simp [phase] at moved

/-- **One step of a sidecar.** Where the arithmetic is exact, the value and what is outstanding change by the delta
exactly if the step is undisturbed. -/
theorem step_iff {jq : ℤ → ℤ} {spec patched : DelaySpec} {node next : Sidecar} {action : SidecarAction}
    (moved : node.step jq spec action = some (patched, next)) (faithful : node.Exact jq action) :
    patched.value = spec.value + node.applied action ∧
        node.outstanding + added action = next.outstanding + node.applied action ↔
      node.Undisturbed jq spec action := by
  cases action with
  | openWriter =>
      obtain ⟨alive, after⟩ := Option.ite_none_left_eq_some.mp moved
      cases after
      by_cases closed : node.phase = .closed <;>
        simp [Undisturbed, Exact, applied, added, outstanding, queued, held, closed]
  | write line =>
      obtain ⟨-, after⟩ := Option.ite_none_right_eq_some.mp moved
      cases after
      simp [Undisturbed, Exact, applied, added, outstanding, queued, held, Nat.add_right_comm]
  | closeWriter =>
      obtain ⟨open_, after⟩ := Option.ite_none_right_eq_some.mp moved
      cases after
      have lost := @outstanding_kept { node with writers := node.writers - 1 }
      have last : node.writers - 1 = 0 ↔ node.writers = 1 := by omega
      rw [Undisturbed, and_iff_right faithful]
      simp only [applied, added, Nat.add_zero, true_and]
      rw [eq_comm, ← last]
      exact lost
  | reopen =>
      obtain ⟨⟨closed, -⟩, after⟩ := Option.ite_none_right_eq_some.mp moved
      cases after
      simp [Undisturbed, Exact, applied, added, outstanding, queued, held, closed]
  | readLine =>
      unfold step at moved
      cases phase : node.phase with
      | waiting =>
          cases lines : node.fifo with
          | nil => simp [phase, lines] at moved
          | cons line rest =>
              simp only [phase, lines] at moved
              cases moved
              by_cases number : isNumber (readDelta line) = true
              · simp [Undisturbed, Exact, applied, added, outstanding, queued, held, phase, lines, lineDelta, number,
                  Numeral.value, Nat.add_comm]
              · simp [Undisturbed, Exact, applied, added, outstanding, queued, held, phase, lines, lineDelta, number]
      | _ => simp [phase] at moved
  | readEnd =>
      obtain ⟨⟨waiting, -⟩, after⟩ := Option.ite_none_right_eq_some.mp moved
      cases after
      simp [Undisturbed, Exact, applied, added, outstanding, queued, held, waiting]
  | closeReader =>
      obtain ⟨ended, after⟩ := Option.ite_none_right_eq_some.mp moved
      cases after
      have lost := @outstanding_kept { node with phase := .closed }
      have same : ({ node with phase := .closed } : Sidecar).outstanding = node.outstanding := by
        simp [outstanding, queued, held, ended]
      rw [same] at lost
      rw [Undisturbed, and_iff_right faithful]
      simp only [applied, added, Nat.add_zero, true_and]
      rw [eq_comm, lost]
      exact ⟨fun empty alone => empty alone rfl, fun empty alone _ => empty alone⟩
  | get answered =>
      unfold step at moved
      rw [Undisturbed, and_iff_right faithful]
      cases phase : node.phase with
      | reading delta =>
          simp only [phase] at moved
          by_cases error : delta.arithmetic = none
          · rw [if_pos error] at moved
            cases moved
            have positive := Numeral.positive_of_error error
            have fewer := queued_kept_le { node with phase := .dead }
            have idle : (kept { node with phase := .dead }).held = 0 := by rw [held, phase_kept]
            refine iff_of_false (fun both => ?_) (absurd error)
            have balance := both.2
            simp only [outstanding, idle, applied, added, Nat.add_zero] at balance
            simp only [held, phase] at balance
            have same : queued { node with phase := .dead } = node.queued := rfl
            omega
          · rw [if_neg error] at moved
            cases moved
            simp [applied, added, outstanding, queued, held, phase, error]
      | _ => simp [phase] at moved
  | patch answered => exact patch_iff moved faithful

/-- A patch right after an answered get is undisturbed, for a number that the shell reads as it is meant and a sum
that jq prints as it is. -/
theorem undisturbed_of_get {jq : ℤ → ℤ} {spec patched : DelaySpec} {node next : Sidecar}
    (moved : node.step jq spec (.get true) = some (patched, next)) (faithful : next.Exact jq (.patch true))
    (fits : spec.value + node.held < 2 ^ 63) : next.Undisturbed jq spec (.patch true) := by
  refine ⟨faithful, ?_⟩
  unfold step at moved
  cases phase : node.phase with
  | reading delta =>
      simp only [phase, if_true] at moved
      by_cases error : delta.arithmetic = none
      · rw [if_pos error] at moved
        cases moved
        simp only [phase_kept]
      · rw [if_neg error] at moved
        cases moved
        simp only [held, phase] at fits
        have read : (currentValue (decimal spec.value)).word.toInt = spec.value := by
          rw [word_currentValue]
          exact Int64.toInt_ofInt_of_le (by omega) (by omega)
        simp only [if_true]
        exact ⟨read, by omega⟩
  | _ => simp [phase] at moved

end Sidecar

/-! ### The cluster -/

/-- An updater: the daemon's thread or the sidecar's loop. -/
inductive Updater
  | hostctl (node : Hostctl)
  | sidecar (node : Sidecar)
deriving DecidableEq

/-- A step of an updater. -/
inductive UpdaterAction
  | hostctl (action : HostctlAction)
  | sidecar (action : SidecarAction)
deriving DecidableEq

namespace Updater

/-- One step of an updater. -/
def step (jq : ℤ → ℤ) (spec : DelaySpec) : Updater → UpdaterAction → Option (DelaySpec × Updater)
  | hostctl node, .hostctl action => (node.step spec action).map (Prod.map id hostctl)
  | sidecar node, .sidecar action => (node.step jq spec action).map (Prod.map id sidecar)
  | _, _ => none

/-- What a producer adds in a step. -/
def added : UpdaterAction → ℕ
  | .hostctl action => Hostctl.added action
  | .sidecar action => Sidecar.added action

/-- The delta of a patch that succeeds. -/
def applied : Updater → UpdaterAction → ℕ
  | hostctl node, .hostctl action => node.applied action
  | sidecar node, .sidecar action => node.applied action
  | _, _ => 0

/-- What was added and is not in the object yet. -/
def outstanding : Updater → ℕ
  | hostctl node => node.outstanding
  | sidecar node => node.outstanding

/-- The sum that is patched is made of the number that is meant. The daemon's always is. -/
def Exact (jq : ℤ → ℤ) : Updater → UpdaterAction → Prop
  | sidecar node, .sidecar action => node.Exact jq action
  | _, _ => True

/-- The condition of either kind. -/
def Undisturbed (jq : ℤ → ℤ) (spec : DelaySpec) : Updater → UpdaterAction → Prop
  | hostctl node, .hostctl action => node.Undisturbed spec action
  | sidecar node, .sidecar action => node.Undisturbed jq spec action
  | _, _ => True

theorem Undisturbed.exact {jq : ℤ → ℤ} {spec : DelaySpec} {node : Updater} {action : UpdaterAction}
    (undisturbed : node.Undisturbed jq spec action) : node.Exact jq action := by
  cases node with
  | hostctl node => trivial
  | sidecar node =>
      cases action with
      | hostctl action => trivial
      | sidecar action => exact undisturbed.1

theorem step_iff {jq : ℤ → ℤ} {spec patched : DelaySpec} {node next : Updater} {action : UpdaterAction}
    (moved : node.step jq spec action = some (patched, next)) (faithful : node.Exact jq action) :
    patched.value = spec.value + node.applied action ∧
        node.outstanding + added action = next.outstanding + node.applied action ↔
      node.Undisturbed jq spec action := by
  cases node with
  | hostctl node =>
      cases action with
      | hostctl action =>
          obtain ⟨after, stepped, same⟩ := Option.map_eq_some_iff.mp moved
          cases same
          exact Hostctl.step_iff stepped
      | sidecar action => cases moved
  | sidecar node =>
      cases action with
      | hostctl action => cases moved
      | sidecar action =>
          obtain ⟨after, stepped, same⟩ := Option.map_eq_some_iff.mp moved
          cases same
          exact Sidecar.step_iff stepped faithful

end Updater

/-- The object and the updaters. -/
structure State (ν : Type) where
  spec : DelaySpec
  updaters : ν → Updater

/-- A step of the updater at a place. -/
structure Action (ν : Type) where
  place : ν
  act : UpdaterAction

variable {ν : Type}

/-- What a step adds at its place, and what it brings from there to the object. -/
def entries (state : State ν) (action : Action ν) : List (Entry ν) :=
  [.deposit action.place (Updater.added action.act),
    .withdraw action.place ((state.updaters action.place).applied action.act)]

/-- A sum that a sidecar patches is made of the number that is meant, and jq prints it as it is. -/
def Exact (jq : ℤ → ℤ) (state : State ν) (action : Action ν) : Prop :=
  (state.updaters action.place).Exact jq action.act

/-- The condition on a step: a sum that is stored fits, a patch that succeeds adds its delta to the value
that the object has at that moment, a sidecar's patch fails only for a zero delta, its sums are exact and made
without an error, and who is the last to close a FIFO leaves no deltas in it. -/
def Undisturbed (jq : ℤ → ℤ) (state : State ν) (action : Action ν) : Prop :=
  (state.updaters action.place).Undisturbed jq state.spec action.act

@[simp] theorem totalWithdrawn_entries (state : State ν) (action : Action ν) :
    totalWithdrawn (entries state action) =
      (state.updaters action.place).applied action.act := by
  simp [totalWithdrawn, entries, Entry.withdrawAmount]

section Cluster

variable [DecidableEq ν] (jq : ℤ → ℤ)

/-- One step. -/
def step (state : State ν) (action : Action ν) : Option (State ν) :=
  ((state.updaters action.place).step jq state.spec action.act).map fun after =>
    ⟨after.1, Function.update state.updaters action.place after.2⟩

/-- The deltas of a run: deposited by the producers, withdrawn by the patches that succeeded. -/
def deltas (start : State ν) (actions : List (Action ν)) : List (Entry ν) :=
  trace (step jq) entries start actions

/-- No update is lost: the object has what it had and every delta whose patch succeeded, and every other
delta is still where it was added. -/
structure Accurate (start : State ν) (past : List (Action ν)) (state : State ν) : Prop where
  value : state.spec.value = start.spec.value + totalWithdrawn (deltas jq start past)
  pending : ∀ place,
    (start.updaters place).outstanding + deposited place (deltas jq start past) =
      (state.updaters place).outstanding + withdrawn place (deltas jq start past)

theorem accurate_nil (start : State ν) : Accurate jq start [] start where
  value := rfl
  pending := fun _ => rfl

@[simp] theorem deposited_entries (state : State ν) (action : Action ν) (place : ν) :
    deposited place (entries state action) =
      if action.place = place then Updater.added action.act else 0 := by
  simp [entries, Entry.depositFor]

@[simp] theorem withdrawn_entries (state : State ν) (action : Action ν) (place : ν) :
    withdrawn place (entries state action) =
      if action.place = place then (state.updaters action.place).applied action.act else 0 := by
  simp [entries, Entry.withdrawFor]

variable {jq}

/-- One more step. -/
theorem Accurate.step_iff {start state next : State ν} {past : List (Action ν)} {action : Action ν}
    (accurate : Accurate jq start past state) (before : run (step jq) start past = some state)
    (moved : step jq state action = some next) (faithful : Exact jq state action) :
    Accurate jq start (past ++ [action]) next ↔ Undisturbed jq state action := by
  obtain ⟨⟨patched, after⟩, stepped, rfl⟩ := Option.map_eq_some_iff.mp moved
  have log : deltas jq start (past ++ [action]) = deltas jq start past ++ entries state action :=
    trace_concat before action
  have value := accurate.value
  have pending := accurate.pending
  rw [Undisturbed, ← Updater.step_iff stepped faithful]
  constructor
  · intro later
    have valueLater := later.value
    have pendingLater := later.pending action.place
    simp only [log, totalWithdrawn_append, totalWithdrawn_entries] at valueLater
    simp only [log, deposited_append, withdrawn_append, deposited_entries, withdrawn_entries, if_true,
      Function.update_self] at pendingLater
    have pendingHere := pending action.place
    constructor <;> omega
  · rintro ⟨valueMoved, own⟩
    refine ⟨?_, fun place => ?_⟩
    · show patched.value = _
      rw [log, totalWithdrawn_append, totalWithdrawn_entries]
      omega
    · rw [log, deposited_append, withdrawn_append, deposited_entries, withdrawn_entries]
      have pendingHere := pending place
      by_cases same : action.place = place
      · subst same
        simp only [if_true, Function.update_self]
        omega
      · simp only [if_neg same, Function.update_of_ne (Ne.symm same)]
        omega

/-- **Updates of the global delay.** No update is lost all along a run whose steps are all undisturbed; and where
none is lost, every step with exact sums is undisturbed. -/
theorem accurate_along {start final : State ν} {actions : List (Action ν)}
    (ran : run (step jq) start actions = some final) :
    (Along (step jq) (Undisturbed jq) start actions → Throughout (step jq) (Accurate jq start) start actions) ∧
      (Throughout (step jq) (Accurate jq start) start actions →
        Along (step jq) (fun state action => Exact jq state action → Undisturbed jq state action) start actions) := by
  constructor
  · refine throughout_of_guarded (accurate_nil jq start) fun past state action next before accurate undisturbed moved => ?_
    exact (accurate.step_iff before moved undisturbed.exact).mpr undisturbed
  · refine guarded_of_throughout (fun past state action next before accurate moved later faithful => ?_) ran
    exact (accurate.step_iff before moved faithful).mp later

end Cluster

/-- A daemon, a sidecar and a new object. -/
def pair : State Bool where
  spec := ⟨0, 0, by decide, by decide⟩
  updaters := fun daemon =>
    if daemon then .hostctl ⟨0, 0, 0, .starting false⟩ else .sidecar ⟨[], 0, .closed⟩

/-- The daemon brings a delta of 5 up to its patch. -/
def daemonReads : List (Action Bool) :=
  [.get true, .addDelta 5, .exchange, .get true].map fun action => ⟨true, .hostctl action⟩

/-- The sidecar brings a delta up to its patch. -/
def sidecarReads (line : Bytes) : List (Action Bool) :=
  [.openWriter, .write line, .readLine, .get true].map fun action => ⟨false, .sidecar action⟩

/-- Both have read the value before either patches it. -/
def racing : List (Action Bool) :=
  daemonReads ++ sidecarReads (ascii "7") ++ [⟨true, .hostctl (.patch true)⟩, ⟨false, .sidecar (.patch true)⟩]

/-- The sidecar's patch fails. -/
def failing : List (Action Bool) :=
  sidecarReads (ascii "7") ++ [⟨false, .sidecar (.patch false)⟩]

/-- A producer opens the FIFO, writes a delta and closes the FIFO after the loop has read the end of the file and
before it closes the FIFO. -/
def closing : List (Action Bool) :=
  [.openWriter, .closeWriter, .readEnd, .openWriter, .write (ascii "7"), .closeWriter, .closeReader].map
    fun action => ⟨false, .sidecar action⟩

/-- A delta with a leading zero is patched. -/
def octal : List (Action Bool) :=
  sidecarReads (ascii "010") ++ [⟨false, .sidecar (.patch true)⟩]

/-- A run after which the object does not have what was patched. -/
theorem not_accurate_of_value {actions : List (Action Bool)} {reached summed : ℕ}
    (value : (run (step id) pair actions).map (fun state => state.spec.value) = some reached)
    (sum : pair.spec.value + totalWithdrawn (deltas id pair actions) = summed) (other : reached ≠ summed) :
    ∃ final, run (step id) pair actions = some final ∧ ¬ Accurate id pair actions final := by
  obtain ⟨final, ran, same⟩ := Option.map_eq_some_iff.mp value
  refine ⟨final, ran, fun accurate => other ?_⟩
  rw [← same, ← sum]
  exact accurate.value

/-- A run after which a delta of 7 is neither in the object nor at the sidecar. -/
theorem not_accurate_of_lost {actions : List (Action Bool)}
    (lost : (run (step id) pair actions).map (fun state => (state.updaters false).outstanding) = some 0)
    (added : (pair.updaters false).outstanding + deposited false (deltas id pair actions) = 7)
    (applied : withdrawn false (deltas id pair actions) = 0) :
    ∃ final, run (step id) pair actions = some final ∧ ¬ Accurate id pair actions final := by
  obtain ⟨final, ran, nothing⟩ := Option.map_eq_some_iff.mp lost
  refine ⟨final, ran, fun accurate => ?_⟩
  have same := accurate.pending false
  omega

/-- Two patches that succeed leave the second delta only; a delta of the sidecar whose patch fails is nowhere, nor is
one that is in the FIFO when its last user closes it; and of a delta of 010 the object gets 8. -/
theorem lost_updates :
    (∃ final, run (step id) pair racing = some final ∧ ¬ Accurate id pair racing final) ∧
      (∃ final, run (step id) pair failing = some final ∧ ¬ Accurate id pair failing final) ∧
        (∃ final, run (step id) pair closing = some final ∧ ¬ Accurate id pair closing final) ∧
          ∃ final, run (step id) pair octal = some final ∧ ¬ Accurate id pair octal final := by
  refine ⟨@not_accurate_of_value _ 7 12 (by decide +kernel) (by decide +kernel) (by decide), ?_, ?_,
    @not_accurate_of_value _ 8 10 (by decide +kernel) (by decide +kernel) (by decide)⟩
  · exact not_accurate_of_lost (by decide +kernel) (by decide +kernel) (by decide +kernel)
  · exact not_accurate_of_lost (by decide +kernel) (by decide +kernel) (by decide +kernel)

/-- The daemon and the sidecar one after the other. -/
def inTurn : List (Action Bool) :=
  daemonReads ++ [⟨true, .hostctl (.patch true)⟩] ++ sidecarReads (ascii "7") ++ [⟨false, .sidecar (.patch true)⟩]

theorem accurate_along_sample : ∃ final, run (step id) pair inTurn = some final ∧ final.spec.value = 12 ∧
    Throughout (step id) (Accurate id pair) pair inTurn := by
  have undisturbed : Along (step id) (Undisturbed id) pair inTurn := by
    refine along_cons trivial rfl (along_cons (by decide : 0 + 5 < 2 ^ 64) rfl (along_cons trivial rfl ?_))
    refine along_cons trivial rfl (along_cons (fun _ => ⟨rfl, by decide⟩) rfl ?_)
    refine along_cons ⟨trivial, trivial⟩ rfl (along_cons ⟨trivial, trivial⟩ rfl ?_)
    refine along_cons ⟨trivial, trivial⟩ rfl (along_cons ⟨trivial, ?_⟩ rfl ?_)
    · exact fun error => by cases error
    · exact along_cons ⟨⟨rfl, rfl⟩, rfl, by decide⟩ rfl along_nil
  have value : (run (step id) pair inTurn).map (fun state => state.spec.value) = some 12 := by decide +kernel
  obtain ⟨final, ran, twelve⟩ := Option.map_eq_some_iff.mp value
  exact ⟨final, ran, twelve, (accurate_along ran).1 undisturbed⟩

end Mcoz.Cluster.GlobalDelay
