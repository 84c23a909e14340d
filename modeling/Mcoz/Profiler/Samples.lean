/-
The accounting of one batch of samples.

`match_line` walks a sample's instruction pointer and its callchain, and `process_samples` credits the
line that it finds, grows the local delay and notes the next line. `matchLine_eq` says which line that
is without the walk's flags: the selected line if the sample meets it anywhere, otherwise the first
known line. `processSamples_accounts` adds up a whole batch.
-/

import Mcoz.Lib.Word
import Mathlib.Data.List.Count
import Mathlib.Logic.Function.Basic

set_option autoImplicit false

namespace Mcoz.Profiler

/-! ### The code -/

/-- A record of the sampler: a sample with its instruction pointer and callchain, or another event. -/
inductive PerfRecord
  | sample (ip : UInt64) (callchain : List UInt64)
  | other

/-- `is_sample`. -/
def PerfRecord.isSample : PerfRecord → Bool
  | .sample _ _ => true
  | .other => false

section Code

variable {Line : Type} [DecidableEq Line] (findLine : UInt64 → Option Line)
  (selectedLine : Option Line)

/-- The walk over the callchain in `match_line`, with `match_res.first` and `first_hit`. A return
address is one past the call. -/
def matchCallchain : List UInt64 → Option Line → Bool → Option Line × Bool
  | [], first, _ => (first, false)
  | pc :: rest, first, firstHit =>
      match findLine (pc - 1) with
      | none => matchCallchain rest first firstHit
      | some l =>
          if selectedLine = some l then (some l, true)
          else matchCallchain rest (if firstHit then first else some l) true

/-- `match_line`: the line of a sample, and whether it is the selected one. -/
def matchLine : PerfRecord → Option Line × Bool
  | .other => (none, false)
  | .sample ip callchain =>
      match findLine ip with
      | none => matchCallchain findLine selectedLine callchain none false
      | some l =>
          if selectedLine = some l then (some l, true)
          else matchCallchain findLine selectedLine callchain (some l) true

/-- What `process_samples` writes: the sample counts of the lines, the thread's local delay and
`_next_line`. -/
structure SampleAccounts (Line : Type) where
  samples : Line → UInt64
  localDelay : UInt64
  nextLine : Option Line

/-- `add_sample` on the line that was found. -/
def SampleAccounts.addSample (accounts : SampleAccounts Line) : Option Line → SampleAccounts Line
  | none => accounts
  | some l =>
      { accounts with samples := Function.update accounts.samples l (accounts.samples l + 1) }

/-- The rest of the loop's body: a delay for a sample in the selected line, or, without an experiment,
the next line if there is none. -/
def SampleAccounts.note (accounts : SampleAccounts Line) (experimentActive : Bool)
    (delaySize : UInt64) (sampledLine : Option Line × Bool) : SampleAccounts Line :=
  if experimentActive then
    if sampledLine.2 then { accounts with localDelay := accounts.localDelay + delaySize }
    else accounts
  else if sampledLine.1 ≠ none ∧ accounts.nextLine = none then
    { accounts with nextLine := sampledLine.1 }
  else accounts

/-- The body of the loop of `process_samples`, for a constant experiment. -/
def processRecord (experimentActive : Bool) (delaySize : UInt64) (accounts : SampleAccounts Line)
    (r : PerfRecord) : SampleAccounts Line :=
  if r.isSample then
    let sampledLine := matchLine findLine selectedLine r
    (accounts.addSample sampledLine.1).note experimentActive delaySize sampledLine
  else accounts

/-- The loop of `process_samples` over the records of a batch. -/
def processSamples (experimentActive : Bool) (delaySize : UInt64) (accounts : SampleAccounts Line)
    (batch : List PerfRecord) : SampleAccounts Line :=
  batch.foldl (processRecord findLine selectedLine experimentActive delaySize) accounts

/-! ### What a sample is worth -/

/-- The known lines that a record meets, in the order of the instruction pointer and the callchain. -/
def lines : PerfRecord → List Line
  | .sample ip callchain => (ip :: callchain.map (· - 1)).filterMap findLine
  | .other => []

/-- The record meets the selected line. -/
def meetsSelected (r : PerfRecord) : Bool :=
  (lines findLine r).any fun l => selectedLine = some l

/-- The line that a record is credited to: the selected line if the record meets it, otherwise the first
known line. -/
def creditedLine (r : PerfRecord) : Option Line :=
  if meetsSelected findLine selectedLine r then selectedLine else (lines findLine r).head?

end Code

/-! ### One record -/

namespace SampleAccounts

section Note

variable {Line : Type} (accounts : SampleAccounts Line) (experimentActive : Bool)
  (delaySize : UInt64) (sampledLine : Option Line × Bool)

@[simp] theorem note_samples :
    (accounts.note experimentActive delaySize sampledLine).samples = accounts.samples := by
  unfold note
  split <;> split <;> rfl

theorem note_localDelay : (accounts.note experimentActive delaySize sampledLine).localDelay =
    accounts.localDelay + if experimentActive && sampledLine.2 then delaySize else 0 := by
  unfold note
  cases experimentActive with
  | true => cases sampledLine.2 <;> simp
  | false =>
      simp only [Bool.false_and, Bool.false_eq_true, if_false, UInt64.add_zero]
      split <;> rfl

theorem note_nextLine : (accounts.note experimentActive delaySize sampledLine).nextLine =
    if experimentActive then accounts.nextLine else accounts.nextLine.or sampledLine.1 := by
  unfold note
  cases experimentActive with
  | true => cases sampledLine.2 <;> rfl
  | false =>
      obtain ⟨sampled, hit⟩ := sampledLine
      cases unset : accounts.nextLine <;> cases sampled <;> simp [unset]

end Note

section Add

variable {Line : Type} [DecidableEq Line] (accounts : SampleAccounts Line) (sampled : Option Line)

theorem addSample_samples (l : Line) : (accounts.addSample sampled).samples l =
    accounts.samples l + if sampled = some l then 1 else 0 := by
  cases sampled with
  | none => simp [addSample]
  | some one =>
      by_cases same : l = one
      · subst same
        simp [addSample]
      · simp [addSample, same, Ne.symm same]

@[simp] theorem addSample_localDelay :
    (accounts.addSample sampled).localDelay = accounts.localDelay := by
  cases sampled <;> rfl

@[simp] theorem addSample_nextLine :
    (accounts.addSample sampled).nextLine = accounts.nextLine := by
  cases sampled <;> rfl

end Add

end SampleAccounts

/-! ### What the walk finds -/

section Accounts

variable {Line : Type} [DecidableEq Line] {findLine : UInt64 → Option Line}
  {selectedLine : Option Line}

/-- The walk finds the selected line if the callchain meets it, otherwise it keeps the first line it was
given or else meets. -/
theorem matchCallchain_eq : ∀ (callchain : List UInt64) (first : Option Line),
    matchCallchain findLine selectedLine callchain first first.isSome =
      if ((callchain.map (· - 1)).filterMap findLine).any (fun l => selectedLine = some l) then
        (selectedLine, true)
      else (first.or ((callchain.map (· - 1)).filterMap findLine).head?, false)
  | [], first => by simp [matchCallchain]
  | pc :: rest, first => by
      rw [matchCallchain, List.map_cons]
      cases known : findLine (pc - 1) with
      | none =>
          rw [List.filterMap_cons_none known]
          exact matchCallchain_eq rest first
      | some l =>
          rw [List.filterMap_cons_some known, List.any_cons]
          by_cases selected : selectedLine = some l
          · simp [selected]
          · have later := matchCallchain_eq rest (if first.isSome then first else some l)
            have kept : (if first.isSome then first else some l).isSome = true := by
              cases first <;> rfl
            rw [kept] at later
            simp only [if_neg selected, later, decide_eq_false selected, Bool.false_or]
            cases first <;> rfl

/-- `match_line` returns the credited line, and whether the sample meets the selected one. -/
theorem matchLine_eq (r : PerfRecord) : matchLine findLine selectedLine r =
    (creditedLine findLine selectedLine r, meetsSelected findLine selectedLine r) := by
  cases r with
  | other => rfl
  | sample ip callchain =>
      rw [matchLine, creditedLine, meetsSelected, lines]
      cases known : findLine ip with
      | none =>
          rw [List.filterMap_cons_none known]
          have walk := @matchCallchain_eq _ _ findLine selectedLine callchain none
          rw [Option.isSome_none, Option.none_or] at walk
          simp only [walk]
          cases ((callchain.map (· - 1)).filterMap findLine).any
            (fun l => selectedLine = some l) <;> rfl
      | some l =>
          rw [List.filterMap_cons_some known, List.any_cons, List.head?_cons]
          by_cases selected : selectedLine = some l
          · simp [selected]
          · have walk := @matchCallchain_eq _ _ findLine selectedLine callchain (some l)
            rw [Option.isSome_some, Option.some_or] at walk
            simp only [if_neg selected, walk, decide_eq_false selected, Bool.false_or]
            cases ((callchain.map (· - 1)).filterMap findLine).any
              (fun l => selectedLine = some l) <;> rfl

/-- A record that is no sample meets no line. -/
theorem not_isSample {r : PerfRecord} (other : r.isSample = false) :
    creditedLine findLine selectedLine r = none ∧ meetsSelected findLine selectedLine r = false := by
  cases r with
  | sample => cases other
  | other => exact ⟨rfl, rfl⟩

/-- What one record does to the accounts, whether it is a sample or not. -/
theorem processRecord_spec (experimentActive : Bool) (delaySize : UInt64)
    (accounts : SampleAccounts Line) (r : PerfRecord) :
    let next := processRecord findLine selectedLine experimentActive delaySize accounts r
    (∀ l, next.samples l =
      accounts.samples l + if creditedLine findLine selectedLine r = some l then 1 else 0) ∧
    next.localDelay = accounts.localDelay +
      (if experimentActive && meetsSelected findLine selectedLine r then delaySize else 0) ∧
    next.nextLine = if experimentActive then accounts.nextLine
      else accounts.nextLine.or (creditedLine findLine selectedLine r) := by
  intro next
  cases sample : r.isSample with
  | false =>
      have same : next = accounts := by
        show processRecord _ _ _ _ _ _ = _
        rw [processRecord, sample]
        rfl
      have missed := @not_isSample _ _ findLine selectedLine r sample
      rw [same, missed.1, missed.2]
      simp
  | true =>
      have noted : next = (accounts.addSample (creditedLine findLine selectedLine r)).note
          experimentActive delaySize
          (creditedLine findLine selectedLine r, meetsSelected findLine selectedLine r) := by
        show processRecord _ _ _ _ _ _ = _
        rw [processRecord, sample, matchLine_eq]
        rfl
      rw [noted, SampleAccounts.note_localDelay, SampleAccounts.note_nextLine,
        SampleAccounts.note_samples]
      refine ⟨accounts.addSample_samples _, ?_, ?_⟩
      · rw [SampleAccounts.addSample_localDelay]
      · rw [SampleAccounts.addSample_nextLine]

/-! ### A batch -/

/-- For every batch, every map from addresses to lines and a constant experiment: each line's count grows
by the records credited to it; with an experiment the local delay grows by the delay size for each
record that meets the selected line, and the next line stays; without one the local delay stays, and
the next line becomes the line of the first credited record, if it was unset. -/
theorem processSamples_accounts (findLine : UInt64 → Option Line) (selectedLine : Option Line)
    (experimentActive : Bool) (delaySize : UInt64) (batch : List PerfRecord)
    (accounts : SampleAccounts Line) :
    let final := processSamples findLine selectedLine experimentActive delaySize accounts batch
    (∀ l, final.samples l = accounts.samples l +
      UInt64.ofNat (batch.countP fun r => creditedLine findLine selectedLine r = some l)) ∧
    final.localDelay = accounts.localDelay + (if experimentActive then
      delaySize * UInt64.ofNat (batch.countP (meetsSelected findLine selectedLine)) else 0) ∧
    final.nextLine = if experimentActive then accounts.nextLine
      else accounts.nextLine.or (batch.filterMap (creditedLine findLine selectedLine)).head? := by
  induction batch generalizing accounts with
  | nil => cases experimentActive <;> simp [processSamples]
  | cons r rest ih =>
      obtain ⟨samples, localDelay, nextLine⟩ :=
        @processRecord_spec _ _ findLine selectedLine experimentActive delaySize accounts r
      obtain ⟨laterSamples, laterDelay, laterLine⟩ :=
        ih (processRecord findLine selectedLine experimentActive delaySize accounts r)
      refine ⟨fun l => ?_, ?_, ?_⟩
      · refine (laterSamples l).trans ?_
        rw [samples l, List.countP_cons, UInt64.ofNat_add]
        by_cases here : creditedLine findLine selectedLine r = some l
        · simp only [here, if_true, decide_true]
          rw [UInt64.add_assoc, UInt64.add_comm 1]
          rfl
        · simp [here]
      · refine laterDelay.trans ?_
        rw [localDelay, List.countP_cons, UInt64.ofNat_add]
        cases experimentActive with
        | false => simp
        | true =>
            cases meetsSelected findLine selectedLine r with
            | false => simp
            | true =>
                simp only [Bool.and_self, if_true, UInt64.mul_add, UInt64.add_assoc]
                rw [UInt64.add_comm delaySize]
                simp
      · refine laterLine.trans ?_
        rw [nextLine]
        cases experimentActive with
        | true => rfl
        | false => cases here : creditedLine findLine selectedLine r <;>
            cases accounts.nextLine <;> simp [here]

end Accounts

/-- A recursive callchain that meets the selected line twice is credited once, and delayed once. -/
example : (processSamples (fun pc => some (if pc = 7 then 0 else 1)) (some 1) true 10
    ⟨fun _ => 0, 5, none⟩ [.sample 7 [3, 4, 3]]).localDelay = 15 := by
  decide

end Mcoz.Profiler
