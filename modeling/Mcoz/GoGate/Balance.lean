/-
The ledger of the Go gate's tokens.

`creditBalance` is written in four places: a refill adds its tokens, a check takes one, and the resets of
`setArmActive` and `setArmConfig` drop them all. With refills enabled, no check is armed without a token of its
own, whatever the other goroutines do between its sections; so as long as the tokens added in a run are fewer
than 2^63, none of the 64-bit sums wraps around and the statistics are those of a ledger (`tokens_backed`).
-/

import Mcoz.GoGate.Accounting
import Mcoz.Lib.Ledger
import Mcoz.Lib.Tally

set_option autoImplicit false

namespace Mcoz.GoGate

open Word Machine Threads Program Pool Ledger

/-! ### Entries -/

/-- What a section does to the tokens of the gate that it finds. -/
def Critical.entries : Critical → Gate → List (Entry Unit)
  | .consumeToken, gate => if 0 < gate.creditBalance then [.withdraw () 1] else []
  | .refillOK refill, _ => [.deposit () refill.tokensReq.toInt.toNat]
  | .setArmActive active, gate => if active then [] else [.discard () gate.creditBalance.toInt.toNat]
  | .setArmConfig delayNs number, gate =>
      if gate.configChanged delayNs number then [.discard () gate.creditBalance.toInt.toNat] else []
  | _, _ => []

/-- The entries of a step. -/
def tokenEntries (pool : GatePool) (move : GateMove) : List (Entry Unit) :=
  (pool.sections move).flatMap fun code => code.entries pool.shared

/-- The balance as a book. -/
def Gate.book (gate : Gate) : Book Unit :=
  fun _ => gate.creditBalance.toInt.toNat

/-- The balance is not negative, and the statistic shows it. -/
structure Gate.Balanced (gate : Gate) : Prop where
  nonneg : 0 ≤ gate.creditBalance.toInt
  shown : gate.st.creditBalanceReq = gate.creditBalance

/-- A refill that adds tokens adds some. -/
def Critical.Positive : Critical → Prop
  | .refillOK refill => 0 < refill.tokensReq
  | _ => True

section Sections

variable {gate : Gate} {code : Critical}

/-- The new balance of a refill that fits. -/
theorem toInt_refilled {refill : Refill} (balanced : gate.Balanced) (positive : 0 < refill.tokensReq)
    (fits : gate.creditBalance.toInt.toNat + refill.tokensReq.toInt.toNat < 2 ^ 63) :
    (gate.creditBalance + refill.tokensReq).toInt = gate.creditBalance.toInt + refill.tokensReq.toInt := by
  have nonneg := balanced.nonneg
  have tokens : 0 < refill.tokensReq.toInt := Int64.lt_iff_toInt_lt.mp positive
  exact toInt_add_of_fits (by omega) (by omega)

theorem toInt_consumed (available : 0 < gate.creditBalance) :
    (gate.creditBalance - 1).toInt = gate.creditBalance.toInt - 1 :=
  toInt_pred_of_pos (Int64.lt_iff_toInt_lt.mp available)

theorem Gate.Balanced.apply (balanced : gate.Balanced) (positive : code.Positive)
    (fits : gate.book () + deposited () (code.entries gate) < 2 ^ 63) : (code.apply gate).Balanced := by
  obtain ⟨nonneg, shown⟩ := id balanced
  cases code with
  | consumeToken =>
      show gate.consumeToken.Balanced
      unfold Gate.consumeToken
      by_cases available : 0 < gate.creditBalance
      · rw [if_pos available]
        refine ⟨?_, rfl⟩
        have enough : 0 < gate.creditBalance.toInt := Int64.lt_iff_toInt_lt.mp available
        show 0 ≤ (gate.creditBalance - 1).toInt
        rw [toInt_consumed available]
        omega
      · rw [if_neg available]
        exact ⟨nonneg, shown⟩
  | refillOK refill =>
      have tokens : 0 < refill.tokensReq.toInt := Int64.lt_iff_toInt_lt.mp positive
      refine ⟨?_, rfl⟩
      show 0 ≤ (gate.creditBalance + refill.tokensReq).toInt
      rw [toInt_refilled balanced positive fits]
      omega
  | setArmActive active =>
      cases active with
      | false => exact ⟨le_refl _, rfl⟩
      | true => exact ⟨nonneg, shown⟩
  | setArmConfig delayNs number =>
      show (gate.setArmConfig delayNs number).Balanced
      unfold Gate.setArmConfig
      refine ⟨?_, rfl⟩
      dsimp only
      split
      · exact le_refl _
      · exact nonneg
  | tick counter => cases counter <;> exact ⟨nonneg, shown⟩
  | _ => exact ⟨nonneg, shown⟩

/-- A section posts its entries. -/
theorem run_entries (balanced : gate.Balanced) (positive : code.Positive)
    (fits : gate.book () + deposited () (code.entries gate) < 2 ^ 63) :
    run post gate.book (code.entries gate) = some (code.apply gate).book := by
  have nonneg := balanced.nonneg
  cases code with
  | consumeToken =>
      show run post _ (ite _ _ _) = some gate.consumeToken.book
      unfold Gate.consumeToken
      by_cases available : 0 < gate.creditBalance
      · rw [if_pos available, if_pos available]
        have enough : 0 < gate.creditBalance.toInt := Int64.lt_iff_toInt_lt.mp available
        have covered : 1 ≤ gate.book () := show 1 ≤ gate.creditBalance.toInt.toNat by omega
        refine (run_cons_of (post_withdraw_iff.mpr ⟨covered, rfl⟩)).trans ?_
        refine congrArg some (funext fun key => ?_)
        show gate.creditBalance.toInt.toNat - 1 = (gate.creditBalance - 1).toInt.toNat
        rw [toInt_consumed available]
        omega
      · rw [if_neg available, if_neg available]
        rfl
  | refillOK refill =>
      have tokens : 0 < refill.tokensReq.toInt := Int64.lt_iff_toInt_lt.mp positive
      refine congrArg some (funext fun key => ?_)
      show gate.creditBalance.toInt.toNat + refill.tokensReq.toInt.toNat =
        (gate.creditBalance + refill.tokensReq).toInt.toNat
      rw [toInt_refilled balanced positive fits]
      omega
  | setArmActive active =>
      cases active with
      | false => exact run_cons_of (post_discard_iff.mpr ⟨rfl, rfl⟩)
      | true => rfl
  | setArmConfig delayNs number =>
      show run post _ (ite _ _ _) = some (gate.setArmConfig delayNs number).book
      unfold Gate.setArmConfig
      by_cases changed : gate.configChanged delayNs number = true
      · rw [if_pos changed, if_pos changed]
        exact run_cons_of (post_discard_iff.mpr ⟨rfl, rfl⟩)
      · rw [if_neg changed, if_neg changed]
        rfl
  | _ => rfl

/-- `RefillTokensAdded` counts the deposits, as long as the sum fits. -/
theorem tokensAdded_apply (positive : code.Positive) {before : ℕ}
    (same : gate.st.refillTokensAdded.toInt = before)
    (fits : before + deposited () (code.entries gate) < 2 ^ 63) :
    (code.apply gate).st.refillTokensAdded.toInt = (before + deposited () (code.entries gate) : ℕ) := by
  cases code with
  | refillOK refill =>
      have tokens : 0 < refill.tokensReq.toInt := Int64.lt_iff_toInt_lt.mp positive
      have sum : before + refill.tokensReq.toInt.toNat < 2 ^ 63 := fits
      show (gate.st.refillTokensAdded + refill.tokensReq).toInt = (before + (refill.tokensReq.toInt.toNat + 0) : ℕ)
      rw [toInt_add_of_fits (by omega) (by omega), same]
      push_cast
      omega
  | consumeToken =>
      show gate.consumeToken.st.refillTokensAdded.toInt = ((before + deposited () (ite _ _ _) : ℕ) : ℤ)
      unfold Gate.consumeToken
      split <;> exact same
  | setArmConfig delayNs number =>
      show gate.st.refillTokensAdded.toInt = ((before + deposited () (ite _ _ _) : ℕ) : ℤ)
      split <;> exact same
  | setArmActive active => cases active <;> exact same
  | tick counter => cases counter <;> exact same
  | _ => exact same

end Sections

/-! ### Weights -/

/-- Checks armed, tokens taken. -/
abbrev Weight := ℤ × ℤ

/-- What a section adds, in the state that it finds. -/
def weigh : Critical → Gate → Weight
  | .tick .armedOK, _ => (1, 0)
  | .consumeToken, gate => if 0 < gate.creditBalance then (0, 1) else 0
  | _, _ => 0

/-- A check is armed only after it took a token. -/
def covered : AddSubmonoid Weight where
  carrier := {weight | weight.1 ≤ weight.2}
  zero_mem' := le_refl (0 : ℤ)
  add_mem' := fun {first second} left right =>
    (add_le_add left right : first.1 + second.1 ≤ first.2 + second.2)

/-- What a check leaves: an armed one took a token, and no other did. -/
def settled (armed : Bool) : Weight :=
  (armed.toNat, armed.toNat)

/-- What is due for the result of a goroutine. -/
def due : Outcome → Weight
  | .checked reply => settled reply.verdict.armed
  | _ => 0

section Weights

variable {code : Critical} {gate : Gate}

theorem weigh_fst : (weigh code gate).1 = if code.counter = some .armedOK then 1 else 0 := by
  cases code with
  | tick counter => cases counter <;> rfl
  | consumeToken =>
      show (ite _ _ _ : Weight).1 = 0
      split <;> rfl
  | _ => rfl

theorem weigh_snd : (weigh code gate).2 = withdrawn () (code.entries gate) := by
  cases code with
  | tick counter => cases counter <;> rfl
  | consumeToken =>
      show (ite _ _ _ : Weight).2 = withdrawn () (ite _ _ _)
      by_cases available : 0 < gate.creditBalance
      · rw [if_pos available, if_pos available]
        rfl
      · rw [if_neg available, if_neg available]
        rfl
  | setArmActive active => cases active <;> rfl
  | setArmConfig delayNs number =>
      show 0 = ((withdrawn () (ite _ _ _) : ℕ) : ℤ)
      split <;> rfl
  | _ => rfl

theorem settled_mem (armed : Bool) : settled armed ∈ covered :=
  le_refl (armed.toNat : ℤ)

end Weights

/-! ### Programs -/

/-- A property of the sections of a refill. -/
structure Refills (good : Critical → Prop) : Prop where
  look : good .look
  request : good (.tick .refillRequest)
  added : ∀ refill : Refill, 0 < refill.tokensReq → good (.refillOK refill)
  failed : ∀ err, good (.refillFail err)

section Programs

variable {good : Critical → Prop} {cfg : Config}

/-- Any call may be made. -/
def anyCall (_ : Call) : Prop :=
  True

theorem signalRefill_only (refills : Refills good) : (signalRefill cfg).Only good anyCall := by
  unfold signalRefill
  split
  · trivial
  · exact only_perform refills.request

theorem doRefill_only (refills : Refills good) {tokensReq : Int64} {reason : Bytes} :
    (doRefill cfg tokensReq reason).Only good anyCall := by
  unfold doRefill
  by_cases nothing : tokensReq ≤ 0
  · rw [if_pos nothing]
    trivial
  · rw [if_neg nothing]
    refine only_bind (only_perform refills.look) fun snapshot => ?_
    split
    · trivial
    · refine only_bind (only_ask trivial) fun now => ?_
      refine only_bind (only_bind (only_ask trivial) fun answer => trivial) fun result => ?_
      split
      · exact only_perform (refills.added _ (Int64.not_le.mp nothing))
      · exact only_perform (refills.failed _)

theorem primeOnEnable_only (refills : Refills good) : (primeOnEnable cfg).Only good anyCall := by
  refine only_bind (only_perform refills.look) fun snapshot => ?_
  split
  · trivial
  · split
    · trivial
    · dsimp only
      split
      · trivial
      · exact only_bind (doRefill_only refills) fun _ => only_bind (only_perform refills.look) fun _ => trivial

theorem refillWorkerTurn_only (refills : Refills good) : (refillWorkerTurn cfg).Only good anyCall := by
  refine only_bind (only_bind (only_perform refills.look) fun snapshot => ?_) fun need => ?_
  · split
    · trivial
    · split
      · trivial
      · split <;> trivial
  · split
    · trivial
    · exact only_bind (doRefill_only refills) fun _ => trivial

theorem handleSetEnabled_only (refills : Refills good) (config : ∀ delayNs count, good (.setArmConfig delayNs count))
    (toggle : ∀ active, good (.setArmActive active)) {enabled : Bool} {delayNs count : Option Int64} :
    (handleSetEnabled cfg enabled delayNs count).Only good anyCall := by
  refine only_bind (only_perform (config _ _)) fun ⟨configChanged, current⟩ => ?_
  refine only_bind (only_bind (only_perform (toggle _)) fun changed => ?_) fun changed => ?_
  · split
    · exact only_bind (signalRefill_only refills) fun _ => trivial
    · trivial
  · split
    · refine only_bind (primeOnEnable_only refills) fun prime => ?_
      exact only_bind (signalRefill_only refills) fun _ => only_bind (only_perform refills.look) fun _ => trivial
    · trivial

end Programs

/-! ### Checks -/

section Checks

variable {cfg : Config}

theorem positive_refills : Refills Critical.Positive :=
  ⟨trivial, trivial, fun _ positive => positive, fun _ => trivial⟩

theorem weightless_refills : Refills (Weightless weigh) :=
  ⟨fun _ => rfl, fun _ => rfl, fun _ _ _ => rfl, fun _ _ => rfl⟩

theorem failCheck_positive {errMsg : Bytes} : (failCheck errMsg).Only Critical.Positive anyCall :=
  only_perform trivial

theorem armFromToken_positive {balance : Int64} : (armFromToken cfg balance).Only Critical.Positive anyCall := by
  refine only_bind (only_perform trivial) fun _ => ?_
  dsimp only
  split
  · exact only_bind (signalRefill_only positive_refills) fun _ => trivial
  · trivial

theorem checkToken_positive : (checkToken cfg).Only Critical.Positive anyCall := by
  refine only_bind (only_perform trivial) fun ⟨consumed, balance⟩ => ?_
  dsimp only
  split
  · exact armFromToken_positive
  · refine only_bind (signalRefill_only positive_refills) fun _ => ?_
    split
    · refine only_bind (doRefill_only positive_refills) fun result => ?_
      split
      · refine only_bind (only_perform trivial) fun ⟨consumed, balance⟩ => ?_
        dsimp only
        split
        · exact armFromToken_positive
        · exact failCheck_positive
      · exact failCheck_positive
    · exact failCheck_positive

theorem checkVerdict_positive {request : CheckRequest} {requestID path : Bytes} {snapshot : Snapshot} :
    (checkVerdict cfg request requestID path snapshot).Only Critical.Positive anyCall := by
  unfold checkVerdict
  split
  · exact only_perform trivial
  · split
    · split
      · exact only_perform trivial
      · split
        · unfold checkZeroDelay
          split
          · refine only_bind (only_bind (only_ask trivial) fun _ => trivial) fun result => ?_
            split
            · exact failCheck_positive
            · trivial
          · exact only_perform trivial
        · split
          · refine only_bind (only_bind (only_ask trivial) fun _ => trivial) fun result => ?_
            split
            · exact only_perform trivial
            · exact failCheck_positive
          · exact checkToken_positive
    · exact only_perform trivial

theorem armOnce_only {good : Critical → Prop} {requestID path : Bytes} {delayNs count : Int64} :
    (armOnce cfg requestID path delayNs count).Only good anyCall :=
  only_bind (only_ask trivial) fun _ => trivial

theorem checkHeaders_only {good : Critical → Prop} (look : good .look) {verdict : Verdict} :
    (checkHeaders cfg verdict).Only good anyCall := by
  unfold checkHeaders
  split
  · exact only_bind (only_perform look) fun _ => trivial
  · trivial

theorem checkID_only {good : Critical → Prop} {request : CheckRequest} : (checkID request).Only good anyCall := by
  unfold checkID
  split
  · exact only_bind (only_ask trivial) fun _ => trivial
  · trivial

theorem program_of_start {thread : ℕ} {job : Job} {program : Prog Outcome}
    (begun : job.start cfg thread = some program) : program = job.program cfg := by
  cases job with
  | boot active => exact (Option.some.inj (Option.ite_none_right_eq_some.mp begun).2).symm
  | check request => exact (Option.some.inj (Option.ite_none_left_eq_some.mp begun).2).symm
  | setEnabled enabled delayNs count => exact (Option.some.inj (Option.ite_none_left_eq_some.mp begun).2).symm
  | refillWorkerTurn => exact (Option.some.inj (Option.ite_none_right_eq_some.mp begun).2).symm

theorem boot_only {good : Critical → Prop} (refills : Refills good) {active : Bool} :
    ((Job.boot active).program cfg).Only good anyCall := by
  cases active with
  | false => trivial
  | true => exact only_bind (signalRefill_only refills) fun _ => trivial

/-- Every section of a job is positive. -/
theorem start_positive (thread : ℕ) (job : Job) (program : Prog Outcome)
    (begun : job.start cfg thread = some program) : program.Only Critical.Positive anyCall := by
  rw [program_of_start begun]
  cases job with
  | boot active => exact boot_only positive_refills
  | check request =>
      refine only_bind ?_ fun _ => trivial
      refine only_bind checkID_only fun requestID => ?_
      refine only_bind (only_perform trivial) fun _ => only_bind (only_perform trivial) fun snapshot => ?_
      exact only_bind checkVerdict_positive fun verdict =>
        only_bind (checkHeaders_only trivial) fun _ => trivial
  | setEnabled enabled delayNs count =>
      exact only_bind (handleSetEnabled_only positive_refills (fun _ _ => trivial) fun _ => trivial) fun _ => trivial
  | refillWorkerTurn => exact only_bind (refillWorkerTurn_only positive_refills) fun _ => trivial

/-- No program of this gate fails, so nothing is asked of a tally that is lost. -/
def anyTally {α : Type} (_ : α) : Prop :=
  True

/-- The verdict leaves the tally of a check that is armed or not. -/
def Settles (program : Prog Verdict) (tally : Weight) : Prop :=
  program.Tallies weigh covered anyTally (fun verdict final => final = settled verdict.armed) tally

theorem settles_pure {verdict : Verdict} {tally : Weight} (same : tally = settled verdict.armed) :
    Settles (pure verdict) tally :=
  ⟨same ▸ settled_mem _, same⟩

/-- A section that weighs nothing ends a check that is not armed. -/
theorem settles_perform {code : Critical} {result : Gate → Verdict} (weightless : Weightless weigh code)
    (refused : ∀ gate, (result gate).armed = false) : Settles (perform code result) 0 := by
  refine ⟨covered.zero_mem, fun gate => ?_⟩
  rw [weightless, add_zero]
  exact settles_pure (by rw [refused]; rfl)

theorem failCheck_settles {errMsg : Bytes} : Settles (failCheck errMsg) 0 :=
  settles_perform (fun _ => rfl) fun _ => rfl

/-- A check that took a token is counted as armed. -/
theorem armFromToken_settles {balance : Int64} : Settles (armFromToken cfg balance) (0, 1) := by
  have taken : ((0, 1) : Weight) ∈ covered := (by decide : (0 : ℤ) ≤ 1)
  refine perform_bind taken fun gate => ?_
  have armed : ((0, 1) : Weight) + weigh (.tick .armedOK) gate = settled true := rfl
  rw [armed]
  split
  · exact weightless_bind (settled_mem true) (signalRefill_only weightless_refills) (Or.inr trivial) fun _ => settles_pure rfl
  · exact settles_pure rfl

/-- A token is taken, or none is there. -/
theorem consume_settles {next : Bool × Int64 → Prog Verdict}
    (taken : ∀ balance, Settles (next (true, balance)) (0, 1))
    (missed : ∀ balance, Settles (next (false, balance)) 0) : Settles (consumeToken >>= next) 0 := by
  refine perform_bind covered.zero_mem fun gate => ?_
  by_cases available : 0 < gate.creditBalance
  · rw [if_pos available]
    simp only [weigh, if_pos available]
    exact taken _
  · rw [if_neg available]
    simp only [weigh, if_neg available]
    exact missed _

theorem checkMissed_settles : Settles (checkMissed cfg) 0 := by
  refine weightless_bind covered.zero_mem (signalRefill_only weightless_refills) (Or.inr trivial) fun _ => ?_
  split
  · refine weightless_bind covered.zero_mem (doRefill_only weightless_refills) (Or.inr trivial) fun result => ?_
    split
    · exact consume_settles (fun _ => armFromToken_settles) fun _ => failCheck_settles
    · exact failCheck_settles
  · exact failCheck_settles

/-- With refills enabled every check settles. -/
theorem checkVerdict_settles (token : cfg.refillEnabled = true) {request : CheckRequest} {requestID path : Bytes}
    {snapshot : Snapshot} : Settles (checkVerdict cfg request requestID path snapshot) 0 := by
  unfold checkVerdict
  split
  · exact settles_perform (fun _ => rfl) fun _ => rfl
  · split
    · split
      · exact settles_perform (fun _ => rfl) fun _ => rfl
      · split
        · unfold checkZeroDelay
          split
          · refine weightless_bind covered.zero_mem armOnce_only (Or.inr trivial) fun result => ?_
            split
            · exact failCheck_settles
            · exact settles_pure rfl
          · exact settles_perform (fun _ => rfl) fun _ => rfl
        · rw [token]
          exact consume_settles (fun _ => armFromToken_settles) fun _ => checkMissed_settles
    · exact settles_perform (fun _ => rfl) fun _ => rfl

theorem handleCheck_settles (token : cfg.refillEnabled = true) (request : CheckRequest) :
    (handleCheck cfg request).Tallies weigh covered anyTally
      (fun reply final => final = settled reply.verdict.armed) 0 := by
  refine weightless_bind covered.zero_mem checkID_only (Or.inr trivial) fun requestID => ?_
  refine weightless_bind covered.zero_mem (only_perform fun _ => rfl : Program.Only _ anyCall _)
    (Or.inr trivial) fun _ => ?_
  refine weightless_bind covered.zero_mem (only_perform fun _ => rfl : Program.Only _ anyCall _)
    (Or.inr trivial) fun snapshot => ?_
  refine tallies_bind (tallies_mono (checkVerdict_settles token) ?_)
  rintro verdict final rfl -
  exact weightless_bind (settled_mem _) (checkHeaders_only fun _ => rfl) (Or.inr trivial) fun _ => ⟨settled_mem _, rfl⟩

/-- Whether a job is a check. -/
def Job.isCheck : Job → Bool
  | .check _ => true
  | _ => false

/-- The sections of the other jobs weigh nothing. -/
theorem silent (thread : ℕ) (job : Job) (program : Prog Outcome) (begun : job.start cfg thread = some program)
    (control : ¬ job.isCheck = true) : program.Only (Weightless weigh) anyCall := by
  rw [program_of_start begun]
  cases job with
  | boot active => exact boot_only weightless_refills
  | check request => exact absurd rfl control
  | setEnabled enabled delayNs count =>
      refine only_bind (handleSetEnabled_only weightless_refills (fun _ _ _ => rfl) fun _ _ => rfl) fun _ => trivial
  | refillWorkerTurn => exact only_bind (refillWorkerTurn_only weightless_refills) fun _ => trivial

theorem owes (token : cfg.refillEnabled = true) (thread : ℕ) (job : Job) (program : Prog Outcome)
    (begun : job.start cfg thread = some program) : program.Owes weigh covered anyTally due 0 := by
  rw [program_of_start begun]
  cases job with
  | boot active =>
      cases active with
      | false => exact ⟨covered.zero_mem, rfl⟩
      | true =>
          exact weightless_bind covered.zero_mem (signalRefill_only weightless_refills) (Or.inr trivial) fun _ =>
            ⟨covered.zero_mem, rfl⟩
  | check request =>
      exact tallies_bind (tallies_mono (handleCheck_settles token request) fun _ _ same kept => ⟨kept, same⟩)
  | setEnabled enabled delayNs count =>
      exact weightless_bind covered.zero_mem (handleSetEnabled_only weightless_refills (fun _ _ _ => rfl) fun _ _ => rfl)
        (Or.inr trivial) fun _ => ⟨covered.zero_mem, rfl⟩
  | refillWorkerTurn =>
      exact weightless_bind covered.zero_mem (refillWorkerTurn_only weightless_refills) (Or.inr trivial) fun _ =>
        ⟨covered.zero_mem, rfl⟩

end Checks

/-! ### Runs -/

section Runs

variable {cfg : Config} {gate : Gate} {moves : List GateMove} {pool next final : GatePool} {move : GateMove}

/-- The sections of a step find their state, one at most. -/
theorem step_cases (own : pool.Only Critical.Positive anyCall) (moved : step cfg pool move = some next) :
    (pool.sections move = [] ∧ next.shared = pool.shared) ∨
      ∃ code, pool.sections move = [code] ∧ next.shared = code.apply pool.shared ∧ code.Positive := by
  cases effect_of_step moved with
  | @ran thread code rest here =>
      have one : pool.sections (.critical thread : GateMove) = [code] := by simp [Pool.sections, here]
      exact .inr ⟨code, one, rfl, (own thread _ here).1⟩
  | _ => exact .inl ⟨rfl, rfl⟩

/-- The entries of a run. -/
def tokenLedger (cfg : Config) (gate : Gate) (moves : List GateMove) : List (Entry Unit) :=
  trace (step cfg) tokenEntries (Pool.init gate) moves

/-- The weight of a run. -/
def weighed (cfg : Config) (gate : Gate) (moves : List GateMove) : Weight :=
  (trace (step cfg) (weights weigh) (Pool.init gate) moves).sum

/-- What a gate has after the moves. -/
structure Kept (cfg : Config) (gate : Gate) (moves : List GateMove) (pool : GatePool) : Prop where
  balanced : pool.shared.Balanced
  posted : run post gate.book (tokenLedger cfg gate moves) = some pool.shared.book
  added : pool.shared.st.refillTokensAdded.toInt = deposited () (tokenLedger cfg gate moves)
  armed : pool.shared.st.armedOK.toInt = (weighed cfg gate moves).1

theorem ledger_concat (ran : run (step cfg) (Pool.init gate) moves = some pool) :
    tokenLedger cfg gate (moves ++ [move]) = tokenLedger cfg gate moves ++ tokenEntries pool move :=
  trace_concat ran move

theorem weighed_concat (ran : run (step cfg) (Pool.init gate) moves = some pool) :
    weighed cfg gate (moves ++ [move]) = weighed cfg gate moves + (pool.weights weigh move).sum := by
  rw [weighed, trace_concat ran, List.sum_append]
  rfl

/-- The tokens taken are the withdrawals. -/
theorem weighed_snd (ran : run (step cfg) (Pool.init gate) moves = some final) :
    (weighed cfg gate moves).2 = withdrawn () (tokenLedger cfg gate moves) := by
  refine run_history (motive := fun past _ => (weighed cfg gate past).2 = withdrawn () (tokenLedger cfg gate past))
    rfl ?_ ran
  intro past pool move next before ih moved
  rw [weighed_concat before, ledger_concat before, withdrawn_append, Prod.snd_add, ih, tokenEntries]
  have here : ((pool.weights weigh move).sum).2 =
      withdrawn () ((pool.sections move).flatMap fun code => code.entries pool.shared) := by
    cases effect_of_step moved with
    | @ran thread code rest here => simpa [weights, sections, here] using weigh_snd
    | _ => rfl
  rw [here]
  push_cast
  rfl

/-- No more checks were armed than tokens were taken. -/
theorem armed_le_taken (token : cfg.refillEnabled = true)
    (ran : run (step cfg) (Pool.init gate) moves = some final) :
    (weighed cfg gate moves).1 ≤ withdrawn () (tokenLedger cfg gate moves) :=
  (weight_mem_of_run (owes token) ran : (weighed cfg gate moves).1 ≤ (weighed cfg gate moves).2).trans_eq
    (weighed_snd ran)

/-- What was added is what is there, what was taken and what was dropped. -/
theorem law_of_posted (empty : gate.book () = 0) {entries : List (Entry Unit)}
    (posted : run post gate.book entries = some pool.shared.book) :
    deposited () entries = pool.shared.book () + withdrawn () entries + discarded () entries := by
  have law := balance_conserved posted ()
  rw [empty, zero_add] at law
  exact law

theorem Kept.step (kept : Kept cfg gate moves pool) (token : cfg.refillEnabled = true) (empty : gate.book () = 0)
    (own : pool.Only Critical.Positive anyCall) (before : run (step cfg) (Pool.init gate) moves = some pool)
    (moved : step cfg pool move = some next)
    (small : deposited () (tokenLedger cfg gate (moves ++ [move])) < 2 ^ 63) :
    Kept cfg gate (moves ++ [move]) next := by
  have taken := armed_le_taken token (run_concat_iff.mpr ⟨pool, before, moved⟩)
  have law := law_of_posted empty kept.posted
  have ledger : tokenLedger cfg gate (moves ++ [move]) = _ := ledger_concat before
  have weight : weighed cfg gate (moves ++ [move]) = _ := weighed_concat before
  rcases step_cases own moved with ⟨nothing, same⟩ | ⟨code, one, applied, positive⟩
  · rw [tokenEntries, nothing, List.flatMap_nil, List.append_nil] at ledger
    rw [weights, nothing, List.map_nil, List.sum_nil, add_zero] at weight
    exact ⟨same ▸ kept.balanced, by rw [ledger, same]; exact kept.posted, by rw [ledger, same]; exact kept.added,
      by rw [weight, same]; exact kept.armed⟩
  · rw [tokenEntries, one, List.flatMap_singleton] at ledger
    rw [weights, one, List.map_singleton, List.sum_singleton] at weight
    rw [ledger, deposited_append] at small
    have fits : pool.shared.book () + deposited () (code.entries pool.shared) < 2 ^ 63 := by omega
    have posted : run post gate.book (tokenLedger cfg gate (moves ++ [move])) = some next.shared.book := by
      rw [ledger, applied]
      exact run_append_of kept.posted (run_entries kept.balanced positive fits)
    refine ⟨applied ▸ kept.balanced.apply positive fits, posted, ?_, ?_⟩
    · rw [ledger, deposited_append, applied]
      exact tokensAdded_apply positive kept.added small
    · have law' := law_of_posted empty posted
      rw [ledger, deposited_append] at law'
      rw [ledger] at taken
      have counted := value_apply .armedOK code pool.shared
      have sum : (pool.shared.st.armedOK + if code.counter = some .armedOK then 1 else 0).toInt =
          pool.shared.st.armedOK.toInt + if code.counter = some .armedOK then 1 else 0 := by
        rw [weight, Prod.fst_add, weigh_fst, ← kept.armed] at taken
        by_cases counts : code.counter = some .armedOK
        · rw [if_pos counts] at taken
          rw [if_pos counts, if_pos counts]
          exact (toInt_add_iff (by decide)).mpr (by rw [show (1 : Int64).toInt = 1 from rfl]; omega)
        · rw [if_neg counts, if_neg counts, Int64.add_zero, add_zero]
      rw [applied, weight, Prod.fst_add, weigh_fst, ← kept.armed]
      exact (congrArg Int64.toInt counted).trans sum

theorem kept_of_run {active : Bool} {delayNs count : Int64} (token : cfg.refillEnabled = true)
    (ran : run (step cfg) (Pool.init (Gate.init active delayNs count)) moves = some final)
    (small : deposited () (tokenLedger cfg (Gate.init active delayNs count) moves) < 2 ^ 63) :
    Kept cfg (Gate.init active delayNs count) moves final := by
  refine (run_history (motive := fun past pool => pool.Only Critical.Positive anyCall ∧
    (deposited () (tokenLedger cfg (Gate.init active delayNs count) past) < 2 ^ 63 →
      Kept cfg (Gate.init active delayNs count) past pool)) ?_ ?_ ran).2 small
  · refine ⟨?_, fun _ => ⟨⟨le_refl _, rfl⟩, rfl, rfl, rfl⟩⟩
    rintro thread program ⟨⟩
  · rintro past pool move next before ⟨own, kept⟩ moved
    refine ⟨Pool.Only.step start_positive own moved, fun small => ?_⟩
    have fewer := small
    rw [ledger_concat before, deposited_append] at fewer
    exact (kept (by omega)).step token rfl own before moved small

end Runs

/-! ### The statistics -/

/-- A response that says armed. -/
def Outcome.armed : Outcome → Bool
  | .checked reply => reply.verdict.armed
  | _ => false

/-- The number of responses that say armed. -/
def armedResponses (cfg : Config) (gate : Gate) (moves : List GateMove) : ℕ :=
  (trace (step cfg) Pool.results (Pool.init gate) moves).countP Outcome.armed

theorem sum_due {outcomes : List Outcome} : (outcomes.map due).sum.1 = outcomes.countP Outcome.armed := by
  induction outcomes with
  | nil => rfl
  | cons outcome rest ih =>
      rw [List.map_cons, List.sum_cons, Prod.fst_add, ih, List.countP_cons]
      cases outcome with
      | checked reply => cases armed : reply.verdict.armed <;> simp [due, settled, Outcome.armed, armed, add_comm]
      | enabled reply => simp [due, Outcome.armed]
      | turned => simp [due, Outcome.armed]

theorem sum_due_even {outcomes : List Outcome} : (outcomes.map due).sum.2 = (outcomes.map due).sum.1 := by
  induction outcomes with
  | nil => rfl
  | cons outcome rest ih =>
      rw [List.map_cons, List.sum_cons, Prod.fst_add, Prod.snd_add, ih]
      cases outcome <;> rfl

/-- **The tokens of the Go gate.** With refills enabled, in any interleaving of its goroutines: the tokens added are
the balance, the tokens taken and the tokens dropped; the balance is not negative and the statistic shows it; and
`ArmedOK` is at most the tokens taken, and is their number and that of the responses that say armed as soon as no
check is in progress. -/
theorem tokens_backed {cfg : Config} {active : Bool} {delayNs count : Int64} {moves : List GateMove}
    {final : GatePool} (token : cfg.refillEnabled = true)
    (ran : run (step cfg) (Pool.init (Gate.init active delayNs count)) moves = some final)
    (small : deposited () (tokenLedger cfg (Gate.init active delayNs count) moves) < 2 ^ 63) :
    let gate := final.shared
    let taken := withdrawn () (tokenLedger cfg (Gate.init active delayNs count) moves)
    let dropped := discarded () (tokenLedger cfg (Gate.init active delayNs count) moves)
    gate.st.refillTokensAdded.toInt = gate.creditBalance.toInt + taken + dropped ∧
      0 ≤ gate.creditBalance.toInt ∧ gate.st.creditBalanceReq = gate.creditBalance ∧
      gate.st.armedOK.toInt ≤ taken ∧
      ((∀ thread job, running moves thread = some job → job.isCheck = false) →
        gate.st.armedOK.toInt = taken ∧
          taken = armedResponses cfg (Gate.init active delayNs count) moves) := by
  intro gate taken dropped
  have kept := kept_of_run token ran small
  have nonneg := kept.balanced.nonneg
  have law := law_of_posted rfl kept.posted
  have book : (gate.book () : ℤ) = gate.creditBalance.toInt := Int.toNat_of_nonneg nonneg
  refine ⟨?_, nonneg, kept.balanced.shown, kept.armed ▸ armed_le_taken token ran, fun idle => ?_⟩
  · rw [kept.added, law, ← book]
    push_cast
    rfl
  · have results : weighed cfg (Gate.init active delayNs count) moves =
        ((trace (step cfg) Pool.results (Pool.init (Gate.init active delayNs count)) moves).map due).sum := by
      rw [← trace_map]
      exact weight_of_idle (owes token) silent ran fun thread job held => by simp [idle thread job held]
    have even := weighed_snd ran
    rw [results, sum_due_even, sum_due] at even
    rw [kept.armed, results, sum_due]
    exact ⟨even, by exact_mod_cast even.symm⟩

/-- A refill of 16 tokens, a check and a reset. -/
def checkedOnce : List GateMove :=
  [.start 0 .refillWorkerTurn, .critical 0, .critical 0, .answer 0 okReply, .answer 0 okReply, .critical 0, .finish 0,
    .start 2 (.check ⟨ascii "/a", [(ascii "x-request-id", ascii "1")]⟩), .critical 2, .critical 2, .critical 2,
    .critical 2, .critical 2, .finish 2,
    .start 3 (.setEnabled false none none), .critical 3, .critical 3, .finish 3]

theorem tokens_backed_once : ∃ final,
    run (step {}) (Pool.init (Gate.init true 10 1)) checkedOnce = some final ∧
      final.shared.st.refillTokensAdded.toInt = final.shared.creditBalance.toInt + (1 : ℕ) + (15 : ℕ) ∧
      final.shared.st.armedOK.toInt = (1 : ℕ) := by
  obtain ⟨final, ran⟩ := Option.isSome_iff_exists.mp
    (by decide +kernel : (run (step {}) (Pool.init (Gate.init true 10 1)) checkedOnce).isSome = true)
  have taken : withdrawn () (tokenLedger {} (Gate.init true 10 1) checkedOnce) = 1 := by decide +kernel
  have dropped : discarded () (tokenLedger {} (Gate.init true 10 1) checkedOnce) = 15 := by decide +kernel
  have idle (thread : ℕ) (job : Job) (held : running checkedOnce thread = some job) : job.isCheck = false := by
    simp only [running, checkedOnce, List.foldl_cons, List.foldl_nil, note, Function.update_apply] at held
    split_ifs at held
  obtain ⟨law, -, -, -, armed⟩ := tokens_backed rfl ran (by decide +kernel)
  rw [taken, dropped] at law
  rw [taken] at armed
  exact ⟨final, ran, law, (armed idle).1⟩

end Mcoz.GoGate
