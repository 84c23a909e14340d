/-
What the balance of the gate stands for.

A token is worth one request: the credits and the delay of the configuration that its refill was
armed with. `Purse` is the balance as it is meant, the tokens themselves, and the sections of the lock
act on it as they act on the gate (`Shows.apply`). A refill reads the configuration in one section,
sends its request without the lock and adds its tokens in another; `tokens_current_iff` says that the
tokens stay those of an active gate's configuration exactly as long as that last section finds the
configuration of the first.
-/

import Mcoz.PyGate.Composition

set_option autoImplicit false

namespace Mcoz.PyGate

open Machine Threads

/-! ### The purse -/

/-- A delay and a count, the configuration that a token was armed with. -/
structure ArmConfig where
  delayNs : ℤ
  count : ℤ
deriving DecidableEq

/-- The configuration that a refill is armed with. -/
def Refill.config (refill : Refill) : ArmConfig :=
  ⟨refill.delayNs, refill.count⟩

/-- The configuration of the gate. -/
def Gate.config (gate : Gate) : ArmConfig :=
  ⟨gate.armDelayNs, gate.armCount⟩

/-- The configuration that `_set_arm_config` leaves. -/
def ArmConfig.set (config : ArmConfig) (delayNs count : Option ℤ) : ArmConfig :=
  ⟨Gate.configured config.delayNs delayNs, Gate.configured config.count count⟩

/-- A gate's balance as tokens, the oldest first. -/
structure Purse where
  active : Bool
  config : ArmConfig
  tokens : List ArmConfig
deriving DecidableEq

namespace Purse

/-- The empty purse of a new gate. -/
def ofGate (gate : Gate) : Purse :=
  ⟨gate.armActive, gate.config, []⟩

/-- What a section does to the tokens. -/
def apply : Critical → Purse → Purse
  | .consumeCreditToken, purse => { purse with tokens := purse.tokens.tail }
  | .refillOk refill, purse =>
      { purse with
        tokens := purse.tokens ++ List.replicate refill.tokensReq.toNat refill.config }
  | .setArmActive active, purse =>
      { purse with active := active, tokens := if active then purse.tokens else [] }
  | .setArmConfig delayNs number, purse =>
      { purse with
        config := purse.config.set delayNs number
        tokens := if purse.config.set delayNs number = purse.config then purse.tokens else [] }
  | _, purse => purse

/-- The tokens of an active gate's configuration. -/
structure Sound (purse : Purse) : Prop where
  idle : purse.active = false → purse.tokens = []
  current : ∀ token ∈ purse.tokens, token = purse.config

end Purse

/-- A refill section adds at least one token. -/
def Critical.Positive : Critical → Prop
  | .refillOk refill => 0 < refill.tokensReq
  | _ => True

/-- A section that adds tokens finds the configuration that they were armed with, in an active
gate. -/
def Critical.Current (active : Bool) (config : ArmConfig) : Critical → Prop
  | .refillOk refill => active = true ∧ refill.config = config
  | _ => True

namespace Purse

variable {purse : Purse} {code : Critical}

/-- From a sound purse, exactly a refill of another configuration leads to an unsound one. -/
theorem sound_apply_iff (sound : Sound purse) (positive : code.Positive) :
    Sound (apply code purse) ↔ code.Current purse.active purse.config := by
  cases code with
  | consumeCreditToken =>
      refine iff_of_true ⟨fun idle => ?_, fun token member => ?_⟩ trivial
      · show purse.tokens.tail = []
        rw [sound.idle idle, List.tail_nil]
      · exact sound.current token (List.mem_of_mem_tail member)
  | refillOk refill =>
      have added : refill.config ∈ List.replicate refill.tokensReq.toNat refill.config := by
        have nonzero : refill.tokensReq.toNat ≠ 0 := by
          have tokens : 0 < refill.tokensReq := positive
          omega
        exact List.mem_replicate.mpr ⟨nonzero, rfl⟩
      constructor
      · intro next
        refine ⟨Bool.eq_true_of_not_eq_false fun idle => ?_, ?_⟩
        · have empty := next.idle idle
          rw [(List.append_eq_nil_iff.mp empty).2] at added
          cases added
        · exact next.current _ (List.mem_append_right _ added)
      · rintro ⟨active, same⟩
        refine ⟨fun idle => absurd (active.symm.trans idle) (by decide), fun token member => ?_⟩
        rcases List.mem_append.mp member with old | new
        · exact sound.current token old
        · exact (List.eq_of_mem_replicate new).trans same
  | setArmActive active =>
      refine iff_of_true ⟨fun idle => ?_, fun token member => ?_⟩ trivial
      · change active = false at idle
        simp [apply, idle]
      · cases active with
        | false => cases member
        | true => exact sound.current token member
  | setArmConfig delayNs number =>
      refine iff_of_true ⟨fun idle => ?_, fun token member => ?_⟩ trivial
      · show ite _ _ _ = _
        rw [sound.idle idle, ite_self]
      · change token ∈ ite _ _ _ at member
        show token = purse.config.set delayNs number
        split at member
        · rename_i same
          rw [same]
          exact sound.current token member
        · cases member
  | _ => exact iff_of_true sound trivial

end Purse

/-! ### The gate shows its purse -/

/-- The gate has the activity and the configuration of the purse, and counts its tokens. -/
structure Shows (gate : Gate) (purse : Purse) : Prop where
  active : gate.armActive = purse.active
  config : gate.config = purse.config
  balance : gate.creditBalanceReq = purse.tokens.length

section Shows

variable {gate : Gate} {purse : Purse}

theorem configChanged_iff (delayNs number : Option ℤ) :
    gate.configChanged delayNs number = true ↔ gate.config.set delayNs number ≠ gate.config := by
  simp only [Gate.configChanged, ArmConfig.set, Gate.config, Bool.or_eq_true, bne_iff_ne, ne_eq,
    ArmConfig.mk.injEq, not_and_or]

/-- A section does to the gate what it does to its purse. -/
theorem Shows.apply (shows : Shows gate purse) {code : Critical} (positive : code.Positive) :
    Shows (code.apply gate) (purse.apply code) := by
  obtain ⟨active, config, balance⟩ := shows
  cases code with
  | consumeCreditToken =>
      show Shows gate.consumeCreditToken _
      unfold Gate.consumeCreditToken
      split
      · rename_i available
        refine ⟨active, config, ?_⟩
        show gate.creditBalanceReq - 1 = (purse.tokens.tail.length : ℤ)
        rw [List.length_tail]
        omega
      · rename_i missing
        refine ⟨active, config, ?_⟩
        show gate.creditBalanceReq = (purse.tokens.tail.length : ℤ)
        rw [List.length_tail]
        omega
  | refillOk refill =>
      refine ⟨active, config, ?_⟩
      have tokens : 0 < refill.tokensReq := positive
      show gate.creditBalanceReq + refill.tokensReq = ((purse.tokens ++ _ : List _).length : ℤ)
      rw [List.length_append, List.length_replicate]
      omega
  | setArmActive on =>
      cases on with
      | false => exact ⟨rfl, config, rfl⟩
      | true => exact ⟨rfl, config, balance⟩
  | setArmConfig delayNs number =>
      have set : (gate.setArmConfig delayNs number).armActive = gate.armActive ∧
          (gate.setArmConfig delayNs number).config = gate.config.set delayNs number := by
        unfold Gate.setArmConfig
        split <;> exact ⟨rfl, rfl⟩
      refine ⟨set.1.trans active, set.2.trans (by rw [config]; rfl), ?_⟩
      show (gate.setArmConfig delayNs number).creditBalanceReq = ((ite _ _ _ : List _).length : ℤ)
      rw [← config]
      unfold Gate.setArmConfig
      by_cases changed : gate.config.set delayNs number = gate.config
      · rw [if_pos changed, if_neg fun other => (configChanged_iff _ _).mp other changed]
        exact balance
      · rw [if_neg changed, if_pos ((configChanged_iff _ _).mpr changed)]
        rfl
  | _ => exact ⟨active, config, balance⟩

end Shows

/-! ### The programs add tokens only -/

section Programs

open Program

theorem Critical.Quiet.positive {code : Critical} (quiet : code.Quiet) : code.Positive := by
  cases code with
  | refillOk refill => cases quiet
  | _ => trivial

variable {cfg : Config}

/-- A refill section is reached by a refill that was asked for tokens. -/
theorem own_performs :
    Performs cfg Critical.Positive fun _ program =>
      program.Only Critical.Positive (Call.Own cfg) :=
  { only_refills (fun plain => plain.quiet.positive) (fun _ positive => positive) with
    quiet := fun quiet => quiet.positive }

end Programs

/-! ### Runs -/

/-- The purse of a gate after the sections of a run. -/
def purseOf (cfg : Config) (gate : Gate) (moves : List GateMove) : Purse :=
  (trace (step cfg) Pool.sections (Pool.init gate) moves).foldl
    (fun purse code => purse.apply code) (Purse.ofGate gate)

/-- A refill section finds the configuration that its refill was armed with, in an active gate. -/
def RefillCurrent (pool : GatePool) (move : GateMove) : Prop :=
  ∀ code ∈ pool.sections move, code.Current pool.shared.armActive pool.shared.config

/-- An inactive gate has no tokens, and the tokens of the balance were armed with the gate's
configuration. -/
structure TokensCurrent (cfg : Config) (gate : Gate) (past : List GateMove) (pool : GatePool) :
    Prop where
  counted : pool.shared.creditBalanceReq = (purseOf cfg gate past).tokens.length
  idle : pool.shared.armActive = false → pool.shared.creditBalanceReq = 0
  current : ∀ token ∈ (purseOf cfg gate past).tokens, token = pool.shared.config

section Runs

variable {cfg : Config} {gate : Gate} {past : List GateMove} {pool next : GatePool}
  {move : GateMove}

theorem Shows.foldl {codes : List Critical} (positive : ∀ code ∈ codes, code.Positive) :
    ∀ {gate : Gate} {purse : Purse}, Shows gate purse →
      Shows (codes.foldl (fun gate code => code.apply gate) gate)
        (codes.foldl (fun purse code => purse.apply code) purse) := by
  induction codes with
  | nil => exact fun shows => shows
  | cons code rest ih =>
      intro gate purse shows
      exact ih (fun later member => positive later (List.mem_cons_of_mem _ member))
        (shows.apply (positive code List.mem_cons_self))

theorem positive_of_run (ran : run (step cfg) (Pool.init gate) past = some pool) :
    pool.Only Critical.Positive (Call.Own cfg) ∧
      ∀ code ∈ trace (step cfg) Pool.sections (Pool.init gate) past, code.Positive :=
  Pool.only_of_run own_performs.start (by rintro _ _ ⟨⟩) ran

theorem shows_of_run (empty : gate.creditBalanceReq = 0)
    (ran : run (step cfg) (Pool.init gate) past = some pool) :
    Shows pool.shared (purseOf cfg gate past) := by
  have start : Shows gate (Purse.ofGate gate) := ⟨rfl, rfl, empty⟩
  rw [Pool.shared_of_run ran]
  exact start.foldl (positive_of_run ran).2

/-- The tokens are current exactly if the purse is sound. -/
theorem tokensCurrent_iff (shows : Shows pool.shared (purseOf cfg gate past)) :
    TokensCurrent cfg gate past pool ↔ (purseOf cfg gate past).Sound := by
  constructor
  · rintro ⟨counted, idle, current⟩
    refine ⟨fun inactive => ?_, fun token member => ?_⟩
    · have balance := idle (shows.active.trans inactive)
      rw [counted] at balance
      exact List.eq_nil_of_length_eq_zero (by omega)
    · exact (current token member).trans shows.config
  · rintro ⟨idle, current⟩
    refine ⟨shows.balance, fun inactive => ?_, fun token member => ?_⟩
    · rw [shows.balance, idle (shows.active.symm.trans inactive)]
      rfl
    · exact (current token member).trans shows.config.symm

/-- In every state of a run the tokens are current exactly if every refill section of the run finds
the configuration that its refill was armed with, in an active gate. -/
theorem tokens_current_iff {moves : List GateMove} {final : GatePool}
    (empty : gate.creditBalanceReq = 0)
    (ran : run (step cfg) (Pool.init gate) moves = some final) :
    Throughout (step cfg) (TokensCurrent cfg gate) (Pool.init gate) moves ↔
      Guarded (step cfg) (fun _ => RefillCurrent) (Pool.init gate) moves := by
  refine throughout_iff ?_ ?_ ran
  · refine (tokensCurrent_iff ⟨rfl, rfl, empty⟩).mpr ⟨fun _ => rfl, ?_⟩
    rintro token ⟨⟩
  · intro past pool move next before current moved
    have shows := shows_of_run empty before
    have later := shows_of_run empty (run_concat_iff.mpr ⟨pool, before, moved⟩)
    have sound := (tokensCurrent_iff shows).mp current
    rw [tokensCurrent_iff later]
    unfold purseOf RefillCurrent at *
    rw [trace_concat before, List.foldl_append, shows.active, shows.config]
    have positive := (positive_of_run before).1
    cases Pool.effect_of_step moved with
    | @ran thread code rest here =>
        simp only [Pool.sections, here, List.foldl_cons, List.foldl_nil, List.mem_singleton,
          forall_eq]
        exact Purse.sound_apply_iff sound (positive _ _ here).1
    | _ => simpa [Pool.sections] using sound

end Runs

/-- The refill configuration of the defaults. -/
def sampleConfig : Config where
  refill := RefillConfig.normalize 16 4 8

/-- An active gate. -/
def sampleGate : Gate :=
  Gate.init true 10 1 ⟨"default", "pod", "app"⟩

/-- The clock stands still and every arm is answered ok. -/
def okReply : (request : Call) → Answer request
  | .time => (0 : ℚ)
  | .arm _ => some (⟨true, some 200, "ok"⟩ : ArmResult)

/-- An active gate that was given a count of 4300 digits. -/
def longGate : Gate :=
  Gate.init true 10 (9 * 10 ^ 4299 : ℕ) ⟨"default", "pod", "app"⟩

/-- `json.dumps` writes no number of more than 4300 digits. -/
def Call.tooLong : Call → Bool
  | .time => false
  | .arm request => 10 ^ 4300 ≤ request.delayNs.natAbs || 10 ^ 4300 ≤ request.count.natAbs

/-- The exception that it raises for the credits of such a refill. -/
def raisingReply : (request : Call) → Answer request
  | .time => (1 : ℚ)
  | .arm _ => none

/-- The refill worker finds no tokens and sends an arm request. -/
def refillSent : List GateMove :=
  [.start 0 .refillWorkerTurn, .answer 0 okReply, .critical 0, .critical 0, .critical 0,
    .answer 0 okReply, .critical 0]

/-- The request is answered and the tokens are added. -/
def refillAnswered : List GateMove :=
  [.answer 0 okReply, .critical 0, .critical 0]

/-- The hypotheses of `tokens_current_iff` are met by one refill. -/
theorem tokens_current_iff_sample : ∃ final,
    run (step sampleConfig) (Pool.init sampleGate) (refillSent ++ refillAnswered) = some final ∧
      (Throughout (step sampleConfig) (TokensCurrent sampleConfig sampleGate)
          (Pool.init sampleGate) (refillSent ++ refillAnswered) ↔
        Guarded (step sampleConfig) (fun _ => RefillCurrent) (Pool.init sampleGate)
          (refillSent ++ refillAnswered)) :=
  ⟨_, rfl, tokens_current_iff rfl rfl⟩

/-- The gate is disabled while the request is in flight: its tokens are added afterwards. -/
theorem refill_credits_disabled_gate : ∃ final,
    run (step sampleConfig) (Pool.init sampleGate) (refillSent ++
      [.start 1 (.setEnabled false none none), .critical 1, .critical 1] ++ refillAnswered) =
        some final ∧
      final.shared.armActive = false ∧ final.shared.creditBalanceReq = 16 :=
  ⟨_, rfl, rfl, rfl⟩

end Mcoz.PyGate
