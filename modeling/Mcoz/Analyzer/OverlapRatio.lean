/-
The ratio of an overlap and a duration.

The overlap of two services is a sum over pairs of client spans, so that an instant counts once for each pair that
is active then, and also when the service itself is not. The duration counts the instants of the service, each
once. So the overlap is a part of the two services exactly if at each instant that it counts, one pair is active and
both services are (`overlap_part_iff`). Then the ratio is at most 1; else it can be 2 (`ratio_two`), and is more than 1
unless the instants of the services at which no pair is active make up for the rest (`ratios_spec`).
-/

import Mcoz.Analyzer.SiblingRelation
import Mathlib.Algebra.Order.Field.Basic

set_option autoImplicit false

namespace Mcoz.Analyzer

open Instants

/-- The instants at which both spans of a pair are active. -/
def pairInstants (pair : SpanRecord × SpanRecord) : Finset ℤ :=
  instants pair.1.interval ∩ instants pair.2.interval

/-- The instants at which some pair is active. -/
def sharedInstants (pairs : List (SpanRecord × SpanRecord)) : Finset ℤ :=
  pairs.toFinset.biUnion pairInstants

/-- The number of pairs that are active at an instant. -/
def activePairs (pairs : List (SpanRecord × SpanRecord)) (instant : ℤ) : ℕ :=
  pairs.countP fun pair => instant ∈ pairInstants pair

/-- An instant counts once: when a pair is active, then no other is, and both services are. -/
def CountedOnce (pairs : List (SpanRecord × SpanRecord)) (own other : Finset ℤ) : Prop :=
  ∀ instant ∈ sharedInstants pairs, activePairs pairs instant = 1 ∧ instant ∈ own ∩ other

instance (pairs : List (SpanRecord × SpanRecord)) (own other : Finset ℤ) : Decidable (CountedOnce pairs own other) :=
  inferInstanceAs (Decidable (∀ _ ∈ _, _))

section Parts

variable {pairs : List (SpanRecord × SpanRecord)} {own other : Finset ℤ} {instant : ℤ}

theorem mem_sharedInstants : instant ∈ sharedInstants pairs ↔ ∃ pair ∈ pairs, instant ∈ pairInstants pair := by
  simp [sharedInstants]

theorem activePairs_eq_zero_iff : activePairs pairs instant = 0 ↔ instant ∉ sharedInstants pairs := by
  rw [activePairs, List.countP_eq_zero, mem_sharedInstants]
  simp

/-- The overlaps count each instant as often as pairs are active. -/
theorem pairsOverlap_eq {window : Finset ℤ} (inside : sharedInstants pairs ⊆ window) :
    pairsOverlap pairs = (∑ instant ∈ window, activePairs pairs instant : ℕ) := by
  have sizes : pairsOverlap pairs = ((pairs.map fun pair => (pairInstants pair).card).sum : ℕ) := by
    rw [pairsOverlap, Nat.cast_list_sum, List.map_map]
    exact congrArg List.sum (List.map_congr_left fun pair _ => spanPairOverlapUs_eq)
  have within : ∀ pair ∈ pairs, pairInstants pair ⊆ window :=
    fun pair among instant here => inside (mem_sharedInstants.mpr ⟨pair, among, here⟩)
  rw [sizes, sum_card_eq within]
  rfl

/-- **The overlap is a part of both services** exactly if every instant counts once. -/
theorem overlap_part_iff :
    pairsOverlap pairs = (sharedInstants pairs ∩ (own ∩ other)).card ↔ CountedOnce pairs own other := by
  have size : (sharedInstants pairs ∩ (own ∩ other)).card =
      ∑ instant ∈ sharedInstants pairs, if instant ∈ own ∩ other then 1 else 0 := by
    rw [Finset.sum_boole, Finset.filter_mem_eq_inter, Nat.cast_id]
  have active : ∀ instant ∈ sharedInstants pairs, 0 < activePairs pairs instant :=
    fun instant here => Nat.pos_of_ne_zero fun idle => activePairs_eq_zero_iff.mp idle here
  have least : ∀ instant ∈ sharedInstants pairs,
      (if instant ∈ own ∩ other then 1 else 0) ≤ activePairs pairs instant := by
    intro instant here
    have := active instant here
    split <;> omega
  rw [pairsOverlap_eq subset_rfl, Nat.cast_inj, size, eq_comm, Finset.sum_eq_sum_iff_of_le least]
  refine forall₂_congr fun instant here => ?_
  have := active instant here
  split
  · rename_i inside
    rw [and_iff_left inside, eq_comm]
  · rename_i outside
    exact iff_of_false (by omega) fun both => outside both.2

theorem CountedOnce.overlap_le (once : CountedOnce pairs own other) :
    pairsOverlap pairs ≤ min (own.card : ℤ) other.card := by
  have part : sharedInstants pairs ∩ (own ∩ other) ⊆ own ∩ other := Finset.inter_subset_right
  have first := Finset.card_le_card (part.trans Finset.inter_subset_left)
  have second := Finset.card_le_card (part.trans Finset.inter_subset_right)
  rw [overlap_part_iff.mpr once]
  omega

end Parts

/-! ### Ratios -/

section Ratios

variable {text : TextMethods} {spans : List SpanRecord} {spanById : List (String × SpanRecord)}
  {minOverlapMs : Js.Number} {minOverlapUs overlapUs : ℤ} {first second : String} {ratio : ℚ}
  {facts : List (String × String × ℤ × ℚ)}

/-- A ratio is at least 0, and at most 1 if the overlap is at most the shorter duration, up to the rounding. -/
theorem ratioOf_bounds {duration duration' : ℤ} (positive : 0 ≤ overlapUs)
    (quotient : ratioOf overlapUs duration duration' = some ratio) :
    0 ≤ ratio ∧ (ratio ≤ 1 ↔ min duration duration' ≤ 0 ∨
      (overlapUs - min duration duration') * 2 ^ 53 ≤ min duration duration') := by
  obtain ⟨shorter, named⟩ : ∃ shorter, shorter = min duration duration' := ⟨_, rfl⟩
  rw [← named]
  unfold ratioOf at quotient
  rw [← named] at quotient
  split at quotient
  · rename_i lasts
    have overlap : (0 : ℚ) ≤ overlapUs := by exact_mod_cast positive
    have denominator : (0 : ℚ) < shorter := by exact_mod_cast lasts
    split at quotient
    · rename_i rounded double
      obtain rfl := Option.some.inj quotient
      have part := div_nonneg overlap denominator.le
      refine ⟨Js.toDouble_nonneg part double, (Js.toDouble_le_one_iff part double).trans ?_⟩
      rw [or_iff_right (not_le.mpr lasts), div_le_iff₀ denominator, add_mul, one_mul, one_div_mul_eq_div,
        ← sub_le_iff_le_add', le_div_iff₀ (by positivity)]
      exact_mod_cast Iff.rfl
    · cases quotient
  · rename_i upright
    obtain rfl := Option.some.inj quotient
    exact ⟨le_rfl, iff_of_true zero_le_one (.inl (not_lt.mp upright))⟩

/-- **The ratios of a trace are ratios** if for any two services with pairs that count, every instant counts once or
one of them has no instants. This is exactly when the overlap is a part of both services; and a ratio is at most 1
exactly if the overlap exceeds the shorter duration by at most 2^-53 of it. -/
theorem ratios_spec (whole : wholeMicroseconds minOverlapMs = some minOverlapUs)
    (returned : traceFacts text spans spanById minOverlapMs = some facts) :
    ((∀ first second, first ≠ second →
        countingPairs (clientService text spans) spans minOverlapUs first second ≠ [] →
          (busy text spans first = ∅ ∨ busy text spans second = ∅) ∨
            CountedOnce (countingPairs (clientService text spans) spans minOverlapUs first second)
              (busy text spans first) (busy text spans second)) →
      ∀ first second overlapUs ratio, (first, second, overlapUs, ratio) ∈ facts → 0 ≤ ratio ∧ ratio ≤ 1) ∧
    ∀ first second overlapUs ratio, (first, second, overlapUs, ratio) ∈ facts →
      (overlapUs = (sharedInstants (countingPairs (clientService text spans) spans minOverlapUs first second) ∩
          (busy text spans first ∩ busy text spans second)).card ↔
        CountedOnce (countingPairs (clientService text spans) spans minOverlapUs first second)
          (busy text spans first) (busy text spans second)) ∧
      0 ≤ ratio ∧ (ratio ≤ 1 ↔ (busy text spans first = ∅ ∨ busy text spans second = ∅) ∨
        (overlapUs - min ((busy text spans first).card : ℤ) (busy text spans second).card) * 2 ^ 53 ≤
          min ((busy text spans first).card : ℤ) (busy text spans second).card) := by
  have each (first second : String) (overlapUs : ℤ) (ratio : ℚ) (reported : (first, second, overlapUs, ratio) ∈ facts) :
      0 ≤ ratio ∧ (ratio ≤ 1 ↔ (busy text spans first = ∅ ∨ busy text spans second = ∅) ∨
        (overlapUs - min ((busy text spans first).card : ℤ) (busy text spans second).card) * 2 ^ 53 ≤
          min ((busy text spans first).card : ℤ) (busy text spans second).card) := by
    obtain ⟨-, rfl, quotient⟩ := (mem_facts whole returned).mp reported
    have idle : min ((busy text spans first).card : ℤ) (busy text spans second).card ≤ 0 ↔
        busy text spans first = ∅ ∨ busy text spans second = ∅ := by
      rw [← Finset.card_eq_zero, ← Finset.card_eq_zero]
      omega
    rw [← idle]
    exact ratioOf_bounds pairsOverlap_nonneg quotient
  refine ⟨fun once first second overlapUs ratio reported => ?_, fun first second overlapUs ratio reported => ?_⟩
  · obtain ⟨⟨different, paired⟩, rfl, -⟩ := (mem_facts whole returned).mp reported
    obtain ⟨least, most⟩ := each first second _ ratio reported
    refine ⟨least, most.mpr ((once first second different paired).imp_right fun single => ?_)⟩
    have below := single.overlap_le
    omega
  · refine ⟨?_, each first second overlapUs ratio reported⟩
    obtain ⟨-, rfl, -⟩ := (mem_facts whole returned).mp reported
    exact overlap_part_iff

end Ratios

/-- A service that only calls lead to has their instants. -/
theorem busy_of_calls {text : TextMethods} {spans : List SpanRecord} {service : String}
    (absent : spans.all fun span => span.serviceName ≠ service) : busy text spans service =
      covered ((spans.filter fun span => span.kind = "client" ∧ downstream text spans span = service).map
        SpanRecord.interval) := by
  have other : ∀ span ∈ spans, span.serviceName ≠ service :=
    fun span among => of_decide_eq_true (List.all_eq_true.mp absent span among)
  have server : (spans.filter fun span => span.serviceName = service ∧ span.kind = "server") = [] :=
    List.filter_eq_nil_iff.mpr fun span among both => other span among (of_decide_eq_true both).1
  have own : (spans.filter fun span => span.serviceName = service) = [] :=
    List.filter_eq_nil_iff.mpr fun span among same => other span among (of_decide_eq_true same)
  rw [busy, server, own]
  rfl

/-- Two calls one after the other of one service, and one of another below both. -/
def pairedCalls : List SpanRecord :=
  [call "a" "cart" 0 10, call "b" "cart" 10 20, call "c" "stock" 5 15]

/-- Two calls of one service and one of another, all at a time. -/
def threeCalls : List SpanRecord :=
  [call "a" "cart" 0 10, call "b" "cart" 0 10, call "c" "stock" 0 10]

/-- Without a threshold every overlap counts. -/
theorem wholeMicroseconds_zero : wholeMicroseconds (.finite 0) = some 0 := by
  have product : (Js.Number.finite 0 * Js.Number.finite 1000 : Js.Number) = Js.Number.finite (0 : ℕ) := by
    show Js.toDouble (0 * 1000) = _
    rw [zero_mul, ← Nat.cast_zero]
    exact Js.toDouble_natCast (by norm_num)
  have positive : Js.Number.lt (.finite 0) 0 = false := decide_eq_false (lt_irrefl (0 : ℚ))
  rw [wholeMicroseconds, positive, if_neg Bool.false_ne_true, product]
  rfl

section Childless

variable {spans : List SpanRecord}

/-- Spans that go by their peers. -/
def byPeer (spans : List SpanRecord) : Bool :=
  spans.all fun span => spans.all (fun child => child.parentKey ≠ span.spanId) &&
    (normalizePeerServiceName plainText span.peer).join.getD "unknown-service" = span.peer

theorem downstream_byPeer (each : byPeer spans = true) :
    ∀ span ∈ spans, downstream plainText spans span = span.peer := by
  intro span among
  obtain ⟨childless, named⟩ := Bool.and_eq_true_iff.mp (List.all_eq_true.mp each span among)
  exact (downstream_of_childless childless).trans (of_decide_eq_true named)

theorem countingPairs_byPeer (each : byPeer spans = true) (distinct : (spans.map SpanRecord.spanId).Nodup)
    {minOverlapUs : ℤ} {first second : String} :
    countingPairs (clientService plainText spans) spans minOverlapUs first second =
      countingPairs SpanRecord.peer spans minOverlapUs first second :=
  countingPairs_congr fun span among client =>
    (clientService_eq distinct among client).trans (downstream_byPeer each span among)

theorem busy_byPeer (each : byPeer spans = true) {service : String}
    (absent : spans.all fun span => span.serviceName ≠ service) : busy plainText spans service =
      covered ((spans.filter fun span => span.kind = "client" ∧ span.peer = service).map SpanRecord.interval) := by
  rw [busy_of_calls absent]
  refine congrArg (fun spans => covered (List.map SpanRecord.interval spans)) (List.filter_congr fun span among => ?_)
  rw [downstream_byPeer each span among]

end Childless

theorem ratios_spec_calls : ∃ facts, traceFacts plainText pairedCalls [] (.finite 0) = some facts ∧
    ∀ first second overlapUs ratio, (first, second, overlapUs, ratio) ∈ facts → 0 ≤ ratio ∧ ratio ≤ 1 := by
  have small : Analyzable plainText pairedCalls 0 :=
    analyzable_of_le (fun _ _ _ unparsable => Bool.false_ne_true unparsable.2.2) (by decide +kernel)
  obtain ⟨facts, returned⟩ := (@exists_traceFacts_iff _ _ [] _).mpr ⟨0, wholeMicroseconds_zero, small⟩
  have each : byPeer pairedCalls = true := by decide +kernel
  refine ⟨facts, returned, (ratios_spec wholeMicroseconds_zero returned).1 fun first second different paired => .inr ?_⟩
  rw [countingPairs_byPeer each (by decide)] at paired ⊢
  obtain ⟨left, among, right, among', counts⟩ := countingPairs_ne_nil_iff.mp paired
  obtain ⟨-, -, ⟨rfl, rfl⟩, -⟩ := counts
  have once : ∀ left ∈ pairedCalls, ∀ right ∈ pairedCalls, left.peer ≠ right.peer →
      CountedOnce (countingPairs SpanRecord.peer pairedCalls 0 left.peer right.peer)
        (covered ((pairedCalls.filter fun span => span.kind = "client" ∧ span.peer = left.peer).map SpanRecord.interval))
        (covered ((pairedCalls.filter fun span => span.kind = "client" ∧ span.peer = right.peer).map
          SpanRecord.interval)) := by decide +kernel
  have absent : ∀ span ∈ pairedCalls, (pairedCalls.all fun other => other.serviceName ≠ span.peer) = true := by decide
  rw [busy_byPeer each (absent left among), busy_byPeer each (absent right among')]
  exact once left among right among' different

/-- Two pairs of calls overlap for 20 microseconds, of the 10 of each service. -/
theorem ratio_two : ∃ facts, traceFacts plainText threeCalls [] (.finite 0) = some facts ∧
    ("cart", "stock", 20, 2) ∈ facts ∧ ¬ (0 ≤ (2 : ℚ) ∧ (2 : ℚ) ≤ 1) := by
  have small : Analyzable plainText threeCalls 0 :=
    analyzable_of_le (fun _ _ _ unparsable => Bool.false_ne_true unparsable.2.2) (by decide +kernel)
  obtain ⟨facts, returned⟩ := (@exists_traceFacts_iff _ _ [] _).mpr ⟨0, wholeMicroseconds_zero, small⟩
  have each : byPeer threeCalls = true := by decide +kernel
  have quotient : ratioOf 20 10 10 = some 2 := by
    have double := Js.toDouble_natCast (show 2 < 2 ^ 53 by norm_num)
    rw [ratioOf, if_pos (by decide), min_self, show ((20 : ℤ) : ℚ) / (10 : ℤ) = (2 : ℕ) by norm_num, double]
    rfl
  have cart : (busy plainText threeCalls "cart").card = 10 := by
    rw [busy_byPeer each (by decide)]
    decide +kernel
  have stock : (busy plainText threeCalls "stock").card = 10 := by
    rw [busy_byPeer each (by decide)]
    decide +kernel
  refine ⟨facts, returned, (mem_facts wholeMicroseconds_zero returned).mpr ?_, by decide⟩
  rw [countingPairs_byPeer each (by decide), cart, stock]
  exact ⟨⟨by decide, by decide +kernel⟩, by decide +kernel, quotient⟩

end Mcoz.Analyzer
