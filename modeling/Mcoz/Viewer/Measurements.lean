/-
The entries of a profile, and what a measurement adds to them.

The arithmetic is a parameter of the definitions. In exact arithmetic the running average of a latency entry
is the average of the differences weighted by the durations (`foldl_addMeasurement`), whatever the order of
the measurements (`latency_weighted`).
-/

import Mathlib.Algebra.BigOperators.Group.List.Basic
import Mathlib.Algebra.Order.BigOperators.Group.List
import Mathlib.Algebra.Order.Field.Rat
import Mathlib.Data.List.Induction
import Mathlib.Tactic.FieldSimp
import Mathlib.Tactic.Linarith
import Mathlib.Tactic.Ring

set_option autoImplicit false

namespace Mcoz.Viewer

/-! ### Records -/

/-- `Experiment`. -/
structure Experiment (V : Type) where
  selected : String
  speedup : String
  duration : V
deriving DecidableEq

/-- `ThroughputPoint`. -/
structure ThroughputPoint (V : Type) where
  name : String
  delta : V
deriving DecidableEq

/-- `LatencyPoint`. -/
structure LatencyPoint (V : Type) where
  name : String
  arrivals : V
  departures : V
  difference : V
deriving DecidableEq

/-! ### Entries -/

/-- The properties of a `LatencyData`. -/
structure LatencyData (V : Type) where
  arrivals : V
  departures : V
  difference : V
  duration : V
deriving DecidableEq

section Addition

variable {V : Type} [Add V] [Mul V] [Div V] [Zero V] [DecidableEq V]

/-- The initial value that `addLatencyMeasurement` gives to an entry. -/
def LatencyData.initial : LatencyData V :=
  ⟨0, 0, 0, 0⟩

/-- What `addLatencyMeasurement` does with the entry. -/
def LatencyData.addMeasurement (entry : LatencyData V) (experimentDuration : V) (point : LatencyPoint V) :
    LatencyData V where
  arrivals := entry.arrivals + point.arrivals
  departures := entry.departures + point.departures
  difference :=
    if entry.duration = 0 then point.difference
    else
      let totalDuration := entry.duration + experimentDuration
      entry.difference * (entry.duration / totalDuration) +
        point.difference * experimentDuration / totalDuration
  duration := entry.duration + experimentDuration

end Addition

/-! ### The average -/

section Average

variable {measurements : List (ℚ × LatencyPoint ℚ)}

/-- The latency measurements, with the durations of their experiments, in one entry. -/
def latencyEntry (measurements : List (ℚ × LatencyPoint ℚ)) : LatencyData ℚ :=
  measurements.foldl (fun entry measurement => entry.addMeasurement measurement.1 measurement.2) .initial

/-- The durations of the experiments. -/
def totalDuration (measurements : List (ℚ × LatencyPoint ℚ)) : ℚ :=
  (measurements.map fun measurement => measurement.1).sum

/-- The differences, each as often as its experiment lasted. -/
def weightedDifference (measurements : List (ℚ × LatencyPoint ℚ)) : ℚ :=
  (measurements.map fun measurement => measurement.2.difference * measurement.1).sum

/-- A measurement adds its weighted difference to that of the entry. -/
theorem difference_addMeasurement {entry : LatencyData ℚ} {experimentDuration : ℚ} {point : LatencyPoint ℚ}
    (past : 0 ≤ entry.duration) (now : 0 ≤ experimentDuration) :
    (entry.addMeasurement experimentDuration point).difference * (entry.duration + experimentDuration) =
      entry.difference * entry.duration + point.difference * experimentDuration := by
  by_cases first : entry.duration = 0
  · simp [LatencyData.addMeasurement, first]
  · have total : entry.duration + experimentDuration ≠ 0 := by
      have positive : 0 < entry.duration := lt_of_le_of_ne past (Ne.symm first)
      linarith
    rw [LatencyData.addMeasurement]
    simp only [if_neg first]
    field_simp

/-- **The entry of the measurements so far**: counts and durations are summed, and the difference times the
total duration is the sum of the weighted differences. -/
theorem latencyEntry_spec (durations : ∀ measurement ∈ measurements, 0 ≤ measurement.1) :
    (latencyEntry measurements).arrivals = (measurements.map fun measurement => measurement.2.arrivals).sum ∧
    (latencyEntry measurements).departures =
      (measurements.map fun measurement => measurement.2.departures).sum ∧
    (latencyEntry measurements).duration = totalDuration measurements ∧
    (latencyEntry measurements).difference * totalDuration measurements = weightedDifference measurements := by
  induction measurements using List.reverseRecOn with
  | nil => simp [latencyEntry, LatencyData.initial, totalDuration, weightedDifference]
  | append_singleton earlier last ih =>
      have past : ∀ measurement ∈ earlier, 0 ≤ measurement.1 :=
        fun measurement among => durations measurement (List.mem_append_left _ among)
      have now : 0 ≤ last.1 := durations last (by simp)
      obtain ⟨arrivals, departures, duration, difference⟩ := ih past
      have added : latencyEntry (earlier ++ [last]) = (latencyEntry earlier).addMeasurement last.1 last.2 := by
        rw [latencyEntry, List.foldl_append]
        rfl
      have total : totalDuration (earlier ++ [last]) = (latencyEntry earlier).duration + last.1 := by
        rw [duration]
        simp [totalDuration]
      have before : 0 ≤ (latencyEntry earlier).duration := by
        rw [duration, totalDuration]
        exact List.sum_nonneg (by simpa using past)
      refine ⟨?_, ?_, ?_, ?_⟩
      · rw [added]
        simp [LatencyData.addMeasurement, arrivals]
      · rw [added]
        simp [LatencyData.addMeasurement, departures]
      · rw [added, total]
        rfl
      · rw [added, total, difference_addMeasurement before now, duration, difference]
        simp [weightedDifference]

/-- The whole entry, as soon as an experiment had a duration. -/
theorem latencyEntry_eq (durations : ∀ measurement ∈ measurements, 0 ≤ measurement.1)
    (positive : 0 < totalDuration measurements) :
    latencyEntry measurements =
      { arrivals := (measurements.map fun measurement => measurement.2.arrivals).sum
        departures := (measurements.map fun measurement => measurement.2.departures).sum
        difference := weightedDifference measurements / totalDuration measurements
        duration := totalDuration measurements } := by
  obtain ⟨arrivals, departures, duration, difference⟩ := latencyEntry_spec durations
  have average := eq_div_of_mul_eq positive.ne' difference
  cases entry : latencyEntry measurements
  rw [entry] at arrivals departures duration average
  simp only at arrivals departures duration average
  rw [arrivals, departures, duration, average]

/-- **The difference of an entry is the weighted average** of the differences, and the entry does not depend
on the order of the measurements. -/
theorem latency_weighted (durations : ∀ measurement ∈ measurements, 0 ≤ measurement.1)
    (positive : 0 < totalDuration measurements) :
    (latencyEntry measurements).difference =
        (measurements.map fun measurement => measurement.2.difference * measurement.1).sum /
          (measurements.map fun measurement => measurement.1).sum ∧
      ∀ others, others.Perm measurements → latencyEntry others = latencyEntry measurements := by
  refine ⟨by rw [latencyEntry_eq durations positive]; rfl, fun others order => ?_⟩
  have same : totalDuration others = totalDuration measurements := (order.map _).sum_eq
  have weights : weightedDifference others = weightedDifference measurements := (order.map _).sum_eq
  have durations' : ∀ measurement ∈ others, 0 ≤ measurement.1 :=
    fun measurement among => durations measurement (order.subset among)
  rw [latencyEntry_eq durations positive, latencyEntry_eq durations' (same ▸ positive), same, weights,
    (order.map fun measurement => measurement.2.arrivals).sum_eq,
    (order.map fun measurement => measurement.2.departures).sum_eq]

/-- An experiment without a duration, and one that lasted twice as long as the last. -/
def sampleMeasurements : List (ℚ × LatencyPoint ℚ) :=
  [(0, ⟨"p", 1, 1, 9⟩), (2, ⟨"p", 1, 1, 3⟩), (1, ⟨"p", 1, 1, 6⟩)]

theorem latency_weighted_sample :
    (latencyEntry sampleMeasurements).difference = 12 / 3 ∧
      latencyEntry sampleMeasurements.reverse = latencyEntry sampleMeasurements := by
  obtain ⟨average, any⟩ := @latency_weighted sampleMeasurements
    (by simp [sampleMeasurements]) (by norm_num [totalDuration, sampleMeasurements])
  exact ⟨average.trans (by norm_num [sampleMeasurements]), any _ (List.reverse_perm _)⟩

end Average

end Mcoz.Viewer
