/-
The series of the plots.

For each line and each enabled progress point `getSpeedupData` compares the measurement of every speedup with that of
no speedup. A series that is drawn at all begins with the baseline: no progress speedup for no line speedup, as
`drawPlots` takes for granted when it sets the first smoothed value to zero. A session of clicks on the legend and
moves of the slider keeps at least one progress point enabled, and every drawing shows the enabled points only
(`drawings_sound`).
-/

import Mcoz.Lib.JsArithmetic
import Mcoz.Lib.Machine
import Mcoz.Viewer.Aggregation
import Mathlib.Data.List.Lex

set_option autoImplicit false

namespace Mcoz.Viewer

open Js Machine

namespace Speedups

/-! ### The data -/

/-- The own properties of an object, in the order of `for ... in`. -/
abbrev Members (α : Type) := List (String × α)

/-- A property. -/
def Members.lookup {α : Type} (own : Members α) (name : String) : Option α :=
  (own.find? fun member => member.1 == name).map fun member => member.2

/-- The measurements of a progress point, by speedups. -/
abbrev PointData := Members (ExperimentData Number)

/-- `_data`. -/
abbrev ProfileData := Members (Members PointData)

/-- `Measurement`. -/
structure Measurement where
  speedup : Number
  progressSpeedup : Number
deriving DecidableEq

/-- `Point`. -/
structure Series where
  name : String
  measurements : List Measurement

/-- `ExperimentResult`. -/
structure ExperimentResult where
  name : String
  progressPoints : List Series

/-! ### The functions of the page -/

/-- `isValidDataPoint`. -/
def isValidDataPoint : Number → Bool
  | .finite _ => true
  | .nan => false
  | .infinite _ => false

/-- `getDataPoint`. -/
def getDataPoint (data : ExperimentData Number) : Number :=
  if data.latency.duration.lt 0 then .nan
  else
    match data.type with
    | .throughput => data.latency.duration / data.delta
    | .latency =>
        let arrivalRate := data.latency.arrivals / data.latency.duration
        data.latency.difference / arrivalRate

/-- `shouldMaximize`. -/
def shouldMaximize (data : ExperimentData Number) : Bool :=
  match data.type with
  | .latency => false
  | .throughput => true

/-- `progress_speedup`. -/
def progressSpeedup (baselineDataPoint dataPoint : Number) (maximize : Bool) : Number :=
  let progress := (baselineDataPoint - dataPoint) / baselineDataPoint
  if maximize then progress else -progress

/-- One turn of the loop over the speedups, whose names are made numbers (`numberOf`). -/
def measure (numberOf : String → Number) (baselineDataPoint : Number) (maximize : Bool)
    (entry : String × ExperimentData Number) : Option Measurement :=
  if isValidDataPoint (getDataPoint entry.2) then
    let progress := progressSpeedup baselineDataPoint (getDataPoint entry.2) maximize
    if (Number.finite (-1)).le progress ∧ progress.le (.finite 2) then some ⟨numberOf entry.1, progress⟩ else none
  else none

/-- `a.speedup - b.speedup` is not positive. -/
def bySpeedup (first second : Measurement) : Bool :=
  !second.speedup.lt first.speedup

/-- The measurements of a progress point, if there are enough. -/
def enoughMeasurements (numberOf : String → Number) (minPoints : Number) (pointData : Option PointData) :
    Option (List Measurement) := do
  let data ← pointData
  let baseline ← data.lookup "0"
  if !isValidDataPoint (getDataPoint baseline) then none
  else
    let measurements :=
      (data.filterMap (measure numberOf (getDataPoint baseline) (shouldMaximize baseline))).mergeSort bySpeedup
    if minPoints.le (.whole measurements.length) then some measurements else none

/-- The code units of a string. -/
def codeUnits (text : String) : List ℕ :=
  text.toList.flatMap fun char =>
    if char.toNat < 0x10000 then [char.toNat]
    else [0xD800 + (char.toNat - 0x10000) / 0x400, 0xDC00 + (char.toNat - 0x10000) % 0x400]

/-- `getProgressPoints`. -/
def getProgressPoints (data : ProfileData) : List String :=
  let points := (data.flatMap fun line => line.2.map fun point => point.1).foldl
    (fun points point => if point ∈ points then points else points ++ [point]) []
  points.mergeSort fun first second => codeUnits first ≤ codeUnits second

/-- `getSpeedupData`. -/
def getSpeedupData (numberOf : String → Number) (data : ProfileData) (disabled : List String) (minPoints : Number) :
    List ExperimentResult :=
  let progressPoints := (getProgressPoints data).filter fun point => point ∉ disabled
  data.filterMap fun line =>
    let found := progressPoints.map fun point => (point, enoughMeasurements numberOf minPoints (line.2.lookup point))
    if found.any fun series => series.2.isSome then
      some ⟨line.1, found.map fun series => ⟨series.1, series.2.getD []⟩⟩
    else none

/-- A click on the legend: the point is enabled again, or disabled unless it is the last one. -/
def click (progressPoints disabled : List String) (point : String) : List String :=
  if point ∈ disabled then disabled.erase point
  else if disabled.length + 1 < progressPoints.length then disabled ++ [point]
  else disabled

/-! ### The baseline -/

section Baseline

variable {numberOf : String → Number} {baseline dataPoint : Number} {maximize : Bool}
  {entry : String × ExperimentData Number} {measurement : Measurement}

/-- The progress speedup is within the range that is drawn. -/
def InRange (progress : Number) : Prop :=
  (Number.finite (-1)).le progress ∧ progress.le (.finite 2)

theorem finite_of_inRange {progress : Number} (within : InRange progress) : ∃ value, progress = .finite value := by
  obtain ⟨low, high⟩ := within
  cases progress with
  | finite value => exact ⟨value, rfl⟩
  | nan => cases low
  | infinite negative =>
      cases negative with
      | false => cases high
      | true => cases low

theorem zero_inRange : InRange (.finite 0) :=
  ⟨by decide, by decide⟩

theorem toDouble_zero : toDouble 0 = .finite 0 := by
  have zero := @toDouble_natCast 0 (by decide)
  rwa [Nat.cast_zero] at zero

/-- The baseline has no progress speedup. -/
theorem progressSpeedup_self {value : ℚ} (nonzero : value ≠ 0) :
    progressSpeedup (.finite value) (.finite value) maximize = .finite 0 := by
  have difference : (Number.finite value - Number.finite value : Number) = .finite 0 := by
    show toDouble (value + -value) = _
    rw [add_neg_cancel, toDouble_zero]
  have quotient : (Number.finite 0 / Number.finite value : Number) = .finite 0 := by
    show (if value ≠ 0 then toDouble (0 / value) else _) = _
    rw [if_pos nonzero, zero_div, toDouble_zero]
  rw [progressSpeedup, difference, quotient]
  cases maximize with
  | true => rfl
  | false =>
      show Number.finite (-0) = _
      rw [neg_zero]

/-- A quotient with a zero is not finite. -/
theorem div_zero_not_finite (number : Number) (value : ℚ) : (number / Number.finite 0 : Number) ≠ .finite value := by
  show number.div (.finite 0) ≠ _
  unfold Number.div
  cases number with
  | nan => nofun
  | infinite negative => nofun
  | finite numerator =>
      simp only [ne_eq, not_true_eq_false, if_false]
      split <;> nofun

/-- Nothing is measured against a baseline of zero. -/
theorem measure_zero : measure numberOf (.finite 0) maximize entry = none := by
  have outside : ¬ InRange (progressSpeedup (.finite 0) (getDataPoint entry.2) maximize) := by
    intro within
    obtain ⟨value, shape⟩ := finite_of_inRange within
    unfold progressSpeedup at shape
    cases maximize with
    | true => exact div_zero_not_finite _ value shape
    | false =>
        have negated : ∀ number : Number, -number = .finite value → number = .finite (-value) := by
          intro number same
          cases number with
          | nan => cases same
          | infinite negative => cases same
          | finite other =>
              obtain rfl : -other = value := Number.finite.inj same
              rw [neg_neg]
        exact div_zero_not_finite _ _ (negated _ shape)
  unfold measure
  by_cases valid : isValidDataPoint (getDataPoint entry.2)
  · rw [if_pos valid]
    exact if_neg outside
  · rw [if_neg valid]

/-- What is measured has the speedup of its name, is valid, and is in range. -/
theorem measure_eq_some_iff : measure numberOf baseline maximize entry = some measurement ↔
    isValidDataPoint (getDataPoint entry.2) ∧ measurement.speedup = numberOf entry.1 ∧
      measurement.progressSpeedup = progressSpeedup baseline (getDataPoint entry.2) maximize ∧
      InRange measurement.progressSpeedup := by
  obtain ⟨speedup, progress⟩ := measurement
  unfold measure InRange
  simp only [Option.ite_none_right_eq_some, Option.some.injEq, Measurement.mk.injEq]
  constructor
  · rintro ⟨valid, within, rfl, rfl⟩
    exact ⟨valid, rfl, rfl, within⟩
  · rintro ⟨valid, rfl, rfl, within⟩
    exact ⟨valid, within, rfl, rfl⟩

end Baseline

/-! ### A series -/

/-- The names of the speedups of a progress point: each once, each a number that is not negative, and no two the same
number. -/
structure Named (numberOf : String → Number) (data : PointData) : Prop where
  zero : numberOf "0" = .finite 0
  different : data.Pairwise fun first second => numberOf first.1 ≠ numberOf second.1
  finite : ∀ entry ∈ data, ∃ value : ℚ, 0 ≤ value ∧ numberOf entry.1 = .finite value

/-- The measurements of a progress point as `drawPlots` needs them. -/
structure Sound (numberOf : String → Number) (data : PointData) (measurements : List Measurement) : Prop where
  ascending : measurements.Pairwise fun first second => first.speedup.lt second.speedup
  begins : ∀ first ∈ measurements.head?, first = ⟨.finite 0, .finite 0⟩
  within : ∀ measurement ∈ measurements, InRange measurement.progressSpeedup
  measured : ∀ measurement ∈ measurements, ∃ entry ∈ data, measurement.speedup = numberOf entry.1

section Series

variable {numberOf : String → Number} {data : PointData} {baseline : ExperimentData Number}
  {measurements : List Measurement}

/-- The value of a finite number. -/
def value : Number → ℚ
  | .finite value => value
  | _ => 0

/-- Finite speedups are put in ascending order. -/
theorem sorted_bySpeedup (finite : ∀ measurement ∈ measurements, ∃ value : ℚ, measurement.speedup = .finite value) :
    (measurements.mergeSort bySpeedup).Pairwise fun first second => value first.speedup ≤ value second.speedup := by
  have same := @List.map_mergeSort _ _ bySpeedup
    (fun first second => decide (value first.speedup ≤ value second.speedup)) id measurements (by
      intro first among second among'
      obtain ⟨left, shape⟩ := finite first among
      obtain ⟨right, shape'⟩ := finite second among'
      simp only [bySpeedup, shape, shape', Number.lt, value, id, ← not_le, decide_not, Bool.not_not])
  rw [List.map_id, List.map_id] at same
  rw [same]
  refine (List.pairwise_mergeSort ?_ ?_ measurements).imp fun order => by simpa using order
  · intro first second third before after
    rw [decide_eq_true_iff] at before after ⊢
    exact before.trans after
  · intro first second
    simpa using le_total (value first.speedup) (value second.speedup)

/-- The baseline is an entry of the point. -/
theorem mem_of_lookup (found : data.lookup "0" = some baseline) : ("0", baseline) ∈ data := by
  obtain ⟨member, first, rfl⟩ := Option.map_eq_some_iff.mp found
  have name := List.find?_some first
  rw [beq_iff_eq] at name
  rw [← name]
  exact List.mem_of_find?_eq_some first

/-- If anything is measured, then the baseline is, and without a progress speedup. -/
theorem baseline_measured {first : Measurement} (named : Named numberOf data) (found : data.lookup "0" = some baseline)
    (valid : isValidDataPoint (getDataPoint baseline))
    (among : first ∈ data.filterMap (measure numberOf (getDataPoint baseline) (shouldMaximize baseline))) :
    ⟨.finite 0, .finite 0⟩ ∈ data.filterMap (measure numberOf (getDataPoint baseline) (shouldMaximize baseline)) := by
  obtain ⟨entry, -, measured⟩ := List.mem_filterMap.mp among
  obtain ⟨point, shape⟩ : ∃ point, getDataPoint baseline = .finite point := by
    unfold isValidDataPoint at valid
    split at valid
    · rename_i point shape
      exact ⟨point, shape⟩
    · cases valid
    · cases valid
  have nonzero : point ≠ 0 := by
    rintro rfl
    rw [shape, measure_zero] at measured
    cases measured
  refine List.mem_filterMap.mpr ⟨_, mem_of_lookup found, measure_eq_some_iff.mpr ⟨valid, named.zero.symm, ?_, zero_inRange⟩⟩
  rw [shape, progressSpeedup_self nonzero]

/-- **A series** is ascending, in range, and begins with the baseline. -/
theorem sound_measurements (named : Named numberOf data) (found : data.lookup "0" = some baseline)
    (valid : isValidDataPoint (getDataPoint baseline)) :
    Sound numberOf data ((data.filterMap
      (measure numberOf (getDataPoint baseline) (shouldMaximize baseline))).mergeSort bySpeedup) := by
  have source (measurement : Measurement) (among : measurement ∈ data.filterMap
      (measure numberOf (getDataPoint baseline) (shouldMaximize baseline))) :
      ∃ entry ∈ data, measure numberOf (getDataPoint baseline) (shouldMaximize baseline) entry = some measurement :=
    List.mem_filterMap.mp among
  have finite (measurement : Measurement) (among : measurement ∈ data.filterMap
      (measure numberOf (getDataPoint baseline) (shouldMaximize baseline))) :
      ∃ value : ℚ, 0 ≤ value ∧ measurement.speedup = .finite value := by
    obtain ⟨entry, there, measured⟩ := source measurement among
    obtain ⟨-, speedup, -⟩ := measure_eq_some_iff.mp measured
    rw [speedup]
    exact named.finite entry there
  have different : (data.filterMap (measure numberOf (getDataPoint baseline) (shouldMaximize baseline))).Pairwise
      fun first second => first.speedup ≠ second.speedup := by
    refine List.Pairwise.filterMap _ (fun entry other apart first measured second measured' => ?_) named.different
    rw [(measure_eq_some_iff.mp measured).2.1, (measure_eq_some_iff.mp measured').2.1]
    exact apart
  have order := sorted_bySpeedup fun measurement among =>
    (finite measurement among).imp fun _ both => both.2
  have apart := ((List.mergeSort_perm _ bySpeedup).pairwise_iff Ne.symm).mpr different
  have ascending : ((data.filterMap (measure numberOf (getDataPoint baseline)
      (shouldMaximize baseline))).mergeSort bySpeedup).Pairwise fun first second => first.speedup.lt second.speedup := by
    refine (order.and apart).imp_of_mem fun {first second} among among' both => ?_
    obtain ⟨left, -, shape⟩ := finite first (List.mem_mergeSort.mp among)
    obtain ⟨right, -, shape'⟩ := finite second (List.mem_mergeSort.mp among')
    rw [shape, shape'] at both ⊢
    exact decide_eq_true (lt_of_le_of_ne both.1 fun same => both.2 (congrArg Number.finite same))
  refine ⟨ascending, fun first head => ?_, fun measurement among => ?_, fun measurement among => ?_⟩
  · have among := List.mem_mergeSort.mp (List.mem_of_mem_head? head)
    have there := (List.mergeSort_perm _ bySpeedup).mem_iff.mpr (baseline_measured named found valid among)
    obtain ⟨rest, shape⟩ : ∃ rest, _ = first :: rest := List.head?_eq_some_iff.mp head
    rw [shape] at there ascending
    rcases List.mem_cons.mp there with same | later
    · exact same.symm
    · obtain ⟨least, nonneg, speedup⟩ := finite first among
      have below := (List.pairwise_cons.mp ascending).1 _ later
      rw [speedup] at below
      exact absurd (of_decide_eq_true below) (not_lt.mpr nonneg)
  · obtain ⟨entry, -, measured⟩ := source measurement (List.mem_mergeSort.mp among)
    exact (measure_eq_some_iff.mp measured).2.2.2
  · obtain ⟨entry, there, measured⟩ := source measurement (List.mem_mergeSort.mp among)
    exact ⟨entry, there, (measure_eq_some_iff.mp measured).2.1⟩

/-- The measurements are of the point, which has a valid baseline, and are enough. -/
theorem enoughMeasurements_eq_some {minPoints : Number} {pointData : Option PointData}
    (enough : enoughMeasurements numberOf minPoints pointData = some measurements) :
    ∃ data baseline, pointData = some data ∧ data.lookup "0" = some baseline ∧
      isValidDataPoint (getDataPoint baseline) ∧ minPoints.le (.whole measurements.length) ∧
      measurements = (data.filterMap
        (measure numberOf (getDataPoint baseline) (shouldMaximize baseline))).mergeSort bySpeedup := by
  obtain ⟨data, rfl, later⟩ := Option.bind_eq_some_iff.mp enough
  obtain ⟨baseline, found, last⟩ := Option.bind_eq_some_iff.mp later
  obtain ⟨valid, counted⟩ := Option.ite_none_left_eq_some.mp last
  obtain ⟨many, same⟩ := Option.ite_none_right_eq_some.mp counted
  obtain rfl := Option.some.inj same
  exact ⟨data, baseline, rfl, found, by simpa using valid, many, rfl⟩

end Series

/-! ### A drawing -/

/-- The names of all points' speedups are as they should be. -/
def AllNamed (numberOf : String → Number) (data : ProfileData) : Prop :=
  ∀ line ∈ data, ∀ point ∈ line.2, Named numberOf point.2

/-- What is drawn of a line: a series for each enabled progress point, at least one with enough measurements, and each
that is not empty as it should be. -/
structure Drawn (numberOf : String → Number) (data : ProfileData) (enabled : List String) (minPoints : Number)
    (result : ExperimentResult) : Prop where
  points : result.progressPoints.map (fun series => series.name) = enabled
  enough : ∃ series ∈ result.progressPoints, minPoints.le (.whole series.measurements.length)
  sound : ∃ line ∈ data, result.name = line.1 ∧ ∀ series ∈ result.progressPoints, series.measurements ≠ [] →
    ∃ pointData, line.2.lookup series.name = some pointData ∧ Sound numberOf pointData series.measurements ∧
      minPoints.le (.whole series.measurements.length)

section Drawing

variable {numberOf : String → Number} {data : ProfileData} {disabled points : List String} {minPoints : Number}

theorem mem_values_of_lookup {α : Type} {own : Members α} {name : String} {value : α}
    (found : own.lookup name = some value) : ∃ member ∈ own, member.2 = value := by
  obtain ⟨member, first, rfl⟩ := Option.map_eq_some_iff.mp found
  exact ⟨member, List.mem_of_find?_eq_some first, rfl⟩

/-- **Every drawing** is as it should be. -/
theorem drawn_getSpeedupData (named : AllNamed numberOf data) :
    ∀ result ∈ getSpeedupData numberOf data disabled minPoints,
      Drawn numberOf data ((getProgressPoints data).filter fun point => point ∉ disabled) minPoints result := by
  intro result among
  obtain ⟨line, there, made⟩ := List.mem_filterMap.mp among
  obtain ⟨legend, same⟩ := Option.ite_none_right_eq_some.mp made
  obtain rfl := Option.some.inj same
  refine ⟨?_, ?_, line, there, rfl, ?_⟩
  · simp [Function.comp_def]
  · obtain ⟨series, held, found⟩ := List.any_eq_true.mp legend
    obtain ⟨measurements, enough⟩ := Option.isSome_iff_exists.mp found
    refine ⟨_, List.mem_map_of_mem held, ?_⟩
    obtain ⟨point, -, rfl⟩ := List.mem_map.mp held
    rw [enough, Option.getD_some]
    obtain ⟨-, -, -, -, -, many, -⟩ := enoughMeasurements_eq_some enough
    exact many
  · intro series held nonempty
    rw [List.map_map] at held
    obtain ⟨point, -, rfl⟩ := List.mem_map.mp held
    simp only [Function.comp_apply] at nonempty ⊢
    cases enough : enoughMeasurements numberOf minPoints (line.2.lookup point) with
    | none => simp [enough] at nonempty
    | some measurements =>
        obtain ⟨pointData, baseline, held', found, valid, many, rfl⟩ := enoughMeasurements_eq_some enough
        obtain ⟨member, inside, rfl⟩ := mem_values_of_lookup held'
        exact ⟨member.2, held', sound_measurements (named line there member inside) found valid, many⟩

/-- The progress points are listed once. -/
theorem nodup_getProgressPoints : (getProgressPoints data).Nodup := by
  have loop (names : List String) : ∀ points : List String, points.Nodup →
      (names.foldl (fun points point => if point ∈ points then points else points ++ [point]) points).Nodup := by
    induction names with
    | nil => exact fun points single => single
    | cons name rest ih =>
        intro points single
        refine ih _ ?_
        show (if name ∈ points then points else points ++ [name]).Nodup
        by_cases here : name ∈ points
        · rwa [if_pos here]
        · rw [if_neg here]
          refine List.nodup_append.mpr ⟨single, by simp, fun point before other last same => ?_⟩
          exact here (List.mem_singleton.mp last ▸ same ▸ before)
  rw [getProgressPoints, (List.mergeSort_perm _ _).nodup_iff]
  exact loop _ [] List.nodup_nil

/-! ### The legend -/

/-- Disabled are some of the points, and not all. -/
structure SomeEnabled (points disabled : List String) : Prop where
  single : disabled.Nodup
  listed : disabled ⊆ points
  fewer : disabled.length < points.length

/-- A click leaves a point enabled. -/
theorem SomeEnabled.click (legend : SomeEnabled points disabled) {point : String} (listed : point ∈ points) :
    SomeEnabled points (Speedups.click points disabled point) := by
  unfold Speedups.click
  split
  · rename_i there
    exact ⟨legend.single.erase point, fun other among => legend.listed (List.mem_of_mem_erase among),
      lt_of_le_of_lt (List.length_erase_le) legend.fewer⟩
  · split
    · rename_i absent more
      refine ⟨List.nodup_append.mpr ⟨legend.single, by simp, ?_⟩, ?_, by simpa using more⟩
      · intro other here last there same
        exact absent (List.mem_singleton.mp there ▸ same ▸ here)
      · intro other here
        rcases List.mem_append.mp here with before | last
        · exact legend.listed before
        · exact List.mem_singleton.mp last ▸ listed
    · exact legend

theorem SomeEnabled.exists (legend : SomeEnabled points disabled) (single : points.Nodup) :
    ∃ point ∈ points, point ∉ disabled := by
  by_contra all
  have every : points ⊆ disabled := by
    intro point here
    by_contra absent
    exact all ⟨point, here, absent⟩
  exact absurd (List.subperm_of_subset single every).length_le (not_le.mpr legend.fewer)

end Drawing

/-! ### A session -/

/-- The disabled points, and the slider. -/
structure Session where
  disabled : List String
  minPoints : Number

/-- A click on the legend's entry of a point, or a move of the slider. -/
inductive Action
  | click (point : String)
  | slide (minPoints : Number)

/-- The legend has entries for the progress points only. -/
def step (data : ProfileData) (session : Session) : Action → Option Session
  | .click point =>
      if point ∈ getProgressPoints data then
        some { session with disabled := click (getProgressPoints data) session.disabled point }
      else none
  | .slide minPoints => some { session with minPoints := minPoints }

/-- Some point stays enabled over a session, if there is one. -/
theorem someEnabled_run {data : ProfileData} {minPoints : Number} {actions : List Action} {session : Session}
    (points : getProgressPoints data ≠ []) (ran : run (step data) ⟨[], minPoints⟩ actions = some session) :
    SomeEnabled (getProgressPoints data) session.disabled := by
  have initial : SomeEnabled (getProgressPoints data) [] :=
    ⟨List.nodup_nil, List.nil_subset _, List.length_pos_of_ne_nil points⟩
  refine run_history (motive := fun _ session => SomeEnabled (getProgressPoints data) session.disabled) initial ?_ ran
  intro past before action next _ legend moved
  cases action with
  | click point =>
      obtain ⟨listed, same⟩ := Option.ite_none_right_eq_some.mp moved
      obtain rfl := Option.some.inj same
      exact legend.click listed
  | slide minPoints =>
      obtain rfl := Option.some.inj moved
      exact legend

/-- **Every drawing of a session** shows the enabled progress points, of which there is one if there is any point. A
series of a line that is not empty has enough measurements, in the order of their speedups, each in range, and begins
with no progress speedup for no line speedup. -/
theorem drawings_sound {numberOf : String → Number} {data : ProfileData} {minPoints : Number} {actions : List Action}
    {session : Session} (named : AllNamed numberOf data)
    (ran : run (step data) ⟨[], minPoints⟩ actions = some session) :
    (getProgressPoints data ≠ [] → ∃ point ∈ getProgressPoints data, point ∉ session.disabled) ∧
      ∀ result ∈ getSpeedupData numberOf data session.disabled session.minPoints,
        Drawn numberOf data ((getProgressPoints data).filter fun point => point ∉ session.disabled) session.minPoints
          result :=
  ⟨fun points => (someEnabled_run points ran).exists nodup_getProgressPoints, drawn_getSpeedupData named⟩

/-- A line with one progress point at two speedups. -/
def onePlot : ProfileData :=
  [("a.c:1", [("p", [("0", ⟨.throughput, .finite 10, ⟨.nan, .nan, .nan, .finite 100⟩⟩),
    ("0.5", ⟨.throughput, .finite 10, ⟨.nan, .nan, .nan, .finite 50⟩⟩)])])]

/-- The numbers that decimal names spell. -/
def decimalOf (name : String) : Number :=
  parseFloat name.toList

theorem named_onePlot : AllNamed decimalOf onePlot := by
  have zero : decimalOf "0" = .finite 0 := by decide +kernel
  have half : decimalOf "0.5" = .finite (1 / 2) := by decide +kernel
  simp only [AllNamed, onePlot, List.forall_mem_singleton]
  refine ⟨zero, ?_, ?_⟩
  · simp [zero, half]
  · simp only [List.forall_mem_cons, List.not_mem_nil, false_implies, implies_true, and_true]
    exact ⟨⟨0, le_rfl, zero⟩, ⟨1 / 2, by decide +kernel, half⟩⟩

theorem drawings_sound_one :
    (∃ point ∈ getProgressPoints onePlot, point ∉ ([] : List String)) ∧
      ∀ result ∈ getSpeedupData decimalOf onePlot [] (.finite 2),
        Drawn decimalOf onePlot ((getProgressPoints onePlot).filter fun point => point ∉ []) (.finite 2) result := by
  have points : getProgressPoints onePlot = ["p"] := by simp [getProgressPoints, onePlot]
  have ran : run (step onePlot) ⟨[], .finite 1⟩ [.click "p", .slide (.finite 2)] = some ⟨[], .finite 2⟩ := by
    simp [run, step, points, click]
  obtain ⟨enabled, drawn⟩ := drawings_sound named_onePlot ran
  exact ⟨enabled (by simp [points]), drawn⟩

end Speedups

end Mcoz.Viewer
