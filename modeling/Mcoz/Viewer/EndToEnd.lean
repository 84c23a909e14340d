/-
From the visits of a progress point to what the viewer shows of it.

Runs of the program append their records to one file, and the viewer reads it. Its entry for a line, a throughput
point and a speedup has the visits that the runs made during their experiments with that line and speedup, and the
time that these experiments took (`viewed_visits`): none is lost, none is counted twice, and none is counted for
another entry, through the counters, the records, the text of the file and the objects of the viewer.
-/

import Mcoz.Lib.JsArithmetic
import Mcoz.Profiler.Progress
import Mcoz.Viewer.Aggregation
import Mcoz.Viewer.RoundTrip

set_option autoImplicit false

namespace Mcoz.Viewer

open Js Word Machine Mcoz.Profiler Mcoz.Profiler.Loop Mcoz.Profiler.Progress

namespace EndToEnd

/-! ### The viewer's arithmetic -/

/-- An operand. A missing property is `NaN`; the columns that the viewer calculates with are never texts. -/
def toNumber : Option Value → Number
  | some (.number value) => value
  | some (.text _) => .nan
  | none => .nan

/-- An operation on doubles. -/
def doubles (operation : Number → Number → Number) (first second : Option Value) : Option Value :=
  some (.number (operation (toNumber first) (toNumber second)))

instance doubleAdd : Add (Option Value) := ⟨doubles Number.add⟩

instance doubleMul : Mul (Option Value) := ⟨doubles Number.mul⟩

instance doubleDiv : Div (Option Value) := ⟨doubles Number.div⟩

instance doubleZero : Zero (Option Value) := ⟨some (.number (.finite 0))⟩

/-- The data of a profile in a file. -/
def viewFile (jsonParse : List Char → Option Object) (propertyKey : Option Value → String) (file : Bytes) :
    Option (Except Failure (Data (Option Value))) :=
  @viewProfile doubleAdd doubleMul doubleDiv doubleZero jsonParse propertyKey (readAsText file)

/-- How a property is named: by the text itself, and by a number not with the name of an inherited property. -/
structure Naming (propertyKey : Option Value → String) : Prop where
  text : ∀ text, propertyKey (some (.text text)) = String.ofList text
  number : ∀ value, propertyKey (some (.number value)) ∉ inheritedNames

/-! ### The lines of the records -/

/-- A count in the viewer. -/
def column (count : UInt64) : Option Value :=
  some (.number (.whole count.toNat))

/-- A text in the viewer. -/
def shownName (name : Bytes) : String :=
  String.ofList (Utf8.decode name)

/-- What the viewer takes the speedup of an experiment for, by its hundredths. -/
def shownSpeedup (propertyKey : Option Value → String) (speedup : ℕ) : String :=
  propertyKey (some (.number (toDouble (speedup / 100))))

/-- The line that the viewer reads of a record. -/
def lineOf (propertyKey : Option Value → String) : Record → Line (Option Value)
  | .startup _ => .ignored
  | .experiment file line speedup duration _ =>
      .experiment ⟨shownName (showLine file line), shownSpeedup propertyKey speedup, column duration⟩
  | .throughputPoint name delta => .throughputPoint ⟨shownName name, column delta⟩
  | .latencyPoint name beginDelta endDelta difference =>
      .latencyPoint ⟨shownName name, column beginDelta, column endDelta, column difference⟩
  | .runtime _ => .ignored
  | .samples _ _ _ => .ignored

section Lines

variable {propertyKey : Option Value → String} {obj : Object} {record : Record}

theorem shownName_of_hasText (naming : Naming propertyKey) {key : String} {bytes : Bytes}
    (held : obj.hasText key bytes) : propertyKey (obj key) = shownName bytes := by
  obtain ⟨text, there, rfl⟩ := held
  rw [there, naming.text, shownName, Utf8.decode_encode]

/-- A count is read as itself. -/
theorem column_of_hasNumber {key : String} {count : UInt64} (held : obj.hasNumber key count) :
    obj key = column count :=
  held

theorem ofObject_ignored {type : String} (typed : obj "type" = some (.text type.toList))
    (ignored : type ∈ ignoredTypes) : Line.ofObject propertyKey obj = .ignored := by
  rw [Line.ofObject, typed]
  simp only [String.ofList_toList, ignored, if_true]

theorem ofObject_experiment (typed : obj "type" = some (.text "experiment".toList)) :
    Line.ofObject propertyKey obj =
      .experiment ⟨propertyKey (obj "selected"), propertyKey (obj "speedup"), obj "duration"⟩ := by
  rw [Line.ofObject, typed]
  simp [ignoredTypes]

theorem ofObject_throughputPoint (typed : obj "type" = some (.text "throughput-point".toList)) :
    Line.ofObject propertyKey obj = .throughputPoint ⟨propertyKey (obj "name"), obj "delta"⟩ := by
  rw [Line.ofObject, typed]
  simp [ignoredTypes]

theorem ofObject_latencyPoint (typed : obj "type" = some (.text "latency-point".toList)) :
    Line.ofObject propertyKey obj =
      .latencyPoint ⟨propertyKey (obj "name"), obj "arrivals", obj "departures", obj "difference"⟩ := by
  rw [Line.ofObject, typed]
  simp [ignoredTypes]

/-- The viewer takes the object of a record for its line. -/
theorem ofObject_of_shows (naming : Naming propertyKey) (shown : Shows obj record) :
    Line.ofObject propertyKey obj = lineOf propertyKey record := by
  obtain ⟨type, rest⟩ := shown
  cases record with
  | startup | runtime | samples => exact ofObject_ignored type (by simp [Record.type, ignoredTypes])
  | experiment file line speedup duration selectedSamples =>
      obtain ⟨selected, amount, lasted⟩ := rest
      rw [ofObject_experiment type, shownName_of_hasText naming selected, amount, column_of_hasNumber lasted]
      rfl
  | throughputPoint name delta =>
      obtain ⟨named, count⟩ := rest
      rw [ofObject_throughputPoint type, shownName_of_hasText naming named, column_of_hasNumber count]
      rfl
  | latencyPoint name beginDelta endDelta difference =>
      obtain ⟨named, arrivals, departures, between⟩ := rest
      rw [ofObject_latencyPoint type, shownName_of_hasText naming named, column_of_hasNumber arrivals,
        column_of_hasNumber departures, column_of_hasNumber between]
      rfl

end Lines

/-! ### What the lines add to the data -/

section Reading

variable {V : Type} [Add V] [Mul V] [Div V] [Zero V] [DecidableEq V] {undefined : V}
  {first second : List (Line V)} {early late : List (Viewer.Experiment V × Point V)}

/-- Whatever comes before them, the lines add these measurements. -/
def Adds (undefined : V) (lines : List (Line V)) (records : List (Viewer.Experiment V × Point V)) : Prop :=
  ∀ data last, ∃ last', lines.foldlM (readLine undefined) (data, last) =
    (addMeasurements undefined data records).map fun data => (data, last')

theorem Adds.nil : Adds undefined [] [] :=
  fun _ last => ⟨last, rfl⟩

theorem addMeasurements_append (data : Data V) : addMeasurements undefined data (early ++ late) =
    (addMeasurements undefined data early).bind fun data => addMeasurements undefined data late :=
  List.foldlM_append

theorem Adds.append (before : Adds undefined first early) (after : Adds undefined second late) :
    Adds undefined (first ++ second) (early ++ late) := by
  intro data last
  obtain ⟨middle, read⟩ := before data last
  rw [List.foldlM_append, read, addMeasurements_append]
  cases addMeasurements undefined data early with
  | error failure => exact ⟨middle, rfl⟩
  | ok data' => exact after data' middle

theorem Adds.flatMap {α : Type} {pieces : List α} {lines : α → List (Line V)}
    {records : α → List (Viewer.Experiment V × Point V)}
    (each : ∀ piece ∈ pieces, Adds undefined (lines piece) (records piece)) :
    Adds undefined (pieces.flatMap lines) (pieces.flatMap records) := by
  induction pieces with
  | nil => exact .nil
  | cons piece rest ih =>
      exact (each piece List.mem_cons_self).append (ih fun other among => each other (List.mem_cons_of_mem _ among))

theorem adds_ignored {α : Type} (pieces : List α) : Adds undefined (pieces.map fun _ => .ignored) [] := by
  induction pieces with
  | nil => exact .nil
  | cons piece rest ih => exact ih

/-- The line of a measurement. -/
def pointLine : Point V → Line V
  | .throughput point => .throughputPoint point
  | .latency point => .latencyPoint point

/-- The points behind an experiment are measured in it. -/
theorem adds_experiment (experiment : Viewer.Experiment V) (points : List (Point V)) :
    Adds undefined (.experiment experiment :: points.map pointLine) (points.map fun point => (experiment, point)) := by
  intro data last
  refine ⟨some experiment, ?_⟩
  show (points.map pointLine).foldlM (readLine undefined) (data, some experiment) = _
  induction points generalizing data with
  | nil => rfl
  | cons point rest ih =>
      have one : readLine undefined (data, some experiment) (pointLine point) =
          (addMeasurement undefined data experiment point).map fun data => (data, some experiment) := by
        cases point <;> rfl
      rw [List.map_cons, List.foldlM_cons, one, List.map_cons, addMeasurements, List.foldlM_cons]
      cases addMeasurement undefined data experiment point with
      | error failure => rfl
      | ok data' => exact ih data'

theorem readProfile_of_adds (adds : Adds undefined first early) :
    readProfile undefined first = addMeasurements undefined (fun _ => none) early := by
  obtain ⟨last, read⟩ := adds (fun _ => none) none
  rw [readProfile, read]
  cases addMeasurements undefined (fun _ => none) early <;> rfl

end Reading

/-! ### The measurements of a run -/

/-- The logged duration of an experiment: the time that it took, without the delays. -/
def duration (concluded : Loop.Experiment × Ending) : UInt64 :=
  concluded.2.now - concluded.1.startTime - (concluded.2.globalDelay - concluded.1.startingDelayTime)

/-- What the viewer reads of an experiment. -/
def experimentOf (propertyKey : Option Value → String) (concluded : Loop.Experiment × Ending) :
    Viewer.Experiment (Option Value) where
  selected := shownName (showLine concluded.1.file concluded.1.line)
  speedup := shownSpeedup propertyKey (selection concluded.1).speedup
  duration := column (duration concluded)

/-- What the viewer reads of its points. -/
def pointsOf (concluded : Loop.Experiment × Ending) : List (Point (Option Value)) :=
  (concluded.1.throughputPoints.map fun saved =>
    .throughput ⟨shownName saved.name, column (saved.getDelta concluded.2.logged)⟩) ++
  concluded.1.latencyPoints.map fun saved =>
    .latency ⟨shownName saved.name, column (saved.getBeginDelta concluded.2.logged),
      column (saved.getEndDelta concluded.2.logged),
      column (concluded.2.logged.beginCount saved.name - concluded.2.logged.endCount saved.name)⟩

/-- The measurements of an experiment. -/
def measurements (propertyKey : Option Value → String) (concluded : Loop.Experiment × Ending) :
    List (Viewer.Experiment (Option Value) × Point (Option Value)) :=
  (pointsOf concluded).map fun point => (experimentOf propertyKey concluded, point)

section Runs

variable {propertyKey : Option Value → String}

theorem lines_records (experiment : Loop.Experiment) (reading : Ending) :
    (experiment.records reading).map (lineOf propertyKey) =
      .experiment (experimentOf propertyKey (experiment, reading)) ::
        (pointsOf (experiment, reading)).map pointLine := by
  simp only [Loop.Experiment.records, List.map_cons, List.map_append, List.map_map, pointsOf]
  rfl

theorem lineOf_other {record : Record} (other : isOther record) : lineOf propertyKey record = .ignored := by
  cases record <;> first | rfl | cases other

/-- The records of a run add the measurements of its experiments. -/
theorem adds_of_logs {records : List Record} {concluded : List (Loop.Experiment × Ending)}
    (logs : Logs records concluded) :
    Adds none (records.map (lineOf propertyKey)) (concluded.flatMap (measurements propertyKey)) := by
  induction logs with
  | nil => exact .nil
  | @others records more concluded before other ih =>
      have ignored : more.map (lineOf propertyKey) = more.map fun _ => .ignored :=
        List.map_congr_left fun record among => lineOf_other (other record among)
      have added := ih.append (adds_ignored more)
      rwa [List.append_nil, ← ignored, ← List.map_append] at added
  | experiment before experiment reading ih =>
      rw [List.map_append, List.flatMap_append, List.flatMap_singleton, lines_records]
      exact ih.append (adds_experiment _ _)

end Runs

/-! ### The entries of a throughput point -/

/-- The viewer shows the selection so. -/
def selects (propertyKey : Option Value → String) (selected speedup : String) (selection : Selection) : Bool :=
  shownName (showLine selection.file selection.line) = selected && shownSpeedup propertyKey selection.speedup = speedup

/-- The experiments that have logged the point, with its differences. -/
def measured (name : Bytes) (of : Selection → Bool) (concluded : List (Loop.Experiment × Ending)) :
    List ((Loop.Experiment × Ending) × UInt64) :=
  (concluded.filter fun one => of (selection one.1)).filterMap fun one =>
    ((Counter.throughput name).delta one).map fun delta => (one, delta)

/-- A measurement of the point. -/
def measurement (propertyKey : Option Value → String) (name : Bytes) (pair : (Loop.Experiment × Ending) × UInt64) :
    Viewer.Experiment (Option Value) × Point (Option Value) :=
  (experimentOf propertyKey pair.1, .throughput ⟨shownName name, column pair.2⟩)

/-- The entry of a throughput point. -/
def throughputEntry (delta duration : ℕ) : ExperimentData (Option Value) where
  type := .throughput
  delta := some (.number (.whole delta))
  latency := ⟨none, none, none, some (.number (.whole duration))⟩

section Sums

variable {propertyKey : Option Value → String} {name : Bytes} {pairs : List ((Loop.Experiment × Ending) × UInt64)}

/-- The sum of whole numbers in columns. -/
theorem doubles_add {left right : ℕ} (small : left + right < 2 ^ 53) :
    doubles Number.add (some (.number (.whole left))) (some (.number (.whole right))) =
      some (.number (.whole (left + right))) :=
  congrArg (fun sum => some (Value.number sum)) (Number.whole_add_whole small)

/-- The visits of the measurements. -/
def deltaSum (pairs : List ((Loop.Experiment × Ending) × UInt64)) : ℕ :=
  (pairs.map fun pair => pair.2.toNat).sum

/-- The time of their experiments. -/
def durationSum (pairs : List ((Loop.Experiment × Ending) × UInt64)) : ℕ :=
  (pairs.map fun pair => (duration pair.1).toNat).sum

theorem foldl_add_measurement {delta time : ℕ} (visits : delta + deltaSum pairs < 2 ^ 53)
    (times : time + durationSum pairs < 2 ^ 53) :
    (pairs.map (measurement propertyKey name)).foldl
        (fun entry record => entry.add record.1 record.2) (throughputEntry delta time) =
      throughputEntry (delta + deltaSum pairs) (time + durationSum pairs) := by
  induction pairs generalizing delta time with
  | nil => rfl
  | cons pair rest ih =>
      have deltas : delta + deltaSum (pair :: rest) = delta + pair.2.toNat + deltaSum rest := by
        rw [deltaSum, List.map_cons, List.sum_cons, Nat.add_assoc, deltaSum]
      have durations : time + durationSum (pair :: rest) = time + (duration pair.1).toNat + durationSum rest := by
        rw [durationSum, List.map_cons, List.sum_cons, Nat.add_assoc, durationSum]
      rw [deltas] at visits ⊢
      rw [durations] at times ⊢
      rw [List.map_cons, List.foldl_cons]
      have one : (throughputEntry delta time).add (measurement propertyKey name pair).1
          (measurement propertyKey name pair).2 =
            throughputEntry (delta + pair.2.toNat) (time + (duration pair.1).toNat) := by
        show ExperimentData.mk .throughput
          (doubles Number.add (some (.number (.whole delta))) (some (.number (.whole pair.2.toNat))))
          ⟨none, none, none, doubles Number.add (some (.number (.whole time)))
            (some (.number (.whole (duration pair.1).toNat)))⟩ = _
        rw [doubles_add (by omega), doubles_add (by omega)]
        rfl
      rw [one]
      exact ih visits times

/-- The entry of the measurements of a throughput point. -/
theorem foldl_merge_measurement (visits : deltaSum pairs < 2 ^ 53) (times : durationSum pairs < 2 ^ 53) :
    (pairs.map (measurement propertyKey name)).foldl (merge none) none =
      if pairs = [] then none else some (throughputEntry (deltaSum pairs) (durationSum pairs)) := by
  cases pairs with
  | nil => rfl
  | cons pair rest =>
      have added := @foldl_add_measurement propertyKey name (pair :: rest) 0 0 (by rwa [Nat.zero_add])
        (by rwa [Nat.zero_add])
      have start : ExperimentData.initial none (measurement propertyKey name pair).2.kind = throughputEntry 0 0 := by
        rw [throughputEntry, Number.whole, Nat.cast_zero]
        rfl
      rw [Nat.zero_add, Nat.zero_add] at added
      rw [if_neg (List.cons_ne_nil _ _), List.map_cons, foldl_merge_cons, aggregate,
        if_neg (List.cons_ne_nil _ _), ← List.map_cons, start, added]

end Sums

section Filter

variable {propertyKey : Option Value → String} {name other : Bytes} {selected speedup : String}
  {one : Loop.Experiment × Ending} {concluded : List (Loop.Experiment × Ending)}

/-- Among values with different keys, at most one has the key. -/
theorem filter_eq_find {α β : Type} [BEq β] [LawfulBEq β] {key : α → β} {list : List α}
    (different : (list.map key).Nodup) (value : β) :
    list.filter (fun x => key x == value) = (list.find? fun x => key x == value).toList := by
  induction list with
  | nil => rfl
  | cons x rest ih =>
      rw [List.map_cons, List.nodup_cons] at different
      by_cases here : key x = value
      · have alone : rest.filter (fun y => key y == value) = [] := by
          rw [List.filter_eq_nil_iff]
          intro y among same
          rw [beq_iff_eq] at same
          exact different.1 (here ▸ same ▸ List.mem_map_of_mem among)
        simp [here, alone]
      · simp [here, ih different.2]

theorem shownName_inj (plain : Plain name) (plain' : Plain other) : shownName name = shownName other ↔ name = other := by
  refine ⟨fun same => ?_, fun same => same ▸ rfl⟩
  have decoded : Utf8.decode name = Utf8.decode other := String.ofList_injective same
  rw [← plain.1, decoded, plain'.1]

/-- The point's measurement in an experiment is the difference that is logged. -/
theorem filter_points (plain : Plain name) (plains : ∀ saved ∈ one.1.throughputPoints, Plain saved.name)
    (different : (one.1.throughputPoints.map fun saved => saved.name).Nodup)
    (apart : ∀ saved ∈ one.1.latencyPoints, shownName saved.name ≠ shownName name) :
    (pointsOf one).filter (fun point => point.name = shownName name) =
      ((Counter.throughput name).delta one).toList.map fun delta => .throughput ⟨shownName name, column delta⟩ := by
  have latency : (one.1.latencyPoints.filter fun saved => shownName saved.name = shownName name) = [] := by
    rw [List.filter_eq_nil_iff]
    exact fun saved among => by simpa using apart saved among
  have throughput : (one.1.throughputPoints.filter fun saved => shownName saved.name = shownName name) =
      (one.1.throughputPoints.find? fun saved => saved.name == name).toList := by
    rw [← filter_eq_find different]
    refine List.filter_congr fun saved among => ?_
    rw [Bool.eq_iff_iff, decide_eq_true_iff, beq_iff_eq]
    exact shownName_inj (plains saved among) plain
  rw [pointsOf, List.filter_append, List.filter_map, List.filter_map]
  show (one.1.throughputPoints.filter fun saved => shownName saved.name = shownName name).map _ ++
    (one.1.latencyPoints.filter fun saved => shownName saved.name = shownName name).map _ = _
  rw [throughput, latency, List.map_nil, List.append_nil, Counter.delta, Counter.saved, Option.map_map]
  cases found : one.1.throughputPoints.find? fun saved => saved.name == name with
  | none => rfl
  | some saved =>
      have same := List.find?_some found
      rw [beq_iff_eq] at same
      subst same
      rfl

/-- The measurements of an entry are those of the experiments that it shows. -/
theorem filter_measurements (plain : Plain name) (plains : ∀ saved ∈ one.1.throughputPoints, Plain saved.name)
    (different : (one.1.throughputPoints.map fun saved => saved.name).Nodup)
    (apart : ∀ saved ∈ one.1.latencyPoints, shownName saved.name ≠ shownName name) :
    (measurements propertyKey one).filter
        (fun record => keyOf record.1 record.2 = ⟨selected, shownName name, speedup⟩) =
      (measured name (selects propertyKey selected speedup) [one]).map (measurement propertyKey name) := by
  rw [measurements, List.filter_map, measured]
  by_cases shown : selects propertyKey selected speedup (selection one.1)
  · have points : ((fun record : Viewer.Experiment (Option Value) × Point (Option Value) =>
        decide (keyOf record.1 record.2 = ⟨selected, shownName name, speedup⟩)) ∘
          fun point => (experimentOf propertyKey one, point)) = fun point => decide (point.name = shownName name) := by
      simp only [selects, Bool.and_eq_true, decide_eq_true_eq] at shown
      funext point
      simp only [Function.comp_apply, keyOf, Key.mk.injEq, decide_eq_decide]
      refine ⟨fun same => same.2.1, fun same => ⟨shown.1, same, shown.2⟩⟩
    rw [points, filter_points plain plains different apart]
    cases delta : (Counter.throughput name).delta one with
    | none => simp [shown, delta]
    | some count => simp [shown, delta, measurement]
  · have points : ((fun record : Viewer.Experiment (Option Value) × Point (Option Value) =>
        decide (keyOf record.1 record.2 = ⟨selected, shownName name, speedup⟩)) ∘
          fun point => (experimentOf propertyKey one, point)) = fun _ => false := by
      simp only [selects, Bool.and_eq_true, decide_eq_true_eq] at shown
      funext point
      simp only [Function.comp_apply, keyOf, Key.mk.injEq, decide_eq_false_iff_not]
      exact fun same => shown ⟨same.1, same.2.2⟩
    rw [points]
    simp [shown]

theorem measured_flatMap {of : Selection → Bool} :
    measured name of concluded = concluded.flatMap fun one => measured name of [one] := by
  induction concluded with
  | nil => rfl
  | cons one rest ih =>
      rw [List.flatMap_cons, ← ih]
      unfold measured
      rw [← List.filterMap_append, ← List.filter_append, List.singleton_append]

end Filter

/-! ### The file of several runs -/

/-- A run of the program, after which no experiment is running. -/
structure Run (name : Bytes) where
  settings : Settings
  actions : List Progress.Action
  final : Session
  ran : run (Progress.step settings (.throughput name)) Progress.start actions = some final
  idle : ∀ experiment, final.thread.phase ≠ .running experiment

namespace Run

variable {name : Bytes}

/-- The records of the run. -/
def records (one : Run name) : List Record :=
  recordsOf one.final.thread

/-- Its experiments. -/
def experiments (one : Run name) : List (Loop.Experiment × Ending) :=
  Progress.experiments one.settings (.throughput name) one.actions

/-- Its visits of the point during experiments. -/
def visits (one : Run name) : List Selection :=
  visitsDuring one.settings (.throughput name) one.actions

theorem logs (one : Run name) : Logs one.records one.experiments :=
  logs_run one.ran

end Run

/-- The name of the point in the record. -/
def pointNames : Record → List Bytes
  | .throughputPoint name _ => [name]
  | .latencyPoint name _ _ _ => [name]
  | _ => []

/-- The records come through the text and the objects of the viewer, and the name is one of throughput points only. -/
structure Readable (name : Bytes) (records : List Record) : Prop where
  plain : ∀ record ∈ records, ∀ text ∈ names record, Plain text
  small : ∀ record ∈ records, ∀ count ∈ counts record, count.toNat < 2 ^ 53
  own : ∀ record ∈ records, ∀ point ∈ pointNames record, shownName point ∉ inheritedNames
  single : ∀ beginDelta endDelta difference, .latencyPoint name beginDelta endDelta difference ∉ records

section File

variable {name : Bytes} {propertyKey : Option Value → String} {jsonParse : List Char → Option Object}
  {runs : List (Run name)} {one : Loop.Experiment × Ending}

/-- A selected line has a colon, and no inherited property has. -/
theorem selected_own (file : Bytes) (line : UInt64) : shownName (showLine file line) ∉ inheritedNames := by
  have colon : ':' ∈ Utf8.decode (showLine file line) := by
    rw [Utf8.mem_decode_ascii (by decide)]
    simp [showLine, ascii, Utf8.asciiByte]
  intro inherited
  have without : ∀ text ∈ inheritedNames, ':' ∉ text.toList := by decide
  refine without _ inherited ?_
  rwa [shownName, String.toList_ofList]

/-- A file is read as the lines of its records. -/
theorem viewFile_eq (naming : Naming propertyKey) {records : List Record} (readable : Readable name records) :
    viewFile jsonParse propertyKey (profile records) =
      some (readProfile none (records.map (lineOf propertyKey))) := by
  obtain ⟨objs, parsed, shown⟩ := (@parseProfile_iff jsonParse records).mpr fun record among =>
    have single := single_of_plain (readable.plain record among)
    ⟨single, (shows_iff (readable.small record among) single).mpr (readable.plain record among)⟩
  have lines : objs.map (Line.ofObject propertyKey) = records.map (lineOf propertyKey) := by
    rw [← List.forall₂_eq_eq_eq, List.forall₂_map_left_iff, List.forall₂_map_right_iff]
    exact shown.imp fun _ _ => ofObject_of_shows naming
  rw [viewFile, viewProfile, parsed, Option.map_some, lines]

/-- The lines of the runs add the measurements of their experiments. -/
theorem adds_runs : Adds none ((runs.flatMap Run.records).map (lineOf propertyKey))
    ((runs.flatMap Run.experiments).flatMap (measurements propertyKey)) := by
  rw [List.map_flatMap, List.flatMap_assoc]
  exact Adds.flatMap fun one _ => adds_of_logs one.logs

/-- What is measured for the point has been counted. -/
theorem deltaSum_measured {of : Selection → Bool} :
    deltaSum (measured name of (runs.flatMap Run.experiments)) = (runs.flatMap Run.visits).countP of := by
  have deltas (concluded : List (Loop.Experiment × Ending)) :
      deltaSum (measured name of concluded) = ((logged (.throughput name) of concluded).map UInt64.toNat).sum := by
    rw [deltaSum, measured, logged, List.map_filterMap, List.map_filterMap]
    simp only [Option.map_map, Function.comp_def]
  rw [deltas]
  induction runs with
  | nil => rfl
  | cons one rest ih =>
      rw [List.flatMap_cons, List.flatMap_cons, logged_append, List.map_append, List.sum_append, ih,
        List.countP_append, Run.experiments, (balanced_run one.ran).exact_of_idle one.idle, Run.visits]

/-- The experiments of the runs have logged their records, and have read each point once. -/
theorem concluded_of_mem (among : one ∈ runs.flatMap Run.experiments) :
    (∀ record ∈ one.1.records one.2, record ∈ runs.flatMap Run.records) ∧
      (one.1.throughputPoints.map fun saved => saved.name).Nodup := by
  obtain ⟨its, there, inside⟩ := List.mem_flatMap.mp among
  constructor
  · exact fun record logged => List.mem_flatMap.mpr ⟨its, there, its.logs.mem inside logged⟩
  · exact distinct_of_mem its.ran inside

theorem throughput_logged {saved : SavedThroughput} (among : saved ∈ one.1.throughputPoints) :
    .throughputPoint saved.name (saved.getDelta one.2.logged) ∈ one.1.records one.2 := by
  simp only [Loop.Experiment.records, List.mem_cons, List.mem_append, List.mem_map]
  exact .inr (.inl ⟨saved, among, rfl⟩)

theorem latency_logged {saved : SavedLatency} (among : saved ∈ one.1.latencyPoints) :
    saved.log one.2.logged ∈ one.1.records one.2 := by
  simp only [Loop.Experiment.records, List.mem_cons, List.mem_append, List.mem_map]
  exact .inr (.inr ⟨saved, among, rfl⟩)

/-- No measurement is kept in a built-in object. -/
theorem measurements_own (naming : Naming propertyKey) (readable : Readable name (runs.flatMap Run.records)) :
    ∀ record ∈ (runs.flatMap Run.experiments).flatMap (measurements propertyKey), (keyOf record.1 record.2).Plain := by
  intro record there
  obtain ⟨one, among, its⟩ := List.mem_flatMap.mp there
  obtain ⟨written, -⟩ := concluded_of_mem among
  obtain ⟨point, held, rfl⟩ := List.mem_map.mp its
  refine ⟨selected_own _ _, ?_, naming.number _⟩
  rw [pointsOf, List.mem_append, List.mem_map, List.mem_map] at held
  rcases held with ⟨saved, here, rfl⟩ | ⟨saved, here, rfl⟩
  · exact readable.own _ (written _ (throughput_logged here)) saved.name (by simp [pointNames])
  · exact readable.own _ (written _ (latency_logged here)) saved.name (by simp [pointNames, SavedLatency.log])

/-- The measurements of an entry of the point. -/
theorem filter_runs (plain : Plain name) (readable : Readable name (runs.flatMap Run.records))
    (selected speedup : String) :
    ((runs.flatMap Run.experiments).flatMap (measurements propertyKey)).filter
        (fun record => keyOf record.1 record.2 = ⟨selected, shownName name, speedup⟩) =
      (measured name (selects propertyKey selected speedup) (runs.flatMap Run.experiments)).map
        (measurement propertyKey name) := by
  rw [measured_flatMap, List.map_flatMap, List.filter_flatMap]
  refine List.flatMap_congr fun one among => ?_
  obtain ⟨written, different⟩ := concluded_of_mem among
  refine filter_measurements plain (fun saved here => ?_) different fun saved here same => ?_
  · exact readable.plain _ (written _ (throughput_logged here)) saved.name (by simp [names])
  · have logged := written _ (latency_logged here)
    have other := readable.plain _ logged saved.name (by simp [names, SavedLatency.log])
    rw [SavedLatency.log, (shownName_inj other plain).mp same] at logged
    exact readable.single _ _ _ logged

/-- **What the viewer shows of a throughput point is what happened**: its entry for a line and a speedup has all
visits that the runs made during their experiments with these which began after the point was registered, and the
time of these experiments; there is no entry where there is none. -/
theorem viewed_visits (naming : Naming propertyKey) (plain : Plain name)
    (readable : Readable name (runs.flatMap Run.records)) :
    ∃ data, viewFile jsonParse propertyKey (profile (runs.flatMap Run.records)) = some (.ok data) ∧
      ∀ selected speedup,
        let of := selects propertyKey selected speedup
        let tried := measured name of (runs.flatMap Run.experiments)
        (runs.flatMap Run.visits).countP of < 2 ^ 53 → durationSum tried < 2 ^ 53 →
          data.entryAt ⟨selected, shownName name, speedup⟩ =
            if tried = [] then none
            else some (throughputEntry ((runs.flatMap Run.visits).countP of) (durationSum tried)) := by
  obtain ⟨data, added, entries⟩ := addMeasurements_of_plain (none : Option Value) AllOwn.empty
    (measurements_own naming readable)
  refine ⟨data, ?_, fun selected speedup visits times => ?_⟩
  · rw [viewFile_eq naming readable, readProfile_of_adds adds_runs, added]
  · rw [← deltaSum_measured] at visits
    rw [entries, filter_runs plain readable, ← deltaSum_measured]
    exact foldl_merge_measurement visits times

end File

/-! ### A run with two visits during an experiment -/

theorem toString_own (value : ℤ) : toString value ∉ inheritedNames := by
  have letters : ∀ text ∈ inheritedNames, text.toList.head?.all (fun char => !char.isDigit && char ≠ '-') := by decide
  intro inherited
  have first := letters _ inherited
  cases value with
  | ofNat number =>
      have shape : (toString (Int.ofNat number)).toList = Nat.toDigits 10 number := Nat.toList_repr
      cases digits : Nat.toDigits 10 number with
      | nil => exact Nat.toDigits_ne_nil digits
      | cons digit rest =>
          have decimal := digits_decimal number digit (digits ▸ List.mem_cons_self)
          rw [shape, digits] at first
          simp [decimal] at first
  | negSucc number =>
      have shape : (toString (Int.negSucc number)).toList = '-' :: (Nat.repr (number + 1)).toList := by
        show ("-" ++ Nat.repr (number + 1)).toList = _
        rw [String.toList_append]
        rfl
      rw [shape] at first
      simp at first

theorem naming_wholeKey : Naming wholeKey where
  text _ := rfl
  number value := by
    cases value with
    | nan => decide
    | infinite negative => simp [wholeKey, inheritedNames]
    | finite value => exact toString_own value.num

/-- The run in which the point is visited twice during an experiment. -/
def twoVisits : Run (ascii "point") where
  settings := free
  actions := visiting
  final := (run (Progress.step free (.throughput (ascii "point"))) Progress.start visiting).get (by decide +kernel)
  ran := (Option.some_get _).symm
  idle := by
    intro experiment running
    have ended : ((run (Progress.step free (.throughput (ascii "point"))) Progress.start visiting).get
      (by decide +kernel)).thread.phase.experiment.isNone = true := by decide +kernel
    rw [running] at ended
    cases ended

theorem viewed_visits_two :
    ∃ data, viewFile (fun _ => none) wholeKey (profile twoVisits.records) = some (.ok data) ∧
      data.entryAt ⟨"a.c:10", "point", "0"⟩ = some (throughputEntry 2 1000000000) := by
  have plain : (twoVisits.records.all fun record => (names record).all fun name => decide (Plain name)) = true := by
    decide +kernel
  have small : (twoVisits.records.all fun record => (counts record).all fun count => count.toNat < 2 ^ 53) = true := by
    decide +kernel
  have own : (twoVisits.records.all fun record => (pointNames record).all fun point =>
      shownName point ∉ inheritedNames) = true := by decide +kernel
  have single : (twoVisits.records.all fun record => record.type ≠ "latency-point") = true := by decide +kernel
  simp only [List.all_eq_true, decide_eq_true_eq] at plain small own single
  have readable : Readable (ascii "point") ([twoVisits].flatMap Run.records) := by
    rw [List.flatMap_singleton]
    exact ⟨plain, small, own, fun _ _ _ among => single _ among rfl⟩
  obtain ⟨data, viewed, entries⟩ := viewed_visits naming_wholeKey (by decide +kernel) readable
  refine ⟨data, by rwa [List.flatMap_singleton] at viewed, ?_⟩
  have visits : (([twoVisits].flatMap Run.visits).countP (selects wholeKey "a.c:10" "0")) = 2 := by decide +kernel
  have times : durationSum (measured (ascii "point") (selects wholeKey "a.c:10" "0")
      ([twoVisits].flatMap Run.experiments)) = 1000000000 := by decide +kernel
  have nonempty : (measured (ascii "point") (selects wholeKey "a.c:10" "0")
      ([twoVisits].flatMap Run.experiments)).isEmpty = false := by decide +kernel
  have point : shownName (ascii "point") = "point" := by decide +kernel
  have entry := entries "a.c:10" "0" (by rw [visits]; decide) (by rw [times]; decide)
  rw [point, visits, times, if_neg (by simpa using nonempty)] at entry
  exact entry

end EndToEnd

end Mcoz.Viewer
