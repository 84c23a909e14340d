/-
How the viewer collects the measurements of a profile.

The constructor of `Profile` goes through the lines with the last experiment at hand and adds each measurement
to the entry of its selected line, progress point and speedup. The entry is made by the first measurement, and
with its type, so one of the other kind under the same name is added to an entry that lacks its properties.
The objects that hold the entries inherit the properties of `Object.prototype`, and a name of one of these is
found there, so that its entry is not put into the profile.

The profile holds the aggregate of the records of each selected line, point, speedup and kind exactly if
neither happens (`measurements_apart_iff`).
-/

import Mcoz.Viewer.Measurements
import Mcoz.Viewer.Profile

set_option autoImplicit false

namespace Mcoz.Viewer

/-! ### Lines -/

/-- A line of the profile, by its type. -/
inductive Line (V : Type)
  | ignored
  | experiment (entry : Experiment V)
  | throughputPoint (entry : ThroughputPoint V)
  | latencyPoint (entry : LatencyPoint V)
  | invalid
deriving DecidableEq

/-- The types of lines for which nothing is done. -/
def ignoredTypes : List String :=
  ["startup", "shutdown", "samples", "runtime"]

/-- What the constructor takes an object for. A value that names a property is made a string
(`propertyKey`). -/
def Line.ofObject (propertyKey : Option Value → String) (entry : Object) : Line (Option Value) :=
  match entry "type" with
  | some (.text type) =>
      if String.ofList type ∈ ignoredTypes then .ignored
      else if type = "experiment".toList then
        .experiment ⟨propertyKey (entry "selected"), propertyKey (entry "speedup"), entry "duration"⟩
      else if type = "throughput-point".toList ∨ type = "progress-point".toList then
        .throughputPoint ⟨propertyKey (entry "name"), entry "delta"⟩
      else if type = "latency-point".toList then
        .latencyPoint ⟨propertyKey (entry "name"), entry "arrivals", entry "departures", entry "difference"⟩
      else .invalid
  | some (.number _) => .invalid
  | none => .invalid

/-! ### Entries -/

/-- The `type` of an entry. -/
inductive Kind
  | throughput
  | latency
deriving DecidableEq

/-- An `ExperimentData`. The properties of the other type are undefined; `duration` belongs to both. -/
structure ExperimentData (V : Type) where
  type : Kind
  delta : V
  latency : LatencyData V
deriving DecidableEq

/-- A measurement: a point of either kind. -/
inductive Point (V : Type)
  | throughput (point : ThroughputPoint V)
  | latency (point : LatencyPoint V)
deriving DecidableEq

namespace Point

variable {V : Type}

def kind : Point V → Kind
  | .throughput _ => .throughput
  | .latency _ => .latency

def name : Point V → String
  | .throughput point => point.name
  | .latency point => point.name

end Point

/-- Where an entry is held. -/
structure Key where
  selected : String
  point : String
  speedup : String
deriving DecidableEq

/-- The own properties of an object. -/
abbrev Properties (α : Type) := String → Option α

/-- The own property is set. -/
def Properties.put {α : Type} (own : Properties α) (name : String) (value : α) : Properties α :=
  fun other => if other = name then some value else own other

/-- `_data`. -/
abbrev Data (V : Type) := Properties (Properties (Properties (ExperimentData V)))

/-- The entry of the profile. -/
def Data.entryAt {V : Type} (data : Data V) (key : Key) : Option (ExperimentData V) :=
  ((data key.selected).bind fun points => points key.point).bind fun speedups => speedups key.speedup

/-- The properties that an object has from `Object.prototype`, none of which is false. -/
def inheritedNames : List String :=
  ["constructor", "hasOwnProperty", "isPrototypeOf", "propertyIsEnumerable", "toLocaleString", "toString",
    "valueOf", "__defineGetter__", "__defineSetter__", "__lookupGetter__", "__lookupSetter__", "__proto__"]

/-- Why the constructor does not go on: `null` has no properties, or the entry is one of a built-in object,
which is then changed and not the profile. -/
inductive Failure
  | typeError
  | builtIn
deriving DecidableEq

section Constructor

variable {V : Type} [Add V] [Mul V] [Div V] [Zero V] [DecidableEq V]

/-- The initial value of an entry, where `undefined` is that of a property that it lacks. -/
def ExperimentData.initial (undefined : V) : Kind → ExperimentData V
  | .throughput => ⟨.throughput, 0, ⟨undefined, undefined, undefined, 0⟩⟩
  | .latency => ⟨.latency, undefined, .initial⟩

/-- What a measurement does with its entry. -/
def ExperimentData.add (entry : ExperimentData V) (experiment : Experiment V) : Point V → ExperimentData V
  | .throughput point =>
      { entry with
        delta := entry.delta + point.delta
        latency := { entry.latency with duration := entry.latency.duration + experiment.duration } }
  | .latency point =>
      { entry with latency := entry.latency.addMeasurement experiment.duration point }

/-- An object's property is given the initial value if it is undefined. -/
def ensureProperty {α : Type} (own : Properties α) (name : String) (initial : α) :
    Except Failure (Properties α × α) :=
  match own name with
  | some value => .ok (own, value)
  | none => if name ∈ inheritedNames then .error .builtIn else .ok (own.put name initial, initial)

/-- `ensureDataEntry`. -/
def ensureDataEntry (data : Data V) (key : Key) (initialValue : ExperimentData V) :
    Except Failure (Data V × ExperimentData V) := do
  let (data, points) ← ensureProperty data key.selected fun _ => none
  let (points, speedups) ← ensureProperty points key.point fun _ => none
  let (speedups, entry) ← ensureProperty speedups key.speedup initialValue
  return (data.put key.selected (points.put key.point speedups), entry)

/-- The entry is changed where it is held. -/
def Data.setEntry (data : Data V) (key : Key) (entry : ExperimentData V) : Data V :=
  let points := (data key.selected).getD fun _ => none
  let speedups := (points key.point).getD fun _ => none
  data.put key.selected (points.put key.point (speedups.put key.speedup entry))

/-- The entry that a measurement belongs to. -/
def keyOf (experiment : Experiment V) (point : Point V) : Key :=
  ⟨experiment.selected, point.name, experiment.speedup⟩

/-- `addThroughputMeasurement` and `addLatencyMeasurement`. -/
def addMeasurement (undefined : V) (data : Data V) (experiment : Experiment V) (point : Point V) :
    Except Failure (Data V) := do
  let (data, entry) ← ensureDataEntry data (keyOf experiment point) (.initial undefined point.kind)
  return data.setEntry (keyOf experiment point) (entry.add experiment point)

/-- One line in the loop of the constructor, with the last experiment. -/
def readLine (undefined : V) (state : Data V × Option (Experiment V)) :
    Line V → Except Failure (Data V × Option (Experiment V))
  | .ignored => .ok state
  | .experiment entry => .ok (state.1, some entry)
  | .throughputPoint entry => measure (.throughput entry)
  | .latencyPoint entry => measure (.latency entry)
  | .invalid => .ok state
where
  measure (point : Point V) : Except Failure (Data V × Option (Experiment V)) :=
    match state.2 with
    | none => .error .typeError
    | some experiment => (addMeasurement undefined state.1 experiment point).map fun data => (data, state.2)

/-- The constructor of `Profile`, from the lines. -/
def readProfile (undefined : V) (lines : List (Line V)) : Except Failure (Data V) :=
  (lines.foldlM (readLine undefined) (fun _ => none, none)).map fun state => state.1

/-- The constructor of `Profile`, if no line throws. -/
def viewProfile [Add (Option Value)] [Mul (Option Value)] [Div (Option Value)] [Zero (Option Value)]
    (jsonParse : List Char → Option Object) (propertyKey : Option Value → String)
    (profileText : List Char) : Option (Except Failure (Data (Option Value))) :=
  (parseProfile jsonParse profileText).map fun entries =>
    readProfile none (entries.map (Line.ofObject propertyKey))

end Constructor

/-! ### The records of an entry -/

section Records

variable {V : Type} [Add V] [Mul V] [Div V] [Zero V] [DecidableEq V]

/-- The measurements in the lines, each with the experiment before it. -/
def attributed : Option (Experiment V) → List (Line V) → List (Experiment V × Point V)
  | _, [] => []
  | last, .ignored :: rest => attributed last rest
  | _, .experiment entry :: rest => attributed (some entry) rest
  | last, .throughputPoint entry :: rest =>
      (last.map fun experiment => (experiment, .throughput entry)).toList ++ attributed last rest
  | last, .latencyPoint entry :: rest =>
      (last.map fun experiment => (experiment, .latency entry)).toList ++ attributed last rest
  | last, .invalid :: rest => attributed last rest

/-- The entry of these measurements, if there are any, as one of the kind. -/
def aggregate (undefined : V) (kind : Kind) (records : List (Experiment V × Point V)) :
    Option (ExperimentData V) :=
  if records = [] then none
  else some (records.foldl (fun entry record => entry.add record.1 record.2) (.initial undefined kind))

/-- What the profile holds for a key and a kind. -/
def Data.held (data : Data V) (key : Key) (kind : Kind) : Option (ExperimentData V) :=
  (data.entryAt key).filter fun entry => entry.type = kind

/-- The data of every selected line, point, speedup and kind is the aggregate of their records. -/
def Apart (undefined : V) (records : List (Experiment V × Point V)) (data : Data V) : Prop :=
  ∀ key kind, data.held key kind = aggregate undefined kind
    (records.filter fun record => keyOf record.1 record.2 = key ∧ record.2.kind = kind)

/-- No name of the key is one that objects inherit. -/
def Key.Plain (key : Key) : Prop :=
  key.selected ∉ inheritedNames ∧ key.point ∉ inheritedNames ∧ key.speedup ∉ inheritedNames

instance Key.decidablePlain (key : Key) : Decidable key.Plain :=
  inferInstanceAs (Decidable (_ ∧ _))

end Records

/-! ### One measurement -/

section Own

variable {α : Type} {own : Properties α} {good : α → Prop} {name : String} {value initial : α}

theorem put_self : own.put name value name = some value :=
  if_pos rfl

theorem put_of_ne {elsewhere : String} (different : elsewhere ≠ name) :
    own.put name value elsewhere = own elsewhere :=
  if_neg different

theorem put_put {old : α} : (own.put name old).put name value = own.put name value := by
  funext elsewhere
  by_cases same : elsewhere = name
  · rw [same, put_self, put_self]
  · rw [put_of_ne same, put_of_ne same, put_of_ne same]

/-- No own property is inherited too, and their values are good. -/
def AllOwn (good : α → Prop) (own : Properties α) : Prop :=
  ∀ name value, own name = some value → name ∉ inheritedNames ∧ good value

theorem AllOwn.empty : AllOwn good fun _ => none := by
  intro name value held
  cases held

theorem AllOwn.put (all : AllOwn good own) (plain : name ∉ inheritedNames) (fine : good value) :
    AllOwn good (own.put name value) := by
  intro other value' held
  by_cases same : other = name
  · subst same
    rw [put_self] at held
    exact Option.some.inj held ▸ ⟨plain, fine⟩
  · rw [put_of_ne same] at held
    exact all other value' held

theorem AllOwn.getD (all : AllOwn good own) (name : String) (fine : good initial) : good ((own name).getD initial) := by
  cases held : own name with
  | none => exact fine
  | some value => exact (all name value held).2

theorem AllOwn.eq_none (all : AllOwn good own) (inherited : name ∈ inheritedNames) : own name = none := by
  cases held : own name with
  | none => rfl
  | some value => exact absurd inherited (all name value held).1

/-- A property that is not inherited gets the initial value or keeps its own. -/
theorem ensureProperty_of_plain (plain : name ∉ inheritedNames) :
    ensureProperty own name initial =
      .ok (own.put name ((own name).getD initial), (own name).getD initial) := by
  unfold ensureProperty
  cases held : own name with
  | none => exact if_neg plain
  | some value =>
      have same : own.put name value = own := by
        funext elsewhere
        by_cases here : elsewhere = name
        · rw [here, put_self, held]
        · exact put_of_ne here
      rw [Option.getD_some, same]

theorem ensureProperty_of_inherited (all : AllOwn good own) (inherited : name ∈ inheritedNames) :
    ensureProperty own name initial = .error .builtIn := by
  unfold ensureProperty
  rw [all.eq_none inherited]
  exact if_pos inherited

end Own

section Entry

variable {V : Type} {data : Data V} {key other : Key} {entry initialValue : ExperimentData V}

/-- All names under which the profile holds something are its own. -/
def Own (data : Data V) : Prop :=
  AllOwn (AllOwn (AllOwn fun _ => True)) data

theorem own_setEntry (good : Own data) (plain : key.Plain) : Own (data.setEntry key entry) := by
  have points := AllOwn.getD good key.selected AllOwn.empty
  have speedups := points.getD key.point AllOwn.empty
  exact AllOwn.put good plain.1 (points.put plain.2.1 (speedups.put plain.2.2 trivial))

/-- What is set is what is found there, and nothing else changes. -/
theorem entryAt_setEntry :
    (data.setEntry key entry).entryAt other = if other = key then some entry else data.entryAt other := by
  obtain ⟨selected, point, speedup⟩ := key
  obtain ⟨selected', point', speedup'⟩ := other
  simp only [Data.entryAt, Data.setEntry, Key.mk.injEq]
  by_cases first : selected' = selected
  · subst first
    rw [put_self, Option.bind_some]
    by_cases second : point' = point
    · subst second
      rw [put_self, Option.bind_some]
      by_cases third : speedup' = speedup
      · subst third
        rw [put_self, if_pos ⟨rfl, rfl, rfl⟩]
      · rw [put_of_ne third, if_neg fun same => third same.2.2]
        cases data selected' with
        | none => rfl
        | some points =>
            show ((points point').getD fun _ => none) speedup' = (points point').bind fun own => own speedup'
            cases points point' <;> rfl
    · rw [put_of_ne second, if_neg fun same => second same.2.1]
      cases data selected' <;> rfl
  · rw [put_of_ne first, if_neg fun same => first same.1]

theorem ensureDataEntry_of_plain (plain : key.Plain) :
    ensureDataEntry data key initialValue =
      .ok (data.setEntry key ((data.entryAt key).getD initialValue), (data.entryAt key).getD initialValue) := by
  have found : ((((data key.selected).getD fun _ => none) key.point).getD fun _ => none) key.speedup =
      data.entryAt key := by
    unfold Data.entryAt
    cases data key.selected with
    | none => rfl
    | some points =>
        show ((points key.point).getD fun _ => none) key.speedup =
          (points key.point).bind fun speedups => speedups key.speedup
        cases points key.point <;> rfl
  rw [ensureDataEntry, ensureProperty_of_plain plain.1]
  simp only [bind, Except.bind, pure, Except.pure]
  rw [ensureProperty_of_plain plain.2.1]
  simp only []
  rw [ensureProperty_of_plain plain.2.2]
  simp only [put_put, found]
  rfl

/-- The first of the names that is inherited leads to a built-in object. -/
theorem ensureDataEntry_of_inherited (good : Own data) (inherited : ¬ key.Plain) :
    ensureDataEntry data key initialValue = .error .builtIn := by
  have points := AllOwn.getD good key.selected AllOwn.empty
  have speedups := points.getD key.point AllOwn.empty
  rw [ensureDataEntry]
  by_cases first : key.selected ∈ inheritedNames
  · rw [ensureProperty_of_inherited good first]
    rfl
  · rw [ensureProperty_of_plain first]
    simp only [bind, Except.bind, pure, Except.pure]
    by_cases second : key.point ∈ inheritedNames
    · rw [ensureProperty_of_inherited points second]
    · have third : key.speedup ∈ inheritedNames := by
        by_contra plain
        exact inherited ⟨first, second, plain⟩
      rw [ensureProperty_of_plain second]
      simp only []
      rw [ensureProperty_of_inherited speedups third]

end Entry

section Measurement

variable {V : Type} [Add V] [Mul V] [Div V] [Zero V] [DecidableEq V] {undefined : V} {data : Data V}
  {experiment : Experiment V} {point : Point V}

/-- The entry with a measurement of its key. -/
def merge (undefined : V) (entry : Option (ExperimentData V)) (record : Experiment V × Point V) :
    Option (ExperimentData V) :=
  some ((entry.getD (.initial undefined record.2.kind)).add record.1 record.2)

/-- A measurement changes the entry of its key, and no other. -/
theorem addMeasurement_of_plain (undefined : V) (good : Own data) (plain : (keyOf experiment point).Plain) :
    ∃ data', addMeasurement undefined data experiment point = .ok data' ∧ Own data' ∧
      ∀ key, data'.entryAt key =
        if key = keyOf experiment point then merge undefined (data.entryAt key) (experiment, point)
        else data.entryAt key := by
  obtain ⟨before, known⟩ : ∃ before, before =
      (data.entryAt (keyOf experiment point)).getD (.initial undefined point.kind) := ⟨_, rfl⟩
  have stored : addMeasurement undefined data experiment point =
      .ok ((data.setEntry (keyOf experiment point) before).setEntry (keyOf experiment point)
        (before.add experiment point)) := by
    rw [addMeasurement, ensureDataEntry_of_plain plain, known]
    rfl
  refine ⟨_, stored, own_setEntry (own_setEntry good plain) plain, fun key => ?_⟩
  rw [entryAt_setEntry]
  by_cases here : key = keyOf experiment point
  · rw [if_pos here, if_pos here, here, known]
    rfl
  · rw [if_neg here, if_neg here, entryAt_setEntry, if_neg here]

theorem addMeasurement_of_inherited (good : Own data) (inherited : ¬ (keyOf experiment point).Plain) :
    addMeasurement undefined data experiment point = .error .builtIn := by
  rw [addMeasurement, ensureDataEntry_of_inherited good inherited]
  rfl

end Measurement

/-! ### All measurements -/

section Measurements

variable {V : Type} [Add V] [Mul V] [Div V] [Zero V] [DecidableEq V] {undefined : V} {data : Data V}
  {records : List (Experiment V × Point V)} {lines : List (Line V)} {last : Option (Experiment V)}

/-- The measurements one after the other. -/
def addMeasurements (undefined : V) (data : Data V) (records : List (Experiment V × Point V)) :
    Except Failure (Data V) :=
  records.foldlM (fun data record => addMeasurement undefined data record.1 record.2) data

/-- The entry of each key collects its measurements. -/
theorem addMeasurements_of_plain (undefined : V) (good : Own data)
    (plain : ∀ record ∈ records, (keyOf record.1 record.2).Plain) :
    ∃ data', addMeasurements undefined data records = .ok data' ∧
      ∀ key, data'.entryAt key = (records.filter fun record => keyOf record.1 record.2 = key).foldl
        (merge undefined) (data.entryAt key) := by
  induction records generalizing data with
  | nil => exact ⟨data, rfl, fun key => rfl⟩
  | cons record rest ih =>
      obtain ⟨first, others⟩ := List.forall_mem_cons.mp plain
      obtain ⟨middle, added, good', entries⟩ := addMeasurement_of_plain undefined good first
      obtain ⟨data', ran, collected⟩ := ih good' others
      refine ⟨data', ?_, fun key => ?_⟩
      · rw [addMeasurements, List.foldlM_cons, added]
        exact ran
      · rw [collected, entries]
        by_cases here : keyOf record.1 record.2 = key
        · rw [if_pos here.symm, List.filter_cons_of_pos (by simpa using here), List.foldl_cons]
        · rw [if_neg (Ne.symm here), List.filter_cons_of_neg (by simpa using here)]

theorem addMeasurements_of_inherited (good : Own data)
    (inherited : ∃ record ∈ records, ¬ (keyOf record.1 record.2).Plain) :
    addMeasurements undefined data records = .error .builtIn := by
  induction records generalizing data with
  | nil => simp at inherited
  | cons record rest ih =>
      rw [addMeasurements, List.foldlM_cons]
      by_cases first : (keyOf record.1 record.2).Plain
      · obtain ⟨middle, added, good', -⟩ := addMeasurement_of_plain undefined good first
        rw [added]
        refine ih good' ?_
        obtain ⟨other, among, bad⟩ := inherited
        rcases List.mem_cons.mp among with rfl | later
        · exact absurd first bad
        · exact ⟨other, later, bad⟩
      · rw [addMeasurement_of_inherited good first]
        rfl

/-- Unless a measurement comes before any experiment, the lines are their measurements. -/
def Collects (undefined : V) (data : Data V) (last : Option (Experiment V)) (lines : List (Line V)) : Prop :=
  lines.foldlM (readLine undefined) (data, last) = .error .typeError ∨
    (lines.foldlM (readLine undefined) (data, last)).map (fun state => state.1) =
      addMeasurements undefined data (attributed last lines)

/-- A measurement is added with the last experiment, before those of the other lines. -/
theorem collects_measure {point : Point V} (later : ∀ data, Collects undefined data last lines) :
    (readLine.measure undefined (data, last) point).bind (fun state => lines.foldlM (readLine undefined) state) =
        .error .typeError ∨
      ((readLine.measure undefined (data, last) point).bind
          fun state => lines.foldlM (readLine undefined) state).map (fun state => state.1) =
        addMeasurements undefined data
          ((last.map fun experiment => (experiment, point)).toList ++ attributed last lines) := by
  cases last with
  | none => exact Or.inl rfl
  | some experiment =>
      have first : addMeasurements undefined data ((experiment, point) :: attributed (some experiment) lines) =
          (addMeasurement undefined data experiment point).bind fun data =>
            addMeasurements undefined data (attributed (some experiment) lines) := rfl
      rw [readLine.measure, Option.map_some, Option.toList_some, List.singleton_append, first]
      dsimp only
      cases addMeasurement undefined data experiment point with
      | error failure => exact Or.inr rfl
      | ok data' => exact later data'

theorem collects : ∀ data, Collects undefined data last lines := by
  induction lines generalizing last with
  | nil => exact fun data => Or.inr rfl
  | cons line rest ih =>
      cases line with
      | ignored => exact ih
      | experiment entry => exact ih
      | throughputPoint entry => exact fun data => collects_measure ih
      | latencyPoint entry => exact fun data => collects_measure ih
      | invalid => exact ih

theorem readProfile_eq (started : readProfile undefined lines ≠ .error .typeError) :
    readProfile undefined lines = addMeasurements undefined (fun _ => none) (attributed none lines) := by
  refine (collects _).resolve_left fun failed => started ?_
  rw [readProfile, failed]
  rfl

end Measurements

/-! ### The entry of a key -/

theorem initial_type {V : Type} [Zero V] {undefined : V} {kind : Kind} :
    (ExperimentData.initial undefined kind).type = kind := by
  cases kind <;> rfl

section Entries

variable {V : Type} [Add V] [Mul V] [Div V] [Zero V] [DecidableEq V] {undefined : V}
  {records : List (Experiment V × Point V)} {entry : ExperimentData V} {kind : Kind}

theorem add_type {experiment : Experiment V} {point : Point V} :
    (entry.add experiment point).type = entry.type := by
  cases point <;> rfl

theorem foldl_merge_some :
    records.foldl (merge undefined) (some entry) =
      some (records.foldl (fun entry record => entry.add record.1 record.2) entry) := by
  induction records generalizing entry with
  | nil => rfl
  | cons record rest ih => exact ih

theorem foldl_add_type :
    (records.foldl (fun entry record => entry.add record.1 record.2) entry).type = entry.type := by
  induction records generalizing entry with
  | nil => rfl
  | cons record rest ih => exact ih.trans add_type

/-- The first measurement of a key makes its entry. -/
theorem foldl_merge_cons {record : Experiment V × Point V} :
    (record :: records).foldl (merge undefined) none = aggregate undefined record.2.kind (record :: records) := by
  rw [aggregate, if_neg (List.cons_ne_nil _ _), List.foldl_cons]
  exact foldl_merge_some

theorem aggregate_type (made : aggregate undefined kind records = some entry) : entry.type = kind := by
  unfold aggregate at made
  split at made
  · cases made
  · obtain rfl := Option.some.inj made
    exact foldl_add_type.trans initial_type

/-- **The entry of a key is the aggregate of each kind** exactly if the records of the key are of one kind. -/
theorem held_eq_aggregate_iff :
    (∀ kind, (records.foldl (merge undefined) none).filter (fun entry => entry.type = kind) =
        aggregate undefined kind (records.filter fun record => record.2.kind = kind)) ↔
      ∀ first ∈ records, ∀ second ∈ records, first.2.kind = second.2.kind := by
  cases records with
  | nil => exact iff_of_true (fun kind => rfl) (by simp)
  | cons record rest =>
      obtain ⟨entry, made⟩ : ∃ entry, aggregate undefined record.2.kind (record :: rest) = some entry :=
        ⟨_, if_neg (List.cons_ne_nil _ _)⟩
      have typed := aggregate_type made
      rw [foldl_merge_cons, made]
      constructor
      · intro equal_ first among second among'
        have same {other : Experiment V × Point V} (there : other ∈ record :: rest) :
            other.2.kind = record.2.kind := by
          by_contra different
          -- The entry is of the first kind, so it is not one of the other kind.
          have absent : (some entry).filter (fun entry => decide (entry.type = other.2.kind)) = none := by
            rw [Option.filter_some, if_neg (by simpa [typed] using Ne.symm different)]
          have kept : other ∈ (record :: rest).filter fun record => record.2.kind = other.2.kind :=
            List.mem_filter.mpr ⟨there, by simp⟩
          have equal := equal_ other.2.kind
          rw [absent, aggregate, if_neg (List.ne_nil_of_mem kept)] at equal
          cases equal
        rw [same among, same among']
      · intro same kind
        by_cases this : record.2.kind = kind
        · subst this
          have whole : (record :: rest).filter (fun other => other.2.kind = record.2.kind) = record :: rest := by
            rw [List.filter_eq_self]
            exact fun other among => by simpa using same other among record List.mem_cons_self
          rw [whole, made, Option.filter_some, if_pos (by simpa using typed)]
        · have empty : (record :: rest).filter (fun other => other.2.kind = kind) = [] := by
            rw [List.filter_eq_nil_iff]
            intro other among
            simpa [same other among record List.mem_cons_self] using this
          rw [empty, Option.filter_some, if_neg (by simpa [typed] using this)]
          rfl

/-- The profile keeps the measurements apart exactly if no name is inherited and no point of both kinds is
measured for one line and one speedup. -/
theorem addMeasurements_apart_iff :
    (∃ data, addMeasurements undefined (fun _ => none) records = .ok data ∧ Apart undefined records data) ↔
      (∀ record ∈ records, (keyOf record.1 record.2).Plain) ∧
        ∀ first ∈ records, ∀ second ∈ records,
          keyOf first.1 first.2 = keyOf second.1 second.2 → first.2.kind = second.2.kind := by
  by_cases plain : ∀ record ∈ records, (keyOf record.1 record.2).Plain
  · obtain ⟨data, ran, entries⟩ := addMeasurements_of_plain undefined AllOwn.empty plain
    have apart : Apart undefined records data ↔ ∀ key, ∀ kind,
        ((records.filter fun record => keyOf record.1 record.2 = key).foldl (merge undefined) none).filter
            (fun entry => entry.type = kind) =
          aggregate undefined kind ((records.filter fun record => keyOf record.1 record.2 = key).filter
            fun record => record.2.kind = kind) := by
      refine forall_congr' fun key => forall_congr' fun kind => ?_
      rw [Data.held, entries, List.filter_filter]
      simp only [Bool.decide_and, Bool.and_comm]
      rfl
    rw [ran, and_iff_right plain]
    constructor
    · rintro ⟨_, same, kept⟩ first among second among' one
      obtain rfl := Except.ok.inj same
      refine held_eq_aggregate_iff.mp (apart.mp kept (keyOf second.1 second.2)) first ?_ second ?_
      · exact List.mem_filter.mpr ⟨among, by simpa using one⟩
      · exact List.mem_filter.mpr ⟨among', by simp⟩
    · intro single
      refine ⟨data, rfl, apart.mpr fun key => held_eq_aggregate_iff.mpr fun first among second among' => ?_⟩
      obtain ⟨here, one⟩ := List.mem_filter.mp among
      obtain ⟨here', one'⟩ := List.mem_filter.mp among'
      rw [decide_eq_true_iff] at one one'
      exact single first here second here' (one.trans one'.symm)
  · have failed : addMeasurements undefined (fun _ => none) records = .error .builtIn :=
      addMeasurements_of_inherited AllOwn.empty (by simpa using plain)
    refine iff_of_false ?_ fun both => plain both.1
    rintro ⟨data, ran, -⟩
    rw [failed] at ran
    cases ran

end Entries

/-! ### Profiles -/

section Profiles

variable [Add (Option Value)] [Mul (Option Value)] [Div (Option Value)] [Zero (Option Value)]
  {jsonParse : List Char → Option Object} {propertyKey : Option Value → String} {profileText : List Char}

/-- The records of a profile, each with the experiment before it. -/
def profileRecords (jsonParse : List Char → Option Object) (propertyKey : Option Value → String)
    (profileText : List Char) : List (Experiment (Option Value) × Point (Option Value)) :=
  attributed none (((parseProfile jsonParse profileText).getD []).map (Line.ofObject propertyKey))

/-- **The viewer keeps the measurements apart** exactly if no selected line, progress point or speedup has the
name of a property of `Object.prototype`, and no two records of one line, point and speedup are of different
kinds. A profile with a measurement before any experiment is not read at all. -/
theorem measurements_apart_iff {outcome : Except Failure (Data (Option Value))}
    (viewed : viewProfile jsonParse propertyKey profileText = some outcome)
    (started : outcome ≠ .error .typeError) :
    (∃ data, outcome = .ok data ∧ Apart none (profileRecords jsonParse propertyKey profileText) data) ↔
      (∀ record ∈ profileRecords jsonParse propertyKey profileText, (keyOf record.1 record.2).Plain) ∧
        ∀ first ∈ profileRecords jsonParse propertyKey profileText,
          ∀ second ∈ profileRecords jsonParse propertyKey profileText,
            keyOf first.1 first.2 = keyOf second.1 second.2 → first.2.kind = second.2.kind := by
  obtain ⟨entries, parsed, rfl⟩ := Option.map_eq_some_iff.mp viewed
  have records : profileRecords jsonParse propertyKey profileText =
      attributed none (entries.map (Line.ofObject propertyKey)) := by
    rw [profileRecords, parsed, Option.getD_some]
  rw [readProfile_eq started, ← records]
  exact addMeasurements_apart_iff

end Profiles

/-! ### A profile with one name for two points -/

/-- The finite number. -/
def finiteNumber : Option Value → Option ℚ
  | some (.number (.finite value)) => some value
  | some (.number .nan) => none
  | some (.number (.infinite _)) => none
  | some (.text _) => none
  | none => none

/-- Exact arithmetic, in which anything but a finite number makes `NaN`. -/
def exactOperation (operation : ℚ → ℚ → ℚ) (first second : Option Value) : Option Value :=
  match finiteNumber first, finiteNumber second with
  | some left, some right => some (.number (.finite (operation left right)))
  | some _, none => some (.number .nan)
  | none, _ => some (.number .nan)

instance exactAdd : Add (Option Value) := ⟨exactOperation (· + ·)⟩

instance exactMul : Mul (Option Value) := ⟨exactOperation (· * ·)⟩

instance exactDiv : Div (Option Value) := ⟨exactOperation (· / ·)⟩

instance exactZero : Zero (Option Value) := ⟨some (.number (.finite 0))⟩

/-- The name of a property that is given by a text or by a whole number. -/
def wholeKey : Option Value → String
  | some (.text text) => String.ofList text
  | some (.number (.finite value)) => toString value.num
  | some (.number .nan) => "NaN"
  | some (.number (.infinite _)) => "Infinity"
  | none => "undefined"

/-- The number of a column. -/
def whole (value : ℚ) : Option Value :=
  some (.number (.finite value))

/-- Two experiments on a line, with a throughput point and a latency point. -/
def apartPoints : List Char :=
  ("experiment\tselected=a.c:1\tspeedup=0\tduration=5\nthroughput-point\tname=p\tdelta=3\n" ++
    "latency-point\tname=q\tarrivals=4\tdepartures=2\tdifference=2\n" ++
    "experiment\tselected=a.c:1\tspeedup=0\tduration=9\nthroughput-point\tname=p\tdelta=8\n").toList

/-- A throughput point and a latency point of one name. -/
def twoPoints : List Char :=
  ("experiment\tselected=a.c:1\tspeedup=0.00\tduration=5\nthroughput-point\tname=p\tdelta=3\n" ++
    "latency-point\tname=p\tarrivals=1\tdepartures=1\tdifference=0\n").toList

theorem lines_apartPoints :
    (parseProfile (fun _ => none) apartPoints).map (fun entries => entries.map (Line.ofObject wholeKey)) =
      some [.experiment ⟨"a.c:1", "0", whole 5⟩, .throughputPoint ⟨"p", whole 3⟩,
        .latencyPoint ⟨"q", whole 4, whole 2, whole 2⟩, .experiment ⟨"a.c:1", "0", whole 9⟩,
        .throughputPoint ⟨"p", whole 8⟩] := by
  decide +kernel

theorem lines_twoPoints :
    (parseProfile (fun _ => none) twoPoints).map (fun entries => entries.map (Line.ofObject wholeKey)) =
      some [.experiment ⟨"a.c:1", "0", whole 5⟩, .throughputPoint ⟨"p", whole 3⟩,
        .latencyPoint ⟨"p", whole 1, whole 1, whole 0⟩] := by
  decide +kernel

/-- A profile with these lines. -/
theorem viewProfile_of_lines {profileText : List Char} {lines : List (Line (Option Value))}
    (read : (parseProfile (fun _ => none) profileText).map
      (fun entries => entries.map (Line.ofObject wholeKey)) = some lines) :
    viewProfile (fun _ => none) wholeKey profileText = some (readProfile none lines) ∧
      profileRecords (fun _ => none) wholeKey profileText = attributed none lines := by
  obtain ⟨entries, parsed, rfl⟩ := Option.map_eq_some_iff.mp read
  rw [viewProfile, profileRecords, parsed]
  exact ⟨rfl, rfl⟩

/-- A latency point under the name of a throughput point has no data. -/
theorem same_name_merged :
    ∃ data, viewProfile (fun _ => none) wholeKey twoPoints = some (.ok data) ∧
      ¬ Apart none (profileRecords (fun _ => none) wholeKey twoPoints) data := by
  obtain ⟨viewed, records⟩ := viewProfile_of_lines lines_twoPoints
  refine ⟨_, viewed, fun apart => ?_⟩
  have held := apart ⟨"a.c:1", "p", "0"⟩ .latency
  rw [records] at held
  exact absurd held (by decide)

theorem measurements_apart_iff_two :
    ∃ data, viewProfile (fun _ => none) wholeKey apartPoints = some (.ok data) ∧
      Apart none (profileRecords (fun _ => none) wholeKey apartPoints) data := by
  obtain ⟨viewed, records⟩ := viewProfile_of_lines lines_apartPoints
  obtain ⟨data, built, apart⟩ := (measurements_apart_iff viewed nofun).mpr (by rw [records]; decide)
  rw [built] at viewed
  exact ⟨data, viewed, apart⟩

end Mcoz.Viewer
