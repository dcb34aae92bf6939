import Mathlib.Algebra.Order.Ring.Rat
import Mathlib.Data.List.Dedup
import N2FNest.Lib.Run
import N2FNest.Lib.Table
import N2FNest.Shared.Value

/-! The process-local metrics registry. A series is found under the name of its metric
and the joined values of its labels. Arithmetic is exact. -/

namespace N2FNest.Metrics

open Lib Shared

inductive MetricType where
  | counter | gauge | histogram
  deriving DecidableEq

/-- A record of label values. -/
abbrev MetricLabels := Table (fun label : JsString × JsString => label.1)

structure MetricDefinition where
  name : JsString
  help : JsString
  type : MetricType
  labels : List JsString
  buckets : Option (List JsNumber)

/-- What the registry keeps of a definition; only a histogram has buckets. -/
structure Metric where
  name : JsString
  help : JsString
  type : MetricType
  labels : List JsString
  buckets : List ℚ

structure HistogramState where
  counts : List Nat
  count : Nat
  sum : ℚ
  deriving DecidableEq

structure Series where
  definition : Metric
  labels : MetricLabels
  value : ℚ
  histogram : Option HistogramState

/-- A series under its key. -/
structure Entry where
  key : JsString
  series : Series

private def isNameStart (unit : UInt16) : Bool :=
  (0x61 ≤ unit && unit ≤ 0x7A) || (0x41 ≤ unit && unit ≤ 0x5A) || unit == 0x5F || unit == 0x3A

private def isNamePart (unit : UInt16) : Bool := isNameStart unit || (0x30 ≤ unit && unit ≤ 0x39)

/-- `METRIC_NAME`, `/^[a-zA-Z_:][a-zA-Z0-9_:]*$/`. -/
def isMetricName (text : JsString) : Bool :=
  match text.units with
  | [] => false
  | first :: rest => isNameStart first && rest.all isNamePart

theorem isMetricName_filled {text : JsString} (valid : isMetricName text = true) :
    (0 : UInt16) ∉ text.units := by
  unfold isMetricName at valid
  split at valid
  · cases valid
  · rename_i first rest same
    simp only [Bool.and_eq_true, List.all_eq_true] at valid
    rw [same, List.mem_cons, not_or]
    constructor
    · rintro rfl
      exact absurd valid.1 (by decide)
    · intro member
      exact absurd (valid.2 0 member) (by decide)

/-- The values of a metric's labels in the metric's order, where a record has these labels. -/
def labelValues (definition : Metric) (labels : MetricLabels) : Option (List JsString) :=
  if labels.rows.length ≠ definition.labels.length then none
  else definition.labels.mapM fun name => (labels.get name).map fun label => label.2

/-- `values.join('\u0001')`. -/
def join (values : List JsString) : JsString :=
  ⟨[0x01].intercalate (values.map fun value => value.units)⟩

def labelsKey (definition : Metric) (labels : MetricLabels) : Option JsString :=
  (labelValues definition labels).map join

def validBucket : JsNumber → Option ℚ
  | .finite value => if 0 ≤ value then some value else none
  | _ => none

/-- Finite bounds, ascending and each once. -/
def validBuckets (buckets : Option (List JsNumber)) : List ℚ :=
  (((buckets.getD []).filterMap validBucket).mergeSort fun left right => decide (left ≤ right)).dedup

theorem validBuckets_ascending (buckets : Option (List JsNumber)) :
    (validBuckets buckets).Pairwise (· ≤ ·) := by
  refine List.Pairwise.sublist (List.dedup_sublist _) ?_
  have sorted : (((buckets.getD []).filterMap validBucket).mergeSort fun left right =>
      decide (left ≤ right)).Pairwise fun left right => decide (left ≤ right) = true := by
    apply List.pairwise_mergeSort
    · intro first second third early late
      exact decide_eq_true (le_trans (of_decide_eq_true early) (of_decide_eq_true late))
    · intro first second
      simpa using le_total first second
  exact sorted.imp fun before => of_decide_eq_true before

theorem mem_validBuckets {buckets : Option (List JsNumber)} {bound : ℚ}
    (member : bound ∈ validBuckets buckets) : .finite bound ∈ buckets.getD [] := by
  rw [validBuckets, List.mem_dedup, List.mem_mergeSort, List.mem_filterMap] at member
  obtain ⟨given, listed, valid⟩ := member
  unfold validBucket at valid
  split at valid
  · split at valid
    · cases valid
      exact listed
    · cases valid
  · cases valid

def MetricDefinition.valid (definition : MetricDefinition) : Bool :=
  isMetricName definition.name && definition.help.length ≠ 0 && definition.labels.all isMetricName

def MetricDefinition.metric (definition : MetricDefinition) : Metric where
  name := definition.name
  help := definition.help
  type := definition.type
  labels := definition.labels
  buckets := if definition.type = .histogram then validBuckets definition.buckets else []

structure MetricsRegistry where
  definitions : Table (fun metric : Metric => metric.name)
  entries : Table (fun entry : Entry => entry.key)

/-- `name + '\u0000' + key`. -/
def seriesKey (name key : JsString) : JsString := ⟨name.units ++ 0 :: key.units⟩

theorem seriesKey_name {name other key otherKey : JsString} (filled : (0 : UInt16) ∉ name.units)
    (otherFilled : (0 : UInt16) ∉ other.units) (same : seriesKey name key = seriesKey other otherKey) :
    name = other := by
  have units : name.units ++ 0 :: key.units = other.units ++ 0 :: otherKey.units :=
    congrArg JsString.units same
  have before : ∀ text rest : List UInt16, (0 : UInt16) ∉ text →
      (text ++ 0 :: rest).takeWhile (· ≠ 0) = text := by
    intro text rest filled
    rw [List.takeWhile_append_of_pos]
    · simp
    · intro unit member
      simpa using fun same : unit = 0 => filled (same ▸ member)
  obtain ⟨units'⟩ := name
  obtain ⟨others⟩ := other
  have first := before units' key.units filled
  rw [units, before others otherKey.units otherFilled] at first
  rw [first]

namespace MetricsRegistry

def register (known : Table (fun metric : Metric => metric.name)) (definition : MetricDefinition) :
    Table (fun metric : Metric => metric.name) :=
  if definition.valid then known.set definition.metric else known

def create (definitions : List MetricDefinition) : MetricsRegistry :=
  ⟨definitions.foldl register Table.empty, Table.empty⟩

/-- The series of a call under its key, opened where it is not there. -/
def series (registry : MetricsRegistry) (name : JsString) (labels : MetricLabels) :
    Option (Entry × MetricsRegistry) := do
  let definition ← registry.definitions.get name
  let key ← labelsKey definition labels
  match registry.entries.get (seriesKey name key) with
  | some existing => return (existing, registry)
  | none =>
    let created : Entry := ⟨seriesKey name key, ⟨definition, labels, 0, none⟩⟩
    return (created, { registry with entries := registry.entries.set created })

/-- What a call does to the series it is for. -/
def update (registry : MetricsRegistry) (name : JsString) (labels : MetricLabels)
    (change : Series → Series) : MetricsRegistry :=
  match registry.series name labels with
  | none => registry
  | some (entry, opened) =>
    { opened with entries := opened.entries.set { entry with series := change entry.series } }

end MetricsRegistry

namespace Series

/-- The sum is exact; where it is no double the program has the one next to it. -/
def added (amount : ℚ) (series : Series) : Series :=
  if series.definition.type = .histogram then series
  else
    let value := series.value + amount
    { series with value := if series.definition.type = .counter ∧ value < 0 then 0 else value }

def assigned (value : ℚ) (series : Series) : Series :=
  if series.definition.type = .gauge then { series with value := value } else series

/-- A histogram without observations. -/
def empty (buckets : List ℚ) : HistogramState := ⟨buckets.map fun _ => 0, 0, 0⟩

def observed (value : ℚ) (series : Series) : Series :=
  if series.definition.type = .histogram then
    let buckets := series.definition.buckets
    let current := series.histogram.getD (empty buckets)
    let counts := current.counts.mapIdx fun index count =>
      if buckets[index]?.any fun bucket => value ≤ bucket then count + 1 else count
    { series with histogram := some ⟨counts, current.count + 1, current.sum + value⟩ }
  else series

end Series

namespace MetricsRegistry

def add (registry : MetricsRegistry) (name : JsString) (labels : MetricLabels) :
    JsNumber → MetricsRegistry
  | .finite amount => registry.update name labels (Series.added amount)
  | _ => registry

def set (registry : MetricsRegistry) (name : JsString) (labels : MetricLabels) :
    JsNumber → MetricsRegistry
  | .finite value => registry.update name labels (Series.assigned value)
  | _ => registry

def observe (registry : MetricsRegistry) (name : JsString) (labels : MetricLabels) :
    JsNumber → MetricsRegistry
  | .finite value =>
    if value < 0 then registry else registry.update name labels (Series.observed value)
  | _ => registry

end MetricsRegistry

inductive MetricCall where
  | add (name : JsString) (labels : MetricLabels) (amount : JsNumber)
  | set (name : JsString) (labels : MetricLabels) (value : JsNumber)
  | observe (name : JsString) (labels : MetricLabels) (value : JsNumber)

def MetricsRegistry.step (registry : MetricsRegistry) : MetricCall → MetricsRegistry
  | .add name labels amount => registry.add name labels amount
  | .set name labels value => registry.set name labels value
  | .observe name labels value => registry.observe name labels value

end N2FNest.Metrics
