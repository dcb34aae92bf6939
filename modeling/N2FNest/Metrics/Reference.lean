import Mathlib.Algebra.BigOperators.Group.List.Basic
import N2FNest.Metrics.Registry

/-! The registry beside a reference map from the name of a metric and the values of its
labels to what was done to that series. -/

namespace N2FNest.Metrics

open Lib Shared

/-- What a call does to its series. -/
inductive Effect where
  | added (amount : ℚ)
  | assigned (value : ℚ)
  | observed (value : ℚ)

def Effect.change : Effect → Series → Series
  | .added amount => Series.added amount
  | .assigned value => Series.assigned value
  | .observed value => Series.observed value

namespace MetricCall

def name : MetricCall → JsString
  | .add name _ _ | .set name _ _ | .observe name _ _ => name

def labels : MetricCall → MetricLabels
  | .add _ labels _ | .set _ labels _ | .observe _ labels _ => labels

/-- A number out of range has no effect. -/
def effect? : MetricCall → Option Effect
  | .add _ _ (.finite amount) => some (.added amount)
  | .set _ _ (.finite value) => some (.assigned value)
  | .observe _ _ (.finite value) => if value < 0 then none else some (.observed value)
  | _ => none

end MetricCall

/-- The value of a counter or a gauge after one more effect. -/
def Effect.move (type : MetricType) (total : ℚ) : Effect → ℚ
  | .added amount => match type with
    | .counter => max 0 (total + amount)
    | .gauge => total + amount
    | .histogram => total
  | .assigned value => match type with
    | .gauge => value
    | _ => total
  | .observed _ => total

def total (type : MetricType) (effects : List Effect) : ℚ := effects.foldl (Effect.move type) 0

def Effect.observation? : Effect → Option ℚ
  | .observed value => some value
  | _ => none

def observations (effects : List Effect) : List ℚ := effects.filterMap Effect.observation?

/-- The histogram of a list of observations. -/
def histogramOf (buckets : List ℚ) (values : List ℚ) : HistogramState where
  counts := buckets.map fun bucket => values.countP fun value => value ≤ bucket
  count := values.length
  sum := values.sum

/-- The reference: what the calls of these label values did to a metric, oldest first. -/
def effectsOn (metric : Metric) (values : List JsString) (calls : List MetricCall) : List Effect :=
  calls.filterMap fun call =>
    if call.name = metric.name ∧ labelValues metric call.labels = some values then call.effect?
    else none

/-- The series is the metric's under these label values. -/
def owns (name : JsString) (values : List JsString) (entry : Entry) : Bool :=
  entry.series.definition.name = name &&
    labelValues entry.series.definition entry.series.labels = some values

namespace MetricsRegistry

/-- The series with these label values, whatever its key. -/
def find (registry : MetricsRegistry) (name : JsString) (values : List JsString) : Option Series :=
  (registry.entries.rows.find? (owns name values)).map fun entry => entry.series

/-- An absent series counts as zero. -/
def value (registry : MetricsRegistry) (name : JsString) (values : List JsString) : ℚ :=
  ((registry.find name values).map fun series => series.value).getD 0

def histogram (registry : MetricsRegistry) (metric : Metric) (values : List JsString) :
    HistogramState :=
  ((registry.find metric.name values).bind fun series => series.histogram).getD
    (Series.empty metric.buckets)

/-- The series stored under a call's key, if there is one, has the call's own label values. -/
def Own (registry : MetricsRegistry) (call : MetricCall) : Prop :=
  ∀ definition values entry, registry.definitions.get call.name = some definition →
    labelValues definition call.labels = some values →
    registry.entries.get (seriesKey call.name (join values)) = some entry →
    labelValues entry.series.definition entry.series.labels = some values

theorem step_eq (registry : MetricsRegistry) (call : MetricCall) :
    registry.step call = match call.effect? with
      | none => registry
      | some effect => registry.update call.name call.labels effect.change := by
  cases call with
  | add name labels amount => cases amount <;> rfl
  | set name labels value => cases value <;> rfl
  | observe name labels value =>
    cases value with
    | finite value =>
      simp only [step, observe, MetricCall.effect?]
      split <;> rfl
    | nan => rfl
    | infinite negative => rfl

/-- Series are those of registered metrics, each under the key of its own label values. -/
structure Keyed (registry : MetricsRegistry) : Prop where
  filled : ∀ name metric, registry.definitions.get name = some metric → (0 : UInt16) ∉ name.units
  own : ∀ entry ∈ registry.entries.rows,
    registry.definitions.get entry.series.definition.name = some entry.series.definition ∧
      ∃ values, labelValues entry.series.definition entry.series.labels = some values ∧
        entry.key = seriesKey entry.series.definition.name (join values)

/-- The series a call works on: stored under its key, or new. -/
structure Opened (registry : MetricsRegistry) (name : JsString) (labels : MetricLabels)
    (entry : Entry) (opened : MetricsRegistry) (definition : Metric) (values : List JsString) :
    Prop where
  metric : registry.definitions.get name = some definition
  known : labelValues definition labels = some values
  key : entry.key = seriesKey name (join values)
  definitions : opened.definitions = registry.definitions
  found : registry.entries.get entry.key = some entry ∧ opened = registry ∨
    registry.entries.get entry.key = none ∧ entry.series = ⟨definition, labels, 0, none⟩ ∧
      opened.entries = registry.entries.set entry

theorem series_cases (registry : MetricsRegistry) (name : JsString) (labels : MetricLabels) :
    (registry.series name labels = none ∧
      ∀ definition, registry.definitions.get name = some definition →
        labelValues definition labels = none) ∨
    ∃ entry opened definition values, registry.series name labels = some (entry, opened) ∧
      Opened registry name labels entry opened definition values := by
  unfold series
  cases metric : registry.definitions.get name with
  | none => exact .inl ⟨rfl, by simp⟩
  | some definition =>
    cases known : labelValues definition labels with
    | none => exact .inl ⟨by simp [labelsKey, known], by simpa using known⟩
    | some values =>
      right
      have key : labelsKey definition labels = some (join values) := by rw [labelsKey, known]; rfl
      simp only [Option.bind_eq_bind, Option.bind_some, key]
      cases found : registry.entries.get (seriesKey name (join values)) with
      | some existing =>
        have named := Table.key_of_get found
        exact ⟨existing, registry, definition, values, rfl, metric, known, named, rfl,
          .inl ⟨named ▸ found, rfl⟩⟩
      | none => exact ⟨_, _, definition, values, rfl, metric, known, rfl, rfl, .inr ⟨found, rfl, rfl⟩⟩

section Keyed

variable {registry opened : MetricsRegistry} {name : JsString} {labels : MetricLabels} {entry : Entry}
  {definition : Metric} {values : List JsString}

/-- Label values are found under their own key. -/
theorem Keyed.find_eq (keyed : registry.Keyed) (name : JsString) (values : List JsString) :
    registry.find name values = ((registry.entries.get (seriesKey name (join values))).filter
      (owns name values)).map fun entry => entry.series := by
  unfold find
  rw [Table.find_of_key]
  intro entry owned member
  obtain ⟨-, others, known, key⟩ := keyed.own entry member
  simp only [owns, Bool.and_eq_true, decide_eq_true_eq] at owned
  have same : others = values := Option.some.inj (known.symm.trans owned.2)
  rw [key, owned.1, same]

/-- A series a call works on is of the call's metric and label values. -/
theorem Opened.owned (opening : Opened registry name labels entry opened definition values)
    (keyed : registry.Keyed)
    (own : ∀ found, registry.entries.get (seriesKey name (join values)) = some found →
      labelValues found.series.definition found.series.labels = some values) :
    entry.series.definition = definition ∧
      labelValues entry.series.definition entry.series.labels = some values := by
  rcases opening.found with ⟨found, -⟩ | ⟨-, fresh, -⟩
  · have same := own entry (opening.key ▸ found)
    obtain ⟨registered, others, known, key⟩ := keyed.own entry (Table.mem_of_get found)
    have named : entry.series.definition.name = name :=
      seriesKey_name (keyed.filled _ _ registered) (keyed.filled _ _ opening.metric)
        (key.symm.trans opening.key)
    rw [named, opening.metric] at registered
    exact ⟨(Option.some.inj registered).symm, same⟩
  · rw [fresh]
    exact ⟨rfl, opening.known⟩

theorem Opened.get (opening : Opened registry name labels entry opened definition values)
    (changed : Series) (key : JsString) :
    (opened.entries.set { entry with series := changed }).get key =
      if entry.key = key then some { entry with series := changed } else registry.entries.get key := by
  rw [Table.get_set]
  by_cases here : entry.key = key
  · rw [if_pos here, if_pos here]
  · rw [if_neg here, if_neg here]
    rcases opening.found with ⟨-, same⟩ | ⟨-, -, stored⟩
    · rw [same]
    · rw [stored, Table.get_set, if_neg here]

/-- A change keeps what a series is. -/
theorem change_keeps (effect : Effect) (series : Series) :
    (effect.change series).definition = series.definition ∧
      (effect.change series).labels = series.labels := by
  cases effect with
  | added amount =>
    simp only [Effect.change, Series.added]
    split <;> exact ⟨rfl, rfl⟩
  | assigned value =>
    simp only [Effect.change, Series.assigned]
    split <;> exact ⟨rfl, rfl⟩
  | observed value =>
    simp only [Effect.change, Series.observed]
    split <;> exact ⟨rfl, rfl⟩

theorem Opened.update (opening : Opened registry name labels entry opened definition values)
    (done : registry.series name labels = some (entry, opened)) (change : Series → Series) :
    registry.update name labels change =
      { registry with entries := opened.entries.set { entry with series := change entry.series } } := by
  rw [MetricsRegistry.update, done, ← opening.definitions]

theorem Opened.keyed (opening : Opened registry name labels entry opened definition values)
    (keyed : registry.Keyed)
    (own : ∀ found, registry.entries.get (seriesKey name (join values)) = some found →
      labelValues found.series.definition found.series.labels = some values) (effect : Effect) :
    Keyed { registry with
      entries := opened.entries.set { entry with series := effect.change entry.series } } where
  filled := keyed.filled
  own := by
    intro other member
    obtain ⟨metric, known⟩ := opening.owned keyed own
    obtain ⟨kept, same⟩ := change_keeps effect entry.series
    have present := Table.get_of_mem member
    have cases := (opening.get (effect.change entry.series) other.key).symm.trans present
    split at cases
    · cases cases
      show registry.definitions.get (effect.change entry.series).definition.name = _ ∧ _
      rw [kept, metric]
      rw [metric] at known
      have named := Table.key_of_get opening.metric
      refine ⟨named.symm ▸ opening.metric, values, ?_, named.symm ▸ opening.key⟩
      show labelValues definition (effect.change entry.series).labels = some values
      rw [same, known]
    · exact keyed.own other (Table.mem_of_get cases)

/-- Only the series of the call's own metric and label values changes. -/
theorem Opened.find (opening : Opened registry name labels entry opened definition values)
    (keyed : registry.Keyed)
    (own : ∀ found, registry.entries.get (seriesKey name (join values)) = some found →
      labelValues found.series.definition found.series.labels = some values) (effect : Effect)
    (asked : JsString) (others : List JsString) :
    MetricsRegistry.find { registry with
        entries := opened.entries.set { entry with series := effect.change entry.series } }
        asked others =
      if name = asked ∧ values = others then
        some (effect.change ((registry.find name values).getD ⟨definition, labels, 0, none⟩))
      else registry.find asked others := by
  obtain ⟨metric, known⟩ := opening.owned keyed own
  obtain ⟨kept, same⟩ := change_keeps effect entry.series
  have named := Table.key_of_get opening.metric
  rw [(opening.keyed keyed own effect).find_eq]
  dsimp only
  rw [opening.get]
  have owned : ∀ series : Series, series.definition = entry.series.definition →
      series.labels = entry.series.labels → (owns asked others { entry with series := series } = true ↔
        name = asked ∧ values = others) := by
    intro series definition labels
    simp only [owns, definition, labels, known, Bool.and_eq_true, decide_eq_true_eq,
      Option.some.injEq]
    rw [metric, named]
  by_cases here : name = asked ∧ values = others
  · have mine := (owned (effect.change entry.series) kept same).mpr here
    rw [if_pos here]
    obtain ⟨rfl, rfl⟩ := here
    rw [if_pos opening.key]
    have before : registry.find name values = none ∧ entry.series = ⟨definition, labels, 0, none⟩ ∨
        registry.find name values = some entry.series := by
      rw [keyed.find_eq, ← opening.key]
      rcases opening.found with ⟨found, -⟩ | ⟨missing, fresh, -⟩
      · right
        have old : owns name values entry = true := (owned entry.series rfl rfl).mpr ⟨rfl, rfl⟩
        rw [found]
        simp [Option.filter, old]
      · left
        rw [missing]
        exact ⟨rfl, fresh⟩
    simp only [Option.filter, mine, if_true, Option.map_some]
    rcases before with ⟨missing, fresh⟩ | found
    · rw [missing, Option.getD_none, fresh]
    · rw [found, Option.getD_some]
  · rw [if_neg here, keyed.find_eq]
    have other : ∀ series : Series, series.definition = entry.series.definition →
        series.labels = entry.series.labels → owns asked others { entry with series := series } = false :=
      fun series definition labels =>
        Bool.eq_false_iff.mpr fun yes => here ((owned series definition labels).mp yes)
    by_cases key : entry.key = seriesKey asked (join others)
    · rw [if_pos key]
      rcases opening.found with ⟨found, -⟩ | ⟨missing, -, -⟩
      · rw [← key, found]
        simp [Option.filter, other _ kept same, other entry.series rfl rfl]
      · rw [← key, missing]
        simp [Option.filter, other _ kept same]
    · rw [if_neg key]

end Keyed

end MetricsRegistry

theorem change_value (effect : Effect) (series : Series) :
    (effect.change series).value = effect.move series.definition.type series.value := by
  cases effect with
  | added amount =>
    cases type : series.definition.type with
    | counter =>
      by_cases low : series.value + amount < 0
      · simp [Effect.change, Series.added, Effect.move, type, low, le_of_lt low]
      · simp [Effect.change, Series.added, Effect.move, type, low, le_of_not_gt low]
    | gauge => simp [Effect.change, Series.added, Effect.move, type]
    | histogram => simp [Effect.change, Series.added, Effect.move, type]
  | assigned value =>
    cases type : series.definition.type <;> simp [Effect.change, Series.assigned, Effect.move, type]
  | observed value =>
    cases type : series.definition.type <;> simp [Effect.change, Series.observed, Effect.move, type]

/-- One more observation counts in the buckets it is in. -/
theorem counts_observed (buckets values : List ℚ) (value : ℚ) :
    ((histogramOf buckets values).counts.mapIdx fun index count =>
        if buckets[index]?.any fun bucket => value ≤ bucket then count + 1 else count) =
      (histogramOf buckets (values ++ [value])).counts := by
  apply List.ext_getElem
  · simp [histogramOf]
  · intro index short long
    have inside : index < buckets.length := by simpa [histogramOf] using long
    simp only [histogramOf, List.getElem_mapIdx, List.getElem_map, List.countP_append,
      List.getElem?_eq_getElem inside, Option.any_some, decide_eq_true_eq]
    split <;> rename_i within <;> simp [within]

theorem change_histogram {series : Series} {values : List ℚ}
    (type : series.definition.type = .histogram)
    (before : series.histogram.getD (Series.empty series.definition.buckets) =
      histogramOf series.definition.buckets values) (effect : Effect) :
    (effect.change series).histogram.getD (Series.empty series.definition.buckets) =
      histogramOf series.definition.buckets (values ++ effect.observation?.toList) := by
  cases effect with
  | added amount => simpa [Effect.change, Series.added, type, Effect.observation?] using before
  | assigned value => simpa [Effect.change, Series.assigned, type, Effect.observation?] using before
  | observed value =>
    simp only [Effect.change, Series.observed, type, if_true, before, Option.getD_some,
      counts_observed, Effect.observation?, Option.toList_some]
    simp [histogramOf]

theorem histogramOf_nil (buckets : List ℚ) : histogramOf buckets [] = Series.empty buckets := by
  simp [histogramOf, Series.empty]

/-- Counts grow with their bounds, and none exceeds the number of observations. -/
theorem histogramOf_ascending {buckets : List ℚ} (ascending : buckets.Pairwise (· ≤ ·))
    (values : List ℚ) : (histogramOf buckets values).counts.Pairwise (· ≤ ·) ∧
      ∀ count ∈ (histogramOf buckets values).counts, count ≤ (histogramOf buckets values).count := by
  constructor
  · refine List.pairwise_map.mpr (ascending.imp fun {low high} below => ?_)
    refine List.countP_mono_left fun value _ within => ?_
    exact decide_eq_true (le_trans (of_decide_eq_true within) below)
  · intro count member
    obtain ⟨bucket, -, rfl⟩ := List.mem_map.mp member
    exact List.countP_le_length

theorem total_concat (type : MetricType) (effects : List Effect) (effect : Effect) :
    total type (effects ++ [effect]) = effect.move type (total type effects) := by
  rw [total, List.foldl_append]
  rfl

theorem observations_concat (effects : List Effect) (effect : Effect) :
    observations (effects ++ [effect]) = observations effects ++ effect.observation?.toList := by
  rw [observations, List.filterMap_append]
  cases same : effect.observation? <;> simp [observations, same]

theorem effectsOn_own {metric : Metric} {values : List JsString} {call : MetricCall} {effect : Effect}
    (calls : List MetricCall) (named : call.name = metric.name)
    (known : labelValues metric call.labels = some values) (effected : call.effect? = some effect) :
    effectsOn metric values (calls ++ [call]) = effectsOn metric values calls ++ [effect] := by
  rw [effectsOn, List.filterMap_append]
  simp [effectsOn, named, known, effected]

theorem effectsOn_other {metric : Metric} {values : List JsString} {call : MetricCall}
    (calls : List MetricCall) (other : call.effect? ≠ none →
      ¬ (call.name = metric.name ∧ labelValues metric call.labels = some values)) :
    effectsOn metric values (calls ++ [call]) = effectsOn metric values calls := by
  rw [effectsOn, List.filterMap_append]
  cases effected : call.effect? with
  | none => simp [effectsOn, effected]
  | some effect =>
    have apart := other (by simp [effected])
    simp [effectsOn, apart]

end N2FNest.Metrics
