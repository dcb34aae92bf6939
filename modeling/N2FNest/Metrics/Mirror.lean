import N2FNest.Metrics.Reference

/-! Runs of the registry. While no call meets another tuple's series under its own key,
the registry is the reference map. -/

namespace N2FNest.Metrics

open Lib Shared

namespace MetricsRegistry

private theorem registered_other {definitions : List MetricDefinition} {name : JsString}
    (other : name ∉ definitions.map fun definition => definition.name)
    (known : Table fun metric : Metric => metric.name) :
    (definitions.foldl register known).get name = known.get name := by
  induction definitions generalizing known with
  | nil => rfl
  | cons definition rest ih =>
    rw [List.map_cons, List.mem_cons, not_or] at other
    rw [List.foldl_cons, ih other.2, register]
    split
    · have apart : definition.metric.name ≠ name := Ne.symm other.1
      exact Table.get_set_other known apart
    · rfl

private theorem registered_get {definitions : List MetricDefinition}
    (valid : ∀ definition ∈ definitions, definition.valid = true)
    (distinct : (definitions.map fun definition => definition.name).Nodup)
    {definition : MetricDefinition} (member : definition ∈ definitions)
    (known : Table fun metric : Metric => metric.name) :
    (definitions.foldl register known).get definition.name = some definition.metric := by
  induction definitions generalizing known with
  | nil => cases member
  | cons head rest ih =>
    rw [List.map_cons, List.nodup_cons] at distinct
    obtain ⟨accepted, others⟩ := List.forall_mem_cons.mp valid
    rw [List.foldl_cons]
    rcases List.mem_cons.mp member with rfl | later
    · rw [registered_other distinct.1, register, if_pos accepted]
      exact Table.get_set_same known definition.metric
    · exact ih others distinct.2 later _

/-- What is registered comes from a valid definition. -/
private theorem registered_from {definitions : List MetricDefinition}
    {known : Table fun metric : Metric => metric.name} {name : JsString} {metric : Metric}
    (found : (definitions.foldl register known).get name = some metric) :
    known.get name = some metric ∨
      ∃ definition ∈ definitions, definition.valid = true ∧ definition.metric = metric := by
  induction definitions generalizing known with
  | nil => exact .inl found
  | cons head rest ih =>
    rcases ih found with before | ⟨definition, member, accepted, same⟩
    · rw [register] at before
      split at before
      · rename_i accepted
        rcases Table.get_set_cases before with rfl | earlier
        · exact .inr ⟨head, List.mem_cons_self, accepted, rfl⟩
        · exact .inl earlier
      · exact .inl before
    · exact .inr ⟨definition, List.mem_cons_of_mem head member, accepted, same⟩

theorem create_from {definitions : List MetricDefinition} {name : JsString} {metric : Metric}
    (found : (create definitions).definitions.get name = some metric) :
    ∃ definition ∈ definitions, definition.valid = true ∧ definition.metric = metric := by
  apply (registered_from found).resolve_left
  simp

theorem create_keyed (definitions : List MetricDefinition) : (create definitions).Keyed where
  filled := by
    intro name metric found
    obtain ⟨definition, -, accepted, rfl⟩ := create_from found
    have named := Table.key_of_get found
    subst named
    simp only [MetricDefinition.valid, Bool.and_eq_true] at accepted
    exact isMetricName_filled accepted.1.1
  own := by
    intro entry member
    cases member

/-- A registry after its calls, beside the reference. -/
structure Mirrors (metrics : Table fun metric : Metric => metric.name) (calls : List MetricCall)
    (registry : MetricsRegistry) : Prop where
  definitions : registry.definitions = metrics
  keyed : registry.Keyed
  value : ∀ name metric, metrics.get name = some metric → ∀ values,
    registry.value name values = total metric.type (effectsOn metric values calls)
  histogram : ∀ name metric, metrics.get name = some metric → metric.type = .histogram → ∀ values,
    registry.histogram metric values =
      histogramOf metric.buckets (observations (effectsOn metric values calls))

section Step

variable {metrics : Table fun metric : Metric => metric.name} {calls : List MetricCall}
  {registry : MetricsRegistry} {call : MetricCall}

theorem create_mirrors (definitions : List MetricDefinition) :
    Mirrors (create definitions).definitions [] (create definitions) where
  definitions := rfl
  keyed := create_keyed definitions
  value := fun _ _ _ _ => rfl
  histogram := fun _ metric _ _ _ => (histogramOf_nil metric.buckets).symm

/-- A call that changes no series of the registry is none of the reference's. -/
private theorem Mirrors.quiet (mirrors : Mirrors metrics calls registry)
    (nothing : ∀ definition, metrics.get call.name = some definition →
      call.effect? ≠ none → labelValues definition call.labels = none) :
    Mirrors metrics (calls ++ [call]) registry := by
  have same : ∀ name metric, metrics.get name = some metric → ∀ values,
      effectsOn metric values (calls ++ [call]) = effectsOn metric values calls := by
    intro name metric found values
    apply effectsOn_other
    rintro effected ⟨named, known⟩
    have registered := Table.key_of_get found
    have missing := nothing metric (by rw [named, registered]; exact found) effected
    rw [missing] at known
    cases known
  refine ⟨mirrors.definitions, mirrors.keyed, ?_, ?_⟩
  · intro name metric found values
    rw [same name metric found]
    exact mirrors.value name metric found values
  · intro name metric found type values
    rw [same name metric found]
    exact mirrors.histogram name metric found type values

/-- What is read of a series that changed. -/
private theorem Mirrors.changed (mirrors : Mirrors metrics calls registry) {metric : Metric}
    (found : metrics.get metric.name = some metric) (values : List JsString) (labels : MetricLabels)
    (effect : Effect) :
    let series := (registry.find metric.name values).getD ⟨metric, labels, 0, none⟩
    (effect.change series).value = total metric.type (effectsOn metric values calls ++ [effect]) ∧
      (metric.type = .histogram →
        (effect.change series).histogram.getD (Series.empty metric.buckets) =
          histogramOf metric.buckets (observations (effectsOn metric values calls ++ [effect]))) := by
  intro series
  have own : series.definition = metric := by
    show ((registry.find metric.name values).getD _).definition = metric
    rw [mirrors.keyed.find_eq]
    cases present : registry.entries.get (seriesKey metric.name (join values)) with
    | none => rfl
    | some entry =>
      by_cases owned : owns metric.name values entry = true
      · obtain ⟨registered, -⟩ := mirrors.keyed.own entry (Table.mem_of_get present)
        have kept : (some entry).filter (owns metric.name values) = some entry := by
          simp [Option.filter, owned]
        simp only [owns, Bool.and_eq_true, decide_eq_true_eq] at owned
        rw [owned.1, mirrors.definitions, found] at registered
        rw [kept]
        exact (Option.some.inj registered).symm
      · simp [Option.filter, owned]
  have value : series.value = registry.value metric.name values := by
    show ((registry.find metric.name values).getD _).value = _
    unfold MetricsRegistry.value
    cases registry.find metric.name values <;> rfl
  have histogram : series.histogram.getD (Series.empty metric.buckets) =
      registry.histogram metric values := by
    show ((registry.find metric.name values).getD _).histogram.getD _ = _
    unfold MetricsRegistry.histogram
    cases registry.find metric.name values <;> rfl
  constructor
  · rw [change_value, own, value, mirrors.value _ metric found values, total_concat]
  · intro type
    have before : series.histogram.getD (Series.empty series.definition.buckets) =
        histogramOf series.definition.buckets (observations (effectsOn metric values calls)) := by
      rw [own, histogram, mirrors.histogram _ metric found type values]
    have after := change_histogram (own ▸ type) before effect
    rwa [own, ← observations_concat] at after

theorem Mirrors.step (mirrors : Mirrors metrics calls registry) (own : registry.Own call) :
    Mirrors metrics (calls ++ [call]) (registry.step call) := by
  rw [step_eq]
  cases effected : call.effect? with
  | none => exact mirrors.quiet fun _ _ effect => absurd effected effect
  | some effect =>
    rcases series_cases registry call.name call.labels with
      ⟨missing, nothing⟩ | ⟨entry, opened, definition, values, done, opening⟩
    · have same : registry.update call.name call.labels effect.change = registry := by
        rw [MetricsRegistry.update, missing]
      show Mirrors metrics (calls ++ [call]) (registry.update call.name call.labels effect.change)
      rw [same]
      exact mirrors.quiet fun definition found _ => nothing definition (mirrors.definitions ▸ found)
    · have mine : ∀ found, registry.entries.get (seriesKey call.name (join values)) = some found →
          labelValues found.series.definition found.series.labels = some values :=
        fun found present => own definition values found opening.metric opening.known present
      have named := Table.key_of_get opening.metric
      have registered : metrics.get definition.name = some definition := by
        rw [← mirrors.definitions, named]
        exact opening.metric
      have reads := opening.find mirrors.keyed mine effect
      show Mirrors metrics (calls ++ [call]) (registry.update call.name call.labels effect.change)
      rw [opening.update done]
      -- the call is this series' own, or none of its calls
      have turn : ∀ metric asked, metrics.get metric.name = some metric →
          (definition = metric ∧ values = asked ∧ effectsOn metric asked (calls ++ [call]) =
            effectsOn metric asked calls ++ [effect]) ∨
          (¬ (call.name = metric.name ∧ values = asked) ∧
            effectsOn metric asked (calls ++ [call]) = effectsOn metric asked calls) := by
        intro metric asked found
        by_cases here : call.name = metric.name ∧ values = asked
        · have same : definition = metric := by
            rw [named, here.1, found] at registered
            exact (Option.some.inj registered).symm
          subst same
          exact .inl ⟨rfl, here.2, effectsOn_own calls here.1 (here.2 ▸ opening.known) effected⟩
        · refine .inr ⟨here, effectsOn_other calls ?_⟩
          rintro - ⟨same, known⟩
          rw [← same, ← mirrors.definitions, opening.metric] at found
          cases found
          exact here ⟨same, Option.some.inj (opening.known.symm.trans known)⟩
      refine ⟨mirrors.definitions, opening.keyed mirrors.keyed mine effect, ?_, ?_⟩
      · intro name metric found asked
        have keyed := Table.key_of_get found
        subst keyed
        rw [MetricsRegistry.value, reads]
        rcases turn metric asked found with ⟨rfl, rfl, more⟩ | ⟨other, same⟩
        · rw [if_pos ⟨named.symm, rfl⟩, more, ← named]
          exact (mirrors.changed registered values call.labels effect).1
        · rw [if_neg other, same]
          exact mirrors.value metric.name metric found asked
      · intro name metric found type asked
        have keyed := Table.key_of_get found
        subst keyed
        rw [MetricsRegistry.histogram, reads]
        rcases turn metric asked found with ⟨rfl, rfl, more⟩ | ⟨other, same⟩
        · rw [if_pos ⟨named.symm, rfl⟩, more, ← named]
          exact (mirrors.changed registered values call.labels effect).2 type
        · rw [if_neg other, same]
          exact mirrors.histogram metric.name metric found type asked

end Step

/-- A call changes no series but that of its own metric and label values. -/
theorem Keyed.step_find {registry : MetricsRegistry} (keyed : registry.Keyed) {call : MetricCall}
    (own : registry.Own call) {name : JsString} {values : List JsString}
    (other : ∀ metric, registry.definitions.get name = some metric →
      ¬ (call.name = name ∧ labelValues metric call.labels = some values)) :
    (registry.step call).find name values = registry.find name values := by
  rw [step_eq]
  cases effected : call.effect? with
  | none => rfl
  | some effect =>
    show (registry.update call.name call.labels effect.change).find name values = _
    rcases series_cases registry call.name call.labels with
      ⟨missing, -⟩ | ⟨entry, opened, definition, mine, done, opening⟩
    · rw [MetricsRegistry.update, missing]
    · rw [opening.update done, opening.find keyed
        (fun found present => own definition mine found opening.metric opening.known present) effect,
        if_neg]
      rintro ⟨rfl, rfl⟩
      exact other definition opening.metric ⟨rfl, opening.known⟩

end MetricsRegistry

open MetricsRegistry

/-- Along every run in which no call finds another tuple's series under its key, the
registry is the reference map: a counter is the running sum clamped at zero, a gauge follows
its adds and its last set, a bucket counts the observations within its bound, there is
no series besides, and a call changes only the series of its own label values. -/
theorem series_mirror_reference {definitions : List MetricDefinition}
    (valid : ∀ definition ∈ definitions, definition.valid = true)
    (distinct : (definitions.map fun definition => definition.name).Nodup) {calls : List MetricCall}
    (own : Along MetricsRegistry.step Own (create definitions) calls) :
    let registry := run MetricsRegistry.step (create definitions) calls
    (∀ definition ∈ definitions, ∀ values,
      let effects := effectsOn definition.metric values calls
      registry.value definition.name values = total definition.type effects ∧
      (definition.type = .histogram →
        let histogram := registry.histogram definition.metric values
        histogram = histogramOf (validBuckets definition.buckets) (observations effects) ∧
          histogram.counts.Pairwise (· ≤ ·) ∧
          ∀ count ∈ histogram.counts, count ≤ histogram.count)) ∧
    (∀ entry ∈ registry.entries.rows, ∃ definition ∈ definitions, ∃ values,
      registry.find definition.name values = some entry.series) ∧
    ∀ call, registry.Own call → ∀ definition ∈ definitions, ∀ values,
      ¬ (call.name = definition.name ∧ labelValues definition.metric call.labels = some values) →
      (registry.step call).find definition.name values = registry.find definition.name values := by
  intro registry
  have mirrors : Mirrors (create definitions).definitions calls registry :=
    Along.history (fun taken state call mirrors own => mirrors.step own) (create_mirrors definitions) own
  have registered : ∀ definition ∈ definitions,
      (create definitions).definitions.get definition.name = some definition.metric :=
    fun definition member => registered_get valid distinct member Table.empty
  refine ⟨?_, ?_, ?_⟩
  · intro definition member values effects
    refine ⟨mirrors.value _ _ (registered definition member) values, ?_⟩
    intro type histogram
    have buckets : definition.metric.buckets = validBuckets definition.buckets := if_pos type
    have same : histogram = histogramOf (validBuckets definition.buckets) (observations effects) := by
      rw [← buckets]
      exact mirrors.histogram _ _ (registered definition member) type values
    have ascending := histogramOf_ascending (validBuckets_ascending definition.buckets)
      (observations effects)
    rw [same]
    exact ⟨rfl, ascending⟩
  · intro entry member
    obtain ⟨metric, values, known, key⟩ := mirrors.keyed.own entry member
    rw [mirrors.definitions] at metric
    obtain ⟨definition, listed, -, same⟩ := create_from metric
    have named : definition.name = entry.series.definition.name := congrArg Metric.name same
    have owned : owns definition.name values entry = true := by simp [owns, named, known]
    refine ⟨definition, listed, values, ?_⟩
    rw [mirrors.keyed.find_eq, named, ← key, Table.get_of_mem member, ← named]
    simp [Option.filter, owned]
  · intro call mine definition member values apart
    refine mirrors.keyed.step_find mine fun metric found => ?_
    rw [mirrors.definitions, registered definition member] at found
    cases found
    exact apart

instance MetricsRegistry.ownDecidable (registry : MetricsRegistry) (call : MetricCall) :
    Decidable (registry.Own call) :=
  decidable_of_iff (((registry.definitions.get call.name).all fun definition =>
    (labelValues definition call.labels).all fun values =>
      (registry.entries.get (seriesKey call.name (join values))).all fun entry =>
        labelValues entry.series.definition entry.series.labels = some values) = true)
    (by simp only [Option.all_eq_true, decide_eq_true_eq, MetricsRegistry.Own]; tauto)

/-- A counter of requests by route and outcome. -/
private def requests : MetricDefinition := ⟨js "requests", js "Requests.", .counter,
  [js "route", js "outcome"], none⟩

/-- A request, where the names of the labels are distinct. -/
private def request (route outcome : List UInt16) : MetricCall :=
  .add (js "requests") ⟨[(js "route", ⟨route⟩), (js "outcome", ⟨outcome⟩)],
    by show [js "route", js "outcome"].Nodup; decide⟩ (.finite 1)

/-- `a`, U+0001 and `b` in two tuples whose joined values are the same. -/
theorem joined_values_merge :
    let registry := run MetricsRegistry.step (create [requests])
      [request [0x61, 1, 0x62] [0x63], request [0x61] [0x62, 1, 0x63]]
    registry.value (js "requests") [⟨[0x61, 1, 0x62]⟩, ⟨[0x63]⟩] = 2 ∧
      registry.value (js "requests") [⟨[0x61]⟩, ⟨[0x62, 1, 0x63]⟩] = 0 ∧
      total .counter (effectsOn requests.metric [⟨[0x61]⟩, ⟨[0x62, 1, 0x63]⟩]
        [request [0x61, 1, 0x62] [0x63], request [0x61] [0x62, 1, 0x63]]) = 1 := by
  decide +kernel

theorem plain_values_apart :
    let registry := run MetricsRegistry.step (create [requests])
      [request [0x61] [0x62], request [0x61] [0x63], request [0x61] [0x62]]
    registry.value (js "requests") [⟨[0x61]⟩, ⟨[0x62]⟩] = 2 := by
  have valid : ∀ definition ∈ [requests], definition.valid = true := by decide
  have own : Along MetricsRegistry.step Own (create [requests])
      [request [0x61] [0x62], request [0x61] [0x63], request [0x61] [0x62]] := by
    decide +kernel
  have mirrored := series_mirror_reference valid (List.nodup_singleton _) own
  have value := (mirrored.1 requests List.mem_cons_self [⟨[0x61]⟩, ⟨[0x62]⟩]).1
  refine value.trans ?_
  decide +kernel

end N2FNest.Metrics
