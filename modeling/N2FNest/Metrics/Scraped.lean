import N2FNest.Metrics.Exposition

/-! What a scrape of a registry shows after any calls. -/

namespace N2FNest.Metrics

open Lib Shared

/-- What the code relies on of `localeCompare`: a consistent order, in which no two names
of metrics are the same. -/
structure Collation (localeCompare : JsString → JsString → Int) : Prop where
  total : ∀ left right, localeCompare left right ≤ 0 ∨ localeCompare right left ≤ 0
  trans : ∀ first second third, localeCompare first second ≤ 0 → localeCompare second third ≤ 0 →
    localeCompare first third ≤ 0
  apart : ∀ left right, isMetricName left = true → isMetricName right = true →
    localeCompare left right ≤ 0 → localeCompare right left ≤ 0 → left = right

/-- The samples of one series. -/
def Series.samples (item : Series) : List Line :=
  let name (suffix : String) : JsString := ⟨item.definition.name.units ++ (js suffix).units⟩
  let labels := labelPairs item.definition item.labels
  match item.definition.type, item.histogram with
  | .histogram, none => []
  | .histogram, some histogram =>
    (item.definition.buckets.zip histogram.counts).map (fun bucket =>
      Line.sample (name "_bucket") (labels ++ [(js "le", ⟨Digits.text bucket.1⟩)])
        (Decimal.text bucket.2)) ++
    [.sample (name "_bucket") (labels ++ [(js "le", js "+Inf")]) (Decimal.text histogram.count),
      .sample (name "_sum") labels (Digits.text histogram.sum),
      .sample (name "_count") labels (Decimal.text histogram.count)]
  | _, _ => [.sample (name "") labels (Digits.text item.value)]

/-- What a scraper keeps of a series of a metric. -/
def readings (metric : Metric) (labels : List (JsString × JsString)) (value : ℚ)
    (histogram : Option HistogramState) : List Reading :=
  let name (suffix : String) : JsString := ⟨metric.name.units ++ (js suffix).units⟩
  match metric.type, histogram with
  | .histogram, none => []
  | .histogram, some histogram =>
    (metric.buckets.zip histogram.counts).map (fun bucket =>
      Reading.mk (name "_bucket") (labels ++ [(js "le", ⟨Digits.text bucket.1⟩)])
        (.finite bucket.2)) ++
    [⟨name "_bucket", labels ++ [(js "le", js "+Inf")], .finite histogram.count⟩,
      ⟨name "_sum", labels, .finite histogram.sum⟩, ⟨name "_count", labels, .finite histogram.count⟩]
  | _, _ => [⟨name "", labels, .finite value⟩]

/-- The numbers of a series are doubles: no sum was rounded. -/
structure Series.Exact (item : Series) : Prop where
  value : IsDouble item.value
  histogram : ∀ histogram, item.histogram = some histogram → IsDouble histogram.sum ∧
    IsDouble (histogram.count : ℚ) ∧ ∀ count ∈ histogram.counts, IsDouble (count : ℚ)

instance Series.exactDecidable (item : Series) : Decidable item.Exact :=
  decidable_of_iff (IsDouble item.value ∧ ∀ histogram ∈ item.histogram, IsDouble histogram.sum ∧
      IsDouble (histogram.count : ℚ) ∧ ∀ count ∈ histogram.counts, IsDouble (count : ℚ))
    ⟨fun exact => ⟨exact.1, exact.2⟩, fun exact => ⟨exact.value, exact.histogram⟩⟩

def MetricsRegistry.Exact (registry : MetricsRegistry) : Prop :=
  ∀ entry ∈ registry.entries.rows, entry.series.Exact

/-- Nothing is rounded in a call. -/
def MetricsRegistry.Unrounded (registry : MetricsRegistry) (call : MetricCall) : Prop :=
  (registry.step call).Exact

instance MetricsRegistry.unroundedDecidable (registry : MetricsRegistry) (call : MetricCall) :
    Decidable (registry.Unrounded call) :=
  inferInstanceAs (Decidable (∀ entry ∈ (registry.step call).entries.rows, entry.series.Exact))

/-- The samples of a series are read as its numbers. -/
theorem Series.samples_readings {item : Series} (exact : item.Exact) :
    item.samples.map Line.reading = (readings item.definition
      (labelPairs item.definition item.labels) item.value item.histogram).map some := by
  have value := readNumber_digits exact.value
  unfold Series.samples readings
  cases item.definition.type with
  | counter => simp [Line.reading, value]
  | gauge => simp [Line.reading, value]
  | histogram =>
    cases present : item.histogram with
    | none => rfl
    | some histogram =>
      obtain ⟨sum, count, counts⟩ := exact.histogram histogram present
      have buckets : ∀ bucket ∈ item.definition.buckets.zip histogram.counts,
          readNumber (Decimal.text bucket.2) = some (.finite (bucket.2 : ℚ)) := by
        intro bucket member
        exact readNumber_natural (counts _ (List.of_mem_zip member).2)
      simp only [List.map_append, List.map_map, List.map_cons, List.map_nil]
      congr 1
      · apply List.map_congr_left
        intro bucket member
        simp [Line.reading, buckets bucket member]
      · simp [Line.reading, readNumber_digits sum, readNumber_natural count]

/-- A metric with its series. -/
structure Family where
  metric : Metric
  series : List Series

/-- A metric is introduced once, and its samples follow. -/
def Family.lines (family : Family) : List Line :=
  .help family.metric.name family.metric.help :: .type family.metric.name family.metric.type ::
    family.series.flatMap Series.samples

/-- Neighbours with one name make a family. -/
def gather : List Series → List Family
  | [] => []
  | item :: rest =>
    match gather rest with
    | [] => [⟨item.definition, [item]⟩]
    | family :: more =>
      if family.metric.name = item.definition.name then
        ⟨item.definition, item :: family.series⟩ :: more
      else ⟨item.definition, [item]⟩ :: family :: more

/-- A histogram counts the same observations in every bucket. -/
def Series.Counted (item : Series) : Prop :=
  ∀ histogram, item.histogram = some histogram →
    ∃ observed, histogram = histogramOf item.definition.buckets observed

private theorem labelsText_line (definition : Metric) (labels : MetricLabels)
    (extra : Option (JsString × JsString)) (name value : List UInt16) :
    name ++ (labelsText definition labels extra ++ 0x20 :: value) =
      Line.text (.sample ⟨name⟩ (labelPairs definition labels ++ extra.toList) value) := by
  have long : (List.map labelText (labelPairs definition labels ++ extra.toList)).length =
      (labelPairs definition labels ++ extra.toList).length := List.length_map _
  dsimp only [labelsText]
  rw [long]
  rfl

theorem Series.lines_samples {item : Series} (counted : item.Counted) :
    item.lines = item.samples.map Line.text := by
  have line : ∀ (suffix : String) extra value, item.named suffix ++ item.labeled extra value =
      Line.text (.sample ⟨item.definition.name.units ++ (js suffix).units⟩
        (labelPairs item.definition item.labels ++ extra.toList) value) :=
    fun suffix extra value => labelsText_line item.definition item.labels extra _ value
  have bare : ∀ (suffix : String) value, item.named suffix ++ item.labeled none value =
      Line.text (.sample ⟨item.definition.name.units ++ (js suffix).units⟩
        (labelPairs item.definition item.labels) value) := by
    intro suffix value
    rw [line suffix none value, Option.toList_none, List.append_nil]
  unfold Series.lines Series.samples
  cases type : item.definition.type with
  | counter => exact congrArg (fun text => [text]) (bare "" _)
  | gauge => exact congrArg (fun text => [text]) (bare "" _)
  | histogram =>
    cases present : item.histogram with
    | none => rfl
    | some histogram =>
      obtain ⟨observed, counts⟩ := counted histogram present
      have long : histogram.counts.length = item.definition.buckets.length := by
        rw [counts, histogramOf, List.length_map]
      dsimp only
      rw [List.map_append, List.map_map]
      refine congrArg₂ (fun left right => left ++ right) ?_ ?_
      · apply List.ext_getElem
        · simp [long]
        · intro index short later
          have inside : index < histogram.counts.length := by
            rw [List.length_mapIdx] at short
            omega
          rw [List.getElem_mapIdx, List.getElem_map, Function.comp_apply, List.getElem_zip,
            Series.countText, List.getElem?_eq_getElem inside]
          exact line "_bucket" (some (js "le", _)) _
      · rw [List.map_cons, List.map_cons, List.map_cons, List.map_nil, ← bare, ← bare]
        exact congrArg₂ List.cons (line "_bucket" (some (js "le", js "+Inf")) _) rfl

theorem renderLines_gather (previous : Option JsString) {items : List Series}
    (counted : ∀ item ∈ items, item.Counted) :
    renderLines previous items = (match gather items with
      | [] => []
      | family :: more => (if some family.metric.name = previous then
          family.series.flatMap Series.samples else family.lines) ++
          more.flatMap Family.lines).map Line.text := by
  induction items generalizing previous with
  | nil => rfl
  | cons item rest ih =>
    obtain ⟨here, later⟩ := List.forall_mem_cons.mp counted
    have help : item.helpLine = (Line.help item.definition.name item.definition.help).text := rfl
    have type : item.typeLine = (Line.type item.definition.name item.definition.type).text := rfl
    rw [renderLines, ih (some item.definition.name) later, Series.lines_samples here, gather, help, type]
    cases gather rest with
    | nil => by_cases same : some item.definition.name = previous <;> simp [same, Family.lines]
    | cons family more =>
      dsimp only
      by_cases joined : family.metric.name = item.definition.name
      · by_cases same : some item.definition.name = previous <;> simp [same, joined, Family.lines]
      · by_cases same : some item.definition.name = previous
        · have apart : some family.metric.name ≠ previous :=
            fun again => joined (Option.some.inj (again.trans same.symm))
          simp [same, joined, apart, Family.lines]
        · simp [same, joined, Family.lines]

private theorem intercalate_lines {lines : List (List UInt16)} (filled : lines ≠ []) :
    [0x0A].intercalate lines ++ [0x0A] = lines.flatMap fun line => line ++ [0x0A] := by
  induction lines with
  | nil => exact absurd rfl filled
  | cons line rest ih =>
    cases rest with
    | nil => simp
    | cons next more =>
      rw [List.intercalate_cons_cons, List.flatMap_cons, ← ih (List.cons_ne_nil next more),
        List.append_assoc]

/-- The rendered text is the text of the families' lines. -/
theorem renderPrometheus_families {registry : MetricsRegistry}
    {localeCompare : JsString → JsString → Int}
    (counted : ∀ entry ∈ registry.entries.rows, entry.series.Counted) :
    registry.renderPrometheus localeCompare =
      ⟨((gather (registry.sorted localeCompare)).flatMap Family.lines).flatMap fun line =>
        line.text ++ [0x0A]⟩ := by
  have listed : ∀ item ∈ registry.sorted localeCompare, item.Counted := by
    intro item member
    rw [MetricsRegistry.sorted, List.mem_mergeSort] at member
    obtain ⟨entry, stored, rfl⟩ := List.mem_map.mp member
    exact counted entry stored
  have lines : renderLines none (registry.sorted localeCompare) =
      ((gather (registry.sorted localeCompare)).flatMap Family.lines).map Line.text := by
    rw [renderLines_gather none listed]
    cases gather (registry.sorted localeCompare) with
    | nil => rfl
    | cons family more => simp
  dsimp only [MetricsRegistry.renderPrometheus]
  rw [lines, List.length_map]
  split
  · rename_i empty
    rw [List.eq_nil_of_length_eq_zero empty]
    rfl
  · rename_i filled
    rw [intercalate_lines, List.flatMap_map]
    intro empty
    rw [List.map_eq_nil_iff] at empty
    exact filled (by rw [empty]; rfl)

theorem gather_series (items : List Series) :
    (gather items).flatMap Family.series = items := by
  induction items with
  | nil => rfl
  | cons item rest ih =>
    rw [gather]
    cases gathered : gather rest with
    | nil =>
      rw [gathered] at ih
      rw [← ih]
      rfl
    | cons family more =>
      rw [gathered, List.flatMap_cons] at ih
      dsimp only
      split <;> simp [ih]

theorem gather_mem {items : List Series} {family : Family} (member : family ∈ gather items) :
    ∃ first more, family.series = first :: more ∧ first.definition = family.metric ∧
      ∀ item ∈ family.series, item ∈ items ∧ item.definition.name = family.metric.name := by
  induction items generalizing family with
  | nil => cases member
  | cons item rest ih =>
    have alone : ∃ first more, [item] = first :: more ∧ first.definition = item.definition ∧
        ∀ other ∈ [item], other ∈ item :: rest ∧ other.definition.name = item.definition.name := by
      refine ⟨item, [], rfl, rfl, ?_⟩
      intro other here
      cases List.mem_singleton.mp here
      exact ⟨List.mem_cons_self, rfl⟩
    have behind : family ∈ gather rest → ∃ first more, family.series = first :: more ∧
        first.definition = family.metric ∧
        ∀ other ∈ family.series, other ∈ item :: rest ∧ other.definition.name = family.metric.name := by
      intro later
      obtain ⟨first, more, same, own, all⟩ := ih later
      exact ⟨first, more, same, own, fun other inside =>
        ⟨List.mem_cons_of_mem item (all other inside).1, (all other inside).2⟩⟩
    rw [gather] at member
    cases gathered : gather rest with
    | nil =>
      rw [gathered] at member
      cases List.mem_singleton.mp member
      exact alone
    | cons next more =>
      rw [gathered] at member behind
      dsimp only at member
      split at member
      · rename_i joined
        rcases List.mem_cons.mp member with rfl | later
        · obtain ⟨-, -, -, -, all⟩ := ih (by rw [gathered]; exact List.mem_cons_self)
          refine ⟨item, next.series, rfl, rfl, ?_⟩
          intro other inside
          rcases List.mem_cons.mp inside with rfl | old
          · exact ⟨List.mem_cons_self, rfl⟩
          · exact ⟨List.mem_cons_of_mem item (all other old).1, (all other old).2.trans joined⟩
        · exact behind (List.mem_cons_of_mem next later)
      · rcases List.mem_cons.mp member with rfl | later
        · exact alone
        · exact behind later

/-- Where names are in order, a name that ended does not come again. -/
theorem Collation.gather_distinct {localeCompare : JsString → JsString → Int}
    (collation : Collation localeCompare) {items : List Series}
    (valid : ∀ item ∈ items, isMetricName item.definition.name = true)
    (ordered : items.Pairwise fun left right =>
      localeCompare left.definition.name right.definition.name ≤ 0) :
    ((gather items).map fun family => family.metric.name).Nodup := by
  induction items with
  | nil => exact List.nodup_nil
  | cons item rest ih =>
    obtain ⟨here, later⟩ := List.forall_mem_cons.mp valid
    obtain ⟨first, sorted⟩ := List.pairwise_cons.mp ordered
    have distinct := ih later sorted
    rw [gather]
    cases gathered : gather rest with
    | nil => exact List.nodup_singleton _
    | cons next more =>
      rw [gathered] at distinct
      dsimp only
      split
      · rename_i joined
        rw [List.map_cons] at distinct ⊢
        rw [← joined]
        exact distinct
      · rename_i apart
        rw [List.map_cons, List.nodup_cons]
        refine ⟨?_, distinct⟩
        intro again
        rw [List.map_cons, List.mem_cons] at again
        rcases again with same | again
        · exact apart same.symm
        · obtain ⟨family, member, named⟩ := List.mem_map.mp again
          obtain ⟨early, others, earlier, -, nexts⟩ := gather_mem
            (by rw [gathered]; exact List.mem_cons_self : next ∈ gather rest)
          obtain ⟨late, lasts, latest, -, lates⟩ := gather_mem
            (by rw [gathered]; exact List.mem_cons_of_mem next member : family ∈ gather rest)
          obtain ⟨present, early_name⟩ := nexts early (by rw [earlier]; exact List.mem_cons_self)
          have within : late ∈ family.series := by rw [latest]; exact List.mem_cons_self
          obtain ⟨stored, late_name⟩ := lates late within
          -- the next family's series all stand before this one's
          have split := gather_series rest
          rw [gathered, List.flatMap_cons] at split
          rw [← split] at sorted
          have before := (List.pairwise_append.mp sorted).2.2 early
            (by rw [earlier]; exact List.mem_cons_self) late
            (List.mem_flatMap.mpr ⟨family, member, within⟩)
          rw [late_name, named] at before
          have ahead := first early present
          have same := collation.apart _ _ here (later early present) ahead before
          exact apart (early_name.symm.trans same.symm)

open MetricsRegistry

/-- Series are those of valid definitions, each under the key of its label values, and a
histogram counts observations. -/
structure Scrapable (definitions : List MetricDefinition) (registry : MetricsRegistry) : Prop where
  metric : ∀ name metric, registry.definitions.get name = some metric →
    ∃ definition ∈ definitions, definition.valid = true ∧ definition.metric = metric
  keyed : registry.Keyed
  counted : ∀ entry ∈ registry.entries.rows, entry.series.Counted

section Step

variable {definitions : List MetricDefinition} {registry : MetricsRegistry}

theorem create_scrapable (definitions : List MetricDefinition) :
    Scrapable definitions (create definitions) where
  metric := fun _ _ found => create_from found
  keyed := create_keyed definitions
  counted := nofun

private theorem counted_change {series : Series} (counted : series.Counted) (effect : Effect) :
    (effect.change series).Counted := by
  intro histogram present
  rw [(change_keeps effect series).1]
  by_cases type : series.definition.type = .histogram
  · obtain ⟨observed, before⟩ : ∃ observed, series.histogram.getD (Series.empty series.definition.buckets) =
        histogramOf series.definition.buckets observed := by
      cases old : series.histogram with
      | none => exact ⟨[], (histogramOf_nil _).symm⟩
      | some histogram => exact counted histogram old
    have after := change_histogram type before effect
    rw [present, Option.getD_some] at after
    exact ⟨_, after⟩
  · have same : (effect.change series).histogram = series.histogram := by
      cases effect with
      | added amount => simp only [Effect.change, Series.added, if_neg type]
      | assigned value =>
        simp only [Effect.change, Series.assigned]
        split <;> rfl
      | observed value => simp only [Effect.change, Series.observed, if_neg type]
    exact counted histogram (same ▸ present)

/-- A call keeps what a series is, also where another tuple's series is under its key. -/
theorem Scrapable.step (scrapable : Scrapable definitions registry) (call : MetricCall) :
    Scrapable definitions (registry.step call) := by
  rw [step_eq]
  cases call.effect? with
  | none => exact scrapable
  | some effect =>
    show Scrapable definitions (registry.update call.name call.labels effect.change)
    rcases series_cases registry call.name call.labels with
      ⟨missing, -⟩ | ⟨entry, opened, definition, values, done, opening⟩
    · rw [MetricsRegistry.update, missing]
      exact scrapable
    · have series : entry.series.Counted ∧
          registry.definitions.get entry.series.definition.name = some entry.series.definition ∧
          ∃ values, labelValues entry.series.definition entry.series.labels = some values ∧
            entry.key = seriesKey entry.series.definition.name (join values) := by
        rcases opening.found with ⟨found, -⟩ | ⟨-, fresh, -⟩
        · have member := Table.mem_of_get found
          exact ⟨scrapable.counted entry member, scrapable.keyed.own entry member⟩
        · have named := Table.key_of_get opening.metric
          rw [fresh]
          have unobserved : Series.Counted ⟨definition, call.labels, 0, none⟩ := by
            intro histogram present
            cases present
          exact ⟨unobserved, named.symm ▸ opening.metric, values, opening.known, named.symm ▸ opening.key⟩
      obtain ⟨counted, registered, own⟩ := series
      obtain ⟨kept, same⟩ := change_keeps effect entry.series
      have stored : ∀ other : Entry,
          other ∈ (opened.entries.set { entry with series := effect.change entry.series }).rows →
          other = { entry with series := effect.change entry.series } ∨ other ∈ registry.entries.rows := by
        intro other member
        have read := (opening.get (effect.change entry.series) other.key).symm.trans
          (Table.get_of_mem member)
        split at read
        · exact .inl (Option.some.inj read).symm
        · exact .inr (Table.mem_of_get read)
      rw [opening.update done]
      refine ⟨scrapable.metric, ⟨scrapable.keyed.filled, ?_⟩, ?_⟩
      · intro other member
        rcases stored other member with rfl | old
        · show registry.definitions.get (effect.change entry.series).definition.name = _ ∧ _
          rw [kept, same]
          exact ⟨registered, own⟩
        · exact scrapable.keyed.own other old
      · intro other member
        rcases stored other member with rfl | old
        · exact counted_change counted effect
        · exact scrapable.counted other old

/-- Definitions are fixed when a registry is created. -/
theorem run_scrapable (definitions : List MetricDefinition) (calls : List MetricCall) :
    Scrapable definitions (run MetricsRegistry.step (create definitions) calls) :=
  run_invariant (Scrapable definitions) (fun _ call scrapable => scrapable.step call)
    (create_scrapable definitions) calls

end Step

private theorem digits_line (value : Nat) : (0x0A : UInt16) ∉ Decimal.text value :=
  fun member => absurd (Decimal.isDigit_text value 0x0A member) (by decide)

private theorem zeros_line (count : ℤ) : (0x0A : UInt16) ∉ Digits.zeros count :=
  fun member => absurd (List.eq_of_mem_replicate member) (by decide)

private theorem layout_line {digits : List UInt16} (single : (0x0A : UInt16) ∉ digits) (exponent : ℤ) :
    (0x0A : UInt16) ∉ Digits.layout digits exponent := by
  have front : ∀ count, (0x0A : UInt16) ∉ digits.take count :=
    fun count member => single (List.mem_of_mem_take member)
  have back : ∀ count, (0x0A : UInt16) ∉ digits.drop count :=
    fun count member => single (List.mem_of_mem_drop member)
  have tail : (0x0A : UInt16) ∉ digits.tail := fun member => single (List.mem_of_mem_tail member)
  have shift := digits_line
  dsimp only [Digits.layout]
  split
  · simp [single, zeros_line]
  · split
    · simp [front, back]
    · split
      · simp [single, zeros_line]
      · split <;> split <;> simp [front, tail, shift]

private theorem number_line (value : ℚ) : (0x0A : UInt16) ∉ Digits.text value := by
  unfold Digits.text
  split
  · decide
  · have whole := layout_line (digits_line (Digits.shortest |value|).1) (Digits.shortest |value|).2
    split <;> simp [whole]

private theorem MetricDefinition.valid_names {definition : MetricDefinition}
    (valid : definition.valid = true) : isMetricName definition.metric.name = true ∧
      ∀ name ∈ definition.metric.labels, isMetricName name = true := by
  simp only [MetricDefinition.valid, Bool.and_eq_true, List.all_eq_true] at valid
  exact ⟨valid.1.1, valid.2⟩

private theorem suffixed_word {name : JsString} (word : Word name) (filled : name.units ≠ [])
    {suffix : String} (behind : Word (js suffix)) :
    Word ⟨name.units ++ (js suffix).units⟩ ∧ name.units ++ (js suffix).units ≠ [] :=
  ⟨List.forall_mem_append.mpr ⟨word, behind⟩, fun empty => filled (List.append_eq_nil_iff.mp empty).1⟩

theorem Series.samples_plain {item : Series} (name : isMetricName item.definition.name = true)
    (labels : ∀ label ∈ item.definition.labels, isMetricName label = true) :
    ∀ line ∈ item.samples, line.Plain := by
  obtain ⟨word, filled⟩ := isMetricName_word name
  have words : ∀ label ∈ labelPairs item.definition item.labels, Word label.1 := by
    intro label member
    obtain ⟨own, listed, rfl⟩ := List.mem_map.mp member
    exact (isMetricName_word (labels own listed)).1
  have bound : ∀ text, ∀ label ∈ labelPairs item.definition item.labels ++ [(js "le", text)],
      Word label.1 := by
    intro text
    have bound : Word (js "le") := List.all_eq_true.mp rfl
    exact List.forall_mem_append.mpr ⟨words, List.forall_mem_singleton.mpr bound⟩
  have bucket : Word (js "_bucket") := List.all_eq_true.mp rfl
  have sum : Word (js "_sum") := List.all_eq_true.mp rfl
  have count : Word (js "_count") := List.all_eq_true.mp rfl
  have none : Word (js "") := nofun
  have named := fun {suffix : String} (behind : Word (js suffix)) => suffixed_word word filled behind
  unfold Series.samples
  intro line member
  dsimp only at member
  split at member
  · cases member
  · rcases List.mem_append.mp member with inner | last
    · obtain ⟨pair, -, rfl⟩ := List.mem_map.mp inner
      exact ⟨(named bucket).1, (named bucket).2, bound _, digits_line _⟩
    · simp only [List.mem_cons, List.not_mem_nil, or_false] at last
      rcases last with rfl | rfl | rfl
      · exact ⟨(named bucket).1, (named bucket).2, bound _, digits_line _⟩
      · exact ⟨(named sum).1, (named sum).2, words, number_line _⟩
      · exact ⟨(named count).1, (named count).2, words, digits_line _⟩
  · cases List.mem_singleton.mp member
    exact ⟨(named none).1, (named none).2, words, number_line _⟩

/-- The pairs of a series' labels are its metric's label names with the label values. -/
theorem labelPairs_zip {definition : Metric} {labels : MetricLabels} {values : List JsString}
    (known : labelValues definition labels = some values) :
    labelPairs definition labels = definition.labels.zip values ∧
      values.length = definition.labels.length := by
  unfold labelValues at known
  split at known
  · cases known
  · unfold labelPairs
    generalize definition.labels = names at known ⊢
    induction names generalizing values with
    | nil =>
      cases known
      exact ⟨rfl, rfl⟩
    | cons name rest ih =>
      rw [List.mapM_cons] at known
      obtain ⟨value, found, known⟩ := Option.bind_eq_some_iff.mp known
      obtain ⟨others, later, known⟩ := Option.bind_eq_some_iff.mp known
      cases known
      obtain ⟨same, long⟩ := ih later
      rw [List.map_cons, same, found]
      exact ⟨rfl, congrArg (fun length => length + 1) long⟩

/-- Where no call met another tuple's series, a series is what the reference says of its label values. -/
private theorem mirrored_series {metrics : Table fun metric : Metric => metric.name}
    {calls : List MetricCall} {registry : MetricsRegistry} (mirrors : Mirrors metrics calls registry)
    {entry : Entry} (member : entry ∈ registry.entries.rows) {values : List JsString}
    (known : labelValues entry.series.definition entry.series.labels = some values) :
    let effects := effectsOn entry.series.definition values calls
    entry.series.value = total entry.series.definition.type effects ∧
      (entry.series.definition.type = .histogram → ∀ histogram, entry.series.histogram = some histogram →
        histogram = histogramOf entry.series.definition.buckets (observations effects)) := by
  intro effects
  obtain ⟨registered, others, again, key⟩ := mirrors.keyed.own entry member
  have same : others = values := Option.some.inj (again.symm.trans known)
  subst same
  have owned : owns entry.series.definition.name others entry = true := by simp [owns, known]
  have found : registry.find entry.series.definition.name others = some entry.series := by
    rw [mirrors.keyed.find_eq, ← key, Table.get_of_mem member]
    simp [Option.filter, owned]
  have stored := registered
  rw [mirrors.definitions] at stored
  constructor
  · have value := mirrors.value _ _ stored others
    rw [MetricsRegistry.value, found] at value
    exact value
  · intro type histogram present
    have counts := mirrors.histogram _ _ stored type others
    rw [MetricsRegistry.histogram, found, Option.bind_some, present] at counts
    exact counts

/-- What the families of a scrape say about the calls so far. -/
structure Shows (definitions : List MetricDefinition) (calls : List MetricCall)
    (registry : MetricsRegistry) (families : List Family) : Prop where
  introduced : (families.map fun family => family.metric.name).Nodup
  registered : ∀ family ∈ families, ∃ definition ∈ definitions,
    definition.valid = true ∧ definition.metric = family.metric
  own : ∀ family ∈ families, ∀ series ∈ family.series, series.definition = family.metric
  complete : (families.flatMap Family.series).Perm (registry.entries.rows.map fun entry => entry.series)
  labeled : ((families.flatMap Family.series).map fun series =>
    (series.definition.name, labelPairs series.definition series.labels)).Nodup
  cumulative : ∀ family ∈ families, ∀ series ∈ family.series, ∀ histogram,
    series.histogram = some histogram → histogram.counts.length = family.metric.buckets.length ∧
      histogram.counts.Pairwise (· ≤ ·) ∧ ∀ count ∈ histogram.counts, count ≤ histogram.count
  shown : ∀ family ∈ families, ∀ series ∈ family.series, series.samples.map Line.reading =
    (readings family.metric (labelPairs family.metric series.labels) series.value
      series.histogram).map some
  bounds : ∀ family ∈ families, ∀ bound ∈ family.metric.buckets,
    readNumber (Digits.text bound) = some (.finite bound)
  reference : Along MetricsRegistry.step Own (create definitions) calls → ∀ family ∈ families,
    ∀ series ∈ family.series, ∃ values,
      labelPairs family.metric series.labels = family.metric.labels.zip values ∧
      series.value = total family.metric.type (effectsOn family.metric values calls) ∧
      (family.metric.type = .histogram → ∀ histogram, series.histogram = some histogram →
        histogram = histogramOf family.metric.buckets
          (observations (effectsOn family.metric values calls)))

theorem Scrapable.labeled {definitions : List MetricDefinition} {registry : MetricsRegistry}
    (scrapable : Scrapable definitions registry) :
    ((registry.entries.rows.map fun entry => entry.series).map fun series =>
      (series.definition.name, labelPairs series.definition series.labels)).Nodup := by
  rw [List.map_map]
  refine List.Nodup.map_on ?_ registry.entries.unique.of_map
  intro left first right second same
  obtain ⟨name, pairs⟩ := Prod.mk.inj same
  obtain ⟨registered, values, known, key⟩ := scrapable.keyed.own left first
  obtain ⟨others, texts, read, place⟩ := scrapable.keyed.own right second
  have metric : left.series.definition = right.series.definition := by
    rw [name, others] at registered
    exact (Option.some.inj registered).symm
  obtain ⟨zipped, long⟩ := labelPairs_zip known
  obtain ⟨others, length⟩ := labelPairs_zip read
  have tuple : values = texts := by
    have snd := congrArg (List.map Prod.snd) (zipped.symm.trans (pairs.trans others))
    rw [List.map_snd_zip (le_of_eq long), List.map_snd_zip (le_of_eq length)] at snd
    exact snd
  exact Table.eq_of_key first second (by rw [key, place, tuple, metric])

section Gathered

variable {localeCompare : JsString → JsString → Int} {definitions : List MetricDefinition}
  {registry : MetricsRegistry} {item : Series} {family : Family}

private theorem stored_of_sorted (member : item ∈ registry.sorted localeCompare) :
    ∃ entry ∈ registry.entries.rows, entry.series = item := by
  rw [MetricsRegistry.sorted, List.mem_mergeSort] at member
  exact List.mem_map.mp member

private theorem Scrapable.defined (scrapable : Scrapable definitions registry)
    (member : item ∈ registry.sorted localeCompare) :
    registry.definitions.get item.definition.name = some item.definition := by
  obtain ⟨entry, present, rfl⟩ := stored_of_sorted member
  exact (scrapable.keyed.own entry present).1

/-- The series of a family are stored ones, all of the family's own metric. -/
private theorem Scrapable.family_own (scrapable : Scrapable definitions registry)
    (member : family ∈ gather (registry.sorted localeCompare)) {series : Series}
    (inside : series ∈ family.series) :
    (∃ entry ∈ registry.entries.rows, entry.series = series) ∧ series.definition = family.metric := by
  obtain ⟨first, more, same, metric, all⟩ := gather_mem member
  obtain ⟨ahead, name⟩ := all first (by rw [same]; exact List.mem_cons_self)
  obtain ⟨listed, again⟩ := all series inside
  refine ⟨stored_of_sorted listed, ?_⟩
  have found := scrapable.defined listed
  rw [again, ← name, scrapable.defined ahead] at found
  rw [← metric]
  exact (Option.some.inj found).symm

private theorem Scrapable.family_registered (scrapable : Scrapable definitions registry)
    (member : family ∈ gather (registry.sorted localeCompare)) :
    ∃ definition ∈ definitions, definition.valid = true ∧ definition.metric = family.metric := by
  obtain ⟨first, more, same, metric, all⟩ := gather_mem member
  have ahead := (all first (by rw [same]; exact List.mem_cons_self)).1
  rw [← metric]
  exact scrapable.metric _ _ (scrapable.defined ahead)

private theorem Scrapable.lines_plain (scrapable : Scrapable definitions registry)
    (single : ∀ definition ∈ definitions, (0x0A : UInt16) ∉ definition.help.units) :
    ∀ line ∈ (gather (registry.sorted localeCompare)).flatMap Family.lines, line.Plain := by
  intro line member
  obtain ⟨family, listed, inside⟩ := List.mem_flatMap.mp member
  obtain ⟨definition, given, accepted, metric⟩ := scrapable.family_registered listed
  obtain ⟨name, labels⟩ := definition.valid_names accepted
  rw [metric] at name labels
  obtain ⟨word, -⟩ := isMetricName_word name
  rcases List.mem_cons.mp inside with rfl | inside
  · exact ⟨word, metric ▸ single definition given⟩
  · rcases List.mem_cons.mp inside with rfl | inside
    · exact word
    · obtain ⟨series, held, sample⟩ := List.mem_flatMap.mp inside
      have same := (scrapable.family_own listed held).2
      exact Series.samples_plain (same ▸ name) (same ▸ labels) line sample

private theorem Scrapable.introduced (scrapable : Scrapable definitions registry)
    (collation : Collation localeCompare) :
    ((gather (registry.sorted localeCompare)).map fun family => family.metric.name).Nodup := by
  apply collation.gather_distinct
  · intro item member
    obtain ⟨definition, _, accepted, metric⟩ := scrapable.metric _ _ (scrapable.defined member)
    rw [← metric]
    exact (definition.valid_names accepted).1
  · have sorted : (registry.sorted localeCompare).Pairwise fun left right =>
        decide (localeCompare left.definition.name right.definition.name ≤ 0) = true := by
      apply List.pairwise_mergeSort
      · intro first second third early late
        exact decide_eq_true
          (collation.trans _ _ _ (of_decide_eq_true early) (of_decide_eq_true late))
      · intro first second
        simpa using collation.total first.definition.name second.definition.name
    exact sorted.imp fun before => of_decide_eq_true before

private theorem Scrapable.cumulative (scrapable : Scrapable definitions registry)
    (member : family ∈ gather (registry.sorted localeCompare)) {series : Series}
    (inside : series ∈ family.series) {histogram : HistogramState}
    (present : series.histogram = some histogram) :
    histogram.counts.length = family.metric.buckets.length ∧
      histogram.counts.Pairwise (· ≤ ·) ∧ ∀ count ∈ histogram.counts, count ≤ histogram.count := by
  obtain ⟨⟨entry, kept, rfl⟩, same⟩ := scrapable.family_own member inside
  obtain ⟨observed, rfl⟩ := scrapable.counted entry kept histogram present
  obtain ⟨definition, -, -, metric⟩ := scrapable.family_registered member
  have ascending : entry.series.definition.buckets.Pairwise (· ≤ ·) := by
    rw [same, ← metric, MetricDefinition.metric]
    split
    · exact validBuckets_ascending _
    · exact List.Pairwise.nil
  refine ⟨?_, histogramOf_ascending ascending observed⟩
  rw [← same, histogramOf, List.length_map]

/-- The bounds of a family's buckets are read as they are. -/
private theorem Scrapable.bounds (scrapable : Scrapable definitions registry)
    (doubles : ∀ definition ∈ definitions, ∀ bound,
      .finite bound ∈ definition.buckets.getD [] → IsDouble bound)
    (member : family ∈ gather (registry.sorted localeCompare)) {bound : ℚ}
    (inside : bound ∈ family.metric.buckets) : readNumber (Digits.text bound) = some (.finite bound) := by
  obtain ⟨definition, given, -, metric⟩ := scrapable.family_registered member
  rw [← metric, MetricDefinition.metric] at inside
  dsimp only at inside
  split at inside
  · exact readNumber_digits (doubles definition given bound (mem_validBuckets inside))
  · cases inside

end Gathered

/-- After any calls in which nothing is rounded what is rendered reads back as the families
of the registry's series: each metric with a series is introduced once by its own definition,
its samples follow, no label value makes a line or a label of its own, every series is there
once with its own numbers, buckets are cumulative, and where no call met another tuple's
series the numbers are the reference's. -/
theorem exposition_reads_back {localeCompare : JsString → JsString → Int}
    (collation : Collation localeCompare) {definitions : List MetricDefinition}
    (single : ∀ definition ∈ definitions, (0x0A : UInt16) ∉ definition.help.units)
    (doubles : ∀ definition ∈ definitions, ∀ bound,
      .finite bound ∈ definition.buckets.getD [] → IsDouble bound)
    {calls : List MetricCall}
    (exact : Along MetricsRegistry.step MetricsRegistry.Unrounded (create definitions) calls) :
    let registry := run MetricsRegistry.step (create definitions) calls
    ∃ families, readExposition (registry.renderPrometheus localeCompare) =
        some (families.flatMap Family.lines) ∧ Shows definitions calls registry families := by
  intro registry
  have scrapable : Scrapable definitions registry := run_scrapable definitions calls
  have unrounded : registry.Exact := by
    have started : (create definitions).Exact := by
      intro entry member
      cases member
    refine Along.invariant ?_ started exact
    intro _ _ _ unrounded
    exact unrounded
  have complete : ((gather (registry.sorted localeCompare)).flatMap Family.series).Perm
      (registry.entries.rows.map fun entry => entry.series) := by
    rw [gather_series]
    exact List.mergeSort_perm _ _
  refine ⟨gather (registry.sorted localeCompare), ?_, ?_⟩
  · rw [renderPrometheus_families scrapable.counted]
    exact readExposition_text (scrapable.lines_plain single)
  · refine ⟨scrapable.introduced collation, fun family member => scrapable.family_registered member,
      fun family member series inside => (scrapable.family_own member inside).2, complete,
      (complete.map _).nodup_iff.mpr scrapable.labeled,
      fun family member series inside histogram present => scrapable.cumulative member inside present,
      ?_, fun family member bound inside => scrapable.bounds doubles member inside, ?_⟩
    · intro family member series inside
      obtain ⟨⟨entry, kept, rfl⟩, same⟩ := scrapable.family_own member inside
      rw [← same]
      exact Series.samples_readings (unrounded entry kept)
    · intro along family member series inside
      have mirrors : Mirrors (create definitions).definitions calls registry :=
        Along.history (fun taken state call mirrors own => mirrors.step own) (create_mirrors definitions)
          along
      obtain ⟨⟨entry, kept, rfl⟩, same⟩ := scrapable.family_own member inside
      obtain ⟨-, values, known, -⟩ := scrapable.keyed.own entry kept
      have reads := mirrored_series mirrors kept known
      rw [same] at reads known
      exact ⟨values, (labelPairs_zip known).1, reads⟩

/-- The order of names that have only small letters. -/
private def byUnits (left right : JsString) : Int :=
  if left.units.map UInt16.toNat < right.units.map UInt16.toNat then -1
  else if left = right then 0 else 1

private theorem byUnits_le {left right : JsString} :
    byUnits left right ≤ 0 ↔ left.units.map UInt16.toNat ≤ right.units.map UInt16.toNat := by
  unfold byUnits
  split
  · rename_i below
    exact ⟨fun _ => below.le, fun _ => by decide⟩
  · rename_i notBelow
    split
    · rename_i same
      exact ⟨fun _ => by rw [same], fun _ => le_refl 0⟩
    · rename_i apart
      refine ⟨fun low => absurd low (by decide), fun below => ?_⟩
      have units := le_antisymm below (not_lt.mp notBelow)
      obtain ⟨first⟩ := left
      obtain ⟨second⟩ := right
      have same : first = second := List.map_injective_iff.mpr (fun _ _ => UInt16.toNat_inj.mp) units
      exact absurd (congrArg JsString.mk same) apart

private theorem byUnits_collation : Collation byUnits where
  total := by
    intro left right
    rw [byUnits_le, byUnits_le]
    exact le_total _ _
  trans := by
    intro first second third early late
    rw [byUnits_le] at early late ⊢
    exact early.trans late
  apart := by
    intro left right _ _ below above
    rw [byUnits_le] at below above
    have units := le_antisymm below above
    obtain ⟨first⟩ := left
    obtain ⟨second⟩ := right
    have same : first = second := List.map_injective_iff.mpr (fun _ _ => UInt16.toNat_inj.mp) units
    rw [same]

private def jobs : MetricDefinition := ⟨js "jobs", js "Jobs by state.", .gauge, [js "state"], none⟩

private def latency : MetricDefinition :=
  ⟨js "latency", js "Latency.", .histogram, [], some [.finite 1, .finite 2]⟩

private def scraped : List MetricCall :=
  [.observe (js "latency") ⟨[], List.nodup_nil⟩ (.finite 2),
    .set (js "jobs") ⟨[(js "state", js "a\"b")], List.nodup_singleton _⟩ (.finite 3)]

private theorem latency_buckets : validBuckets latency.buckets = [1, 2] := by
  rw [validBuckets, List.mergeSort_of_pairwise]
  all_goals decide +kernel

private theorem scraped_exact :
    Along MetricsRegistry.step MetricsRegistry.Unrounded (create [jobs, latency]) scraped := by
  have metric : latency.metric = ⟨js "latency", js "Latency.", .histogram, [], [1, 2]⟩ := by
    rw [MetricDefinition.metric, latency_buckets]
    rfl
  have created : create [jobs, latency] = ⟨(Table.empty.set jobs.metric).set
      ⟨js "latency", js "Latency.", .histogram, [], [1, 2]⟩, Table.empty⟩ := by
    rw [← metric]
    rfl
  rw [created]
  decide +kernel

/-- A quote in a label value, and a metric whose series is older than one of an earlier name. -/
theorem quoted_value_reads_back : ∃ families,
    readExposition ((run MetricsRegistry.step (create [jobs, latency]) scraped).renderPrometheus byUnits) =
        some (families.flatMap Family.lines) ∧
      Shows [jobs, latency] scraped (run MetricsRegistry.step (create [jobs, latency]) scraped)
        families := by
  apply exposition_reads_back byUnits_collation
  · intro definition member
    simp only [List.mem_cons, List.not_mem_nil, or_false] at member
    rcases member with rfl | rfl <;> decide
  · intro definition member bound given
    simp only [List.mem_cons, List.not_mem_nil, or_false] at member
    rcases member with rfl | rfl
    · cases given
    · simp [latency] at given
      rcases given with rfl | rfl <;> decide +kernel
  · exact scraped_exact

end N2FNest.Metrics
