import N2FNest.Metrics.Mirror
import N2FNest.Shared.Digits

/-! The text a scraper gets: what the registry renders, and a reader for it. -/

namespace N2FNest.Metrics

open Lib Shared

/-- `text.replaceAll(unit, by)` for one unit. -/
def replaceAll (text : List UInt16) (unit : UInt16) (replacement : List UInt16) : List UInt16 :=
  text.flatMap fun other => if other = unit then replacement else [other]

def escapeLabel (value : JsString) : List UInt16 :=
  replaceAll (replaceAll (replaceAll value.units 0x5C [0x5C, 0x5C]) 0x22 [0x5C, 0x22])
    0x0A [0x5C, 0x6E]

def labelText (label : JsString × JsString) : List UInt16 :=
  label.1.units ++ 0x3D :: 0x22 :: (escapeLabel label.2 ++ [0x22])

/-- The labels of a series in the metric's order. -/
def labelPairs (definition : Metric) (labels : MetricLabels) : List (JsString × JsString) :=
  definition.labels.map fun name => (name, ((labels.get name).map fun label => label.2).getD ⟨[]⟩)

def labelsText (definition : Metric) (labels : MetricLabels) (extra : Option (JsString × JsString)) :
    List UInt16 :=
  let values := (labelPairs definition labels ++ extra.toList).map labelText
  if values.length = 0 then [] else 0x7B :: ([0x2C].intercalate values ++ [0x7D])

def MetricType.text : MetricType → JsString
  | .counter => js "counter"
  | .gauge => js "gauge"
  | .histogram => js "histogram"

namespace Series

def named (item : Series) (suffix : String) : List UInt16 :=
  item.definition.name.units ++ (js suffix).units

def labeled (item : Series) (extra : Option (JsString × JsString)) (value : List UInt16) :
    List UInt16 :=
  labelsText item.definition item.labels extra ++ 0x20 :: value

/-- A count the array does not hold is written as `undefined`. -/
def countText (counts : List Nat) (index : Nat) : List UInt16 :=
  match counts[index]? with
  | some count => Decimal.text count
  | none => (js "undefined").units

/-- The lines of one series; a histogram without observations has none. -/
def lines (item : Series) : List (List UInt16) :=
  match item.definition.type, item.histogram with
  | .histogram, none => []
  | .histogram, some histogram =>
    (item.definition.buckets.mapIdx fun index bucket =>
      named item "_bucket" ++ labeled item (some (js "le", ⟨Digits.text bucket⟩))
        (countText histogram.counts index)) ++
    [named item "_bucket" ++ labeled item (some (js "le", js "+Inf")) (Decimal.text histogram.count),
      named item "_sum" ++ labeled item none (Digits.text histogram.sum),
      named item "_count" ++ labeled item none (Decimal.text histogram.count)]
  | _, _ => [named item "" ++ labeled item none (Digits.text item.value)]

def helpLine (item : Series) : List UInt16 :=
  (js "# HELP ").units ++ (item.definition.name.units ++ 0x20 :: item.definition.help.units)

def typeLine (item : Series) : List UInt16 :=
  (js "# TYPE ").units ++ (item.definition.name.units ++ 0x20 :: item.definition.type.text.units)

end Series

/-- The loop over the sorted series; a metric is introduced where its name changes. -/
def renderLines (previous : Option JsString) : List Series → List (List UInt16)
  | [] => []
  | item :: rest =>
    (if some item.definition.name ≠ previous then [item.helpLine, item.typeLine] else []) ++
      item.lines ++ renderLines (some item.definition.name) rest

/-- The series in the order of their names. -/
def MetricsRegistry.sorted (registry : MetricsRegistry) (localeCompare : JsString → JsString → Int) :
    List Series :=
  (registry.entries.rows.map fun entry => entry.series).mergeSort fun left right =>
    localeCompare left.definition.name right.definition.name ≤ 0

def MetricsRegistry.renderPrometheus (registry : MetricsRegistry)
    (localeCompare : JsString → JsString → Int) : JsString :=
  let lines := renderLines none (registry.sorted localeCompare)
  if lines.length = 0 then js "" else ⟨[0x0A].intercalate lines ++ [0x0A]⟩

inductive Line where
  | help (name text : JsString)
  | type (name : JsString) (kind : MetricType)
  | sample (name : JsString) (labels : List (JsString × JsString)) (value : List UInt16)
  deriving DecidableEq

/-- The text of a quoted value, and what is behind the quote. -/
def readQuoted : List UInt16 → Option (List UInt16 × List UInt16)
  | [] => none
  | 0x22 :: rest => some ([], rest)
  | 0x5C :: 0x5C :: rest => (readQuoted rest).map fun (value, behind) => (0x5C :: value, behind)
  | 0x5C :: 0x22 :: rest => (readQuoted rest).map fun (value, behind) => (0x22 :: value, behind)
  | 0x5C :: 0x6E :: rest => (readQuoted rest).map fun (value, behind) => (0x0A :: value, behind)
  | unit :: rest =>
    if unit = 0x5C then none else (readQuoted rest).map fun (value, behind) => (unit :: value, behind)

/-- No delimiter of the format. -/
def isWord (unit : UInt16) : Bool := !([0x0A, 0x20, 0x22, 0x23, 0x2C, 0x3D, 0x5C, 0x7B, 0x7D] : List UInt16).contains unit

/-- Labels up to the closing brace. -/
def readLabels : Nat → List UInt16 → Option (List (JsString × JsString) × List UInt16)
  | 0, _ => none
  | fuel + 1, text =>
    match text.dropWhile isWord with
    | 0x3D :: 0x22 :: rest => do
      let (value, behind) ← readQuoted rest
      match behind with
      | 0x7D :: after => return ([(⟨text.takeWhile isWord⟩, ⟨value⟩)], after)
      | 0x2C :: after => do
        let (more, last) ← readLabels fuel after
        return ((⟨text.takeWhile isWord⟩, ⟨value⟩) :: more, last)
      | _ => none
    | _ => none

def readSample (text : List UInt16) : Option Line :=
  match text.dropWhile isWord with
  | 0x20 :: value => some (.sample ⟨text.takeWhile isWord⟩ [] value)
  | 0x7B :: rest => do
    let (labels, behind) ← readLabels rest.length rest
    match behind with
    | 0x20 :: value => return .sample ⟨text.takeWhile isWord⟩ labels value
    | _ => none
  | _ => none

/-- What is behind a comment's keyword: a name, a blank and the rest. -/
def readComment (text : List UInt16) : Option (JsString × JsString) :=
  match text.dropWhile isWord with
  | 0x20 :: rest => some (⟨text.takeWhile isWord⟩, ⟨rest⟩)
  | _ => none

def readLine (text : List UInt16) : Option Line :=
  if (js "# HELP ").units <+: text then
    (readComment (text.drop 7)).map fun (name, help) => .help name help
  else if (js "# TYPE ").units <+: text then do
    let (name, word) ← readComment (text.drop 7)
    let kind ← [MetricType.counter, .gauge, .histogram].find? fun kind => kind.text = word
    return .type name kind
  else readSample text

/-- Every line ends with a line feed. -/
def readExposition (text : JsString) : Option (List Line) :=
  (text.units.splitOn 0x0A).dropLast.mapM readLine

/-- The number a sample's text writes, which is the double next to it. -/
def readNumber (text : List UInt16) : Option JsNumber :=
  match Json.scanNumeral text with
  | some (numeral, []) => some numeral.number
  | _ => none

/-- A sample as a scraper keeps it. -/
structure Reading where
  name : JsString
  labels : List (JsString × JsString)
  value : JsNumber
  deriving DecidableEq

def Line.reading : Line → Option Reading
  | .sample name labels value => (readNumber value).map (Reading.mk name labels)
  | _ => none

/-- A finite number of the program. -/
def IsDouble (value : ℚ) : Prop := |value| < Binary64.overflow ∧ Binary64.round value = value

instance isDoubleDecidable (value : ℚ) : Decidable (IsDouble value) :=
  inferInstanceAs (Decidable (_ ∧ _))

private theorem readNumber_text (number : Json.NumberText) :
    readNumber number.text = some number.numeral.number := by
  have scanned := Json.scanNumeral_text number (show Json.Stops [] by simp [Json.Stops])
  rw [List.append_nil] at scanned
  rw [readNumber, scanned]

theorem readNumber_digits {value : ℚ} (double : IsDouble value) :
    readNumber (Digits.text value) = some (.finite value) := by
  obtain ⟨number, same, reads⟩ := Digits.text_reads double.1 double.2
  rw [← same, readNumber_text, reads]

theorem readNumber_natural {value : ℕ} (double : IsDouble value) :
    readNumber (Decimal.text value) = some (.finite value) := by
  obtain ⟨number, same, reads⟩ := Digits.natural_reads value
  rw [← same, readNumber_text, Json.Numeral.number, reads, JsNumber.ofRat, double.2, if_pos double.1]

namespace Line

private def braces (labels : List (JsString × JsString)) : List UInt16 :=
  if labels.length = 0 then [] else 0x7B :: ([0x2C].intercalate (labels.map labelText) ++ [0x7D])

def text : Line → List UInt16
  | .help name text => (js "# HELP ").units ++ (name.units ++ 0x20 :: text.units)
  | .type name kind => (js "# TYPE ").units ++ (name.units ++ 0x20 :: kind.text.units)
  | .sample name labels value => name.units ++ (braces labels ++ 0x20 :: value)

end Line

/-- A text without a delimiter. -/
def Word (text : JsString) : Prop := ∀ unit ∈ text.units, isWord unit = true

theorem isMetricName_word {text : JsString} (valid : isMetricName text = true) :
    Word text ∧ text.units ≠ [] := by
  have delimiter : ∀ {unit : UInt16}, isWord unit = false → unit = 0x0A ∨ unit = 0x20 ∨ unit = 0x22 ∨
      unit = 0x23 ∨ unit = 0x2C ∨ unit = 0x3D ∨ unit = 0x5C ∨ unit = 0x7B ∨ unit = 0x7D := by
    intro unit ends
    have listed : [0x0A, 0x20, 0x22, 0x23, 0x2C, 0x3D, 0x5C, 0x7B, 0x7D].contains unit = true := by
      simpa only [isWord, Bool.not_eq_false'] using ends
    simpa only [List.contains_iff_mem, List.mem_cons, List.not_mem_nil, or_false] using listed
  unfold isMetricName at valid
  split at valid
  · cases valid
  · rename_i first rest same
    simp only [Bool.and_eq_true, List.all_eq_true] at valid
    refine ⟨?_, by rw [same]; exact List.cons_ne_nil first rest⟩
    intro unit member
    rw [same] at member
    by_contra ends
    rcases List.mem_cons.mp member with rfl | later
    · rcases delimiter (Bool.not_eq_true _ ▸ ends) with
        rfl | rfl | rfl | rfl | rfl | rfl | rfl | rfl | rfl <;> exact absurd valid.1 (by decide)
    · have part := valid.2 unit later
      rcases delimiter (Bool.not_eq_true _ ▸ ends) with
        rfl | rfl | rfl | rfl | rfl | rfl | rfl | rfl | rfl <;> exact absurd part (by decide)

section Words

variable {word rest : List UInt16} {unit : UInt16}

private theorem takeWhile_word (whole : ∀ unit ∈ word, isWord unit = true)
    (ends : isWord unit = false) : (word ++ unit :: rest).takeWhile isWord = word := by
  rw [List.takeWhile_append_of_pos whole, List.takeWhile_cons_of_neg (by simp [ends]), List.append_nil]

private theorem dropWhile_word (whole : ∀ unit ∈ word, isWord unit = true)
    (ends : isWord unit = false) : (word ++ unit :: rest).dropWhile isWord = unit :: rest := by
  rw [List.dropWhile_append_of_pos whole, List.dropWhile_cons_of_neg (by simp [ends])]

end Words

private def escapeUnit (unit : UInt16) : List UInt16 :=
  if unit = 0x5C then [0x5C, 0x5C] else if unit = 0x22 then [0x5C, 0x22]
  else if unit = 0x0A then [0x5C, 0x6E] else [unit]

/-- Three replacements are one pass: no later one meets what an earlier one wrote. -/
private theorem escapeLabel_eq (value : JsString) : escapeLabel value = value.units.flatMap escapeUnit := by
  unfold escapeLabel replaceAll
  rw [List.flatMap_assoc, List.flatMap_assoc]
  refine List.flatMap_congr fun unit _ => ?_
  unfold escapeUnit
  by_cases slash : unit = 0x5C
  · subst slash
    decide
  · rw [if_neg slash, if_neg slash, List.flatMap_singleton]
    by_cases quote : unit = 0x22
    · subst quote
      decide
    · rw [if_neg quote, if_neg quote, List.flatMap_singleton]

private theorem readQuoted_escapeLabel (value : JsString) (rest : List UInt16) :
    readQuoted (escapeLabel value ++ 0x22 :: rest) = some (value.units, rest) := by
  rw [escapeLabel_eq]
  obtain ⟨units⟩ := value
  show readQuoted (units.flatMap escapeUnit ++ 0x22 :: rest) = some (units, rest)
  induction units with
  | nil => rfl
  | cons unit more ih =>
    rw [List.flatMap_cons, List.append_assoc]
    by_cases slash : unit = 0x5C
    · subst slash
      show readQuoted (0x5C :: 0x5C :: (more.flatMap escapeUnit ++ 0x22 :: rest)) = _
      rw [readQuoted, ih]
      rfl
    · by_cases quote : unit = 0x22
      · subst quote
        show readQuoted (0x5C :: 0x22 :: (more.flatMap escapeUnit ++ 0x22 :: rest)) = _
        rw [readQuoted, ih]
        rfl
      · by_cases feed : unit = 0x0A
        · subst feed
          show readQuoted (0x5C :: 0x6E :: (more.flatMap escapeUnit ++ 0x22 :: rest)) = _
          rw [readQuoted, ih]
          rfl
        · have plain : escapeUnit unit = [unit] := by
            rw [escapeUnit, if_neg slash, if_neg quote, if_neg feed]
          rw [plain, List.singleton_append, readQuoted, if_neg slash, ih]
          · rfl
          · exact quote
          · exact fun _ same => absurd same slash
          · exact fun _ same => absurd same slash
          · exact fun _ same => absurd same slash

private theorem escapeUnit_line (unit : UInt16) : (0x0A : UInt16) ∉ escapeUnit unit := by
  unfold escapeUnit
  split
  · decide
  · split
    · decide
    · split
      · decide
      · rename_i feed
        simpa using Ne.symm feed

private theorem escapeLabel_line (value : JsString) : (0x0A : UInt16) ∉ escapeLabel value := by
  rw [escapeLabel_eq, List.mem_flatMap]
  rintro ⟨unit, -, member⟩
  exact escapeUnit_line unit member

private theorem readLabels_text {labels : List (JsString × JsString)} (filled : labels ≠ [])
    (words : ∀ label ∈ labels, Word label.1) (rest : List UInt16) {fuel : Nat}
    (enough : labels.length ≤ fuel) :
    readLabels fuel ([0x2C].intercalate (labels.map labelText) ++ 0x7D :: rest) =
      some (labels, rest) := by
  induction labels generalizing fuel with
  | nil => exact absurd rfl filled
  | cons label more ih =>
    obtain ⟨here, later⟩ := List.forall_mem_cons.mp words
    obtain ⟨less, rfl⟩ : ∃ less, fuel = less + 1 := ⟨fuel - 1, by simp at enough; omega⟩
    have opened : ∀ behind : List UInt16, labelText label ++ behind =
        label.1.units ++ 0x3D :: 0x22 :: (escapeLabel label.2 ++ 0x22 :: behind) := by
      intro behind
      simp [labelText]
    have ends : isWord 0x3D = false := rfl
    rw [List.map_cons]
    cases more with
    | nil =>
      rw [List.map_nil, List.intercalate_singleton, opened, readLabels, dropWhile_word here ends,
        takeWhile_word here ends]
      simp only [readQuoted_escapeLabel, Option.bind_eq_bind, Option.bind_some]
      rfl
    | cons next others =>
      have read := ih (List.cons_ne_nil next others) later (by simpa using enough)
      rw [List.map_cons, List.intercalate_cons_cons, List.append_assoc, List.append_assoc, opened,
        readLabels, dropWhile_word here ends, takeWhile_word here ends]
      simp only [readQuoted_escapeLabel, Option.bind_eq_bind, Option.bind_some, List.singleton_append]
      rw [List.map_cons] at read
      rw [read]
      rfl

private theorem labels_length (labels : List (JsString × JsString)) :
    labels.length ≤ ([0x2C].intercalate (labels.map labelText)).length := by
  induction labels with
  | nil => exact Nat.zero_le _
  | cons label more ih =>
    have one : 1 ≤ (labelText label).length := by
      rw [labelText, List.length_append, List.length_cons]
      omega
    cases more with
    | nil => simpa using one
    | cons next others =>
      rw [List.map_cons, List.map_cons, List.intercalate_cons_cons]
      simp only [List.length_append, List.length_cons, List.map_cons] at ih ⊢
      omega

private theorem labels_line {labels : List (JsString × JsString)}
    (words : ∀ label ∈ labels, Word label.1) :
    (0x0A : UInt16) ∉ [0x2C].intercalate (labels.map labelText) := by
  induction labels with
  | nil => exact List.not_mem_nil
  | cons label more ih =>
    obtain ⟨here, later⟩ := List.forall_mem_cons.mp words
    have one : (0x0A : UInt16) ∉ labelText label := by
      intro member
      simp only [labelText, List.mem_append, List.mem_cons, List.not_mem_nil, or_false] at member
      rcases member with name | same | same | value | same
      · exact absurd (here 0x0A name) (by decide)
      · exact absurd same (by decide)
      · exact absurd same (by decide)
      · exact escapeLabel_line label.2 value
      · exact absurd same (by decide)
    cases more with
    | nil => simpa using one
    | cons next others =>
      rw [List.map_cons, List.map_cons, List.intercalate_cons_cons, ← List.map_cons]
      simp only [List.mem_append, List.mem_singleton, not_or]
      exact ⟨⟨one, by decide⟩, ih later⟩

namespace Line

/-- Names are words, and neither a help text nor a value has a line feed. -/
def Plain : Line → Prop
  | .help name text => Word name ∧ (0x0A : UInt16) ∉ text.units
  | .type name _ => Word name
  | .sample name labels value => Word name ∧ name.units ≠ [] ∧ (∀ label ∈ labels, Word label.1) ∧
      (0x0A : UInt16) ∉ value

theorem Plain.line {line : Line} (plain : line.Plain) : (0x0A : UInt16) ∉ line.text := by
  have word : ∀ {name : JsString}, Word name → (0x0A : UInt16) ∉ name.units :=
    fun word member => absurd (word 0x0A member) (by decide)
  cases line with
  | help name text =>
    have start : (0x0A : UInt16) ∉ (js "# HELP ").units := by decide
    simp [Line.text, start, word plain.1, plain.2]
  | type name kind =>
    have start : (0x0A : UInt16) ∉ (js "# TYPE ").units := by decide
    have kinds : (0x0A : UInt16) ∉ kind.text.units := by cases kind <;> decide
    simp [Line.text, start, word plain, kinds]
  | sample name labels value =>
    obtain ⟨named, -, words, single⟩ := plain
    have inside := labels_line words
    simp only [Line.text, braces]
    split
    · simp [word named, single]
    · simp [word named, single, inside]

private theorem readComment_text {name : JsString} (word : Word name) (rest : List UInt16) :
    readComment (name.units ++ 0x20 :: rest) = some (name, ⟨rest⟩) := by
  rw [readComment, dropWhile_word word rfl, takeWhile_word word rfl]
  rfl

private theorem readSample_text {name : JsString} {labels : List (JsString × JsString)}
    (word : Word name) (words : ∀ label ∈ labels, Word label.1) (value : List UInt16) :
    readSample (name.units ++ (braces labels ++ 0x20 :: value)) = some (.sample name labels value) := by
  unfold braces
  split
  · rename_i none
    obtain rfl := List.eq_nil_of_length_eq_zero none
    rw [List.nil_append, readSample, dropWhile_word word rfl, takeWhile_word word rfl]
    rfl
  · rename_i some
    have filled : labels ≠ [] := fun empty => some (by rw [empty]; rfl)
    have enough : labels.length ≤ ([0x2C].intercalate (labels.map labelText) ++
        0x7D :: 0x20 :: value).length := by
      rw [List.length_append]
      exact (labels_length labels).trans (Nat.le_add_right _ _)
    have read := readLabels_text filled words (0x20 :: value) enough
    rw [List.cons_append, List.append_assoc, List.singleton_append, readSample,
      dropWhile_word word rfl, takeWhile_word word rfl]
    simp only [read, Option.bind_eq_bind, Option.bind_some]
    rfl

theorem Plain.reads {line : Line} (plain : line.Plain) : readLine line.text = some line := by
  have help : (js "# HELP ").units = [0x23, 0x20, 0x48, 0x45, 0x4C, 0x50, 0x20] := by decide
  have type : (js "# TYPE ").units = [0x23, 0x20, 0x54, 0x59, 0x50, 0x45, 0x20] := by decide
  have behind : ∀ rest : List UInt16, ((js "# HELP ").units ++ rest).drop 7 = rest ∧
      ((js "# TYPE ").units ++ rest).drop 7 = rest := by
    intro rest
    rw [help, type]
    exact ⟨rfl, rfl⟩
  cases line with
  | help name text =>
    rw [readLine, Line.text, if_pos (List.prefix_append _ _), (behind _).1, readComment_text plain.1]
    rfl
  | type name kind =>
    have other : ¬ (js "# HELP ").units <+: Line.text (.type name kind) := by
      rw [Line.text, help, type]
      simp only [List.cons_append, List.cons_prefix_cons]
      exact fun same => absurd same.2.2.1 (by decide)
    have words : [MetricType.counter, .gauge, .histogram].find? (fun other => other.text = kind.text) =
        some kind := by cases kind <;> decide
    rw [readLine, if_neg other, Line.text, if_pos (List.prefix_append _ _), (behind _).2,
      readComment_text plain]
    simp only [Option.bind_eq_bind, Option.bind_some, words]
    rfl
  | sample name labels value =>
    obtain ⟨word, filled, words, -⟩ := plain
    obtain ⟨first, more, same⟩ := List.exists_cons_of_ne_nil filled
    have other : ∀ keyword : List UInt16, keyword.head? = some 0x23 →
        ¬ keyword <+: Line.text (.sample name labels value) := by
      rintro keyword sharp ⟨rest, start⟩
      obtain ⟨later, rfl⟩ : ∃ later, keyword = 0x23 :: later := List.head?_eq_some_iff.mp sharp
      rw [Line.text, same, List.cons_append, List.cons_append, List.cons.injEq] at start
      have member : first ∈ name.units := by rw [same]; exact List.mem_cons_self
      have inside := word first member
      rw [← start.1] at inside
      exact absurd inside (by decide)
    rw [readLine, if_neg (other _ (by rw [help]; rfl)), if_neg (other _ (by rw [type]; rfl)), Line.text,
      readSample_text word words]

end Line

/-- Lines that end with line feeds read back. -/
theorem readExposition_text {lines : List Line} (plain : ∀ line ∈ lines, line.Plain) :
    readExposition ⟨lines.flatMap fun line => line.text ++ [0x0A]⟩ = some lines := by
  unfold readExposition
  have cut : (lines.flatMap fun line => line.text ++ [0x0A]).splitOn 0x0A =
      lines.map Line.text ++ [[]] := by
    induction lines with
    | nil => rfl
    | cons line rest ih =>
      obtain ⟨here, later⟩ := List.forall_mem_cons.mp plain
      rw [List.flatMap_cons, List.append_assoc, List.singleton_append,
        List.splitOn_append_cons_self_of_not_mem here.line, ih later]
      rfl
  rw [cut, List.dropLast_concat]
  clear cut
  induction lines with
  | nil => rfl
  | cons line rest ih =>
    obtain ⟨here, later⟩ := List.forall_mem_cons.mp plain
    rw [List.map_cons, List.mapM_cons, here.reads, ih later]
    rfl

end N2FNest.Metrics
