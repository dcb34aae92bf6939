import N2FNest.Logger.Delivery
import N2FNest.Provenance.Factory
import N2FNest.Shared.JsonControls

/-! The console format of a log line, and what can be read back from it. -/

namespace N2FNest.Logger

open Lib Shared

inductive Level where
  | debug | info | warn | error
  deriving DecidableEq, Repr

def Level.rank : Level → Nat
  | .debug => 10
  | .info => 20
  | .warn => 30
  | .error => 40

mutual

/-- A value given as a field, as far as `snapshot` looks at it. A `SecretString` hides a
text; an object has `Object.prototype` or no prototype, or another one. -/
inductive FieldValue where
  | null
  | bool (value : Bool)
  | number (value : JsNumber)
  | string (value : JsString)
  | secret (hidden : JsString)
  | array (slots : FieldSlots)
  | object (plain : Bool) (properties : FieldProperties)
  | unsupported

/-- The elements of an array; a hole and an accessor have no value. -/
inductive FieldSlots where
  | nil
  | missing (rest : FieldSlots)
  | item (value : FieldValue) (rest : FieldSlots)

/-- The own properties of an object with their descriptors; a symbol and what is not
enumerable are passed over. -/
inductive FieldProperties where
  | nil
  | hidden (rest : FieldProperties)
  | accessor (name : JsString) (rest : FieldProperties)
  | data (name : JsString) (value : FieldValue) (rest : FieldProperties)

end

mutual

/-- `snapshot`, `none` where it throws. -/
def FieldValue.snapshot : FieldValue → Option JsValue
  | .null => some .null
  | .bool value => some (.bool value)
  | .string value => some (.string value)
  | .number (.finite value) => some (.number (.finite value))
  | .number .nan => none
  | .number (.infinite _) => none
  | .secret _ => some (.string (js "[REDACTED]"))
  | .array slots => slots.snapshot.map .array
  | .object plain properties => if plain then properties.snapshot.map .object else none
  | .unsupported => none
  termination_by structural value => value

def FieldSlots.snapshot : FieldSlots → Option (List JsValue)
  | .nil => some []
  | .missing _ => none
  | .item value rest => do
    let value ← value.snapshot
    let rest ← rest.snapshot
    return value :: rest
  termination_by structural slots => slots

def FieldProperties.snapshot : FieldProperties → Option JsObject
  | .nil => some []
  | .hidden rest => rest.snapshot
  | .accessor _ _ => none
  | .data name value rest => do
    let value ← value.snapshot
    let rest ← rest.snapshot
    return (name, value) :: rest
  termination_by structural properties => properties

end

mutual

/-- The same value with its secrets forgotten. -/
def FieldValue.conceal : FieldValue → FieldValue
  | .secret _ => .secret (js "")
  | .array slots => .array slots.conceal
  | .object plain properties => .object plain properties.conceal
  | .null => .null
  | .bool value => .bool value
  | .number value => .number value
  | .string value => .string value
  | .unsupported => .unsupported
  termination_by structural value => value

def FieldSlots.conceal : FieldSlots → FieldSlots
  | .nil => .nil
  | .missing rest => .missing rest.conceal
  | .item value rest => .item value.conceal rest.conceal
  termination_by structural slots => slots

def FieldProperties.conceal : FieldProperties → FieldProperties
  | .nil => .nil
  | .hidden rest => .hidden rest.conceal
  | .accessor name rest => .accessor name rest.conceal
  | .data name value rest => .data name value.conceal rest.conceal
  termination_by structural properties => properties

end

mutual

theorem FieldValue.snapshot_conceal : (value : FieldValue) → value.conceal.snapshot = value.snapshot
  | .null | .bool _ | .string _ | .number _ | .secret _ | .unsupported => rfl
  | .array slots => congrArg (Option.map JsValue.array) slots.snapshot_conceal
  | .object plain properties => by
    have same := properties.snapshot_conceal
    rw [FieldValue.conceal, FieldValue.snapshot, FieldValue.snapshot, same]
  termination_by structural value => value

theorem FieldSlots.snapshot_conceal : (slots : FieldSlots) → slots.conceal.snapshot = slots.snapshot
  | .nil | .missing _ => rfl
  | .item value rest => by
    have here := value.snapshot_conceal
    have later := rest.snapshot_conceal
    rw [FieldSlots.conceal, FieldSlots.snapshot, FieldSlots.snapshot, here, later]
  termination_by structural slots => slots

theorem FieldProperties.snapshot_conceal :
    (properties : FieldProperties) → properties.conceal.snapshot = properties.snapshot
  | .nil | .accessor _ _ => rfl
  | .hidden rest => rest.snapshot_conceal
  | .data name value rest => by
    have here := value.snapshot_conceal
    have later := rest.snapshot_conceal
    rw [FieldProperties.conceal, FieldProperties.snapshot, FieldProperties.snapshot, here, later]
  termination_by structural properties => properties

end

/-- `[\\u007f-\\u009f\\u2028\\u2029]`. -/
def isConsoleControl (unit : UInt16) : Bool :=
  (0x7F ≤ unit && unit ≤ 0x9F) || unit == 0x2028 || unit == 0x2029

def consoleControls (value : List UInt16) : List UInt16 := Json.numbered isConsoleControl value

/-- `JSON.stringify(value).slice(1, -1)`, its controls numbered. -/
def escape (value : JsString) : List UInt16 := consoleControls ((Json.quote value).drop 1).dropLast

/-- `HH:mm:ss.mmm` of the day; `String(…).padStart(…)` of numbers that fit. -/
def utcTime (milliseconds : Nat) : List UInt16 :=
  Decimal.pad 2 (milliseconds / 3600000 % 24) ++ 0x3A :: (Decimal.pad 2 (milliseconds / 60000 % 60) ++
    0x3A :: (Decimal.pad 2 (milliseconds / 1000 % 60) ++ 0x2E :: Decimal.pad 3 (milliseconds % 1000)))

structure LogRecord where
  timestampMs : Nat
  level : Level
  message : JsString
  service : JsString
  fields : JsObject
  scope : Option JsObject
  error : Option JsObject
  trace : Option JsObject

def Level.upper : Level → JsString
  | .debug => js "DEBUG"
  | .info => js "INFO"
  | .warn => js "WARN"
  | .error => js "ERROR"

/-- The severity, in its colour where the terminal has colours. -/
def severity (level : Level) (color : Bool) : List UInt16 :=
  if color then
    let code := match level with
      | .error => js "31"
      | .warn => js "33"
      | _ => js "36"
    0x1B :: 0x5B :: (code.units ++ 0x6D :: (level.upper.units ++ [0x1B, 0x5B, 0x30, 0x6D]))
  else level.upper.units

namespace LogRecord

/-- What a line says besides the time, the level, the service and the message. -/
def body (record : LogRecord) : JsObject :=
  [(js "fields", .object record.fields)] ++
    (record.scope.map fun scope => (js "scope", .object scope)).toList ++
    (record.error.map fun error => (js "error", .object error)).toList ++
    (record.trace.map fun trace => (js "trace", .object trace)).toList

/-- `consoleLine`. -/
def consoleLine (record : LogRecord) (color : Bool) : JsString :=
  ⟨utcTime record.timestampMs ++ 0x20 :: (severity record.level color ++ 0x20 ::
    (escape record.service ++ 0x20 :: (escape record.message ++ 0x20 ::
      (consoleControls (Json.write (Json.clean (.object record.body))) ++ [0x0A]))))⟩

end LogRecord

/-- What a reader of the console gets from a line. -/
structure Entry where
  time : List UInt16
  level : Level
  message : JsString
  body : JsValue

def LogRecord.entry (record : LogRecord) : Entry :=
  ⟨utcTime record.timestampMs, record.level, record.message, Json.clean (.object record.body)⟩

/-- The text behind a beginning. -/
def strip (start text : List UInt16) : Option (List UInt16) :=
  if start <+: text then some (text.drop start.length) else none

/-- A line of a known service and level, without its line feed. The message ends where JSON
closes the string that it would be a part of. -/
def readAs (color : Bool) (service : JsString) (line : List UInt16) (level : Level) : Option Entry := do
  let rest ← strip (0x20 :: (severity level color ++ 0x20 :: (escape service ++ [0x20])))
    (line.drop 12)
  let (message, rest) ← Json.readString rest
  let body ← Json.parse ⟨0x7B :: Json.quoteMark :: rest⟩
  return ⟨line.take 12, level, ⟨message.take (message.length - 2)⟩, body⟩

def readLine (color : Bool) (service : JsString) (line : List UInt16) : Option Entry :=
  [Level.debug, .info, .warn, .error].findSome? (readAs color service line)

/-- All lines of a stream. -/
def readStream (color : Bool) (service : JsString) (stream : List UInt16) : Option (List Entry) :=
  (stream.splitOn 0x0A).dropLast.mapM (readLine color service)

private theorem console_high (unit : UInt16) (control : isConsoleControl unit = true) : 0x7F ≤ unit := by
  simp only [isConsoleControl, Bool.or_eq_true, Bool.and_eq_true, decide_eq_true_eq, beq_iff_eq]
    at control
  rcases control with (inside | rfl) | rfl
  · exact inside.1
  · decide
  · decide

theorem escape_eq (value : JsString) : escape value = consoleControls (Json.escapeString value.units) := by
  unfold escape Json.quote
  rw [List.cons_append, List.drop_one, List.tail_cons, List.dropLast_concat]

theorem utcTime_length (milliseconds : Nat) : (utcTime milliseconds).length = 12 := by
  simp [utcTime]

/-- No severity is the beginning of another. -/
private theorem severity_inj {level other : Level} {color : Bool} {left right : List UInt16}
    (start : severity level color ++ 0x20 :: left <+: severity other color ++ 0x20 :: right) :
    level = other := by
  cases level <;> cases other <;> first
    | rfl
    | (exfalso; revert start; cases color <;>
        simp [severity, Level.upper, js, Utf16.encode, Utf16.encodeChar, List.cons_prefix_cons])

/-- The message, a space and the brace behind it are one string up to the first mark. -/
private theorem escapeString_behind (units : List UInt16) :
    Json.escapeString (units ++ [0x20, 0x7B]) = Json.escapeString units ++ [0x20, 0x7B] := by
  have unpaired : ∀ unit, (Utf16.isHigh unit && Utf16.isLow 0x20) = false := by
    intro unit
    rw [show Utf16.isLow 0x20 = false by decide, Bool.and_false]
  induction units using Json.escapeString.induct with
  | case1 => rfl
  | case2 unit lone =>
    have apart : ¬ (Utf16.isHigh unit && Utf16.isLow 0x20) = true := by simp [unpaired]
    rw [List.cons_append, List.nil_append, Json.escapeString.eq_3, if_neg apart, if_pos lone,
      Json.escapeString.eq_2, if_pos lone]
    rfl
  | case3 unit plain =>
    have apart : ¬ (Utf16.isHigh unit && Utf16.isLow 0x20) = true := by simp [unpaired]
    rw [List.cons_append, List.nil_append, Json.escapeString.eq_3, if_neg apart, if_neg plain,
      Json.escapeString.eq_2, if_neg plain]
    rfl
  | case4 unit next more paired ih =>
    rw [List.cons_append, List.cons_append, Json.escapeString, if_pos paired, ih, Json.escapeString,
      if_pos paired]
    rfl
  | case5 unit next more single lone ih =>
    rw [List.cons_append] at ih
    rw [List.cons_append, List.cons_append, Json.escapeString, if_neg single, if_pos lone, ih,
      Json.escapeString, if_neg single, if_pos lone, List.append_assoc]
  | case6 unit next more single plain ih =>
    rw [List.cons_append] at ih
    rw [List.cons_append, List.cons_append, Json.escapeString, if_neg single, if_neg plain, ih,
      Json.escapeString, if_neg single, if_neg plain, List.append_assoc]

private theorem readString_message (message : JsString) (rest : List UInt16) :
    Json.readString (escape message ++ 0x20 :: consoleControls (0x7B :: Json.quoteMark :: rest)) =
      some (message.units ++ [0x20, 0x7B], consoleControls rest) := by
  have whole : escape message ++ 0x20 :: consoleControls (0x7B :: Json.quoteMark :: rest) =
      consoleControls (Json.escapeString (message.units ++ [0x20, 0x7B]) ++ Json.quoteMark :: rest) := by
    rw [escape_eq, escapeString_behind, List.append_assoc]
    simp only [consoleControls, Json.numbered_append, List.cons_append, List.nil_append,
      Json.numbered_low console_high (by decide : (0x20 : UInt16) < 0x7F)]
  rw [whole]
  exact Json.readString_numbered console_high (Json.readString_escapeString _ rest)

private theorem body_names (record : LogRecord) :
    (record.body.map Prod.fst).Sublist [js "fields", js "scope", js "error", js "trace"] := by
  unfold LogRecord.body
  cases record.scope <;> cases record.error <;> cases record.trace <;> simp

/-- The text of the rest begins with a brace and a mark. -/
private theorem body_text (record : LogRecord) : ∃ rest,
    Json.write (Json.clean (.object record.body)) = 0x7B :: Json.quoteMark :: rest := by
  have names := body_names record
  have unique : (record.body.map Prod.fst).Nodup := names.nodup (by decide)
  have texts : ∀ name ∈ record.body.map Prod.fst, Json.index? name = none := by
    intro name member
    have letter : ∀ known ∈ [js "fields", js "scope", js "error", js "trace"],
        (known.units.any fun unit => !Decimal.isDigit unit) = true := by decide
    exact Json.index?_eq_none (letter name (names.subset member))
  rw [Json.clean_object unique texts]
  exact ⟨_, rfl⟩

private theorem strip_append (start rest : List UInt16) : strip start (start ++ rest) = some rest := by
  rw [strip, if_pos (List.prefix_append _ _), List.drop_left]

/-- A line reads back as its record, whatever texts the record holds. -/
theorem readLine_consoleLine (record : LogRecord) (color : Bool) {line : List UInt16}
    (written : (record.consoleLine color).units = line ++ [0x0A]) :
    readLine color record.service line = some record.entry := by
  obtain ⟨rest, body⟩ := body_text record
  have behind : consoleControls (0x7B :: Json.quoteMark :: rest) =
      0x7B :: Json.quoteMark :: consoleControls rest := by
    unfold consoleControls
    rw [Json.numbered_low console_high (by decide), Json.numbered_low console_high (by decide)]
  have text : line = utcTime record.timestampMs ++ (0x20 :: (severity record.level color ++
      0x20 :: (escape record.service ++ [0x20])) ++ (escape record.message ++ 0x20 ::
        consoleControls (0x7B :: Json.quoteMark :: rest))) := by
    rw [LogRecord.consoleLine, body] at written
    refine List.append_cancel_right (?_ : line ++ [0x0A] = _ ++ [0x0A])
    rw [← written]
    simp only [List.append_assoc, List.cons_append, List.nil_append]
  have parsed : Json.parse ⟨0x7B :: Json.quoteMark :: consoleControls rest⟩ =
      some (Json.clean (.object record.body)) := by
    have read := Json.parse_numbered console_high
      (Json.parse_write (Json.clean_tidy (.object record.body)))
    rw [body] at read
    rw [← behind]
    exact read
  have twelve := utcTime_length record.timestampMs
  have time : line.take 12 = utcTime record.timestampMs := by
    rw [text, ← twelve, List.take_left]
  have later : line.drop 12 = 0x20 :: (severity record.level color ++
      0x20 :: (escape record.service ++ [0x20])) ++ (escape record.message ++ 0x20 ::
        consoleControls (0x7B :: Json.quoteMark :: rest)) := by
    rw [text, ← twelve, List.drop_left]
  have own : readAs color record.service line record.level = some record.entry := by
    unfold readAs
    rw [time, later, strip_append]
    simp only [Option.bind_eq_bind, Option.bind_some, readString_message, parsed]
    rw [List.length_append, List.length_cons, List.length_singleton, Nat.add_sub_cancel, List.take_left]
    rfl
  have other : ∀ level, level ≠ record.level → readAs color record.service line level = none := by
    intro level apart
    have missed : strip (0x20 :: (severity level color ++ 0x20 :: (escape record.service ++ [0x20])))
        (line.drop 12) = none := by
      refine if_neg fun start => apart ?_
      rw [later, List.cons_append, List.cons_prefix_cons, List.append_assoc, List.cons_append] at start
      exact severity_inj start.2
    unfold readAs
    rw [missed]
    rfl
  unfold readLine
  cases level : record.level <;> rw [level] at own other <;>
    simp [own, other]

/-- No control character of ASCII, of Latin 1 or of Unicode's line ends. -/
def Printable (text : List UInt16) : Prop := ∀ unit ∈ text, 0x20 ≤ unit ∧ isConsoleControl unit = false

private theorem Printable.append {left right : List UInt16} (first : Printable left)
    (second : Printable right) : Printable (left ++ right) :=
  List.forall_mem_append.mpr ⟨first, second⟩

private theorem Printable.cons {unit : UInt16} {rest : List UInt16}
    (first : 0x20 ≤ unit ∧ isConsoleControl unit = false) (later : Printable rest) :
    Printable (unit :: rest) :=
  List.forall_mem_cons.mpr ⟨first, later⟩

private theorem pad_printable (width value : Nat) : Printable (Decimal.pad width value) := by
  intro unit member
  have digit := Decimal.isDigit_pad width value unit member
  have all : ∀ byte : Fin 256, Decimal.isDigit byte.val.toUInt16 = true →
      0x20 ≤ byte.val.toUInt16 ∧ isConsoleControl byte.val.toUInt16 = false := by decide +kernel
  have small : unit.toNat < 256 := by
    simp only [Decimal.isDigit, Bool.and_eq_true, decide_eq_true_eq, UInt16.le_iff_toNat_le,
      UInt16.reduceToNat] at digit
    omega
  have same : unit.toNat.toUInt16 = unit := by simp
  have found := all ⟨unit.toNat, small⟩
  rw [same] at found
  exact found digit

private theorem utcTime_printable (milliseconds : Nat) : Printable (utcTime milliseconds) := by
  unfold utcTime
  refine (pad_printable _ _).append (.cons (by decide) ((pad_printable _ _).append ?_))
  exact .cons (by decide) ((pad_printable _ _).append (.cons (by decide) (pad_printable _ _)))

theorem escape_printable (value : JsString) : Printable (escape value) := by
  rw [escape_eq]
  exact Json.numbered_units console_high (Json.escapeString_printable value.units)

private theorem body_printable (record : LogRecord) :
    Printable (consoleControls (Json.write (Json.clean (.object record.body)))) :=
  Json.numbered_units console_high (Json.write_printable _ (Json.clean_tidy _))

private theorem Printable.count {text : List UInt16} (printable : Printable text) :
    text.count 0x1B = 0 := by
  apply List.count_eq_zero.mpr
  intro member
  exact absurd (printable 0x1B member).1 (by decide)

/-- A line is one line: its last unit is the line feed, it has no other control character, and
its colour has the only escapes. -/
theorem consoleLine_printable (record : LogRecord) (color : Bool) : ∃ line,
    (record.consoleLine color).units = line ++ [0x0A] ∧
      (∀ unit ∈ line, unit ≠ 0x1B → 0x20 ≤ unit ∧ isConsoleControl unit = false) ∧
      line.count 0x1B = if color then 2 else 0 := by
  let tail := 0x20 :: (escape record.service ++ 0x20 :: (escape record.message ++ 0x20 ::
    consoleControls (Json.write (Json.clean (.object record.body)))))
  have blank : 0x20 ≤ (0x20 : UInt16) ∧ isConsoleControl 0x20 = false := by decide
  have behind : Printable tail :=
    .cons blank ((escape_printable _).append (.cons blank ((escape_printable _).append
      (.cons blank (body_printable record)))))
  have ahead : Printable (utcTime record.timestampMs ++ [0x20]) :=
    (utcTime_printable _).append (.cons blank nofun)
  have middle : (∀ unit ∈ severity record.level color, unit ≠ 0x1B →
      0x20 ≤ unit ∧ isConsoleControl unit = false) ∧
      (severity record.level color).count 0x1B = if color then 2 else 0 := by
    cases record.level <;> cases color <;> exact ⟨Json.forall_of_all (by decide), by decide⟩
  refine ⟨utcTime record.timestampMs ++ [0x20] ++ (severity record.level color ++ tail), ?_, ?_, ?_⟩
  · simp only [LogRecord.consoleLine, tail, List.append_assoc, List.cons_append, List.nil_append]
  · intro unit member escaped
    rcases List.mem_append.mp member with first | later
    · exact ahead unit first
    · rcases List.mem_append.mp later with inside | last
      · exact middle.1 unit inside escaped
      · exact behind unit last
  · have start := ahead.count
    generalize utcTime record.timestampMs ++ [0x20] = front at start ⊢
    rw [List.count_append, List.count_append, start, behind.count, middle.2, Nat.zero_add,
      Nat.add_zero]

private theorem splitOn_lines {lines : List (List UInt16)} (whole : ∀ line ∈ lines, 0x0A ∉ line) :
    (lines.flatMap fun line => line ++ [0x0A]).splitOn 0x0A = lines ++ [[]] := by
  induction lines with
  | nil => rfl
  | cons line rest ih =>
    obtain ⟨here, later⟩ := List.forall_mem_cons.mp whole
    rw [List.flatMap_cons, List.append_assoc, List.singleton_append,
      List.splitOn_append_cons_self_of_not_mem here, ih later]
    rfl

/-- What is written for a sequence of records reads back as the sequence. -/
theorem readStream_consoleLines (color : Bool) (service : JsString) {records : List LogRecord}
    (served : ∀ record ∈ records, record.service = service) :
    readStream color service (records.flatMap fun record => (record.consoleLine color).units) =
      some (records.map LogRecord.entry) := by
  let cut (record : LogRecord) : List UInt16 := (record.consoleLine color).units.dropLast
  have cutLine : ∀ record : LogRecord, (record.consoleLine color).units = cut record ++ [0x0A] ∧
      0x0A ∉ cut record := by
    intro record
    obtain ⟨line, written, printable, _⟩ := consoleLine_printable record color
    have same : cut record = line := by
      simp only [cut, written, List.dropLast_concat]
    refine ⟨by rw [same, written], fun member => ?_⟩
    rw [same] at member
    exact absurd (printable 0x0A member (by decide)).1 (by decide)
  have stream : (records.flatMap fun record => (record.consoleLine color).units) =
      (records.map cut).flatMap fun line => line ++ [0x0A] := by
    rw [List.flatMap_map]
    exact List.flatMap_congr fun record _ => (cutLine record).1
  have lines : ∀ line ∈ records.map cut, 0x0A ∉ line := by
    intro line member
    obtain ⟨record, _, rfl⟩ := List.mem_map.mp member
    exact (cutLine record).2
  unfold readStream
  rw [stream, splitOn_lines lines, List.dropLast_concat]
  clear stream lines
  induction records with
  | nil => rfl
  | cons record rest ih =>
    obtain ⟨here, later⟩ := List.forall_mem_cons.mp served
    have read := readLine_consoleLine record color (cutLine record).1
    rw [here] at read
    rw [List.map_cons, List.mapM_cons, read, ih later]
    rfl

end N2FNest.Logger
