import Mathlib.Data.List.Sort
import N2FNest.Shared.Digits

/-! `JSON.stringify`, and that `JSON.parse` reads back what it writes. -/

namespace N2FNest.Shared.Json

open Lib

private theorem hexDigit?_hexDigit {value : Nat} (small : value < 16) :
    hexDigit? (hexDigit value) = some value := by
  have all : ∀ digit : Fin 16, hexDigit? (hexDigit digit.val) = some digit.val := by decide
  exact all ⟨value, small⟩

private theorem hexUnit?_hexDigit (unit : UInt16) :
    hexUnit? (hexDigit (unit.toNat / 4096)) (hexDigit (unit.toNat / 256 % 16))
      (hexDigit (unit.toNat / 16 % 16)) (hexDigit (unit.toNat % 16)) = some unit := by
  have bound := unit.toNat_lt
  rw [hexUnit?, hexDigit?_hexDigit (by omega), hexDigit?_hexDigit (Nat.mod_lt _ (by decide)),
    hexDigit?_hexDigit (Nat.mod_lt _ (by decide)), hexDigit?_hexDigit (Nat.mod_lt _ (by decide))]
  have joined : ((unit.toNat / 4096 * 16 + unit.toNat / 256 % 16) * 16 + unit.toNat / 16 % 16) * 16 +
      unit.toNat % 16 = unit.toNat := by omega
  show some ((((unit.toNat / 4096 * 16 + unit.toNat / 256 % 16) * 16 + unit.toNat / 16 % 16) * 16 +
    unit.toNat % 16).toUInt16) = some unit
  rw [joined]
  exact congrArg some (UInt16.toNat_inj.mp (by simp))

theorem readString_unicode (unit : UInt16) (rest : List UInt16) :
    readString (unicodeEscape unit ++ rest) =
      (readString rest).map fun (units, after) => (unit :: units, after) := by
  have digits := hexUnit?_hexDigit unit
  rw [unicodeEscape, List.cons_append, List.cons_append, readString.eq_def]
  have slash : ¬ backslash ≠ backslash := fun other => other rfl
  have letter : escape? 0x75 = none := by decide
  simp only [if_neg (by decide : backslash ≠ quoteMark), if_neg (by decide : ¬ backslash < 0x20),
    if_neg slash, letter, List.cons_append, List.nil_append, digits, if_true]

private theorem readString_unit {unit : UInt16} (rest : List UInt16) :
    readString (escapeUnit unit ++ rest) =
      (readString rest).map fun (units, after) => (unit :: units, after) := by
  unfold escapeUnit
  split
  · rename_i same
    exact readString_escape (by rw [same]; rfl) rest
  split
  · rename_i same
    exact readString_escape (by rw [same]; rfl) rest
  split
  · rename_i same
    exact readString_escape (by rw [same]; rfl) rest
  split
  · rename_i same
    exact readString_escape (by rw [same]; rfl) rest
  split
  · rename_i same
    exact readString_escape (by rw [same]; rfl) rest
  split
  · rename_i same
    refine readString_escape ?_ rest
    rcases same with rfl | rfl
    · rfl
    · rfl
  · rename_i other
    split
    · exact readString_unicode unit rest
    · rename_i printable
      exact readString_plain (fun same => other (.inl same)) printable
        (fun same => other (.inr same)) rest

private theorem readString_surrogate {unit : UInt16} (surrogate : 0xD800 ≤ unit)
    (rest : List UInt16) : readString (unit :: rest) =
      (readString rest).map fun (units, after) => (unit :: units, after) := by
  obtain ⟨mark, printable, slash⟩ := surrogate_plain surrogate
  exact readString_plain mark printable slash rest

private theorem isSurrogate_ge {unit : UInt16} :
    (Utf16.isHigh unit = true → 0xD800 ≤ unit) ∧ (Utf16.isLow unit = true → 0xD800 ≤ unit) := by
  constructor
  · exact fun high => of_decide_eq_true (Bool.and_eq_true_iff.mp high).1
  · intro low
    have least : 0xDC00 ≤ unit := of_decide_eq_true (Bool.and_eq_true_iff.mp low).1
    exact UInt16.le_trans (by decide) least

theorem readString_escapeString (units rest : List UInt16) :
    readString (escapeString units ++ quoteMark :: rest) = some (units, rest) := by
  induction units using escapeString.induct with
  | case1 => exact readString_end rest
  | case2 unit lone =>
    rw [escapeString, if_pos lone, readString_unicode, readString_end]
    rfl
  | case3 unit plain =>
    rw [escapeString, if_neg plain, readString_unit, readString_end]
    rfl
  | case4 unit next more paired ih =>
    obtain ⟨high, low⟩ := Bool.and_eq_true_iff.mp paired
    rw [escapeString, if_pos paired, List.cons_append, List.cons_append,
      readString_surrogate (isSurrogate_ge.1 high), readString_surrogate (isSurrogate_ge.2 low), ih]
    rfl
  | case5 unit next more unpaired lone ih =>
    rw [escapeString, if_neg unpaired, if_pos lone, List.append_assoc, readString_unicode, ih]
    rfl
  | case6 unit next more unpaired plain ih =>
    rw [escapeString, if_neg unpaired, if_neg plain, List.append_assoc, readString_unit, ih]
    rfl

private theorem hasLone_ascii {units : List UInt16} (ascii : ∀ unit ∈ units, unit.toNat < 0x80) :
    Utf16.hasLone units = false :=
  (Utf16.decode_of_plain fun unit member =>
    Utf16.not_surrogate ((ascii unit member).trans (by decide))).1

private theorem hexDigit_ascii {value : Nat} (small : value < 16) : (hexDigit value).toNat < 0x80 := by
  have all : ∀ digit : Fin 16, (hexDigit digit.val).toNat < 0x80 := by decide
  exact all ⟨value, small⟩

private theorem unicodeEscape_whole (unit : UInt16) : Utf16.hasLone (unicodeEscape unit) = false := by
  have bound := unit.toNat_lt
  apply hasLone_ascii
  simp only [unicodeEscape, List.forall_mem_cons]
  exact ⟨by decide, by decide, hexDigit_ascii (by omega), hexDigit_ascii (Nat.mod_lt _ (by decide)),
    hexDigit_ascii (Nat.mod_lt _ (by decide)), hexDigit_ascii (Nat.mod_lt _ (by decide)), by simp⟩

private theorem escapeUnit_whole {unit : UInt16} (plain : ¬ Utf16.isSurrogate unit = true) :
    Utf16.hasLone (escapeUnit unit) = false := by
  have single : Utf16.hasLone [unit] = false := by
    show Utf16.isSurrogate unit = false
    simpa using plain
  unfold escapeUnit
  split_ifs
  iterate 5 exact hasLone_ascii (by simp [backslash])
  · exact (Utf16.hasLone_cons_plain (by decide) _).trans single
  · exact unicodeEscape_whole unit
  · exact single

/-- Lone surrogates are escaped away. -/
theorem escapeString_whole (units : List UInt16) : Utf16.hasLone (escapeString units) = false := by
  induction units using escapeString.induct with
  | case1 => rfl
  | case2 unit lone =>
    rw [escapeString, if_pos lone]
    exact unicodeEscape_whole unit
  | case3 unit plain =>
    rw [escapeString, if_neg plain]
    exact escapeUnit_whole plain
  | case4 unit next more paired ih =>
    rw [escapeString, if_pos paired, Utf16.hasLone, if_pos paired]
    exact ih
  | case5 unit next more unpaired lone ih =>
    rw [escapeString, if_neg unpaired, if_pos lone]
    exact Utf16.hasLone_append (unicodeEscape_whole unit) ih
  | case6 unit next more unpaired plain ih =>
    rw [escapeString, if_neg unpaired, if_neg plain]
    exact Utf16.hasLone_append (escapeUnit_whole plain) ih

theorem quote_whole (text : JsString) : Utf16.hasLone (quote text) = false := by
  rw [quote, List.cons_append, Utf16.hasLone_cons_plain (by decide),
    Utf16.hasLone_concat_plain (by decide)]
  exact escapeString_whole text.units

mutual

def write : JsValue → List UInt16
  | .undefined => (js "null").units
  | .null => (js "null").units
  | .bool value => (js (if value then "true" else "false")).units
  | .number (.finite value) => Digits.text value
  | .number .nan => (js "null").units
  | .number (.infinite _) => (js "null").units
  | .string text => quote text
  | .array items => 0x5B :: writeItems items
  | .object fields => 0x7B :: writeFields fields
  termination_by structural value => value

/-- The items up to the closing bracket. -/
def writeItems : List JsValue → List UInt16
  | [] => [0x5D]
  | item :: rest => write item ++ ((if rest.isEmpty then [] else [0x2C]) ++ writeItems rest)
  termination_by structural items => items

/-- The fields up to the closing brace. -/
def writeFields : List (JsString × JsValue) → List UInt16
  | [] => [0x7D]
  | field :: rest => writeField field ++ ((if rest.isEmpty then [] else [0x2C]) ++ writeFields rest)
  termination_by structural fields => fields

def writeField : JsString × JsValue → List UInt16
  | (name, value) => quote name ++ 0x3A :: write value
  termination_by structural field => field

end

/-- The number a property name is, where it is one that orders before all texts. -/
def index? (name : JsString) : Option Nat :=
  let number := Decimal.natural name.units
  if name.units = Decimal.text number ∧ number ≤ 4294967294 then some number else none

/-- The own names of an object in order: the numbers ascending, then the texts as created. -/
def ordered (fields : JsObject) : JsObject :=
  (fields.filter fun field => (index? field.1).isSome).insertionSort
      (fun left right => (index? left.1).getD 0 ≤ (index? right.1).getD 0) ++
    fields.filter fun field => (index? field.1).isNone

/-- A name with anything but digits in it orders as a text. -/
theorem index?_eq_none {name : JsString}
    (letter : (name.units.any fun unit => !Decimal.isDigit unit) = true) : index? name = none := by
  refine if_neg fun number => ?_
  obtain ⟨unit, member, other⟩ := List.any_eq_true.mp letter
  rw [number.1] at member
  rw [Decimal.isDigit_text _ unit member] at other
  cases other

/-- `{ ...object, ...fields }`. -/
def spread (object fields : JsObject) : JsObject :=
  fields.foldl (fun object field => assign object field.1 field.2) object

theorem spread_cons (object : JsObject) (field : JsString × JsValue) (rest : JsObject) :
    spread object (field :: rest) = spread (assign object field.1 field.2) rest := rfl

/-- An object has one field of a name; the list of an object of the language is kept as it is. -/
def merge (fields : JsObject) : JsObject := spread [] fields

def isUndefined : JsValue → Bool
  | .undefined => true
  | _ => false

mutual

/-- The value `JSON.stringify` spells: no field is undefined, no number is infinite or a NaN,
and fields are in the order of their names. A double rounds to itself. -/
def clean : JsValue → JsValue
  | .undefined => .null
  | .null => .null
  | .bool value => .bool value
  | .number (.finite value) =>
    if |Binary64.round value| < Binary64.overflow then .number (.finite (Binary64.round value))
    else .null
  | .number .nan => .null
  | .number (.infinite _) => .null
  | .string text => .string text
  | .array items => .array (cleanItems items)
  | .object fields => .object (ordered (merge (cleanFields fields)))
  termination_by structural value => value

def cleanItems : List JsValue → List JsValue
  | [] => []
  | item :: rest => clean item :: cleanItems rest
  termination_by structural items => items

def cleanFields : List (JsString × JsValue) → JsObject
  | [] => []
  | field :: rest => cleanField field ++ cleanFields rest
  termination_by structural fields => fields

def cleanField : JsString × JsValue → JsObject
  | (name, value) => if isUndefined value then [] else [(name, clean value)]
  termination_by structural field => field

end

/-- `JSON.stringify(value)`, `none` where it gives `undefined`. -/
def stringify (value : JsValue) : Option JsString :=
  if isUndefined value then none else some ⟨write (clean value)⟩

mutual

/-- Only finite doubles, no undefined value, and one field of a name. -/
def Tidy : JsValue → Prop
  | .undefined => False
  | .number (.finite value) => |value| < Binary64.overflow ∧ Binary64.round value = value
  | .number .nan => False
  | .number (.infinite _) => False
  | .array items => TidyItems items
  | .object fields => (fields.map Prod.fst).Nodup ∧ TidyFields fields
  | .null => True
  | .bool _ => True
  | .string _ => True
  termination_by structural value => value

def TidyItems : List JsValue → Prop
  | [] => True
  | item :: rest => Tidy item ∧ TidyItems rest
  termination_by structural items => items

def TidyFields : List (JsString × JsValue) → Prop
  | [] => True
  | field :: rest => TidyField field ∧ TidyFields rest
  termination_by structural fields => fields

def TidyField : JsString × JsValue → Prop
  | (_, value) => Tidy value
  termination_by structural field => field

end

theorem tidyFields_iff {fields : JsObject} : TidyFields fields ↔ ∀ field ∈ fields, Tidy field.2 := by
  induction fields with
  | nil => simp [TidyFields]
  | cons field rest ih =>
    obtain ⟨name, value⟩ := field
    rw [TidyFields, TidyField, ih, List.forall_mem_cons]

theorem tidyItems_iff {items : List JsValue} : TidyItems items ↔ ∀ item ∈ items, Tidy item := by
  induction items with
  | nil => simp [TidyItems]
  | cons item rest ih => rw [TidyItems, ih, List.forall_mem_cons]

/-- How a value can start. -/
theorem write_head {value : JsValue} (tidy : Tidy value) : ∃ first rest, write value = first :: rest ∧
    isBlank first = false ∧ first ≠ 0x5D ∧ first ≠ 0x7D := by
  cases value with
  | undefined => exact tidy.elim
  | null => exact ⟨_, _, rfl, by decide⟩
  | bool value => cases value <;> exact ⟨_, _, rfl, by decide⟩
  | string text => exact ⟨_, _, rfl, by decide⟩
  | array items => exact ⟨_, _, rfl, by decide⟩
  | object fields => exact ⟨_, _, rfl, by decide⟩
  | number value =>
    cases value with
    | nan => exact tidy.elim
    | infinite negative => exact tidy.elim
    | finite value =>
      obtain ⟨number, same, -⟩ := Digits.text_reads tidy.1 tidy.2
      obtain ⟨first, rest, text, sort⟩ := number.head
      refine ⟨first, rest, by rw [write, ← same, text], ?_⟩
      rcases sort with rfl | digit
      · decide
      · simp only [Decimal.isDigit, Bool.and_eq_true, decide_eq_true_eq, UInt16.le_iff_toNat_le,
          UInt16.reduceToNat] at digit
        simp only [isBlank, Bool.or_eq_false_iff, beq_eq_false_iff_ne, ne_eq, UInt16.toNat_inj.symm,
          UInt16.reduceToNat]
        omega

private theorem stops_mark {unit : UInt16} (mark : unit = 0x2C ∨ unit = 0x5D ∨ unit = 0x7D)
    (rest : List UInt16) : Stops (unit :: rest) := by
  intro first same
  cases Option.some.inj same
  rcases mark with rfl | rfl | rfl <;> decide

/-- What reads every one of some values reads them as an array. -/
theorem readElements_write {item : List UInt16 → Option (JsValue × List UInt16)}
    {items : List JsValue} (nonempty : items ≠ [])
    (read : ∀ value ∈ items, ∀ rest, Stops rest → item (write value ++ rest) = some (value, rest))
    (fuel : Nat) (enough : items.length ≤ fuel) (rest : List UInt16) :
    readElements item fuel (writeItems items ++ rest) = some (items, rest) := by
  induction items generalizing fuel with
  | nil => exact absurd rfl nonempty
  | cons value more ih =>
    obtain ⟨here, later⟩ := List.forall_mem_cons.mp read
    obtain ⟨fuel, rfl⟩ : ∃ less, fuel = less + 1 := ⟨fuel - 1, by simp at enough; omega⟩
    rw [writeItems, List.append_assoc]
    cases more with
    | nil =>
      apply readElements_last
      exact here _ (stops_mark (.inr (.inl rfl)) rest)
    | cons next others =>
      have first := here (0x2C :: (writeItems (next :: others) ++ rest)) (stops_mark (.inl rfl) _)
      exact readElements_more first
        (ih (List.cons_ne_nil next others) later fuel (Nat.le_of_succ_le_succ enough))

theorem readMember_write {item : List UInt16 → Option (JsValue × List UInt16)} (name : JsString)
    {value : JsValue} {rest : List UInt16} (read : item (write value ++ rest) = some (value, rest)) :
    readMember item (writeField (name, value) ++ rest) = some (name, value, rest) := by
  have text : writeField (name, value) ++ rest = quoteMark ::
      (escapeString name.units ++ quoteMark :: (0x3A :: (write value ++ rest))) := by
    simp [writeField, quote]
  rw [text, readMember, skipBlanks_cons (by decide)]
  simp only [if_true, readString_escapeString, Option.bind_eq_bind, Option.bind_some]
  rw [skipBlanks_cons (by decide)]
  simp only [if_true, read, Option.bind_some]
  rfl

theorem assign_new {fields : JsObject} {name : JsString} (fresh : name ∉ fields.map Prod.fst)
    (value : JsValue) : assign fields name value = fields ++ [(name, value)] := by
  induction fields with
  | nil => rfl
  | cons field rest ih =>
    rw [List.map_cons, List.mem_cons, not_or] at fresh
    rw [assign, if_neg (Ne.symm fresh.1), ih fresh.2]
    rfl

/-- What reads every one of some values reads them as the fields of an object. -/
theorem readMembers_write {item : List UInt16 → Option (JsValue × List UInt16)}
    {fields : JsObject} (nonempty : fields ≠ [])
    (read : ∀ field ∈ fields, ∀ rest, Stops rest →
      item (write field.2 ++ rest) = some (field.2, rest))
    (fuel : Nat) (enough : fields.length ≤ fuel) (known : JsObject)
    (unique : ((known ++ fields).map Prod.fst).Nodup) (rest : List UInt16) :
    readMembers item fuel known (writeFields fields ++ rest) = some (known ++ fields, rest) := by
  induction fields generalizing fuel known with
  | nil => exact absurd rfl nonempty
  | cons field more ih =>
    obtain ⟨name, value⟩ := field
    obtain ⟨here, later⟩ := List.forall_mem_cons.mp read
    obtain ⟨fuel, rfl⟩ : ∃ less, fuel = less + 1 := ⟨fuel - 1, by simp at enough; omega⟩
    have fresh : name ∉ known.map Prod.fst := by
      rw [List.map_append, List.nodup_append'] at unique
      exact fun member => unique.2.2 member List.mem_cons_self
    rw [writeFields, List.append_assoc, readMembers]
    cases more with
    | nil =>
      have first := here (0x7D :: rest) (stops_mark (.inr (.inr rfl)) rest)
      have member := readMember_write name first
      simp only [List.isEmpty_nil, if_true, List.nil_append, writeFields, List.cons_append, member,
        Option.bind_eq_bind, Option.bind_some, assign_new fresh]
      rw [skipBlanks_cons (by decide)]
      rfl
    | cons next others =>
      have first := here (0x2C :: (writeFields (next :: others) ++ rest)) (stops_mark (.inl rfl) _)
      have member := readMember_write name first
      have behind := ih (List.cons_ne_nil next others) later fuel (Nat.le_of_succ_le_succ enough)
        (known ++ [(name, value)]) (by rw [List.append_assoc]; exact unique)
      rw [List.append_assoc, List.singleton_append] at behind
      simp only [List.isEmpty_cons, Bool.false_eq_true, if_false, List.cons_append, List.nil_append,
        member, Option.bind_eq_bind, Option.bind_some, assign_new fresh]
      rw [skipBlanks_cons (by decide)]
      exact behind

private theorem length_writeItems (items : List JsValue) :
    items.length ≤ (writeItems items).length ∧
      ∀ item ∈ items, (write item).length < (writeItems items).length := by
  induction items with
  | nil => simp
  | cons item rest ih =>
    obtain ⟨count, shorter⟩ := ih
    rw [List.forall_mem_cons]
    cases rest with
    | nil => simp [writeItems]
    | cons next more =>
      rw [writeItems, List.isEmpty_cons, if_neg Bool.false_ne_true, List.length_append,
        List.length_append, List.length_cons, List.length_singleton]
      refine ⟨by omega, by omega, fun other member => ?_⟩
      have less := shorter other member
      omega

private theorem length_writeFields (fields : JsObject) :
    fields.length ≤ (writeFields fields).length ∧
      ∀ field ∈ fields, (write field.2).length < (writeFields fields).length := by
  have inside : ∀ field : JsString × JsValue,
      (write field.2).length + 1 ≤ (writeField field).length := by
    rintro ⟨name, value⟩
    show (write value).length + 1 ≤ (writeField (name, value)).length
    rw [writeField, List.length_append, List.length_cons]
    omega
  induction fields with
  | nil => simp
  | cons field rest ih =>
    obtain ⟨count, shorter⟩ := ih
    have here := inside field
    rw [List.forall_mem_cons]
    cases rest with
    | nil =>
      rw [writeFields, List.length_append, List.length_append, List.length_singleton]
      refine ⟨by omega, by omega, by simp⟩
    | cons next more =>
      rw [writeFields, List.isEmpty_cons, if_neg Bool.false_ne_true, List.length_append,
        List.length_append, List.length_cons, List.length_singleton]
      refine ⟨by omega, by omega, fun other member => ?_⟩
      have less := shorter other member
      omega

private theorem readLiteral_write (word : String) (value : JsValue) (rest : List UInt16) :
    readLiteral word value ((js word).units ++ rest) = some (value, rest) := by
  rw [readLiteral, if_pos (List.prefix_append _ _), List.drop_left]

private theorem readValue_number {fuel : Nat} {text rest : List UInt16} {first : UInt16}
    {numeral : Numeral} (sort : first = 0x2D ∨ Decimal.isDigit first = true)
    (scanned : scanNumeral (first :: text) = some (numeral, rest)) :
    readValue (fuel + 1) (first :: text) = some (.number numeral.number, rest) := by
  have other : isBlank first = false ∧ first ≠ quoteMark ∧ first ≠ 0x5B ∧ first ≠ 0x7B ∧
      first ≠ 0x74 ∧ first ≠ 0x66 ∧ first ≠ 0x6E := by
    rcases sort with rfl | digit
    · decide
    · simp only [Decimal.isDigit, Bool.and_eq_true, decide_eq_true_eq, UInt16.le_iff_toNat_le,
        UInt16.reduceToNat] at digit
      simp only [isBlank, quoteMark, Bool.or_eq_false_iff, beq_eq_false_iff_ne, ne_eq,
        UInt16.toNat_inj.symm, UInt16.reduceToNat]
      omega
  obtain ⟨dark, mark, bracket, brace, letterT, letterF, letterN⟩ := other
  rw [readValue, skipBlanks_cons dark]
  simp only [if_neg mark, if_neg bracket, if_neg brace, if_neg letterT, if_neg letterF,
    if_neg letterN, scanned, Option.map_some]

private theorem readValue_object {fuel : Nat} {rest after : List UInt16} {fields : JsObject}
    (read : readMembers (readValue fuel) (quoteMark :: rest).length [] (quoteMark :: rest) =
      some (fields, after)) :
    readValue (fuel + 1) (0x7B :: quoteMark :: rest) = some (.object fields, after) := by
  rw [readValue, skipBlanks_cons (by decide)]
  simp only [if_neg (by decide : (0x7B : UInt16) ≠ quoteMark),
    if_neg (by decide : (0x7B : UInt16) ≠ 0x5B), if_true]
  rw [skipBlanks_cons (by decide)]
  split
  · rename_i same
    exact absurd (List.cons.inj same).1 (by decide)
  · simp only [read, Option.map_some]

/-- A text is read with fuel for its length. -/
theorem readValue_write {fuel : Nat} {value : JsValue} (tidy : Tidy value)
    (enough : (write value).length ≤ fuel) {rest : List UInt16} (stop : Stops rest) :
    readValue (fuel + 1) (write value ++ rest) = some (value, rest) := by
  induction fuel generalizing value rest with
  | zero =>
    obtain ⟨first, more, same, -⟩ := write_head tidy
    rw [same] at enough
    cases enough
  | succ fuel ih =>
    cases value with
    | undefined => exact tidy.elim
    | null =>
      have word := readLiteral_write "null" .null rest
      have text : (js "null").units = [0x6E, 0x75, 0x6C, 0x6C] := by decide
      rw [write]
      rw [text, List.cons_append] at word ⊢
      rw [readValue, skipBlanks_cons (by decide)]
      exact word
    | bool value =>
      cases value with
      | false =>
        have word := readLiteral_write "false" (.bool false) rest
        have text : (js "false").units = [0x66, 0x61, 0x6C, 0x73, 0x65] := by decide
        rw [write, if_neg Bool.false_ne_true]
        rw [text, List.cons_append] at word ⊢
        rw [readValue, skipBlanks_cons (by decide)]
        exact word
      | true =>
        have word := readLiteral_write "true" (.bool true) rest
        have text : (js "true").units = [0x74, 0x72, 0x75, 0x65] := by decide
        rw [write, if_pos rfl]
        rw [text, List.cons_append] at word ⊢
        rw [readValue, skipBlanks_cons (by decide)]
        exact word
    | string text =>
      rw [write, quote, List.cons_append, List.cons_append, List.append_assoc, List.singleton_append]
      exact readValue_string _ (readString_escapeString text.units rest)
    | number value =>
      cases value with
      | nan => exact tidy.elim
      | infinite negative => exact tidy.elim
      | finite value =>
        obtain ⟨number, same, reads⟩ := Digits.text_reads tidy.1 tidy.2
        obtain ⟨first, more, text, sort⟩ := number.head
        have scanned := scanNumeral_text number stop
        rw [text, List.cons_append] at scanned
        rw [write, ← same, text, List.cons_append, readValue_number sort scanned, reads]
    | array items =>
      obtain ⟨count, shorter⟩ := length_writeItems items
      rw [write, List.length_cons] at enough
      rw [write, List.cons_append]
      cases items with
      | nil => rfl
      | cons item more =>
        have tidies := tidyItems_iff.mp tidy
        obtain ⟨first, letters, same, dark, other, -⟩ := write_head (tidies item List.mem_cons_self)
        have elements := readElements_write (List.cons_ne_nil item more)
          (fun value member rest stop => ih (tidies value member)
            (by have less := shorter value member; omega) stop)
          (writeItems (item :: more) ++ rest).length
          (by rw [List.length_append]; omega) rest
        have text : writeItems (item :: more) ++ rest = first :: (letters ++
            ((if more.isEmpty then [] else [0x2C]) ++ writeItems more) ++ rest) := by
          rw [writeItems, same, List.cons_append, List.cons_append]
        rw [text] at elements ⊢
        exact readValue_array dark other elements
    | object fields =>
      obtain ⟨count, shorter⟩ := length_writeFields fields
      rw [write, List.length_cons] at enough
      rw [write, List.cons_append]
      cases fields with
      | nil => rfl
      | cons field more =>
        obtain ⟨unique, tidies⟩ := tidy
        have tidies := tidyFields_iff.mp tidies
        have members := readMembers_write (List.cons_ne_nil field more)
          (fun value member rest stop => ih (tidies value member)
            (by have less := shorter value member; omega) stop)
          (writeFields (field :: more) ++ rest).length
          (by rw [List.length_append]; omega) [] unique rest
        obtain ⟨name, value⟩ := field
        have text : writeFields ((name, value) :: more) ++ rest = quoteMark ::
            (escapeString name.units ++ [quoteMark] ++ 0x3A :: write value ++
              ((if more.isEmpty then [] else [0x2C]) ++ writeFields more) ++ rest) := by
          simp [writeFields, writeField, quote]
        rw [text] at members ⊢
        exact readValue_object members

/-- `JSON.parse` reads what is written back. -/
theorem parse_write {value : JsValue} (tidy : Tidy value) : parse ⟨write value⟩ = some value := by
  have stop : Stops [] := by simp [Stops]
  have read := readValue_write tidy (le_refl _) stop
  rw [List.append_nil] at read
  rw [parse, read]
  rfl

theorem ordered_perm (fields : JsObject) : (ordered fields).Perm fields := by
  have split : ((fields.filter fun field => (index? field.1).isSome) ++
      fields.filter fun field => !(index? field.1).isSome).Perm fields :=
    List.filter_append_perm _ _
  have none : (fun field : JsString × JsValue => (index? field.1).isNone) =
      fun field => !(index? field.1).isSome := by
    funext field
    simp
  rw [ordered, none]
  exact ((List.perm_insertionSort _ _).append_right _).trans split

/-- Without numbers among the names the order of creation is the order. -/
theorem ordered_of_texts {fields : JsObject} (texts : ∀ field ∈ fields, index? field.1 = none) :
    ordered fields = fields := by
  have some : (fields.filter fun field => (index? field.1).isSome) = [] := by
    rw [List.filter_eq_nil_iff]
    intro field member
    simp [texts field member]
  have none : (fields.filter fun field => (index? field.1).isNone) = fields := by
    rw [List.filter_eq_self]
    intro field member
    simp [texts field member]
  rw [ordered, some, none]
  rfl

private theorem filter_insertionSort {fields : JsObject} {wanted : JsString × JsValue → Bool}
    {before : JsString × JsValue → JsString × JsValue → Prop} [DecidableRel before] {value : Bool}
    (all : ∀ field ∈ fields, wanted field = value) :
    (fields.insertionSort before).filter wanted = if value then fields.insertionSort before else [] := by
  have same : ∀ field ∈ fields.insertionSort before, wanted field = value :=
    fun field member => all field (List.mem_insertionSort before |>.mp member)
  cases value with
  | true => exact List.filter_eq_self.mpr same
  | false => exact List.filter_eq_nil_iff.mpr fun field member => by simp [same field member]

theorem ordered_ordered (fields : JsObject) : ordered (ordered fields) = ordered fields := by
  have numbers : ∀ field ∈ fields.filter fun field => (index? field.1).isSome,
      (index? field.1).isSome = true := fun field member => (List.mem_filter.mp member).2
  have numbersNone : ∀ field ∈ fields.filter fun field => (index? field.1).isSome,
      (index? field.1).isNone = false := by
    intro field member
    simpa [Option.isSome_iff_ne_none] using numbers field member
  have texts : ∀ field ∈ fields.filter fun field => (index? field.1).isNone,
      (index? field.1).isNone = true := fun field member => (List.mem_filter.mp member).2
  have textsSome : (fields.filter fun field => (index? field.1).isNone).filter
      (fun field => (index? field.1).isSome) = [] := by
    rw [List.filter_eq_nil_iff]
    intro field member
    simpa using texts field member
  unfold ordered
  rw [List.filter_append, List.filter_append, filter_insertionSort numbers,
    filter_insertionSort numbersNone, textsSome, List.filter_eq_self.mpr texts, if_pos rfl,
    if_neg Bool.false_ne_true, List.append_nil, List.nil_append,
    (List.pairwise_insertionSort _ _).insertionSort_eq]

theorem assign_names (fields : JsObject) (name : JsString) (value : JsValue) :
    (assign fields name value).map Prod.fst =
      if name ∈ fields.map Prod.fst then fields.map Prod.fst else fields.map Prod.fst ++ [name] := by
  induction fields with
  | nil => simp [assign]
  | cons field rest ih =>
    obtain ⟨other, old⟩ := field
    by_cases same : other = name
    · simp [assign, same]
    · rw [assign, if_neg same, List.map_cons, ih]
      by_cases later : name ∈ rest.map Prod.fst
      · simp [later]
      · have fresh : name ∉ ((other, old) :: rest).map Prod.fst := by
          rw [List.map_cons, List.mem_cons, not_or]
          exact ⟨Ne.symm same, later⟩
        rw [if_neg later, if_neg fresh]
        rfl

theorem assign_nodup {fields : JsObject} (unique : (fields.map Prod.fst).Nodup) (name : JsString)
    (value : JsValue) : ((assign fields name value).map Prod.fst).Nodup := by
  rw [assign_names]
  split
  · exact unique
  · rename_i fresh
    rw [List.nodup_append']
    exact ⟨unique, List.nodup_singleton name, by simpa using fresh⟩

theorem mem_assign {fields : JsObject} {name : JsString} {value : JsValue}
    {field : JsString × JsValue} (member : field ∈ assign fields name value) :
    field = (name, value) ∨ field ∈ fields := by
  induction fields with
  | nil => exact .inl (List.mem_singleton.mp member)
  | cons head rest ih =>
    obtain ⟨other, old⟩ := head
    rw [assign] at member
    split at member
    · rcases List.mem_cons.mp member with same | later
      · exact .inl same
      · exact .inr (List.mem_cons_of_mem _ later)
    · rcases List.mem_cons.mp member with same | later
      · exact .inr (same ▸ List.mem_cons_self)
      · rcases ih later with same | earlier
        · exact .inl same
        · exact .inr (List.mem_cons_of_mem _ earlier)

theorem spread_nodup {object : JsObject} (unique : (object.map Prod.fst).Nodup) (fields : JsObject) :
    ((spread object fields).map Prod.fst).Nodup := by
  induction fields generalizing object with
  | nil => exact unique
  | cons field rest ih => exact ih (assign_nodup unique field.1 field.2)

theorem spread_member {object fields : JsObject} {field : JsString × JsValue}
    (member : field ∈ spread object fields) : field ∈ object ∨ field ∈ fields := by
  induction fields generalizing object with
  | nil => exact .inl member
  | cons head rest ih =>
    rcases ih (spread_cons object head rest ▸ member) with early | late
    · rcases mem_assign early with same | earlier
      · exact .inr (same ▸ List.mem_cons_self)
      · exact .inl earlier
    · exact .inr (List.mem_cons_of_mem head late)

theorem merge_nodup (fields : JsObject) : ((merge fields).map Prod.fst).Nodup :=
  spread_nodup (show (([] : JsObject).map Prod.fst).Nodup from List.nodup_nil) fields

theorem mem_merge {fields : JsObject} {field : JsString × JsValue} (member : field ∈ merge fields) :
    field ∈ fields := (spread_member member).resolve_left List.not_mem_nil

theorem merge_of_nodup {fields : JsObject} (unique : (fields.map Prod.fst).Nodup) :
    merge fields = fields := by
  have step : ∀ known rest : JsObject, ((known ++ rest).map Prod.fst).Nodup →
      spread known rest = known ++ rest := by
    intro known rest
    induction rest generalizing known with
    | nil => intro _; exact (List.append_nil known).symm
    | cons field more ih =>
      intro unique
      have fresh : field.1 ∉ known.map Prod.fst := by
        rw [List.map_append, List.nodup_append'] at unique
        exact fun member => unique.2.2 member List.mem_cons_self
      rw [spread_cons, assign_new fresh, ih _ (by rw [List.append_assoc]; exact unique),
        List.append_assoc]
      rfl
  exact step [] fields unique

/-- What becomes of the fields: in order, one of a name. -/
private theorem mem_arranged {fields : JsObject} {field : JsString × JsValue}
    (member : field ∈ ordered (merge fields)) : field ∈ fields :=
  mem_merge ((ordered_perm _).mem_iff.mp member)

private theorem arranged_nodup (fields : JsObject) : ((ordered (merge fields)).map Prod.fst).Nodup :=
  ((ordered_perm _).map Prod.fst).nodup_iff.mpr (merge_nodup fields)

mutual

theorem clean_tidy : (value : JsValue) → Tidy (clean value)
  | .undefined | .null | .bool _ | .string _ | .number .nan | .number (.infinite _) => trivial
  | .number (.finite value) => by
    rw [clean]
    split
    · rename_i finite
      exact ⟨finite, Binary64.round_round value⟩
    · trivial
  | .array items => cleanItems_tidy items
  | .object fields => by
    have tidies := cleanFields_tidy fields
    refine ⟨arranged_nodup _, tidyFields_iff.mpr fun field member => ?_⟩
    exact tidies field (mem_arranged member)
  termination_by structural value => value

private theorem cleanItems_tidy : (items : List JsValue) → TidyItems (cleanItems items)
  | [] => trivial
  | item :: rest => ⟨clean_tidy item, cleanItems_tidy rest⟩
  termination_by structural items => items

private theorem cleanFields_tidy : (fields : List (JsString × JsValue)) →
    ∀ field ∈ cleanFields fields, Tidy field.2
  | [] => by simp [cleanFields]
  | field :: rest => by
    have here := cleanField_tidy field
    have later := cleanFields_tidy rest
    rw [cleanFields]
    exact List.forall_mem_append.mpr ⟨here, later⟩
  termination_by structural fields => fields

private theorem cleanField_tidy : (field : JsString × JsValue) →
    ∀ kept ∈ cleanField field, Tidy kept.2
  | (name, value) => by
    have tidy := clean_tidy value
    rw [cleanField]
    split
    · simp
    · exact List.forall_mem_singleton.mpr tidy
  termination_by structural field => field

end

private theorem isUndefined_clean (value : JsValue) : isUndefined (clean value) = false := by
  have tidy := clean_tidy value
  cases same : clean value with
  | undefined =>
    rw [same] at tidy
    exact tidy.elim
  | _ => rfl

/-- Fields that are clean already are kept. -/
theorem cleanFields_eq_self {fields : JsObject}
    (kept : ∀ field ∈ fields, isUndefined field.2 = false ∧ clean field.2 = field.2) :
    cleanFields fields = fields := by
  induction fields with
  | nil => rfl
  | cons field rest ih =>
    obtain ⟨name, value⟩ := field
    obtain ⟨⟨defined, same⟩, later⟩ := List.forall_mem_cons.mp kept
    rw [cleanFields, cleanField, if_neg (by simpa using defined), ih later, List.singleton_append]
    exact congrArg (fun value => (name, value) :: rest) same

mutual

theorem clean_clean : (value : JsValue) → clean (clean value) = clean value
  | .undefined | .null | .bool _ | .string _ | .number .nan | .number (.infinite _) => rfl
  | .number (.finite value) => by
    rw [clean]
    split
    · rename_i finite
      rw [clean, Binary64.round_round, if_pos finite]
    · rfl
  | .array items => congrArg JsValue.array (cleanItems_clean items)
  | .object fields => by
    have kept := cleanFields_clean fields
    have same : cleanFields (ordered (merge (cleanFields fields))) =
        ordered (merge (cleanFields fields)) :=
      cleanFields_eq_self fun field member => kept field (mem_arranged member)
    rw [clean, clean, same, merge_of_nodup (arranged_nodup _), ordered_ordered]
  termination_by structural value => value

private theorem cleanItems_clean : (items : List JsValue) →
    cleanItems (cleanItems items) = cleanItems items
  | [] => rfl
  | item :: rest => by rw [cleanItems, cleanItems, clean_clean item, cleanItems_clean rest]
  termination_by structural items => items

theorem cleanFields_clean : (fields : List (JsString × JsValue)) →
    ∀ field ∈ cleanFields fields, isUndefined field.2 = false ∧ clean field.2 = field.2
  | [] => by simp [cleanFields]
  | field :: rest => by
    have here := cleanField_clean field
    have later := cleanFields_clean rest
    rw [cleanFields]
    exact List.forall_mem_append.mpr ⟨here, later⟩
  termination_by structural fields => fields

private theorem cleanField_clean : (field : JsString × JsValue) →
    ∀ kept ∈ cleanField field, isUndefined kept.2 = false ∧ clean kept.2 = kept.2
  | (name, value) => by
    have same := clean_clean value
    rw [cleanField]
    split
    · simp
    · exact List.forall_mem_singleton.mpr ⟨isUndefined_clean value, same⟩
  termination_by structural field => field

end

theorem cleanFields_names (fields : JsObject) :
    ((cleanFields fields).map Prod.fst).Sublist (fields.map Prod.fst) := by
  induction fields with
  | nil => exact List.Sublist.slnil
  | cons field rest ih =>
    obtain ⟨name, value⟩ := field
    rw [cleanFields, cleanField]
    split
    · exact ih.cons name
    · exact ih.cons_cons name

/-- What is read of a cleaned object. -/
def keep (value : JsValue) : JsValue := if isUndefined value then .undefined else clean value

theorem read_cons (other : JsString) (value : JsValue) (rest : JsObject) (name : JsString) :
    JsObject.read ((other, value) :: rest) name =
      if name = other then value else JsObject.read rest name := by
  by_cases same : name = other
  · simp [JsObject.read, same]
  · rw [JsObject.read, List.lookup_cons, beq_eq_false_iff_ne.mpr same, if_neg same]
    rfl

theorem read_assign (fields : JsObject) (name : JsString) (value : JsValue) (other : JsString) :
    (assign fields name value).read other = if other = name then value else fields.read other := by
  induction fields with
  | nil => exact read_cons name value [] other
  | cons field rest ih =>
    obtain ⟨first, old⟩ := field
    by_cases here : first = name
    · rw [assign, if_pos here, read_cons, read_cons, here]
      split <;> rfl
    · rw [assign, if_neg here, read_cons, read_cons, ih]
      by_cases asked : other = first
      · have kept : other ≠ name := fun same => here (asked ▸ same)
        rw [if_pos asked, if_neg kept, if_pos asked]
      · rw [if_neg asked, if_neg asked]

theorem spread_names {object fields : JsObject}
    (inside : fields.map Prod.fst ⊆ object.map Prod.fst) :
    (spread object fields).map Prod.fst = object.map Prod.fst := by
  induction fields generalizing object with
  | nil => rfl
  | cons field rest ih =>
    obtain ⟨here, later⟩ := List.cons_subset.mp inside
    have same := assign_names object field.1 field.2
    rw [if_pos here] at same
    rw [spread_cons, ih (same ▸ later), same]

/-- The fields spread later are read first. -/
theorem read_spread (object : JsObject) {fields : JsObject} (unique : (fields.map Prod.fst).Nodup)
    (name : JsString) :
    (spread object fields).read name =
      if name ∈ fields.map Prod.fst then fields.read name else object.read name := by
  induction fields generalizing object with
  | nil => simp [spread]
  | cons field rest ih =>
    obtain ⟨other, value⟩ := field
    rw [List.map_cons, List.nodup_cons] at unique
    rw [spread_cons, ih _ unique.2, read_assign, read_cons, List.map_cons]
    by_cases same : name = other
    · subst same
      have gone : name ∉ rest.map Prod.fst := unique.1
      simp [gone]
    · simp only [List.mem_cons, same, false_or, if_false]

/-- Objects of the same names in the same order are equal where they read alike. -/
theorem fields_ext {left right : JsObject} (names : left.map Prod.fst = right.map Prod.fst)
    (unique : (left.map Prod.fst).Nodup) (same : ∀ name ∈ left.map Prod.fst, left.read name = right.read name) :
    left = right := by
  induction left generalizing right with
  | nil => exact (List.map_eq_nil_iff.mp names.symm).symm
  | cons field rest ih =>
    cases right with
    | nil => cases names
    | cons other more =>
      obtain ⟨name, value⟩ := field
      obtain ⟨otherName, otherValue⟩ := other
      obtain ⟨first, later⟩ := List.cons.inj names
      rw [List.map_cons, List.nodup_cons] at unique
      have first : name = otherName := first
      subst first
      have here := same name List.mem_cons_self
      rw [read_cons, read_cons, if_pos rfl, if_pos rfl] at here
      subst here
      refine congrArg _ (ih later unique.2 fun asked member => ?_)
      have different : asked ≠ name := fun equal => unique.1 (equal ▸ member)
      have behind := same asked (List.mem_cons_of_mem name member)
      rwa [read_cons, read_cons, if_neg different, if_neg different] at behind

/-- A field is read under its name where the names are distinct. -/
theorem read_member {fields : JsObject} {field : JsString × JsValue}
    (unique : (fields.map Prod.fst).Nodup) (member : field ∈ fields) : fields.read field.1 = field.2 := by
  induction fields with
  | nil => cases member
  | cons head rest ih =>
    obtain ⟨name, value⟩ := head
    rw [List.map_cons, List.nodup_cons] at unique
    rw [read_cons]
    rcases List.mem_cons.mp member with rfl | later
    · exact if_pos rfl
    · have listed : field.1 ∈ rest.map Prod.fst := List.mem_map_of_mem later
      have different : field.1 ≠ name := fun same => unique.1 (same ▸ listed)
      rw [if_neg different, ih unique.2 later]

/-- What is read under a name of an object is one of its fields. -/
theorem member_read {fields : JsObject} {name : JsString} (named : name ∈ fields.map Prod.fst) :
    (name, fields.read name) ∈ fields := by
  induction fields with
  | nil => cases named
  | cons head rest ih =>
    obtain ⟨other, value⟩ := head
    rw [read_cons]
    by_cases same : name = other
    · rw [if_pos same, same]
      exact List.mem_cons_self
    · rw [if_neg same]
      rw [List.map_cons, List.mem_cons] at named
      exact List.mem_cons_of_mem _ (ih (named.resolve_left same))

private theorem read_missing {fields : JsObject} {name : JsString}
    (missing : name ∉ fields.map Prod.fst) : fields.read name = .undefined := by
  induction fields with
  | nil => rfl
  | cons field rest ih =>
    obtain ⟨other, value⟩ := field
    rw [List.map_cons, List.mem_cons, not_or] at missing
    rw [read_cons, if_neg missing.1, ih missing.2]

theorem read_cleanFields {fields : JsObject} (unique : (fields.map Prod.fst).Nodup) (name : JsString) :
    (cleanFields fields).read name = keep (fields.read name) := by
  induction fields with
  | nil => rfl
  | cons field rest ih =>
    obtain ⟨other, value⟩ := field
    rw [List.map_cons, List.nodup_cons] at unique
    have later := ih unique.2
    rw [cleanFields, cleanField, read_cons]
    by_cases same : name = other
    · subst same
      rw [if_pos rfl, keep]
      split
      · rw [List.nil_append, later, read_missing unique.1]
        rfl
      · rw [List.singleton_append, read_cons, if_pos rfl]
    · rw [if_neg same, ← later]
      split
      · rfl
      · rw [List.singleton_append, read_cons, if_neg same]

theorem keep_keep (value : JsValue) : keep (keep value) = keep value := by
  by_cases absent : isUndefined value = true
  · have gone : keep value = .undefined := if_pos absent
    rw [gone]
    rfl
  · have kept : keep value = clean value := if_neg absent
    rw [kept, keep, isUndefined_clean, if_neg Bool.false_ne_true, clean_clean]

theorem cleanFields_defined {fields : JsObject}
    (defined : ∀ field ∈ fields, isUndefined field.2 = false) :
    (cleanFields fields).map Prod.fst = fields.map Prod.fst := by
  induction fields with
  | nil => rfl
  | cons field rest ih =>
    obtain ⟨name, value⟩ := field
    obtain ⟨here, later⟩ := List.forall_mem_cons.mp defined
    have here : isUndefined value = false := here
    rw [cleanFields, cleanField, here, if_neg Bool.false_ne_true, List.singleton_append,
      List.map_cons, List.map_cons, ih later]

theorem clean_ofNat {value : Nat} (small : value < 2 ^ 53) :
    clean (.number (.ofNat value)) = .number (.ofNat value) := by
  have bound : |((value : ℤ) : ℚ)| < 2 ^ 53 := by
    rw [Int.cast_natCast, abs_of_nonneg (Nat.cast_nonneg value)]
    exact_mod_cast small
  have rounded := Binary64.round_intCast bound
  rw [Int.cast_natCast] at rounded bound
  have finite : |Binary64.round (value : ℚ)| < Binary64.overflow := by
    rw [rounded]
    exact bound.trans (pow_lt_pow_right₀ (by norm_num) (by norm_num))
  show clean (.number (.finite (value : ℚ))) = _
  rw [clean, if_pos finite, rounded]
  rfl

/-- Where no name is a number, an object keeps the order of its fields. -/
theorem clean_object {fields : JsObject} (unique : (fields.map Prod.fst).Nodup)
    (texts : ∀ name ∈ fields.map Prod.fst, index? name = none) :
    clean (.object fields) = .object (cleanFields fields) := by
  have names := cleanFields_names fields
  rw [clean, merge_of_nodup (unique.sublist names), ordered_of_texts]
  exact fun field member => texts field.1 (names.subset (List.mem_map_of_mem member))

/-- What `JSON.parse` makes of a stringified value. -/
theorem parse_stringify {value : JsValue} {text : JsString} (written : stringify value = some text) :
    parse text = some (clean value) := by
  unfold stringify at written
  split at written
  · cases written
  · cases written
    exact parse_write (clean_tidy value)

private theorem readMember_sound {item : List UInt16 → Option (JsValue × List UInt16)}
    (defined : ∀ {text value rest}, item text = some (value, rest) → isUndefined value = false)
    {text rest : List UInt16} {name : JsString} {value : JsValue}
    (read : readMember item text = some (name, value, rest)) : isUndefined value = false := by
  rw [readMember] at read
  split at read
  · cases read
  split_ifs at read
  rw [Option.bind_eq_bind, Option.bind_eq_some_iff] at read
  obtain ⟨⟨units, after⟩, -, read⟩ := read
  dsimp only at read
  split at read
  · cases read
  split_ifs at read
  rw [Option.bind_eq_bind, Option.bind_eq_some_iff] at read
  obtain ⟨⟨found, more⟩, inside, read⟩ := read
  cases read
  exact defined inside

private theorem readMembers_sound {item : List UInt16 → Option (JsValue × List UInt16)}
    (defined : ∀ {text value rest}, item text = some (value, rest) → isUndefined value = false)
    {fuel : Nat} {known fields : JsObject} {text rest : List UInt16}
    (unique : (known.map Prod.fst).Nodup) (kept : ∀ field ∈ known, isUndefined field.2 = false)
    (read : readMembers item fuel known text = some (fields, rest)) :
    (fields.map Prod.fst).Nodup ∧ ∀ field ∈ fields, isUndefined field.2 = false := by
  induction fuel generalizing known text with
  | zero => cases read
  | succ fuel ih =>
    rw [readMembers, Option.bind_eq_bind, Option.bind_eq_some_iff] at read
    obtain ⟨⟨name, value, after⟩, member, read⟩ := read
    have unique := assign_nodup unique name value
    have kept : ∀ field ∈ assign known name value, isUndefined field.2 = false := by
      intro field present
      rcases mem_assign present with rfl | earlier
      · exact readMember_sound defined member
      · exact kept field earlier
    dsimp only at read
    split at read
    · cases read
    · split_ifs at read
      · exact ih unique kept read
      · cases read
        exact ⟨unique, kept⟩

private theorem readLiteral_sound {word : String} {value found : JsValue} {text rest : List UInt16}
    (read : readLiteral word value text = some (found, rest)) : found = value := by
  unfold readLiteral at read
  split_ifs at read
  cases read
  rfl

private theorem readValue_defined {fuel : Nat} {text rest : List UInt16} {value : JsValue}
    (read : readValue fuel text = some (value, rest)) : isUndefined value = false := by
  cases fuel with
  | zero => cases read
  | succ fuel =>
    rw [readValue] at read
    split at read
    · cases read
    split_ifs at read
    · obtain ⟨found, -, same⟩ := Option.map_eq_some_iff.mp read
      cases same
      rfl
    · split at read
      · cases read
        rfl
      · obtain ⟨found, -, same⟩ := Option.map_eq_some_iff.mp read
        cases same
        rfl
    · split at read
      · cases read
        rfl
      · obtain ⟨found, -, same⟩ := Option.map_eq_some_iff.mp read
        cases same
        rfl
    · rw [readLiteral_sound read]
      rfl
    · rw [readLiteral_sound read]
      rfl
    · rw [readLiteral_sound read]
      rfl
    · obtain ⟨found, -, same⟩ := Option.map_eq_some_iff.mp read
      cases same
      rfl

private theorem readValue_fields {fuel : Nat} {text rest : List UInt16} {fields : JsObject}
    (read : readValue fuel text = some (.object fields, rest)) :
    (fields.map Prod.fst).Nodup ∧ ∀ field ∈ fields, isUndefined field.2 = false := by
  cases fuel with
  | zero => cases read
  | succ fuel =>
    rw [readValue] at read
    split at read
    · cases read
    split_ifs at read
    · obtain ⟨found, -, same⟩ := Option.map_eq_some_iff.mp read
      cases same
    · split at read
      · cases read
      · obtain ⟨found, -, same⟩ := Option.map_eq_some_iff.mp read
        cases same
    · split at read
      · cases read
        exact ⟨List.nodup_nil, by simp⟩
      · obtain ⟨⟨found, after⟩, inside, same⟩ := Option.map_eq_some_iff.mp read
        cases same
        have none : (([] : JsObject).map Prod.fst).Nodup := List.nodup_nil
        exact readMembers_sound readValue_defined none (by simp) inside
    · cases readLiteral_sound read
    · cases readLiteral_sound read
    · cases readLiteral_sound read
    · obtain ⟨found, -, same⟩ := Option.map_eq_some_iff.mp read
      cases same

/-- A parsed object has one field of a name, and none is undefined. -/
theorem parse_object {text : JsString} {fields : JsObject} (read : parse text = some (.object fields)) :
    (fields.map Prod.fst).Nodup ∧ ∀ field ∈ fields, isUndefined field.2 = false := by
  rw [parse, Option.bind_eq_bind, Option.bind_eq_some_iff] at read
  obtain ⟨⟨value, rest⟩, whole, read⟩ := read
  dsimp only at read
  split_ifs at read
  cases read
  exact readValue_fields whole

private theorem isDigit_ascii {unit : UInt16} (digit : Decimal.isDigit unit = true) :
    unit.toNat < 0x80 := by
  simp only [Decimal.isDigit, Bool.and_eq_true, decide_eq_true_eq, UInt16.le_iff_toNat_le,
    UInt16.reduceToNat] at digit
  omega

private theorem exponent_ascii (exponent : Option Exponent) :
    ∀ unit ∈ NumberText.exponentText exponent, unit.toNat < 0x80 := by
  cases exponent with
  | none => simp [NumberText.exponentText]
  | some exponent =>
    have mark : exponent.mark.toNat < 0x80 := by
      rcases exponent.marked with same | same <;> rw [same] <;> decide
    have sign : ∀ unit ∈ exponent.sign, unit.toNat < 0x80 := by
      rcases exponent.signed with same | same | same <;> rw [same]
      · simp
      · exact List.forall_mem_singleton.mpr (by decide)
      · exact List.forall_mem_singleton.mpr (by decide)
    exact List.forall_mem_cons.mpr ⟨mark, List.forall_mem_append.mpr
      ⟨sign, fun unit member => isDigit_ascii (exponent.decimal unit member)⟩⟩

private theorem number_ascii (number : NumberText) : ∀ unit ∈ number.text, unit.toNat < 0x80 := by
  obtain ⟨whole, fraction⟩ := number.decimal
  have sign : ∀ unit ∈ (if number.minus then [0x2D] else [] : List UInt16), unit.toNat < 0x80 := by
    split
    · exact List.forall_mem_singleton.mpr (by decide)
    · simp
  have behind : ∀ unit ∈ NumberText.fractionText number.fraction, unit.toNat < 0x80 := by
    unfold NumberText.fractionText
    split
    · simp
    · exact List.forall_mem_cons.mpr ⟨by decide, fun unit member => isDigit_ascii (fraction unit member)⟩
  simp only [NumberText.text, List.forall_mem_append]
  exact ⟨sign, fun unit member => isDigit_ascii (whole unit member), behind,
    exponent_ascii number.exponent⟩

private theorem comma_whole (last : Bool) :
    Utf16.hasLone (if last then [] else [0x2C] : List UInt16) = false := by
  cases last <;> rfl

private theorem null_whole : Utf16.hasLone (js "null").units = false := by decide

private theorem bool_whole (value : Bool) :
    Utf16.hasLone (js (if value then "true" else "false")).units = false := by
  cases value <;> decide

mutual

theorem write_whole : (value : JsValue) → Tidy value → Utf16.hasLone (write value) = false
  | .undefined, _ | .null, _ | .number .nan, _ | .number (.infinite _), _ => null_whole
  | .bool value, _ => bool_whole value
  | .string text, _ => quote_whole text
  | .number (.finite value), tidy => by
    obtain ⟨number, same, -⟩ := Digits.text_reads tidy.1 tidy.2
    rw [write, ← same]
    exact hasLone_ascii (number_ascii number)
  | .array items, tidy => by
    rw [write, Utf16.hasLone_cons_plain (by decide)]
    exact writeItems_whole items tidy
  | .object fields, tidy => by
    rw [write, Utf16.hasLone_cons_plain (by decide)]
    exact writeFields_whole fields tidy.2
  termination_by structural value => value

private theorem writeItems_whole : (items : List JsValue) → TidyItems items →
    Utf16.hasLone (writeItems items) = false
  | [], _ => rfl
  | item :: rest, tidy => by
    have here := write_whole item tidy.1
    have later := writeItems_whole rest tidy.2
    rw [writeItems]
    exact Utf16.hasLone_append here (Utf16.hasLone_append (comma_whole _) later)
  termination_by structural items => items

private theorem writeFields_whole : (fields : List (JsString × JsValue)) → TidyFields fields →
    Utf16.hasLone (writeFields fields) = false
  | [], _ => rfl
  | field :: rest, tidy => by
    have here := writeField_whole field tidy.1
    have later := writeFields_whole rest tidy.2
    rw [writeFields]
    exact Utf16.hasLone_append here (Utf16.hasLone_append (comma_whole _) later)
  termination_by structural fields => fields

private theorem writeField_whole : (field : JsString × JsValue) → TidyField field →
    Utf16.hasLone (writeField field) = false
  | (name, value), tidy => by
    have here := write_whole value tidy
    rw [writeField]
    refine Utf16.hasLone_append (quote_whole name) ?_
    rw [Utf16.hasLone_cons_plain (by decide)]
    exact here
  termination_by structural field => field

end

/-- `new TextDecoder(...).decode(Buffer.from(JSON.stringify(object)))` is the text. -/
theorem decodeUtf8_write {fields : JsObject} (tidy : Tidy (.object fields)) :
    decodeUtf8 (JsString.toUtf8 ⟨write (.object fields)⟩) = some ⟨write (.object fields)⟩ := by
  have whole := Utf16.encode_decode (write_whole _ tidy)
  have unmarked : stripBom (utf8 (Utf16.decode (write (.object fields)))) =
      utf8 (Utf16.decode (write (.object fields))) := by
    have first : Utf16.decode (write (.object fields)) =
        Utf16.single 0x7B :: Utf16.decode (writeFields fields) := by
      rw [write]
      cases writeFields fields with
      | nil => rfl
      | cons unit rest => simp [Utf16.decode, Utf16.isHigh]
    rw [first, utf8_cons]
    have brace : String.utf8EncodeChar (Utf16.single 0x7B) = [0x7B] := by decide
    rw [brace, List.singleton_append]
    exact stripBom_cons (by decide) _
  rw [JsString.toUtf8, decodeUtf8_utf8 _ unmarked, whole]

end N2FNest.Shared.Json
