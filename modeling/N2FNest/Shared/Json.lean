import N2FNest.Lib.Decimal
import N2FNest.Shared.Number
import N2FNest.Shared.Text

/-! JSON text over UTF-16 code units: the tokens of RFC 8259, and the language's
own `JSON.parse` and quoting of strings. -/

namespace N2FNest.Shared.Json

open Lib
open Decimal (isDigit natural)

def quoteMark : UInt16 := 0x22

def backslash : UInt16 := 0x5C

/-- Space, tab, line feed and carriage return. -/
def isBlank (unit : UInt16) : Bool := unit == 0x20 || unit == 0x09 || unit == 0x0A || unit == 0x0D

def skipBlanks (text : List UInt16) : List UInt16 := text.dropWhile isBlank

/-- The parts of a numeral. -/
structure Numeral where
  negative : Bool
  whole : List UInt16
  fraction : List UInt16
  exponentNegative : Bool
  exponent : List UInt16

/-- The exact value of a numeral. -/
def Numeral.value (numeral : Numeral) : ℚ :=
  let magnitude : ℚ := natural (numeral.whole ++ numeral.fraction)
  let power : ℤ := (if numeral.exponentNegative then -(natural numeral.exponent : ℤ)
    else natural numeral.exponent) - numeral.fraction.length
  (if numeral.negative then -magnitude else magnitude) * 10 ^ power

/-- `-?`. -/
def scanSign : List UInt16 → Bool × List UInt16
  | [] => (false, [])
  | unit :: rest => if unit = 0x2D then (true, rest) else (false, unit :: rest)

/-- `0|[1-9]\d*`. -/
def scanWhole : List UInt16 → Option (List UInt16 × List UInt16)
  | [] => none
  | unit :: rest =>
    if unit = 0x30 then some ([unit], rest)
    else if isDigit unit then some (unit :: rest.takeWhile isDigit, rest.dropWhile isDigit)
    else none

/-- `(\.\d+)?`. -/
def scanFraction : List UInt16 → List UInt16 × List UInt16
  | [] => ([], [])
  | unit :: rest =>
    if unit = 0x2E ∧ rest.takeWhile isDigit ≠ [] then
      (rest.takeWhile isDigit, rest.dropWhile isDigit)
    else ([], unit :: rest)

/-- `[+-]?`. -/
def scanExponentSign : List UInt16 → Bool × List UInt16
  | [] => (false, [])
  | unit :: rest =>
    if unit = 0x2D then (true, rest) else if unit = 0x2B then (false, rest) else (false, unit :: rest)

/-- `([eE][+-]?\d+)?`. -/
def scanExponent : List UInt16 → Bool × List UInt16 × List UInt16
  | [] => (false, [], [])
  | unit :: rest =>
    let signed := scanExponentSign rest
    if (unit = 0x65 ∨ unit = 0x45) ∧ signed.2.takeWhile isDigit ≠ [] then
      (signed.1, signed.2.takeWhile isDigit, signed.2.dropWhile isDigit)
    else (false, [], unit :: rest)

/-- `/^-?(0|[1-9]\d*)(\.\d+)?([eE][+-]?\d+)?/`, with what it leaves. -/
def scanNumeral (text : List UInt16) : Option (Numeral × List UInt16) := do
  let (negative, rest) := scanSign text
  let (whole, rest) ← scanWhole rest
  let (fraction, rest) := scanFraction rest
  let (exponentNegative, exponent, rest) := scanExponent rest
  return (⟨negative, whole, fraction, exponentNegative, exponent⟩, rest)

/-- `Number(numeral)`. -/
def Numeral.number (numeral : Numeral) : JsNumber := .ofRat numeral.value

/-- The unit that a one-character escape stands for. -/
def escape? (unit : UInt16) : Option UInt16 :=
  if unit = 0x22 ∨ unit = 0x5C ∨ unit = 0x2F then some unit
  else if unit = 0x62 then some 0x08
  else if unit = 0x66 then some 0x0C
  else if unit = 0x6E then some 0x0A
  else if unit = 0x72 then some 0x0D
  else if unit = 0x74 then some 0x09
  else none

def hexDigit? (unit : UInt16) : Option Nat :=
  if isDigit unit then some (unit.toNat - 0x30)
  else if 0x61 ≤ unit && unit ≤ 0x66 then some (unit.toNat - 0x61 + 10)
  else if 0x41 ≤ unit && unit ≤ 0x46 then some (unit.toNat - 0x41 + 10)
  else none

/-- `parseInt(hex, 16)` of four hexadecimal digits. -/
def hexUnit? (first second third fourth : UInt16) : Option UInt16 := do
  let a ← hexDigit? first
  let b ← hexDigit? second
  let c ← hexDigit? third
  let d ← hexDigit? fourth
  return (((a * 16 + b) * 16 + c) * 16 + d).toUInt16

/-- The rest of a string behind its opening mark. -/
def readString : List UInt16 → Option (List UInt16 × List UInt16)
  | [] => none
  | unit :: rest =>
    if unit = quoteMark then some ([], rest)
    else if unit < 0x20 then none
    else if unit ≠ backslash then (readString rest).map fun (units, after) => (unit :: units, after)
    else match rest with
      | [] => none
      | escaped :: more =>
        match escape? escaped with
        | some value => (readString more).map fun (units, after) => (value :: units, after)
        | none =>
          if escaped = 0x75 then
            match more with
            | first :: second :: third :: fourth :: after =>
              match hexUnit? first second third fourth with
              | some value =>
                (readString after).map fun (units, after) => (value :: units, after)
              | none => none
            | _ => none
          else none

/-- A later member of the same name replaces the value of the earlier one. -/
def assign (fields : JsObject) (name : JsString) (value : JsValue) : JsObject :=
  match fields with
  | [] => [(name, value)]
  | (other, old) :: rest =>
    if other = name then (name, value) :: rest else (other, old) :: assign rest name value

section Containers

variable (item : List UInt16 → Option (JsValue × List UInt16))

/-- The elements of an array up to its bracket, `fuel` of them at most. -/
def readElements : Nat → List UInt16 → Option (List JsValue × List UInt16)
  | 0, _ => none
  | fuel + 1, text => do
    let (value, rest) ← item text
    match skipBlanks rest with
    | [] => none
    | unit :: rest =>
      if unit = 0x2C then do
        let (values, rest) ← readElements fuel rest
        return (value :: values, rest)
      else if unit = 0x5D then return ([value], rest)
      else none

/-- A name, the colon behind it and the value. -/
def readMember (text : List UInt16) : Option (JsString × JsValue × List UInt16) :=
  match skipBlanks text with
  | [] => none
  | unit :: rest =>
    if unit = quoteMark then do
      let (name, rest) ← readString rest
      match skipBlanks rest with
      | [] => none
      | unit :: rest =>
        if unit = 0x3A then do
          let (value, rest) ← item rest
          return (⟨name⟩, value, rest)
        else none
    else none

def readMembers : Nat → JsObject → List UInt16 → Option (JsObject × List UInt16)
  | 0, _, _ => none
  | fuel + 1, fields, text => do
    let (name, value, rest) ← readMember item text
    let fields := assign fields name value
    match skipBlanks rest with
    | [] => none
    | unit :: rest =>
      if unit = 0x2C then readMembers fuel fields rest
      else if unit = 0x7D then return (fields, rest)
      else none

end Containers

def readLiteral (word : String) (value : JsValue) (text : List UInt16) :
    Option (JsValue × List UInt16) :=
  if (js word).units <+: text then some (value, text.drop (js word).units.length) else none

/-- One value; `fuel` bounds the nesting. -/
def readValue : Nat → List UInt16 → Option (JsValue × List UInt16)
  | 0, _ => none
  | fuel + 1, text =>
    match skipBlanks text with
    | [] => none
    | unit :: rest =>
      if unit = quoteMark then (readString rest).map fun (units, after) => (.string ⟨units⟩, after)
      else if unit = 0x5B then
        match skipBlanks rest with
        | 0x5D :: after => some (.array [], after)
        | _ => (readElements (readValue fuel) rest.length rest).map fun (values, after) =>
          (.array values, after)
      else if unit = 0x7B then
        match skipBlanks rest with
        | 0x7D :: after => some (.object [], after)
        | _ => (readMembers (readValue fuel) rest.length [] rest).map fun (fields, after) =>
          (.object fields, after)
      else if unit = 0x74 then readLiteral "true" (.bool true) (unit :: rest)
      else if unit = 0x66 then readLiteral "false" (.bool false) (unit :: rest)
      else if unit = 0x6E then readLiteral "null" .null (unit :: rest)
      else (scanNumeral (unit :: rest)).map fun (numeral, after) => (.number numeral.number, after)

/-- `JSON.parse(text)`, `none` where it throws. Nesting costs a unit a level. -/
def parse (text : JsString) : Option JsValue := do
  let (value, rest) ← readValue (text.units.length + 1) text.units
  if skipBlanks rest = [] then return value else none

/-- A lower-case hexadecimal digit. -/
def hexDigit (value : Nat) : UInt16 :=
  if value < 10 then (0x30 + value).toUInt16 else (0x61 + (value - 10)).toUInt16

/-- `\\uXXXX`. -/
def unicodeEscape (unit : UInt16) : List UInt16 :=
  [backslash, 0x75, hexDigit (unit.toNat / 4096), hexDigit (unit.toNat / 256 % 16),
    hexDigit (unit.toNat / 16 % 16), hexDigit (unit.toNat % 16)]

/-- How a unit that is no surrogate is written. -/
def escapeUnit (unit : UInt16) : List UInt16 :=
  if unit = 0x08 then [backslash, 0x62]
  else if unit = 0x09 then [backslash, 0x74]
  else if unit = 0x0A then [backslash, 0x6E]
  else if unit = 0x0C then [backslash, 0x66]
  else if unit = 0x0D then [backslash, 0x72]
  else if unit = quoteMark ∨ unit = backslash then [backslash, unit]
  else if unit < 0x20 then unicodeEscape unit
  else [unit]

/-- A lone surrogate is escaped, so that the text is well formed. -/
def escapeString : List UInt16 → List UInt16
  | [] => []
  | [unit] => if Utf16.isSurrogate unit then unicodeEscape unit else escapeUnit unit
  | unit :: next :: rest =>
    if Utf16.isHigh unit && Utf16.isLow next then unit :: next :: escapeString rest
    else if Utf16.isSurrogate unit then unicodeEscape unit ++ escapeString (next :: rest)
    else escapeUnit unit ++ escapeString (next :: rest)

/-- `JSON.stringify(text)`. -/
def quote (text : JsString) : List UInt16 := quoteMark :: escapeString text.units ++ [quoteMark]

/-- How a scalar value that is no control character is written. -/
def escapeChar (character : Char) : List Char :=
  if character = '"' ∨ character = '\\' then ['\\', character] else [character]

private theorem escapeString_plain {unit : UInt16} (plain : Utf16.isSurrogate unit = false)
    (rest : List UInt16) : escapeString (unit :: rest) = escapeUnit unit ++ escapeString rest := by
  have first : Utf16.isHigh unit = false := (Bool.or_eq_false_iff.mp plain).1
  cases rest with
  | nil => simp [escapeString, plain]
  | cons next more => simp [escapeString, plain, first]

private theorem unit_eq_iff {unit code : UInt16} {character literal : Char}
    (same : unit.toNat = character.toNat) (coded : code.toNat = literal.toNat) :
    unit = code ↔ character = literal := by
  rw [← UInt16.toNat_inj, same, coded]
  exact ⟨fun equal => Char.ext (UInt32.toNat_inj.mp equal), congrArg Char.toNat⟩

theorem escapeString_encode {characters : List Char} (plain : ∀ c ∈ characters, 0x20 ≤ c.toNat) :
    escapeString (Utf16.encode characters) = Utf16.encode (characters.flatMap escapeChar) := by
  induction characters with
  | nil => rfl
  | cons character rest ih =>
    have later := ih fun c member => plain c (List.mem_cons_of_mem character member)
    have printable := plain character List.mem_cons_self
    rw [Utf16.encode_cons, List.flatMap_cons, Utf16.encode_append, ← later]
    rcases Utf16.encodeChar_cases character with ⟨unit, same, single, number, _⟩ |
      ⟨high, low, same, first, second, large, _⟩
    · rw [same, List.singleton_append, escapeString_plain single]
      congr 1
      have above : ∀ literal : UInt16, literal.toNat < 0x20 → unit ≠ literal := by
        rintro literal small rfl
        omega
      have mark : unit = quoteMark ↔ character = '"' := unit_eq_iff number rfl
      have slash : unit = backslash ↔ character = '\\' := unit_eq_iff number rfl
      have kept : ¬ unit < 0x20 := by
        rw [UInt16.lt_iff_toNat_lt, number]
        exact Nat.not_lt.mpr printable
      simp only [escapeUnit, escapeChar, above _ (by decide : (0x08 : UInt16).toNat < 0x20),
        above _ (by decide : (0x09 : UInt16).toNat < 0x20),
        above _ (by decide : (0x0A : UInt16).toNat < 0x20),
        above _ (by decide : (0x0C : UInt16).toNat < 0x20),
        above _ (by decide : (0x0D : UInt16).toNat < 0x20), if_false, kept, mark, slash]
      split
      · simp only [Utf16.encode_cons, same]
        rfl
      · simp [same, Utf16.encode]
    · have other : ∀ literal : Char, literal.toNat < 0x10000 → character ≠ literal := by
        rintro literal small rfl
        omega
      have single : escapeChar character = [character] := by
        simp [escapeChar, other '"' (by decide), other '\\' (by decide)]
      rw [single, Utf16.encode_cons, same]
      simp [escapeString, first, second, Utf16.encode]

theorem readString_plain {unit : UInt16} (mark : unit ≠ quoteMark) (printable : ¬ unit < 0x20)
    (slash : unit ≠ backslash) (rest : List UInt16) :
    readString (unit :: rest) =
      (readString rest).map fun (units, after) => (unit :: units, after) := by
  rw [readString.eq_def]
  exact (if_neg mark).trans ((if_neg printable).trans (if_pos slash))

theorem readString_end (rest : List UInt16) :
    readString (quoteMark :: rest) = some ([], rest) := by
  rw [readString.eq_def]
  exact if_pos rfl

theorem readString_escape {escaped value : UInt16} (known : escape? escaped = some value)
    (rest : List UInt16) : readString (backslash :: escaped :: rest) =
      (readString rest).map fun (units, after) => (value :: units, after) := by
  rw [readString.eq_def]
  have slash : ¬ backslash ≠ backslash := fun other => other rfl
  simp only [if_neg (by decide : backslash ≠ quoteMark), if_neg (by decide : ¬ backslash < 0x20),
    if_neg slash, known]

theorem surrogate_plain {unit : UInt16} (surrogate : 0xD800 ≤ unit) :
    unit ≠ quoteMark ∧ ¬ unit < 0x20 ∧ unit ≠ backslash := by
  rw [UInt16.le_iff_toNat_le] at surrogate
  have large : 0xD800 ≤ unit.toNat := surrogate
  refine ⟨?_, ?_, ?_⟩
  · rintro rfl
    exact absurd large (by decide)
  · rw [UInt16.lt_iff_toNat_lt]
    exact fun small : unit.toNat < 0x20 => by omega
  · rintro rfl
    exact absurd large (by decide)

/-- A quoted string without control characters is read back. -/
theorem readString_escaped {characters : List Char} (plain : ∀ c ∈ characters, 0x20 ≤ c.toNat)
    (rest : List UInt16) :
    readString (Utf16.encode (characters.flatMap escapeChar) ++ quoteMark :: rest) =
      some (Utf16.encode characters, rest) := by
  induction characters with
  | nil => exact readString_end rest
  | cons character more ih =>
    have later := ih fun c member => plain c (List.mem_cons_of_mem character member)
    have printable := plain character List.mem_cons_self
    rw [Utf16.encode_cons, List.flatMap_cons, Utf16.encode_append, List.append_assoc]
    by_cases special : character = '"' ∨ character = '\\'
    · rcases special with rfl | rfl
      · exact (readString_escape rfl _).trans (congrArg (Option.map _) later)
      · exact (readString_escape rfl _).trans (congrArg (Option.map _) later)
    · obtain ⟨mark, slash⟩ := not_or.mp special
      rw [escapeChar, if_neg special, Utf16.encode_cons, List.append_assoc]
      rcases Utf16.encodeChar_cases character with ⟨unit, same, single, number, _⟩ |
        ⟨high, low, same, first, second, large, _⟩
      · have kept : ¬ unit < 0x20 := by
          rw [UInt16.lt_iff_toNat_lt, number]
          exact Nat.not_lt.mpr printable
        have unmarked : unit ≠ quoteMark := fun equal => mark ((unit_eq_iff number rfl).mp equal)
        have unslashed : unit ≠ backslash := fun equal => slash ((unit_eq_iff number rfl).mp equal)
        rw [same, List.singleton_append, readString_plain unmarked kept unslashed]
        exact congrArg (Option.map _) later
      · have top : 0xD800 ≤ high := (Bool.and_eq_true_iff.mp first).1 |> of_decide_eq_true
        have bottom : 0xD800 ≤ low := by
          have least : 0xDC00 ≤ low := (Bool.and_eq_true_iff.mp second).1 |> of_decide_eq_true
          exact UInt16.le_trans (by decide) least
        obtain ⟨unmarked, kept, unslashed⟩ := surrogate_plain top
        obtain ⟨unmarked', kept', unslashed'⟩ := surrogate_plain bottom
        rw [same, List.cons_append, List.singleton_append, readString_plain unmarked kept unslashed,
          readString_plain unmarked' kept' unslashed']
        exact congrArg (fun read => Option.map _ (Option.map _ read)) later

theorem skipBlanks_cons {unit : UInt16} (dark : isBlank unit = false) (rest : List UInt16) :
    skipBlanks (unit :: rest) = unit :: rest := by
  simp [skipBlanks, dark]

theorem readValue_string {rest after : List UInt16} {units : List UInt16} (fuel : Nat)
    (read : readString rest = some (units, after)) :
    readValue (fuel + 1) (quoteMark :: rest) = some (.string ⟨units⟩, after) := by
  rw [readValue, skipBlanks_cons (by decide)]
  simp only [if_true, read, Option.map_some]

theorem readValue_array {fuel : Nat} {unit : UInt16} {rest after : List UInt16}
    {values : List JsValue} (dark : isBlank unit = false) (filled : unit ≠ 0x5D)
    (read : readElements (readValue fuel) (unit :: rest).length (unit :: rest) =
      some (values, after)) :
    readValue (fuel + 1) (0x5B :: unit :: rest) = some (.array values, after) := by
  rw [readValue, skipBlanks_cons (by decide)]
  simp only [if_neg (by decide : (0x5B : UInt16) ≠ quoteMark), if_true]
  rw [skipBlanks_cons dark]
  split
  · rename_i same
    exact absurd (List.cons.inj same).1 filled
  · simp only [read, Option.map_some]

theorem readElements_more {item : List UInt16 → Option (JsValue × List UInt16)} {fuel : Nat}
    {text rest after : List UInt16} {value : JsValue} {values : List JsValue}
    (read : item text = some (value, 0x2C :: rest))
    (later : readElements item fuel rest = some (values, after)) :
    readElements item (fuel + 1) text = some (value :: values, after) := by
  simp [readElements, read, skipBlanks_cons (by decide : isBlank 0x2C = false), later]

theorem readElements_last {item : List UInt16 → Option (JsValue × List UInt16)} {fuel : Nat}
    {text rest : List UInt16} {value : JsValue} (read : item text = some (value, 0x5D :: rest)) :
    readElements item (fuel + 1) text = some ([value], rest) := by
  simp [readElements, read, skipBlanks_cons (by decide : isBlank 0x5D = false)]

end N2FNest.Shared.Json
