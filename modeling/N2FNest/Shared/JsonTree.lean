import N2FNest.Shared.Json

/-! The grammar of RFC 8259 as syntax trees: what a JSON text spells, which value
it denotes, and how deep its values lie. Nothing here says how a text is read. -/

namespace N2FNest.Shared.Json

open Lib
open Decimal (isDigit)

/-- Insignificant white space. -/
structure Blanks where
  units : List UInt16
  blank : ∀ unit ∈ units, isBlank unit = true

/-- One character of a string: as it is, by a one-letter escape, or by its number. -/
inductive Piece where
  | plain (unit : UInt16) (allowed : unit ≠ quoteMark ∧ unit ≠ backslash ∧ ¬ unit < 0x20)
  | short (letter value : UInt16) (known : escape? letter = some value)
  | unicode (first second third fourth value : UInt16)
      (known : hexUnit? first second third fourth = some value)

namespace Piece

def text : Piece → List UInt16
  | plain unit _ => [unit]
  | short letter _ _ => [backslash, letter]
  | unicode first second third fourth _ _ => [backslash, 0x75, first, second, third, fourth]

/-- The code unit that the piece stands for. -/
def unit : Piece → UInt16
  | plain unit _ => unit
  | short _ value _ => value
  | unicode _ _ _ _ value _ => value

/-- The code unit of a numbered escape. -/
def numbered? : Piece → Option UInt16
  | unicode _ _ _ _ value _ => some value
  | _ => none

end Piece

def quoted (pieces : List Piece) : List UInt16 :=
  quoteMark :: (pieces.flatMap Piece.text ++ [quoteMark])

def unquoted (pieces : List Piece) : JsString := ⟨pieces.map Piece.unit⟩

/-- Every numbered escape of a surrogate belongs to a high and low pair of them. -/
def paired : List Piece → Bool
  | [] => true
  | [piece] => !piece.numbered?.any Utf16.isSurrogate
  | piece :: next :: rest =>
    if piece.numbered?.any Utf16.isHigh && next.numbered?.any Utf16.isLow then paired rest
    else !piece.numbered?.any Utf16.isSurrogate && paired (next :: rest)

/-- `[eE][+-]?\d+`. -/
structure Exponent where
  mark : UInt16
  sign : List UInt16
  digits : List UInt16
  marked : mark = 0x65 ∨ mark = 0x45
  signed : sign = [] ∨ sign = [0x2B] ∨ sign = [0x2D]
  nonempty : digits ≠ []
  decimal : ∀ unit ∈ digits, isDigit unit = true

def Exponent.text (exponent : Exponent) : List UInt16 :=
  exponent.mark :: (exponent.sign ++ exponent.digits)

/-- A number as it is written; a fraction without digits is none. -/
structure NumberText where
  minus : Bool
  whole : List UInt16
  fraction : List UInt16
  exponent : Option Exponent
  leading : whole = [0x30] ∨ ∃ first rest, whole = first :: rest ∧ first ≠ 0x30
  decimal : (∀ unit ∈ whole, isDigit unit = true) ∧ ∀ unit ∈ fraction, isDigit unit = true

namespace NumberText

def fractionText (fraction : List UInt16) : List UInt16 :=
  if fraction = [] then [] else 0x2E :: fraction

def exponentText (exponent : Option Exponent) : List UInt16 := exponent.elim [] Exponent.text

def text (number : NumberText) : List UInt16 :=
  (if number.minus then [0x2D] else []) ++
    (number.whole ++ (fractionText number.fraction ++ exponentText number.exponent))

/-- The parts that give the number its value. -/
def numeral (number : NumberText) : Numeral where
  negative := number.minus
  whole := number.whole
  fraction := number.fraction
  exponentNegative := number.exponent.any (·.sign == [0x2D])
  exponent := number.exponent.elim [] Exponent.digits

end NumberText

mutual

/-- A JSON value as it is written. -/
inductive Written where
  | null
  | bool (value : Bool)
  | number (number : NumberText)
  | string (pieces : List Piece)
  | emptyArray (inside : Blanks)
  | array (elements : Elements)
  | emptyObject (inside : Blanks)
  | object (members : Members)

/-- The elements of an array, up to its closing bracket. -/
inductive Elements where
  | last (before : Blanks) (value : Written) (behind : Blanks)
  | more (before : Blanks) (value : Written) (behind : Blanks) (rest : Elements)

/-- The members of an object, up to its closing brace. -/
inductive Members where
  | last (before : Blanks) (name : List Piece) (named : Blanks) (lead : Blanks) (value : Written)
      (behind : Blanks)
  | more (before : Blanks) (name : List Piece) (named : Blanks) (lead : Blanks) (value : Written)
      (behind : Blanks) (rest : Members)

end

mutual

def Written.text : Written → List UInt16
  | .null => (js "null").units
  | .bool value => (js (if value then "true" else "false")).units
  | .number number => number.text
  | .string pieces => quoted pieces
  | .emptyArray inside => 0x5B :: (inside.units ++ [0x5D])
  | .array elements => 0x5B :: elements.text
  | .emptyObject inside => 0x7B :: (inside.units ++ [0x7D])
  | .object members => 0x7B :: members.text

def Elements.text : Elements → List UInt16
  | .last before value behind => before.units ++ (value.text ++ (behind.units ++ [0x5D]))
  | .more before value behind rest =>
    before.units ++ (value.text ++ (behind.units ++ 0x2C :: rest.text))

def Members.text : Members → List UInt16
  | .last before name named lead value behind =>
    before.units ++ (quoted name ++ (named.units ++
      0x3A :: (lead.units ++ (value.text ++ (behind.units ++ [0x7D])))))
  | .more before name named lead value behind rest =>
    before.units ++ (quoted name ++ (named.units ++
      0x3A :: (lead.units ++ (value.text ++ (behind.units ++ 0x2C :: rest.text)))))

end

mutual

def Written.value : Written → JsValue
  | .null => .null
  | .bool value => .bool value
  | .number number => .number number.numeral.number
  | .string pieces => .string (unquoted pieces)
  | .emptyArray _ => .array []
  | .array elements => .array elements.values
  | .emptyObject _ => .object []
  | .object members => .object members.fields

def Elements.values : Elements → List JsValue
  | .last _ value _ => [value.value]
  | .more _ value _ rest => value.value :: rest.values

def Members.fields : Members → JsObject
  | .last _ name _ _ value _ => [(unquoted name, value.value)]
  | .more _ name _ _ value _ rest => (unquoted name, value.value) :: rest.fields

end

mutual

def Written.height : Written → Nat
  | .array elements => elements.height + 1
  | .object members => members.height + 1
  | _ => 1

def Elements.height : Elements → Nat
  | .last _ value _ => value.height
  | .more _ value _ rest => max value.height rest.height

def Members.height : Members → Nat
  | .last _ _ _ _ value _ => value.height
  | .more _ _ _ _ value _ rest => max value.height rest.height

end

section Every

variable (onNumber : NumberText → Prop) (onString : List Piece → Prop)
  (onNames : List JsString → Prop)

mutual

def Written.Every : Written → Prop
  | .number number => onNumber number
  | .string pieces => onString pieces
  | .array elements => elements.Every
  | .object members => onNames (members.fields.map Prod.fst) ∧ members.Every
  | _ => True

def Elements.Every : Elements → Prop
  | .last _ value _ => value.Every
  | .more _ value _ rest => value.Every ∧ rest.Every

def Members.Every : Members → Prop
  | .last _ name _ _ value _ => onString name ∧ value.Every
  | .more _ name _ _ value _ rest => onString name ∧ value.Every ∧ rest.Every

end

end Every

end N2FNest.Shared.Json
