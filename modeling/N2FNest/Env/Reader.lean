import N2FNest.Lib.Decimal
import N2FNest.Lib.Run
import N2FNest.Pagination.Page
import N2FNest.Shared.Failure
import N2FNest.Shared.Validation

/-! The reader of the process's environment: any number of reads, then one check of them all. -/

namespace N2FNest.Env

open Lib Shared

/-- What a key has in the environment; anything but a text or nothing is no source. -/
abbrev Lookup := JsString → JsValue

def isUpper (unit : UInt16) : Bool := 0x41 ≤ unit && unit ≤ 0x5A

/-- `/^[A-Z][A-Z0-9_]*$/`. -/
def validKey (key : JsString) : Bool :=
  match key.units with
  | [] => false
  | first :: rest =>
    isUpper first && rest.all fun unit => isUpper unit || Decimal.isDigit unit || unit == 0x5F

def MAX_SAFE_INTEGER : Nat := 9007199254740991

def safeInt? : JsNumber → Option Int
  | .finite value =>
    if value.den = 1 ∧ value.num.natAbs ≤ MAX_SAFE_INTEGER then some value.num else none
  | _ => none

/-- `/^-?(0|[1-9][0-9]*)$/`, and `Number` of it: exact for a safe integer, and no safe integer
for any other. -/
def integer (text : JsString) : Option Int :=
  let negative := text.units.head? == some 0x2D
  let digits := if negative then text.units.drop 1 else text.units
  let magnitude := Decimal.natural digits
  if Validation.isDecimal digits = true ∧ magnitude ≤ MAX_SAFE_INTEGER then
    some (if negative then -magnitude else magnitude)
  else none

/-- `String(value)`. -/
def integerText (value : Int) : JsString :=
  ⟨(if value < 0 then [0x2D] else []) ++ Decimal.text value.natAbs⟩

inductive Source where
  | environment
  | default
  deriving DecidableEq

structure Var where
  key : JsString
  value : JsString
  source : Source
  secret : Bool
  deriving DecidableEq

/-- What a read returns. -/
inductive Value where
  | text (value : JsString)
  | secret (value : JsString)
  | number (value : Int)
  | flag (value : Bool)
  deriving DecidableEq

/-- The methods of the reader; `least` and `most` are the `min` and `max` of `int`. -/
inductive Call where
  | string (key fallback : JsString)
  | required (key : JsString)
  | secret (key : JsString)
  | int (key : JsString) (fallback least most : JsNumber)
  | boolean (key : JsString) (fallback : Bool)
  | enumeration (key fallback : JsString) (allowed : List JsString)

namespace Call

def key : Call → JsString
  | string key _ | required key | secret key | int key _ _ _ | boolean key _ | enumeration key _ _ => key

def isSecret : Call → Bool
  | secret _ => true
  | _ => false

/-- What a call returns when it finds a problem. -/
def empty : Call → Value
  | string _ _ | required _ | enumeration _ _ _ => .text (js "")
  | secret _ => .secret (js "")
  | int _ _ _ _ => .number 0
  | boolean _ _ => .flag false

/-- The check of a call's own arguments. -/
def isDefined : Call → Bool
  | int _ fallback least most => match safeInt? fallback, safeInt? least, safeInt? most with
    | some fallback, some least, some most => least ≤ fallback && fallback ≤ most
    | _, _, _ => false
  | enumeration _ fallback allowed =>
    decide allowed.Nodup && !allowed.contains (js "") && allowed.contains fallback
  | _ => true

/-- What a call makes of the text of its key: a problem, or the value it returns and the text it
records. -/
def settle : Call → Option JsString → Except String (Value × JsString)
  | string _ fallback, found => .ok (.text (found.getD fallback), found.getD fallback)
  | required _, found => match found with
    | none => .error "required"
    | some text => if text.length = 0 then .error "required" else .ok (.text text, text)
  | secret _, found => match found with
    | none => .error "required"
    | some text =>
      if text.length = 0 then .error "required" else .ok (.secret text, js "[REDACTED]")
  | int _ fallback least most, found =>
    match (match found with | none => safeInt? fallback | some text => integer text),
        safeInt? least, safeInt? most with
    | some value, some least, some most =>
      if value < least ∨ most < value then .error "out_of_range"
      else .ok (.number value, integerText value)
    | _, _, _ => .error "invalid_integer"
  | boolean _ fallback, found => match found with
    | none => .ok (.flag fallback, js (if fallback then "true" else "false"))
    | some text =>
      if text = js "true" then .ok (.flag true, js "true")
      else if text = js "false" then .ok (.flag false, js "false")
      else .error "invalid_boolean"
  | enumeration _ fallback allowed, found =>
    if allowed.contains (found.getD fallback) then .ok (.text (found.getD fallback), found.getD fallback)
    else .error "invalid_choice"

end Call

/-- `problems` is a map: a key has its last reason, in its first place. -/
structure Reader where
  seen : List JsString
  problems : List (JsString × String)
  resolved : List Var

namespace Reader

def initial : Reader := ⟨[], [], []⟩

def problem (reader : Reader) (key : JsString) (reason : String) : Reader :=
  let name := if validKey key then key else js "<key>"
  { reader with problems :=
      if reader.problems.any (fun problem => problem.1 = name) then
        reader.problems.map fun problem => if problem.1 = name then (name, reason) else problem
      else reader.problems ++ [(name, reason)] }

def read (lookup : Lookup) (reader : Reader) (key : JsString) : Reader × Option (Option JsString) :=
  if validKey key = false then (reader.problem key "invalid_key", none)
  else if key ∈ reader.seen then (reader.problem key "duplicate_key", none)
  else
    let reader := { reader with seen := reader.seen ++ [key] }
    match lookup key with
    | .undefined => (reader, some none)
    | .string text => (reader, some (some text))
    | _ => (reader.problem key "invalid_source", none)

def record (reader : Reader) (key value : JsString) (present secret : Bool) : Reader :=
  { reader with resolved :=
      reader.resolved ++ [⟨key, value, if present then .environment else .default, secret⟩] }

/-- Any method: its own check, the read of its key, and what it makes of the text. -/
def call (lookup : Lookup) (reader : Reader) (call : Call) : Reader × Value :=
  if call.isDefined = false then (reader.problem call.key "invalid_definition", call.empty)
  else match reader.read lookup call.key with
    | (reader, none) => (reader, call.empty)
    | (reader, some found) => match call.settle found with
      | .error reason => (reader.problem call.key reason, call.empty)
      | .ok (value, text) => (reader.record call.key text found.isSome call.isSecret, value)

def invalidConfiguration : Failure := failure .invalid "invalid configuration" "env.invalid"

/-- The failure carries the problems as its fields. -/
def check (reader : Reader) : Except (Failure × List (JsString × String)) Unit :=
  if reader.problems.isEmpty then .ok () else .error (invalidConfiguration, reader.problems)

def manifest (reader : Reader) : Except (Failure × List (JsString × String)) (List Var) :=
  reader.check.map fun _ =>
    reader.resolved.mergeSort fun left right => !Pagination.precedes right.key left.key

end Reader

/-- The reader after some calls, and what they returned. -/
def readAll (lookup : Lookup) (calls : List Call) : Reader × List Value :=
  run (fun state call => ((state.1.call lookup call).1, state.2 ++ [(state.1.call lookup call).2]))
    (Reader.initial, []) calls

end N2FNest.Env
