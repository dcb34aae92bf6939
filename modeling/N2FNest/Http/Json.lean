import N2FNest.Lib.Result
import N2FNest.Shared.Failure
import N2FNest.Shared.JsonTokens

/-! Strict bounded JSON object decoding for request bodies. -/

namespace N2FNest.Http

open Lib Shared
open Json (quoteMark backslash)

def invalidBody : Failure := failure .invalid "invalid request body" "http.invalid_body"

def maxDepth : Nat := 8

/-- Why a parse gives no value: it threw, or it was stopped before it ended. -/
inductive Halt where
  | malformed
  | unfinished
  deriving DecidableEq

namespace Parser

def ws (text : List UInt16) : List UInt16 := Json.skipBlanks text

def peek (text : List UInt16) : Option UInt16 := text.head?

def expect (character : UInt16) : List UInt16 → Except Halt (List UInt16)
  | [] => .error .malformed
  | found :: rest => if found = character then .ok rest else .error .malformed

def literal (word : String) (value : JsValue) (text : List UInt16) :
    Except Halt (JsValue × List UInt16) :=
  if (js word).units <+: text then .ok (value, text.drop (js word).units.length)
  else .error .malformed

/-- A double has no sign of zero in the model, so `-0` is `0`. -/
def number (text : List UInt16) : Except Halt (JsValue × List UInt16) :=
  match Json.scanNumeral text with
  | some (numeral, rest) =>
    if numeral.number.isFinite then .ok (.number numeral.number, rest) else .error .malformed
  | none => .error .malformed

def unit : List UInt16 → Except Halt (UInt16 × List UInt16)
  | first :: second :: third :: fourth :: rest =>
    match Json.hexUnit? first second third fourth with
    | some value => .ok (value, rest)
    | none => .error .malformed
  | _ => .error .malformed

/-- What an escape adds to the string; the text is behind its backslash. -/
def escape : List UInt16 → Except Halt (List UInt16 × List UInt16)
  | [] => .error .malformed
  | escaped :: rest =>
    match Json.escape? escaped with
    | some value => .ok ([value], rest)
    | none =>
      if escaped = 0x75 then do
        let (high, rest) ← unit rest
        if Utf16.isHigh high then do
          let rest ← expect backslash rest
          let rest ← expect 0x75 rest
          let (low, rest) ← unit rest
          if Utf16.isLow low then return ([high, low], rest) else .error .malformed
        else if Utf16.isLow high then .error .malformed
        else return ([high], rest)
      else .error .malformed

theorem expect_ok {character : UInt16} {text rest : List UInt16} :
    expect character text = .ok rest ↔ text = character :: rest := by
  cases text with
  | nil => simp [expect]
  | cons found text =>
    by_cases same : found = character
    · simp [expect, same]
    · simp [expect, same]

theorem unit_ok {text rest : List UInt16} {value : UInt16} : unit text = .ok (value, rest) ↔
    ∃ first second third fourth, text = first :: second :: third :: fourth :: rest ∧
      Json.hexUnit? first second third fourth = some value := by
  constructor
  · intro read
    unfold unit at read
    split at read
    · split at read
      · rename_i known
        cases read
        exact ⟨_, _, _, _, rfl, known⟩
      · cases read
    · cases read
  · rintro ⟨first, second, third, fourth, rfl, known⟩
    simp only [unit, known]

/-- The escapes there are: a letter, a number that is no surrogate, or two that are a pair. -/
theorem escape_ok {text rest : List UInt16} {units : List UInt16}
    (read : escape text = .ok (units, rest)) :
    (∃ letter value, text = letter :: rest ∧ Json.escape? letter = some value ∧ units = [value]) ∨
    (∃ value more, text = 0x75 :: more ∧ unit more = .ok (value, rest) ∧
      Utf16.isHigh value = false ∧ Utf16.isLow value = false ∧ units = [value]) ∨
    ∃ high low more later, text = 0x75 :: more ∧ unit more = .ok (high, backslash :: 0x75 :: later) ∧
      unit later = .ok (low, rest) ∧ Utf16.isHigh high = true ∧ Utf16.isLow low = true ∧
      units = [high, low] := by
  cases text with
  | nil => cases read
  | cons escaped text =>
    rw [escape] at read
    split at read
    · rename_i value known
      cases read
      exact .inl ⟨escaped, value, rfl, known, rfl⟩
    · split at read
      · rename_i letter
        subst letter
        obtain ⟨⟨high, more⟩, first, read⟩ := bind_ok read
        dsimp only at read
        split at read
        · rename_i surrogate
          obtain ⟨mark, slash, read⟩ := bind_ok read
          obtain ⟨later, numbered, read⟩ := bind_ok read
          obtain ⟨⟨low, last⟩, second, read⟩ := bind_ok read
          dsimp only at read
          split at read
          · rename_i lower
            cases read
            rw [expect_ok.mp slash, expect_ok.mp numbered] at first
            exact .inr (.inr ⟨high, low, text, later, rfl, first, second, surrogate, lower, rfl⟩)
          · cases read
        · rename_i upper
          split at read
          · cases read
          · rename_i lower
            cases read
            exact .inr (.inl ⟨high, text, rfl, first, by simpa using upper, by simpa using lower, rfl⟩)
      · cases read

private theorem unit_shorter {text rest : List UInt16} {value : UInt16}
    (read : unit text = .ok (value, rest)) : rest.length < text.length := by
  obtain ⟨_, _, _, _, rfl, _⟩ := unit_ok.mp read
  simp only [List.length_cons]
  omega

private theorem escape_shorter {text rest : List UInt16} {units : List UInt16}
    (read : escape text = .ok (units, rest)) : rest.length < text.length := by
  rcases escape_ok read with ⟨_, _, rfl, _⟩ | ⟨_, _, rfl, first, _⟩ |
    ⟨_, _, _, _, rfl, first, second, _⟩
  · exact Nat.lt_succ_self _
  · have shorter := unit_shorter first
    simp only [List.length_cons]
    omega
  · have shorter := unit_shorter first
    have shortest := unit_shorter second
    simp only [List.length_cons] at shorter ⊢
    omega

/-- The loop of `#string`, behind the opening mark. -/
def characters (text : List UInt16) : Except Halt (List UInt16 × List UInt16) :=
  match text with
  | [] => .error .malformed
  | character :: rest =>
    if character = quoteMark then .ok ([], rest)
    else if character < 0x20 then .error .malformed
    else if character ≠ backslash then do
      let (units, rest) ← characters rest
      return (character :: units, rest)
    else match _read : escape rest with
      | .error halt => .error halt
      | .ok (units, rest) => do
        let (later, rest) ← characters rest
        return (units ++ later, rest)
termination_by text.length
decreasing_by
  · exact Nat.lt_succ_self _
  · exact (escape_shorter _read).trans (Nat.lt_succ_self _)

def string (text : List UInt16) : Except Halt (JsString × List UInt16) := do
  let (units, rest) ← characters (← expect quoteMark text)
  return (⟨units⟩, rest)

section Containers

variable (item : List UInt16 → Except Halt (JsValue × List UInt16))

/-- The loop of `#array`, stopped after `steps` elements. -/
def elements : Nat → List JsValue → List UInt16 → Except Halt (List JsValue × List UInt16)
  | 0, _, _ => .error .unfinished
  | steps + 1, output, text => do
    let (value, rest) ← item text
    if peek (ws rest) = some 0x2C then elements steps (output ++ [value]) (ws rest).tail
    else do
      let rest ← expect 0x5D (ws rest)
      return (output ++ [value], rest)

/-- `#array`; `item` reads a value one level deeper. -/
def array (text : List UInt16) : Except Halt (List JsValue × List UInt16) := do
  let rest ← expect 0x5B text
  if peek (ws rest) = some 0x5D then return ([], (ws rest).tail)
  else elements item (rest.length + 1) [] (ws rest)

/-- The loop of `#object`, stopped after `steps` members. -/
def members : Nat → JsObject → List UInt16 → Except Halt (JsObject × List UInt16)
  | 0, _, _ => .error .unfinished
  | steps + 1, output, text => do
    let (key, rest) ← string (ws text)
    if key ∈ output.map Prod.fst then .error .malformed
    else do
      let rest ← expect 0x3A (ws rest)
      let (value, rest) ← item rest
      if peek (ws rest) = some 0x2C then members steps (output ++ [(key, value)]) (ws rest).tail
      else do
        let rest ← expect 0x7D (ws rest)
        return (output ++ [(key, value)], rest)

/-- `#object`; its depth was checked before it is called. -/
def object (text : List UInt16) : Except Halt (JsObject × List UInt16) := do
  let rest ← expect 0x7B text
  if peek (ws rest) = some 0x7D then return ([], (ws rest).tail)
  else members item (rest.length + 1) [] (ws rest)

end Containers

/-- `#value` with as many levels left as its depth leaves up to `maxDepth`. -/
def value : Nat → List UInt16 → Except Halt (JsValue × List UInt16)
  | 0, _ => .error .malformed
  | levels + 1, text =>
    let text := ws text
    if peek text = some 0x7B then do
      let (fields, rest) ← object (value levels) text
      return (.object fields, rest)
    else if peek text = some 0x5B then do
      let (items, rest) ← array (value levels) text
      return (.array items, rest)
    else if peek text = some quoteMark then do
      let (units, rest) ← string text
      return (.string units, rest)
    else if peek text = some 0x74 then literal "true" (.bool true) text
    else if peek text = some 0x66 then literal "false" (.bool false) text
    else if peek text = some 0x6E then literal "null" .null text
    else number text

def parseDocument (text : List UInt16) : Except Halt JsObject := do
  if peek (ws text) = some 0x7B then do
    let (fields, rest) ← object (value (maxDepth - 1)) (ws text)
    if ws rest = [] then return fields else .error .malformed
  else .error .malformed

end Parser

/-- `none` when the parse does not end. -/
def decodeObject (bytes : List UInt8) : Option (Except Failure JsObject) :=
  if 1048576 < bytes.length then some (.error invalidBody)
  else match decodeUtf8 bytes with
    | none => some (.error invalidBody)
    | some text =>
      match Parser.parseDocument text.units with
      | .ok fields => some (.ok fields)
      | .error .malformed => some (.error invalidBody)
      | .error .unfinished => none

end N2FNest.Http
