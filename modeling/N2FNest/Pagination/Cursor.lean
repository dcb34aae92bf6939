import N2FNest.Lib.Base64Url
import N2FNest.Lib.Result
import N2FNest.Shared.Failure
import N2FNest.Shared.Json

/-! Query-bound opaque cursors: a scope and a position as JSON, UTF-8 and base64url. -/

namespace N2FNest.Pagination

open Lib Shared

def invalid : Failure := failure .invalid "invalid pagination" "pagination.invalid"

def maxScopeBytes : Nat := 128

def maxPositionBytes : Nat := 256

/-- The longest cursor `encode` can issue, `Math.ceil(bytes * 4 / 3)`. -/
def maxWire : Nat :=
  ((2 * maxScopeBytes + 2 * maxPositionBytes + (js "[1,\"\",\"\"]").length) * 4 + 2) / 3

/-- `character.charCodeAt(0)` is below 32 or 127. -/
def isControl (character : Char) : Bool :=
  let code := (Utf16.encodeChar character).headD 0
  code < 32 || code == 127

def validPart (value : JsValue) (maxBytes : Nat) : Bool :=
  match value with
  | .string text =>
    !Utf16.hasLone text.units && 0 < text.length && text.byteLength ≤ maxBytes &&
      !(Utf16.decode text.units).any isControl
  | _ => false

/-- `JSON.stringify([1, scope, position])`. -/
def payload (scope position : JsString) : JsString :=
  ⟨[0x5B, 0x31, 0x2C] ++ Json.quote scope ++ [0x2C] ++ Json.quote position ++ [0x5D]⟩

def encode (scope position : JsString) : Except Failure JsString :=
  if validPart (.string scope) maxScopeBytes = false ∨
      validPart (.string position) maxPositionBytes = false then .error invalid
  else
    let wire : JsString := ⟨Base64Url.encode (payload scope position).toUtf8⟩
    if wire.length ≤ maxWire then .ok wire else .error invalid

/-- The checks on what a cursor's bytes hold. -/
def accept (value : JsValue) (scope : JsString) : Except Failure JsString :=
  match value with
  | .array [.number version, .string named, .string position] =>
    if version = .ofNat 1 ∧ named = scope ∧
        validPart (.string position) maxPositionBytes = true then .ok position
    else .error invalid
  | _ => .error invalid

def decode (wire scope : JsString) : Except Failure JsString :=
  if wire.length = 0 ∨ maxWire < wire.length ∨ wire.units.all Base64Url.isDigit = false ∨
      validPart (.string scope) maxScopeBytes = false then .error invalid
  else
    let bytes := Base64Url.decode wire.units
    if Base64Url.encode bytes ≠ wire.units then .error invalid
    else match (decodeUtf8 bytes).bind Json.parse with
      | some value => accept value scope
      | none => .error invalid

/-- The scalar values of a valid part. -/
structure Part (text : JsString) (maxBytes : Nat) (characters : List Char) : Prop where
  units : text.units = Utf16.encode characters
  nonempty : characters ≠ []
  small : (utf8 characters).length ≤ maxBytes
  plain : ∀ character ∈ characters, 0x20 ≤ character.toNat

private theorem plain_of_not_control {character : Char} (free : isControl character = false) :
    0x20 ≤ character.toNat := by
  rcases Utf16.encodeChar_cases character with ⟨unit, same, _, number, _⟩ |
    ⟨high, low, _, _, _, large, _⟩
  · simp only [isControl, same, List.headD_cons, Bool.or_eq_false_iff, decide_eq_false_iff_not,
      UInt16.lt_iff_toNat_lt, number] at free
    exact Nat.not_lt.mp free.1
  · omega

theorem part_of_valid {text : JsString} {maxBytes : Nat}
    (valid : validPart (.string text) maxBytes = true) :
    ∃ characters, Part text maxBytes characters := by
  simp only [validPart, Bool.and_eq_true, Bool.not_eq_true', decide_eq_true_eq,
    List.any_eq_false] at valid
  obtain ⟨⟨⟨whole, nonempty⟩, small⟩, free⟩ := valid
  have units := (Utf16.encode_decode whole).symm
  refine ⟨Utf16.decode text.units, units, ?_, small, ?_⟩
  · intro none
    rw [none] at units
    rw [JsString.length, units] at nonempty
    exact absurd nonempty (by decide)
  · intro character member
    exact plain_of_not_control (by simpa using free character member)

/-- Text in printable ASCII is valid within its length. -/
theorem validPart_of_ascii {text : JsString} {maxBytes : Nat}
    (ascii : ∀ unit ∈ text.units, 0x20 ≤ unit.toNat ∧ unit.toNat < 0x7F)
    (nonempty : 0 < text.length) (short : text.length ≤ maxBytes) :
    validPart (.string text) maxBytes = true := by
  have plain : ∀ unit ∈ text.units, Utf16.isSurrogate unit = false := by
    intro unit member
    obtain ⟨_, most⟩ := ascii unit member
    exact Utf16.not_surrogate (by omega)
  obtain ⟨whole, scalars⟩ := Utf16.decode_of_plain plain
  have small : text.byteLength = text.length := by
    rw [JsString.byteLength, JsString.toUtf8, scalars, utf8_length_of_ascii, List.length_map,
      JsString.length]
    intro character member
    obtain ⟨unit, present, rfl⟩ := List.mem_map.mp member
    obtain ⟨_, most⟩ := ascii unit present
    rw [Utf16.toNat_single (plain unit present)]
    omega
  have free : (Utf16.decode text.units).any isControl = false := by
    rw [scalars, List.any_eq_false]
    intro character member
    obtain ⟨unit, present, rfl⟩ := List.mem_map.mp member
    obtain ⟨least, most⟩ := ascii unit present
    simp only [isControl, Utf16.encodeChar_single (plain unit present), List.headD_cons,
      Bool.or_eq_true, decide_eq_true_eq, beq_iff_eq, UInt16.lt_iff_toNat_lt, ← UInt16.toNat_inj,
      UInt16.reduceToNat]
    omega
  simp [validPart, whole, nonempty, small, short, free]

/-- The payload as scalar values. -/
private def payloadCharacters (scope position : List Char) : List Char :=
  ['[', '1', ',', '"'] ++ (scope.flatMap Json.escapeChar ++
    (['"', ',', '"'] ++ (position.flatMap Json.escapeChar ++ ['"', ']'])))

private theorem encode_payload (scope position : List Char) :
    Utf16.encode (payloadCharacters scope position) =
      [0x5B, 0x31, 0x2C, Json.quoteMark] ++ (Utf16.encode (scope.flatMap Json.escapeChar) ++
        ([Json.quoteMark, 0x2C, Json.quoteMark] ++
          (Utf16.encode (position.flatMap Json.escapeChar) ++ [Json.quoteMark, 0x5D]))) := by
  simp only [payloadCharacters, Utf16.encode_append]
  rfl

/-- Escaping at most doubles the bytes of a part. -/
private theorem utf8_escaped (characters : List Char) :
    (utf8 (characters.flatMap Json.escapeChar)).length ≤ 2 * (utf8 characters).length := by
  induction characters with
  | nil => exact Nat.le_refl 0
  | cons character rest ih =>
    rw [List.flatMap_cons, utf8_append, utf8_cons, List.length_append, List.length_append]
    have single : (utf8 (Json.escapeChar character)).length ≤
        2 * (String.utf8EncodeChar character).length := by
      unfold Json.escapeChar
      split
      · rename_i special
        rcases special with rfl | rfl <;> decide
      · rw [utf8_cons, List.length_append]
        exact Nat.le_mul_of_pos_left _ (by decide)
    omega

section Codec

variable {scope position : JsString} {named placed : List Char}
  (left : Part scope maxScopeBytes named) (right : Part position maxPositionBytes placed)

include left right

private theorem payload_utf8 :
    (payload scope position).toUtf8 = utf8 (payloadCharacters named placed) := by
  have units : (payload scope position).units = Utf16.encode (payloadCharacters named placed) := by
    rw [encode_payload]
    simp only [payload, Json.quote, left.units, right.units, Json.escapeString_encode left.plain,
      Json.escapeString_encode right.plain, List.cons_append, List.append_assoc, List.nil_append]
  rw [JsString.toUtf8, units, Utf16.decode_encode]

private theorem payload_length : (utf8 (payloadCharacters named placed)).length ≤ 777 := by
  have first := (utf8_escaped named).trans (Nat.mul_le_mul_left 2 left.small)
  have second := (utf8_escaped placed).trans (Nat.mul_le_mul_left 2 right.small)
  have framing : (utf8 ['[', '1', ',', '"']).length = 4 ∧ (utf8 ['"', ',', '"']).length = 3 ∧
      (utf8 ['"', ']']).length = 2 := by decide
  simp only [payloadCharacters, utf8_append, List.length_append, framing]
  simp only [maxScopeBytes, maxPositionBytes] at first second
  omega

private theorem parse_payload : Json.parse ⟨Utf16.encode (payloadCharacters named placed)⟩ =
    some (.array [.number (.ofNat 1), .string scope, .string position]) := by
  have version : ∀ rest fuel, Json.readValue (fuel + 1) (0x31 :: 0x2C :: rest) =
      some (.number (.ofNat 1), 0x2C :: rest) := by
    intro rest fuel
    have scanned : Json.scanNumeral (0x31 :: 0x2C :: rest) =
        some (⟨false, [0x31], [], false, []⟩, 0x2C :: rest) := rfl
    have one : Json.Numeral.number ⟨false, [0x31], [], false, []⟩ = .ofNat 1 := by
      have value : Json.Numeral.value ⟨false, [0x31], [], false, []⟩ = ((1 : Int) : ℚ) := by
        simp [Json.Numeral.value, Decimal.natural]
      rw [Json.Numeral.number, value]
      exact (JsNumber.ofRat_eq_ofInt (by norm_num)).mpr rfl
    rw [Json.readValue, Json.skipBlanks_cons (by decide)]
    simp [Json.quoteMark, scanned, one]
  have last := Json.readString_escaped right.plain [0x5D]
  have middle := Json.readString_escaped left.plain
    (0x2C :: Json.quoteMark :: (Utf16.encode (placed.flatMap Json.escapeChar) ++
      [Json.quoteMark, 0x5D]))
  rw [← right.units] at last
  rw [← left.units] at middle
  let rest := Utf16.encode (named.flatMap Json.escapeChar) ++ Json.quoteMark :: 0x2C ::
    Json.quoteMark :: (Utf16.encode (placed.flatMap Json.escapeChar) ++ [Json.quoteMark, 0x5D])
  let elements := 0x31 :: 0x2C :: Json.quoteMark :: rest
  have read : Json.readElements (Json.readValue (elements.length + 1)) elements.length elements =
      some ([.number (.ofNat 1), .string scope, .string position], []) :=
    Json.readElements_more (version _ _) (Json.readElements_more (Json.readValue_string _ middle)
      (Json.readElements_last (Json.readValue_string _ last)))
  have whole : Json.readValue (elements.length + 1 + 1) (0x5B :: elements) = some (_, []) :=
    Json.readValue_array (by decide) (by decide) read
  have units : Utf16.encode (payloadCharacters named placed) = 0x5B :: elements := encode_payload _ _
  rw [units, Json.parse, List.length_cons, whole]
  rfl

/-- The cursor of valid parts, as `encode` issues it. -/
private def wireOf (named placed : List Char) : JsString :=
  ⟨Base64Url.encode (utf8 (payloadCharacters named placed))⟩

private theorem wire_length : 0 < (wireOf named placed).length ∧
    (wireOf named placed).length ≤ maxWire := by
  have bound := payload_length left right
  have start : (utf8 (payloadCharacters named placed)).length =
      (utf8 (payloadCharacters named placed).tail).length + 1 := rfl
  have most : maxWire = 1036 := rfl
  rw [JsString.length, wireOf, Base64Url.length_encode, most]
  omega

private theorem encode_wire (bounded : validPart (.string scope) maxScopeBytes = true)
    (located : validPart (.string position) maxPositionBytes = true) :
    encode scope position = .ok (wireOf named placed) := by
  have accepted : ¬ (validPart (.string scope) maxScopeBytes = false ∨
      validPart (.string position) maxPositionBytes = false) := by
    simp [bounded, located]
  rw [encode, if_neg accepted, payload_utf8 left right]
  exact if_pos (wire_length left right).2

private theorem decode_wire {asked : JsString}
    (valid : validPart (.string asked) maxScopeBytes = true)
    (located : validPart (.string position) maxPositionBytes = true) :
    decode (wireOf named placed) asked =
      if scope = asked then .ok position else .error invalid := by
  obtain ⟨some, fits⟩ := wire_length left right
  have alphabet : (wireOf named placed).units.all Base64Url.isDigit = true :=
    List.all_eq_true.mpr Base64Url.isDigit_encode
  have accepted : ¬ ((wireOf named placed).length = 0 ∨ maxWire < (wireOf named placed).length ∨
      (wireOf named placed).units.all Base64Url.isDigit = false ∨
      validPart (.string asked) maxScopeBytes = false) := by
    simp only [alphabet, valid, Bool.true_eq_false, or_false]
    omega
  have bytes : Base64Url.decode (wireOf named placed).units = utf8 (payloadCharacters named placed) :=
    Base64Url.decode_encode _
  have text := decodeUtf8_utf8 (payloadCharacters named placed)
    (stripBom_cons (by decide) _)
  rw [decode, if_neg accepted]
  simp only [bytes, text, Option.bind_some, parse_payload left right]
  rw [if_neg (fun other => other rfl)]
  simp [accept, located]

end Codec

private theorem accept_ok {value : JsValue} {scope position : JsString}
    (accepted : accept value scope = .ok position) :
    validPart (.string position) maxPositionBytes = true := by
  unfold accept at accepted
  split at accepted
  · split at accepted
    · rename_i checked
      cases accepted
      exact checked.2.2
    · cases accepted
  · cases accepted

theorem decode_ok {wire scope position : JsString} (decoded : decode wire scope = .ok position) :
    validPart (.string scope) maxScopeBytes = true ∧
      validPart (.string position) maxPositionBytes = true := by
  obtain ⟨checked, decoded⟩ := refuse_ok.mp decoded
  obtain ⟨_, decoded⟩ := refuse_ok.mp decoded
  simp only [not_or, Bool.not_eq_false] at checked
  refine ⟨checked.2.2.2, ?_⟩
  split at decoded
  · exact accept_ok decoded
  · cases decoded

/-- A cursor issued for valid parts is read back under its own scope and under no other. -/
theorem decode_encode {scope position : JsString}
    (bounded : validPart (.string scope) maxScopeBytes = true)
    (located : validPart (.string position) maxPositionBytes = true) :
    ∃ wire, encode scope position = .ok wire ∧ ∀ asked,
      decode wire asked = if scope = asked then .ok position else .error invalid := by
  obtain ⟨named, left⟩ := part_of_valid bounded
  obtain ⟨placed, right⟩ := part_of_valid located
  refine ⟨wireOf named placed, encode_wire left right bounded located, ?_⟩
  intro asked
  cases valid : validPart (.string asked) maxScopeBytes with
  | true => exact decode_wire left right valid located
  | false =>
    have other : scope ≠ asked := by
      rintro rfl
      exact nomatch bounded.symm.trans valid
    rw [if_neg other, decode, if_pos (.inr (.inr (.inr valid)))]

theorem encode_ok {scope position wire : JsString} (encoded : encode scope position = .ok wire) :
    validPart (.string scope) maxScopeBytes = true ∧
      validPart (.string position) maxPositionBytes = true := by
  unfold encode at encoded
  split at encoded
  · cases encoded
  · rename_i accepted
    simpa using accepted

/-- `encode` never refuses valid parts, `decode` returns the position under the
same scope and fails under any other, no two pairs share a cursor, and whatever
`decode` accepts consists of valid parts. -/
theorem cursors_round_trip :
    (∀ scope position, validPart (.string scope) maxScopeBytes = true →
      validPart (.string position) maxPositionBytes = true →
      ∃ wire, encode scope position = .ok wire ∧ decode wire scope = .ok position ∧
        ∀ other, other ≠ scope → decode wire other = .error invalid) ∧
    (∀ scope position scope' position' wire, encode scope position = .ok wire →
      encode scope' position' = .ok wire → scope = scope' ∧ position = position') ∧
    ∀ wire scope position, decode wire scope = .ok position →
      validPart (.string scope) maxScopeBytes = true ∧
        validPart (.string position) maxPositionBytes = true := by
  refine ⟨?_, ?_, fun _ _ _ => decode_ok⟩
  · intro scope position bounded located
    obtain ⟨wire, encoded, decoded⟩ := decode_encode bounded located
    refine ⟨wire, encoded, ?_, ?_⟩
    · rw [decoded, if_pos rfl]
    · intro other different
      rw [decoded, if_neg different.symm]
  · intro scope position scope' position' wire encoded encoded'
    obtain ⟨bounded, located⟩ := encode_ok encoded
    obtain ⟨bounded', located'⟩ := encode_ok encoded'
    obtain ⟨_, issued, decoded⟩ := decode_encode bounded located
    obtain ⟨_, issued', decoded'⟩ := decode_encode bounded' located'
    cases Except.ok.inj (issued.symm.trans encoded)
    cases Except.ok.inj (issued'.symm.trans encoded')
    -- Under the first scope the shared cursor decodes, so the second scope is that one.
    have read := (decoded scope).symm.trans (decoded' scope)
    rw [if_pos rfl] at read
    split at read
    · rename_i same
      exact ⟨same.symm, Except.ok.inj read⟩
    · cases read

end N2FNest.Pagination
