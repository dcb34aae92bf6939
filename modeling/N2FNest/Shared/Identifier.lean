import N2FNest.Lib.Hex
import N2FNest.Shared.Failure
import N2FNest.Shared.Value

/-! Canonical UUID identifiers. `parse` is the only way in, so an `ID` in the
model is always the lower-case canonical text the program compares. -/

namespace N2FNest.Shared

open Lib

private def lowerUnit (unit : UInt16) : UInt16 :=
  if 0x41 ≤ unit && unit ≤ 0x5A then unit + 0x20 else unit

/-- `toLowerCase` on the ASCII letters, the only units a canonical UUID can hold. -/
def JsString.toLowerCase (text : JsString) : JsString := ⟨text.units.map lowerUnit⟩

private inductive UnitClass where
  | hex | dash | variant

private def UnitClass.accepts : UnitClass → UInt16 → Bool
  | .hex, unit => (0x30 ≤ unit && unit ≤ 0x39) || (0x61 ≤ unit && unit ≤ 0x66)
  | .dash, unit => unit == 0x2D
  | .variant, unit => unit == 0x38 || unit == 0x39 || unit == 0x61 || unit == 0x62

private def matchUnits : List UnitClass → List UInt16 → Bool
  | [], [] => true
  | expected :: more, unit :: rest => expected.accepts unit && matchUnits more rest
  | _, _ => false

/-- `[0-9a-f]{8}-[0-9a-f]{4}-[0-9a-f]{4}-[89ab][0-9a-f]{3}-[0-9a-f]{12}`. -/
private def canonicalPattern : List UnitClass :=
  List.replicate 8 .hex ++ [.dash] ++ List.replicate 4 .hex ++ [.dash] ++ List.replicate 4 .hex ++
    [.dash, .variant] ++ List.replicate 3 .hex ++ [.dash] ++ List.replicate 12 .hex

def JsString.isCanonicalId (text : JsString) : Bool := matchUnits canonicalPattern text.units

/-- A canonical UUID value. -/
structure ID where
  text : JsString
  canonical : text.isCanonicalId = true
  deriving DecidableEq

def invalidId : Failure := failure .invalid "invalid ID" "id.invalid"

/-- The pattern carries the `i` flag, so the text is tested in lower case, the
form in which it is returned. -/
def parse : JsValue → Except Failure ID
  | .string input =>
    if canonical : input.toLowerCase.isCanonicalId = true then .ok ⟨input.toLowerCase, canonical⟩
    else .error invalidId
  | _ => .error invalidId

/-- `Number.parseInt(id[14], 16)`, the UUID version. -/
def version (id : ID) : Nat := Hex.natural ((id.text.units.drop 14).take 1)

/-- The Unix-millisecond field of a UUIDv7; other versions have no value here. -/
def unixMillis (id : ID) : Option Nat :=
  if version id = 7 then
    some (Hex.natural (id.text.units.take 8 ++ (id.text.units.drop 9).take 4))
  else none

private theorem lowerUnit_of_accepts {expected : UnitClass} {unit : UInt16}
    (accepted : expected.accepts unit = true) : lowerUnit unit = unit := by
  have outside : ¬ (0x41 ≤ unit ∧ unit ≤ 0x5A) := by
    cases expected <;>
      simp only [UnitClass.accepts, Bool.or_eq_true, Bool.and_eq_true, decide_eq_true_eq, beq_iff_eq,
        UInt16.le_iff_toNat_le, UInt16.toNat_inj.symm] at accepted ⊢ <;>
      simp only [UInt16.reduceToNat] at accepted ⊢ <;> omega
  simp only [lowerUnit, Bool.and_eq_true, decide_eq_true_eq, if_neg outside]

private theorem lower_of_matchUnits {pattern : List UnitClass} {units : List UInt16}
    (accepted : matchUnits pattern units = true) : units.map lowerUnit = units := by
  induction pattern generalizing units with
  | nil => cases units with
    | nil => rfl
    | cons unit rest => simp [matchUnits] at accepted
  | cons expected more ih => cases units with
    | nil => rfl
    | cons unit rest =>
      simp only [matchUnits, Bool.and_eq_true] at accepted
      rw [List.map_cons, lowerUnit_of_accepts accepted.1, ih accepted.2]

theorem ID.toLowerCase_text (id : ID) : id.text.toLowerCase = id.text := by
  rw [JsString.toLowerCase, lower_of_matchUnits id.canonical]

/-- Parsing an identifier's own text returns that identifier. -/
@[simp] theorem parse_text (id : ID) : parse (.string id.text) = .ok id := by
  simp only [parse, id.toLowerCase_text, id.canonical, dite_true]

theorem ID.eq_of_text {left right : ID} (same : left.text = right.text) : left = right := by
  have parsed := parse_text left
  rw [same, parse_text] at parsed
  exact (Except.ok.inj parsed).symm

private theorem units_of_matchUnits {pattern : List UnitClass} {units : List UInt16}
    (accepted : matchUnits pattern units = true) :
    units.length = pattern.length ∧ ∀ unit ∈ units, 0x2B ≤ unit.toNat ∧ unit.toNat ≤ 0x66 := by
  induction pattern generalizing units with
  | nil => cases units with
    | nil => exact ⟨rfl, nofun⟩
    | cons unit rest => cases accepted
  | cons expected more ih => cases units with
    | nil => cases accepted
    | cons unit rest =>
      simp only [matchUnits, Bool.and_eq_true] at accepted
      obtain ⟨here, later⟩ := accepted
      obtain ⟨length, range⟩ := ih later
      refine ⟨congrArg (· + 1) length, List.forall_mem_cons.mpr ⟨?_, range⟩⟩
      cases expected <;>
        simp only [UnitClass.accepts, Bool.or_eq_true, Bool.and_eq_true, decide_eq_true_eq,
          beq_iff_eq, UInt16.le_iff_toNat_le, UInt16.toNat_inj.symm] at here <;>
        simp only [UInt16.reduceToNat] at here <;> omega

/-- An identifier is written with digits, dashes and the letters to `f`. -/
theorem ID.units (id : ID) : id.text.units.length = 36 ∧
    ∀ unit ∈ id.text.units, 0x2B ≤ unit.toNat ∧ unit.toNat ≤ 0x66 :=
  units_of_matchUnits id.canonical

private theorem matchUnits_append {first second : List UnitClass} {units rest : List UInt16}
    (lengths : first.length = units.length) :
    matchUnits (first ++ second) (units ++ rest) = (matchUnits first units && matchUnits second rest) := by
  induction first generalizing units with
  | nil =>
    cases units with
    | nil => rfl
    | cons unit more => cases lengths
  | cons expected later ih =>
    cases units with
    | nil => cases lengths
    | cons unit more =>
      rw [List.cons_append, List.cons_append, matchUnits, matchUnits, ih (Nat.succ.inj lengths),
        Bool.and_assoc]

private theorem matchUnits_hex {count : Nat} {units : List UInt16} (length : units.length = count)
    (digits : ∀ unit ∈ units, Hex.isDigit unit = true) :
    matchUnits (List.replicate count .hex) units = true := by
  subst length
  induction units with
  | nil => rfl
  | cons unit rest ih =>
    obtain ⟨here, later⟩ := List.forall_mem_cons.mp digits
    rw [List.length_cons, List.replicate_succ, matchUnits, ih later, Bool.and_true]
    exact here

/-- Five runs of digits, the fourth headed by a variant, write a canonical UUID. -/
theorem isCanonicalId_fields {first second third fourth fifth : List UInt16} {variant : UInt16}
    (lengths : first.length = 8 ∧ second.length = 4 ∧ third.length = 4 ∧ fourth.length = 3 ∧
      fifth.length = 12)
    (variants : variant = 0x38 ∨ variant = 0x39 ∨ variant = 0x61 ∨ variant = 0x62)
    (digits : ∀ unit ∈ first ++ second ++ third ++ fourth ++ fifth, Hex.isDigit unit = true) :
    JsString.isCanonicalId ⟨first ++ [0x2D] ++ second ++ [0x2D] ++ third ++
      [0x2D, variant] ++ fourth ++ [0x2D] ++ fifth⟩ = true := by
  obtain ⟨firstLength, secondLength, thirdLength, fourthLength, fifthLength⟩ := lengths
  simp only [List.forall_mem_append] at digits
  obtain ⟨⟨⟨⟨first, second⟩, third⟩, fourth⟩, fifth⟩ := digits
  have marks : matchUnits [.dash, .variant] [0x2D, variant] = true := by
    rcases variants with rfl | rfl | rfl | rfl <;> rfl
  have dash : matchUnits [.dash] [0x2D] = true := rfl
  unfold JsString.isCanonicalId canonicalPattern
  repeat rw [matchUnits_append]
  · rw [matchUnits_hex firstLength first, matchUnits_hex secondLength second,
      matchUnits_hex thirdLength third, matchUnits_hex fourthLength fourth,
      matchUnits_hex fifthLength fifth, marks, dash]
    rfl
  all_goals simp [firstLength, secondLength, thirdLength, fourthLength]

private theorem matchUnits_split {first second : List UnitClass} {units : List UInt16}
    (accepted : matchUnits (first ++ second) units = true) :
    ∃ front back, units = front ++ back ∧ matchUnits first front = true ∧
      matchUnits second back = true := by
  induction first generalizing units with
  | nil => exact ⟨[], units, rfl, rfl, accepted⟩
  | cons expected more ih =>
    cases units with
    | nil => cases accepted
    | cons unit rest =>
      simp only [List.cons_append, matchUnits, Bool.and_eq_true] at accepted
      obtain ⟨front, back, rfl, starts, ends⟩ := ih accepted.2
      exact ⟨unit :: front, back, rfl, by rw [matchUnits, accepted.1, starts]; rfl, ends⟩

private theorem hex_of_matchUnits {count : Nat} {units : List UInt16}
    (accepted : matchUnits (List.replicate count .hex) units = true) :
    units.length = count ∧ ∀ unit ∈ units, Hex.isDigit unit = true := by
  induction count generalizing units with
  | zero =>
    cases units with
    | nil => exact ⟨rfl, by simp⟩
    | cons unit rest => cases accepted
  | succ count ih =>
    cases units with
    | nil => cases accepted
    | cons unit rest =>
      simp only [List.replicate_succ, matchUnits, Bool.and_eq_true] at accepted
      obtain ⟨length, digits⟩ := ih accepted.2
      exact ⟨congrArg (· + 1) length, List.forall_mem_cons.mpr ⟨accepted.1, digits⟩⟩

private theorem dash_of_matchUnits {units : List UInt16} (accepted : matchUnits [.dash] units = true) :
    units = [0x2D] := by
  cases units with
  | nil => cases accepted
  | cons unit rest =>
    simp only [matchUnits, Bool.and_eq_true] at accepted
    cases rest with
    | nil => rw [beq_iff_eq.mp accepted.1]
    | cons _ _ => cases accepted.2

private theorem variant_of_matchUnits {units : List UInt16}
    (accepted : matchUnits [.dash, .variant] units = true) :
    ∃ variant, units = [0x2D, variant] ∧ Hex.isDigit variant = true := by
  cases units with
  | nil => cases accepted
  | cons unit rest =>
    simp only [matchUnits, Bool.and_eq_true] at accepted
    cases rest with
    | nil => cases accepted.2
    | cons variant rest =>
      simp only [matchUnits, Bool.and_eq_true] at accepted
      cases rest with
      | nil =>
        refine ⟨variant, by rw [beq_iff_eq.mp accepted.1], ?_⟩
        have variants := accepted.2.1
        simp only [UnitClass.accepts, Bool.or_eq_true, beq_iff_eq] at variants
        rcases variants with ((rfl | rfl) | rfl) | rfl <;> rfl
      | cons _ _ => cases accepted.2.2

/-- An identifier is five runs of digits. -/
theorem ID.fields (id : ID) : ∃ first second third fourth fifth, id.text.units =
      first ++ 0x2D :: (second ++ 0x2D :: (third ++ 0x2D :: (fourth ++ 0x2D :: fifth))) ∧
    (first.length = 8 ∧ second.length = 4 ∧ third.length = 4 ∧ fourth.length = 4 ∧
      fifth.length = 12) ∧
    ∀ unit ∈ first ++ second ++ third ++ fourth ++ fifth, Hex.isDigit unit = true := by
  have accepted : matchUnits canonicalPattern id.text.units = true := id.canonical
  obtain ⟨units, fifth, whole, accepted, last⟩ := matchUnits_split accepted
  obtain ⟨units, dash, rfl, accepted, fourthMark⟩ := matchUnits_split accepted
  obtain ⟨units, tail, rfl, accepted, tailDigits⟩ := matchUnits_split accepted
  obtain ⟨units, mark, rfl, accepted, variants⟩ := matchUnits_split accepted
  obtain ⟨units, third, rfl, accepted, thirdDigits⟩ := matchUnits_split accepted
  obtain ⟨units, secondMark, rfl, accepted, second⟩ := matchUnits_split accepted
  obtain ⟨units, secondRun, rfl, accepted, secondDigits⟩ := matchUnits_split accepted
  obtain ⟨first, firstMark, rfl, firstDigits, start⟩ := matchUnits_split accepted
  obtain ⟨variant, rfl, variantDigit⟩ := variant_of_matchUnits variants
  cases dash_of_matchUnits fourthMark
  cases dash_of_matchUnits second
  cases dash_of_matchUnits start
  obtain ⟨firstLength, first'⟩ := hex_of_matchUnits firstDigits
  obtain ⟨secondLength, second'⟩ := hex_of_matchUnits secondDigits
  obtain ⟨thirdLength, third'⟩ := hex_of_matchUnits thirdDigits
  obtain ⟨tailLength, tail'⟩ := hex_of_matchUnits tailDigits
  obtain ⟨lastLength, last'⟩ := hex_of_matchUnits last
  refine ⟨first, secondRun, third, variant :: tail, fifth, ?_, ⟨firstLength, secondLength,
    thirdLength, congrArg (· + 1) tailLength, lastLength⟩, ?_⟩
  · rw [whole]
    simp
  · simp only [List.forall_mem_append, List.forall_mem_cons]
    exact ⟨⟨⟨⟨first', second'⟩, third'⟩, variantDigit, tail'⟩, last'⟩

private def numberedText (digit : Fin 10) : JsString :=
  ⟨(js "0190a0b0-c0d0-7000-8000-00000000000").units ++ [0x30 + digit.val.toUInt16]⟩

private theorem numberedText_canonical (digit : Fin 10) :
    (numberedText digit).isCanonicalId = true := by
  revert digit
  decide

/-- Fixed identifiers for concrete runs, by their last digit. -/
def ID.numbered (number : Nat) : ID where
  text := numberedText ⟨number % 10, Nat.mod_lt number (by decide)⟩
  canonical := numberedText_canonical _

end N2FNest.Shared
