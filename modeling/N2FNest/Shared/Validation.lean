import N2FNest.Lib.Decimal
import N2FNest.Lib.Result
import N2FNest.Shared.Failure
import N2FNest.Shared.Number

/-! Checks on input that arrives as text. -/

namespace N2FNest.Shared.Validation

open Lib

def invalid (code : String) : Failure := failure .invalid "invalid input" ("validation." ++ code)

/-- The pattern `/^(0|[1-9][0-9]*)$/`. -/
def isDecimal : List UInt16 → Bool
  | [] => false
  | first :: rest =>
    (first == 0x30 && rest.isEmpty) ||
      (0x31 ≤ first && first ≤ 0x39 && rest.all Decimal.isDigit)

/-- A decimal natural number between two bounds. Ten digits at most, so `Number`
gives it exactly. -/
def decimal (value : JsValue) (least most : JsNumber) : Except Failure Nat :=
  match least.safeNat?, most.safeNat? with
  | some least, some most =>
    if most < least ∨ 2147483647 < most then .error (invalid "policy")
    else match value with
      | .string text =>
        if 10 < text.length ∨ isDecimal text.units = false then .error (invalid "decimal")
        else
          let number := Decimal.natural text.units
          if number < least ∨ most < number then .error (invalid "decimal") else .ok number
      | _ => .error (invalid "decimal")
  | _, _ => .error (invalid "policy")

/-- What is accepted lies within the bounds. -/
theorem decimal_ok {value : JsValue} {least most : Nat} {number : Nat}
    (accepted : decimal value (.ofNat least) (.ofNat most) = .ok number)
    (safe : least ≤ most) (fits : most ≤ 2147483647) : least ≤ number ∧ number ≤ most := by
  rw [decimal, JsNumber.safeNat?_ofNat (by omega), JsNumber.safeNat?_ofNat (by omega)] at accepted
  obtain ⟨_, accepted⟩ := refuse_ok.mp accepted
  cases value with
  | string text =>
    obtain ⟨_, accepted⟩ := refuse_ok.mp accepted
    obtain ⟨inside, same⟩ := refuse_ok.mp accepted
    cases Except.ok.inj same
    omega
  | _ => cases accepted

end N2FNest.Shared.Validation
