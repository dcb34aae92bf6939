import N2FNest.Lib.Binary64
import N2FNest.Shared.Value

/-! Conversions to JavaScript numbers and comparisons between them. -/

namespace N2FNest.Shared.JsNumber

open Lib

/-- `Number(text)` for a numeral that denotes `value`. -/
def ofRat (value : ℚ) : JsNumber :=
  if |Binary64.round value| < Binary64.overflow then .finite (Binary64.round value)
  else .infinite (value < 0)

/-- The number an integer is, where it is one exactly. -/
def ofInt (value : Int) : JsNumber := .finite value

/-- `Number.isInteger(value)`. -/
def isInteger : JsNumber → Bool
  | .finite value => value.den == 1
  | _ => false

/-- `left <= right`; no comparison with a NaN holds. -/
def atMost : JsNumber → JsNumber → Bool
  | .nan, _ | _, .nan => false
  | .finite left, .finite right => left ≤ right
  | .infinite true, _ | _, .infinite false => true
  | .infinite false, _ | _, .infinite true => false

/-- `left < right`; no comparison with a NaN holds. -/
def below : JsNumber → JsNumber → Bool
  | .nan, _ | _, .nan => false
  | left, right => !atMost right left

/-- `left === right`; a NaN is not equal to itself. -/
def same : JsNumber → JsNumber → Bool
  | .nan, _ => false
  | left, right => left == right

/-- `left + right`. -/
def add : JsNumber → JsNumber → JsNumber
  | .finite left, .finite right => ofRat (left + right)
  | .nan, _ | _, .nan => .nan
  | .infinite left, .infinite right => if left = right then .infinite left else .nan
  | .infinite negative, _ | _, .infinite negative => .infinite negative

/-- `Number.isFinite(value)`. -/
def isFinite : JsNumber → Bool
  | .finite _ => true
  | _ => false

/-- `value > 0`. -/
def isPositive : JsNumber → Bool
  | .nan => false
  | .finite value => 0 < value
  | .infinite negative => !negative

/-- Below 2^53 a conversion gives the integer itself, and no other integer gives it. -/
theorem ofRat_eq_ofInt {value other : Int} (small : |(other : ℚ)| < 2 ^ 53) :
    ofRat value = ofInt other ↔ value = other := by
  constructor
  · intro same
    unfold ofRat at same
    split at same
    · exact Binary64.round_inj small (finite.inj same)
    · cases same
  · rintro rfl
    have fits : |(value : ℚ)| < Binary64.overflow := by
      exact small.trans (pow_lt_pow_right₀ (by norm_num) (by norm_num))
    rw [ofRat, Binary64.round_intCast small, if_pos fits]
    rfl

/-- A conversion keeps the sign of an integer of any size. -/
theorem isPositive_ofRat {value : Int} : (ofRat value).isPositive = decide (0 < value) := by
  unfold ofRat
  split
  · rw [isPositive, decide_eq_decide]
    exact Binary64.round_pos_iff
  · rename_i large
    have nonzero : value ≠ 0 := by
      rintro rfl
      refine large ?_
      rw [Binary64.round_intCast (by simp), Int.cast_zero, abs_zero]
      exact pow_pos (by norm_num) 1024
    rw [isPositive, ← decide_not, decide_eq_decide, not_lt, Int.cast_nonneg_iff]
    omega

theorem safeNat?_some {number : JsNumber} {value : Nat} (safe : number.safeNat? = some value) :
    number = ofNat value ∧ value ≤ 9007199254740991 := by
  cases number with
  | nan => cases safe
  | infinite negative => cases safe
  | finite exact =>
    simp only [safeNat?, Option.ite_none_right_eq_some, Option.some.injEq] at safe
    obtain ⟨⟨whole, positive, small⟩, rfl⟩ := safe
    refine ⟨congrArg finite ?_, small⟩
    have same : (exact.num : ℚ) = exact := (Rat.den_eq_one_iff exact).mp whole
    have lifted : ((exact.num.toNat : ℤ) : ℚ) = exact := by
      rw [Int.toNat_of_nonneg positive, same]
    exact_mod_cast lifted.symm

end N2FNest.Shared.JsNumber
