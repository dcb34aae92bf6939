import Mathlib.Algebra.Order.Floor.Ring
import Mathlib.Data.Int.Log
import Mathlib.Data.Rat.Floor
import Mathlib.Tactic.Linarith
import Mathlib.Tactic.NormNum
import Mathlib.Tactic.Positivity
import Mathlib.Tactic.Ring

/-! Rounding exact numbers to IEEE 754 doubles, to the nearest and on a tie to
the even one. The value is the rational the double stands for. -/

namespace N2FNest.Lib.Binary64

/-- The nearest integer, a tie going to the even one. -/
def nearestEven (value : ℚ) : ℤ :=
  if value - ⌊value⌋ < 1 / 2 then ⌊value⌋
  else if 1 / 2 < value - ⌊value⌋ then ⌊value⌋ + 1
  else if ⌊value⌋ % 2 = 0 then ⌊value⌋ else ⌊value⌋ + 1

/-- The weight of the last place of a double near `value`; subnormals share the least one. -/
def lastPlace (value : ℚ) : ℚ := 2 ^ max (-1074) (Int.log 2 |value| - 52)

/-- The double nearest to `value`, with no bound on its exponent. -/
def round (value : ℚ) : ℚ := nearestEven (value / lastPlace value) * lastPlace value

/-- A rounded magnitude of this size or more is an infinity. -/
def overflow : ℚ := 2 ^ 1024

@[simp] theorem nearestEven_intCast (value : ℤ) : nearestEven value = value := by
  simp [nearestEven]

private theorem nearestEven_cases (value : ℚ) :
    nearestEven value = ⌊value⌋ ∨ nearestEven value = ⌊value⌋ + 1 ∧ (⌊value⌋ : ℚ) < value := by
  unfold nearestEven
  split
  · exact .inl rfl
  · rename_i half
    have above : (⌊value⌋ : ℚ) < value := by linarith
    split
    · exact .inr ⟨rfl, above⟩
    · split
      · exact .inl rfl
      · exact .inr ⟨rfl, above⟩

theorem le_nearestEven (bound : ℤ) {value : ℚ} (below : (bound : ℚ) ≤ value) :
    bound ≤ nearestEven value := by
  have floored := Int.le_floor.mpr below
  rcases nearestEven_cases value with same | ⟨same, _⟩ <;> omega

theorem nearestEven_le (bound : ℤ) {value : ℚ} (above : value ≤ (bound : ℚ)) :
    nearestEven value ≤ bound := by
  rcases nearestEven_cases value with same | ⟨same, strict⟩
  · have floored : (⌊value⌋ : ℚ) ≤ bound := (Int.floor_le value).trans above
    rw [same]
    exact_mod_cast floored
  · have floored : (⌊value⌋ : ℚ) < bound := strict.trans_le above
    have less : ⌊value⌋ < bound := by exact_mod_cast floored
    omega

theorem lastPlace_pos (value : ℚ) : 0 < lastPlace value := zpow_pos (by norm_num) _

private theorem log_lt {value : ℚ} (small : |value| < 2 ^ 53) : Int.log 2 |value| < 53 := by
  rcases (abs_nonneg value).eq_or_lt with zero | positive
  · rw [← zero, Int.log_zero_right]
    decide
  · refine (Int.lt_zpow_iff_log_lt (by decide : 1 < 2) positive).mp ?_
    exact_mod_cast small

/-- Every integer of at most 53 bits is a double. -/
theorem round_intCast {value : ℤ} (small : |(value : ℚ)| < 2 ^ 53) : round value = value := by
  have place : max (-1074) (Int.log 2 |(value : ℚ)| - 52) ≤ 0 := by
    have := log_lt small
    omega
  obtain ⟨shift, same⟩ := Int.eq_ofNat_of_zero_le (Int.neg_nonneg_of_nonpos place)
  have inverse : lastPlace value = ((2 : ℚ) ^ shift)⁻¹ := by
    rw [lastPlace, ← neg_neg (max _ _), same, zpow_neg, zpow_natCast]
  have scaled : (value : ℚ) / lastPlace value = ((value * 2 ^ shift : ℤ) : ℚ) := by
    rw [inverse, div_inv_eq_mul]
    push_cast
    rfl
  rw [round, scaled, nearestEven_intCast, ← scaled, div_mul_cancel₀ _ (lastPlace_pos _).ne']

private theorem place_large {value : ℚ} (large : 2 ^ 53 ≤ |value|) :
    2 ^ 52 * lastPlace value ≤ |value| ∧ (2 : ℚ) ^ 53 ≤ 2 ^ 52 * lastPlace value := by
  have positive : 0 < |value| := lt_of_lt_of_le (by norm_num) large
  have exponent : (53 : ℤ) ≤ Int.log 2 |value| := by
    refine (Int.zpow_le_iff_le_log (by decide : 1 < 2) positive).mp ?_
    exact_mod_cast large
  have place : max (-1074) (Int.log 2 |value| - 52) = Int.log 2 |value| - 52 := by omega
  have scale : (2 : ℚ) ^ 52 * lastPlace value = 2 ^ Int.log 2 |value| := by
    rw [lastPlace, place, ← zpow_natCast, ← zpow_add₀ (by norm_num)]
    congr 1
    omega
  rw [scale]
  constructor
  · exact_mod_cast Int.zpow_log_le_self (by decide : 1 < 2) positive
  · calc (2 : ℚ) ^ 53 = 2 ^ (53 : ℤ) := by norm_cast
      _ ≤ 2 ^ Int.log 2 |value| := zpow_le_zpow_right₀ (by norm_num) exponent

/-- A magnitude past 53 bits never rounds below it. -/
theorem le_round {value : ℚ} (large : 2 ^ 53 ≤ |value|) : 2 ^ 53 ≤ |round value| := by
  obtain ⟨reached, bound⟩ := place_large large
  have positive := lastPlace_pos value
  refine bound.trans ?_
  rw [round, abs_mul, abs_of_pos positive]
  refine mul_le_mul_of_nonneg_right ?_ positive.le
  have digits : (2 : ℚ) ^ 52 ≤ |value / lastPlace value| := by
    rw [abs_div, abs_of_pos positive, le_div_iff₀ positive]
    exact reached
  rcases le_abs.mp digits with above | below
  · have rounded := le_nearestEven (2 ^ 52) (by exact_mod_cast above)
    exact le_abs.mpr (.inl (by exact_mod_cast rounded))
  · have rounded := nearestEven_le (-2 ^ 52)
      (by push_cast; linarith)
    refine le_abs.mpr (.inr ?_)
    have : (2 : ℤ) ^ 52 ≤ -nearestEven (value / lastPlace value) := by linarith
    exact_mod_cast this

/-- A double of at most 53 bits is the rounding of no other integer. -/
theorem round_inj {value other : ℤ} (small : |(other : ℚ)| < 2 ^ 53)
    (same : round value = other) : value = other := by
  by_cases exact : |(value : ℚ)| < 2 ^ 53
  · rw [round_intCast exact] at same
    exact_mod_cast same
  · have large := le_round (not_lt.mp exact)
    rw [same] at large
    exact absurd small (not_lt.mpr large)

theorem round_nonneg {value : ℚ} (positive : 0 ≤ value) : 0 ≤ round value := by
  have scaled : ((0 : ℤ) : ℚ) ≤ value / lastPlace value := by
    rw [Int.cast_zero]
    exact div_nonneg positive (lastPlace_pos value).le
  have rounded : (0 : ℚ) ≤ nearestEven (value / lastPlace value) := by
    exact_mod_cast le_nearestEven 0 scaled
  exact mul_nonneg rounded (lastPlace_pos value).le

theorem round_nonpos {value : ℚ} (negative : value ≤ 0) : round value ≤ 0 := by
  have scaled : value / lastPlace value ≤ ((0 : ℤ) : ℚ) := by
    rw [Int.cast_zero]
    exact div_nonpos_of_nonpos_of_nonneg negative (lastPlace_pos value).le
  have rounded : (nearestEven (value / lastPlace value) : ℚ) ≤ 0 := by
    exact_mod_cast nearestEven_le 0 scaled
  exact mul_nonpos_of_nonpos_of_nonneg rounded (lastPlace_pos value).le

/-- Rounding an integer keeps its sign. -/
theorem round_pos_iff {value : ℤ} : 0 < round value ↔ 0 < value := by
  constructor
  · intro above
    by_contra below
    have negative : (value : ℚ) ≤ 0 := by exact_mod_cast not_lt.mp below
    exact absurd above (not_lt.mpr (round_nonpos negative))
  · intro positive
    have rounded : 0 ≤ round (value : ℚ) := round_nonneg (by exact_mod_cast positive.le)
    refine rounded.lt_of_ne fun zero => ?_
    have same : value = 0 := round_inj (by simp) (by rw [← zero, Int.cast_zero])
    exact absurd same positive.ne'

private theorem nearestEven_error (value : ℚ) : |nearestEven value - value| ≤ 1 / 2 := by
  have floored := Int.floor_le value
  have above := Int.lt_floor_add_one value
  unfold nearestEven
  split
  · rw [abs_le]
    constructor <;> linarith
  · split
    · push_cast
      rw [abs_le]
      constructor <;> linarith
    · split
      · rw [abs_le]
        constructor <;> linarith
      · push_cast
        rw [abs_le]
        constructor <;> linarith

/-- Rounding moves a value by half a unit in the last place at most. -/
theorem round_error (value : ℚ) : |round value - value| ≤ lastPlace value / 2 := by
  have positive := lastPlace_pos value
  have scaled : round value - value =
      (nearestEven (value / lastPlace value) - value / lastPlace value) * lastPlace value := by
    rw [round, sub_mul, div_mul_cancel₀ _ positive.ne']
  rw [scaled, abs_mul, abs_of_pos positive]
  calc |nearestEven (value / lastPlace value) - value / lastPlace value| * lastPlace value
      ≤ 1 / 2 * lastPlace value :=
        mul_le_mul_of_nonneg_right (nearestEven_error _) positive.le
    _ = lastPlace value / 2 := by ring

/-- A value that is no subnormal spans at least 52 bits of last places. -/
theorem lastPlace_le {value : ℚ} (normal : 2 ^ (-1022 : ℤ) ≤ |value|) :
    2 ^ 52 * lastPlace value ≤ |value| := by
  have positive : 0 < |value| := lt_of_lt_of_le (zpow_pos (by norm_num) _) normal
  have exponent : (-1022 : ℤ) ≤ Int.log 2 |value| :=
    (Int.zpow_le_iff_le_log (by decide : 1 < 2) positive).mp (by exact_mod_cast normal)
  have place : max (-1074) (Int.log 2 |value| - 52) = Int.log 2 |value| - 52 := by omega
  have scale : (2 : ℚ) ^ 52 * lastPlace value = 2 ^ Int.log 2 |value| := by
    rw [lastPlace, place, ← zpow_natCast, ← zpow_add₀ (by norm_num)]
    congr 1
    omega
  rw [scale]
  exact_mod_cast Int.zpow_log_le_self (by decide : 1 < 2) positive

/-- The quotient of two integers below 2^53 rounds to the right side of every
integer, so its floor is the integer quotient. -/
theorem floor_round_div {value divisor : ℕ} (positive : 0 < divisor) (small : value < 2 ^ 53)
    (narrow : divisor < 2 ^ 53) :
    ⌊round ((value : ℚ) / divisor)⌋ = ((value / divisor : ℕ) : ℤ) := by
  have divisorPos : (0 : ℚ) < divisor := by exact_mod_cast positive
  have quotient : (value : ℚ) = divisor * (value / divisor : ℕ) + (value % divisor : ℕ) := by
    exact_mod_cast (Nat.div_add_mod value divisor).symm
  have short : value / divisor < 2 ^ 53 := (Nat.div_le_self value divisor).trans_lt small
  by_cases exact : value % divisor = 0
  · have whole : (value : ℚ) / divisor = ((value / divisor : ℕ) : ℤ) := by
      rw [exact, Nat.cast_zero, add_zero] at quotient
      rw [div_eq_iff divisorPos.ne', Int.cast_natCast, mul_comm]
      exact quotient
    have bounded : |(((value / divisor : ℕ) : ℤ) : ℚ)| < 2 ^ 53 := by
      rw [Int.cast_natCast, abs_of_nonneg (Nat.cast_nonneg _)]
      exact_mod_cast short
    rw [whole, round_intCast bounded, Int.floor_intCast]
  · have remainder : 1 ≤ value % divisor := Nat.one_le_iff_ne_zero.mpr exact
    have less : value % divisor + 1 ≤ divisor := Nat.mod_lt value positive
    have lower : ((value / divisor : ℕ) : ℚ) + 1 / divisor ≤ (value : ℚ) / divisor := by
      rw [le_div_iff₀ divisorPos, add_mul, div_mul_cancel₀ _ divisorPos.ne', mul_comm]
      have cast : (1 : ℚ) ≤ (value % divisor : ℕ) := by exact_mod_cast remainder
      linarith
    have upper : (value : ℚ) / divisor ≤ ((value / divisor : ℕ) : ℚ) + 1 - 1 / divisor := by
      rw [div_le_iff₀ divisorPos, sub_mul, add_mul, div_mul_cancel₀ _ divisorPos.ne', mul_comm]
      have cast : ((value % divisor : ℕ) : ℚ) + 1 ≤ divisor := by exact_mod_cast less
      linarith
    -- half a unit in the last place of the quotient is less than the distance to an integer
    have error : |round ((value : ℚ) / divisor) - value / divisor| < 1 / divisor := by
      have nonneg : (0 : ℚ) ≤ value / divisor := by positivity
      have one : (1 : ℚ) / divisor ≤ (value : ℚ) / divisor := by
        have reached : (1 : ℚ) ≤ value := by
          have : 1 ≤ value := remainder.trans (Nat.mod_le value divisor)
          exact_mod_cast this
        exact div_le_div_of_nonneg_right reached divisorPos.le
      have normal : (2 : ℚ) ^ (-1022 : ℤ) ≤ |(value : ℚ) / divisor| := by
        rw [abs_of_nonneg nonneg]
        refine le_trans ?_ one
        rw [le_div_iff₀ divisorPos]
        have wide : (divisor : ℚ) ≤ 2 ^ 53 := by exact_mod_cast narrow.le
        calc (2 : ℚ) ^ (-1022 : ℤ) * divisor ≤ 2 ^ (-1022 : ℤ) * 2 ^ 53 :=
              mul_le_mul_of_nonneg_left wide (zpow_pos (by norm_num) _).le
          _ = 2 ^ (-969 : ℤ) := by
            rw [← zpow_natCast, ← zpow_add₀ (by norm_num)]
            rfl
          _ ≤ 1 := zpow_le_one_of_nonpos₀ (by norm_num) (by decide)
      have place := lastPlace_le normal
      rw [abs_of_nonneg nonneg] at place
      have half := round_error ((value : ℚ) / divisor)
      have cast : (value : ℚ) < 2 ^ 53 := by exact_mod_cast small
      have shrunk : (value : ℚ) / divisor < 2 ^ 53 * (1 / divisor) := by
        rw [mul_one_div]
        exact div_lt_div_of_pos_right cast divisorPos
      calc |round ((value : ℚ) / divisor) - value / divisor|
          ≤ lastPlace ((value : ℚ) / divisor) / 2 := half
        _ < 1 / divisor := by linarith
    rw [Int.floor_eq_iff]
    obtain ⟨below, above⟩ := abs_lt.mp error
    rw [Int.cast_natCast]
    constructor
    · linarith
    · linarith

private theorem round_zero : round 0 = 0 := by
  have zero : round ((0 : ℤ) : ℚ) = ((0 : ℤ) : ℚ) := round_intCast (by norm_num)
  rwa [Int.cast_zero] at zero

private theorem round_scaled_of_lt {mantissa exponent : ℤ} (fits : |mantissa| < 2 ^ 53)
    (least : -1074 ≤ exponent) :
    round (mantissa * 2 ^ exponent) = mantissa * 2 ^ exponent := by
  by_cases zero : mantissa = 0
  · rw [zero, Int.cast_zero, zero_mul, round_zero]
  have scale : (0 : ℚ) < 2 ^ exponent := zpow_pos (by norm_num) exponent
  have magnitude : |(mantissa : ℚ) * 2 ^ exponent| = |(mantissa : ℚ)| * 2 ^ exponent := by
    rw [abs_mul, abs_of_pos scale]
  have positive : 0 < |(mantissa : ℚ) * 2 ^ exponent| :=
    abs_pos.mpr (mul_ne_zero (by exact_mod_cast zero) scale.ne')
  have bound : |(mantissa : ℚ) * 2 ^ exponent| < 2 ^ (53 + exponent) := by
    rw [magnitude, zpow_add₀ (by norm_num)]
    refine mul_lt_mul_of_pos_right ?_ scale
    exact_mod_cast fits
  have log : Int.log 2 |(mantissa : ℚ) * 2 ^ exponent| < 53 + exponent :=
    (Int.lt_zpow_iff_log_lt (by decide : 1 < 2) positive).mp (by exact_mod_cast bound)
  have place : max (-1074) (Int.log 2 |(mantissa : ℚ) * 2 ^ exponent| - 52) ≤ exponent := by omega
  obtain ⟨shift, same⟩ := Int.eq_ofNat_of_zero_le (Int.sub_nonneg.mpr place)
  have factor : (2 : ℚ) ^ exponent = 2 ^ shift * lastPlace (mantissa * 2 ^ exponent) := by
    rw [lastPlace, ← zpow_natCast, ← zpow_add₀ (by norm_num)]
    congr 1
    omega
  have scaled : (mantissa : ℚ) * 2 ^ exponent / lastPlace (mantissa * 2 ^ exponent) =
      ((mantissa * 2 ^ shift : ℤ) : ℚ) := by
    rw [div_eq_iff (lastPlace_pos _).ne']
    push_cast
    rw [mul_assoc, ← factor]
  rw [round, scaled, nearestEven_intCast, ← scaled, div_mul_cancel₀ _ (lastPlace_pos _).ne']

/-- A mantissa of 53 bits above the least place is a double. -/
theorem round_scaled {mantissa exponent : ℤ} (fits : |mantissa| ≤ 2 ^ 53)
    (least : -1074 ≤ exponent) :
    round (mantissa * 2 ^ exponent) = mantissa * 2 ^ exponent := by
  rcases fits.lt_or_eq with less | full
  · exact round_scaled_of_lt less least
  · -- a mantissa of 2^53 is one of 2^52 a place higher
    obtain ⟨half, same⟩ : ∃ half : ℤ, mantissa = half * 2 ∧ |half| < 2 ^ 53 := by
      rcases abs_eq (by norm_num) |>.mp full with rfl | rfl
      · exact ⟨2 ^ 52, by norm_num, by norm_num⟩
      · exact ⟨-2 ^ 52, by norm_num, by norm_num⟩
    have shifted : (mantissa : ℚ) * 2 ^ exponent = half * 2 ^ (exponent + 1) := by
      rw [same.1, zpow_add_one₀ (by norm_num)]
      push_cast
      ring
    rw [shifted]
    exact round_scaled_of_lt same.2 (by omega)

/-- What a rounding gives is such a mantissa. -/
theorem round_eq_scaled (value : ℚ) : ∃ mantissa exponent : ℤ, |mantissa| ≤ 2 ^ 53 ∧
    -1074 ≤ exponent ∧ round value = mantissa * 2 ^ exponent := by
  refine ⟨nearestEven (value / lastPlace value), max (-1074) (Int.log 2 |value| - 52), ?_,
    le_max_left _ _, rfl⟩
  have small : |value / lastPlace value| ≤ 2 ^ 53 := by
    rw [abs_div, abs_of_pos (lastPlace_pos value), div_le_iff₀ (lastPlace_pos value)]
    have log : |value| < 2 ^ (Int.log 2 |value| + 1) := by
      exact_mod_cast Int.lt_zpow_succ_log_self (by decide : 1 < 2) |value|
    have wide : (2 : ℚ) ^ (Int.log 2 |value| + 1) ≤ 2 ^ 53 * lastPlace value := by
      rw [lastPlace, ← zpow_natCast, ← zpow_add₀ (by norm_num)]
      exact zpow_le_zpow_right₀ (by norm_num) (by omega)
    exact log.le.trans wide
  obtain ⟨below, above⟩ := abs_le.mp small
  exact abs_le.mpr ⟨le_nearestEven _ (by push_cast; linarith), nearestEven_le _ (by push_cast; linarith)⟩

private theorem scaled_decimal (mantissa : ℤ) {exponent : ℤ} {depth : ℕ}
    (least : -(depth : ℤ) ≤ exponent) :
    ∃ digits : ℤ, (mantissa : ℚ) * 2 ^ exponent * 10 ^ (depth : ℤ) = digits := by
  obtain ⟨shift, place⟩ := Int.eq_ofNat_of_zero_le (by omega : 0 ≤ exponent + depth)
  refine ⟨mantissa * 2 ^ shift * 5 ^ depth, ?_⟩
  have factors : (10 : ℚ) ^ (depth : ℤ) = 2 ^ (depth : ℤ) * 5 ^ (depth : ℤ) := by
    rw [← mul_zpow]
    norm_num
  have power : (2 : ℚ) ^ exponent * 2 ^ (depth : ℤ) = 2 ^ shift := by
    rw [← zpow_add₀ (by norm_num), place]
    exact zpow_natCast 2 shift
  calc (mantissa : ℚ) * 2 ^ exponent * 10 ^ (depth : ℤ)
      = mantissa * (2 ^ exponent * 2 ^ (depth : ℤ)) * 5 ^ (depth : ℤ) := by
        rw [factors]
        ring
    _ = ((mantissa * 2 ^ shift * 5 ^ depth : ℤ) : ℚ) := by
        rw [power, zpow_natCast]
        push_cast
        rfl

/-- A double has a finite decimal expansion. -/
theorem exact_decimal (value : ℚ) : ∃ digits : ℤ, round value * 10 ^ (1074 : ℤ) = digits := by
  obtain ⟨mantissa, exponent, -, least, same⟩ := round_eq_scaled value
  rw [same]
  exact scaled_decimal mantissa least

private theorem nearestEven_neg (value : ℚ) : nearestEven (-value) = -nearestEven value := by
  by_cases whole : (⌊value⌋ : ℚ) = value
  · rw [← whole, nearestEven_intCast, ← Int.cast_neg, nearestEven_intCast]
  · have below : (⌊value⌋ : ℚ) < value := lt_of_le_of_ne (Int.floor_le value) whole
    have above := Int.lt_floor_add_one value
    have floor : ⌊-value⌋ = -⌊value⌋ - 1 := by
      rw [Int.floor_eq_iff]
      push_cast
      constructor <;> linarith
    have half : (-⌊value⌋ - 1) % 2 = 0 ↔ ¬⌊value⌋ % 2 = 0 := by omega
    simp only [nearestEven, floor, half]
    push_cast
    split_ifs <;> first | omega | linarith

theorem round_neg (value : ℚ) : round (-value) = -round value := by
  rw [round, lastPlace, abs_neg, ← lastPlace, neg_div, nearestEven_neg, round]
  push_cast
  ring

theorem round_round (value : ℚ) : round (round value) = round value := by
  obtain ⟨mantissa, exponent, fits, least, same⟩ := round_eq_scaled value
  rw [same, round_scaled fits least]

end N2FNest.Lib.Binary64
