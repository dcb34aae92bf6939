import Mathlib.Algebra.Order.Floor.Ring
import Mathlib.Algebra.Order.Ring.Pow
import Mathlib.Tactic.Linarith

/-! Delays under a ceiling that grows geometrically up to a limit. Each delay is
drawn from the upper half of its ceiling and rounded down. -/

namespace N2FNest.Lib

universe u

/-- The growth ends after `clamp` steps if it has not met the limit. -/
structure Backoff (Scalar : Type u) [Field Scalar] [LinearOrder Scalar] where
  base : Scalar
  ratio : Scalar
  limit : Scalar
  clamp : Nat
  base_nonneg : 0 ≤ base
  one_le_ratio : 1 ≤ ratio
  limit_nonneg : 0 ≤ limit

namespace Backoff

variable {Scalar : Type u} [Field Scalar] [LinearOrder Scalar] (backoff : Backoff Scalar)

def ceiling (step : Nat) : Scalar :=
  min backoff.limit (backoff.base * backoff.ratio ^ min step backoff.clamp)

theorem ceiling_le_limit (step : Nat) : backoff.ceiling step ≤ backoff.limit := min_le_left _ _

variable [IsStrictOrderedRing Scalar]

theorem ceiling_nonneg (step : Nat) : 0 ≤ backoff.ceiling step := by
  have ratio : 0 ≤ backoff.ratio := zero_le_one.trans backoff.one_le_ratio
  exact le_min backoff.limit_nonneg (mul_nonneg backoff.base_nonneg (pow_nonneg ratio _))

theorem half_ceiling_nonneg (step : Nat) : 0 ≤ backoff.ceiling step / 2 :=
  div_nonneg (backoff.ceiling_nonneg step) zero_le_two

theorem ceiling_mono : Monotone backoff.ceiling := by
  intro step later ordered
  have exponents : min step backoff.clamp ≤ min later backoff.clamp :=
    min_le_min_right backoff.clamp ordered
  have powers := pow_le_pow_right₀ backoff.one_le_ratio exponents
  exact min_le_min_left _ (mul_le_mul_of_nonneg_left powers backoff.base_nonneg)

/-- A ceiling at the limit stays there. -/
theorem ceiling_settled {step later : Nat} (reached : backoff.ceiling step = backoff.limit)
    (ordered : step ≤ later) : backoff.ceiling later = backoff.limit := by
  apply le_antisymm (backoff.ceiling_le_limit later)
  rw [← reached]
  exact backoff.ceiling_mono ordered

variable [FloorRing Scalar] {draw : Scalar}

/-- Half the ceiling, and the drawn part of the other half. -/
def delay (step : Nat) (draw : Scalar) : Int :=
  ⌊backoff.ceiling step / 2 + draw * (backoff.ceiling step / 2)⌋

theorem half_le_delay (step : Nat) (nonneg : 0 ≤ draw) :
    ⌊backoff.ceiling step / 2⌋ ≤ backoff.delay step draw := by
  apply Int.floor_mono
  have jitter : 0 ≤ draw * (backoff.ceiling step / 2) :=
    mul_nonneg nonneg (backoff.half_ceiling_nonneg step)
  linarith

theorem delay_nonneg (step : Nat) (nonneg : 0 ≤ draw) : 0 ≤ backoff.delay step draw :=
  (Int.floor_nonneg.mpr (backoff.half_ceiling_nonneg step)).trans (backoff.half_le_delay step nonneg)

theorem delay_le_ceiling (step : Nat) (atMost : draw ≤ 1) :
    (backoff.delay step draw : Scalar) ≤ backoff.ceiling step := by
  have jitter : draw * (backoff.ceiling step / 2) ≤ 1 * (backoff.ceiling step / 2) :=
    mul_le_mul_of_nonneg_right atMost (backoff.half_ceiling_nonneg step)
  calc (backoff.delay step draw : Scalar)
      ≤ backoff.ceiling step / 2 + draw * (backoff.ceiling step / 2) := Int.floor_le _
    _ ≤ backoff.ceiling step := by linarith

/-- The same draw never yields a shorter delay later. -/
theorem delay_mono (nonneg : 0 ≤ draw) {step later : Nat} (ordered : step ≤ later) :
    backoff.delay step draw ≤ backoff.delay later draw := by
  apply Int.floor_mono
  have halves : backoff.ceiling step / 2 ≤ backoff.ceiling later / 2 :=
    div_le_div_of_nonneg_right (backoff.ceiling_mono ordered) zero_le_two
  exact add_le_add halves (mul_le_mul_of_nonneg_left halves nonneg)

end Backoff

end N2FNest.Lib
