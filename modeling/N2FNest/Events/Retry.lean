import Mathlib.Data.Rat.Floor
import Mathlib.Tactic.NormNum
import N2FNest.Lib.Backoff
import N2FNest.Shared.Failure

/-! The retry schedule of event delivery. -/

namespace N2FNest.Events

open Lib

structure RetryPolicy where
  maxAttempts : Nat
  baseMs : Rat
  maxMs : Rat

def DEFAULT_RETRY : RetryPolicy := ⟨12, 500, 5 * 60 * 1000⟩

/-- A draw of `Math.random()`. The closed end stands for draws that a double
rounds up to the ceiling. -/
abbrev Draw := {draw : Rat // 0 ≤ draw ∧ draw ≤ 1}

/-- Delay before retrying after failed attempt number `attempt` (1-based), with
equal jitter. -/
def retryDelay (policy : RetryPolicy) (attempt : Nat) (draw : Draw) : Int :=
  let exponent := min (attempt - 1) 30
  let ceiling := min policy.maxMs (policy.baseMs * 2 ^ exponent)
  (ceiling / 2 + draw.val * (ceiling / 2)).floor

/-- Whether failed attempt number `attempt` exhausts the policy. -/
def exhausted (policy : RetryPolicy) (attempt : Nat) : Bool := policy.maxAttempts ≤ attempt

/-- A delay travels as a PostgreSQL `integer`. -/
def fitsInteger (value : Int) : Bool := -2147483648 ≤ value && value ≤ 2147483647

/-- The delays of a policy all fit. -/
structure RetryPolicy.Sendable (policy : RetryPolicy) : Prop where
  base : 0 ≤ policy.baseMs
  least : 0 ≤ policy.maxMs
  most : policy.maxMs ≤ 2147483647

theorem DEFAULT_RETRY.sendable : DEFAULT_RETRY.Sendable where
  base := by norm_num [DEFAULT_RETRY]
  least := by norm_num [DEFAULT_RETRY]
  most := by norm_num [DEFAULT_RETRY]

namespace RetryPolicy

variable {policy : RetryPolicy}

def ceiling (policy : RetryPolicy) (attempt : Nat) : Rat :=
  min policy.maxMs (policy.baseMs * 2 ^ min (attempt - 1) 30)

/-- The schedule behind the delays. The first attempt is its step zero. -/
def backoff (policy : RetryPolicy) (base : 0 ≤ policy.baseMs) (least : 0 ≤ policy.maxMs) :
    Backoff Rat where
  base := policy.baseMs
  ratio := 2
  limit := policy.maxMs
  clamp := 30
  base_nonneg := base
  one_le_ratio := by norm_num
  limit_nonneg := least

theorem ceiling_eq (base : 0 ≤ policy.baseMs) (least : 0 ≤ policy.maxMs) (attempt : Nat) :
    policy.ceiling attempt = (policy.backoff base least).ceiling (attempt - 1) := rfl

theorem retryDelay_eq (base : 0 ≤ policy.baseMs) (least : 0 ≤ policy.maxMs) (attempt : Nat)
    (draw : Draw) :
    retryDelay policy attempt draw = (policy.backoff base least).delay (attempt - 1) draw.val := rfl

theorem half_le_retryDelay (base : 0 ≤ policy.baseMs) (least : 0 ≤ policy.maxMs) (attempt : Nat)
    (draw : Draw) : ⌊policy.ceiling attempt / 2⌋ ≤ retryDelay policy attempt draw := by
  rw [ceiling_eq base least, retryDelay_eq base least]
  exact (policy.backoff base least).half_le_delay _ draw.property.1

theorem retryDelay_nonneg (base : 0 ≤ policy.baseMs) (least : 0 ≤ policy.maxMs) (attempt : Nat)
    (draw : Draw) : 0 ≤ retryDelay policy attempt draw := by
  rw [retryDelay_eq base least]
  exact (policy.backoff base least).delay_nonneg _ draw.property.1

theorem retryDelay_le_ceiling (base : 0 ≤ policy.baseMs) (least : 0 ≤ policy.maxMs) (attempt : Nat)
    (draw : Draw) : (retryDelay policy attempt draw : Rat) ≤ policy.ceiling attempt := by
  rw [ceiling_eq base least, retryDelay_eq base least]
  exact (policy.backoff base least).delay_le_ceiling _ draw.property.2

theorem ceiling_le_maxMs (attempt : Nat) : policy.ceiling attempt ≤ policy.maxMs := min_le_left _ _

theorem retryDelay_fits (base : 0 ≤ policy.baseMs) (least : 0 ≤ policy.maxMs)
    (below : policy.maxMs < 2147483648) (attempt : Nat) (draw : Draw) :
    fitsInteger (retryDelay policy attempt draw) = true := by
  have lower := retryDelay_nonneg base least attempt draw
  have upper : (retryDelay policy attempt draw : Rat) < 2147483648 :=
    calc (retryDelay policy attempt draw : Rat)
        ≤ policy.ceiling attempt := retryDelay_le_ceiling base least attempt draw
      _ ≤ policy.maxMs := ceiling_le_maxMs attempt
      _ < 2147483648 := below
  have whole : retryDelay policy attempt draw < 2147483648 := by exact_mod_cast upper
  simp only [fitsInteger, Bool.and_eq_true, decide_eq_true_eq]
  omega

theorem Sendable.retryDelay (sendable : policy.Sendable) (attempt : Nat) (draw : Draw) :
    fitsInteger (retryDelay policy attempt draw) = true := by
  have below : policy.maxMs < 2147483648 := sendable.most.trans_lt (by norm_num)
  exact retryDelay_fits sendable.base sendable.least below attempt draw

end RetryPolicy

end N2FNest.Events
