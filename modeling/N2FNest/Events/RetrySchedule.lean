import Mathlib.Algebra.BigOperators.Ring.Finset
import Mathlib.Algebra.Order.BigOperators.Group.Finset
import Mathlib.Order.Interval.Finset.Nat
import N2FNest.Events.Leases

/-! How long the attempts of a delivery wait, one by one and taken together. -/

namespace N2FNest.Events

open Lib Shared

namespace RetryPolicy

variable {policy : RetryPolicy}

/-- The waiting after the attempts 1 to `count`, with a draw for each. -/
def totalDelay (policy : RetryPolicy) (draws : Nat → Draw) (count : Nat) : Int :=
  ∑ attempt ∈ Finset.Icc 1 count, retryDelay policy attempt (draws attempt)

theorem halves_le_totalDelay (base : 0 ≤ policy.baseMs) (least : 0 ≤ policy.maxMs)
    (draws : Nat → Draw) (count : Nat) :
    ∑ attempt ∈ Finset.Icc 1 count, ⌊policy.ceiling attempt / 2⌋ ≤
      policy.totalDelay draws count := by
  apply Finset.sum_le_sum
  intro attempt _
  exact half_le_retryDelay base least attempt (draws attempt)

theorem totalDelay_le_ceilings (base : 0 ≤ policy.baseMs) (least : 0 ≤ policy.maxMs)
    (draws : Nat → Draw) (count : Nat) :
    (policy.totalDelay draws count : Rat) ≤
      ∑ attempt ∈ Finset.Icc 1 count, policy.ceiling attempt := by
  rw [totalDelay, Int.cast_sum]
  apply Finset.sum_le_sum
  intro attempt _
  exact retryDelay_le_ceiling base least attempt (draws attempt)

/-- Seven to thirteen and a half minutes pass before an event is dead. -/
theorem DEFAULT_RETRY_totalDelay (draws : Nat → Draw) :
    405750 ≤ DEFAULT_RETRY.totalDelay draws (DEFAULT_RETRY.maxAttempts - 1) ∧
      DEFAULT_RETRY.totalDelay draws (DEFAULT_RETRY.maxAttempts - 1) ≤ 811500 := by
  have base := DEFAULT_RETRY.sendable.base
  have least := DEFAULT_RETRY.sendable.least
  have halves : ∑ attempt ∈ Finset.Icc 1 (DEFAULT_RETRY.maxAttempts - 1),
      ⌊DEFAULT_RETRY.ceiling attempt / 2⌋ = 405750 := by decide +kernel
  have ceilings : ∑ attempt ∈ Finset.Icc 1 (DEFAULT_RETRY.maxAttempts - 1),
      DEFAULT_RETRY.ceiling attempt = 811500 := by decide +kernel
  have shortest := halves_le_totalDelay base least draws (DEFAULT_RETRY.maxAttempts - 1)
  have longest := totalDelay_le_ceilings base least draws (DEFAULT_RETRY.maxAttempts - 1)
  rw [halves] at shortest
  rw [ceilings] at longest
  exact ⟨shortest, by exact_mod_cast longest⟩

/-- The schedule of a policy. Its delays are whole milliseconds between half a
ceiling and the ceiling, grow with the ceiling whatever is drawn, and fit the
parameter of the finish statement when the largest ceiling does. -/
structure Scheduled (policy : RetryPolicy) : Prop where
  integral : ∀ attempt draw, ∃ ms : Nat, retryDelay policy attempt draw = ms
  half : ∀ attempt draw, ⌊policy.ceiling attempt / 2⌋ ≤ retryDelay policy attempt draw
  capped : ∀ attempt draw, (retryDelay policy attempt draw : Rat) ≤ policy.ceiling attempt
  limited : ∀ attempt, policy.ceiling attempt ≤ policy.maxMs
  growing : ∀ draw attempt later, attempt ≤ later →
    retryDelay policy attempt draw ≤ retryDelay policy later draw
  settled : ∀ attempt later, policy.ceiling attempt = policy.maxMs → attempt ≤ later →
    policy.ceiling later = policy.maxMs
  least : ∀ draws count,
    ∑ attempt ∈ Finset.Icc 1 count, ⌊policy.ceiling attempt / 2⌋ ≤ policy.totalDelay draws count
  most : ∀ draws count, (policy.totalDelay draws count : Rat) ≤
    ∑ attempt ∈ Finset.Icc 1 count, policy.ceiling attempt
  bound : policy.maxMs < 2 ^ 31 → ∀ attempt draw error,
    fitsInteger (delayMs policy attempt draw error) = true

theorem scheduled (base : 0 ≤ policy.baseMs) (least : 0 ≤ policy.maxMs) : policy.Scheduled where
  integral := fun attempt draw => Int.eq_ofNat_of_zero_le (retryDelay_nonneg base least attempt draw)
  half := half_le_retryDelay base least
  capped := retryDelay_le_ceiling base least
  limited := ceiling_le_maxMs
  growing := by
    intro draw attempt later ordered
    rw [retryDelay_eq base least, retryDelay_eq base least]
    exact (policy.backoff base least).delay_mono draw.property.1 (Nat.sub_le_sub_right ordered 1)
  settled := by
    intro attempt later reached ordered
    rw [ceiling_eq base least] at reached ⊢
    exact (policy.backoff base least).ceiling_settled reached (Nat.sub_le_sub_right ordered 1)
  least := halves_le_totalDelay base least
  most := totalDelay_le_ceilings base least
  bound := by
    intro below attempt draw error
    cases error with
    | none => rfl
    | some text => exact retryDelay_fits base least (below.trans_eq (by norm_num)) attempt draw

theorem DEFAULT_RETRY_scheduled : DEFAULT_RETRY.Scheduled :=
  scheduled DEFAULT_RETRY.sendable.base DEFAULT_RETRY.sendable.least

end RetryPolicy

open RetryPolicy

variable {policy : RetryPolicy} {Key Body : Type} [DecidableEq Key]
variable {table next : Deliveries Key Body} {key : Key} {token : ID} {attempt : Nat} {draw : Draw}

/-- A failed attempt puts its row off by half a ceiling at least and a ceiling at most. -/
theorem finish_due (base : 0 ≤ policy.baseMs) (least : 0 ≤ policy.maxMs) {error : JsString}
    {now : Int} {holds : DeliveryColumns → Bool}
    (done : finish policy table key token attempt (some error) draw now holds = .ok next) :
    ∃ row, next.get key = some row ∧
      now + ⌊policy.ceiling attempt / 2⌋ * 1000 ≤ row.availableAt ∧
      (row.availableAt : Rat) ≤ now + policy.ceiling attempt * 1000 := by
  obtain ⟨row, holder, written⟩ := finish_inv done
  have lower := half_le_retryDelay base least attempt draw
  have upper := retryDelay_le_ceiling base least attempt draw
  have named : decide (row.key = key) = true := by simp [Table.key_of_get holder.found]
  have found : next.get key = some { row with
      toDeliveryColumns := row.finish (outcome policy attempt (some error)) (some error)
        (retryDelay policy attempt draw) now } := by
    rw [written, get_rewrite, holder.found, Option.map_some, if_pos named]
    rfl
  refine ⟨_, found, ?_, ?_⟩
  · show now + ⌊policy.ceiling attempt / 2⌋ * 1000 ≤ now + retryDelay policy attempt draw * 1000
    omega
  · show ((now + retryDelay policy attempt draw * 1000 : Int) : Rat) ≤ _
    push_cast
    linarith

end N2FNest.Events
