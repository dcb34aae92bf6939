import Mathlib.Algebra.Ring.Nat
import Mathlib.Data.List.Lex
import Mathlib.Tactic.Common

/-! Natural numbers as lower-case hexadecimal digits, over UTF-16 code units.
Texts of one width compare as the numbers they write. -/

namespace N2FNest.Lib.Hex

def isDigit (unit : UInt16) : Bool := (0x30 ≤ unit && unit ≤ 0x39) || (0x61 ≤ unit && unit ≤ 0x66)

/-- The unit of a digit. -/
def digit (value : Nat) : UInt16 :=
  if value % 16 < 10 then (0x30 + value % 16).toUInt16 else (0x57 + value % 16).toUInt16

/-- What a digit counts. -/
def digitValue (unit : UInt16) : Nat :=
  if unit.toNat < 0x61 then unit.toNat - 0x30 else unit.toNat - 0x57

/-- The natural number a run of digits is. -/
def natural (digits : List UInt16) : Nat :=
  digits.foldl (fun value unit => value * 16 + digitValue unit) 0

/-- Exactly `width` digits, with leading zeros. -/
def pad : Nat → Nat → List UInt16
  | 0, _ => []
  | width + 1, value => pad width (value / 16) ++ [digit value]

/-- The digits of a number, without leading zeros. -/
def text (value : Nat) : List UInt16 :=
  if value < 16 then [digit value] else text (value / 16) ++ [digit value]

/-- `padStart(width, '0')`. -/
def padStart (width : Nat) (units : List UInt16) : List UInt16 :=
  List.replicate (width - units.length) 0x30 ++ units

theorem toNat_digit (value : Nat) :
    (digit value).toNat = if value % 16 < 10 then 0x30 + value % 16 else 0x57 + value % 16 := by
  unfold digit
  split <;> rw [Nat.toUInt16_eq, UInt16.toNat_ofNat'] <;> omega

theorem isDigit_digit (value : Nat) : isDigit (digit value) = true := by
  simp only [isDigit, Bool.or_eq_true, Bool.and_eq_true, decide_eq_true_eq, UInt16.le_iff_toNat_le,
    toNat_digit, UInt16.reduceToNat]
  split <;> omega

theorem digitValue_digit (value : Nat) : digitValue (digit value) = value % 16 := by
  rw [digitValue, toNat_digit]
  split <;> split <;> omega

theorem digit_lt {value other : Nat} (less : value % 16 < other % 16) : digit value < digit other := by
  rw [UInt16.lt_iff_toNat_lt, toNat_digit, toNat_digit]
  split <;> split <;> omega

@[simp] theorem pad_length (width value : Nat) : (pad width value).length = width := by
  induction width generalizing value with
  | zero => rfl
  | succ width ih => simp [pad, ih]

theorem isDigit_pad (width value : Nat) : ∀ unit ∈ pad width value, isDigit unit = true := by
  induction width generalizing value with
  | zero =>
    intro unit member
    cases member
  | succ width ih =>
    intro unit member
    rcases List.mem_append.mp member with earlier | last
    · exact ih (value / 16) unit earlier
    · rw [List.mem_singleton.mp last]
      exact isDigit_digit value

theorem natural_concat (digits : List UInt16) (value : Nat) :
    natural (digits ++ [digit value]) = natural digits * 16 + value % 16 := by
  rw [natural, List.foldl_append, ← natural, List.foldl_cons, List.foldl_nil, digitValue_digit]

theorem natural_pad (width value : Nat) (fits : value < 16 ^ width) :
    natural (pad width value) = value := by
  induction width generalizing value with
  | zero =>
    have zero : value = 0 := by simpa using fits
    rw [zero]
    rfl
  | succ width ih =>
    have shorter : value / 16 < 16 ^ width := by
      rw [Nat.pow_succ] at fits
      omega
    rw [pad, natural_concat, ih _ shorter]
    omega

/-- The last digits of a number and the digits before them. -/
theorem pad_add (front back value : Nat) :
    pad (front + back) value = pad front (value / 16 ^ back) ++ pad back value := by
  induction back generalizing value with
  | zero => simp [pad]
  | succ back ih =>
    have split : value / 16 ^ (back + 1) = value / 16 / 16 ^ back := by
      rw [Nat.pow_succ', Nat.div_div_eq_div_mul]
    rw [← Nat.add_assoc, pad, ih, pad, split, List.append_assoc]

theorem pad_zero (width : Nat) : pad width 0 = List.replicate width 0x30 := by
  induction width with
  | zero => rfl
  | succ width ih =>
    rw [pad, Nat.zero_div, ih, List.replicate_succ']
    rfl

theorem padStart_text (width value : Nat) (fits : value < 16 ^ (width + 1)) :
    padStart (width + 1) (text value) = pad (width + 1) value := by
  induction width generalizing value with
  | zero =>
    have small : value < 16 := by simpa using fits
    unfold text
    rw [if_pos small]
    rfl
  | succ width ih =>
    rw [pad]
    by_cases small : value < 16
    · unfold text
      have none : value / 16 = 0 := Nat.div_eq_of_lt small
      rw [if_pos small, none, pad_zero]
      rfl
    · have shorter : value / 16 < 16 ^ (width + 1) := by
        rw [Nat.pow_succ] at fits
        omega
      rw [← ih _ shorter]
      unfold padStart
      rw [text, if_neg small]
      simp [Nat.add_sub_add_right]

/-- A number with a digit in every place needs no padding. -/
theorem text_eq_pad {width value : Nat} (least : 16 ^ width ≤ value) (fits : value < 16 ^ (width + 1)) :
    text value = pad (width + 1) value := by
  induction width generalizing value with
  | zero =>
    have small : value < 16 := by simpa using fits
    unfold text
    rw [if_pos small]
    rfl
  | succ width ih =>
    have large : ¬ value < 16 := by
      have : 1 ≤ 16 ^ width := Nat.one_le_two_pow.trans (Nat.pow_le_pow_left (by decide) width)
      rw [Nat.pow_succ] at least
      omega
    rw [text, if_neg large, pad, ih]
    · rw [Nat.pow_succ] at least
      omega
    · rw [Nat.pow_succ] at fits
      omega

theorem append_lt_append {left right : List UInt16} (less : left < right)
    (lengths : left.length = right.length) (rest other : List UInt16) :
    left ++ rest < right ++ other := by
  induction left generalizing right with
  | nil =>
    cases right with
    | nil => exact absurd less (List.lt_irrefl [])
    | cons head tail => cases lengths
  | cons head tail ih =>
    cases right with
    | nil => cases lengths
    | cons first more =>
      rw [List.cons_append, List.cons_append, List.cons_lt_cons_iff]
      rcases List.cons_lt_cons_iff.mp less with smaller | ⟨same, later⟩
      · exact .inl smaller
      · exact .inr ⟨same, ih later (Nat.succ.inj lengths)⟩

theorem pad_lt {width value other : Nat} (less : value < other) (fits : other < 16 ^ width) :
    pad width value < pad width other := by
  induction width generalizing value other with
  | zero =>
    have none : other = 0 := by simpa using fits
    omega
  | succ width ih =>
    rw [pad, pad]
    by_cases leading : value / 16 < other / 16
    · apply append_lt_append
      · apply ih leading
        rw [Nat.pow_succ] at fits
        omega
      · rw [pad_length, pad_length]
    · have same : value / 16 = other / 16 := by omega
      rw [same]
      apply List.append_left_lt
      rw [List.cons_lt_cons_iff]
      exact .inl (digit_lt (by omega))

theorem pad_mod (width value : Nat) : pad width (value % 16 ^ width) = pad width value := by
  induction width generalizing value with
  | zero => rfl
  | succ width ih =>
    have leading : value % 16 ^ (width + 1) / 16 = value / 16 % 16 ^ width := by
      rw [Nat.pow_succ', Nat.mod_mul_right_div_self]
    have last : value % 16 ^ (width + 1) % 16 = value % 16 := by
      rw [Nat.pow_succ']
      exact Nat.mod_mul_right_mod value 16 (16 ^ width)
    have digits : digit (value % 16 ^ (width + 1)) = digit value := by
      rw [digit, digit, last]
    rw [pad, pad, leading, ih, digits]

end N2FNest.Lib.Hex
