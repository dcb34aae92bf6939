import Mathlib.Algebra.Ring.Nat
import Mathlib.Tactic.Common

/-! Natural numbers as decimal digits, over UTF-16 code units. -/

namespace N2FNest.Lib.Decimal

def isDigit (unit : UInt16) : Bool := 0x30 ≤ unit && unit ≤ 0x39

/-- The unit of a digit. -/
def digit (value : Nat) : UInt16 := (0x30 + value % 10).toUInt16

/-- The natural number a run of digits is. -/
def natural (digits : List UInt16) : Nat :=
  digits.foldl (fun value unit => value * 10 + (unit.toNat - 0x30)) 0

/-- Exactly `width` digits, with leading zeros. -/
def pad : Nat → Nat → List UInt16
  | 0, _ => []
  | width + 1, value => pad width (value / 10) ++ [digit value]

theorem toNat_digit (value : Nat) : (digit value).toNat = 0x30 + value % 10 := by
  rw [digit, Nat.toUInt16_eq, UInt16.toNat_ofNat']
  omega

theorem isDigit_digit (value : Nat) : isDigit (digit value) = true := by
  simp only [isDigit, Bool.and_eq_true, decide_eq_true_eq, UInt16.le_iff_toNat_le, toNat_digit,
    UInt16.reduceToNat]
  omega

theorem natural_concat (digits : List UInt16) (value : Nat) :
    natural (digits ++ [digit value]) = natural digits * 10 + value % 10 := by
  rw [natural, List.foldl_append, ← natural, List.foldl_cons, List.foldl_nil, toNat_digit]
  omega

@[simp] theorem pad_length (width value : Nat) : (pad width value).length = width := by
  induction width generalizing value with
  | zero => rfl
  | succ width ih => simp [pad, ih]

theorem isDigit_pad (width value : Nat) : ∀ unit ∈ pad width value, isDigit unit = true := by
  induction width generalizing value with
  | zero => exact nofun
  | succ width ih =>
    intro unit member
    rcases List.mem_append.mp member with earlier | last
    · exact ih (value / 10) unit earlier
    · rw [List.mem_singleton.mp last]
      exact isDigit_digit value

theorem natural_pad (width value : Nat) (fits : value < 10 ^ width) :
    natural (pad width value) = value := by
  induction width generalizing value with
  | zero =>
    have zero : value = 0 := by simpa using fits
    rw [zero]
    rfl
  | succ width ih =>
    have shorter : value / 10 < 10 ^ width := by
      rw [Nat.pow_succ] at fits
      omega
    rw [pad, natural_concat, ih _ shorter]
    omega

/-- The digits of a number, without leading zeros. -/
def text (value : Nat) : List UInt16 :=
  if value < 10 then [digit value] else text (value / 10) ++ [digit value]

theorem isDigit_text (value : Nat) : ∀ unit ∈ text value, isDigit unit = true := by
  induction value using text.induct with
  | case1 value small =>
    intro unit member
    rw [text, if_pos small, List.mem_singleton] at member
    rw [member]
    exact isDigit_digit value
  | case2 value large ih =>
    intro unit member
    rw [text, if_neg large] at member
    rcases List.mem_append.mp member with earlier | last
    · exact ih unit earlier
    · rw [List.mem_singleton.mp last]
      exact isDigit_digit value

theorem text_ne_nil (value : Nat) : text value ≠ [] := by
  rw [text]
  split
  · exact List.cons_ne_nil _ _
  · exact List.append_ne_nil_of_right_ne_nil _ (List.cons_ne_nil _ _)

theorem natural_text (value : Nat) : natural (text value) = value := by
  induction value using text.induct with
  | case1 value small =>
    rw [text, if_pos small]
    show natural ([] ++ [digit value]) = value
    rw [natural_concat]
    show 0 * 10 + value % 10 = value
    omega
  | case2 value large ih =>
    rw [text, if_neg large, natural_concat, ih]
    omega

theorem text_inj {value other : Nat} (same : text value = text other) : value = other := by
  rw [← natural_text value, same, natural_text]

end N2FNest.Lib.Decimal
