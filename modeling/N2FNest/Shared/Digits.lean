import N2FNest.Shared.JsonTokens

/-! `Number::toString`: the shortest decimal numeral that reads back as a double. -/

namespace N2FNest.Shared.Digits

open Lib
open Decimal (natural isDigit)

/-- The number of digits in front of the point, where there are any. -/
def magnitude (value : ℚ) : ℤ := Int.log 10 value + 1

/-- The whole number next to `value` in units of `place` that reads back as `value`,
the nearest first. -/
def candidate? (value place : ℚ) : Option ℕ :=
  [(Binary64.nearestEven (value / place)).toNat, ⌊value / place⌋.toNat, ⌊value / place⌋.toNat + 1].find?
    fun digits => Binary64.round (digits * place) = value

/-- The least number of digits from `digits` on that reads back, with their exponent. -/
def search (value : ℚ) : ℕ → ℕ → Option (ℕ × ℤ)
  | 0, _ => none
  | fuel + 1, digits =>
    match candidate? value (10 ^ (magnitude value - digits)) with
    | some found => some (found, magnitude value - digits)
    | none => search value fuel (digits + 1)

/-- Digits and exponent of a positive double. Rounding up to a power of ten leaves a zero. -/
def shortest (value : ℚ) : ℕ × ℤ :=
  match search value 1400 1 with
  | none => (0, 0)
  | some (digits, exponent) =>
    if digits % 10 = 0 then (digits / 10, exponent + 1) else (digits, exponent)

def zeros (count : ℤ) : List UInt16 := List.replicate count.toNat 0x30

/-- The layout of digits with an exponent. -/
def layout (digits : List UInt16) (exponent : ℤ) : List UInt16 :=
  let point := exponent + digits.length
  if 0 ≤ exponent ∧ point ≤ 21 then digits ++ zeros exponent
  else if 0 < point ∧ point ≤ 21 then digits.take point.toNat ++ 0x2E :: digits.drop point.toNat
  else if -6 < point ∧ point ≤ 0 then 0x30 :: 0x2E :: (zeros (-point) ++ digits)
  else digits.take 1 ++ (if digits.length = 1 then [] else 0x2E :: digits.drop 1) ++
    0x65 :: (if point < 1 then 0x2D else 0x2B) :: Decimal.text (point - 1).natAbs

/-- `String(value)` of a finite number. -/
def text (value : ℚ) : List UInt16 :=
  if value = 0 then [0x30]
  else (if value < 0 then [0x2D] else []) ++
    layout (Decimal.text (shortest |value|).1) (shortest |value|).2

theorem candidate?_reads {value place : ℚ} {digits : ℕ} (found : candidate? value place = some digits) :
    Binary64.round (digits * place) = value := by
  have reads := List.find?_some found
  simpa using reads

theorem candidate?_exact {value place : ℚ} {digits : ℕ} (positive : 0 < place)
    (exact : value = digits * place) (double : Binary64.round value = value) :
    (candidate? value place).isSome = true := by
  have scaled : value / place = ((digits : ℤ) : ℚ) := by
    rw [div_eq_iff positive.ne', Int.cast_natCast]
    exact exact
  rw [candidate?, scaled, Binary64.nearestEven_intCast, Int.toNat_natCast, List.find?_isSome]
  refine ⟨digits, List.mem_cons_self, ?_⟩
  rw [decide_eq_true_eq, ← exact]
  exact double

theorem search_reads {value : ℚ} {fuel digits : ℕ} {found : ℕ × ℤ}
    (succeeded : search value fuel digits = some found) :
    Binary64.round (found.1 * 10 ^ found.2) = value := by
  induction fuel generalizing digits with
  | zero => cases succeeded
  | succ fuel ih =>
    rw [search] at succeeded
    split at succeeded
    · rename_i here
      cases succeeded
      exact candidate?_reads here
    · exact ih succeeded

theorem search_isSome {value : ℚ} {fuel digits target : ℕ} (least : digits ≤ target)
    (most : target < digits + fuel)
    (found : (candidate? value (10 ^ (magnitude value - target))).isSome = true) :
    (search value fuel digits).isSome = true := by
  induction fuel generalizing digits with
  | zero => omega
  | succ fuel ih =>
    rw [search]
    split
    · rfl
    · rename_i missing
      rcases least.eq_or_lt with rfl | later
      · rw [missing] at found
        cases found
      · exact ih later (by omega)

private theorem overflow_lt : Binary64.overflow < 10 ^ 309 := by
  have factor : (2 : ℚ) ^ 93 ≤ 10 ^ 28 := by norm_num
  calc Binary64.overflow = 2 * (2 ^ 93) ^ 11 := by
        rw [Binary64.overflow, ← pow_mul, ← pow_succ']
    _ ≤ 2 * (10 ^ 28) ^ 11 :=
        mul_le_mul_of_nonneg_left (pow_le_pow_left₀ (by norm_num) factor 11) (by norm_num)
    _ < 10 * (10 ^ 28) ^ 11 := mul_lt_mul_of_pos_right (by norm_num) (by positivity)
    _ = 10 ^ 309 := by rw [← pow_mul, ← pow_succ']

theorem magnitude_le {value : ℚ} (positive : 0 < value) (finite : value < Binary64.overflow) :
    magnitude value ≤ 309 := by
  have bound : value < 10 ^ (309 : ℤ) := finite.trans overflow_lt
  have log : Int.log 10 value < 309 :=
    (Int.lt_zpow_iff_log_lt (by decide : 1 < 10) positive).mp (by exact_mod_cast bound)
  unfold magnitude
  omega

/-- Enough digits write a double exactly. -/
theorem search_total {value : ℚ} (positive : 0 < value) (finite : value < Binary64.overflow)
    (double : Binary64.round value = value) : (search value 1400 1).isSome = true := by
  have most := magnitude_le positive finite
  obtain ⟨whole, exact⟩ := Binary64.exact_decimal value
  rw [double] at exact
  obtain ⟨target, least, small, deep⟩ : ∃ target : ℕ, 1 ≤ target ∧ target < 1 + 1400 ∧
      magnitude value - target ≤ -1074 :=
    ⟨(max 1 (magnitude value + 1074)).toNat, by omega, by omega, by omega⟩
  obtain ⟨shift, further⟩ := Int.eq_ofNat_of_zero_le
    (by omega : 0 ≤ -1074 - (magnitude value - target))
  have place : (0 : ℚ) < 10 ^ (magnitude value - target) := zpow_pos (by norm_num) _
  have units : value = ((whole * 10 ^ shift : ℤ) : ℚ) * 10 ^ (magnitude value - target) := by
    have power : (10 : ℚ) ^ (1074 : ℤ) * 10 ^ shift * 10 ^ (magnitude value - target) = 1 := by
      rw [← zpow_natCast, ← zpow_add₀ (by norm_num), ← zpow_add₀ (by norm_num)]
      have cancel : (1074 : ℤ) + (shift : ℤ) + (magnitude value - target) = 0 := by omega
      rw [cancel, zpow_zero]
    push_cast
    rw [← exact, mul_assoc, mul_assoc, ← mul_assoc (10 ^ (1074 : ℤ)), power, mul_one]
  have nonneg : 0 ≤ whole * 10 ^ shift := by
    have ratio : (0 : ℚ) ≤ ((whole * 10 ^ shift : ℤ) : ℚ) := by
      by_contra negative
      have below := mul_neg_of_neg_of_pos (not_le.mp negative) place
      rw [← units] at below
      exact absurd positive (not_lt.mpr below.le)
    exact_mod_cast ratio
  obtain ⟨digits, same⟩ := Int.eq_ofNat_of_zero_le nonneg
  rw [same, Int.cast_natCast] at units
  exact search_isSome least small (candidate?_exact place units double)

theorem shortest_reads {value : ℚ} (positive : 0 < value) (finite : value < Binary64.overflow)
    (double : Binary64.round value = value) :
    Binary64.round ((shortest value).1 * 10 ^ (shortest value).2) = value := by
  obtain ⟨found, searched⟩ := Option.isSome_iff_exists.mp (search_total positive finite double)
  have reads := search_reads searched
  obtain ⟨digits, exponent⟩ := found
  rw [shortest, searched]
  dsimp only
  split
  · rename_i zero
    obtain ⟨less, same⟩ : ∃ less, digits = less * 10 := ⟨digits / 10, by omega⟩
    have shifted : ((digits / 10 : ℕ) : ℚ) * 10 ^ (exponent + 1) = digits * 10 ^ exponent := by
      rw [same, Nat.mul_div_cancel _ (by decide), zpow_add_one₀ (by norm_num)]
      push_cast
      ring
    rw [shifted]
    exact reads
  · exact reads

/-- What reads back as a positive number has digits. -/
theorem shortest_pos {value : ℚ} (positive : 0 < value) (finite : value < Binary64.overflow)
    (double : Binary64.round value = value) : 0 < (shortest value).1 := by
  have reads := shortest_reads positive finite double
  refine Nat.pos_of_ne_zero fun zero => ?_
  rw [zero, Nat.cast_zero, zero_mul] at reads
  have none : Binary64.round 0 = 0 := by
    have trivially := Binary64.round_nonneg (le_refl 0)
    exact le_antisymm (Binary64.round_nonpos (le_refl 0)) trivially
  rw [none] at reads
  exact absurd positive (by rw [← reads]; exact lt_irrefl 0)

private theorem natural_append (left right : List UInt16) :
    natural (left ++ right) = natural left * 10 ^ right.length + natural right := by
  induction right using List.reverseRecOn with
  | nil => simp [natural]
  | append_singleton rest last ih =>
    have step : ∀ digits : List UInt16,
        natural (digits ++ [last]) = natural digits * 10 + (last.toNat - 0x30) := by
      intro digits
      rw [natural, List.foldl_append]
      rfl
    rw [← List.append_assoc, step, step, ih, List.length_append, List.length_singleton, Nat.pow_succ]
    ring

private theorem natural_zeros (count : ℕ) : natural (List.replicate count 0x30) = 0 := by
  induction count with
  | zero => rfl
  | succ count ih =>
    rw [List.replicate_succ', natural_append, ih]
    rfl

theorem isDigit_zeros (count : ℤ) : ∀ unit ∈ zeros count, isDigit unit = true := by
  intro unit member
  rw [List.eq_of_mem_replicate member]
  decide

/-- Digits that start with no zero, as a numeral spells them. -/
structure Significant (digits : List UInt16) : Prop where
  leading : ∃ first rest, digits = first :: rest ∧ first ≠ 0x30
  decimal : ∀ unit ∈ digits, isDigit unit = true

private theorem text_significant {value : ℕ} (positive : 0 < value) :
    Significant (Decimal.text value) := by
  refine ⟨?_, Decimal.isDigit_text value⟩
  induction value using Decimal.text.induct with
  | case1 value small =>
    rw [Decimal.text, if_pos small]
    refine ⟨_, _, rfl, fun zero => ?_⟩
    have number := congrArg UInt16.toNat zero
    rw [Decimal.toNat_digit] at number
    have code : (0x30 : UInt16).toNat = 0x30 := rfl
    omega
  | case2 value large ih =>
    obtain ⟨first, rest, same, nonzero⟩ := ih (by omega)
    rw [Decimal.text, if_neg large, same]
    exact ⟨first, _, rfl, nonzero⟩

open Json (NumberText Exponent)

/-- A number without an exponent. -/
private def plain (whole fraction : List UInt16)
    (leading : whole = [0x30] ∨ ∃ first rest, whole = first :: rest ∧ first ≠ 0x30)
    (decimal : (∀ unit ∈ whole, isDigit unit = true) ∧ ∀ unit ∈ fraction, isDigit unit = true) :
    NumberText := ⟨false, whole, fraction, none, leading, decimal⟩

private theorem text_plain (whole fraction : List UInt16) (leading decimal) :
    (plain whole fraction leading decimal).text = whole ++ NumberText.fractionText fraction := by
  show [] ++ (whole ++ (NumberText.fractionText fraction ++ [])) = _
  rw [List.nil_append, List.append_nil]

private theorem value_plain (whole fraction : List UInt16) (leading decimal) :
    (plain whole fraction leading decimal).numeral.value =
      natural (whole ++ fraction) * 10 ^ (-(fraction.length : ℤ)) := by
  show ((natural (whole ++ fraction) : ℕ) : ℚ) * 10 ^ (((natural [] : ℕ) : ℤ) - fraction.length) = _
  rw [show ((natural [] : ℕ) : ℤ) = 0 from rfl, zero_sub]

/-- The digits of a natural number are a numeral of it. -/
theorem natural_reads (value : ℕ) :
    ∃ number : NumberText, number.text = Decimal.text value ∧ number.numeral.value = value := by
  have leading : Decimal.text value = [0x30] ∨
      ∃ first rest, Decimal.text value = first :: rest ∧ first ≠ 0x30 := by
    rcases value.eq_zero_or_pos with rfl | positive
    · left
      rw [Decimal.text, if_pos (by decide)]
      rfl
    · exact .inr (text_significant positive).leading
  refine ⟨plain (Decimal.text value) [] leading ⟨Decimal.isDigit_text value, by simp⟩, ?_, ?_⟩
  · rw [text_plain, NumberText.fractionText, if_pos rfl, List.append_nil]
  · rw [value_plain, List.append_nil, Decimal.natural_text]
    simp

/-- A number with an exponent, as `e+20` or `e-7`. -/
private def scientific (first : UInt16) (rest : List UInt16) (power : ℤ)
    (significant : Significant (first :: rest)) (nonzero : first ≠ 0x30) : NumberText where
  minus := false
  whole := [first]
  fraction := rest
  exponent := some
    { mark := 0x65, sign := [if power < 0 then 0x2D else 0x2B], digits := Decimal.text power.natAbs
      marked := .inl rfl
      signed := by
        by_cases negative : power < 0
        · exact .inr (.inr (by rw [if_pos negative]))
        · exact .inr (.inl (by rw [if_neg negative]))
      nonempty := Decimal.text_ne_nil _
      decimal := Decimal.isDigit_text _ }
  leading := .inr ⟨first, [], rfl, nonzero⟩
  decimal := by
    obtain ⟨here, later⟩ := List.forall_mem_cons.mp significant.decimal
    exact ⟨List.forall_mem_singleton.mpr here, later⟩

private theorem value_scientific (first : UInt16) (rest : List UInt16) (power : ℤ) (significant)
    (nonzero) : (scientific first rest power significant nonzero).numeral.value =
      natural (first :: rest) * 10 ^ (power - rest.length) := by
  show ((natural (first :: rest) : ℕ) : ℚ) * 10 ^ ((if ([if power < 0 then 0x2D else 0x2B] : List UInt16) ==
    [0x2D] then -(natural (Decimal.text power.natAbs) : ℤ) else natural (Decimal.text power.natAbs)) -
      (rest.length : ℤ)) = _
  rw [Decimal.natural_text]
  congr 3
  by_cases negative : power < 0
  · rw [if_pos negative, if_pos (by decide)]
    omega
  · rw [if_neg negative, if_neg (by decide)]
    omega

theorem layout_reads {digits : List UInt16} (significant : Significant digits) (exponent : ℤ) :
    ∃ number : NumberText, number.text = layout digits exponent ∧ number.minus = false ∧
      number.numeral.value = natural digits * 10 ^ exponent := by
  obtain ⟨first, rest, same, nonzero⟩ := significant.leading
  have decimal := significant.decimal
  unfold layout
  dsimp only
  split
  · rename_i whole
    obtain ⟨count, places⟩ := Int.eq_ofNat_of_zero_le whole.1
    have all : ∀ unit ∈ digits ++ zeros exponent, isDigit unit = true :=
      List.forall_mem_append.mpr ⟨decimal, isDigit_zeros exponent⟩
    refine ⟨plain (digits ++ zeros exponent) [] (.inr ⟨first, rest ++ zeros exponent, ?_, nonzero⟩)
      ⟨all, by simp⟩, ?_, rfl, ?_⟩
    · rw [same, List.cons_append]
    · rw [text_plain, NumberText.fractionText, if_pos rfl, List.append_nil]
    · rw [value_plain, List.append_nil, natural_append, zeros, natural_zeros, places]
      simp
  · rename_i whole
    split
    · rename_i point
      obtain ⟨front, places⟩ := Int.eq_ofNat_of_zero_le point.1.le
      rw [places, Int.toNat_natCast]
      have inside : front < digits.length := by omega
      have behind : digits.drop front ≠ [] := by
        rw [Ne, List.drop_eq_nil_iff]
        omega
      refine ⟨plain (digits.take front) (digits.drop front) (.inr ⟨first, rest.take (front - 1), ?_,
        nonzero⟩) ⟨fun unit member => decimal unit (List.mem_of_mem_take member),
          fun unit member => decimal unit (List.mem_of_mem_drop member)⟩, ?_, rfl, ?_⟩
      · obtain ⟨less, rfl⟩ : ∃ less, front = less + 1 := ⟨front - 1, by omega⟩
        rw [same, List.take_succ_cons, Nat.add_sub_cancel]
      · rw [text_plain, NumberText.fractionText, if_neg behind]
      · rw [value_plain, List.take_append_drop, List.length_drop]
        congr 2
        omega
    · rename_i point
      split
      · rename_i small
        refine ⟨plain [0x30] (zeros (-(exponent + digits.length)) ++ digits) (.inl rfl)
          ⟨List.forall_mem_singleton.mpr (by decide),
            List.forall_mem_append.mpr ⟨isDigit_zeros _, decimal⟩⟩, ?_, rfl, ?_⟩
        · have behind : zeros (-(exponent + digits.length)) ++ digits ≠ [] := by
            rw [same]
            simp
          rw [text_plain, NumberText.fractionText, if_neg behind]
          rfl
        · have zero : natural [0x30] = 0 := rfl
          rw [value_plain, natural_append, natural_append, zeros, natural_zeros, zero,
            List.length_append, List.length_replicate, Nat.zero_mul, Nat.zero_add, Nat.zero_mul,
            Nat.zero_add]
          congr 2
          omega
      · subst same
        refine ⟨scientific first rest (exponent + (first :: rest).length - 1) significant nonzero, ?_,
          rfl, ?_⟩
        · show [] ++ ([first] ++ (NumberText.fractionText rest ++ (0x65 :: ([if _ then 0x2D else 0x2B] ++
            Decimal.text _)))) = _
          have sign : (exponent + (first :: rest).length - 1 < 0) ↔
              exponent + (first :: rest).length < 1 := by omega
          simp only [sign]
          cases rest with
          | nil => rfl
          | cons next more =>
            rw [NumberText.fractionText, if_neg (List.cons_ne_nil next more),
              if_neg (by simp : ¬(first :: next :: more).length = 1)]
            rfl
        · rw [value_scientific, List.length_cons]
          congr 2
          push_cast
          ring

/-- A finite double other than zero is written as a numeral that reads back as itself. -/
private theorem text_unsigned {value : ℚ} (positive : 0 < value) (finite : value < Binary64.overflow)
    (double : Binary64.round value = value) : ∃ number : NumberText,
      number.text = layout (Decimal.text (shortest value).1) (shortest value).2 ∧
        number.minus = false ∧ Binary64.round number.numeral.value = value := by
  have significant := text_significant (shortest_pos positive finite double)
  obtain ⟨number, same, sign, reads⟩ := layout_reads significant (shortest value).2
  refine ⟨number, same, sign, ?_⟩
  rw [reads, Decimal.natural_text]
  exact shortest_reads positive finite double

/-- A finite double is written as a numeral, and reads back as the same number. -/
theorem text_reads {value : ℚ} (finite : |value| < Binary64.overflow)
    (double : Binary64.round value = value) :
    ∃ number : NumberText, number.text = text value ∧ number.numeral.number = .finite value := by
  by_cases zero : value = 0
  · refine ⟨plain [0x30] [] (.inl rfl) ⟨List.forall_mem_singleton.mpr (by decide), by simp⟩, ?_, ?_⟩
    · rw [text, if_pos zero]
      rfl
    · have none : (plain [0x30] [] (.inl rfl)
          ⟨List.forall_mem_singleton.mpr (by decide), by simp⟩).numeral.value = 0 := by
        rw [value_plain]
        exact zero_mul _
      rw [Json.Numeral.number, none, JsNumber.ofRat, ← zero, double, if_pos finite]
  · have positive : 0 < |value| := abs_pos.mpr zero
    have unsigned : Binary64.round |value| = |value| := by
      rcases abs_choice value with same | same
      · rw [same, double]
      · rw [same, Binary64.round_neg, double]
    obtain ⟨number, written, sign, reads⟩ := text_unsigned positive finite unsigned
    refine ⟨{ number with minus := decide (value < 0) }, ?_, ?_⟩
    · rw [text, if_neg zero, ← written, NumberText.text, NumberText.text, sign]
      by_cases negative : value < 0
      · simp [negative]
      · simp [negative]
    · have signed : Json.Numeral.value (NumberText.numeral { number with minus := decide (value < 0) }) =
          if value < 0 then -number.numeral.value else number.numeral.value := by
        have same : number.numeral.negative = false := sign
        by_cases negative : value < 0
        · simp only [Json.Numeral.value, NumberText.numeral, sign, negative]
          simp
        · simp only [Json.Numeral.value, NumberText.numeral, sign, negative]
          simp
      rw [Json.Numeral.number, signed, JsNumber.ofRat]
      by_cases negative : value < 0
      · have rounded : Binary64.round (-number.numeral.value) = value := by
          rw [Binary64.round_neg, reads, abs_of_neg negative, neg_neg]
        rw [if_pos negative, rounded, if_pos finite]
      · have rounded : Binary64.round number.numeral.value = value := by
          rw [reads, abs_of_nonneg (not_lt.mp negative)]
        rw [if_neg negative, rounded, if_pos finite]

end N2FNest.Shared.Digits
