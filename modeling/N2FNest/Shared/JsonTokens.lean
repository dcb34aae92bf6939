import N2FNest.Shared.JsonTree

/-! White space and numbers are scanned as the grammar writes them. -/

namespace N2FNest.Shared.Json

open Lib
open Decimal (isDigit)

/-- A run of what is taken ends at the first thing that is not. -/
private theorem span_run {takes : UInt16 → Bool} {run rest : List UInt16}
    (all : ∀ unit ∈ run, takes unit = true) (stop : ∀ unit ∈ rest.head?, takes unit = false) :
    (run ++ rest).takeWhile takes = run ∧ (run ++ rest).dropWhile takes = rest := by
  rw [List.takeWhile_append_of_pos all, List.dropWhile_append_of_pos all]
  cases rest with
  | nil => simp
  | cons unit rest =>
    have ends : takes unit = false := stop unit rfl
    simp [ends]

/-- The units that `skipBlanks` passes over. -/
def leadingBlanks (text : List UInt16) : Blanks :=
  ⟨text.takeWhile isBlank, List.all_eq_true.mp List.all_takeWhile⟩

theorem leadingBlanks_append (text : List UInt16) :
    (leadingBlanks text).units ++ skipBlanks text = text :=
  List.takeWhile_append_dropWhile

theorem skipBlanks_units (blanks : Blanks) {rest : List UInt16}
    (stop : ∀ unit ∈ rest.head?, isBlank unit = false) : skipBlanks (blanks.units ++ rest) = rest :=
  (span_run blanks.blank stop).2

/-- What cannot go on a number. -/
def Stops (rest : List UInt16) : Prop :=
  ∀ unit ∈ rest.head?, isDigit unit = false ∧ unit ≠ 0x2E ∧ unit ≠ 0x65 ∧ unit ≠ 0x45

private theorem scanSign_sound (text : List UInt16) :
    text = (if (scanSign text).1 then [0x2D] else []) ++ (scanSign text).2 := by
  cases text with
  | nil => rfl
  | cons unit rest =>
    rw [scanSign]
    split
    · rename_i minus
      rw [minus]
      rfl
    · rfl

private theorem scanSign_text (minus : Bool) {rest : List UInt16} (other : rest.head? ≠ some 0x2D) :
    scanSign ((if minus then [0x2D] else []) ++ rest) = (minus, rest) := by
  cases minus with
  | true => rfl
  | false => cases rest with
    | nil => rfl
    | cons unit rest =>
      have plain : unit ≠ 0x2D := fun same => other (congrArg some same)
      simp [scanSign, plain]

private theorem digits_run (text : List UInt16) :
    ∀ unit ∈ text.takeWhile isDigit, isDigit unit = true :=
  List.all_eq_true.mp List.all_takeWhile

private theorem scanWhole_sound {text whole rest : List UInt16}
    (scanned : scanWhole text = some (whole, rest)) :
    text = whole ++ rest ∧ (∀ unit ∈ whole, isDigit unit = true) ∧
      (whole = [0x30] ∨ ∃ first more, whole = first :: more ∧ first ≠ 0x30) := by
  cases text with
  | nil => cases scanned
  | cons unit text =>
    rw [scanWhole] at scanned
    split at scanned
    · rename_i zero
      cases scanned
      refine ⟨rfl, List.forall_mem_singleton.mpr ?_, .inl (by rw [zero])⟩
      rw [zero]
      decide
    · rename_i nonzero
      split at scanned
      · rename_i digit
        cases scanned
        refine ⟨?_, List.forall_mem_cons.mpr ⟨digit, digits_run text⟩, .inr ⟨unit, _, rfl, nonzero⟩⟩
        rw [List.cons_append, List.takeWhile_append_dropWhile]
      · cases scanned

private theorem scanWhole_text {whole rest : List UInt16}
    (leading : whole = [0x30] ∨ ∃ first more, whole = first :: more ∧ first ≠ 0x30)
    (decimal : ∀ unit ∈ whole, isDigit unit = true)
    (stop : ∀ unit ∈ rest.head?, isDigit unit = false) :
    scanWhole (whole ++ rest) = some (whole, rest) := by
  rcases leading with rfl | ⟨first, more, rfl, nonzero⟩
  · rfl
  · obtain ⟨digit, later⟩ := List.forall_mem_cons.mp decimal
    obtain ⟨taken, left⟩ := span_run later stop
    rw [List.cons_append, scanWhole, if_neg nonzero, if_pos digit, taken, left]

private theorem scanFraction_sound (text : List UInt16) :
    text = NumberText.fractionText (scanFraction text).1 ++ (scanFraction text).2 ∧
      ∀ unit ∈ (scanFraction text).1, isDigit unit = true := by
  cases text with
  | nil => exact ⟨rfl, nofun⟩
  | cons unit rest =>
    rw [scanFraction]
    split
    · rename_i point
      refine ⟨?_, digits_run rest⟩
      rw [NumberText.fractionText, if_neg point.2, point.1, List.cons_append,
        List.takeWhile_append_dropWhile]
    · exact ⟨rfl, nofun⟩

private theorem scanFraction_text {fraction rest : List UInt16}
    (decimal : ∀ unit ∈ fraction, isDigit unit = true)
    (stop : ∀ unit ∈ rest.head?, isDigit unit = false ∧ unit ≠ 0x2E) :
    scanFraction (NumberText.fractionText fraction ++ rest) = (fraction, rest) := by
  obtain ⟨taken, left⟩ := span_run decimal fun unit head => (stop unit head).1
  by_cases none : fraction = []
  · subst none
    cases rest with
    | nil => rfl
    | cons unit rest =>
      have other : unit ≠ 0x2E := (stop unit rfl).2
      simp [NumberText.fractionText, scanFraction, other]
  · rw [NumberText.fractionText, if_neg none, List.cons_append, scanFraction, taken, left,
      if_pos ⟨rfl, none⟩]

private theorem scanExponentSign_sound (text : List UInt16) : ∃ sign : List UInt16,
    (sign = [] ∨ sign = [0x2B] ∨ sign = [0x2D]) ∧ text = sign ++ (scanExponentSign text).2 ∧
      (sign == [0x2D]) = (scanExponentSign text).1 := by
  cases text with
  | nil => exact ⟨[], .inl rfl, rfl, rfl⟩
  | cons unit rest =>
    rw [scanExponentSign]
    split
    · rename_i minus
      exact ⟨[0x2D], .inr (.inr rfl), by rw [minus]; rfl, rfl⟩
    · split
      · rename_i plus
        exact ⟨[0x2B], .inr (.inl rfl), by rw [plus]; rfl, rfl⟩
      · exact ⟨[], .inl rfl, rfl, rfl⟩

private theorem scanExponentSign_text {sign rest : List UInt16}
    (signed : sign = [] ∨ sign = [0x2B] ∨ sign = [0x2D])
    (digit : ∀ unit ∈ rest.head?, isDigit unit = true) :
    scanExponentSign (sign ++ rest) = (sign == [0x2D], rest) := by
  rcases signed with rfl | rfl | rfl
  · cases rest with
    | nil => rfl
    | cons unit rest =>
      have number : isDigit unit = true := digit unit rfl
      have minus : unit ≠ 0x2D := by
        rintro rfl
        exact absurd number (by decide)
      have plus : unit ≠ 0x2B := by
        rintro rfl
        exact absurd number (by decide)
      simp [scanExponentSign, minus, plus]
  · rfl
  · rfl

private theorem scanExponent_sound (text : List UInt16) : ∃ exponent : Option Exponent,
    text = NumberText.exponentText exponent ++ (scanExponent text).2.2 ∧
      exponent.any (·.sign == [0x2D]) = (scanExponent text).1 ∧
      exponent.elim [] Exponent.digits = (scanExponent text).2.1 := by
  cases text with
  | nil => exact ⟨none, rfl, rfl, rfl⟩
  | cons unit rest =>
    obtain ⟨sign, signed, parts, negative⟩ := scanExponentSign_sound rest
    rw [scanExponent]
    split
    · rename_i marked
      refine ⟨some ⟨unit, sign, _, marked.1, signed, marked.2, digits_run _⟩, ?_, negative, rfl⟩
      simp only [NumberText.exponentText, Option.elim_some, Exponent.text, List.cons_append,
        List.append_assoc, List.takeWhile_append_dropWhile]
      rw [← parts]
    · exact ⟨none, rfl, rfl, rfl⟩

private theorem scanExponent_text (exponent : Option Exponent) {rest : List UInt16}
    (stop : Stops rest) : scanExponent (NumberText.exponentText exponent ++ rest) =
      (exponent.any (·.sign == [0x2D]), exponent.elim [] Exponent.digits, rest) := by
  cases exponent with
  | none => cases rest with
    | nil => rfl
    | cons unit rest =>
      obtain ⟨_, _, lower, upper⟩ := stop unit rfl
      simp [NumberText.exponentText, scanExponent, lower, upper]
  | some exponent =>
    obtain ⟨taken, left⟩ := span_run exponent.decimal fun unit head => (stop unit head).1
    have digit : ∀ unit ∈ (exponent.digits ++ rest).head?, isDigit unit = true := by
      intro unit head
      rw [List.head?_append_of_ne_nil _ exponent.nonempty] at head
      exact exponent.decimal unit (List.mem_of_mem_head? head)
    have sign := scanExponentSign_text exponent.signed digit
    simp only [NumberText.exponentText, Option.elim_some, Exponent.text, List.cons_append,
      List.append_assoc, scanExponent, sign, taken, left]
    rw [if_pos ⟨exponent.marked, exponent.nonempty⟩]
    rfl

theorem scanNumeral_sound {text rest : List UInt16} {numeral : Numeral}
    (scanned : scanNumeral text = some (numeral, rest)) :
    ∃ number : NumberText, text = number.text ++ rest ∧ number.numeral = numeral := by
  have sign := scanSign_sound text
  simp only [scanNumeral] at scanned
  obtain ⟨⟨whole, unread⟩, wholly, scanned⟩ := Option.bind_eq_some_iff.mp scanned
  obtain ⟨parts, decimal, leading⟩ := scanWhole_sound wholly
  obtain ⟨fraction, fractional⟩ := scanFraction_sound unread
  obtain ⟨exponent, written, negative, digits⟩ := scanExponent_sound (scanFraction unread).2
  cases Option.some.inj scanned
  refine ⟨⟨(scanSign text).1, whole, _, exponent, leading, decimal, fractional⟩, ?_, ?_⟩
  · rw [NumberText.text]
    dsimp only
    rw [List.append_assoc, List.append_assoc, List.append_assoc, ← written, ← fraction, ← parts]
    exact sign
  · rw [NumberText.numeral, negative, digits]

/-- A number starts with a minus or a digit. -/
theorem NumberText.head (number : NumberText) : ∃ first rest, number.text = first :: rest ∧
    (first = 0x2D ∨ isDigit first = true) := by
  obtain ⟨decimal, _⟩ := number.decimal
  rw [text]
  cases number.minus with
  | true => exact ⟨_, _, rfl, .inl rfl⟩
  | false =>
    rcases number.leading with zero | ⟨first, more, same, _⟩
    · rw [zero]
      exact ⟨_, _, rfl, .inr (by decide)⟩
    · rw [same] at decimal ⊢
      exact ⟨_, _, rfl, .inr (decimal first List.mem_cons_self)⟩

private theorem exponent_stops (exponent : Option Exponent) {rest : List UInt16} (stop : Stops rest) :
    ∀ unit ∈ (NumberText.exponentText exponent ++ rest).head?, isDigit unit = false ∧ unit ≠ 0x2E := by
  intro unit head
  cases exponent with
  | none => exact ⟨(stop unit head).1, (stop unit head).2.1⟩
  | some exponent =>
    cases Option.some.inj head
    rcases exponent.marked with mark | mark
    · rw [mark]
      decide
    · rw [mark]
      decide

private theorem fraction_stops (fraction : List UInt16) {rest : List UInt16}
    (stop : ∀ unit ∈ rest.head?, isDigit unit = false) :
    ∀ unit ∈ (NumberText.fractionText fraction ++ rest).head?, isDigit unit = false := by
  intro unit head
  unfold NumberText.fractionText at head
  split at head
  · exact stop unit head
  · cases Option.some.inj head
    decide

/-- A number is read whole, where nothing behind it can belong to it. -/
theorem scanNumeral_text (number : NumberText) {rest : List UInt16} (stop : Stops rest) :
    scanNumeral (number.text ++ rest) = some (number.numeral, rest) := by
  obtain ⟨decimal, fractional⟩ := number.decimal
  have behind := exponent_stops number.exponent stop
  have nonempty : number.whole ≠ [] := by
    rcases number.leading with zero | ⟨first, more, same, _⟩
    · simp [zero]
    · simp [same]
  have unsigned : (number.whole ++ (NumberText.fractionText number.fraction ++
      (NumberText.exponentText number.exponent ++ rest))).head? ≠ some 0x2D := by
    intro head
    rw [List.head?_append_of_ne_nil _ nonempty] at head
    exact absurd (decimal _ (List.mem_of_mem_head? head)) (by decide)
  have whole := scanWhole_text number.leading decimal
    (fraction_stops number.fraction fun unit head => (behind unit head).1)
  have fraction := scanFraction_text fractional behind
  have exponent := scanExponent_text number.exponent stop
  simp only [NumberText.text, List.append_assoc, scanNumeral, scanSign_text number.minus unsigned,
    whole, Option.bind_eq_bind, Option.bind_some, fraction, exponent]
  rfl

end N2FNest.Shared.Json
