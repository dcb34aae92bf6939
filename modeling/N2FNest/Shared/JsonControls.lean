import Mathlib.Data.List.DropRight
import N2FNest.Shared.Stringify

/-! Some units of a JSON text written by their numbers. Beyond the printable ASCII ones
they stand in strings only, where `JSON.parse` reads a number as the unit itself. -/

namespace N2FNest.Shared.Json

open Lib
open Decimal (isDigit)

/-- What a scan of a text finds holds of its units. -/
theorem forall_of_all {holds : UInt16 → Prop} [DecidablePred holds] {text : List UInt16}
    (all : text.all (fun unit => holds unit) = true) : ∀ unit ∈ text, holds unit :=
  fun unit member => of_decide_eq_true (List.all_eq_true.mp all unit member)

/-- Every marked unit by its number. -/
def numbered (marked : UInt16 → Bool) (text : List UInt16) : List UInt16 :=
  text.flatMap fun unit => if marked unit then unicodeEscape unit else [unit]

section

variable {marked : UInt16 → Bool} (high : ∀ unit, marked unit = true → 0x7F ≤ unit)

theorem numbered_append (left right : List UInt16) :
    numbered marked (left ++ right) = numbered marked left ++ numbered marked right :=
  List.flatMap_append

theorem numbered_plain {text : List UInt16} (plain : ∀ unit ∈ text, marked unit = false) :
    numbered marked text = text := by
  induction text with
  | nil => rfl
  | cons unit rest ih =>
    obtain ⟨here, later⟩ := List.forall_mem_cons.mp plain
    rw [numbered, List.flatMap_cons, here]
    exact congrArg (unit :: ·) (ih later)

include high

private theorem unmarked {unit : UInt16} (low : unit < 0x7F) : marked unit = false := by
  by_contra other
  have above := high unit (Bool.not_eq_false _ ▸ other)
  exact absurd low (UInt16.not_lt.mpr above)

theorem numbered_low {unit : UInt16} (low : unit < 0x7F) (rest : List UInt16) :
    numbered marked (unit :: rest) = unit :: numbered marked rest := by
  rw [numbered, List.flatMap_cons, unmarked high low]
  rfl

theorem numbered_word {word : List UInt16} (low : ∀ unit ∈ word, unit < 0x7F) :
    numbered marked word = word :=
  numbered_plain fun unit member => unmarked high (low unit member)

/-- What a scanner sees first: the same unit, or one that means nothing outside a string. -/
private theorem numbered_cons (unit : UInt16) (rest : List UInt16) :
    unit < 0x7F ∧ numbered marked (unit :: rest) = unit :: numbered marked rest ∨
      ¬ unit < 0x7F ∧ ∃ first more, numbered marked (unit :: rest) = first :: more ∧
        (first = backslash ∨ ¬ first < 0x7F) := by
  by_cases low : unit < 0x7F
  · exact .inl ⟨low, numbered_low high low rest⟩
  · refine .inr ⟨low, ?_⟩
    by_cases mark : marked unit = true
    · rw [numbered, List.flatMap_cons, if_pos mark]
      exact ⟨backslash, _, rfl, .inl rfl⟩
    · rw [numbered, List.flatMap_cons, if_neg mark]
      exact ⟨unit, _, rfl, .inr low⟩

omit high in
/-- No token but a string has such a unit. -/
private theorem foreign {unit : UInt16} (other : unit = backslash ∨ ¬ unit < 0x7F) :
    isBlank unit = false ∧ isDigit unit = false ∧ unit ≠ quoteMark ∧ unit ≠ 0x2B ∧ unit ≠ 0x2C ∧
      unit ≠ 0x2D ∧ unit ≠ 0x2E ∧ unit ≠ 0x3A ∧ unit ≠ 0x30 ∧ unit ≠ 0x45 ∧ unit ≠ 0x5B ∧
      unit ≠ 0x5D ∧ unit ≠ 0x65 ∧ unit ≠ 0x66 ∧ unit ≠ 0x6E ∧ unit ≠ 0x74 ∧ unit ≠ 0x7B ∧
      unit ≠ 0x7D := by
  rcases other with rfl | above
  · decide
  · rw [UInt16.not_lt, UInt16.le_iff_toNat_le] at above
    simp only [isBlank, isDigit, quoteMark, Bool.or_eq_false_iff, beq_eq_false_iff_ne, ne_eq,
      Bool.and_eq_false_iff, decide_eq_false_iff_not, UInt16.le_iff_toNat_le, UInt16.toNat_inj.symm,
      UInt16.reduceToNat] at above ⊢
    omega

/-- Scanning up to the first unit that is not taken. -/
private theorem span_numbered {takes : UInt16 → Bool}
    (only : ∀ unit, unit = backslash ∨ ¬ unit < 0x7F → takes unit = false) (text : List UInt16) :
    (numbered marked text).takeWhile takes = text.takeWhile takes ∧
      (numbered marked text).dropWhile takes = numbered marked (text.dropWhile takes) := by
  induction text with
  | nil => exact ⟨rfl, rfl⟩
  | cons unit rest ih =>
    rcases numbered_cons high unit rest with ⟨low, same⟩ | ⟨above, first, more, same, other⟩
    · by_cases taken : takes unit = true
      · rw [same]
        simp [taken, ih]
      · rw [same]
        simp [taken, same]
    · rw [same]
      simp [only first other, only unit (.inr above), same]

theorem skipBlanks_numbered (text : List UInt16) :
    skipBlanks (numbered marked text) = numbered marked (skipBlanks text) :=
  (span_numbered high (fun _ other => (foreign other).1) text).2

private theorem digits_numbered (text : List UInt16) :
    (numbered marked text).takeWhile isDigit = text.takeWhile isDigit ∧
      (numbered marked text).dropWhile isDigit = numbered marked (text.dropWhile isDigit) :=
  span_numbered high (fun _ other => (foreign other).2.1) text

private theorem scanSign_numbered (text : List UInt16) :
    scanSign (numbered marked text) = ((scanSign text).1, numbered marked (scanSign text).2) := by
  cases text with
  | nil => rfl
  | cons unit rest =>
    rcases numbered_cons high unit rest with ⟨low, same⟩ | ⟨above, first, more, same, other⟩
    · rw [same]
      by_cases minus : unit = 0x2D <;> simp [scanSign, minus, same]
    · have apart := foreign other
      have also := foreign (.inr above)
      rw [same]
      simp [scanSign, apart, also, same]

private theorem scanWhole_numbered {text whole rest : List UInt16}
    (scanned : scanWhole text = some (whole, rest)) :
    scanWhole (numbered marked text) = some (whole, numbered marked rest) := by
  cases text with
  | nil => cases scanned
  | cons unit more =>
    have digits := digits_numbered high more
    rcases numbered_cons high unit more with ⟨low, same⟩ | ⟨above, _⟩
    · rw [same]
      by_cases zero : unit = 0x30
      · simp only [scanWhole, if_pos zero, Option.some.injEq, Prod.mk.injEq] at scanned ⊢
        rw [← scanned.2]
        exact ⟨scanned.1, rfl⟩
      · by_cases digit : isDigit unit = true
        · simp only [scanWhole, if_neg zero, if_pos digit, Option.some.injEq, Prod.mk.injEq,
            digits] at scanned ⊢
          rw [← scanned.2]
          exact ⟨scanned.1, rfl⟩
        · simp [scanWhole, zero, digit] at scanned
    · have also := foreign (.inr above)
      simp [scanWhole, also] at scanned

private theorem scanFraction_numbered (text : List UInt16) : scanFraction (numbered marked text) =
    ((scanFraction text).1, numbered marked (scanFraction text).2) := by
  cases text with
  | nil => rfl
  | cons unit rest =>
    have digits := digits_numbered high rest
    rcases numbered_cons high unit rest with ⟨low, same⟩ | ⟨above, first, more, same, other⟩
    · rw [same]
      simp only [scanFraction, digits]
      split
      · rfl
      · rw [same]
    · have apart := foreign other
      have also := foreign (.inr above)
      rw [same]
      simp [scanFraction, apart, also, same]

private theorem scanExponentSign_numbered (text : List UInt16) :
    scanExponentSign (numbered marked text) =
      ((scanExponentSign text).1, numbered marked (scanExponentSign text).2) := by
  cases text with
  | nil => rfl
  | cons unit rest =>
    rcases numbered_cons high unit rest with ⟨low, same⟩ | ⟨above, first, more, same, other⟩
    · rw [same]
      by_cases minus : unit = 0x2D
      · simp [scanExponentSign, minus]
      · by_cases plus : unit = 0x2B <;> simp [scanExponentSign, minus, plus, same]
    · have apart := foreign other
      have also := foreign (.inr above)
      rw [same]
      simp [scanExponentSign, apart, also, same]

private theorem scanExponent_numbered (text : List UInt16) : scanExponent (numbered marked text) =
    ((scanExponent text).1, (scanExponent text).2.1, numbered marked (scanExponent text).2.2) := by
  cases text with
  | nil => rfl
  | cons unit rest =>
    rcases numbered_cons high unit rest with ⟨low, same⟩ | ⟨above, first, more, same, other⟩
    · have sign := scanExponentSign_numbered high rest
      have digits := digits_numbered high (scanExponentSign rest).2
      rw [same]
      simp only [scanExponent, sign, digits]
      split
      · rfl
      · rw [same]
    · have apart := foreign other
      have also := foreign (.inr above)
      rw [same]
      simp [scanExponent, apart, also, same]

private theorem scanNumeral_numbered {text rest : List UInt16} {numeral : Numeral}
    (scanned : scanNumeral text = some (numeral, rest)) :
    scanNumeral (numbered marked text) = some (numeral, numbered marked rest) := by
  simp only [scanNumeral] at scanned ⊢
  obtain ⟨⟨whole, unread⟩, wholly, scanned⟩ := Option.bind_eq_some_iff.mp scanned
  cases Option.some.inj scanned
  simp only [scanSign_numbered high, scanWhole_numbered high wholly, Option.bind_eq_bind,
    Option.bind_some, scanFraction_numbered high, scanExponent_numbered high]
  rfl

omit high in
private theorem short_low {letter value : UInt16} (known : escape? letter = some value) :
    letter < 0x7F := by
  by_contra above
  rw [UInt16.not_lt, UInt16.le_iff_toNat_le] at above
  have unknown : escape? letter = none := by
    have apart : ∀ code : UInt16, code.toNat < 0x7F → letter ≠ code := by
      rintro code small rfl
      simp only [UInt16.reduceToNat] at above
      omega
    simp [escape?, apart 0x22 (by decide), apart 0x5C (by decide), apart 0x2F (by decide),
      apart 0x62 (by decide), apart 0x66 (by decide), apart 0x6E (by decide), apart 0x72 (by decide),
      apart 0x74 (by decide)]
  rw [unknown] at known
  cases known

omit high in
private theorem hexDigit_low {unit : UInt16} {value : Nat} (known : hexDigit? unit = some value) :
    unit < 0x7F := by
  by_contra above
  rw [UInt16.not_lt, UInt16.le_iff_toNat_le] at above
  have unknown : hexDigit? unit = none := by
    simp only [UInt16.reduceToNat] at above
    have first : isDigit unit = false := by
      simp only [isDigit, Bool.and_eq_false_iff, decide_eq_false_iff_not, UInt16.le_iff_toNat_le,
        UInt16.reduceToNat]
      omega
    have second : ¬ unit ≤ 0x66 := by
      rw [UInt16.le_iff_toNat_le]
      simp only [UInt16.reduceToNat]
      omega
    have third : ¬ unit ≤ 0x46 := by
      rw [UInt16.le_iff_toNat_le]
      simp only [UInt16.reduceToNat]
      omega
    simp [hexDigit?, first, second, third]
  rw [unknown] at known
  cases known

omit high in
private theorem hexUnit_low {first second third fourth value : UInt16}
    (known : hexUnit? first second third fourth = some value) :
    first < 0x7F ∧ second < 0x7F ∧ third < 0x7F ∧ fourth < 0x7F := by
  simp only [hexUnit?, Option.bind_eq_bind, Option.bind_eq_some_iff] at known
  obtain ⟨_, one, _, two, _, three, _, four, _⟩ := known
  exact ⟨hexDigit_low one, hexDigit_low two, hexDigit_low three, hexDigit_low four⟩

omit high in
private theorem readString_number {first second third fourth value : UInt16}
    (known : hexUnit? first second third fourth = some value) (rest : List UInt16) :
    readString (backslash :: 0x75 :: first :: second :: third :: fourth :: rest) =
      (readString rest).map fun (units, after) => (value :: units, after) := by
  have slash : ¬ backslash ≠ backslash := fun other => other rfl
  have letter : escape? 0x75 = none := by decide
  rw [readString.eq_def]
  simp only [if_neg (by decide : backslash ≠ quoteMark), if_neg (by decide : ¬ backslash < 0x20),
    if_neg slash, letter, known, if_true]

/-- In a string a number reads as the unit it stands for. -/
theorem readString_numbered {text units after : List UInt16}
    (read : readString text = some (units, after)) :
    readString (numbered marked text) = some (units, numbered marked after) := by
  induction text using readString.induct generalizing units with
  | case1 => cases read
  | case2 rest =>
    rw [readString_end, Option.some.injEq, Prod.mk.injEq] at read
    rw [numbered_low high (by decide), readString_end, ← read.1, read.2]
  | case3 unit rest mark control =>
    rw [readString.eq_def] at read
    simp [mark, control] at read
  | case4 unit rest mark printable slash ih =>
    rw [readString_plain mark printable slash] at read
    obtain ⟨⟨later, behind⟩, inner, same⟩ := Option.map_eq_some_iff.mp read
    cases same
    have goes := ih inner
    by_cases number : marked unit = true
    · rw [numbered, List.flatMap_cons, if_pos number, readString_unicode]
      exact congrArg _ goes
    · rw [numbered, List.flatMap_cons, if_neg number, List.singleton_append,
        readString_plain mark printable slash]
      exact congrArg _ goes
  | case5 unit mark printable slash =>
    rw [readString.eq_def] at read
    simp [mark, printable, slash] at read
  | case6 unit mark printable slash letter rest value known ih =>
    have slash : unit = backslash := not_not.mp slash
    subst slash
    rw [readString_escape known] at read
    obtain ⟨⟨later, behind⟩, inner, same⟩ := Option.map_eq_some_iff.mp read
    cases same
    rw [numbered_low high (by decide), numbered_low high (short_low known), readString_escape known,
      ih inner]
    rfl
  | case7 unit mark printable slash first second third fourth rest value known letter ih =>
    have slash : unit = backslash := not_not.mp slash
    subst slash
    rw [readString_number known] at read
    obtain ⟨⟨later, behind⟩, inner, same⟩ := Option.map_eq_some_iff.mp read
    cases same
    obtain ⟨one, two, three, four⟩ := hexUnit_low known
    rw [numbered_low high (by decide), numbered_low high (by decide), numbered_low high one,
      numbered_low high two, numbered_low high three, numbered_low high four,
      readString_number known, ih inner]
    rfl
  | case8 unit mark printable slash first second third fourth rest unknown letter =>
    rw [readString.eq_def] at read
    simp [mark, printable, slash, letter, unknown] at read
  | case9 unit mark printable slash rest short letter =>
    rw [readString.eq_def] at read
    simp only [mark, printable, slash, letter, if_false, if_true] at read
    cases read
  | case10 unit mark printable slash letter rest unknown other =>
    rw [readString.eq_def] at read
    simp [mark, printable, slash, unknown, other] at read

private theorem readLiteral_numbered {word : String} {value result : JsValue} {text rest : List UInt16}
    (low : ∀ unit ∈ (js word).units, unit < 0x7F)
    (read : readLiteral word value text = some (result, rest)) :
    readLiteral word value (numbered marked text) = some (result, numbered marked rest) := by
  unfold readLiteral at read
  split at read
  · rename_i leads
    obtain ⟨after, rfl⟩ := leads
    rw [List.drop_left, Option.some.injEq, Prod.mk.injEq] at read
    unfold readLiteral
    rw [numbered_append, numbered_word high low, if_pos (List.prefix_append _ _), List.drop_left,
      read.1, read.2]
  · cases read

/-- The mark behind a value or a name. -/
private theorem mark_numbered {text rest : List UInt16} {unit : UInt16}
    (seen : skipBlanks text = unit :: rest) (low : unit < 0x7F) :
    skipBlanks (numbered marked text) = unit :: numbered marked rest := by
  rw [skipBlanks_numbered high, seen, numbered_low high low]

section Containers

variable {item other : List UInt16 → Option (JsValue × List UInt16)}
  (items : ∀ text value rest, item text = some (value, rest) →
    other (numbered marked text) = some (value, numbered marked rest))
include items

private theorem readElements_numbered {fuel more : Nat} (enough : fuel ≤ more)
    {text rest : List UInt16} {values : List JsValue}
    (read : readElements item fuel text = some (values, rest)) :
    readElements other more (numbered marked text) = some (values, numbered marked rest) := by
  induction fuel generalizing more text values with
  | zero => cases read
  | succ fuel ih =>
    obtain ⟨more, rfl⟩ : ∃ less, more = less + 1 := ⟨more - 1, by omega⟩
    rw [readElements] at read ⊢
    obtain ⟨⟨value, behind⟩, first, read⟩ := Option.bind_eq_some_iff.mp read
    rw [items text value behind first, Option.bind_eq_bind, Option.bind_some]
    dsimp only at read ⊢
    cases seen : skipBlanks behind with
    | nil =>
      rw [seen] at read
      cases read
    | cons unit after =>
      rw [seen] at read
      dsimp only at read
      by_cases comma : unit = 0x2C
      · subst comma
        rw [if_pos rfl] at read
        obtain ⟨⟨others, finish⟩, later, same⟩ := Option.bind_eq_some_iff.mp read
        cases Option.some.inj same
        rw [mark_numbered high seen (by decide)]
        dsimp only
        rw [if_pos rfl, ih (by omega) later]
        rfl
      · rw [if_neg comma] at read
        by_cases bracket : unit = 0x5D
        · subst bracket
          rw [if_pos rfl] at read
          cases Option.some.inj read
          rw [mark_numbered high seen (by decide)]
          rfl
        · rw [if_neg bracket] at read
          cases read

private theorem readMember_numbered {text rest : List UInt16} {name : JsString} {value : JsValue}
    (read : readMember item text = some (name, value, rest)) :
    readMember other (numbered marked text) = some (name, value, numbered marked rest) := by
  rw [readMember] at read ⊢
  cases seen : skipBlanks text with
  | nil =>
    rw [seen] at read
    cases read
  | cons unit after =>
    rw [seen] at read
    dsimp only at read
    by_cases mark : unit = quoteMark
    · subst mark
      rw [if_pos rfl] at read
      obtain ⟨⟨letters, behind⟩, named, read⟩ := Option.bind_eq_some_iff.mp read
      rw [mark_numbered high seen (by decide)]
      dsimp only at read ⊢
      rw [if_pos rfl, readString_numbered high named, Option.bind_eq_bind, Option.bind_some]
      dsimp only
      cases also : skipBlanks behind with
      | nil =>
        rw [also] at read
        cases read
      | cons colon finish =>
        rw [also] at read
        dsimp only at read
        by_cases same : colon = 0x3A
        · subst same
          rw [if_pos rfl] at read
          obtain ⟨⟨found, left⟩, inner, read⟩ := Option.bind_eq_some_iff.mp read
          cases Option.some.inj read
          rw [mark_numbered high also (by decide)]
          dsimp only
          rw [if_pos rfl, items _ _ _ inner]
          rfl
        · rw [if_neg same] at read
          cases read
    · rw [if_neg mark] at read
      cases read

private theorem readMembers_numbered {fuel more : Nat} (enough : fuel ≤ more) {known fields : JsObject}
    {text rest : List UInt16} (read : readMembers item fuel known text = some (fields, rest)) :
    readMembers other more known (numbered marked text) = some (fields, numbered marked rest) := by
  induction fuel generalizing more known text with
  | zero => cases read
  | succ fuel ih =>
    obtain ⟨more, rfl⟩ : ∃ less, more = less + 1 := ⟨more - 1, by omega⟩
    rw [readMembers] at read ⊢
    obtain ⟨⟨name, value, behind⟩, first, read⟩ := Option.bind_eq_some_iff.mp read
    rw [readMember_numbered high items first, Option.bind_eq_bind, Option.bind_some]
    dsimp only at read ⊢
    cases seen : skipBlanks behind with
    | nil =>
      rw [seen] at read
      cases read
    | cons unit after =>
      rw [seen] at read
      dsimp only at read
      by_cases comma : unit = 0x2C
      · subst comma
        rw [if_pos rfl] at read
        rw [mark_numbered high seen (by decide)]
        exact ih (by omega) read
      · rw [if_neg comma] at read
        by_cases brace : unit = 0x7D
        · subst brace
          rw [if_pos rfl] at read
          cases Option.some.inj read
          rw [mark_numbered high seen (by decide)]
          rfl
        · rw [if_neg brace] at read
          cases read

end Containers

/-- A container's text behind its opening bracket that is not empty is not made so. -/
private theorem filled_numbered {text : List UInt16} {close : UInt16} (low : close < 0x7F)
    (slash : close ≠ backslash) (filled : ∀ after, skipBlanks text ≠ close :: after) :
    ∀ after, skipBlanks (numbered marked text) ≠ close :: after := by
  intro after seen
  rw [skipBlanks_numbered high] at seen
  cases shown : skipBlanks text with
  | nil =>
    rw [shown] at seen
    cases seen
  | cons unit rest =>
    rw [shown] at seen
    rcases numbered_cons high unit rest with ⟨_, same⟩ | ⟨_, first, more, same, other⟩
    · rw [same] at seen
      apply filled rest
      rw [shown, (List.cons.inj seen).1]
    · rw [same] at seen
      cases (List.cons.inj seen).1
      rcases other with escaped | above
      · exact slash escaped
      · exact above low

omit high in
private theorem length_le_numbered (text : List UInt16) : text.length ≤ (numbered marked text).length := by
  induction text with
  | nil => exact Nat.le_refl 0
  | cons unit rest ih =>
    rw [numbered, List.flatMap_cons, List.length_append, List.length_cons]
    have one : 1 ≤ (if marked unit then unicodeEscape unit else [unit]).length := by
      split <;> simp [unicodeEscape]
    have behind : rest.length ≤
        (rest.flatMap fun unit => if marked unit then unicodeEscape unit else [unit]).length := ih
    omega

omit high in
private theorem readValue_skip (fuel : Nat) (text : List UInt16) :
    readValue fuel text = readValue fuel (skipBlanks text) := by
  have twice : skipBlanks (skipBlanks text) = skipBlanks text :=
    List.dropWhile_idempotent isBlank text
  cases fuel with
  | zero => rfl
  | succ fuel => rw [readValue, readValue, twice]

section Nested

variable {fuel more : Nat} (items : ∀ text value rest, readValue fuel text = some (value, rest) →
  readValue more (numbered marked text) = some (value, numbered marked rest))
include items

private theorem array_numbered {text rest : List UInt16} {value : JsValue}
    (read : readValue (fuel + 1) (0x5B :: text) = some (value, rest)) :
    readValue (more + 1) (0x5B :: numbered marked text) = some (value, numbered marked rest) := by
  have dark : isBlank 0x5B = false := by decide
  have mark : (0x5B : UInt16) ≠ quoteMark := by decide
  rw [readValue, skipBlanks_cons dark] at read ⊢
  dsimp only at read ⊢
  rw [if_neg mark, if_pos rfl] at read ⊢
  split at read
  · rename_i behind empty
    cases Option.some.inj read
    rw [mark_numbered high empty (by decide)]
    rfl
  · rename_i filled
    obtain ⟨⟨values, behind⟩, inner, same⟩ := Option.map_eq_some_iff.mp read
    cases same
    have still := filled_numbered high (by decide) (by decide) filled
    have room : text.length ≤ (numbered marked text).length := length_le_numbered text
    have elements := readElements_numbered high items room inner
    split
    · rename_i behind empty
      exact absurd empty (still behind)
    · rw [elements]
      rfl

private theorem object_numbered {text rest : List UInt16} {value : JsValue}
    (read : readValue (fuel + 1) (0x7B :: text) = some (value, rest)) :
    readValue (more + 1) (0x7B :: numbered marked text) = some (value, numbered marked rest) := by
  have dark : isBlank 0x7B = false := by decide
  have mark : (0x7B : UInt16) ≠ quoteMark := by decide
  have bracket : (0x7B : UInt16) ≠ 0x5B := by decide
  rw [readValue, skipBlanks_cons dark] at read ⊢
  dsimp only at read ⊢
  rw [if_neg mark, if_neg bracket, if_pos rfl] at read ⊢
  split at read
  · rename_i behind empty
    cases Option.some.inj read
    rw [mark_numbered high empty (by decide)]
    rfl
  · rename_i filled
    obtain ⟨⟨fields, behind⟩, inner, same⟩ := Option.map_eq_some_iff.mp read
    cases same
    have still := filled_numbered high (by decide) (by decide) filled
    have room : text.length ≤ (numbered marked text).length := length_le_numbered text
    have members := readMembers_numbered high items room inner
    split
    · rename_i behind empty
      exact absurd empty (still behind)
    · rw [members]
      rfl

end Nested

/-- One value is read as before, with as much fuel or more. -/
theorem readValue_numbered {fuel more : Nat} (enough : fuel ≤ more) {text rest : List UInt16}
    {value : JsValue} (read : readValue fuel text = some (value, rest)) :
    readValue more (numbered marked text) = some (value, numbered marked rest) := by
  induction fuel generalizing more text value rest with
  | zero => cases read
  | succ fuel ih =>
    obtain ⟨more, rfl⟩ : ∃ less, more = less + 1 := ⟨more - 1, by omega⟩
    have items : ∀ text value rest, readValue fuel text = some (value, rest) →
        readValue more (numbered marked text) = some (value, numbered marked rest) :=
      fun _ _ _ inner => ih (by omega) inner
    rw [readValue_skip, skipBlanks_numbered high]
    rw [readValue_skip] at read
    cases seen : skipBlanks text with
    | nil =>
      rw [seen] at read
      cases read
    | cons unit after =>
      rw [seen] at read
      by_cases bracket : unit = 0x5B
      · subst bracket
        rw [numbered_low high (by decide)]
        exact array_numbered high items read
      by_cases brace : unit = 0x7B
      · subst brace
        rw [numbered_low high (by decide)]
        exact object_numbered high items read
      have dark : isBlank unit = false := by
        have first := List.head?_dropWhile_not isBlank text
        have head : (text.dropWhile isBlank).head? = some unit := congrArg List.head? seen
        rw [head] at first
        exact first
      rw [readValue, skipBlanks_cons dark] at read
      dsimp only at read
      by_cases mark : unit = quoteMark
      · subst mark
        rw [if_pos rfl] at read
        obtain ⟨⟨units, behind⟩, inner, same⟩ := Option.map_eq_some_iff.mp read
        cases same
        rw [numbered_low high (by decide)]
        exact readValue_string _ (readString_numbered high inner)
      rw [if_neg mark, if_neg bracket, if_neg brace] at read
      have reads : unit < 0x7F → readValue (more + 1) (numbered marked (unit :: after)) =
          if unit = 0x74 then readLiteral "true" (.bool true) (unit :: numbered marked after)
          else if unit = 0x66 then readLiteral "false" (.bool false) (unit :: numbered marked after)
          else if unit = 0x6E then readLiteral "null" .null (unit :: numbered marked after)
          else (scanNumeral (unit :: numbered marked after)).map fun scanned =>
            (.number scanned.1.number, scanned.2) := by
        intro low
        rw [numbered_low high low, readValue, skipBlanks_cons dark]
        dsimp only
        rw [if_neg mark, if_neg bracket, if_neg brace]
      have literal : ∀ (word : String) (result : JsValue), (∀ letter ∈ (js word).units, letter < 0x7F) →
          unit < 0x7F → readLiteral word result (unit :: after) = some (value, rest) →
          readLiteral word result (unit :: numbered marked after) = some (value, numbered marked rest) := by
        intro word result letters low inner
        rw [← numbered_low high low]
        exact readLiteral_numbered high letters inner
      split at read
      · rename_i letter
        have low : unit < 0x7F := by rw [letter]; decide
        rw [reads low, if_pos letter]
        exact literal "true" _ (forall_of_all rfl) low read
      rename_i letterT
      split at read
      · rename_i letter
        have low : unit < 0x7F := by rw [letter]; decide
        rw [reads low, if_neg letterT, if_pos letter]
        exact literal "false" _ (forall_of_all rfl) low read
      rename_i letterF
      split at read
      · rename_i letter
        have low : unit < 0x7F := by rw [letter]; decide
        rw [reads low, if_neg letterT, if_neg letterF, if_pos letter]
        exact literal "null" _ (forall_of_all rfl) low read
      rename_i letterN
      obtain ⟨⟨numeral, behind⟩, inner, same⟩ := Option.map_eq_some_iff.mp read
      cases same
      have low : unit < 0x7F := by
        obtain ⟨number, written, _⟩ := scanNumeral_sound inner
        obtain ⟨first, letters, spelled, sort⟩ := number.head
        rw [spelled, List.cons_append] at written
        rw [(List.cons.inj written).1]
        by_contra above
        have apart := foreign (.inr above)
        rcases sort with minus | digit
        · exact apart.2.2.2.2.2.1 minus
        · rw [apart.2.1] at digit
          cases digit
      have scanned := scanNumeral_numbered high inner
      rw [numbered_low high low] at scanned
      rw [reads low, if_neg letterT, if_neg letterF, if_neg letterN, scanned]
      rfl

/-- `JSON.parse` reads the same value from a text whose marked units are numbered. -/
theorem parse_numbered {text : JsString} {value : JsValue} (read : parse text = some value) :
    parse ⟨numbered marked text.units⟩ = some value := by
  unfold parse at read ⊢
  obtain ⟨⟨result, rest⟩, inner, ends⟩ := Option.bind_eq_some_iff.mp read
  dsimp only at ends
  have enough : text.units.length + 1 ≤ (numbered marked text.units).length + 1 :=
    Nat.succ_le_succ (length_le_numbered text.units)
  rw [readValue_numbered high enough inner, Option.bind_eq_bind, Option.bind_some]
  dsimp only
  split at ends
  · rename_i finished
    rw [skipBlanks_numbered high, finished]
    exact ends
  · cases ends

end

private theorem hexDigit_printable {value : Nat} (small : value < 16) : 0x20 ≤ hexDigit value := by
  have all : ∀ digit : Fin 16, 0x20 ≤ hexDigit digit.val := by decide
  exact all ⟨value, small⟩

theorem unicodeEscape_printable (unit : UInt16) : ∀ written ∈ unicodeEscape unit, 0x20 ≤ written := by
  have bound := unit.toNat_lt
  simp only [unicodeEscape, List.forall_mem_cons]
  exact ⟨by decide, by decide, hexDigit_printable (by omega),
    hexDigit_printable (Nat.mod_lt _ (by decide)), hexDigit_printable (Nat.mod_lt _ (by decide)),
    hexDigit_printable (Nat.mod_lt _ (by decide)), by simp⟩

private theorem escapeUnit_printable (unit : UInt16) : ∀ written ∈ escapeUnit unit, 0x20 ≤ written := by
  unfold escapeUnit
  split_ifs with _ _ _ _ _ mark control
  iterate 5 exact forall_of_all rfl
  · rcases mark with rfl | rfl <;> exact forall_of_all rfl
  · exact unicodeEscape_printable unit
  · exact List.forall_mem_singleton.mpr (UInt16.not_lt.mp control)

private theorem surrogate_printable {unit : UInt16} (surrogate : 0xD800 ≤ unit) : 0x20 ≤ unit :=
  UInt16.le_trans (by decide) surrogate

theorem escapeString_printable (units : List UInt16) :
    ∀ written ∈ escapeString units, 0x20 ≤ written := by
  induction units using escapeString.induct with
  | case1 => simp [escapeString]
  | case2 unit lone =>
    rw [escapeString, if_pos lone]
    exact unicodeEscape_printable unit
  | case3 unit plain =>
    rw [escapeString, if_neg plain]
    exact escapeUnit_printable unit
  | case4 unit next more paired ih =>
    obtain ⟨high, low⟩ := Bool.and_eq_true_iff.mp paired
    have first : 0xD800 ≤ unit := of_decide_eq_true (Bool.and_eq_true_iff.mp high).1
    have least : 0xDC00 ≤ next := of_decide_eq_true (Bool.and_eq_true_iff.mp low).1
    have second : 0xD800 ≤ next := UInt16.le_trans (by decide) least
    rw [escapeString, if_pos paired]
    exact List.forall_mem_cons.mpr ⟨surrogate_printable first,
      List.forall_mem_cons.mpr ⟨surrogate_printable second, ih⟩⟩
  | case5 unit next more unpaired lone ih =>
    rw [escapeString, if_neg unpaired, if_pos lone]
    exact List.forall_mem_append.mpr ⟨unicodeEscape_printable unit, ih⟩
  | case6 unit next more unpaired plain ih =>
    rw [escapeString, if_neg unpaired, if_neg plain]
    exact List.forall_mem_append.mpr ⟨escapeUnit_printable unit, ih⟩

theorem quote_printable (text : JsString) : ∀ written ∈ quote text, 0x20 ≤ written := by
  rw [quote, List.cons_append]
  refine List.forall_mem_cons.mpr ⟨by decide, List.forall_mem_append.mpr ⟨?_, forall_of_all rfl⟩⟩
  exact escapeString_printable text.units

private theorem digit_printable {unit : UInt16} (digit : isDigit unit = true) : 0x20 ≤ unit := by
  simp only [isDigit, Bool.and_eq_true, decide_eq_true_eq] at digit
  exact UInt16.le_trans (by decide) digit.1

private theorem number_printable (number : NumberText) : ∀ unit ∈ number.text, 0x20 ≤ unit := by
  obtain ⟨whole, fraction⟩ := number.decimal
  refine List.forall_mem_append.mpr ⟨?_, List.forall_mem_append.mpr
    ⟨fun unit member => digit_printable (whole unit member), List.forall_mem_append.mpr ⟨?_, ?_⟩⟩⟩
  · split
    · exact forall_of_all rfl
    · exact nofun
  · unfold NumberText.fractionText
    split
    · exact nofun
    · exact List.forall_mem_cons.mpr ⟨by decide, fun unit member => digit_printable (fraction unit member)⟩
  · unfold NumberText.exponentText
    cases number.exponent with
    | none => exact nofun
    | some exponent =>
      refine List.forall_mem_cons.mpr ⟨?_, List.forall_mem_append.mpr ⟨?_, ?_⟩⟩
      · rcases exponent.marked with mark | mark <;> rw [mark] <;> decide
      · rcases exponent.signed with sign | sign | sign <;> rw [sign] <;> exact forall_of_all rfl
      · exact fun unit member => digit_printable (exponent.decimal unit member)

mutual

theorem write_printable : (value : JsValue) → Tidy value → ∀ unit ∈ write value, 0x20 ≤ unit
  | .undefined, tidy | .number .nan, tidy | .number (.infinite _), tidy => tidy.elim
  | .null, _ => forall_of_all rfl
  | .bool true, _ | .bool false, _ => forall_of_all rfl
  | .number (.finite value), tidy => by
    obtain ⟨number, same, _⟩ := Digits.text_reads tidy.1 tidy.2
    rw [write, ← same]
    exact number_printable number
  | .string text, _ => quote_printable text
  | .array items, tidy => List.forall_mem_cons.mpr ⟨by decide, writeItems_printable items tidy⟩
  | .object fields, tidy => List.forall_mem_cons.mpr ⟨by decide, writeFields_printable fields tidy.2⟩
  termination_by structural value => value

private theorem writeItems_printable : (items : List JsValue) → TidyItems items →
    ∀ unit ∈ writeItems items, 0x20 ≤ unit
  | [], _ => forall_of_all rfl
  | item :: rest, tidy => by
    have here := write_printable item tidy.1
    have later := writeItems_printable rest tidy.2
    rw [writeItems]
    refine List.forall_mem_append.mpr ⟨here, List.forall_mem_append.mpr ⟨?_, later⟩⟩
    split <;> exact forall_of_all rfl
  termination_by structural items => items

private theorem writeFields_printable : (fields : List (JsString × JsValue)) → TidyFields fields →
    ∀ unit ∈ writeFields fields, 0x20 ≤ unit
  | [], _ => forall_of_all rfl
  | field :: rest, tidy => by
    have here := writeField_printable field tidy.1
    have later := writeFields_printable rest tidy.2
    rw [writeFields]
    refine List.forall_mem_append.mpr ⟨here, List.forall_mem_append.mpr ⟨?_, later⟩⟩
    split <;> exact forall_of_all rfl
  termination_by structural fields => fields

private theorem writeField_printable : (field : JsString × JsValue) → TidyField field →
    ∀ unit ∈ writeField field, 0x20 ≤ unit
  | (name, value), tidy => by
    have here := write_printable value tidy
    rw [writeField]
    refine List.forall_mem_append.mpr ⟨quote_printable name, ?_⟩
    exact List.forall_mem_cons.mpr ⟨by decide, here⟩
  termination_by structural field => field

end

/-- Numbering the marked units leaves none of them, and adds no control character. -/
theorem numbered_units {marked : UInt16 → Bool} (high : ∀ unit, marked unit = true → 0x7F ≤ unit)
    {text : List UInt16} (printable : ∀ unit ∈ text, 0x20 ≤ unit) :
    ∀ unit ∈ numbered marked text, 0x20 ≤ unit ∧ marked unit = false := by
  intro unit member
  obtain ⟨source, held, written⟩ := List.mem_flatMap.mp member
  split at written
  · refine ⟨unicodeEscape_printable source unit written, unmarked high ?_⟩
    have all : ∀ digit : Fin 16, hexDigit digit.val < 0x7F := by decide
    have bound := source.toNat_lt
    simp only [unicodeEscape, List.mem_cons, List.not_mem_nil, or_false] at written
    rcases written with rfl | rfl | rfl | rfl | rfl | rfl
    · decide
    · decide
    · exact all ⟨_, by omega⟩
    · exact all ⟨_, Nat.mod_lt _ (by decide)⟩
    · exact all ⟨_, Nat.mod_lt _ (by decide)⟩
    · exact all ⟨_, Nat.mod_lt _ (by decide)⟩
  · rename_i plain
    rw [List.mem_singleton] at written
    subst written
    exact ⟨printable unit held, by simpa using plain⟩

end N2FNest.Shared.Json
