import Mathlib.Data.List.Infix

/-! UTF-16 code units and the Unicode scalar values they encode. -/

namespace N2FNest.Lib.Utf16

def isHigh (unit : UInt16) : Bool := 0xD800 ≤ unit && unit ≤ 0xDBFF

def isLow (unit : UInt16) : Bool := 0xDC00 ≤ unit && unit ≤ 0xDFFF

def isSurrogate (unit : UInt16) : Bool := isHigh unit || isLow unit

def encodeChar (character : Char) : List UInt16 :=
  if character.toNat < 0x10000 then [character.toNat.toUInt16]
  else
    let offset := character.toNat - 0x10000
    [(0xD800 + offset / 0x400).toUInt16, (0xDC00 + offset % 0x400).toUInt16]

def encode (characters : List Char) : List UInt16 := characters.flatMap encodeChar

theorem encode_cons (character : Char) (rest : List Char) :
    encode (character :: rest) = encodeChar character ++ encode rest :=
  List.flatMap_cons

theorem encode_append (left right : List Char) : encode (left ++ right) = encode left ++ encode right :=
  List.flatMap_append

/-- The scalar value of one unit; a lone surrogate becomes U+FFFD. -/
def single (unit : UInt16) : Char :=
  if isSurrogate unit then Char.ofNat 0xFFFD else Char.ofNat unit.toNat

/-- The scalar value of a surrogate pair. -/
def pair (high low : UInt16) : Char :=
  Char.ofNat (0x10000 + (high.toNat - 0xD800) * 0x400 + (low.toNat - 0xDC00))

def decode : List UInt16 → List Char
  | [] => []
  | [unit] => [single unit]
  | unit :: next :: rest =>
    if isHigh unit && isLow next then pair unit next :: decode rest
    else single unit :: decode (next :: rest)

/-- Some surrogate stands outside a high-low pair. -/
def hasLone : List UInt16 → Bool
  | [] => false
  | [unit] => isSurrogate unit
  | unit :: next :: rest =>
    if isHigh unit && isLow next then hasLone rest else isSurrogate unit || hasLone (next :: rest)

private theorem isHigh_iff {unit : UInt16} :
    isHigh unit = true ↔ 0xD800 ≤ unit.toNat ∧ unit.toNat ≤ 0xDBFF := by
  simp [isHigh, UInt16.le_iff_toNat_le]

private theorem isLow_iff {unit : UInt16} :
    isLow unit = true ↔ 0xDC00 ≤ unit.toNat ∧ unit.toNat ≤ 0xDFFF := by
  simp [isLow, UInt16.le_iff_toNat_le]

theorem not_surrogate {unit : UInt16} (small : unit.toNat < 0xD800) : isSurrogate unit = false := by
  rw [isSurrogate, Bool.or_eq_false_iff, ← Bool.not_eq_true, ← Bool.not_eq_true, isHigh_iff,
    isLow_iff]
  omega

private theorem toNat_ofNat {value : Nat} (valid : value.isValidChar) :
    (Char.ofNat value).toNat = value := by
  rw [Char.ofNat, dif_pos valid]
  rfl

private theorem char_eq {left right : Char} (same : left.toNat = right.toNat) : left = right :=
  Char.ext (UInt32.toNat_inj.mp same)

private theorem valid (character : Char) : character.toNat < 0xD800 ∨
    0xDFFF < character.toNat ∧ character.toNat < 0x110000 := character.valid

/-- A scalar value is one unit that is no surrogate, or a pair. -/
theorem encodeChar_cases (character : Char) :
    (∃ unit, encodeChar character = [unit] ∧ isSurrogate unit = false ∧
      unit.toNat = character.toNat ∧ single unit = character) ∨
    ∃ high low, encodeChar character = [high, low] ∧ isHigh high = true ∧ isLow low = true ∧
      0x10000 ≤ character.toNat ∧ pair high low = character := by
  have range := valid character
  unfold encodeChar
  split
  · rename_i small
    have same : character.toNat.toUInt16.toNat = character.toNat := by
      simp [Nat.mod_eq_of_lt small]
    have plain : isSurrogate character.toNat.toUInt16 = false := by
      rw [isSurrogate, Bool.or_eq_false_iff, ← Bool.not_eq_true, ← Bool.not_eq_true, isHigh_iff,
        isLow_iff, same]
      omega
    refine .inl ⟨_, rfl, plain, same, char_eq ?_⟩
    rw [single, plain, if_neg nofun, same, toNat_ofNat range]
  · rename_i large
    have top : (0xD800 + (character.toNat - 0x10000) / 0x400).toUInt16.toNat =
        0xD800 + (character.toNat - 0x10000) / 0x400 := by
      simp only [Nat.toUInt16_eq, UInt16.toNat_ofNat']
      omega
    have bottom : (0xDC00 + (character.toNat - 0x10000) % 0x400).toUInt16.toNat =
        0xDC00 + (character.toNat - 0x10000) % 0x400 := by
      simp only [Nat.toUInt16_eq, UInt16.toNat_ofNat']
      omega
    refine .inr ⟨_, _, rfl, ?_, ?_, by omega, char_eq ?_⟩
    · rw [isHigh_iff, top]
      omega
    · rw [isLow_iff, bottom]
      omega
    · rw [pair, top, bottom, toNat_ofNat (.inr (by omega))]
      omega

theorem encodeChar_single {unit : UInt16} (plain : isSurrogate unit = false) :
    encodeChar (single unit) = [unit] := by
  have bound := unit.toNat_lt
  have outside : unit.toNat.isValidChar := by
    rw [isSurrogate, Bool.or_eq_false_iff, ← Bool.not_eq_true, ← Bool.not_eq_true, isHigh_iff,
      isLow_iff] at plain
    exact (show unit.toNat < 0xD800 ∨ 0xDFFF < unit.toNat ∧ unit.toNat < 0x110000 by omega)
  rw [single, plain, if_neg nofun, encodeChar, toNat_ofNat outside, if_pos bound]
  simp

theorem toNat_single {unit : UInt16} (plain : isSurrogate unit = false) :
    (single unit).toNat = unit.toNat := by
  have encoded := encodeChar_single plain
  rcases encodeChar_cases (single unit) with ⟨other, same, _, number, _⟩ | ⟨high, low, same, _⟩
  · cases encoded.symm.trans same
    exact number.symm
  · exact nomatch encoded.symm.trans same

private theorem encodeChar_pair {high low : UInt16} (first : isHigh high = true)
    (second : isLow low = true) : encodeChar (pair high low) = [high, low] := by
  rw [isHigh_iff] at first
  rw [isLow_iff] at second
  have scalar : (pair high low).toNat =
      0x10000 + (high.toNat - 0xD800) * 0x400 + (low.toNat - 0xDC00) :=
    toNat_ofNat (.inr (by omega))
  rw [encodeChar, scalar, if_neg (by omega)]
  have top : 0xD800 + (0x10000 + (high.toNat - 0xD800) * 0x400 + (low.toNat - 0xDC00) - 0x10000) /
      0x400 = high.toNat := by omega
  have bottom : 0xDC00 + (0x10000 + (high.toNat - 0xD800) * 0x400 + (low.toNat - 0xDC00) -
      0x10000) % 0x400 = low.toNat := by omega
  simp only [top, bottom, Nat.toUInt16_eq, UInt16.ofNat_toNat]

/-- Text without lone surrogates is what its scalar values encode to. -/
theorem encode_decode {units : List UInt16} (whole : hasLone units = false) :
    encode (decode units) = units := by
  induction units using decode.induct with
  | case1 => rfl
  | case2 unit =>
    have plain : isSurrogate unit = false := whole
    simp [decode, encode, encodeChar_single plain]
  | case3 unit next rest paired ih =>
    simp only [hasLone, paired, if_true] at whole
    obtain ⟨first, second⟩ := Bool.and_eq_true_iff.mp paired
    simp only [decode, paired, if_true, encode, List.flatMap_cons, encodeChar_pair first second]
    exact congrArg (unit :: next :: ·) (ih whole)
  | case4 unit next rest unpaired ih =>
    simp only [hasLone, unpaired, Bool.false_eq_true, if_false, Bool.or_eq_false_iff] at whole
    simp only [decode, unpaired, Bool.false_eq_true, if_false, encode, List.flatMap_cons,
      encodeChar_single whole.1]
    exact congrArg (unit :: ·) (ih whole.2)

theorem decode_encode (characters : List Char) : decode (encode characters) = characters := by
  induction characters with
  | nil => rfl
  | cons character rest ih =>
    rw [encode_cons]
    rcases encodeChar_cases character with ⟨unit, same, plain, _, value⟩ |
      ⟨high, low, same, first, second, _, value⟩
    · have start : isHigh unit = false := (Bool.or_eq_false_iff.mp plain).1
      rw [same, List.singleton_append]
      cases later : encode rest with
      | nil =>
        rw [later] at ih
        rw [decode, value, ← ih]
        rfl
      | cons next more =>
        rw [later] at ih
        rw [decode, start, Bool.false_and, if_neg nofun, value, ih]
    · rw [same, List.cons_append, List.singleton_append, decode, first, second, Bool.and_self,
        if_pos rfl, value, ih]

/-- Without surrogates each unit is a scalar value of its own. -/
theorem decode_of_plain {units : List UInt16} (plain : ∀ unit ∈ units, isSurrogate unit = false) :
    hasLone units = false ∧ decode units = units.map single := by
  induction units with
  | nil => exact ⟨rfl, rfl⟩
  | cons unit rest ih =>
    have here := plain unit List.mem_cons_self
    have start : isHigh unit = false := (Bool.or_eq_false_iff.mp here).1
    obtain ⟨whole, scalars⟩ := ih fun other member => plain other (List.mem_cons_of_mem unit member)
    cases rest with
    | nil => exact ⟨here, rfl⟩
    | cons next more =>
      rw [hasLone, decode, start, Bool.false_and, if_neg nofun, if_neg nofun, here, whole, scalars]
      exact ⟨rfl, rfl⟩

theorem hasLone_cons_plain {unit : UInt16} (plain : isSurrogate unit = false) (rest : List UInt16) :
    hasLone (unit :: rest) = hasLone rest := by
  cases rest with
  | nil => exact plain
  | cons next more =>
    have low : isHigh unit = false := (Bool.or_eq_false_iff.mp plain).1
    rw [hasLone, low, plain]
    rfl

theorem hasLone_concat_plain {unit : UInt16} (plain : isSurrogate unit = false) (units : List UInt16) :
    hasLone (units ++ [unit]) = hasLone units := by
  induction units using hasLone.induct with
  | case1 => exact plain
  | case2 other =>
    have high : isLow unit = false := (Bool.or_eq_false_iff.mp plain).2
    show hasLone [other, unit] = isSurrogate other
    simp [hasLone, high, plain]
  | case3 first second rest paired ih =>
    simp only [List.cons_append, hasLone, paired, if_true]
    exact ih
  | case4 first second rest apart ih =>
    rw [List.cons_append] at ih
    simp only [List.cons_append, hasLone, apart, ih]
    rfl

theorem hasLone_encode (characters : List Char) : hasLone (encode characters) = false := by
  induction characters with
  | nil => rfl
  | cons character rest ih =>
    rw [encode_cons]
    rcases encodeChar_cases character with ⟨unit, same, plain, _, _⟩ |
      ⟨high, low, same, first, second, _, _⟩
    · rw [same, List.singleton_append, hasLone_cons_plain plain, ih]
    · rw [same, List.cons_append, List.singleton_append, hasLone, first, second]
      exact ih

/-- Well-formed texts are joined to a well-formed text. -/
theorem hasLone_append {left right : List UInt16} (first : hasLone left = false)
    (second : hasLone right = false) : hasLone (left ++ right) = false := by
  rw [← encode_decode first, ← encode_decode second, ← encode_append]
  exact hasLone_encode _

/-- Decoding and encoding again replaces the lone surrogates, unit by unit. -/
theorem encode_decode_units (units : List UInt16) :
    List.Forall₂ (fun unit kept => unit = kept ∨ isSurrogate unit = true ∧ kept = 0xFFFD) units
      (encode (decode units)) := by
  have alone (unit : UInt16) : ∃ kept, encodeChar (single unit) = [kept] ∧
      (unit = kept ∨ isSurrogate unit = true ∧ kept = 0xFFFD) := by
    cases surrogate : isSurrogate unit with
    | false => exact ⟨unit, encodeChar_single surrogate, .inl rfl⟩
    | true =>
      refine ⟨0xFFFD, ?_, .inr ⟨rfl, rfl⟩⟩
      rw [single, surrogate, if_pos rfl]
      decide
  induction units using decode.induct with
  | case1 => exact .nil
  | case2 unit =>
    obtain ⟨kept, same, related⟩ := alone unit
    simpa [decode, encode, same] using related
  | case3 unit next rest paired ih =>
    obtain ⟨first, second⟩ := Bool.and_eq_true_iff.mp paired
    simp only [decode, paired, if_true, encode_cons, encodeChar_pair first second]
    exact .cons (.inl rfl) (.cons (.inl rfl) ih)
  | case4 unit next rest unpaired ih =>
    obtain ⟨kept, same, related⟩ := alone unit
    simp only [decode, unpaired, Bool.false_eq_true, if_false, encode_cons, same]
    exact .cons related ih

end N2FNest.Lib.Utf16
