import Mathlib.Data.List.Infix
import Mathlib.Data.Rat.Defs
import N2FNest.Lib.Utf16

/-! The JavaScript values the program checks at run time: UTF-16 strings,
numbers, dates, and the `unknown` values that reach a domain constructor. -/

namespace N2FNest.Shared

open Lib

/-- A JavaScript string: any sequence of UTF-16 code units, lone surrogates included. -/
structure JsString where
  units : List UInt16
  deriving DecidableEq

/-- A string literal of the source. -/
def js (literal : String) : JsString := ⟨Utf16.encode literal.toList⟩

namespace JsString

def length (text : JsString) : Nat := text.units.length

/-- `text.slice(0, count)`. -/
def slice (text : JsString) (count : Nat) : JsString := ⟨text.units.take count⟩

private def isLower (unit : UInt16) : Bool := 0x61 ≤ unit && unit ≤ 0x7A

private def isDigit (unit : UInt16) : Bool := 0x30 ≤ unit && unit ≤ 0x39

/-- The class `[a-z0-9_.-]`. -/
private def isTokenUnit (unit : UInt16) : Bool :=
  isLower unit || isDigit unit || unit == 0x5F || unit == 0x2E || unit == 0x2D

/-- The pattern `/^[a-z][a-z0-9_.-]{0,n}$/` the domains share for codes and kinds. -/
def isToken (tail : Nat) (text : JsString) : Bool :=
  match text.units with
  | [] => false
  | first :: rest => isLower first && rest.length ≤ tail && rest.all isTokenUnit

/-- The pattern `/^[a-z0-9_.-]{1,n}$/` of consumer names. -/
def isName (most : Nat) (text : JsString) : Bool :=
  1 ≤ text.length && text.length ≤ most && text.units.all isTokenUnit

private theorem isTokenUnit_ascii {unit : UInt16} (accepted : isTokenUnit unit = true) :
    0 < unit.toNat ∧ unit.toNat < 0x80 := by
  simp only [isTokenUnit, isLower, isDigit, Bool.or_eq_true, Bool.and_eq_true, decide_eq_true_eq,
    beq_iff_eq, UInt16.le_iff_toNat_le, ← UInt16.toNat_inj, UInt16.reduceToNat] at accepted
  omega

/-- A token is written in printable ASCII. -/
theorem isToken_ascii {tail : Nat} {text : JsString} (valid : text.isToken tail = true) :
    ∀ unit ∈ text.units, 0 < unit.toNat ∧ unit.toNat < 0x80 := by
  unfold isToken at valid
  split at valid
  · cases valid
  · rename_i first rest same
    simp only [Bool.and_eq_true, List.all_eq_true] at valid
    obtain ⟨⟨lower, -⟩, others⟩ := valid
    rw [same]
    refine List.forall_mem_cons.mpr ⟨isTokenUnit_ascii ?_, fun unit member => ?_⟩
    · simp [isTokenUnit, lower]
    · exact isTokenUnit_ascii (others unit member)

/-- ECMAScript white space and line terminators, the units `trim` removes. -/
def isSpace (unit : UInt16) : Bool :=
  (0x09 ≤ unit && unit ≤ 0x0D) || unit == 0x20 || unit == 0xA0 || unit == 0x1680 ||
    (0x2000 ≤ unit && unit ≤ 0x200A) || unit == 0x2028 || unit == 0x2029 || unit == 0x202F ||
    unit == 0x205F || unit == 0x3000 || unit == 0xFEFF

def trim (text : JsString) : JsString :=
  ⟨((text.units.dropWhile isSpace).reverse.dropWhile isSpace).reverse⟩

private theorem dropWhile_idem {α : Type} (drops : α → Bool) (items : List α) :
    (items.dropWhile drops).dropWhile drops = items.dropWhile drops := by
  induction items with
  | nil => rfl
  | cons head rest ih =>
    by_cases gone : drops head = true
    · simpa [List.dropWhile_cons, gone] using ih
    · simp [gone]

/-- Removing a suffix cannot expose a unit that the prefix pass would remove. -/
private theorem dropWhile_of_prefix {α : Type} {drops : α → Bool} {items shorter : List α}
    (clean : items.dropWhile drops = items) (start : shorter <+: items) :
    shorter.dropWhile drops = shorter := by
  cases shorter with
  | nil => rfl
  | cons head rest =>
    obtain ⟨tail, same⟩ := start
    subst same
    by_cases gone : drops head = true
    · have dropped : ((rest ++ tail).dropWhile drops).length = (head :: (rest ++ tail)).length := by
        simpa [List.dropWhile_cons, gone] using congrArg List.length clean
      have bound := (List.dropWhile_sublist drops (l := rest ++ tail)).length_le
      simp only [List.length_cons] at dropped
      omega
    · simp [gone]

theorem trim_trim (text : JsString) : text.trim.trim = text.trim := by
  have suffix : (((text.units.dropWhile isSpace).reverse.dropWhile isSpace).reverse) <+:
      text.units.dropWhile isSpace := by
    rw [← List.reverse_suffix]
    simpa using List.dropWhile_suffix isSpace
  have left := dropWhile_of_prefix (dropWhile_idem isSpace text.units) suffix
  simp only [trim, left, List.reverse_reverse, dropWhile_idem]

private def codePoints : List UInt16 → Nat
  | [] => 0
  | [_] => 1
  | high :: low :: rest =>
    if Utf16.isHigh high && Utf16.isLow low then codePoints rest + 1 else codePoints (low :: rest) + 1

/-- PostgreSQL's `char_length`: code points, a surrogate pair counting once. -/
def charLength (text : JsString) : Nat := codePoints text.units

private theorem codePoints_le (units : List UInt16) : codePoints units ≤ units.length := by
  induction units using codePoints.induct with
  | case1 => simp [codePoints]
  | case2 unit => simp [codePoints]
  | case3 high low rest pair ih => simp only [codePoints, pair, if_true, List.length_cons]; omega
  | case4 high low rest single ih =>
    simp only [codePoints, single, Bool.false_eq_true, if_false, List.length_cons] at ih ⊢; omega

theorem charLength_le (text : JsString) : text.charLength ≤ text.length := codePoints_le text.units

theorem charLength_pos {text : JsString} (nonempty : 1 ≤ text.length) : 1 ≤ text.charLength := by
  obtain ⟨units⟩ := text
  cases units with
  | nil => exact absurd nonempty (Nat.not_lt_zero 0)
  | cons head rest =>
    cases rest with
    | nil => exact Nat.le_refl 1
    | cons next more =>
      unfold charLength codePoints
      split <;> exact Nat.le_add_left 1 _

/-- A space is no half of a surrogate pair. -/
theorem isSurrogate_of_isSpace {unit : UInt16} (space : isSpace unit = true) :
    Utf16.isSurrogate unit = false := by
  simp only [isSpace, Bool.or_eq_true, Bool.and_eq_true, decide_eq_true_eq, beq_iff_eq,
    UInt16.le_iff_toNat_le, UInt16.toNat_inj.symm, UInt16.reduceToNat] at space
  simp only [Utf16.isSurrogate, Utf16.isHigh, Utf16.isLow, Bool.or_eq_false_iff,
    Bool.and_eq_false_iff, decide_eq_false_iff_not, UInt16.le_iff_toNat_le, UInt16.reduceToNat]
  omega

private theorem hasLone_dropWhile (units : List UInt16) :
    Utf16.hasLone (units.dropWhile isSpace) = Utf16.hasLone units := by
  induction units with
  | nil => rfl
  | cons head rest ih =>
    by_cases gone : isSpace head = true
    · rw [List.dropWhile_cons_of_pos gone, ih,
        Utf16.hasLone_cons_plain (isSurrogate_of_isSpace gone)]
    · rw [List.dropWhile_cons_of_neg gone]

private theorem hasLone_dropWhile_reverse (units : List UInt16) :
    Utf16.hasLone (units.dropWhile isSpace).reverse = Utf16.hasLone units.reverse := by
  induction units with
  | nil => rfl
  | cons head rest ih =>
    by_cases gone : isSpace head = true
    · rw [List.dropWhile_cons_of_pos gone, ih, List.reverse_cons,
        Utf16.hasLone_concat_plain (isSurrogate_of_isSpace gone)]
    · rw [List.dropWhile_cons_of_neg gone]

/-- Trimming breaks no surrogate pair and joins none. -/
theorem hasLone_trim (text : JsString) :
    Utf16.hasLone text.trim.units = Utf16.hasLone text.units := by
  rw [trim, hasLone_dropWhile_reverse, List.reverse_reverse, hasLone_dropWhile]

theorem mem_trim {text : JsString} {unit : UInt16} (member : unit ∈ text.trim.units) :
    unit ∈ text.units := by
  have inner := List.dropWhile_subset isSpace (List.mem_reverse.mp member)
  exact List.dropWhile_subset isSpace (List.mem_reverse.mp inner)

/-- Only white space is trimmed. -/
theorem mem_trim_of_dark {text : JsString} {unit : UInt16} (member : unit ∈ text.units)
    (dark : isSpace unit = false) : unit ∈ text.trim.units := by
  have kept : ∀ units : List UInt16, unit ∈ units → unit ∈ units.dropWhile isSpace := by
    intro units member
    rw [← List.takeWhile_append_dropWhile (p := isSpace) (l := units)] at member
    refine (List.mem_append.mp member).resolve_left fun early => ?_
    have space := List.all_eq_true.mp List.all_takeWhile unit early
    rw [dark] at space
    cases space
  exact List.mem_reverse.mpr (kept _ (List.mem_reverse.mpr (kept _ member)))

theorem slice_length (text : JsString) (count : Nat) : (text.slice count).length ≤ count := by
  simp only [slice, length, List.length_take]
  exact Nat.min_le_left ..

end JsString

/-- A JavaScript number: a double is a rational, a NaN or an infinity. -/
inductive JsNumber where
  | finite (value : Rat)
  | nan
  | infinite (negative : Bool)
  deriving DecidableEq

/-- `Number.isSafeInteger(value) && value >= 0`, with the integer it recognises. -/
def JsNumber.safeNat? : JsNumber → Option Nat
  | .finite value =>
    if value.den = 1 ∧ 0 ≤ value.num ∧ value.num.toNat ≤ 9007199254740991
    then some value.num.toNat else none
  | _ => none

def JsNumber.ofNat (value : Nat) : JsNumber := .finite value

theorem JsNumber.safeNat?_ofNat {value : Nat} (safe : value ≤ 9007199254740991) :
    (JsNumber.ofNat value).safeNat? = some value := by
  simp [JsNumber.ofNat, JsNumber.safeNat?, safe]

theorem JsNumber.ofNat_inj {left right : Nat} (same : JsNumber.ofNat left = .ofNat right) :
    left = right :=
  Rat.natCast_inj.mp (JsNumber.finite.inj same)

/-- A value of type `unknown`. Object fields are own properties in order. -/
inductive JsValue where
  | undefined
  | null
  | bool (value : Bool)
  | number (value : JsNumber)
  | string (value : JsString)
  | array (items : List JsValue)
  | object (fields : List (JsString × JsValue))

abbrev JsObject := List (JsString × JsValue)

/-- Reading a property that is not there gives `undefined`. -/
def JsObject.read (fields : JsObject) (name : JsString) : JsValue :=
  (fields.lookup name).getD .undefined

/-- A `Date` by its time value in milliseconds; `none` is an invalid date. -/
abbrev JsDate := Option Int

/-- `new Date(value)`: a time value outside the range of dates is invalid. -/
def timeClip (value : Int) : JsDate :=
  if -8640000000000000 ≤ value ∧ value ≤ 8640000000000000 then some value else none

end N2FNest.Shared
