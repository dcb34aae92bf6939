import N2FNest.Lib.Calendar
import N2FNest.Lib.Decimal
import N2FNest.Shared.Value

/-! Valid dates and their ISO text, `Date.prototype.toISOString` and its reading. -/

namespace N2FNest.Shared

open Lib Decimal

/-- A `Date` that is no invalid one, by its time value in milliseconds. -/
structure Moment where
  time : Int
  valid : -8640000000000000 ≤ time ∧ time ≤ 8640000000000000
  deriving DecidableEq

namespace Moment

/-- Four digits, or a sign and six for a year outside 0–9999. -/
def yearText (year : Int) : List UInt16 :=
  if 0 ≤ year ∧ year ≤ 9999 then pad 4 year.toNat
  else if 0 ≤ year then 0x2B :: pad 6 year.toNat
  else 0x2D :: pad 6 (-year).toNat

/-- `-MM-DDTHH:mm:ss.sssZ`. -/
def clockText (month day milliseconds : Nat) : List UInt16 :=
  0x2D :: pad 2 month ++ 0x2D :: pad 2 day ++ 0x54 :: pad 2 (milliseconds / 3600000) ++
    0x3A :: pad 2 (milliseconds / 60000 % 60) ++ 0x3A :: pad 2 (milliseconds / 1000 % 60) ++
    0x2E :: pad 3 (milliseconds % 1000) ++ [0x5A]

def date (moment : Moment) : Calendar.Date := Calendar.ofDays (moment.time / 86400000)

/-- `moment.toISOString()`. -/
def toISOString (moment : Moment) : JsString :=
  ⟨yearText moment.date.year ++
    clockText moment.date.month.toNat moment.date.day.toNat (moment.time % 86400000).toNat⟩

def weekdays : List String := ["Sun", "Mon", "Tue", "Wed", "Thu", "Fri", "Sat"]

def months : List String :=
  ["Jan", "Feb", "Mar", "Apr", "May", "Jun", "Jul", "Aug", "Sep", "Oct", "Nov", "Dec"]

/-- A text of a list of names. -/
def nameAt (names : List String) (index : Nat) : List UInt16 := (js (names.getD index "")).units

/-- At least four digits, after the sign of a year before 0. -/
def utcYearText (year : Int) : List UInt16 :=
  (if year < 0 then [0x2D] else []) ++
    if year.natAbs < 10000 then pad 4 year.natAbs else text year.natAbs

/-- ` HH:mm:ss GMT`. -/
def utcClockText (milliseconds : Nat) : List UInt16 :=
  0x20 :: pad 2 (milliseconds / 3600000) ++ 0x3A :: pad 2 (milliseconds / 60000 % 60) ++
    0x3A :: pad 2 (milliseconds / 1000 % 60) ++ (js " GMT").units

/-- `moment.toUTCString()`. The first day of 1970 was a Thursday. -/
def toUTCString (moment : Moment) : JsString :=
  ⟨nameAt weekdays ((moment.time / 86400000 + 4) % 7).toNat ++ (js ", ").units ++
    pad 2 moment.date.day.toNat ++ 0x20 :: nameAt months (moment.date.month.toNat - 1) ++
    0x20 :: utcYearText moment.date.year ++ utcClockText (moment.time % 86400000).toNat⟩

def readYear : List UInt16 → Int
  | [] => 0
  | unit :: rest =>
    if unit = 0x2B then natural rest
    else if unit = 0x2D then -(natural rest : Int)
    else natural (unit :: rest)

/-- The time value of an ISO text by its fields, whose separators are not looked at. -/
def readTime (year : List UInt16) : List UInt16 → Option Int
  | [_, a, b, _, c, d, _, e, f, _, g, h, _, i, j, _, k, l, m, _] =>
    some (Calendar.toDays ⟨readYear year, natural [a, b], natural [c, d]⟩ * 86400000 +
      (((natural [e, f] * 60 + natural [g, h]) * 60 + natural [i, j]) * 1000 +
        natural [k, l, m] : Nat))
  | _ => none

/-- The date that `text` is the ISO text of. -/
def ofISO (text : JsString) : Option Moment := do
  let split := text.units.length - 20
  let time ← readTime (text.units.take split) (text.units.drop split)
  if valid : -8640000000000000 ≤ time ∧ time ≤ 8640000000000000 then
    if toISOString ⟨time, valid⟩ = text then some ⟨time, valid⟩ else none
  else none

/-- `new Date(text)`: an ISO text is read back; what another text means is up to the host. -/
def parse (host : JsString → Option Moment) (text : JsString) : Option Moment :=
  match ofISO text with
  | some moment => some moment
  | none => host text

private theorem date_bounds (moment : Moment) :
    (1 ≤ moment.date.month ∧ moment.date.month ≤ 12) ∧
      (1 ≤ moment.date.day ∧ moment.date.day ≤ 31) ∧
      -999999 ≤ moment.date.year ∧ moment.date.year ≤ 999999 := by
  obtain ⟨least, most⟩ := moment.valid
  obtain ⟨month, day⟩ := Calendar.ofDays_bounds (moment.time / 86400000)
  exact ⟨month, day, Calendar.ofDays_year (by omega) (by omega)⟩

private theorem natural_two (value : Nat) (small : value < 100) :
    natural [digit (value / 10), digit value] = value :=
  natural_pad 2 value (by simpa using small)

private theorem natural_three (value : Nat) (small : value < 1000) :
    natural [digit (value / 10 / 10), digit (value / 10), digit value] = value :=
  natural_pad 3 value (by simpa using small)

private theorem readYear_yearText {year : Int} (least : -999999 ≤ year) (most : year ≤ 999999) :
    readYear (yearText year) = year := by
  unfold yearText
  split
  · rename_i common
    have digits := natural_pad 4 year.toNat (by omega)
    have first : ∀ unit ∈ pad 4 year.toNat, unit ≠ 0x2B ∧ unit ≠ 0x2D := by
      intro unit member
      have digit := isDigit_pad 4 year.toNat unit member
      constructor
      · rintro rfl
        exact absurd digit (by decide)
      · rintro rfl
        exact absurd digit (by decide)
    cases text : pad 4 year.toNat with
    | nil => exact absurd (congrArg List.length text) (by simp)
    | cons unit rest =>
      rw [text] at digits first
      obtain ⟨plus, minus⟩ := first unit List.mem_cons_self
      rw [readYear, if_neg plus, if_neg minus, digits]
      omega
  · split
    · have digits := natural_pad 6 year.toNat (by omega)
      rw [readYear, if_pos rfl, digits]
      omega
    · have digits := natural_pad 6 (-year).toNat (by omega)
      rw [readYear, if_neg (by decide), if_pos rfl, digits]
      omega

private theorem readTime_clockText {month day milliseconds : Nat} (year : List UInt16)
    (monthly : month < 100) (daily : day < 100) (clock : milliseconds < 86400000) :
    readTime year (clockText month day milliseconds) =
      some (Calendar.toDays ⟨readYear year, month, day⟩ * 86400000 + milliseconds) := by
  have hours := natural_two (milliseconds / 3600000) (by omega)
  have minutes := natural_two (milliseconds / 60000 % 60) (by omega)
  have seconds := natural_two (milliseconds / 1000 % 60) (by omega)
  have rest := natural_three (milliseconds % 1000) (by omega)
  simp only [clockText, pad, List.nil_append, List.cons_append, readTime, natural_two _ monthly,
    natural_two _ daily, hours, minutes, seconds, rest]
  congr 2
  omega

private theorem clockText_length (month day milliseconds : Nat) :
    (clockText month day milliseconds).length = 20 := by
  simp [clockText]

/-- The reading inverts the writing on every valid date. -/
theorem ofISO_toISOString (moment : Moment) : ofISO moment.toISOString = some moment := by
  obtain ⟨month, day, least, most⟩ := moment.date_bounds
  have clock : (moment.time % 86400000).toNat < 86400000 := by omega
  have length := clockText_length moment.date.month.toNat moment.date.day.toNat
    (moment.time % 86400000).toNat
  have read := readTime_clockText (yearText moment.date.year)
    (by omega : moment.date.month.toNat < 100) (by omega : moment.date.day.toNat < 100) clock
  have named : (⟨readYear (yearText moment.date.year), moment.date.month.toNat,
      moment.date.day.toNat⟩ : Calendar.Date) = moment.date := by
    rw [readYear_yearText least most, Int.toNat_of_nonneg (by omega), Int.toNat_of_nonneg (by omega)]
  have time : Calendar.toDays moment.date * 86400000 + (moment.time % 86400000).toNat =
      moment.time := by
    have days : Calendar.toDays moment.date = moment.time / 86400000 := Calendar.toDays_ofDays _
    omega
  rw [named, time] at read
  have split : moment.toISOString.units.length - 20 = (yearText moment.date.year).length := by
    simp [toISOString, length]
  have year : moment.toISOString.units.take (yearText moment.date.year).length =
      yearText moment.date.year := List.take_left
  have rest : moment.toISOString.units.drop (yearText moment.date.year).length =
      clockText moment.date.month.toNat moment.date.day.toNat (moment.time % 86400000).toNat :=
    List.drop_left
  rw [ofISO, split, year, rest, read]
  exact (dif_pos moment.valid).trans (if_pos rfl)

private theorem parse_of_ofISO (host : JsString → Option Moment) {text : JsString} {moment : Moment}
    (read : ofISO text = some moment) : parse host text = some moment := by
  unfold parse
  rw [read]

@[simp] theorem parse_toISOString (host : JsString → Option Moment) (moment : Moment) :
    parse host moment.toISOString = some moment :=
  parse_of_ofISO host (ofISO_toISOString moment)

/-- Written with digits, `+`, `-`, `.`, `:` and capital letters. -/
private def Marked (units : List UInt16) : Prop :=
  ∀ unit ∈ units, 0x2B ≤ unit.toNat ∧ unit.toNat ≤ 0x66

private theorem marked_cons {unit : UInt16} {rest : List UInt16} :
    Marked (unit :: rest) ↔ (0x2B ≤ unit.toNat ∧ unit.toNat ≤ 0x66) ∧ Marked rest :=
  List.forall_mem_cons

private theorem marked_append {left right : List UInt16} :
    Marked (left ++ right) ↔ Marked left ∧ Marked right :=
  List.forall_mem_append

private theorem marked_pad (width value : Nat) : Marked (pad width value) := by
  intro unit member
  have digit := isDigit_pad width value unit member
  simp only [isDigit, Bool.and_eq_true, decide_eq_true_eq, UInt16.le_iff_toNat_le,
    UInt16.reduceToNat] at digit
  omega

private theorem yearText_marked (year : Int) :
    (yearText year).length ≤ 7 ∧ Marked (yearText year) := by
  unfold yearText
  split
  · exact ⟨by simp, marked_pad 4 _⟩
  · split
    · exact ⟨by simp, marked_cons.mpr ⟨by decide, marked_pad 6 _⟩⟩
    · exact ⟨by simp, marked_cons.mpr ⟨by decide, marked_pad 6 _⟩⟩

private theorem clockText_marked (month day milliseconds : Nat) :
    Marked (clockText month day milliseconds) := by
  have zone : Marked [0x5A] := List.forall_mem_singleton.mpr (by decide)
  simp only [clockText, List.cons_append, marked_cons, marked_append, marked_pad, zone]
  decide

/-- An ISO text is short and written with digits and a few marks. -/
theorem toISOString_units (moment : Moment) :
    (0 < moment.toISOString.length ∧ moment.toISOString.length ≤ 27) ∧
      ∀ unit ∈ moment.toISOString.units, 0x2B ≤ unit.toNat ∧ unit.toNat ≤ 0x66 := by
  obtain ⟨short, year⟩ := yearText_marked moment.date.year
  constructor
  · simp only [JsString.length, toISOString, List.length_append, clockText_length]
    omega
  · exact marked_append.mpr ⟨year, clockText_marked _ _ _⟩

end Moment

end N2FNest.Shared
