import Mathlib.Tactic.Common

/-! The proleptic Gregorian calendar by day number, counted from 1970-01-01.
Years are counted from March, so that the leap day is the last of its year, and
grouped in eras of 400, centuries and cycles of four. -/

namespace N2FNest.Lib.Calendar

/-- A calendar date. -/
structure Date where
  year : Int
  month : Int
  day : Int
  deriving DecidableEq

/-- The first day of a year of an era. -/
def startOfYear (year : Int) : Int :=
  year / 100 * 36524 + year % 100 / 4 * 1461 + year % 4 * 365

/-- The year of an era, from March, that holds its day `day`. The last century
and the last year of a cycle take the days left over. -/
def yearOfEra (day : Int) : Int :=
  let century := min (day / 36524) 3
  let ofCentury := day - century * 36524
  let annual := min (ofCentury % 1461 / 365) 3
  century * 100 + ofCentury / 1461 * 4 + annual

/-- The month of a year, from March, that holds its day `day`. -/
def monthOfYear (day : Int) : Int := (5 * day + 2) / 153

def startOfMonth (month : Int) : Int := (153 * month + 2) / 5

def ofDays (days : Int) : Date :=
  let day := (days + 719468) % 146097
  let year := (days + 719468) / 146097 * 400 + yearOfEra day
  let ofYear := day - startOfYear (yearOfEra day)
  let month := monthOfYear ofYear
  { year := if month < 10 then year else year + 1
    month := if month < 10 then month + 3 else month - 9
    day := ofYear - startOfMonth month + 1 }

def toDays (date : Date) : Int :=
  let year := if date.month ≤ 2 then date.year - 1 else date.year
  let month := if date.month ≤ 2 then date.month + 9 else date.month - 3
  year / 400 * 146097 + startOfYear (year % 400) + startOfMonth month + date.day - 1 - 719468

private theorem yearOfEra_spec {day : Int} (first : 0 ≤ day) (last : day < 146097) :
    (0 ≤ yearOfEra day ∧ yearOfEra day < 400) ∧
      0 ≤ day - startOfYear (yearOfEra day) ∧ day - startOfYear (yearOfEra day) ≤ 365 := by
  obtain ⟨century, century_eq⟩ : ∃ century, century = min (day / 36524) 3 := ⟨_, rfl⟩
  obtain ⟨ofCentury, rest_eq⟩ : ∃ rest, rest = day - century * 36524 := ⟨_, rfl⟩
  obtain ⟨annual, annual_eq⟩ : ∃ annual, annual = min (ofCentury % 1461 / 365) 3 := ⟨_, rfl⟩
  have whole : yearOfEra day = century * 100 + ofCentury / 1461 * 4 + annual := by
    simp only [yearOfEra, ← century_eq, ← rest_eq, ← annual_eq]
  have bounds : 0 ≤ century ∧ century ≤ 3 ∧ 0 ≤ ofCentury ∧ ofCentury ≤ 36524 := by omega
  have cycle : 0 ≤ ofCentury / 1461 ∧ ofCentury / 1461 ≤ 24 := by omega
  have years : 0 ≤ annual ∧ annual ≤ 3 ∧ 0 ≤ ofCentury % 1461 - annual * 365 ∧
      ofCentury % 1461 - annual * 365 ≤ 365 := by omega
  have start : startOfYear (yearOfEra day) =
      century * 36524 + ofCentury / 1461 * 1461 + annual * 365 := by
    have hundreds : (century * 100 + ofCentury / 1461 * 4 + annual) / 100 = century := by omega
    have cycles : (century * 100 + ofCentury / 1461 * 4 + annual) % 100 / 4 = ofCentury / 1461 := by
      omega
    have ones : (century * 100 + ofCentury / 1461 * 4 + annual) % 4 = annual := by omega
    rw [whole, startOfYear, hundreds, cycles, ones]
  rw [start, whole]
  omega

/-- The day of an era and what its year and its day of the year are. -/
private theorem era_spec (days : Int) : ∃ era year ofYear : Int,
    (0 ≤ year ∧ year < 400) ∧ (0 ≤ ofYear ∧ ofYear ≤ 365) ∧
      days + 719468 = era * 146097 + startOfYear year + ofYear ∧
      ofDays days =
        { year := if monthOfYear ofYear < 10 then era * 400 + year else era * 400 + year + 1
          month := if monthOfYear ofYear < 10 then monthOfYear ofYear + 3 else monthOfYear ofYear - 9
          day := ofYear - startOfMonth (monthOfYear ofYear) + 1 } := by
  have first := Int.emod_nonneg (days + 719468) (by decide : (146097 : Int) ≠ 0)
  have last := Int.emod_lt_of_pos (days + 719468) (by decide : (0 : Int) < 146097)
  obtain ⟨year, day⟩ := yearOfEra_spec first last
  refine ⟨(days + 719468) / 146097, _, _, year, day, ?_, rfl⟩
  have parts := Int.mul_ediv_add_emod (days + 719468) 146097
  omega

private theorem month_spec {ofYear : Int} (first : 0 ≤ ofYear) (last : ofYear ≤ 365) :
    0 ≤ monthOfYear ofYear ∧ monthOfYear ofYear ≤ 11 ∧
      0 ≤ ofYear - startOfMonth (monthOfYear ofYear) ∧
      ofYear - startOfMonth (monthOfYear ofYear) ≤ 30 := by
  unfold startOfMonth monthOfYear
  omega

theorem ofDays_bounds (days : Int) : (1 ≤ (ofDays days).month ∧ (ofDays days).month ≤ 12) ∧
    1 ≤ (ofDays days).day ∧ (ofDays days).day ≤ 31 := by
  obtain ⟨era, year, ofYear, _, ⟨first, last⟩, _, same⟩ := era_spec days
  have month := month_spec first last
  rw [same]
  dsimp only
  split <;> omega

/-- A day number is read back from its date. -/
theorem toDays_ofDays (days : Int) : toDays (ofDays days) = days := by
  obtain ⟨era, year, ofYear, range, ⟨first, last⟩, parts, same⟩ := era_spec days
  have month := month_spec first last
  have whole : (era * 400 + year) / 400 = era := by omega
  have rest : (era * 400 + year) % 400 = year := by omega
  rw [same, toDays]
  dsimp only
  by_cases early : monthOfYear ofYear < 10
  · have later : ¬ monthOfYear ofYear + 3 ≤ 2 := by omega
    have back : monthOfYear ofYear + 3 - 3 = monthOfYear ofYear := by omega
    simp only [if_pos early, if_neg later, whole, rest, back]
    omega
  · have later : monthOfYear ofYear - 9 ≤ 2 := by omega
    have back : monthOfYear ofYear - 9 + 9 = monthOfYear ofYear := by omega
    have calendar : era * 400 + year + 1 - 1 = era * 400 + year := by omega
    simp only [if_neg early, if_pos later, calendar, whole, rest, back]
    omega

/-- Years of at most six digits cover three hundred million days to either side. -/
theorem ofDays_year {days : Int} (least : -300000000 ≤ days) (most : days ≤ 300000000) :
    -999999 ≤ (ofDays days).year ∧ (ofDays days).year ≤ 999999 := by
  obtain ⟨era, year, ofYear, range, ⟨first, last⟩, parts, same⟩ := era_spec days
  have start : 0 ≤ startOfYear year ∧ startOfYear year ≤ 146097 := by
    unfold startOfYear
    omega
  rw [same]
  dsimp only
  split <;> omega

end N2FNest.Lib.Calendar
