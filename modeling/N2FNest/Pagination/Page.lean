import Mathlib.Data.List.Lex
import Mathlib.Data.Prod.Lex
import N2FNest.Lib.Ascending
import N2FNest.Pagination.Cursor
import N2FNest.Shared.Date
import N2FNest.Shared.Identifier
import N2FNest.Shared.Validation

/-! Bounded pages over rows ordered by a time and an identifier. -/

namespace N2FNest.Pagination

open Lib Shared

def size : Option JsString → Except Failure Nat
  | none => .ok 25
  | some raw => Validation.decimal (.string raw) (.ofNat 1) (.ofNat 100)

structure Page (Row : Type) where
  items : List Row
  hasMore : Bool
  nextCursor : Option JsString

def window {Row : Type} (rows : List Row) (limit : JsNumber) (scope : JsString)
    (position : Row → JsString) : Except Failure (Page Row) :=
  match limit.safeNat? with
  | some limit =>
    if limit < 1 ∨ 100 < limit ∨ limit + 1 < rows.length then .error invalid
    else
      let items := rows.take limit
      if limit < rows.length then
        match items.getLast? with
        | some last => do
          let next ← encode scope (position last)
          return { items, hasMore := true, nextCursor := some next }
        -- A positive limit below the row count leaves a last item.
        | none => .error invalid
      else .ok { items, hasMore := false, nextCursor := none }
  | none => .error invalid

/-- A keyset position after a row ordered by (time, id). -/
structure After where
  moment : Moment
  id : JsString
  deriving DecidableEq

/-- The mark between the two parts of a position, `|`. -/
def separator : UInt16 := 0x7C

def position (moment : Moment) (id : JsString) : JsString :=
  ⟨moment.toISOString.units ++ separator :: id.units⟩

/-- Read a position produced by `position`; `host` reads dates in other forms than ISO. -/
def after (host : JsString → Option Moment) (value : JsString) : Option After :=
  match value.units.splitOn separator with
  | [iso, id] =>
    if iso = [] ∨ id = [] then none
    else match Moment.parse host ⟨iso⟩ with
      | some moment => if moment.toISOString = ⟨iso⟩ then some ⟨moment, ⟨id⟩⟩ else none
      | none => none
  | _ => none

structure Request where
  limit : Nat
  after : Option After

def request (host : JsString → Option Moment) (scope : JsString) (limit cursor : Option JsString) :
    Except Failure Request :=
  match size limit with
  | .error _ => .error invalid
  | .ok limit =>
    match cursor with
    | none => .ok { limit, after := none }
    | some cursor => do
      match after host (← decode cursor scope) with
      | some start => .ok { limit, after := some start }
      | none => .error invalid

/-- `left < right` on strings: by code units, the shorter of two equal starts first. -/
def precedes (left right : JsString) : Bool :=
  left.units.map UInt16.toNat < right.units.map UInt16.toNat

/-- Order by (time, id). The difference of two times is rounded to a double. -/
def compareKeyset (left right : After) : JsNumber :=
  let time := JsNumber.ofRat (left.moment.time - right.moment.time : Int)
  if time ≠ .ofNat 0 then time
  else if precedes left.id right.id then .ofInt (-1)
  else if precedes right.id left.id then .ofInt 1
  else .ofInt 0

/-- `!page.after || compareKeyset(key, page.after) > 0`. -/
def follows (start : Option After) (key : After) : Bool :=
  match start with
  | none => true
  | some start => (compareKeyset key start).isPositive

/-- Rows after `page.after` in (time, id) order, up to one more than the limit. -/
def keysetPage {Row : Type} (rows : List Row) (key : Row → After) (page : Request) : List Row :=
  (rows.mergeSort fun left right => !(compareKeyset (key left) (key right)).isPositive)
    |>.filter (fun row => follows page.after (key row))
    |>.take (page.limit + 1)

/-- Where a position stands: by time, then by the code units of the identifier. -/
def After.rank (key : After) : ℤ ×ₗ List ℕ := toLex (key.moment.time, key.id.units.map UInt16.toNat)

private theorem rank_lt {left right : After} : left.rank < right.rank ↔
    left.moment.time < right.moment.time ∨ left.moment.time = right.moment.time ∧
      left.id.units.map UInt16.toNat < right.id.units.map UInt16.toNat :=
  Prod.Lex.toLex_lt_toLex

theorem compareKeyset_isPositive (left right : After) :
    (compareKeyset left right).isPositive = decide (right.rank < left.rank) := by
  have zero : JsNumber.ofRat (left.moment.time - right.moment.time : Int) = .ofNat 0 ↔
      left.moment.time - right.moment.time = 0 := JsNumber.ofRat_eq_ofInt (by simp)
  rw [Bool.eq_iff_iff, decide_eq_true_eq, rank_lt, compareKeyset]
  by_cases same : left.moment.time = right.moment.time
  · rw [if_neg (not_not.mpr (zero.mpr (by omega)))]
    simp only [precedes, decide_eq_true_eq]
    split
    · rename_i less
      have asymmetric := List.lt_asymm less
      simp [JsNumber.isPositive, JsNumber.ofInt, same, asymmetric]
    · split
      · rename_i more
        simp [JsNumber.isPositive, JsNumber.ofInt, same, more]
      · rename_i more
        simp [JsNumber.isPositive, JsNumber.ofInt, same, more]
  · rw [if_pos (zero.not.mpr (by omega)), JsNumber.isPositive_ofRat, decide_eq_true_eq]
    omega

theorem rank_inj {left right : After} (same : left.rank = right.rank) : left = right := by
  obtain ⟨⟨time, _⟩, ⟨units⟩⟩ := left
  obtain ⟨⟨time', _⟩, ⟨units'⟩⟩ := right
  obtain ⟨times, codes⟩ := Prod.mk.inj (toLex.injective same)
  have texts : units = units' := List.map_injective_iff.mpr (fun _ _ => UInt16.toNat_inj.mp) codes
  subst texts
  cases times
  rfl

section Position

variable (moment : Moment) (id : ID)

private theorem position_units : ∀ unit ∈ (position moment id.text).units,
    0x20 ≤ unit.toNat ∧ unit.toNat < 0x7F := by
  intro unit member
  rcases List.mem_append.mp member with iso | member
  · have range := moment.toISOString_units.2 unit iso
    omega
  · rcases List.mem_cons.mp member with rfl | named
    · decide
    · have range := id.units.2 unit named
      omega

/-- Every position of a row with an identifier fits into a cursor. -/
theorem position_valid : validPart (.string (position moment id.text)) maxPositionBytes = true := by
  obtain ⟨⟨first, last⟩, _⟩ := moment.toISOString_units
  have length : (position moment id.text).length = moment.toISOString.length + 37 := by
    rw [JsString.length, position, List.length_append, List.length_cons, id.units.1]
    rfl
  refine validPart_of_ascii (position_units moment id) ?_ ?_
  · omega
  · rw [length, maxPositionBytes]
    omega

theorem after_position (host : JsString → Option Moment) :
    after host (position moment id.text) = some ⟨moment, id.text⟩ := by
  obtain ⟨⟨first, _⟩, iso⟩ := moment.toISOString_units
  obtain ⟨length, named⟩ := id.units
  have left : separator ∉ moment.toISOString.units := by
    intro member
    exact absurd (iso separator member).2 (by decide)
  have right : separator ∉ id.text.units := by
    intro member
    exact absurd (named separator member).2 (by decide)
  have parts : (position moment id.text).units.splitOn separator =
      [moment.toISOString.units, id.text.units] := by
    rw [position, List.splitOn_append_cons_self_of_not_mem left, List.splitOn_eq_singleton right]
  have present : ¬ (moment.toISOString.units = [] ∨ id.text.units = []) := by
    rintro (none | none)
    · rw [JsString.length, none] at first
      exact absurd first (by decide)
    · rw [none] at length
      exact absurd length (by decide)
  have read : Moment.parse host ⟨moment.toISOString.units⟩ = some moment :=
    moment.parse_toISOString host
  simp only [after, parts, if_neg present, read]
  exact if_pos trivial

end Position

/-- Every limit of the range has a text that asks for it. -/
theorem size_text {limit : Nat} (least : 1 ≤ limit) (most : limit ≤ 100) :
    size (some (js (toString limit))) = .ok limit := by
  have all : ∀ limit ∈ List.range 101, 1 ≤ limit → size (some (js (toString limit))) = .ok limit := by
    decide +kernel
  exact all limit (List.mem_range.mpr (by omega)) least

theorem size_ok {raw : Option JsString} {limit : Nat} (accepted : size raw = .ok limit) :
    1 ≤ limit ∧ limit ≤ 100 := by
  cases raw with
  | none =>
    cases accepted
    decide
  | some raw =>
    have bounded : Validation.decimal (.string raw) (.ofNat 1) (.ofNat 100) = .ok limit := accepted
    exact Validation.decimal_ok bounded (by decide) (by decide)

section Window

variable {Row : Type} {rows : List Row} {limit : Nat} {scope : JsString} {position : Row → JsString}
  (least : 1 ≤ limit) (most : limit ≤ 100)

include least most

theorem window_last (ended : rows.length ≤ limit) :
    window rows (.ofNat limit) scope position =
      .ok { items := rows, hasMore := false, nextCursor := none } := by
  have accepted : ¬ (limit < 1 ∨ 100 < limit ∨ limit + 1 < rows.length) := by omega
  rw [window, JsNumber.safeNat?_ofNat (by omega)]
  simp only [if_neg accepted, if_neg (Nat.not_lt.mpr ended), List.take_of_length_le ended]

theorem window_more {front : List Row} {last : Row} {wire : JsString} (more : limit < rows.length)
    (fits : rows.length ≤ limit + 1) (items : rows.take limit = front ++ [last]) (encoded : encode scope (position last) = .ok wire) :
    window rows (.ofNat limit) scope position =
      .ok { items := front ++ [last], hasMore := true, nextCursor := some wire } := by
  have accepted : ¬ (limit < 1 ∨ 100 < limit ∨ limit + 1 < rows.length) := by omega
  rw [window, JsNumber.safeNat?_ofNat (by omega)]
  simp only [if_neg accepted, if_pos more, items, List.getLast?_concat, encoded]
  rfl

end Window

end N2FNest.Pagination
