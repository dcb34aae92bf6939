import N2FNest.Shared.Identifier

/-! The `uuid` type of PostgreSQL: what its input accepts, and the text its output writes.
An identifier is such a text, and is read as itself. -/

namespace N2FNest.Shared

open Lib

namespace Uuid

/-- A hyphen may follow every second byte but the last. -/
def skipHyphen (left : Nat) : List UInt16 → List UInt16
  | [] => []
  | unit :: rest => if unit = 0x2D ∧ left % 2 = 0 ∧ 0 < left then rest else unit :: rest

/-- Two digits for each byte that is left: the digits, and what follows them. -/
def readBytes : Nat → List UInt16 → Option (List UInt16 × List UInt16)
  | 0, rest => some ([], rest)
  | left + 1, high :: low :: rest =>
    if Hex.isDigit high && Hex.isDigit low then
      (readBytes left (skipHyphen left rest)).map fun read => (high :: low :: read.1, read.2)
    else none
  | _ + 1, _ => none

/-- The form of `uuid_out`. -/
def write (digits : List UInt16) : List UInt16 :=
  digits.take 8 ++ 0x2D :: ((digits.drop 8).take 4 ++ 0x2D :: ((digits.drop 12).take 4 ++
    0x2D :: ((digits.drop 16).take 4 ++ 0x2D :: digits.drop 20)))

/-- `text::uuid`, as it would be written: digits of either case, hyphens where they may
be or not, the whole in braces or not. -/
def read (text : JsString) : Option JsString :=
  let units := text.toLowerCase.units
  let braced := units.head? = some 0x7B
  match readBytes 16 (if braced then units.tail else units) with
  | some read => if read.2 = (if braced then [0x7D] else []) then some ⟨write read.1⟩ else none
  | none => none

private theorem skipHyphen_digit {left : Nat} {unit : UInt16} {rest : List UInt16}
    (digit : Hex.isDigit unit = true) : skipHyphen left (unit :: rest) = unit :: rest := by
  have other : unit ≠ 0x2D := by
    rintro rfl
    cases digit
  simp [skipHyphen, other]

/-- A run of digits is read to its end, and a hyphen after it where one may be. -/
private theorem readBytes_run (pairs left : Nat) {run : List UInt16} (rest : List UInt16)
    (length : run.length = 2 * (pairs + 1)) (digits : ∀ unit ∈ run, Hex.isDigit unit = true) :
    readBytes (pairs + 1 + left) (run ++ rest) =
      (readBytes left (skipHyphen left rest)).map fun read => (run ++ read.1, read.2) := by
  induction pairs generalizing run with
  | zero =>
    obtain ⟨high, low, rfl⟩ := List.length_eq_two.mp length
    simp only [List.forall_mem_cons] at digits
    rw [Nat.add_comm]
    simp [readBytes, digits.1, digits.2.1]
  | succ pairs ih =>
    cases run with
    | nil => cases length
    | cons high run =>
      cases run with
      | nil => simp at length; omega
      | cons low run =>
        simp only [List.forall_mem_cons] at digits
        obtain ⟨highDigit, lowDigit, digits⟩ := digits
        have shorter : run.length = 2 * (pairs + 1) := by
          simp only [List.length_cons] at length
          omega
        have count : pairs + 1 + 1 + left = pairs + 1 + left + 1 := by omega
        have next : skipHyphen (pairs + 1 + left) (run ++ rest) = run ++ rest := by
          cases run with
          | nil => cases shorter
          | cons unit more => exact skipHyphen_digit (digits unit List.mem_cons_self)
        rw [count, List.cons_append, List.cons_append, readBytes, next, ih shorter digits,
          highDigit, lowDigit, Option.map_map]
        rfl

private theorem skipHyphen_hyphen {left : Nat} (even : left % 2 = 0) (positive : 0 < left)
    (rest : List UInt16) : skipHyphen left (0x2D :: rest) = rest := by
  simp [skipHyphen, even, positive]

/-- An identifier's text is its own uuid. -/
theorem read_text (id : ID) : read id.text = some id.text := by
  obtain ⟨first, second, third, fourth, fifth, units, ⟨one, two, three, four, five⟩, digits⟩ :=
    id.fields
  simp only [List.forall_mem_append] at digits
  obtain ⟨⟨⟨⟨firstDigits, secondDigits⟩, thirdDigits⟩, fourthDigits⟩, fifthDigits⟩ := digits
  have unbraced : id.text.units.head? ≠ some 0x7B := by
    intro braced
    cases first with
    | nil => cases one
    | cons unit rest =>
      rw [units] at braced
      cases Option.some.inj braced
      cases firstDigits _ List.mem_cons_self
  have bytes : readBytes 16 id.text.units =
      some (first ++ (second ++ (third ++ (fourth ++ fifth))), []) := by
    have last := readBytes_run 5 0 [] five fifthDigits
    rw [List.append_nil] at last
    rw [units, readBytes_run 3 12 _ one firstDigits, skipHyphen_hyphen rfl (by decide),
      readBytes_run 1 10 _ two secondDigits, skipHyphen_hyphen rfl (by decide),
      readBytes_run 1 8 _ three thirdDigits, skipHyphen_hyphen rfl (by decide),
      readBytes_run 1 6 _ four fourthDigits, skipHyphen_hyphen rfl (by decide), last]
    simp [readBytes, skipHyphen]
  have written : write (first ++ (second ++ (third ++ (fourth ++ fifth)))) = id.text.units := by
    rw [units]
    simp [write, List.drop_append, List.drop_of_length_le, one, two, three, four]
  simp only [read, id.toLowerCase_text, unbraced, if_false, bytes, if_true, written]

example : read (js "{0190A0B0C0D070008000000000000001}") =
      some (js "0190a0b0-c0d0-7000-8000-000000000001") ∧ read (js "0190a0b0") = none := by
  decide

end Uuid

end N2FNest.Shared
