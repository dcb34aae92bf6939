import Mathlib.Data.List.Infix

/-! Base64 with the URL alphabet and without padding, over UTF-16 code units. -/

namespace N2FNest.Lib.Base64Url

/-- The unit of a six-bit value. -/
def digit (value : Nat) : UInt16 :=
  if value < 26 then (0x41 + value).toUInt16
  else if value < 52 then (0x61 + (value - 26)).toUInt16
  else if value < 62 then (0x30 + (value - 52)).toUInt16
  else if value = 62 then 0x2D else 0x5F

/-- The class `[A-Za-z0-9_-]`. -/
def isDigit (unit : UInt16) : Bool :=
  (0x41 ≤ unit && unit ≤ 0x5A) || (0x61 ≤ unit && unit ≤ 0x7A) || (0x30 ≤ unit && unit ≤ 0x39) ||
    unit == 0x5F || unit == 0x2D

/-- The six bits of a unit; the standard alphabet is read as well. -/
def value? (unit : UInt16) : Option Nat :=
  if 0x41 ≤ unit && unit ≤ 0x5A then some (unit.toNat - 0x41)
  else if 0x61 ≤ unit && unit ≤ 0x7A then some (unit.toNat - 0x61 + 26)
  else if 0x30 ≤ unit && unit ≤ 0x39 then some (unit.toNat - 0x30 + 52)
  else if unit == 0x2D || unit == 0x2B then some 62
  else if unit == 0x5F || unit == 0x2F then some 63
  else none

/-- Six-bit groups, the last one filled with zeros. -/
def sextets : List UInt8 → List Nat
  | [] => []
  | [first] => [first.toNat / 4, first.toNat % 4 * 16]
  | [first, second] =>
    [first.toNat / 4, first.toNat % 4 * 16 + second.toNat / 16, second.toNat % 16 * 4]
  | first :: second :: third :: rest =>
    first.toNat / 4 :: (first.toNat % 4 * 16 + second.toNat / 16) ::
      (second.toNat % 16 * 4 + third.toNat / 64) :: third.toNat % 64 :: sextets rest

/-- Whole bytes of a sequence of sextets; the bits left over are dropped. -/
def octets : List Nat → List UInt8
  | [] | [_] => []
  | [first, second] => [(first * 4 + second / 16).toUInt8]
  | [first, second, third] =>
    [(first * 4 + second / 16).toUInt8, (second % 16 * 16 + third / 4).toUInt8]
  | first :: second :: third :: fourth :: rest =>
    (first * 4 + second / 16).toUInt8 :: (second % 16 * 16 + third / 4).toUInt8 ::
      (third % 4 * 64 + fourth).toUInt8 :: octets rest

def encode (bytes : List UInt8) : List UInt16 := (sextets bytes).map digit

/-- Units outside the alphabet are skipped. -/
def decode (units : List UInt16) : List UInt8 := octets (units.filterMap value?)

private theorem digit_spec : ∀ value < 64,
    value? (digit value) = some value ∧ isDigit (digit value) = true := by
  decide

theorem sextets_lt {bytes : List UInt8} : ∀ value ∈ sextets bytes, value < 64 := by
  induction bytes using sextets.induct with
  | case1 => exact nofun
  | case2 first =>
    have := first.toNat_lt
    simp only [sextets, List.mem_cons, List.not_mem_nil, or_false]
    omega
  | case3 first second =>
    have := first.toNat_lt
    have := second.toNat_lt
    simp only [sextets, List.mem_cons, List.not_mem_nil, or_false]
    omega
  | case4 first second third rest ih =>
    have := first.toNat_lt
    have := second.toNat_lt
    have := third.toNat_lt
    simp only [sextets, List.mem_cons]
    rintro value (rfl | rfl | rfl | rfl | later)
    · omega
    · omega
    · omega
    · omega
    · exact ih value later

private theorem toUInt8_eq (byte : UInt8) {value : Nat} (same : value = byte.toNat) :
    value.toUInt8 = byte := by
  rw [same]
  simp

theorem octets_sextets (bytes : List UInt8) : octets (sextets bytes) = bytes := by
  induction bytes using sextets.induct with
  | case1 => rfl
  | case2 first =>
    have := first.toNat_lt
    rw [sextets, octets, toUInt8_eq first (by omega)]
  | case3 first second =>
    have := second.toNat_lt
    rw [sextets, octets, toUInt8_eq first (by omega), toUInt8_eq second (by omega)]
  | case4 first second third rest ih =>
    have := second.toNat_lt
    have := third.toNat_lt
    rw [sextets, octets, toUInt8_eq first (by omega), toUInt8_eq second (by omega),
      toUInt8_eq third (by omega), ih]

theorem decode_encode (bytes : List UInt8) : decode (encode bytes) = bytes := by
  have read : ∀ values : List Nat, (∀ value ∈ values, value < 64) →
      (values.map digit).filterMap value? = values := by
    intro values small
    induction values with
    | nil => rfl
    | cons value rest ih =>
      have first := (digit_spec value (small value List.mem_cons_self)).1
      rw [List.map_cons, List.filterMap_cons_some first,
        ih fun other member => small other (List.mem_cons_of_mem value member)]
  rw [decode, encode, read _ sextets_lt, octets_sextets]

theorem isDigit_encode {bytes : List UInt8} : ∀ unit ∈ encode bytes, isDigit unit = true := by
  intro unit member
  obtain ⟨value, present, rfl⟩ := List.mem_map.mp member
  exact (digit_spec value (sextets_lt value present)).2

/-- Four units for every three bytes, rounded up. -/
theorem length_encode (bytes : List UInt8) :
    (encode bytes).length = (4 * bytes.length + 2) / 3 := by
  rw [encode, List.length_map]
  induction bytes using sextets.induct with
  | case1 => rfl
  | case2 first => simp [sextets]
  | case3 first second => simp [sextets]
  | case4 first second third rest ih =>
    simp only [sextets, List.length_cons, ih]
    omega

end N2FNest.Lib.Base64Url
