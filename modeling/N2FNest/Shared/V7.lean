import N2FNest.Lib.Run
import N2FNest.Shared.Identifier

/-! The generator of version 7 identifiers. Its texts order as the pair of
milliseconds and counter they are written from. -/

namespace N2FNest.Shared.V7

open Lib

/-- What an entropy source fills: ten bytes, of which the first two may seed the counter. -/
abbrev Random := {bytes : List UInt8 // bytes.length = 10}

structure Generator where
  last : Option Nat
  counter : Nat
  deriving DecidableEq, Repr

def timeRange : Failure := failure .invalid "ID timestamp out of range" "id.time_range"

def exhausted : Failure := failure .unavailable "ID counter exhausted" "id.exhausted"

def entropyUnavailable : Failure := failure .unavailable "ID entropy unavailable" "id.entropy"

/-- A byte of the suffix; the first one carries the variant. -/
def suffixByte (index : Nat) (byte : UInt8) : List UInt16 :=
  Hex.padStart 2 (Hex.text (if index = 0 then byte.toNat &&& 0x3F ||| 0x80 else byte.toNat))

def encodeV7 (milliseconds counter : Nat) (suffix : List UInt8) : JsString :=
  let stamp := Hex.padStart 12 (Hex.text milliseconds)
  let sequence := Hex.text (0x7000 ||| counter)
  let tail := (suffix.mapIdx suffixByte).flatten
  ⟨stamp.take 8 ++ [0x2D] ++ stamp.drop 8 ++ [0x2D] ++ sequence ++ [0x2D] ++ tail.take 4 ++ [0x2D] ++
    tail.drop 4⟩

/-- A reading of the clock that an identifier can carry. -/
def inRange (reading : JsNumber) : Option Nat :=
  reading.safeNat?.filter (· ≤ 281474976710655)

/-- `((random[0] << 8) | random[1]) & 0x07ff`. -/
def seed (random : Random) : Nat :=
  ((random.val.getD 0 0).toNat <<< 8 ||| (random.val.getD 1 0).toNat) &&& 0x07FF

/-- `entropy` is `none` where the source throws. -/
def newId (generator : Generator) (reading : JsNumber) (entropy : Option Random) :
    Except Failure JsString × Generator :=
  match inRange reading with
  | none => (.error timeRange, generator)
  | some milliseconds =>
    let fresh := generator.last.all (· < milliseconds)
    if !fresh && generator.counter = 4095 then (.error exhausted, generator)
    else match entropy with
      | none => (.error entropyUnavailable, generator)
      | some random =>
        let stamp := if fresh then milliseconds else generator.last.getD milliseconds
        let counter := if fresh then seed random else generator.counter + 1
        (.ok (encodeV7 stamp counter (random.val.drop 2)), ⟨some stamp, counter⟩)

theorem suffixByte_other {index : Nat} (later : index ≠ 0) (byte : UInt8) :
    suffixByte index byte = Hex.pad 2 byte.toNat := by
  rw [suffixByte, if_neg later]
  exact Hex.padStart_text 1 byte.toNat byte.toNat_lt

theorem suffixByte_first (byte : UInt8) :
    suffixByte 0 byte = Hex.pad 2 (0x80 + byte.toNat % 64) := by
  have low : byte.toNat &&& 0x3F = byte.toNat % 64 := Nat.and_two_pow_sub_one_eq_mod byte.toNat 6
  have small : byte.toNat % 64 < 2 ^ 6 := Nat.mod_lt _ (by decide)
  have joined : byte.toNat &&& 0x3F ||| 0x80 = 0x80 + byte.toNat % 64 := by
    rw [low, Nat.or_comm]
    exact (Nat.two_pow_add_eq_or_of_lt small 2).symm
  rw [suffixByte, if_pos rfl, joined]
  exact Hex.padStart_text 1 _ (by omega)

theorem sequence_text {counter : Nat} (fits : counter ≤ 4095) :
    Hex.text (0x7000 ||| counter) = Hex.pad 4 (0x7000 + counter) := by
  have joined : 0x7000 ||| counter = 0x7000 + counter :=
    (Nat.two_pow_add_eq_or_of_lt (show counter < 2 ^ 12 by omega) 7).symm
  rw [joined]
  exact Hex.text_eq_pad (by omega) (by omega)

private theorem flatten_pad (bytes : List UInt8) :
    ((bytes.map fun byte => Hex.pad 2 byte.toNat).flatten).length = 2 * bytes.length ∧
      ∀ unit ∈ (bytes.map fun byte => Hex.pad 2 byte.toNat).flatten, Hex.isDigit unit = true := by
  induction bytes with
  | nil => exact ⟨rfl, by simp⟩
  | cons byte rest ih =>
    obtain ⟨length, digits⟩ := ih
    rw [List.map_cons, List.flatten_cons, List.length_append, Hex.pad_length, length,
      List.length_cons]
    refine ⟨by omega, ?_⟩
    intro unit member
    rcases List.mem_append.mp member with here | later
    · exact Hex.isDigit_pad 2 byte.toNat unit here
    · exact digits unit later

private theorem variant_digit (byte : UInt8) :
    let variant := Hex.digit ((0x80 + byte.toNat % 64) / 16)
    variant = 0x38 ∨ variant = 0x39 ∨ variant = 0x61 ∨ variant = 0x62 := by
  intro variant
  have small : byte.toNat % 64 < 64 := Nat.mod_lt _ (by decide)
  have cases : (0x80 + byte.toNat % 64) / 16 = 8 ∨ (0x80 + byte.toNat % 64) / 16 = 9 ∨
      (0x80 + byte.toNat % 64) / 16 = 10 ∨ (0x80 + byte.toNat % 64) / 16 = 11 := by
    omega
  rcases cases with same | same | same | same
  · exact .inl (congrArg Hex.digit same)
  · exact .inr (.inl (congrArg Hex.digit same))
  · exact .inr (.inr (.inl (congrArg Hex.digit same)))
  · exact .inr (.inr (.inr (congrArg Hex.digit same)))

/-- The suffix is written as sixteen digits headed by a variant. -/
theorem tail_digits {suffix : List UInt8} (length : suffix.length = 8) :
    ∃ variant front back,
      (suffix.mapIdx suffixByte).flatten.take 4 = variant :: front ∧
      (suffix.mapIdx suffixByte).flatten.drop 4 = back ∧
      (variant = 0x38 ∨ variant = 0x39 ∨ variant = 0x61 ∨ variant = 0x62) ∧
      front.length = 3 ∧ back.length = 12 ∧
      ∀ unit ∈ front ++ back, Hex.isDigit unit = true := by
  cases suffix with
  | nil => cases length
  | cons byte rest =>
    have others : rest.mapIdx (fun index => suffixByte (index + 1)) =
        rest.map fun byte => Hex.pad 2 byte.toNat := by
      apply List.ext_getElem (by simp)
      intro index here there
      rw [List.getElem_mapIdx, List.getElem_map, suffixByte_other (Nat.succ_ne_zero index)]
    obtain ⟨restLength, restDigits⟩ := flatten_pad rest
    have count : rest.length = 7 := Nat.succ.inj length
    rw [List.mapIdx_cons, others, List.flatten_cons, suffixByte_first]
    generalize (rest.map fun byte => Hex.pad 2 byte.toNat).flatten = tail at restLength restDigits
    have second := Hex.isDigit_digit (0x80 + byte.toNat % 64)
    refine ⟨Hex.digit ((0x80 + byte.toNat % 64) / 16),
      Hex.digit (0x80 + byte.toNat % 64) :: tail.take 2, tail.drop 2, rfl, rfl, variant_digit byte,
      ?_, ?_, ?_⟩
    · rw [List.length_cons, List.length_take, restLength]
      omega
    · rw [List.length_drop, restLength]
      omega
    · intro unit member
      rw [List.cons_append, List.take_append_drop] at member
      rcases List.mem_cons.mp member with same | later
      · rw [same]
        exact second
      · exact restDigits unit later

/-- What `encodeV7` writes, field by field. -/
theorem encodeV7_fields {milliseconds counter : Nat} {suffix : List UInt8}
    (fits : milliseconds < 2 ^ 48) (small : counter ≤ 4095) (length : suffix.length = 8) :
    ∃ variant front back,
      (encodeV7 milliseconds counter suffix).units =
        Hex.pad 8 (milliseconds / 65536) ++ [0x2D] ++ Hex.pad 4 milliseconds ++ [0x2D] ++
          Hex.pad 4 (0x7000 + counter) ++ [0x2D, variant] ++ front ++ [0x2D] ++ back ∧
      (variant = 0x38 ∨ variant = 0x39 ∨ variant = 0x61 ∨ variant = 0x62) ∧
      front.length = 3 ∧ back.length = 12 ∧
      ∀ unit ∈ front ++ back, Hex.isDigit unit = true := by
  obtain ⟨variant, front, back, front_eq, back_eq, rest⟩ := tail_digits length
  refine ⟨variant, front, back, ?_, rest⟩
  have stamp : Hex.padStart 12 (Hex.text milliseconds) =
      Hex.pad 8 (milliseconds / 65536) ++ Hex.pad 4 milliseconds := by
    rw [Hex.padStart_text 11 milliseconds fits]
    exact Hex.pad_add 8 4 milliseconds
  have first : (Hex.pad 8 (milliseconds / 65536) ++ Hex.pad 4 milliseconds).take 8 =
      Hex.pad 8 (milliseconds / 65536) := List.take_left' (Hex.pad_length 8 _)
  have second : (Hex.pad 8 (milliseconds / 65536) ++ Hex.pad 4 milliseconds).drop 8 =
      Hex.pad 4 milliseconds := List.drop_left' (Hex.pad_length 8 _)
  simp only [encodeV7, stamp, first, second, sequence_text small, front_eq, back_eq]
  simp only [List.append_assoc, List.cons_append, List.nil_append]

/-- Every identifier `encodeV7` writes is canonical. -/
theorem encodeV7_canonical {milliseconds counter : Nat} {suffix : List UInt8}
    (fits : milliseconds < 2 ^ 48) (small : counter ≤ 4095) (length : suffix.length = 8) :
    (encodeV7 milliseconds counter suffix).isCanonicalId = true := by
  obtain ⟨variant, front, back, units, variants, frontLength, backLength, digits⟩ :=
    encodeV7_fields fits small length
  have text : encodeV7 milliseconds counter suffix = ⟨_⟩ := congrArg JsString.mk units
  rw [text]
  apply isCanonicalId_fields ⟨Hex.pad_length _ _, Hex.pad_length _ _, Hex.pad_length _ _,
    frontLength, backLength⟩ variants
  intro unit member
  simp only [List.mem_append] at member digits
  rcases member with (((first | second) | third) | fourth) | fifth
  · exact Hex.isDigit_pad _ _ unit first
  · exact Hex.isDigit_pad _ _ unit second
  · exact Hex.isDigit_pad _ _ unit third
  · exact digits unit (.inl fourth)
  · exact digits unit (.inr fifth)

/-- The fields of an identifier are read back from its text. -/
theorem read_encodeV7 {milliseconds counter : Nat} {suffix : List UInt8} {id : ID}
    (fits : milliseconds < 2 ^ 48) (small : counter ≤ 4095) (length : suffix.length = 8)
    (text : id.text = encodeV7 milliseconds counter suffix) :
    version id = 7 ∧ unixMillis id = some milliseconds := by
  obtain ⟨variant, front, back, units, -⟩ := encodeV7_fields fits small length
  have layout := (congrArg JsString.units text).trans units
  have seven : version id = 7 := by
    have digit : (id.text.units.drop 14).take 1 = [Hex.digit ((0x7000 + counter) / 16 / 16 / 16)] := by
      have grouped : id.text.units =
          (Hex.pad 8 (milliseconds / 65536) ++ [0x2D] ++ Hex.pad 4 milliseconds ++ [0x2D]) ++
            (Hex.pad 4 (0x7000 + counter) ++ ([0x2D, variant] ++ front ++ [0x2D] ++ back)) := by
        rw [layout]
        simp only [List.append_assoc]
      rw [grouped, List.drop_left' (by simp)]
      rfl
    have leading : (0x7000 + counter) / 16 / 16 / 16 = 7 := by omega
    rw [version, digit, leading]
    rfl
  have stamp : id.text.units.take 8 ++ (id.text.units.drop 9).take 4 = Hex.pad 12 milliseconds := by
    have front_eq : id.text.units.take 8 = Hex.pad 8 (milliseconds / 65536) := by
      rw [layout]
      simp only [List.append_assoc]
      exact List.take_left' (Hex.pad_length 8 _)
    have back_eq : (id.text.units.drop 9).take 4 = Hex.pad 4 milliseconds := by
      rw [layout]
      simp only [List.append_assoc]
      rw [← List.append_assoc, List.drop_left' (by simp), List.take_left' (Hex.pad_length 4 _)]
    rw [front_eq, back_eq]
    exact (Hex.pad_add 8 4 milliseconds).symm
  rw [unixMillis, if_pos seven, stamp, Hex.natural_pad 12 milliseconds fits]
  exact ⟨seven, rfl⟩

/-- The counter field of a version 7 text. -/
def counterField (text : JsString) : Nat := Hex.natural ((text.units.drop 15).take 3)

theorem counterField_encodeV7 {milliseconds counter : Nat} {suffix : List UInt8}
    (fits : milliseconds < 2 ^ 48) (small : counter ≤ 4095) (length : suffix.length = 8) :
    counterField (encodeV7 milliseconds counter suffix) = counter := by
  obtain ⟨variant, front, back, units, -⟩ := encodeV7_fields fits small length
  have digits : Hex.pad 4 (0x7000 + counter) = Hex.pad 1 ((0x7000 + counter) / 4096) ++
      Hex.pad 3 counter := by
    have low : Hex.pad 3 (0x7000 + counter) = Hex.pad 3 counter := by
      rw [← Hex.pad_mod 3 (0x7000 + counter), ← Hex.pad_mod 3 counter]
      congr 1
      omega
    rw [← low]
    exact Hex.pad_add 1 3 (0x7000 + counter)
  have field : ((encodeV7 milliseconds counter suffix).units.drop 15).take 3 = Hex.pad 3 counter := by
    rw [units, digits]
    simp only [List.append_assoc]
    iterate 4 rw [← List.append_assoc]
    rw [List.drop_left' (by simp), List.take_left' (Hex.pad_length 3 _)]
  rw [counterField, field, Hex.natural_pad 3 counter (by omega)]

/-- Texts compare as milliseconds, then as counters. -/
theorem encodeV7_lt {milliseconds later counter next : Nat} {suffix other : List UInt8}
    (fits : later < 2 ^ 48) (small : counter ≤ 4095) (nextSmall : next ≤ 4095)
    (length : suffix.length = 8) (otherLength : other.length = 8)
    (before : milliseconds < later ∨ milliseconds = later ∧ counter < next) :
    (encodeV7 milliseconds counter suffix).units < (encodeV7 later next other).units := by
  have earlier : milliseconds < 2 ^ 48 := by omega
  obtain ⟨variant, front, back, units, -⟩ := encodeV7_fields earlier small length
  obtain ⟨variant', front', back', units', -⟩ := encodeV7_fields fits nextSmall otherLength
  rw [units, units']
  simp only [List.append_assoc]
  rcases before with before | ⟨same, before⟩
  · by_cases leading : milliseconds / 65536 < later / 65536
    · apply Hex.append_lt_append
      · apply Hex.pad_lt leading
        omega
      · rw [Hex.pad_length, Hex.pad_length]
    · have same : milliseconds / 65536 = later / 65536 := by omega
      rw [same, ← Hex.pad_mod 4 milliseconds, ← Hex.pad_mod 4 later]
      apply List.append_left_lt
      apply List.append_left_lt
      apply Hex.append_lt_append
      · apply Hex.pad_lt
        · show milliseconds % 65536 < later % 65536
          omega
        · exact Nat.mod_lt _ (by decide)
      · rw [Hex.pad_length, Hex.pad_length]
  · subst same
    apply List.append_left_lt
    apply List.append_left_lt
    apply List.append_left_lt
    apply List.append_left_lt
    apply Hex.append_lt_append
    · apply Hex.pad_lt
      · omega
      · omega
    · rw [Hex.pad_length, Hex.pad_length]

/-- An identifier a generator returned, and the reading of the clock it took. -/
structure Issue where
  text : JsString
  reading : Nat

/-- One call of `newId`: what the clock and the entropy source give it. -/
structure Call where
  reading : JsNumber
  entropy : Option Random

/-- A generator and what it returned so far, oldest first. -/
structure History where
  generator : Generator
  issued : List Issue

namespace History

def initial : History := ⟨⟨none, 0⟩, []⟩

def step (history : History) (call : Call) : History :=
  match newId history.generator call.reading call.entropy with
  | (.error _, generator) => { history with generator := generator }
  | (.ok text, generator) =>
    ⟨generator, history.issued ++ [⟨text, (inRange call.reading).getD 0⟩]⟩

end History

/-- What a call that succeeds did. -/
inductive Minted (generator : Generator) (reading : Nat) (text : JsString) : Generator → Prop
  | fresh (random : Random) (later : ∀ last, generator.last = some last → last < reading)
      (written : text = encodeV7 reading (seed random) (random.val.drop 2)) :
      Minted generator reading text ⟨some reading, seed random⟩
  | again (random : Random) (last : Nat) (held : generator.last = some last) (late : reading ≤ last)
      (room : generator.counter ≠ 4095)
      (written : text = encodeV7 last (generator.counter + 1) (random.val.drop 2)) :
      Minted generator reading text ⟨some last, generator.counter + 1⟩

theorem newId_ok {generator next : Generator} {reading : JsNumber} {entropy : Option Random}
    {text : JsString} (minted : newId generator reading entropy = (.ok text, next)) :
    ∃ milliseconds, inRange reading = some milliseconds ∧ Minted generator milliseconds text next := by
  unfold newId at minted
  cases ranged : inRange reading with
  | none =>
    rw [ranged] at minted
    cases minted
  | some milliseconds =>
    refine ⟨milliseconds, rfl, ?_⟩
    simp only [ranged] at minted
    by_cases spent : (!generator.last.all (· < milliseconds) && generator.counter = 4095) = true
    · rw [if_pos spent] at minted
      cases minted
    · rw [if_neg spent] at minted
      cases entropy with
      | none => cases minted
      | some random =>
        by_cases fresh : generator.last.all (· < milliseconds) = true
        · simp only [if_pos fresh, Prod.mk.injEq, Except.ok.injEq] at minted
          obtain ⟨written, rfl⟩ := minted
          refine .fresh random ?_ written.symm
          intro last held
          simpa [held] using fresh
        · cases held : generator.last with
          | none => simp [held] at fresh
          | some last =>
            rw [held] at fresh
            simp only [held, if_neg fresh, Option.getD_some, Prod.mk.injEq, Except.ok.injEq] at minted
            obtain ⟨written, rfl⟩ := minted
            refine .again random last held ?_ ?_ written.symm
            · simpa [held] using fresh
            · intro full
              exact spent (by simp [held, fresh, full])

/-- A call that returns an error leaves the generator as it was. -/
theorem newId_error {generator next : Generator} {reading : JsNumber} {entropy : Option Random}
    {error : Failure} (failed : newId generator reading entropy = (.error error, next)) :
    next = generator := by
  unfold newId at failed
  cases ranged : inRange reading with
  | none =>
    rw [ranged] at failed
    exact (Prod.mk.inj failed).2.symm
  | some milliseconds =>
    simp only [ranged] at failed
    by_cases spent : (!generator.last.all (· < milliseconds) && generator.counter = 4095) = true
    · rw [if_pos spent] at failed
      exact (Prod.mk.inj failed).2.symm
    · rw [if_neg spent] at failed
      cases entropy with
      | none => exact (Prod.mk.inj failed).2.symm
      | some random => cases (Prod.mk.inj failed).1

theorem inRange_some {reading : JsNumber} {milliseconds : Nat}
    (ranged : inRange reading = some milliseconds) : milliseconds < 2 ^ 48 := by
  obtain ⟨-, within⟩ := Option.filter_eq_some_iff.mp ranged
  have within : milliseconds ≤ 281474976710655 := by simpa using within
  omega

theorem seed_le (random : Random) : seed random ≤ 2047 := Nat.and_le_right

/-- A generator never gets past what its fields can hold. -/
structure Generator.Bounded (generator : Generator) : Prop where
  last : ∀ last, generator.last = some last → last < 2 ^ 48
  counter : generator.counter ≤ 4095

/-- What a successful call makes of a bounded generator. -/
structure Advances (generator : Generator) (reading : Nat) (text : JsString) (next : Generator) :
    Prop where
  bounded : next.Bounded
  written : ∃ last suffix, next.last = some last ∧ suffix.length = 8 ∧
    text = encodeV7 last next.counter suffix ∧ reading ≤ last ∧
    (last = reading ∨ generator.last = some last)
  forward : ∀ last next', generator.last = some last → next.last = some next' →
    last < next' ∨ last = next' ∧ next.counter = generator.counter + 1

theorem Minted.advances {generator next : Generator} {reading : Nat} {text : JsString}
    (bounded : generator.Bounded) (fits : reading < 2 ^ 48) (minted : Minted generator reading text next) :
    Advances generator reading text next := by
  have suffix : ∀ random : Random, (random.val.drop 2).length = 8 := by
    intro random
    rw [List.length_drop, random.property]
  cases minted with
  | fresh random later written => exact {
      bounded := by
        refine ⟨?_, (seed_le random).trans (by decide)⟩
        intro last held
        cases held
        exact fits
      written := ⟨reading, _, rfl, suffix random, written, Nat.le_refl reading, .inl rfl⟩
      forward := by
        intro last following held same
        cases same
        exact .inl (later last held) }
  | again random last held late room written => exact {
      bounded := by
        refine ⟨?_, ?_⟩
        · intro other same
          cases same
          exact bounded.last last held
        · have small := bounded.counter
          show generator.counter + 1 ≤ 4095
          omega
      written := ⟨last, _, rfl, suffix random, written, late, .inr held⟩
      forward := by
        intro other following held' same
        cases same
        rw [held] at held'
        cases held'
        exact .inr ⟨rfl, rfl⟩ }

/-- The text of an advance is an identifier stamped with the generator's new reading. -/
theorem Advances.formed {generator next : Generator} {reading last : Nat} {text : JsString}
    (advances : Advances generator reading text next) (held : next.last = some last) :
    ∃ id, parse (.string text) = .ok id ∧ id.text = text ∧ version id = 7 ∧
      unixMillis id = some last := by
  obtain ⟨stamp, suffix, same, length, written, -⟩ := advances.written
  obtain rfl : stamp = last := Option.some.inj (same.symm.trans held)
  have fits := advances.bounded.last stamp held
  have small := advances.bounded.counter
  have canonical : text.isCanonicalId = true := by
    rw [written]
    exact encodeV7_canonical fits small length
  exact ⟨⟨text, canonical⟩, parse_text ⟨text, canonical⟩, rfl,
    read_encodeV7 fits small length written⟩

namespace History

/-- The readings of the calls that succeeded. -/
def readings (issued : List Issue) : List Nat := issued.map fun issue => issue.reading

structure Ordered (history : History) : Prop where
  bounded : history.generator.Bounded
  reached : (readings history.issued).max? = history.generator.last
  below : ∀ issue ∈ history.issued, ∃ last milliseconds counter suffix,
    history.generator.last = some last ∧ issue.text = encodeV7 milliseconds counter suffix ∧
    suffix.length = 8 ∧ counter ≤ 4095 ∧
    (milliseconds < last ∨ milliseconds = last ∧ counter ≤ history.generator.counter)
  increasing : history.issued.Pairwise fun issue later => issue.text.units < later.text.units
  formed : ∀ earlier issue later, history.issued = earlier ++ issue :: later →
    ∃ id, parse (.string issue.text) = .ok id ∧ id.text = issue.text ∧ version id = 7 ∧
      unixMillis id = (readings (earlier ++ [issue])).max?

theorem initial_ordered : initial.Ordered where
  bounded := ⟨fun last held => (by cases held), Nat.zero_le _⟩
  reached := rfl
  below := fun issue member => by cases member
  increasing := List.Pairwise.nil
  formed := fun earlier issue later same => by simp [initial] at same

/-- The last element of a list that a split puts somewhere. -/
private theorem split_concat {α : Type} {items earlier later : List α} {last item : α}
    (same : items ++ [last] = earlier ++ item :: later) :
    (earlier = items ∧ item = last) ∨ ∃ more, items = earlier ++ item :: more := by
  rcases List.eq_nil_or_concat later with rfl | ⟨more, other, rfl⟩
  · obtain ⟨front, back⟩ := List.append_inj' same rfl
    cases back
    exact .inl ⟨front.symm, rfl⟩
  · rw [List.concat_eq_append, ← List.cons_append, ← List.append_assoc] at same
    exact .inr ⟨more, (List.append_inj' same rfl).1⟩

/-- The generator's new reading is the largest of all so far. -/
theorem Ordered.reaches {history : History} (ordered : history.Ordered) {reading last : Nat}
    {text : JsString} {next : Generator}
    (advances : Advances history.generator reading text next) (held : next.last = some last) :
    (readings (history.issued ++ [⟨text, reading⟩])).max? = some last := by
  obtain ⟨stamp, suffix, same, -, -, late, origin⟩ := advances.written
  obtain rfl : stamp = last := Option.some.inj (same.symm.trans held)
  have earlier : ∀ other ∈ readings history.issued, other ≤ stamp := by
    intro other member
    cases before : history.generator.last with
    | none =>
      have empty := List.max?_eq_none_iff.mp (ordered.reached.trans before)
      rw [empty] at member
      cases member
    | some previous =>
      have most := (List.max?_eq_some_iff.mp (ordered.reached.trans before)).2 other member
      have forward := advances.forward previous stamp before held
      omega
  rw [readings, List.map_append]
  apply List.max?_eq_some_iff.mpr
  constructor
  · rcases origin with same | before
    · exact List.mem_append.mpr (.inr (by simp [same]))
    · have member := (List.max?_eq_some_iff.mp (ordered.reached.trans before)).1
      exact List.mem_append.mpr (.inl member)
  · intro other member
    rcases List.mem_append.mp member with before | here
    · exact earlier other before
    · rw [List.map_singleton, List.mem_singleton] at here
      rw [here]
      exact late

theorem Ordered.extend {history : History} (ordered : history.Ordered) {reading : Nat}
    {text : JsString} {next : Generator}
    (advances : Advances history.generator reading text next) :
    Ordered ⟨next, history.issued ++ [⟨text, reading⟩]⟩ := by
  obtain ⟨last, suffix, held, length, written, -⟩ := advances.written
  have small := advances.bounded.counter
  have reached := ordered.reaches advances held
  have less : ∀ issue ∈ history.issued, issue.text.units < text.units := by
    intro issue member
    obtain ⟨previous, milliseconds, counter, other, before, issueText, otherLength, counterSmall,
      earlier⟩ := ordered.below issue member
    rw [issueText, written]
    apply encodeV7_lt (advances.bounded.last last held) counterSmall small otherLength length
    have forward := advances.forward previous last before held
    omega
  exact {
    bounded := advances.bounded
    reached := reached.trans held.symm
    below := by
      intro issue member
      rcases List.mem_append.mp member with before | here
      · obtain ⟨previous, milliseconds, counter, other, known, issueText, otherLength, counterSmall,
          earlier⟩ := ordered.below issue before
        refine ⟨last, milliseconds, counter, other, held, issueText, otherLength, counterSmall, ?_⟩
        have forward := advances.forward previous last known held
        show milliseconds < last ∨ milliseconds = last ∧ counter ≤ next.counter
        omega
      · rw [List.mem_singleton] at here
        subst here
        exact ⟨last, last, next.counter, suffix, held, written, length, small,
          .inr ⟨rfl, Nat.le_refl _⟩⟩
    increasing := by
      apply List.pairwise_append.mpr
      refine ⟨ordered.increasing, List.pairwise_singleton _ _, ?_⟩
      intro issue member new single
      rw [List.mem_singleton] at single
      subst single
      exact less issue member
    formed := by
      intro earlier issue later same
      rcases split_concat same with ⟨before, here⟩ | ⟨more, before⟩
      · subst here
        rw [before, reached]
        exact advances.formed held
      · exact ordered.formed earlier issue more before }

theorem Ordered.step {history : History} (ordered : history.Ordered) (call : Call) :
    (history.step call).Ordered := by
  unfold History.step
  cases outcome : newId history.generator call.reading call.entropy with
  | mk result next =>
    cases result with
    | error failed =>
      rw [newId_error outcome]
      exact ordered
    | ok text =>
      obtain ⟨milliseconds, ranged, minted⟩ := newId_ok outcome
      have fits := inRange_some ranged
      simp only [ranged, Option.getD_some]
      exact ordered.extend (minted.advances ordered.bounded fits)

theorem reachable_ordered (calls : List Call) : (run step initial calls).Ordered :=
  run_invariant Ordered (fun _ call ordered => ordered.step call) initial_ordered calls

end History

/-- The identifiers of a generator strictly increase as texts, whatever the clock
and the entropy source do; each carries the greatest reading a successful call has
taken so far, its counter does not wrap, and a call that fails leaves no trace. -/
theorem v7_identifiers_increase (calls : List Call) :
    let history := run History.step .initial calls
    history.issued.Pairwise (fun issue later => issue.text.units < later.text.units) ∧
    (∀ earlier issue later, history.issued = earlier ++ issue :: later →
      ∃ id, parse (.string issue.text) = .ok id ∧ id.text = issue.text ∧ version id = 7 ∧
        unixMillis id = (History.readings (earlier ++ [issue])).max?) ∧
    (∀ reading entropy text next, newId history.generator reading entropy = (.ok text, next) →
      next.counter ≤ 4095 ∧ counterField text = next.counter ∧
      ∀ last, history.generator.last = some last → next.last = some last →
        next.counter = history.generator.counter + 1) ∧
    (∀ reading entropy milliseconds last, inRange reading = some milliseconds →
      history.generator.last = some last → milliseconds ≤ last → history.generator.counter = 4095 →
      (newId history.generator reading entropy).1 = .error exhausted) ∧
    (∀ call failed, (newId history.generator call.reading call.entropy).1 = .error failed →
      (newId history.generator call.reading call.entropy).2 = history.generator ∧
      ∀ later, run History.step history (call :: later) = run History.step history later) := by
  intro history
  have ordered : history.Ordered := History.reachable_ordered calls
  refine ⟨ordered.increasing, ordered.formed, ?_, ?_, ?_⟩
  · intro reading entropy text next minted
    obtain ⟨milliseconds, ranged, done⟩ := newId_ok minted
    have advances := done.advances ordered.bounded (inRange_some ranged)
    obtain ⟨last, suffix, held, length, written, -⟩ := advances.written
    refine ⟨advances.bounded.counter, ?_, ?_⟩
    · rw [written]
      exact counterField_encodeV7 (advances.bounded.last last held) advances.bounded.counter length
    · intro previous before same
      rcases advances.forward previous previous before same with less | ⟨-, counted⟩
      · omega
      · exact counted
  · intro reading entropy milliseconds last ranged held late full
    have stale : ¬ last < milliseconds := Nat.not_lt.mpr late
    simp [newId, ranged, held, stale, full]
  · intro call failed refused
    have outcome : newId history.generator call.reading call.entropy =
        (.error failed, (newId history.generator call.reading call.entropy).2) := by
      rw [← refused]
    have same := newId_error outcome
    refine ⟨same, ?_⟩
    intro later
    have unchanged : history.step call = history := by
      unfold History.step
      rw [outcome, same]
    rw [run_cons, unchanged]

end N2FNest.Shared.V7
