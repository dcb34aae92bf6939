import N2FNest.Shared.Stringify

/-! PostgreSQL's `jsonb`: the values it takes and the order in which it gives their
fields back. -/

namespace N2FNest.Shared.Json

open Lib

/-- A text without U+0000 and without lone surrogates. -/
def storableText (text : JsString) : Bool :=
  (text.units.all fun unit => unit ≠ 0) && !Utf16.hasLone text.units

theorem storableText_eq_isClean (text : JsString) : storableText text = text.isClean := by
  have filled : (text.units.all fun unit => unit ≠ 0) = !text.units.contains 0 := by
    have other : (∀ unit ∈ text.units, unit ≠ 0) ↔ (0 : UInt16) ∉ text.units :=
      ⟨fun all member => all 0 member rfl, fun missing unit member same => missing (same ▸ member)⟩
    rw [Bool.eq_iff_iff]
    simpa [List.all_eq_true] using other
  rw [storableText, filled, JsString.isClean]

theorem storableText_ascii {text : JsString}
    (ascii : ∀ unit ∈ text.units, 0 < unit.toNat ∧ unit.toNat < 0x80) : storableText text = true := by
  have whole : Utf16.hasLone text.units = false := (Utf16.decode_of_plain fun unit member =>
    Utf16.not_surrogate ((ascii unit member).2.trans (by decide))).1
  have filled : (text.units.all fun unit => unit ≠ 0) = true := by
    refine List.all_eq_true.mpr fun unit member => decide_eq_true ?_
    rintro rfl
    exact Nat.lt_irrefl 0 (ascii 0 member).1
  rw [storableText, filled, whole]
  rfl

mutual

/-- What `jsonb` takes. -/
def storable : JsValue → Bool
  | .string text => storableText text
  | .array items => storableItems items
  | .object fields => storableFields fields
  | .undefined | .null | .bool _ | .number _ => true
  termination_by structural value => value

def storableItems : List JsValue → Bool
  | [] => true
  | item :: rest => storable item && storableItems rest
  termination_by structural items => items

def storableFields : List (JsString × JsValue) → Bool
  | [] => true
  | field :: rest => storableField field && storableFields rest
  termination_by structural fields => fields

def storableField : JsString × JsValue → Bool
  | (name, value) => storableText name && storable value
  termination_by structural field => field

end

/-- Names are ordered by their length in bytes, then by their bytes. -/
def nameBefore (left right : JsString × JsValue) : Bool :=
  left.1.byteLength < right.1.byteLength ||
    (left.1.byteLength == right.1.byteLength && decide (left.1.toUtf8 ≤ right.1.toUtf8))

mutual

/-- Fields in the order `jsonb` keeps them. -/
def arrange : JsValue → JsValue
  | .undefined => .undefined
  | .null => .null
  | .bool value => .bool value
  | .number value => .number value
  | .string text => .string text
  | .array items => .array (arrangeItems items)
  | .object fields => .object ((arrangeFields fields).insertionSort fun left right => nameBefore left right)
  termination_by structural value => value

def arrangeItems : List JsValue → List JsValue
  | [] => []
  | item :: rest => arrange item :: arrangeItems rest
  termination_by structural items => items

def arrangeFields : List (JsString × JsValue) → JsObject
  | [] => []
  | field :: rest => arrangeField field :: arrangeFields rest
  termination_by structural fields => fields

def arrangeField : JsString × JsValue → JsString × JsValue
  | (name, value) => (name, arrange value)
  termination_by structural field => field

end

/-- What `text::jsonb` gives back, `none` where it is refused. A number of a double's
digits stays that double. -/
def jsonb (text : JsString) : Option JsValue :=
  (parse text).bind fun value => if storable value then some (arrange value) else none

private theorem arrangeFields_names (fields : JsObject) :
    (arrangeFields fields).map Prod.fst = fields.map Prod.fst := by
  induction fields with
  | nil => rfl
  | cons field rest ih =>
    obtain ⟨name, value⟩ := field
    rw [arrangeFields, arrangeField, List.map_cons, List.map_cons, ih]

private theorem read_arrangeFields (fields : JsObject) (name : JsString) :
    (arrangeFields fields).read name = arrange (fields.read name) := by
  induction fields with
  | nil => rfl
  | cons field rest ih =>
    obtain ⟨other, value⟩ := field
    rw [arrangeFields, arrangeField, read_cons, read_cons, ih]
    split <;> rfl

/-- The order of fields does not matter to a reader. -/
theorem read_perm {left right : JsObject} (same : left.Perm right)
    (unique : (left.map Prod.fst).Nodup) (name : JsString) : left.read name = right.read name := by
  induction same with
  | nil => rfl
  | cons field _ ih =>
    rw [List.map_cons, List.nodup_cons] at unique
    rw [read_cons, read_cons, ih unique.2]
  | swap first second rest =>
    have different : first.1 ≠ second.1 := by
      rintro equal
      rw [List.map_cons, List.map_cons, List.nodup_cons] at unique
      exact unique.1 (equal ▸ List.mem_cons_self)
    rw [read_cons, read_cons, read_cons, read_cons]
    by_cases here : name = first.1
    · have other : name ≠ second.1 := here ▸ different
      simp only [if_neg other, if_pos here]
    · simp only [if_neg here]
  | trans first _ ih later =>
    exact (ih unique).trans (later ((first.map Prod.fst).nodup_iff.mp unique))

/-- The fields a stored object is given back with. -/
def stored (fields : JsObject) : JsObject :=
  (arrangeFields (cleanFields fields)).insertionSort fun left right => nameBefore left right

theorem stored_perm (fields : JsObject) : (stored fields).Perm (arrangeFields (cleanFields fields)) :=
  List.perm_insertionSort _ _

theorem stored_names (fields : JsObject) :
    (stored fields).map Prod.fst ⊆ fields.map Prod.fst := by
  intro name member
  have kept := ((stored_perm fields).map Prod.fst).mem_iff.mp member
  rw [arrangeFields_names] at kept
  exact (cleanFields_names fields).subset kept

theorem read_stored {fields : JsObject} (unique : (fields.map Prod.fst).Nodup) (name : JsString) :
    (stored fields).read name = arrange (keep (fields.read name)) := by
  have kept := unique.sublist (cleanFields_names fields)
  rw [← arrangeFields_names] at kept
  rw [read_perm (stored_perm fields) (((stored_perm fields).map Prod.fst).nodup_iff.mpr kept),
    read_arrangeFields, read_cleanFields unique]

/-- A stringified object that `jsonb` takes. -/
theorem jsonb_write {fields : JsObject} (unique : (fields.map Prod.fst).Nodup)
    (texts : ∀ name ∈ fields.map Prod.fst, index? name = none)
    (taken : storableFields (cleanFields fields) = true) :
    jsonb ⟨write (clean (.object fields))⟩ = some (.object (stored fields)) := by
  rw [jsonb, parse_write (clean_tidy _), clean_object unique texts]
  exact if_pos taken

theorem storable_number (value : Nat) : storable (keep (.number (.ofNat value))) = true := by
  show storable (clean (.number (.finite (value : ℚ)))) = true
  rw [clean]
  split <;> rfl

/-- What is kept of fields is storable where each value is, under storable names. -/
theorem storableFields_cleanFields {fields : JsObject}
    (named : ∀ name ∈ fields.map Prod.fst, storableText name = true) :
    storableFields (cleanFields fields) = true ↔ ∀ field ∈ fields, storable (keep field.2) = true := by
  induction fields with
  | nil => simp [cleanFields, storableFields]
  | cons field rest ih =>
    obtain ⟨name, value⟩ := field
    obtain ⟨here, later⟩ := List.forall_mem_cons.mp named
    have here : storableText name = true := here
    rw [cleanFields, cleanField, List.forall_mem_cons, ← ih later]
    by_cases absent : isUndefined value = true
    · have gone : keep value = .undefined := if_pos absent
      rw [if_pos absent, List.nil_append]
      show _ ↔ storable (keep value) = true ∧ _
      simp [gone, storable]
    · have kept : keep value = clean value := if_neg absent
      rw [if_neg absent, List.singleton_append, storableFields, storableField, here]
      simp [kept]

/-- An object under texts that are storable names. -/
theorem storable_object {fields : JsObject} (unique : (fields.map Prod.fst).Nodup)
    (texts : ∀ name ∈ fields.map Prod.fst, index? name = none)
    (named : ∀ name ∈ fields.map Prod.fst, storableText name = true) :
    storable (keep (.object fields)) = true ↔ ∀ field ∈ fields, storable (keep field.2) = true := by
  have object : keep (.object fields) = .object (cleanFields fields) := clean_object unique texts
  rw [object, storable, storableFields_cleanFields named]

end N2FNest.Shared.Json
