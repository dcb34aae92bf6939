import N2FNest.Events.Envelope
import N2FNest.Shared.Stringify

/-! JSON equality of parsed values is an order: every value that was parsed equals
itself, and equality passes on. -/

namespace N2FNest.Events

open Shared Json

/-- A field of an object, found under its name where the names are distinct. -/
private theorem lookup_member {fields : JsObject} {name : JsString} {value : JsValue}
    (unique : (fields.map Prod.fst).Nodup) (member : (name, value) ∈ fields) :
    fields.lookup name = some value := by
  induction fields with
  | nil => cases member
  | cons field rest ih =>
    obtain ⟨other, held⟩ := field
    rw [List.map_cons, List.nodup_cons] at unique
    rcases List.mem_cons.mp member with same | later
    · obtain ⟨rfl, rfl⟩ := Prod.mk.inj same
      exact List.lookup_cons_self
    · have different : name ≠ other := fun same =>
        unique.1 (same ▸ List.mem_map.mpr ⟨(name, value), later, rfl⟩)
      rw [List.lookup_cons, beq_eq_false_iff_ne.mpr different]
      exact ih unique.2 later

mutual

theorem sameJson_refl : (value : JsValue) → Tidy value → sameJson value value = true
  | .null, _ => rfl
  | .bool value, _ => beq_self_eq_true value
  | .number value, _ => beq_self_eq_true value
  | .string text, _ => beq_self_eq_true text
  | .array items, tidy => sameItems_refl items tidy
  | .object fields, tidy => by
    rw [sameJson, beq_self_eq_true, Bool.true_and]
    exact sameFields_self fields fields tidy.2 fun name value member => lookup_member tidy.1 member
  termination_by structural value => value

private theorem sameItems_refl : (items : List JsValue) → TidyItems items →
    sameItems items items = true
  | [], _ => rfl
  | item :: rest, tidy => by
    rw [sameItems, sameJson_refl item tidy.1, sameItems_refl rest tidy.2, Bool.and_self]
  termination_by structural items => items

/-- The fields of a part of an object are found in the whole. -/
private theorem sameFields_self : (fields : List (JsString × JsValue)) → (whole : JsObject) →
    TidyFields fields → (∀ name value, (name, value) ∈ fields → whole.lookup name = some value) →
    sameFields fields whole = true
  | [], _, _, _ => rfl
  | field :: rest, whole, tidy, found => by
    have here := sameField_self field whole tidy.1 (found field.1 field.2 List.mem_cons_self)
    have later := sameFields_self rest whole tidy.2 fun name value member =>
      found name value (List.mem_cons_of_mem field member)
    rw [sameFields, here, later, Bool.and_self]
  termination_by structural fields => fields

private theorem sameField_self : (field : JsString × JsValue) → (whole : JsObject) →
    TidyField field → whole.lookup field.1 = some field.2 → sameField field whole = true
  | (name, value), whole, tidy, found => by
    rw [sameField, found]
    exact sameJson_refl value tidy
  termination_by structural field => field

end

mutual

theorem sameJson_trans : (first second third : JsValue) → sameJson first second = true →
    sameJson second third = true → sameJson first third = true
  | .null, .null, .null, _, _ => rfl
  | .bool _, .bool _, .bool _, left, right => by
    simp only [sameJson, beq_iff_eq] at left right ⊢
    exact left.trans right
  | .number _, .number _, .number _, left, right => by
    simp only [sameJson, beq_iff_eq] at left right ⊢
    exact left.trans right
  | .string _, .string _, .string _, left, right => by
    simp only [sameJson, beq_iff_eq] at left right ⊢
    exact left.trans right
  | .array items, .array others, .array last, left, right =>
    sameItems_trans items others last left right
  | .object fields, .object others, .object last, left, right => by
    simp only [sameJson, Bool.and_eq_true, beq_iff_eq] at left right ⊢
    exact ⟨left.1.trans right.1, sameFields_trans fields others last left.2 right.2⟩
  termination_by structural value => value

private theorem sameItems_trans : (first second third : List JsValue) →
    sameItems first second = true → sameItems second third = true → sameItems first third = true
  | [], [], [], _, _ => rfl
  | item :: rest, other :: others, last :: lasts, left, right => by
    simp only [sameItems, Bool.and_eq_true] at left right ⊢
    exact ⟨sameJson_trans item other last left.1 right.1,
      sameItems_trans rest others lasts left.2 right.2⟩
  termination_by structural items => items

private theorem sameFields_trans : (first second third : List (JsString × JsValue)) →
    sameFields first second = true → sameFields second third = true → sameFields first third = true
  | [], _, _, _, _ => rfl
  | field :: rest, others, lasts, left, right => by
    simp only [sameFields, Bool.and_eq_true] at left ⊢
    exact ⟨sameField_trans field others lasts left.1 right,
      sameFields_trans rest others lasts left.2 right⟩
  termination_by structural fields => fields

private theorem sameField_trans : (field : JsString × JsValue) →
    (second third : List (JsString × JsValue)) → sameField field second = true →
    sameFields second third = true → sameField field third = true
  | (name, value), others, lasts, left, right => by
    cases held : others.lookup name with
    | none => simp [sameField, held] at left
    | some other =>
      rw [sameField, held] at left
      obtain ⟨last, found, equal⟩ := sameFields_lookup right held
      rw [sameField, found]
      exact sameJson_trans value other last left equal
  termination_by structural field => field

end

end N2FNest.Events
