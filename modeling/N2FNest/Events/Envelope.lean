import N2FNest.Lib.Table
import N2FNest.Shared.Identifier

/-! Event envelopes as the program passes them around, and the JSON equality
under which storage calls two envelopes the same event. -/

namespace N2FNest.Events

open Lib Shared

mutual

/-- PostgreSQL's `jsonb` equality: object fields compare without order. -/
def sameJson : JsValue → JsValue → Bool
  | .null, .null => true
  | .bool left, .bool right => left == right
  | .number left, .number right => left == right
  | .string left, .string right => left == right
  | .array left, .array right => sameItems left right
  | .object left, .object right => left.length == right.length && sameFields left right
  | _, _ => false
  termination_by structural value => value

def sameItems : List JsValue → List JsValue → Bool
  | [], [] => true
  | left :: lefts, right :: rights => sameJson left right && sameItems lefts rights
  | _, _ => false
  termination_by structural items => items

def sameFields : List (JsString × JsValue) → List (JsString × JsValue) → Bool
  | [], _ => true
  | field :: rest, other => sameField field other && sameFields rest other
  termination_by structural fields => fields

def sameField : JsString × JsValue → List (JsString × JsValue) → Bool
  | (name, value), other => match other.lookup name with
    | some found => sameJson value found
    | none => false
  termination_by structural field => field

end

theorem sameFields_lookup {left right : JsObject} {name : JsString} {value : JsValue}
    (same : sameFields left right = true) (present : left.lookup name = some value) :
    ∃ found, right.lookup name = some found ∧ sameJson value found = true := by
  induction left with
  | nil => simp at present
  | cons field rest ih =>
    obtain ⟨key, stored⟩ := field
    simp only [sameFields, Bool.and_eq_true] at same
    by_cases here : name = key
    · subst here
      have identical : stored = value := by simpa using present
      subst identical
      cases found : right.lookup name with
      | none => simp [sameField, found] at same
      | some other => exact ⟨other, rfl, by simpa [sameField, found] using same.1⟩
    · have later : rest.lookup name = some value := by
        simpa [List.lookup_cons, beq_eq_false_iff_ne.mpr here] using present
      exact ih same.2 later

/-- Where JSON equality of a value is identity, equal objects hold it under the
same name. -/
private theorem sameFields_read {left right : JsObject} {name : JsString} {value : JsValue}
    (same : sameFields left right = true) (present : left.read name = value)
    (defined : value ≠ .undefined)
    (identity : ∀ found, Events.sameJson value found = true → found = value) :
    right.read name = value := by
  have stored : left.lookup name = some value := by
    cases stored : left.lookup name with
    | none => exact absurd (by simpa [JsObject.read, stored] using present.symm) defined
    | some held => exact congrArg some (by simpa [JsObject.read, stored] using present)
  obtain ⟨found, other, equal⟩ := sameFields_lookup same stored
  simp [JsObject.read, other, identity found equal]

/-- Equal objects hold the same text under every name. -/
theorem sameFields_string {left right : JsObject} {name text : JsString}
    (same : sameFields left right = true) (present : left.read name = .string text) :
    right.read name = .string text := by
  apply sameFields_read same present (by simp)
  intro found equal
  cases found with
  | string held =>
    have texts : text = held := by simpa [sameJson] using equal
    rw [texts]
  | _ => simp [sameJson] at equal

theorem sameFields_number {left right : JsObject} {name : JsString} {value : JsNumber}
    (same : sameFields left right = true) (present : left.read name = .number value) :
    right.read name = .number value := by
  apply sameFields_read same present (by simp)
  intro found equal
  cases found with
  | number held =>
    have values : value = held := by simpa [sameJson] using equal
    rw [values]
  | _ => simp [sameJson] at equal

/-- The optional domain-neutral subject of an event. -/
structure EventSubject where
  kind : JsString
  id : ID
  deriving DecidableEq

/-- An envelope by its decoded parts. `Work` is the provenance snapshot, of
which writers only ask whether two are equal. -/
structure Envelope (Work : Type) where
  id : ID
  type : JsString
  occurredAtMs : Int
  work : Work
  payload : JsObject
  subject : Option EventSubject
  tenant : Option ID

variable {Work : Type} [DecidableEq Work]

/-- `left::jsonb = right::jsonb` over the whole envelope text. -/
def Envelope.sameJson (left right : Envelope Work) : Bool :=
  left.id == right.id && left.type == right.type && left.occurredAtMs == right.occurredAtMs &&
    left.work == right.work && Events.sameJson (.object left.payload) (.object right.payload) &&
    left.subject == right.subject && left.tenant == right.tenant

theorem Envelope.sameJson_parts {left right : Envelope Work} (same : left.sameJson right = true) :
    left.id = right.id ∧ left.type = right.type ∧ sameFields left.payload right.payload = true := by
  simp only [Envelope.sameJson, Events.sameJson, Bool.and_eq_true, beq_iff_eq] at same
  obtain ⟨⟨⟨⟨⟨⟨id, type⟩, _⟩, _⟩, _, payload⟩, _⟩, _⟩ := same
  exact ⟨id, type, payload⟩

def conflict (code : String) : Failure :=
  failure .conflict "event delivery conflict" ("events." ++ code)

def provenanceMismatch : Failure :=
  failure .invalid "event provenance does not match the write" "events.provenance_mismatch"

/-- A writer may persist only an event created for its current work scope. -/
def assertEventWork (event : Envelope Work) (work : Work) : Except Failure Unit :=
  if event.work = work then .ok () else .error provenanceMismatch

/-- The outbox as a writer's transaction sees it, without the delivery columns. -/
abbrev EventLog (Work : Type) := Table (fun event : Envelope Work => event.id)

/-- An event id already in the outbox is accepted again only for the same event. -/
def EventLog.enqueue (outbox : EventLog Work) (event : Envelope Work) :
    Except Failure (EventLog Work) :=
  match outbox.get event.id with
  | none => .ok (outbox.set event)
  | some held => if held.sameJson event then .ok outbox else .error (conflict "id_reused")

def EventLog.enqueueAll : EventLog Work → List (Envelope Work) → Except Failure (EventLog Work)
  | outbox, [] => .ok outbox
  | outbox, event :: rest => do EventLog.enqueueAll (← EventLog.enqueue outbox event) rest

end N2FNest.Events
