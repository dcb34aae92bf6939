import N2FNest.Audit.Codec
import N2FNest.Events.Passage

/-! Which envelopes the tables of PostgreSQL admit. All of an envelope but its payload
is written in printable ASCII. -/

namespace N2FNest.Events

open Lib Shared Json Provenance

private theorem envelopeNames_storable : ∀ name ∈ envelopeNames, storableText name = true := by decide

private theorem storable_subject {subject : EventSubject} (token : subject.kind.isToken 63 = true) :
    storable (keep (.object subject.fields)) = true := by
  have texts : ∀ name ∈ referenceNames, (name.units.any fun unit => !Decimal.isDigit unit) = true := by
    decide
  have unique : (subject.fields.map Prod.fst).Nodup := by
    show referenceNames.Nodup
    decide
  have named : ∀ name ∈ referenceNames, storableText name = true := by decide
  refine (storable_object unique (fun name member => index?_eq_none (texts name member)) named).mpr ?_
  refine List.forall_mem_cons.mpr ⟨?_, List.forall_mem_singleton.mpr (Audit.storable_id subject.id)⟩
  exact storableText_ascii (JsString.isToken_ascii token)

/-- What the normalization writes is storable. -/
private theorem storable_normal {raw : List UInt8} {event : WireEnvelope}
    (decoded : WireEnvelope.decode raw = .ok event) :
    ∀ field ∈ normalFields event.id event.work event.subject event.tenant,
      storable (keep field.2) = true := by
  obtain ⟨-, -, token⟩ := decode_checks decoded
  intro field member
  simp only [normalFields, List.mem_append, List.mem_cons, List.not_mem_nil, or_false,
    Option.mem_toList, Option.map_eq_some_iff] at member
  rcases member with ((rfl | rfl) | ⟨subject, known, rfl⟩) | ⟨tenant, -, rfl⟩
  · exact Audit.storable_id event.id
  · exact Audit.storable_work event.work.snapshot
  · rw [known] at token
    exact storable_subject token
  · exact Audit.storable_id tenant

/-- Every field of an envelope but its payload is storable. -/
private theorem storable_header {raw : List UInt8} {event : WireEnvelope} {input : JsObject}
    (issued : WireEnvelope.decode raw = .ok event) (decoded : Decoded input event) {name : JsString}
    (named : name ∈ envelopeNames) (other : name ≠ js "payload") :
    storable (keep ((event.normalized input).read name)) = true := by
  rw [event.normalized_read]
  by_cases normal : name ∈ (normalFields event.id event.work event.subject event.tenant).map Prod.fst
  · rw [if_pos normal]
    exact storable_normal issued _ (member_read normal)
  · rw [if_neg normal]
    rw [normalFields_names] at normal
    simp only [envelopeNames, requiredNames, List.cons_append, List.nil_append, List.mem_cons,
      List.not_mem_nil, or_false] at named
    rcases named with rfl | rfl | rfl | rfl | rfl | rfl | rfl | rfl
    · rw [decoded.headed.version]
      exact storable_number _
    · simp at normal
    · rw [decoded.headed.named]
      exact storableText_ascii (isEventType_ascii (decode_checks issued).1)
    · rw [decoded.headed.timed]
      exact storable_number _
    · simp at normal
    · exact absurd rfl other
    · rcases subjectIn_ok decoded.subject with ⟨-, absent⟩ | ⟨item, same, -⟩
      · rw [absent]
        rfl
      · simp [same] at normal
    · rcases tenantIdIn_ok decoded.tenant with ⟨-, absent⟩ | ⟨item, same, -⟩
      · rw [absent]
        rfl
      · simp [same] at normal

/-- An envelope is admitted exactly when its payload is storable. -/
theorem decode_admitted_iff {raw : List UInt8} {event : WireEnvelope} {payload : JsObject}
    (decoded : WireEnvelope.decode raw = .ok event) (held : event.payload = .ok payload) :
    admittedText event.raw = true ↔ storable (.object payload) = true := by
  obtain ⟨input, parts, unique, defined⟩ := decode_input decoded
  obtain ⟨written, -⟩ := parts.written unique defined
  have names := normalized_names parts defined
  have distinct := names.symm ▸ unique
  have known : ∀ name ∈ (event.normalized input).map Prod.fst, name ∈ envelopeNames := by
    rw [names]
    exact parts.headed.names
  have admitted : admittedText event.raw = true ↔
      ∀ field ∈ event.normalized input, storable (keep field.2) = true := by
    rw [← storableFields_cleanFields fun name member => envelopeNames_storable name (known name member)]
    rw [admittedText, decide_eq_true parts.size, written, Bool.true_and]
    exact Iff.rfl
  have own : keep ((event.normalized input).read (js "payload")) = .object payload := by
    rw [WireEnvelope.payload, written] at held
    rw [← read_cleanFields distinct]
    exact asObject_ok.mp held
  rw [admitted, ← own]
  constructor
  · intro taken
    have present : js "payload" ∈ (event.normalized input).map Prod.fst := by
      rw [names, ← hasOwn_iff]
      exact parts.headed.required _ (by decide)
    exact taken _ (member_read present)
  · intro taken field member
    have value := read_member distinct member
    by_cases payload : field.1 = js "payload"
    · rw [← value, payload]
      exact taken
    · rw [← value]
      exact storable_header decoded parts (known _ (List.mem_map_of_mem member)) payload

/-- A new envelope is admitted exactly when what JSON keeps of its payload is storable. -/
theorem create_admitted_iff {id type : JsString} {occurredAtMs : JsNumber} {work : WorkContext}
    {payload : JsValue} {subject : Option (JsString × JsString)} {tenant : Option JsString}
    {event : WireEnvelope}
    (created : WireEnvelope.create id type occurredAtMs work payload subject tenant = .ok event) :
    admittedText event.raw = true ↔ storable (keep payload) = true := by
  obtain ⟨-, -, held, present⟩ := decode_again created
  obtain ⟨-, decoded⟩ := create_ok.mp created
  obtain ⟨unique, -⟩ := createFields_plain id type occurredAtMs work payload subject tenant
  have distinct := unique.sublist (cleanFields_names
    (createFields id type occurredAtMs work payload subject tenant))
  have defined := fun field member => (cleanFields_clean
    (createFields id type occurredAtMs work payload subject tenant) field member).1
  obtain ⟨written, -⟩ := decoded.written distinct defined
  have own : keep payload = .object held := by
    have read := present
    rw [WireEnvelope.payload, written] at read
    have found := asObject_ok.mp read
    rw [renewed_kept decoded distinct defined (by decide), read_cleanFields unique, keep_keep] at found
    exact found
  rw [decode_admitted_iff created present, own]

end N2FNest.Events
