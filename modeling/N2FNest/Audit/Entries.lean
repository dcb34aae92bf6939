import N2FNest.Audit.Codec
import N2FNest.Events.RoundTrip

/-! Audit entries, the rows that hold them, and the rows' reading. -/

namespace N2FNest.Audit

open Events Lib Shared Json Provenance

abbrev AuditSubject := EventSubject

/-- The state of an entry; its work is validated, as every snapshot of it is. -/
structure AuditEntry where
  id : ID
  eventId : ID
  eventType : JsString
  occurredAt : Int
  recordedAt : Int
  work : WorkContext
  subject : Option AuditSubject
  tenant : Option ID
  validType : isEventType eventType = true
  validSubject : subject.all (fun subject => subject.kind.isToken 63) = true
  deriving DecidableEq

structure RecordAuditEntryInput (Work : Type) where
  id : ID
  eventId : ID
  eventType : JsString
  occurredAt : JsDate
  recordedAt : JsDate
  work : Work
  subject : Option AuditSubject
  tenant : Option ID

def invalidTime : Failure := failure .invalid "audit times must be valid" "audit.invalid_time"

def invalidEventType : Failure :=
  failure .invalid "audit event type is invalid" "audit.invalid_event_type"

def invalidSubject : Failure := failure .invalid "audit subject is invalid" "audit.invalid_subject"

def invalidProvenance : Failure :=
  failure .invalid "audit provenance is invalid" "audit.invalid_provenance"

namespace AuditEntry

def record (input : RecordAuditEntryInput WorkContext) : Except Failure AuditEntry :=
  match input.occurredAt, input.recordedAt with
  | some occurredAt, some recordedAt =>
    if validType : isEventType input.eventType = true then
      if validSubject : input.subject.all (fun subject => subject.kind.isToken 63) = true then
        .ok
          { id := input.id, eventId := input.eventId, eventType := input.eventType, occurredAt
            recordedAt, work := input.work, subject := input.subject, tenant := input.tenant
            validType, validSubject }
      else .error invalidSubject
    else .error invalidEventType
  | _, _ => .error invalidTime

def restore (input : RecordAuditEntryInput WorkSnapshot) : Except Failure AuditEntry :=
  match restoreWork input.work with
  | .error _ => .error invalidProvenance
  | .ok work => record { input with work }

/-- `entry.provenance`. -/
def provenance (entry : AuditEntry) : WorkSnapshot := entry.work.snapshot

end AuditEntry

/-- The columns of `n2f_audit_entries`. -/
structure AuditRow where
  id : ID
  eventId : ID
  eventType : JsString
  occurredAt : Int
  recordedAt : Int
  workContext : JsValue
  subjectKind : Option JsString
  subjectId : Option ID
  tenantId : Option ID

namespace AuditRow

/-- The CHECK constraints of the table under their names. -/
def constraints (row : AuditRow) : List (String × Bool) :=
  [("n2f_audit_entries_check", row.subjectKind.isNone == row.subjectId.isNone),
    ("n2f_audit_entries_event_type_check", isEventType row.eventType),
    ("n2f_audit_entries_work_context_check", (object row.workContext).isSome)]

end AuditRow

/-- The row an INSERT of the entry makes, where no value and no constraint refuses it. -/
def AuditEntry.row (entry : AuditEntry) : Option AuditRow :=
  (jsonb (encodeWork entry.provenance)).bind fun workContext =>
    let row : AuditRow :=
      { id := entry.id, eventId := entry.eventId, eventType := entry.eventType
        occurredAt := entry.occurredAt, recordedAt := entry.recordedAt, workContext
        subjectKind := entry.subject.map (·.kind), subjectId := entry.subject.map (·.id)
        tenantId := entry.tenant }
    if row.constraints.all (·.2) then some row else none

def storedInvalid (what : String) : Failure :=
  failure .internal ("stored audit " ++ what ++ " is invalid") "audit.persistence_invalid"

/-- The adapter's `id`, of a column that may be NULL. -/
def storedIdColumn : Option ID → Except Failure ID
  | none => .error (storedInvalid "ID")
  | some id => parse (.string id.text)

def subjectFrom (row : AuditRow) : Except Failure (Option AuditSubject) :=
  if row.subjectKind.isSome || row.subjectId.isSome then
    match row.subjectKind, storedIdColumn row.subjectId with
    | some kind, .ok id => .ok (some ⟨kind, id⟩)
    | _, _ => .error (storedInvalid "subject")
  else .ok none

def tenantColumn (row : AuditRow) : Except Failure (Option ID) :=
  match row.tenantId with
  | none => .ok none
  | some tenant => ((storedIdColumn (some tenant)).map some).mapError fun _ => storedInvalid "tenant"

def entryFrom (row : AuditRow) : Except Failure AuditEntry :=
  match storedIdColumn (some row.id), storedIdColumn (some row.eventId), decodeWork row.workContext with
  | .ok entryId, .ok eventId, .ok work => do
    let subject ← subjectFrom row
    let tenant ← tenantColumn row
    AuditEntry.restore
      { id := entryId, eventId, eventType := row.eventType, occurredAt := some row.occurredAt
        recordedAt := some row.recordedAt, work := work.snapshot, subject, tenant }
  | _, _, _ => .error (storedInvalid "entry")

/-- Recording the parts of an entry makes the entry. -/
theorem AuditEntry.record_parts (entry : AuditEntry) :
    AuditEntry.record
      { id := entry.id, eventId := entry.eventId, eventType := entry.eventType
        occurredAt := some entry.occurredAt, recordedAt := some entry.recordedAt, work := entry.work
        subject := entry.subject, tenant := entry.tenant } = .ok entry := by
  simp only [record, entry.validType, entry.validSubject, dite_true]

/-- Every entry can be stored. -/
theorem AuditEntry.row_isSome (entry : AuditEntry) : ∃ row, entry.row = some row := by
  obtain ⟨value, held, decoded⟩ := decodeWork_stored entry.work
  have shape : (object value).isSome = true := by
    unfold decodeWork at decoded
    split at decoded
    · cases decoded
    · rename_i fields same
      rw [same]
      rfl
  have subject : ((entry.subject.map (·.kind)).isNone == (entry.subject.map (·.id)).isNone) = true := by
    cases entry.subject <;> rfl
  rw [AuditEntry.row, AuditEntry.provenance, held, Option.bind_some]
  refine ⟨_, if_pos ?_⟩
  simp only [AuditRow.constraints, List.all_cons, List.all_nil, subject, entry.validType, shape,
    Bool.and_self]

/-- The columns of a stored entry. -/
theorem AuditEntry.row_columns {entry : AuditEntry} {row : AuditRow} (stored : entry.row = some row) :
    row.id = entry.id ∧ row.eventId = entry.eventId ∧ row.eventType = entry.eventType ∧
      row.occurredAt = entry.occurredAt ∧ row.recordedAt = entry.recordedAt ∧
      row.subjectKind = entry.subject.map (·.kind) ∧ row.subjectId = entry.subject.map (·.id) ∧
      row.tenantId = entry.tenant ∧ jsonb (encodeWork entry.provenance) = some row.workContext := by
  obtain ⟨value, held, made⟩ := Option.bind_eq_some_iff.mp stored
  dsimp only at made
  split_ifs at made
  cases made
  exact ⟨rfl, rfl, rfl, rfl, rfl, rfl, rfl, rfl, held⟩

/-- A stored entry reads back as itself. -/
theorem entryFrom_row {entry : AuditEntry} {row : AuditRow} (stored : entry.row = some row) :
    entryFrom row = .ok entry := by
  obtain ⟨id, eventId, type, occurred, recorded, kind, about, tenant, held⟩ :=
    AuditEntry.row_columns stored
  obtain ⟨value, taken, decoded⟩ := decodeWork_stored entry.work
  have same : row.workContext = value := Option.some.inj (held.symm.trans taken)
  have subject : subjectFrom row = .ok entry.subject := by
    rw [subjectFrom, kind, about]
    cases entry.subject with
    | none => rfl
    | some subject =>
      simp only [Option.map_some, Option.isSome_some, Bool.or_self, if_true, storedIdColumn, parse_text]
  have owner : tenantColumn row = .ok entry.tenant := by
    rw [tenantColumn, tenant]
    cases entry.tenant with
    | none => rfl
    | some owner =>
      simp only [storedIdColumn, parse_text]
      rfl
  simp only [entryFrom, storedIdColumn, parse_text, same, decoded, subject, owner, ok_bind,
    AuditEntry.restore, restoreWork_snapshot, id, eventId, type, occurred, recorded]
  exact AuditEntry.record_parts entry

end N2FNest.Audit
