import N2FNest.Audit.Entries
import N2FNest.Lib.Run
import N2FNest.Lib.Table

/-! `RecordAuditEvent` over PostgreSQL. Any number of executions prepare their
entries, and each writes its own in one transaction; between a preparation and its
write any other execution may take steps. -/

namespace N2FNest.Audit

open Events Lib Shared Json Provenance

def knownFailure (error : Failure) : Option Failure :=
  match error.type with
  | some "audit.event_id_reused" => some (failure .conflict error.message "audit.event_id_reused")
  | some "audit.invalid_subject" => some (failure .invalid error.message "audit.invalid_subject")
  | some "audit.id_generation" => some (failure .unavailable error.message "audit.id_generation")
  | some "audit.persistence_invalid" =>
    some (failure .internal error.message "audit.persistence_invalid")
  | _ => none

/-- A dependency's failure as the application reports it. -/
def dependencyFailure (error : Failure) : Failure :=
  match knownFailure error with
  | some known => known
  | none => match error.kind with
    | .invalid => failure .internal "Audit dependency returned an invalid outcome"
        "audit.dependency_invalid"
    | .notFound => failure .notFound "Audit dependency could not find the required record"
        "audit.dependency_not_found"
    | .conflict => failure .conflict "Audit dependency rejected the operation as a conflict"
        "audit.dependency_conflict"
    | .unauthenticated => failure .unauthenticated "Audit dependency rejected authentication"
        "audit.dependency_unauthenticated"
    | .forbidden => failure .forbidden "Audit dependency rejected authorization"
        "audit.dependency_forbidden"
    | .rateLimited => failure .rateLimited "Audit dependency is rate limited"
        "audit.dependency_rate_limited"
    | .unavailable => failure .unavailable "Audit dependency is unavailable"
        "audit.dependency_unavailable"
    | .timeout => failure .timeout "Audit dependency timed out" "audit.dependency_timeout"
    | .canceled => failure .canceled "Audit dependency operation was canceled"
        "audit.dependency_canceled"
    | .internal => failure .internal "Audit dependency failed internally" "audit.dependency_internal"

def idGenerationFailure (_ : Failure) : Failure :=
  failure .unavailable "Audit ID generation failed" "audit.id_generation"

/-- The entries under their unique event ids. -/
abbrev AuditTable := Table (fun row : AuditRow => row.eventId)

structure AuditWriteResult where
  entry : AuditEntry
  created : Bool

/-- What `map` makes of a duplicate primary key. -/
def duplicateId : Failure := failure .conflict "database operation failed" "database.conflict"

namespace PostgresAuditEntryWriter

/-- `INSERT … ON CONFLICT (event_id) DO NOTHING`, and the existing entry where there is
one. A transaction that fails leaves the table. -/
def record (table : AuditTable) (entry : AuditEntry) (fault : Option Failure) :
    AuditTable × Except Failure AuditWriteResult :=
  match fault, entry.row with
  | some error, _ => (table, .error error)
  | none, none => (table, .error databaseFailed)
  | none, some row =>
    match table.get entry.eventId with
    | some existing => (table, (entryFrom existing).map fun entry => ⟨entry, false⟩)
    | none =>
      if table.rows.any (fun other => other.id = row.id) then (table, .error duplicateId)
      else (table.set row, .ok ⟨entry, true⟩)

end PostgresAuditEntryWriter

/-- One execution: an envelope that was decoded or created, and what the id generator and
the clock answer. -/
structure Execution where
  event : WireEnvelope
  issued : ∃ raw, WireEnvelope.decode raw = .ok event
  id : Except Failure ID
  now : JsDate

structure RecordAuditEventResult where
  auditEntryId : ID
  eventId : ID
  created : Bool
  deriving DecidableEq

namespace Execution

/-- What `execute` does before it writes. -/
def entry (execution : Execution) : Except Failure AuditEntry := do
  let id ← execution.id.mapError idGenerationFailure
  AuditEntry.record
    { id, eventId := execution.event.id, eventType := execution.event.type
      occurredAt := timeClip execution.event.occurredAtMs, recordedAt := execution.now
      work := execution.event.work, subject := execution.event.subject
      tenant := execution.event.tenant }

/-- What `execute` makes of a write. -/
def answer (recorded : Except Failure AuditWriteResult) : Except Failure RecordAuditEventResult :=
  match recorded with
  | .error error => .error (dependencyFailure error)
  | .ok recorded => .ok ⟨recorded.entry.id, recorded.entry.eventId, recorded.created⟩

end Execution

/-- A finished execution, with the fault its transaction met. -/
structure Report where
  execution : Execution
  fault : Option Failure
  result : Except Failure RecordAuditEventResult

structure AuditState where
  table : AuditTable
  started : List (Execution × AuditEntry)
  reports : List Report

def AuditState.initial : AuditState := ⟨.empty, [], []⟩

inductive AuditLabel where
  | start (execution : Execution)
  | write (turn : Nat) (fault : Option Failure)

namespace AuditState

def write (state : AuditState) (turn : Nat) (execution : Execution) (entry : AuditEntry)
    (fault : Option Failure) : AuditState :=
  let recorded := PostgresAuditEntryWriter.record state.table entry fault
  { table := recorded.1
    started := state.started.eraseIdx turn
    reports := state.reports ++ [⟨execution, fault, Execution.answer recorded.2⟩] }

def step (state : AuditState) : AuditLabel → AuditState
  | .start execution =>
    match execution.entry with
    | .error error =>
      { state with reports := state.reports ++ [⟨execution, none, .error error⟩] }
    | .ok entry => { state with started := state.started ++ [(execution, entry)] }
  | .write turn fault =>
    match state.started[turn]? with
    | none => state
    | some (execution, entry) => state.write turn execution entry fault

end AuditState

/-- An entry that says what an envelope says. -/
structure AuditEntry.Projects (entry : AuditEntry) (event : WireEnvelope) : Prop where
  eventId : entry.eventId = event.id
  eventType : entry.eventType = event.type
  occurredAt : entry.occurredAt = event.occurredAtMs
  subject : entry.subject = event.subject
  tenant : entry.tenant = event.tenant
  provenance : entry.provenance = event.work.snapshot

private theorem timeClip_event {time : Nat} (bound : time ≤ 253402300799999) :
    timeClip time = some (time : Int) := if_pos (by omega)

theorem Execution.entry_spec {execution : Execution} {entry : AuditEntry}
    (made : execution.entry = .ok entry) : execution.id = .ok entry.id ∧ entry.Projects execution.event := by
  obtain ⟨raw, decoded⟩ := execution.issued
  obtain ⟨-, bound, -⟩ := decode_checks decoded
  obtain ⟨id, generated, made⟩ := bind_ok made
  rw [AuditEntry.record, timeClip_event bound] at made
  split at made
  · rename_i occurredAt recordedAt first second
    cases first
    split_ifs at made
    cases made
    exact ⟨mapError_ok generated, rfl, rfl, rfl, rfl, rfl, rfl⟩
  · cases made

/-- With an id and a valid time the entry of an envelope is made. -/
theorem Execution.entry_ok {execution : Execution} {id : ID} {now : Int}
    (generated : execution.id = .ok id) (read : execution.now = some now) :
    ∃ entry, execution.entry = .ok entry := by
  obtain ⟨raw, decoded⟩ := execution.issued
  obtain ⟨type, bound, subject⟩ := decode_checks decoded
  unfold Execution.entry
  rw [generated, show (Except.ok id : Except Failure ID).mapError idGenerationFailure = .ok id from rfl,
    ok_bind, AuditEntry.record, timeClip_event bound, read]
  simp only [type, subject, dite_true]
  exact ⟨_, rfl⟩

/-- What a write does. -/
theorem record_cases (table : AuditTable) (entry : AuditEntry) (fault : Option Failure) :
    (∃ error, fault = some error ∧
      PostgresAuditEntryWriter.record table entry fault = (table, .error error)) ∨
    ∃ row, fault = none ∧ entry.row = some row ∧
      ((∃ existing, table.get entry.eventId = some existing ∧
        PostgresAuditEntryWriter.record table entry fault =
          (table, (entryFrom existing).map fun entry => ⟨entry, false⟩)) ∨
      table.get entry.eventId = none ∧ (∃ other ∈ table.rows, other.id = row.id) ∨
      table.get entry.eventId = none ∧ PostgresAuditEntryWriter.record table entry fault =
        (table.set row, .ok ⟨entry, true⟩)) := by
  obtain ⟨row, stored⟩ := entry.row_isSome
  cases fault with
  | some error => exact .inl ⟨error, rfl, rfl⟩
  | none =>
    refine .inr ⟨row, rfl, stored, ?_⟩
    simp only [PostgresAuditEntryWriter.record, stored]
    cases found : table.get entry.eventId with
    | some existing => exact .inl ⟨existing, rfl, rfl⟩
    | none =>
      by_cases taken : (table.rows.any fun other => other.id = row.id) = true
      · obtain ⟨other, member, same⟩ := List.any_eq_true.mp taken
        exact .inr (.inl ⟨rfl, other, member, of_decide_eq_true same⟩)
      · exact .inr (.inr ⟨rfl, by simp only [if_neg taken]⟩)

def Report.created (report : Report) : Bool :=
  match report.result with
  | .ok result => result.created
  | .error _ => false

/-- The event of a report that created its entry. -/
def Report.creation (report : Report) : Option ID :=
  if report.created then some report.execution.event.id else none

def AuditLabel.id? : AuditLabel → Option ID
  | .start execution => execution.id.toOption
  | .write _ _ => none

/-- The audit ids in use, or to be generated. -/
def AuditState.ids (state : AuditState) (labels : List AuditLabel) : List ID :=
  state.table.rows.map (·.id) ++ (state.started.map fun started => started.2.id) ++
    labels.filterMap AuditLabel.id?

structure AuditState.Faithful (state : AuditState) : Prop where
  started : ∀ started ∈ state.started, started.1.entry = .ok started.2
  creations : state.reports.filterMap Report.creation = state.table.rows.map (·.eventId)
  rows : ∀ row ∈ state.table.rows, ∃ report ∈ state.reports, ∃ entry,
    report.result = .ok ⟨row.id, row.eventId, true⟩ ∧ report.execution.entry = .ok entry ∧
      entry.row = some row
  answers : ∀ report ∈ state.reports, ∀ result, report.result = .ok result →
    result.eventId = report.execution.event.id ∧
      ∃ row, state.table.get result.eventId = some row ∧ row.id = result.auditEntryId
  refusals : ∀ report ∈ state.reports, ∀ error, report.result = .error error →
    (∃ problem, report.execution.id = .error problem) ∨ report.execution.now = none ∨
      report.fault.isSome = true

namespace AuditState

theorem initial_faithful : initial.Faithful where
  started := by simp [initial]
  creations := rfl
  rows := by simp [initial, Table.empty]
  answers := by simp [initial]
  refusals := by simp [initial]

variable {state : AuditState}

/-- A report that created nothing leaves the rows as they are. -/
private theorem Faithful.report (faithful : state.Faithful) (started : List (Execution × AuditEntry))
    (fewer : started ⊆ state.started) (report : Report) (plain : report.created = false)
    (answered : ∀ result, report.result = .ok result → result.eventId = report.execution.event.id ∧
      ∃ row, state.table.get result.eventId = some row ∧ row.id = result.auditEntryId)
    (refused : ∀ error, report.result = .error error →
      (∃ problem, report.execution.id = .error problem) ∨ report.execution.now = none ∨
        report.fault.isSome = true) :
    Faithful ⟨state.table, started, state.reports ++ [report]⟩ where
  started := fun pair member => faithful.started pair (fewer member)
  creations := by
    have none : report.creation = none := by rw [Report.creation, plain]; rfl
    rw [List.filterMap_append, faithful.creations, List.filterMap_cons, none, List.filterMap_nil,
      List.append_nil]
  rows := by
    intro row member
    obtain ⟨other, present, found⟩ := faithful.rows row member
    exact ⟨other, List.mem_append_left _ present, found⟩
  answers := by
    simp only [List.forall_mem_append, List.forall_mem_singleton]
    exact ⟨faithful.answers, answered⟩
  refusals := by
    simp only [List.forall_mem_append, List.forall_mem_singleton]
    exact ⟨faithful.refusals, refused⟩

/-- A report that created a row. -/
private theorem Faithful.create (faithful : state.Faithful) (started : List (Execution × AuditEntry))
    (fewer : started ⊆ state.started) {execution : Execution} {entry : AuditEntry} {row : AuditRow}
    (made : execution.entry = .ok entry) (stored : entry.row = some row)
    (missing : state.table.get entry.eventId = none) :
    Faithful ⟨state.table.set row, started,
      state.reports ++ [⟨execution, none, .ok ⟨entry.id, entry.eventId, true⟩⟩]⟩ := by
  obtain ⟨id, eventId, -⟩ := AuditEntry.row_columns stored
  have projected := (Execution.entry_spec made).2
  have fresh : state.table.get row.eventId = none := eventId ▸ missing
  have rows := Table.rows_set_new fresh
  have kept : ∀ wanted found, state.table.get wanted = some found →
      (state.table.set row).get wanted = some found := by
    intro wanted found present
    rw [Table.get_set_other, present]
    intro same
    rw [← same, fresh] at present
    cases present
  refine ⟨fun pair member => faithful.started pair (fewer member), ?_, ?_, ?_, ?_⟩
  · have creation : Report.creation ⟨execution, none, .ok ⟨entry.id, entry.eventId, true⟩⟩ =
        some execution.event.id := rfl
    rw [List.filterMap_append, faithful.creations, List.filterMap_cons, creation, rows, List.map_append,
      List.map_singleton, eventId, projected.eventId]
    rfl
  · intro found member
    rw [rows] at member
    rcases List.mem_append.mp member with early | late
    · obtain ⟨other, present, held⟩ := faithful.rows found early
      exact ⟨other, List.mem_append_left _ present, held⟩
    · rw [List.mem_singleton.mp late]
      refine ⟨_, List.mem_append_right _ List.mem_cons_self, entry, ?_, made, stored⟩
      rw [id, eventId]
  · simp only [List.forall_mem_append, List.forall_mem_singleton]
    refine ⟨fun report member result answered => ?_, fun result answered => ?_⟩
    · obtain ⟨event, other, present, same⟩ := faithful.answers report member result answered
      exact ⟨event, other, kept _ _ present, same⟩
    · cases answered
      exact ⟨projected.eventId, row, eventId ▸ Table.get_set_same _ row, id⟩
  · simp only [List.forall_mem_append, List.forall_mem_singleton]
    refine ⟨faithful.refusals, fun error refused => ?_⟩
    cases refused

/-- A start keeps the state faithful, and takes its audit id from those to come. -/
private theorem start_keeps (faithful : state.Faithful) (execution : Execution) (rest : List AuditLabel)
    (fresh : (state.ids (.start execution :: rest)).Nodup) :
    (state.step (.start execution)).Faithful ∧ ((state.step (.start execution)).ids rest).Nodup := by
  rw [step]
  cases made : execution.entry with
  | error problem =>
    refine ⟨faithful.report state.started (List.Subset.refl _) _ rfl ?_ ?_, ?_⟩
    · intro result answered
      cases answered
    · intro error _
      cases generated : execution.id with
      | error problem => exact .inl ⟨problem, rfl⟩
      | ok id =>
        cases read : execution.now with
        | none => exact .inr (.inl rfl)
        | some now =>
          obtain ⟨entry, other⟩ := Execution.entry_ok generated read
          rw [made] at other
          cases other
    · refine fresh.sublist (List.Sublist.append_left ?_ _)
      exact (List.sublist_cons_self _ _).filterMap _
  | ok entry =>
    have generated := (Execution.entry_spec made).1
    refine ⟨⟨?_, faithful.creations, faithful.rows, faithful.answers, faithful.refusals⟩, ?_⟩
    · simp only [List.forall_mem_append, List.forall_mem_singleton]
      exact ⟨faithful.started, made⟩
    · have taken : AuditLabel.id? (.start execution) = some entry.id := by
        rw [AuditLabel.id?, generated]
        rfl
      rw [ids, List.filterMap_cons, taken] at fresh
      simpa [ids] using fresh

/-- A write keeps the state faithful; the id of a new row is that of its entry. -/
private theorem write_keeps (faithful : state.Faithful) (turn : Nat) (fault : Option Failure)
    (rest : List AuditLabel) (fresh : (state.ids (.write turn fault :: rest)).Nodup) :
    (state.step (.write turn fault)).Faithful ∧
      ((state.step (.write turn fault)).ids rest).Nodup := by
  have fresh : (state.ids rest).Nodup := fresh
  rw [step]
  cases found : state.started[turn]? with
  | none => exact ⟨faithful, fresh⟩
  | some pair =>
    obtain ⟨execution, entry⟩ := pair
    obtain ⟨inside, here⟩ := List.getElem?_eq_some_iff.mp found
    have fewer : state.started.eraseIdx turn ⊆ state.started := (List.eraseIdx_sublist _ _).subset
    have made : execution.entry = .ok entry := by
      have member : (execution, entry) ∈ state.started := here ▸ List.getElem_mem inside
      exact faithful.started _ member
    have less : (ids ⟨state.table, state.started.eraseIdx turn, state.reports⟩ rest).Nodup :=
      fresh.sublist (List.Sublist.append_right (List.Sublist.append_left
        ((List.eraseIdx_sublist _ _).map _) _) _)
    simp only [write]
    rcases record_cases state.table entry fault with ⟨error, faulted, recorded⟩ |
      ⟨row, whole, stored, outcome⟩
    · rw [recorded]
      refine ⟨faithful.report _ fewer _ rfl ?_ ?_, less⟩
      · intro result answered
        cases answered
      · intro _ _
        exact .inr (.inr (by rw [faulted]; rfl))
    · obtain ⟨rowId, rowEvent, -⟩ := AuditEntry.row_columns stored
      rcases outcome with ⟨existing, present, recorded⟩ | ⟨missing, other, member, same⟩ |
        ⟨missing, recorded⟩
      · obtain ⟨report, -, held, -, -, kept⟩ := faithful.rows existing (Table.mem_of_get present)
        obtain ⟨sameId, sameEvent, -⟩ := AuditEntry.row_columns kept
        rw [recorded, entryFrom_row kept]
        refine ⟨faithful.report _ fewer _ rfl ?_ ?_, less⟩
        · intro result answered
          cases answered
          have named : held.eventId = entry.eventId := sameEvent ▸ Table.key_of_get present
          have projected := (Execution.entry_spec made).2
          refine ⟨named.trans projected.eventId, existing, ?_, sameId⟩
          show state.table.get held.eventId = some existing
          rw [named]
          exact present
        · intro error refused
          cases refused
      · exfalso
        have first : other.id ∈ state.table.rows.map (·.id) := List.mem_map_of_mem member
        have second : entry.id ∈ state.started.map fun started => started.2.id := by
          refine List.mem_map.mpr ⟨(execution, entry), ?_, rfl⟩
          exact here ▸ List.getElem_mem inside
        have apart := (List.nodup_append'.mp (List.nodup_append'.mp fresh).1).2.2
        exact apart first (same.trans rowId ▸ second)
      · rw [recorded]
        refine ⟨?_, ?_⟩
        · cases whole
          exact faithful.create _ fewer made stored missing
        · have absent : state.table.get row.eventId = none := rowEvent ▸ missing
          have moved : (entry.id :: (state.started.eraseIdx turn).map fun started => started.2.id).Perm
              (state.started.map fun started => started.2.id) := by
            have perm := (List.getElem_cons_eraseIdx_perm inside).map
              fun started : Execution × AuditEntry => started.2.id
            rwa [List.map_cons, here] at perm
          have same : (ids ⟨state.table.set row, state.started.eraseIdx turn, state.reports⟩ rest).Perm
              (state.ids rest) := by
            simp only [ids, Table.rows_set_new absent, List.map_append, List.map_cons, List.map_nil,
              List.append_assoc, rowId, List.singleton_append]
            exact ((moved.append_right _).append_left _)
          exact same.nodup_iff.mpr fresh

/-- Every run in which no audit id repeats is faithful. -/
theorem run_faithful (labels : List AuditLabel) (faithful : state.Faithful)
    (fresh : (state.ids labels).Nodup) : (run step state labels).Faithful := by
  induction labels generalizing state with
  | nil => exact faithful
  | cons label rest ih =>
    have kept : (state.step label).Faithful ∧ ((state.step label).ids rest).Nodup := by
      cases label with
      | start execution => exact start_keeps faithful execution rest fresh
      | write turn fault => exact write_keeps faithful turn fault rest fresh
    exact ih kept.1 kept.2

/-- Of the executions that recorded an event exactly one created its entry. -/
private theorem Faithful.once (faithful : state.Faithful) {row : AuditRow}
    (member : row ∈ state.table.rows) :
    state.reports.countP (fun report => report.creation == some row.eventId) = 1 := by
  have unique := state.table.unique
  have present : row.eventId ∈ state.table.rows.map (·.eventId) := List.mem_map_of_mem member
  rw [← faithful.creations] at unique present
  rw [← List.count_filterMap]
  exact List.count_eq_one_of_mem unique present

/-- Each row projects the event of the execution that created it. -/
private theorem Faithful.projected (faithful : state.Faithful) {row : AuditRow}
    (member : row ∈ state.table.rows) : ∃ report ∈ state.reports,
      report.creation = some row.eventId ∧ ∃ entry, entryFrom row = .ok entry ∧ entry.id = row.id ∧
        entry.Projects report.execution.event := by
  obtain ⟨report, present, entry, answered, made, stored⟩ := faithful.rows row member
  obtain ⟨id, eventId, -⟩ := AuditEntry.row_columns stored
  have projects := (Execution.entry_spec made).2
  refine ⟨report, present, ?_, entry, entryFrom_row stored, id.symm, projects⟩
  rw [Report.creation, Report.created, answered, eventId, projects.eventId]
  rfl

private theorem Faithful.answered (faithful : state.Faithful) {report : Report}
    (member : report ∈ state.reports) {result : RecordAuditEventResult}
    (known : report.result = .ok result) :
    result.eventId = report.execution.event.id ∧
      ∃ row, state.table.get report.execution.event.id = some row ∧ result.auditEntryId = row.id := by
  obtain ⟨event, row, present, same⟩ := faithful.answers report member result known
  exact ⟨event, row, event ▸ present, same.symm⟩

/-- A recorded event has its row. -/
private theorem Faithful.recorded (faithful : state.Faithful) {report : Report}
    (member : report ∈ state.reports) (recorded : report.result.toOption.isSome = true) :
    ∃ row, state.table.get report.execution.event.id = some row := by
  cases known : report.result with
  | error problem =>
    rw [known] at recorded
    cases recorded
  | ok result =>
    obtain ⟨-, row, present, -⟩ := faithful.answered member known
    exact ⟨row, present⟩

end AuditState

/-- The audit log is a once-only projection of the events that were recorded. -/
theorem audit_projects_events (labels : List AuditLabel)
    (fresh : (labels.filterMap AuditLabel.id?).Nodup) :
    let state := run AuditState.step .initial labels
    (state.table.rows.map (·.eventId)).Nodup ∧
    (∀ id, id ∈ state.table.rows.map (·.eventId) ↔
      ∃ report ∈ state.reports, report.result.toOption.isSome = true ∧ report.execution.event.id = id) ∧
    (∀ report ∈ state.reports, ∀ result, report.result = .ok result →
      state.reports.countP (fun other => other.creation == some report.execution.event.id) = 1 ∧
      result.eventId = report.execution.event.id ∧
      ∃ row, state.table.get report.execution.event.id = some row ∧ result.auditEntryId = row.id) ∧
    (∀ row ∈ state.table.rows, ∃ report ∈ state.reports, report.creation = some row.eventId ∧
      ∃ entry, entryFrom row = .ok entry ∧ entry.id = row.id ∧ entry.Projects report.execution.event) ∧
    (∀ report ∈ state.reports, report.result.toOption.isSome = true →
      (∀ other ∈ state.reports, other.execution.event.id = report.execution.event.id →
        other.execution.event = report.execution.event) →
      ∃ row entry, state.table.get report.execution.event.id = some row ∧
        entryFrom row = .ok entry ∧ entry.Projects report.execution.event) ∧
    (∀ report ∈ state.reports, ∀ error, report.result = .error error →
      (∃ problem, report.execution.id = .error problem) ∨ report.execution.now = none ∨
        report.fault.isSome = true) ∧
    ∀ work : WorkContext, ∃ value, jsonb (encodeWork work.snapshot) = some value ∧
      decodeWork value = .ok work := by
  intro state
  have faithful : state.Faithful :=
    AuditState.run_faithful labels AuditState.initial_faithful (by simpa [AuditState.ids,
      AuditState.initial, Table.empty] using fresh)
  refine ⟨state.table.unique, ?_, ?_, fun row member => faithful.projected member, ?_,
    faithful.refusals, decodeWork_stored⟩
  · intro id
    constructor
    · intro member
      obtain ⟨row, present, rfl⟩ := List.mem_map.mp member
      obtain ⟨report, recorded, entry, known, made, stored⟩ := faithful.rows row present
      obtain ⟨-, eventId, -⟩ := AuditEntry.row_columns stored
      refine ⟨report, recorded, by rw [known]; rfl, ?_⟩
      exact (eventId.trans (Execution.entry_spec made).2.eventId).symm
    · rintro ⟨report, member, recorded, rfl⟩
      obtain ⟨row, present⟩ := faithful.recorded member recorded
      rw [← Table.key_of_get present]
      exact List.mem_map_of_mem (Table.mem_of_get present)
  · intro report member result known
    obtain ⟨event, row, present, same⟩ := faithful.answered member known
    refine ⟨?_, event, row, present, same⟩
    rw [← Table.key_of_get present]
    exact faithful.once (Table.mem_of_get present)
  · intro report member recorded identified
    obtain ⟨row, present⟩ := faithful.recorded member recorded
    obtain ⟨creator, made, creation, entry, reads, -, projects⟩ :=
      faithful.projected (Table.mem_of_get present)
    have event : creator.execution.event = report.execution.event := by
      apply identified creator made
      rw [Report.creation, Option.ite_none_right_eq_some] at creation
      rw [← Table.key_of_get present]
      exact Option.some.inj creation.2
    exact ⟨row, entry, present, reads, event ▸ projects⟩

private def loginWork : WorkContext where
  snapshot :=
    { workId := ID.numbered 1, correlationId := ID.numbered 1, correlationSource := .local
      causation := none, origin := some .request, operation := ⟨js "session.open", by decide⟩
      attribution := ⟨some ⟨.user, some (js "ada"), by decide⟩, none, some (js "acme"), by decide⟩
      depth := some 0, replay := none }
  valid := rfl

private def loginFields : JsObject :=
  createFields (ID.numbered 2).text (js "session.opened.v1") (.ofNat 1000) loginWork (.object []) none none

theorem repeated_event_one_row : ∃ event issued,
    let first : Execution := ⟨event, issued, .ok (ID.numbered 3), some 2000⟩
    let second : Execution := ⟨event, issued, .ok (ID.numbered 4), some 3000⟩
    let state := run AuditState.step .initial
      [.start first, .start second, .write 1 none, .write 0 none]
    (state.table.rows.map (·.eventId)).Nodup ∧
    ∀ report ∈ state.reports, ∀ result, report.result = .ok result →
      state.reports.countP (fun other => other.creation == some report.execution.event.id) = 1 := by
  have size : (bytesOf loginFields).length ≤ 65536 := by decide +kernel
  have decodes : (decodeFields (cleanFields loginFields)).toOption.isSome = true := by decide +kernel
  obtain ⟨event, made⟩ := create_of_decodes size decodes
  have issued : ∃ raw, WireEnvelope.decode raw = .ok event := ⟨_, made⟩
  obtain ⟨unique, -, once, -⟩ := audit_projects_events
    [.start ⟨event, issued, .ok (ID.numbered 3), some 2000⟩,
      .start ⟨event, issued, .ok (ID.numbered 4), some 3000⟩, .write 1 none, .write 0 none] (by
      show [ID.numbered 3, ID.numbered 4].Nodup
      decide)
  exact ⟨event, issued, unique, fun report member result known => (once report member result known).1⟩

end N2FNest.Audit
