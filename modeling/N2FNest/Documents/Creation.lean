import N2FNest.Documents.InMemory
import N2FNest.Documents.Storable
import N2FNest.Events.Admission
import N2FNest.Events.InMemoryInbox

/-! Whether PostgreSQL can store what `CreateDocument` creates. The row takes any text
without U+0000; the envelope of the event is checked as `jsonb`, which takes no lone
surrogate either. -/

namespace N2FNest.Documents

open Events Lib Provenance Shared Json

/-- The payload of `document.created.v1`. -/
def createdPayload (document : Document) (identityId : ID) : JsObject :=
  [(js "organization_id", .string document.organizationId.text),
    (js "document_id", .string document.id.text), (js "identity_id", .string identityId.text),
    (js "name", .string document.name), (js "storage_key", orNull .string document.storageKey),
    (js "status", .string (js document.status.text))]

/-- The event `CreateDocument` builds for a new document. -/
def createdEvent (eventId identityId : ID) (work : WorkContext) (document : Document) :
    Except Failure WireEnvelope :=
  WireEnvelope.create eventId.text (js "document.created.v1") (.ofInt document.createdAt) work
    (.object (createdPayload document identityId)) (some (js "document", document.id.text))
    (some document.organizationId.text)

abbrev DocumentRows := Table (fun row : DocumentColumns => row.id)

/-- `PostgresDocumentWriter.commit` of a new document. A parameter that is no text, or a
CHECK that fails, aborts before the primary key is looked at. -/
def PostgresDocumentWriter.create (rows : DocumentRows) (outbox : OutboxRows (List UInt8))
    (document : Document) (event : WireEnvelope) (work : WorkContext) (now : Int) :
    Except Failure (DocumentRows × OutboxRows (List UInt8)) := do
  event.assertEventWork work
  match document.inserted with
  | none => throw databaseFailed
  | some row =>
    if row.constraints.all (·.2) then
      if (rows.get row.id).isSome then throw documentExists
      else do
        let queued ← enqueue wireCodec.toCodec outbox event.enveloped now
        return (rows.set row, queued)
    else throw databaseFailed

/-- `InMemoryDocumentWriter.commit` of a new document, with its event published in time. -/
def InMemoryDocumentWriter.create (store : DocumentStore) (inbox : InMemoryInbox Carried)
    (consumers : List JsString) (clock : JsString → JsNumber) (document : Document)
    (event : WireEnvelope) (work : WorkContext) :
    Except Failure (DocumentStore × InMemoryInbox Carried) := do
  let _ ← documentAggregate.check store
    ⟨.create, document, event.held (event.payload.toOption.getD []), work⟩
  match inbox.accept wireCodec.bytes event.enveloped consumers clock with
  | (.ok (), accepted) => return (store.set document.saved, accepted)
  | (.error error, _) => throw error

/-- The schema takes the row and the envelope of a creation, and the PostgreSQL writer
refuses it with a database error in no state where the writer in memory takes it. -/
structure Stored (document : Document) (event : WireEnvelope) (work : WorkContext) : Prop where
  row : ∃ row, document.inserted = some row ∧ ∀ constraint ∈ row.constraints, constraint.2 = true
  envelope : admittedText event.raw = true
  writer : ∀ store inbox consumers clock rows outbox now,
    (InMemoryDocumentWriter.create store inbox consumers clock document event work).isOk = true →
      PostgresDocumentWriter.create rows outbox document event work now ≠ .error databaseFailed

private theorem createdPayload_storable (document : Document) (identityId : ID) :
    storable (keep (.object (createdPayload document identityId))) = true ↔
      document.name.isClean = true ∧ ∀ key, document.storageKey = some key → key.isClean = true := by
  have names : (createdPayload document identityId).map Prod.fst = [js "organization_id",
    js "document_id", js "identity_id", js "name", js "storage_key", js "status"] := rfl
  have unique : ((createdPayload document identityId).map Prod.fst).Nodup := by
    rw [names]
    decide
  have letters : ∀ name ∈ (createdPayload document identityId).map Prod.fst,
      (name.units.any fun unit => !Decimal.isDigit unit) = true ∧ storableText name = true := by
    rw [names]
    decide
  rw [storable_object unique (fun name member => index?_eq_none (letters name member).1)
    fun name member => (letters name member).2]
  have status : storable (keep (.string (js document.status.text))) = true := by
    cases document.status <;> decide
  have name : storable (keep (.string document.name)) = document.name.isClean :=
    storableText_eq_isClean document.name
  simp only [createdPayload, List.forall_mem_cons, Audit.storable_id, status, name, true_and]
  refine and_congr_right fun _ => ?_
  cases document.storageKey with
  | none => simp [orNull, keep, isUndefined, clean, storable]
  | some key =>
    have kept : storable (keep (.string key)) = key.isClean := storableText_eq_isClean key
    simp [orNull, kept]

/-- What `create` makes of its input. -/
private theorem create_inv {input : CreateDocumentInput} {document : Document}
    (created : Document.create input = .ok document) : document.version = UNSAVED ∧
      (∃ text, input.name = .string text ∧ document.name = text.trim) ∧
      (∀ key, document.storageKey = some key → ∃ text, input.storageKey = .string text ∧ key = text.trim) ∧
      ∀ text, input.storageKey = .string text → document.storageKey = some text.trim := by
  obtain ⟨⟨documentName, nameNormal⟩, named, body⟩ := bind_ok created
  obtain ⟨⟨documentKey, keyNormal⟩, keyed, body⟩ := bind_ok body
  obtain ⟨text, given, trimmed⟩ := name_inv named
  cases time : input.createdAt with
  | none => simp [time] at body
  | some createdAt =>
    simp only [time, pure_eq_ok] at body
    subst body
    refine ⟨rfl, ⟨text, given, trimmed⟩, fun key present => storageKey_inv keyed present, ?_⟩
    intro key same
    rw [same, storageKey] at keyed
    split at keyed
    · cases keyed
      rfl
    · cases keyed

/-- Trimming leaves a text as clean as it was. -/
private theorem clean_iff {input : CreateDocumentInput} {document : Document}
    (created : Document.create input = .ok document) :
    (document.name.isClean = true ∧ ∀ key, document.storageKey = some key → key.isClean = true) ↔
      input.Clean := by
  obtain ⟨-, ⟨name, given, trimmed⟩, keyed, trims⟩ := create_inv created
  constructor
  · rintro ⟨named, kept⟩
    constructor
    · intro text same
      rw [given] at same
      cases same
      rw [trimmed] at named
      exact JsString.isClean_trim_iff.mp named
    · intro text same
      exact JsString.isClean_trim_iff.mp (kept _ (trims text same))
  · rintro ⟨named, kept⟩
    constructor
    · rw [trimmed]
      exact JsString.isClean_trim (named name given)
    · intro key present
      obtain ⟨text, same, trimmed⟩ := keyed key present
      rw [trimmed]
      exact JsString.isClean_trim (kept text same)

/-- An envelope that is admitted is queued, or its id is reused. -/
private theorem enqueue_admitted {outbox : OutboxRows (List UInt8)} {event : WireEnvelope} {now : Int}
    (admitted : admittedText event.raw = true) :
    enqueue wireCodec.toCodec outbox event.enveloped now ≠ .error databaseFailed := by
  have distinct : conflict "id_reused" ≠ databaseFailed := by decide
  have taken : wireCodec.toCodec.admitted (wireCodec.toCodec.bytes event.enveloped) = true := admitted
  unfold enqueue
  rw [if_pos taken]
  split
  · simp
  · split
    · simp
    · exact fun same => distinct (Except.error.inj same)

/-- A creation is stored exactly where the name and the storage key it is given hold
neither U+0000 nor a lone surrogate. -/
theorem created_document_stored_iff {input : CreateDocumentInput} {document : Document}
    {eventId identityId : ID} {work : WorkContext} {event : WireEnvelope}
    (created : Document.create input = .ok document)
    (built : createdEvent eventId identityId work document = .ok event) :
    Stored document event work ↔ input.Clean := by
  have admitted : admittedText event.raw = true ↔ input.Clean :=
    (create_admitted_iff built).trans ((createdPayload_storable document identityId).trans
      (clean_iff created))
  constructor
  · exact fun stored => admitted.mp stored.envelope
  · intro clean
    have storable := Document.create_storable clean created
    have inserted := storable.inserted
    have checks : ∀ constraint ∈ ({ document.columns with
        version := FIRST, processingRun := none, processingAttempt := 0 } : DocumentColumns).constraints,
        constraint.2 = true := by
      apply DocumentColumns.constraints_of_valid
      · exact { document.valid with attempt := Nat.zero_le _ }
      · exact Nat.le_refl 1
    refine ⟨⟨_, inserted, checks⟩, admitted.mpr clean, ?_⟩
    intro store inbox consumers clock rows outbox now _ failed
    have mismatch : provenanceMismatch ≠ databaseFailed := by decide
    have existing : documentExists ≠ databaseFailed := by decide
    have accepted := List.all_eq_true.mpr checks
    unfold PostgresDocumentWriter.create at failed
    rw [inserted] at failed
    cases checked : event.assertEventWork work with
    | error problem =>
      have refused : problem = provenanceMismatch := by
        unfold WireEnvelope.assertEventWork at checked
        split at checked
        · cases checked
        · exact (Except.error.inj checked).symm
      rw [checked] at failed
      exact mismatch (refused ▸ Except.error.inj failed)
    | ok _ =>
      rw [checked] at failed
      simp only [ok_bind, accepted, if_true] at failed
      split at failed
      · exact existing (Except.error.inj failed)
      · cases queued : enqueue wireCodec.toCodec outbox event.enveloped now with
        | error problem =>
          rw [queued] at failed
          cases failed
          exact enqueue_admitted (admitted.mpr clean) queued
        | ok next =>
          rw [queued] at failed
          cases failed

private def creating : WorkContext where
  snapshot :=
    { workId := ID.numbered 1, correlationId := ID.numbered 1, correlationSource := .local
      causation := none, origin := some .request, operation := ⟨js "document.create", rfl⟩
      attribution := ⟨some ⟨.user, some (js "kit"), rfl⟩, none, none, rfl⟩
      depth := some 0, replay := none }
  valid := rfl

/-- A name with U+0000 in it. -/
def nullDocument : CreateDocumentInput := { freshDocument with name := .string ⟨[0x61, 0, 0x62]⟩ }

private def eventFields (document : Document) : JsObject :=
  createFields (ID.numbered 3).text (js "document.created.v1") (.ofInt document.createdAt) creating
    (.object (createdPayload document (ID.numbered 4))) (some (js "document", document.id.text))
    (some document.organizationId.text)

private theorem created_event (input : CreateDocumentInput)
    (checks : (Document.create input).toOption.any (fun document =>
      (bytesOf (eventFields document)).length ≤ 65536 &&
        (decodeFields (cleanFields (eventFields document))).toOption.isSome) = true) :
    ∃ document event, Document.create input = .ok document ∧
      createdEvent (ID.numbered 3) (ID.numbered 4) creating document = .ok event := by
  cases created : Document.create input with
  | error problem =>
    rw [created] at checks
    cases checks
  | ok document =>
    have read : (Except.ok document : Except DocumentFailure Document).toOption = some document := rfl
    rw [created, read, Option.any_some, Bool.and_eq_true] at checks
    obtain ⟨size, decodes⟩ := checks
    obtain ⟨event, built⟩ := create_of_decodes (of_decide_eq_true size) decodes
    exact ⟨document, event, rfl, built⟩

/-- An empty store takes every creation. -/
private theorem memory_takes {document : Document} {eventId identityId : ID} {work : WorkContext}
    {event : WireEnvelope} (built : createdEvent eventId identityId work document = .ok event) :
    (InMemoryDocumentWriter.create Table.empty .initial [] (fun _ => .finite 0) document event
      work).isOk = true := by
  have worked : event.work = work := create_work built
  have assured : Events.assertEventWork (event.held (event.payload.toOption.getD [])) work = .ok () :=
    if_pos worked
  unfold InMemoryDocumentWriter.create Aggregate.check
  dsimp only
  rw [assured]
  rfl

/-- The store in memory takes a name with U+0000, PostgreSQL fails on it. -/
theorem null_name_refused : ∃ document event,
    Document.create nullDocument = .ok document ∧
    createdEvent (ID.numbered 3) (ID.numbered 4) creating document = .ok event ∧
    (InMemoryDocumentWriter.create Table.empty .initial [] (fun _ => .finite 0) document event
      creating).isOk = true ∧
    PostgresDocumentWriter.create Table.empty Table.empty document event creating 0 =
      .error databaseFailed ∧
    ¬ Stored document event creating := by
  obtain ⟨document, event, created, built⟩ := created_event nullDocument (by decide +kernel)
  have refused : document.inserted = none := by
    cases created
    rfl
  have worked : event.work = creating := create_work built
  have assured : event.assertEventWork creating = .ok () := by
    unfold WireEnvelope.assertEventWork
    rw [worked, if_pos rfl]
  refine ⟨document, event, created, built, memory_takes built, ?_, fun stored => ?_⟩
  · unfold PostgresDocumentWriter.create
    rw [assured, refused]
    rfl
  · obtain ⟨row, inserted, -⟩ := stored.row
    rw [refused] at inserted
    cases inserted

theorem plain_name_stored : ∃ document event,
    Document.create freshDocument = .ok document ∧
    createdEvent (ID.numbered 3) (ID.numbered 4) creating document = .ok event ∧
    Stored document event creating := by
  obtain ⟨document, event, created, built⟩ := created_event freshDocument (by decide +kernel)
  exact ⟨document, event, created, built,
    (created_document_stored_iff created built).mpr freshDocument_clean⟩

end N2FNest.Documents
