import N2FNest.Documents.Document
import N2FNest.Jobs.InMemory

/-! The in-memory document writer, and what the job and document writers promise
about acknowledged commits. -/

namespace N2FNest.Documents

open Events Jobs Lib Shared

def documentExists : Failure :=
  failure .conflict "document already exists" "document.already_exists"

def documentNotFound : Failure :=
  failure .notFound "document was not found" "document.not_found"

abbrev DocumentStore := Table (fun document : Document => document.id)

theorem DocumentStore.id_of_get {documents : DocumentStore} {id : ID} {document : Document}
    (found : documents.get id = some document) : document.id = id := by
  have named := Table.key_of_get found
  exact named

@[reducible] def documentAggregate : Aggregate Document where
  id document := document.id
  organizationId document := document.organizationId
  version document := document.version
  saved := Document.saved
  saved_id _ := rfl
  saved_version _ := rfl
  existing := documentExists
  missing := documentNotFound
  organizationMismatch :=
    failure .conflict "document organization cannot change" "document.organization_mismatch"
  staleWrite :=
    failure .conflict "document was changed by a concurrent operation" "document.stale_write"
  refuse _ _ := none

variable {Row Work : Type} [DecidableEq Work]

/-- In every run whose failed publications find the store undisturbed, the store
never falls behind an acknowledged commit, and only its successors change it. -/
def NeverLost (aggregate : Aggregate Row) (Work : Type) [DecidableEq Work] : Prop :=
  ∀ (store : Table aggregate.id) (labels : List (WriterLabel Row Work)),
    Along Writer.step Writer.Undisturbed (Writer.initial store) labels →
    let writer := run Writer.step (Writer.initial store) labels
    writer.Durable ∧ ∀ label : WriterLabel Row Work, writer.Undisturbed label →
      ∀ call standing, writer.calls call = some standing → standing.acknowledged = true →
      (writer.step label).store.get (aggregate.id standing.row) ≠
        writer.store.get (aggregate.id standing.row) →
      writer.Succeeds (aggregate.id standing.row)
        (aggregate.version (aggregate.saved standing.row)) label

private theorem neverLost (aggregate : Aggregate Row) : NeverLost aggregate Work := by
  intro store labels along writer
  have stacked : writer.Stacked :=
    along.invariant (fun _ _ stacked undisturbed => stacked.step undisturbed)
      (Writer.stacked_initial store)
  refine ⟨stacked.durable, ?_⟩
  intro label undisturbed call standing found acknowledged changed
  exact stacked.succeeds undisturbed found acknowledged changed

/-- Neither writer loses an acknowledged commit while failed publications find
what they stored. -/
theorem acknowledged_commits_survive :
    NeverLost jobAggregate Work ∧ NeverLost documentAggregate Work :=
  ⟨neverLost jobAggregate, neverLost documentAggregate⟩

/-- A job's start is stored, the job completes and that is acknowledged, and then
the start's event cannot be published. -/
def overwriting : List (ClientLabel Unit) :=
  let event : Envelope Unit := ⟨ID.numbered 9, JobEventType.submitted.name, 0, (), [], none, none⟩
  let input : CreateJobInput :=
    { id := ID.numbered 2
      organizationId := ID.numbered 0
      kind := .string (js "report")
      subject := .null
      maxAttempts := .undefined
      createdAt := some 0 }
  [.create 0 input event (), .published 0 true,
    .read 1 (ID.numbered 2),
    .update 1 (.transition .start (ID.numbered 8) .undefined) (some 1) event (),
    .read 2 (ID.numbered 2),
    .update 2 (.transition .complete (ID.numbered 8) .undefined) (some 2) event (),
    .published 2 true, .published 1 false]

/-- The completion was acknowledged as version 3; the store holds version 1. -/
theorem overwriting_loses_commit :
    let writer := (run JobClients.step JobClients.initial overwriting).writer
    ((writer.calls 2).map fun standing => (standing.acknowledged, standing.row.saved.version)) =
        some (true, 3) ∧
      (writer.store.get (ID.numbered 2)).map (fun job => job.version) = some 1 ∧
      ¬ writer.Durable := by
  refine ⟨by decide, by decide, ?_⟩
  intro durable
  obtain ⟨held, present, bound⟩ := durable 2 _ rfl rfl
  have same := Option.some.inj (present.symm.trans rfl)
  rw [same] at bound
  revert bound
  decide

end N2FNest.Documents
