import N2FNest.Documents.Outcome
import N2FNest.Lib.Run
import N2FNest.Shared.Text

/-! Every reachable document can be stored, whatever order its outcomes arrive in.
An INSERT takes a document as `create` made it: it leaves the processing run, the
attempt and the version to their defaults. An UPDATE writes them all. -/

namespace N2FNest.Documents

open Lib Shared

/-- The text of the `status` column. -/
def DocumentStatus.text : DocumentStatus → String
  | .active => "active"
  | .processing => "processing"
  | .processed => "processed"
  | .processingFailed => "processing_failed"
  | .archived => "archived"

/-- The columns of `n2f_document_documents`. -/
structure DocumentColumns where
  id : ID
  organizationId : ID
  name : JsString
  storageKey : Option JsString
  status : DocumentStatus
  createdAt : Int
  updatedAt : Int
  archivedAt : Option Int
  processingFailureCode : Option JsString
  version : Nat
  processingRun : Option ID
  processingAttempt : Nat
  deriving DecidableEq

namespace DocumentColumns

/-- The CHECK constraints of the table under their names, as the baseline migration
writes them. A comparison with a NULL is only reached where the branch beside it
decides. -/
def constraints (row : DocumentColumns) : List (String × Bool) :=
  let status := row.status.text
  [("n2f_document_documents_name_check", 0 < row.name.charLength && row.name.charLength ≤ 200),
    ("n2f_document_documents_processing_attempt_check", 0 ≤ row.processingAttempt),
    ("n2f_document_documents_processing_failure_code_check",
      row.processingFailureCode.all (·.isToken 127)),
    ("n2f_document_documents_processing_state_check",
      ((["active", "processing", "processed"].contains status) && row.archivedAt.isNone &&
        row.processingFailureCode.isNone) ||
      (status == "processing_failed" && row.archivedAt.isNone && row.processingFailureCode.isSome) ||
      (status == "archived" && row.archivedAt.isSome)),
    ("n2f_document_documents_status_check",
      ["active", "processing", "processed", "processing_failed", "archived"].contains status),
    ("n2f_document_documents_storage_key_check",
      row.storageKey.all fun key => 0 < key.charLength && key.charLength ≤ 512),
    ("n2f_document_documents_updated_at_check", row.createdAt ≤ row.updatedAt),
    ("n2f_document_documents_version_check", 1 ≤ row.version)]

/-- `storedId` of the run, where there is one. -/
def storedRun : Option ID → Except Failure (Option ID)
  | none => .ok none
  | some run => (parse (.string run.text)).map some

/-- The reader's `restore`. -/
def restore (row : DocumentColumns) : Except Failure Document := do
  let documentId ← parse (.string row.id.text)
  let organizationId ← parse (.string row.organizationId.text)
  let processingRun ← storedRun row.processingRun
  (Document.restore {
    id := documentId
    organizationId := organizationId
    name := .string row.name
    storageKey := row.storageKey.elim .null .string
    status := row.status
    processingFailureCode := row.processingFailureCode.elim .null .string
    processingRun := processingRun
    processingAttempt := .ofNat row.processingAttempt
    createdAt := some row.createdAt
    updatedAt := some row.updatedAt
    archivedAt := row.archivedAt.map some
    version := row.version }).mapError DocumentFailure.toFailure

/-- The columns read as a document's state. -/
def state (row : DocumentColumns) : DocumentState where
  id := row.id
  organizationId := row.organizationId
  name := row.name
  storageKey := row.storageKey
  status := row.status
  processingFailureCode := row.processingFailureCode
  processingRun := row.processingRun
  processingAttempt := row.processingAttempt
  createdAt := row.createdAt
  updatedAt := row.updatedAt
  archivedAt := row.archivedAt
  version := row.version

private theorem normal_charLength {most : Nat} {text : JsString} (normal : Normal most text) :
    0 < text.charLength ∧ text.charLength ≤ most := by
  obtain ⟨-, least, bound⟩ := normal
  exact ⟨JsString.charLength_pos least, Nat.le_trans text.charLength_le bound⟩

/-- The domain's own rules imply the table's checks: a text has no more code points
than UTF-16 units, and at least one where it has a unit. -/
theorem constraints_of_valid {row : DocumentColumns} (valid : row.state.Valid)
    (version : 1 ≤ row.version) : ∀ constraint ∈ row.constraints, constraint.2 = true := by
  have lifecycle := valid.lifecycle
  simp only [constraints, List.forall_mem_cons, Bool.and_eq_true, Bool.or_eq_true,
    decide_eq_true_eq, beq_iff_eq]
  refine ⟨normal_charLength valid.name, Nat.zero_le _, ?_, ?_, ?_, ?_, valid.time, version, by simp⟩
  · cases code : row.processingFailureCode with
    | none => rfl
    | some reason => exact valid.failureCode reason code
  · cases status : row.status <;>
      simp only [DocumentState.Lifecycle, state, status, ne_eq] at lifecycle <;>
      simp [DocumentStatus.text, lifecycle, Option.isSome_iff_ne_none]
  · cases row.status <;> simp [DocumentStatus.text]
  · cases key : row.storageKey with
    | none => rfl
    | some text =>
      have bounds := normal_charLength (valid.storageKey text key)
      simp [bounds]

end DocumentColumns

namespace Document

/-- The columns an INSERT leaves. -/
def inserted (document : Document) : Option DocumentColumns := do
  let name ← document.name.asColumn
  let storageKey ← match document.storageKey with
    | none => some none
    | some key => key.asColumn.map some
  return {
    id := document.id
    organizationId := document.organizationId
    name := name
    storageKey := storageKey
    status := document.status
    createdAt := document.createdAt
    updatedAt := document.updatedAt
    archivedAt := document.archivedAt
    processingFailureCode := document.processingFailureCode
    version := FIRST
    processingRun := none
    processingAttempt := 0 }

/-- The columns an UPDATE leaves in the row at this version. The creation time in
the row is the document's, which nothing changes. -/
def updated (document : Document) : Option DocumentColumns := do
  let row ← document.inserted
  if document.version + 1 ≤ 2147483647 ∧ document.processingAttempt ≤ 2147483647 then
    return { row with
      version := document.version + 1
      processingRun := document.processingRun
      processingAttempt := document.processingAttempt }
  else none

/-- The row a successful write of a document leaves: a document no storage has
written goes in by INSERT, any other by UPDATE. -/
def written (document : Document) : Option DocumentColumns :=
  if document.version = UNSAVED then document.inserted else document.updated

/-- The document that storage holds after a write. -/
def stored (document : Document) : Document :=
  if document.version = UNSAVED then
    { document.saved with
      processingRun := none
      processingAttempt := 0
      valid := { document.saved.valid with attempt := Nat.zero_le _ } }
  else document.saved

/-- A document column by column. -/
def columns (document : Document) : DocumentColumns where
  id := document.id
  organizationId := document.organizationId
  name := document.name
  storageKey := document.storageKey
  status := document.status
  createdAt := document.createdAt
  updatedAt := document.updatedAt
  archivedAt := document.archivedAt
  processingFailureCode := document.processingFailureCode
  version := document.version
  processingRun := document.processingRun
  processingAttempt := document.processingAttempt

private theorem name_normal {text : JsString} (normal : Normal 200 text) :
    Documents.name (.string text) = .ok ⟨text, normal⟩ := by
  obtain ⟨trimmed, bounds⟩ := normal
  simp only [Documents.name, trimmed]
  exact dif_pos bounds

private theorem storageKey_normal (found : Option JsString)
    (normal : ∀ key, found = some key → Normal 512 key) :
    Documents.storageKey (found.elim .null .string) = .ok ⟨found, normal⟩ := by
  cases found with
  | none => rfl
  | some key =>
    obtain ⟨trimmed, bounds⟩ := normal key rfl
    simp only [Option.elim_some, Documents.storageKey, trimmed]
    exact dif_pos bounds

private theorem failureCode_token (found : Option JsString)
    (valid : ∀ code, found = some code → code.isToken 127 = true) :
    Documents.processingFailureCode (found.elim .null .string) = .ok ⟨found, valid⟩ := by
  cases found with
  | none => rfl
  | some code =>
    simp only [Option.elim_some, Documents.processingFailureCode]
    exact dif_pos (valid code rfl)

private theorem optionalDate_some (time : Option Int) : optionalDate (time.map some) = .ok time := by
  cases time <;> rfl

/-- `restore` gives back a document it is handed field by field. -/
private theorem restore_fields (document : Document)
    (version : isStoredVersion document.version = true) :
    restore {
      id := document.id
      organizationId := document.organizationId
      name := .string document.name
      storageKey := document.storageKey.elim .null .string
      status := document.status
      processingFailureCode := document.processingFailureCode.elim .null .string
      processingRun := document.processingRun
      processingAttempt := .ofNat document.processingAttempt
      createdAt := some document.createdAt
      updatedAt := some document.updatedAt
      archivedAt := document.archivedAt.map some
      version := document.version } = .ok document := by
  have name := name_normal document.valid.name
  have key := storageKey_normal document.storageKey document.valid.storageKey
  have code := failureCode_token document.processingFailureCode document.valid.failureCode
  have safe := JsNumber.safeNat?_ofNat document.valid.attempt
  simp only [restore, name, key, code, optionalDate_some, ok_bind]
  split
  · rename_i createdAt updatedAt attempt created since read
    cases created
    cases since
    cases safe.symm.trans read
    have lifecycle := document.valid.lifecycle
    rw [if_pos version, dif_pos document.valid.time]
    exact dif_pos lifecycle
  · rename_i impossible
    exact absurd safe (impossible _ _ _ rfl rfl)

/-- Every document comes back from its columns as it was. -/
theorem restore_columns (document : Document) (version : isStoredVersion document.version = true) :
    document.columns.restore = .ok document := by
  have run : DocumentColumns.storedRun document.processingRun = .ok document.processingRun := by
    cases document.processingRun with
    | none => rfl
    | some run =>
      rw [DocumentColumns.storedRun, parse_text]
      rfl
  simp only [DocumentColumns.restore, columns, parse_text, ok_bind, run]
  rw [restore_fields document version]
  rfl

/-- What a document needs for its columns to take it. -/
structure Storable (document : Document) : Prop where
  name : document.name.isClean = true
  storageKey : ∀ key, document.storageKey = some key → key.isClean = true
  attempt : document.processingAttempt ≤ 2147483647
  idle : document.processingRun = none → document.processingAttempt = 0

theorem Storable.inserted {document : Document} (storable : document.Storable) :
    document.inserted = some { document.columns with
      version := FIRST, processingRun := none, processingAttempt := 0 } := by
  have name := JsString.asColumn_of_isClean storable.name
  unfold Document.inserted
  rw [name]
  cases key : document.storageKey with
  | none => simp [columns, key]
  | some text =>
    have kept := JsString.asColumn_of_isClean (storable.storageKey text key)
    simp [columns, key, kept]

/-- A write leaves the columns of the stored document, unless the version is the last
that the column can hold. -/
theorem Storable.written {document : Document} (storable : document.Storable) :
    document.written = some document.stored.columns ∧ isStoredVersion document.stored.version = true ∨
      document.written = none ∧ 2147483647 ≤ document.version := by
  unfold Document.written stored
  by_cases unsaved : document.version = UNSAVED
  · left
    rw [if_pos unsaved, if_pos unsaved, storable.inserted]
    have first : document.saved.version = FIRST := by
      show document.version + 1 = FIRST
      rw [unsaved]
      rfl
    refine ⟨?_, ?_⟩
    · rw [← first]
      rfl
    · show isStoredVersion document.saved.version = true
      rw [first]
      rfl
  · rw [if_neg unsaved, if_neg unsaved]
    unfold updated
    rw [storable.inserted, Option.bind_eq_bind, Option.bind_some]
    by_cases fits : document.version + 1 ≤ 2147483647
    · left
      rw [if_pos ⟨fits, storable.attempt⟩]
      refine ⟨rfl, ?_⟩
      show (decide (1 ≤ document.version + 1) && decide (document.version + 1 ≤ 9007199254740991)) = true
      simp only [Bool.and_eq_true, decide_eq_true_eq]
      omega
    · right
      rw [if_neg (fun both => fits both.1)]
      exact ⟨rfl, by omega⟩

/-- An INSERT loses nothing of a document without a processing run. -/
theorem Storable.stored_eq {document : Document} (storable : document.Storable)
    (recorded : document.version ≠ UNSAVED ∨ document.processingRun = none) :
    document.stored = document.saved := by
  unfold stored
  split
  · rename_i unsaved
    rcases recorded with saved | idle
    · exact absurd unsaved saved
    · have attempt := storable.idle idle
      obtain ⟨state, valid⟩ := document
      obtain ⟨id, organizationId, name, storageKey, status, code, run, count, created, updated, archived,
        version⟩ := state
      have idle : run = none := idle
      have attempt : count = 0 := attempt
      subst idle
      subst attempt
      rfl
  · rfl

end Document

/-- What can happen to a document between two looks at it. -/
inductive DocumentLabel where
  | archive (time : JsDate)
  | beginProcessing (time : JsDate) (run : ID)
  | applyProcessingOutcome (time : JsDate) (outcome : ProcessingOutcome)
  | saved
  | reload

/-- An outcome's attempt, where it has one, fits the `integer` column. -/
def DocumentLabel.Fits : DocumentLabel → Prop
  | .applyProcessingOutcome _ outcome =>
    ∀ attempt, outcome.attempt.safeNat? = some attempt → attempt ≤ 2147483647
  | _ => True

namespace Document

/-- A call that fails leaves the document; a write that is refused leaves it too. -/
def step (document : Document) : DocumentLabel → Document
  | .archive time => (document.archive time).toOption.getD document
  | .beginProcessing time run => (document.beginProcessing time run).toOption.getD document
  | .applyProcessingOutcome time outcome =>
    (document.applyProcessingOutcome time outcome).toOption.getD document
  | .saved => document.saved
  | .reload =>
    match document.written with
    | some row => row.restore.toOption.getD document
    | none => document

theorem archive_inv {document next : Document} {time : JsDate} (done : document.archive time = .ok next) :
    ∃ at', time = some at' ∧ document.updatedAt ≤ at' ∧ document.status ≠ .archived ∧
      next.toDocumentState = { document.toDocumentState with
        status := .archived, updatedAt := at', archivedAt := some at' } := by
  cases time with
  | none => cases done
  | some moment =>
    simp only [archive] at done
    split at done
    · rename_i later
      split at done
      · cases done
      · rename_i live
        cases done
        exact ⟨moment, rfl, later, live, rfl⟩
    · cases done

/-- An outcome that is applied changes nothing, or is fresh and settles the document. -/
theorem apply_inv {document next : Document} {time : JsDate} {outcome : ProcessingOutcome}
    (done : document.applyProcessingOutcome time outcome = .ok next) :
    next = document ∨ ∃ moment attempt status code, time = some moment ∧
      outcome.attempt.safeNat? = some attempt ∧ ¬ document.isStale outcome.run attempt = true ∧
      status ≠ .archived ∧ document.Settles outcome.run attempt moment status code next := by
  cases time with
  | none => cases done
  | some moment =>
    cases read : outcome.attempt.safeNat? with
    | none =>
      simp only [applyProcessingOutcome] at done
      split at done
      · cases done
      · rename_i found
        rw [read] at found
        cases found
    | some attempt =>
      by_cases stale : document.isStale outcome.run attempt = true
      · rw [apply_stale moment read stale] at done
        exact .inl (Except.ok.inj done).symm
      · cases result : outcome.result with
        | succeeded =>
          obtain ⟨settled, ran, settles⟩ := apply_succeeded moment read stale result
          cases ran.symm.trans done
          exact .inr ⟨moment, attempt, _, _, rfl, rfl, stale, by simp, settles⟩
        | retrying =>
          obtain ⟨settled, ran, settles⟩ := apply_retrying moment read stale result
          cases ran.symm.trans done
          split at settles
          · exact .inl settles
          · exact .inr ⟨moment, attempt, _, _, rfl, rfl, stale, by simp, settles⟩
        | failed =>
          rw [apply_eq moment read, applyAttempt, dif_neg stale] at done
          simp only [result] at done
          split at done
          · rename_i code accepted reason
            split at done
            · exact .inl (Except.ok.inj done).symm
            · cases done
              exact .inr ⟨moment, attempt, .processingFailed, some code, rfl, rfl, stale, by simp, rfl⟩
          · cases done

/-- What no step takes from a document. -/
structure Keeps (document next : Document) : Prop where
  name : next.name = document.name
  storageKey : next.storageKey = document.storageKey
  createdAt : next.createdAt = document.createdAt
  updatedAt : document.updatedAt ≤ next.updatedAt
  archived : document.status = .archived → next.status = .archived

theorem Keeps.refl (document : Document) : Keeps document document :=
  ⟨rfl, rfl, rfl, Int.le_refl _, id⟩

theorem Keeps.trans {first second third : Document} (earlier : Keeps first second)
    (later : Keeps second third) : Keeps first third where
  name := later.name.trans earlier.name
  storageKey := later.storageKey.trans earlier.storageKey
  createdAt := later.createdAt.trans earlier.createdAt
  updatedAt := Int.le_trans earlier.updatedAt later.updatedAt
  archived := fun already => later.archived (earlier.archived already)

theorem stored_keeps (document : Document) :
    Keeps document document.stored ∧ document.stored.status = document.status := by
  unfold stored
  split <;> exact ⟨⟨rfl, rfl, rfl, Int.le_refl _, id⟩, rfl⟩

/-- A reload gives the stored document, or nothing happened. -/
theorem Storable.reload {document : Document} (storable : document.Storable) :
    document.step .reload = document.stored ∨ document.step .reload = document := by
  unfold step
  rcases storable.written with ⟨written, version⟩ | ⟨refused, -⟩
  · left
    simp only [written, document.stored.restore_columns version]
    rfl
  · right
    simp only [refused]

/-- Every step keeps a storable document storable, and takes nothing from it. -/
theorem Storable.step {document : Document} (storable : document.Storable) (label : DocumentLabel)
    (fits : label.Fits) : (document.step label).Storable ∧ Keeps document (document.step label) := by
  cases label with
  | archive time =>
    rw [Document.step]
    cases done : document.archive time with
    | error failed => exact ⟨storable, .refl document⟩
    | ok next =>
      obtain ⟨moment, -, later, -, settled⟩ := archive_inv done
      show next.Storable ∧ Keeps document next
      obtain ⟨state, valid⟩ := next
      cases settled
      exact ⟨⟨storable.name, storable.storageKey, storable.attempt, storable.idle⟩,
        ⟨rfl, rfl, rfl, later, fun _ => rfl⟩⟩
  | beginProcessing time run =>
    rw [Document.step]
    cases done : document.beginProcessing time run with
    | error failed => exact ⟨storable, .refl document⟩
    | ok next =>
      show next.Storable ∧ Keeps document next
      cases time with
      | none => cases done
      | some moment =>
        rcases beginProcessing_inv moment done with ⟨same, -⟩ | ⟨begins, settled⟩
        · rw [same]
          exact ⟨storable, .refl document⟩
        · obtain ⟨state, valid⟩ := next
          cases settled
          exact ⟨⟨storable.name, storable.storageKey, Nat.zero_le _, fun _ => rfl⟩,
            ⟨rfl, rfl, rfl, begins.1, fun archived => absurd archived begins.2.1⟩⟩
  | applyProcessingOutcome time outcome =>
    rw [Document.step]
    cases done : document.applyProcessingOutcome time outcome with
    | error failed => exact ⟨storable, .refl document⟩
    | ok next =>
      show next.Storable ∧ Keeps document next
      rcases apply_inv done with same | ⟨moment, attempt, status, code, -, read, fresh, -, settled⟩
      · rw [same]
        exact ⟨storable, .refl document⟩
      · obtain ⟨state, valid⟩ := next
        cases settled
        refine ⟨⟨storable.name, storable.storageKey, fits attempt read, ?_⟩,
          ⟨rfl, rfl, rfl, Int.le_max_right _ _, ?_⟩⟩
        · intro impossible
          cases impossible
        · exact fun archived => absurd archived (live_of_not_stale fresh)
  | saved =>
    exact ⟨⟨storable.name, storable.storageKey, storable.attempt, storable.idle⟩,
      ⟨rfl, rfl, rfl, Int.le_refl _, id⟩⟩
  | reload =>
    rcases storable.reload with same | same
    · rw [same]
      refine ⟨?_, document.stored_keeps.1⟩
      unfold stored
      split
      · exact ⟨storable.name, storable.storageKey, Nat.zero_le _, fun _ => rfl⟩
      · exact ⟨storable.name, storable.storageKey, storable.attempt, storable.idle⟩
    · rw [same]
      exact ⟨storable, .refl document⟩

theorem Storable.run {document : Document} (storable : document.Storable)
    {labels : List DocumentLabel} (fits : ∀ label ∈ labels, label.Fits) :
    (Lib.run Document.step document labels).Storable ∧
      Keeps document (Lib.run Document.step document labels) := by
  induction labels generalizing document with
  | nil => exact ⟨storable, .refl document⟩
  | cons label rest ih =>
    obtain ⟨here, later⟩ := List.forall_mem_cons.mp fits
    obtain ⟨next, kept⟩ := storable.step label here
    obtain ⟨final, since⟩ := ih next later
    exact ⟨final, kept.trans since⟩

/-- Only `archive` takes a processed document out of its status. -/
theorem Storable.processed_left {document : Document} (storable : document.Storable)
    (processed : document.status = .processed) (label : DocumentLabel)
    (left : (document.step label).status ≠ .processed) : ∃ time, label = .archive time := by
  cases label with
  | archive time => exact ⟨time, rfl⟩
  | beginProcessing time run =>
    exfalso
    rw [Document.step] at left
    cases done : document.beginProcessing time run with
    | error failed =>
      rw [done] at left
      exact left processed
    | ok next =>
      rw [done] at left
      cases time with
      | none => cases done
      | some moment =>
        rcases beginProcessing_inv moment done with ⟨-, waiting, -⟩ | ⟨begins, -⟩
        · rw [processed] at waiting
          cases waiting
        · exact begins.2.2.1 processed
  | applyProcessingOutcome time outcome =>
    exfalso
    rw [Document.step] at left
    cases done : document.applyProcessingOutcome time outcome with
    | error failed =>
      rw [done] at left
      exact left processed
    | ok next =>
      rw [done] at left
      rcases apply_inv done with same | ⟨moment, attempt, status, code, -, -, fresh, -⟩
      · rw [same] at left
        exact left processed
      · exact fresh (by simp [isStale, processed])
  | saved => exact absurd processed left
  | reload =>
    exfalso
    rcases storable.reload with same | same
    · rw [same, document.stored_keeps.2] at left
      exact left processed
    · rw [same] at left
      exact left processed

end Document

/-- The texts of a new document hold neither U+0000 nor lone surrogates. -/
def CreateDocumentInput.Clean (input : CreateDocumentInput) : Prop :=
  (∀ text, input.name = .string text → text.isClean = true) ∧
    ∀ text, input.storageKey = .string text → text.isClean = true

theorem name_inv {value : JsValue} {found : {text : JsString // Normal 200 text}}
    (done : name value = .ok found) : ∃ text, value = .string text ∧ found.val = text.trim := by
  unfold name at done
  split at done
  · rename_i text
    split at done
    · cases done
      exact ⟨text, rfl, rfl⟩
    · cases done
  · cases done

theorem storageKey_inv {value : JsValue}
    {found : {found : Option JsString // ∀ key, found = some key → Normal 512 key}} {key : JsString}
    (done : storageKey value = .ok found) (present : found.val = some key) :
    ∃ text, value = .string text ∧ key = text.trim := by
  unfold storageKey at done
  split at done
  · cases done
    cases present
  · cases done
    cases present
  · rename_i text
    split at done
    · cases done
      exact ⟨text, rfl, (Option.some.inj present).symm⟩
    · cases done
  · cases done

/-- A document created from clean texts can be stored. -/
theorem Document.create_storable {input : CreateDocumentInput} {document : Document}
    (clean : input.Clean) (created : Document.create input = .ok document) : document.Storable := by
  obtain ⟨⟨documentName, nameNormal⟩, named, body⟩ := bind_ok created
  obtain ⟨⟨documentKey, keyNormal⟩, keyed, body⟩ := bind_ok body
  obtain ⟨text, given, trimmed⟩ := name_inv named
  cases time : input.createdAt with
  | none => simp [time] at body
  | some createdAt =>
    simp only [time, pure_eq_ok] at body
    subst body
    refine ⟨?_, ?_, Nat.zero_le _, fun _ => rfl⟩
    · have trimmed : documentName = text.trim := trimmed
      show documentName.isClean = true
      rw [trimmed]
      exact JsString.isClean_trim (clean.1 text given)
    · intro key present
      obtain ⟨text, given, trimmed⟩ := storageKey_inv keyed present
      rw [trimmed]
      exact JsString.isClean_trim (clean.2 text given)

/-- Every document reached from `create` has a row the table accepts, which reads
back as the document that storage holds: the saved one, except that the first write
keeps no processing run. Times never decrease, `archived` is final, and only
`archive` leaves `processed`. -/
theorem reachable_document_storable (input : CreateDocumentInput) (clean : input.Clean)
    (document : Document) (created : Document.create input = .ok document)
    (labels : List DocumentLabel) (fits : ∀ label ∈ labels, label.Fits) :
    let reached := run Document.step document labels
    (∀ row, reached.written = some row →
      (∀ constraint ∈ row.constraints, constraint.2 = true) ∧ row.restore = .ok reached.stored) ∧
    (reached.written = none → 2147483647 ≤ reached.version) ∧
    (reached.version ≠ UNSAVED ∨ reached.processingRun = none → reached.stored = reached.saved) ∧
    (∀ later, (∀ label ∈ later, label.Fits) →
      reached.updatedAt ≤ (run Document.step reached later).updatedAt ∧
      (reached.status = .archived → (run Document.step reached later).status = .archived)) ∧
    (reached.status = .processed → ∀ label, (reached.step label).status ≠ .processed →
      ∃ time, label = .archive time) := by
  intro reached
  have storable : reached.Storable := ((Document.create_storable clean created).run fits).1
  refine ⟨?_, ?_, storable.stored_eq, ?_, fun processed => storable.processed_left processed⟩
  · intro row written
    rcases storable.written with ⟨left, version⟩ | ⟨refused, -⟩
    · rw [left] at written
      cases written
      have stored : 1 ≤ reached.stored.version := by
        simp only [isStoredVersion, Bool.and_eq_true, decide_eq_true_eq] at version
        exact version.1
      exact ⟨DocumentColumns.constraints_of_valid reached.stored.valid stored,
        reached.stored.restore_columns version⟩
    · rw [refused] at written
      cases written
  · intro refused
    rcases storable.written with ⟨left, -⟩ | ⟨-, last⟩
    · rw [left] at refused
      cases refused
    · exact last
  · intro later bounded
    have kept := (storable.run bounded).2
    exact ⟨kept.updatedAt, kept.archived⟩

/-- A new document, named `a`. -/
def freshDocument : CreateDocumentInput where
  id := .numbered 1
  organizationId := .numbered 2
  name := .string ⟨[0x61]⟩
  storageKey := .null
  createdAt := some 0

theorem freshDocument_clean : freshDocument.Clean := by
  constructor
  · intro text same
    cases same
    decide
  · intro text same
    cases same

/-- Archiving a document that never began to process. -/
theorem archived_document_storable :
    ∃ document, Document.create freshDocument = .ok document ∧
      let reached := run Document.step document [.reload, .archive (some 5)]
      reached.status = .archived ∧ ∀ row, reached.written = some row →
        row.restore = .ok reached.stored := by
  refine ⟨_, rfl, rfl, ?_⟩
  have storable := reachable_document_storable freshDocument freshDocument_clean _ rfl
    [.reload, .archive (some 5)] (by simp [DocumentLabel.Fits])
  exact fun row written => (storable.1 row written).2

/-- A document that begins to process before it was ever written: the INSERT does not
carry its run, and the reader gives back another document than the saved one. -/
theorem first_write_drops_run :
    ∃ document, Document.create freshDocument = .ok document ∧
      let reached := run Document.step document [.beginProcessing (some 1) (.numbered 3)]
      reached.processingRun = some (.numbered 3) ∧
      ∃ row, reached.written = some row ∧ row.restore ≠ .ok reached.saved := by
  refine ⟨_, rfl, rfl, ?_⟩
  have storable : Document.Storable _ :=
    ((Document.create_storable freshDocument_clean rfl).run
      (show ∀ label ∈ [DocumentLabel.beginProcessing (some 1) (.numbered 3)], label.Fits by
        simp [DocumentLabel.Fits])).1
  rcases storable.written with ⟨written, version⟩ | ⟨-, last⟩
  · refine ⟨_, written, ?_⟩
    rw [Document.restore_columns _ version]
    intro same
    have runs := congrArg (fun document : Document => document.processingRun) (Except.ok.inj same)
    cases runs
  · exact absurd last (Nat.not_le_of_lt (Nat.zero_lt_succ _))

end N2FNest.Documents
