import N2FNest.Lib.Result
import N2FNest.Shared.Identifier

/-! The Document aggregate and its processing runs. -/

namespace N2FNest.Documents

open Lib Shared

inductive DocumentStatus where
  | active | processing | processed | processingFailed | archived
  deriving DecidableEq, Repr

inductive DocumentFailureType where
  | invalidName | invalidStorageKey | invalidProcessingFailureCode | invalidCreatedAt | invalidState
  | nonMonotonicTime | invalidArchivedAt | alreadyArchived | invalidProcessingStartedAt | archived
  | alreadyProcessed | invalidProcessingOutcome
  deriving DecidableEq, Repr

def DocumentFailureType.name : DocumentFailureType → String
  | .invalidName => "document.invalid_name"
  | .invalidStorageKey => "document.invalid_storage_key"
  | .invalidProcessingFailureCode => "document.invalid_processing_failure_code"
  | .invalidCreatedAt => "document.invalid_created_at"
  | .invalidState => "document.invalid_state"
  | .nonMonotonicTime => "document.non_monotonic_time"
  | .invalidArchivedAt => "document.invalid_archived_at"
  | .alreadyArchived => "document.already_archived"
  | .invalidProcessingStartedAt => "document.invalid_processing_started_at"
  | .archived => "document.archived"
  | .alreadyProcessed => "document.already_processed"
  | .invalidProcessingOutcome => "document.invalid_processing_outcome"

/-- A domain failure; its kind is always `invalid`. -/
structure DocumentFailure where
  type : DocumentFailureType
  message : String
  deriving DecidableEq, Repr

def invalid (message : String) (type : DocumentFailureType) : DocumentFailure := ⟨type, message⟩

def DocumentFailure.toFailure (error : DocumentFailure) : Failure :=
  failure .invalid error.message error.type.name

inductive OutcomeResult where
  | retrying | succeeded | failed
  deriving DecidableEq, Repr

/-- An outcome of the processing run a document is waiting on. `attempt` orders
the outcomes of one run. -/
structure ProcessingOutcome where
  run : ID
  attempt : JsNumber
  result : OutcomeResult
  failureCode : JsValue

structure DocumentState where
  id : ID
  organizationId : ID
  name : JsString
  storageKey : Option JsString
  status : DocumentStatus
  processingFailureCode : Option JsString
  processingRun : Option ID
  processingAttempt : Nat
  createdAt : Int
  updatedAt : Int
  archivedAt : Option Int
  version : Nat
  deriving DecidableEq

/-- A normalised text of at most `most` code units. -/
def Normal (most : Nat) (text : JsString) : Prop :=
  text.trim = text ∧ 1 ≤ text.length ∧ text.length ≤ most

def DocumentState.Lifecycle (state : DocumentState) : Prop :=
  match state.status with
  | .active | .processing | .processed =>
    state.archivedAt = none ∧ state.processingFailureCode = none
  | .processingFailed => state.archivedAt = none ∧ state.processingFailureCode ≠ none
  | .archived => state.archivedAt ≠ none

instance DocumentState.lifecycleDecidable (state : DocumentState) : Decidable state.Lifecycle :=
  match status : state.status with
  | .active | .processing | .processed =>
    decidable_of_iff (state.archivedAt = none ∧ state.processingFailureCode = none)
      (by simp only [DocumentState.Lifecycle, status])
  | .processingFailed =>
    decidable_of_iff (state.archivedAt = none ∧ state.processingFailureCode ≠ none)
      (by simp only [DocumentState.Lifecycle, status])
  | .archived =>
    decidable_of_iff (state.archivedAt ≠ none) (by simp only [DocumentState.Lifecycle, status])

structure DocumentState.Valid (state : DocumentState) : Prop where
  name : Normal 200 state.name
  storageKey : ∀ key, state.storageKey = some key → Normal 512 key
  failureCode : ∀ code, state.processingFailureCode = some code → code.isToken 127 = true
  attempt : state.processingAttempt ≤ 9007199254740991
  time : state.createdAt ≤ state.updatedAt
  lifecycle : state.Lifecycle

structure Document extends DocumentState where
  valid : toDocumentState.Valid
  deriving DecidableEq

def name : JsValue → Except DocumentFailure {text : JsString // Normal 200 text}
  | .string value =>
    if bounds : 1 ≤ value.trim.length ∧ value.trim.length ≤ 200 then
      .ok ⟨value.trim, value.trim_trim, bounds⟩
    else .error (invalid "document name must be between 1 and 200 characters" .invalidName)
  | _ => .error (invalid "document name must be a string" .invalidName)

def storageKey : JsValue →
    Except DocumentFailure {found : Option JsString // ∀ key, found = some key → Normal 512 key}
  | .undefined => .ok ⟨none, by simp⟩
  | .null => .ok ⟨none, by simp⟩
  | .string value =>
    if bounds : 1 ≤ value.trim.length ∧ value.trim.length ≤ 512 then
      .ok ⟨some value.trim, by
        intro key same
        cases same
        exact ⟨value.trim_trim, bounds⟩⟩
    else .error (invalid "document storage key must be between 1 and 512 characters" .invalidStorageKey)
  | _ => .error (invalid "document storage key must be a string" .invalidStorageKey)

def processingFailureCode : JsValue →
    Except DocumentFailure
      {found : Option JsString // ∀ code, found = some code → code.isToken 127 = true}
  | .undefined => .ok ⟨none, by simp⟩
  | .null => .ok ⟨none, by simp⟩
  | .string value =>
    if accepted : value.isToken 127 = true then
      .ok ⟨some value, by
        intro code same
        cases same
        exact accepted⟩
    else .error (invalid "document processing failure code is invalid" .invalidProcessingFailureCode)
  | _ => .error (invalid "document processing failure code is invalid" .invalidProcessingFailureCode)

structure CreateDocumentInput where
  id : ID
  organizationId : ID
  name : JsValue
  storageKey : JsValue
  createdAt : JsDate

/-- What storage hands back. Columns are typed, so a status is one of the five; dates
can still be invalid and the attempt is any number. -/
structure RestoreDocumentInput where
  id : ID
  organizationId : ID
  name : JsValue
  storageKey : JsValue
  status : DocumentStatus
  processingFailureCode : JsValue
  processingRun : Option ID
  processingAttempt : JsNumber
  createdAt : JsDate
  updatedAt : JsDate
  archivedAt : Option JsDate
  version : Nat

/-- The integer a safe non-negative number stands for is in the safe range. -/
theorem safeNat?_le {value : JsNumber} {count : Nat} (read : value.safeNat? = some count) :
    count ≤ 9007199254740991 := by
  cases value with
  | finite rational =>
    simp only [JsNumber.safeNat?] at read
    split at read
    · rename_i bounds
      cases read
      exact bounds.2.2
    · cases read
  | nan => cases read
  | infinite negative => cases read

namespace Document

def create (input : CreateDocumentInput) : Except DocumentFailure Document := do
  let ⟨documentName, nameNormal⟩ ← Documents.name input.name
  let ⟨documentStorageKey, keyNormal⟩ ← Documents.storageKey input.storageKey
  match input.createdAt with
  | none => throw (invalid "document creation time is invalid" .invalidCreatedAt)
  | some createdAt =>
    return {
      id := input.id
      organizationId := input.organizationId
      name := documentName
      storageKey := documentStorageKey
      status := .active
      processingFailureCode := none
      processingRun := none
      processingAttempt := 0
      createdAt := createdAt
      updatedAt := createdAt
      archivedAt := none
      version := UNSAVED
      valid := {
        name := nameNormal
        storageKey := keyNormal
        failureCode := by simp
        attempt := Nat.zero_le _
        time := Int.le_refl _
        lifecycle := ⟨rfl, rfl⟩ } }

def invalidState (message : String) : DocumentFailure := invalid message .invalidState

/-- A date that may be absent, but must be valid when present. -/
def optionalDate : Option JsDate → Except DocumentFailure (Option Int)
  | none => .ok none
  | some none => .error (invalidState "document state is invalid")
  | some (some time) => .ok (some time)

def restore (input : RestoreDocumentInput) : Except DocumentFailure Document := do
  let ⟨documentName, nameNormal⟩ ← Documents.name input.name
  let ⟨documentStorageKey, keyNormal⟩ ← Documents.storageKey input.storageKey
  let ⟨code, codeValid⟩ ← Documents.processingFailureCode input.processingFailureCode
  let archivedAt ← optionalDate input.archivedAt
  match input.createdAt, input.updatedAt, read : input.processingAttempt.safeNat? with
  | some createdAt, some updatedAt, some attempt =>
    let state : DocumentState := {
      id := input.id
      organizationId := input.organizationId
      name := documentName
      storageKey := documentStorageKey
      status := input.status
      processingFailureCode := code
      processingRun := input.processingRun
      processingAttempt := attempt
      createdAt := createdAt
      updatedAt := updatedAt
      archivedAt := archivedAt
      version := input.version }
    if isStoredVersion state.version then
      if time : createdAt ≤ updatedAt then
        if lifecycle : state.Lifecycle then
          return ⟨state, nameNormal, keyNormal, codeValid, safeNat?_le read, time, lifecycle⟩
        else throw (invalidState "document archive state is invalid")
      else throw (invalid "document update time cannot precede creation" .nonMonotonicTime)
    else throw (invalidState "document state is invalid")
  | _, _, _ => throw (invalidState "document state is invalid")

def saved (document : Document) : Document where
  toDocumentState := { document.toDocumentState with version := document.version + 1 }
  valid := ⟨document.valid.name, document.valid.storageKey, document.valid.failureCode,
    document.valid.attempt, document.valid.time, document.valid.lifecycle⟩

/-- A document that is not archived carries no archive time. -/
theorem archivedAt_eq_none (document : Document) (live : document.status ≠ .archived) :
    document.archivedAt = none := by
  have shape := document.valid.lifecycle
  unfold DocumentState.Lifecycle at shape
  split at shape
  · exact shape.1
  · exact shape.1
  · exact shape.1
  · exact shape.1
  · exact absurd ‹_› live

def archive (document : Document) (time : JsDate) : Except DocumentFailure Document :=
  match time with
  | none => .error (invalid "document archive time is invalid" .invalidArchivedAt)
  | some time =>
    if later : document.updatedAt ≤ time then
      if document.status = .archived then
        .error (invalid "document is already archived" .alreadyArchived)
      else
        .ok {
          toDocumentState := { document.toDocumentState with
            status := .archived
            updatedAt := time
            archivedAt := some time }
          valid := { document.valid with
            time := Int.le_trans document.valid.time later
            lifecycle := by simp [DocumentState.Lifecycle] } }
    else .error (invalid "document archive time cannot move backwards" .nonMonotonicTime)

/-- Start waiting on processing run `run`. Beginning the same run again is a
no-op; beginning a different run replaces the one in progress. -/
def beginProcessing (document : Document) (time : JsDate) (run : ID) :
    Except DocumentFailure Document :=
  match time with
  | none =>
    .error (invalid "document processing start time is invalid" .invalidProcessingStartedAt)
  | some time =>
    if later : document.updatedAt ≤ time then
      if live : document.status ≠ .archived then
        if document.status = .processing ∧ document.processingRun = some run then .ok document
        else if document.status = .processed then
          .error (invalid "document has already been processed" .alreadyProcessed)
        else
          .ok {
            toDocumentState := { document.toDocumentState with
              status := .processing
              processingFailureCode := none
              processingRun := some run
              processingAttempt := 0
              updatedAt := time }
            valid := { document.valid with
              failureCode := by simp
              attempt := Nat.zero_le _
              time := Int.le_trans document.valid.time later
              lifecycle := ⟨document.archivedAt_eq_none live, rfl⟩ } }
      else .error (invalid "archived documents cannot be processed" .archived)
    else .error (invalid "document processing start time cannot move backwards" .nonMonotonicTime)

/-- Whether an outcome is for the current run. A document already processing
before runs were recorded adopts the first run that reports. -/
def sameRun (document : Document) (run : ID) : Bool :=
  document.processingRun == some run ||
    (document.processingRun == none && document.status == .processing)

/-- An outcome for another run, an older attempt, a finished run or an archived
document is stale. -/
def isStale (document : Document) (run : ID) (attempt : Nat) : Bool :=
  document.status == .archived || document.status == .active || document.status == .processed ||
    !document.sameRun run || attempt < document.processingAttempt

theorem live_of_not_stale {document : Document} {run : ID} {attempt : Nat}
    (fresh : ¬ document.isStale run attempt = true) : document.status ≠ .archived := by
  intro archived
  exact fresh (by simp [isStale, archived])

/-- The state every applied outcome starts from: its run and attempt recorded. -/
def reported (document : Document) (run : ID) (attempt : Nat) (time : Int) : DocumentState :=
  { document.toDocumentState with
    processingRun := some run
    processingAttempt := attempt
    updatedAt := max time document.updatedAt }

theorem reported_valid (document : Document) {run : ID} {attempt : Nat} {time : Int}
    (safe : attempt ≤ 9007199254740991) (status : DocumentStatus) (code : Option JsString)
    (accepted : ∀ text, code = some text → text.isToken 127 = true)
    (shape : DocumentState.Lifecycle { document.reported run attempt time with
      status := status, processingFailureCode := code }) :
    DocumentState.Valid { document.reported run attempt time with
      status := status, processingFailureCode := code } where
  name := document.valid.name
  storageKey := document.valid.storageKey
  failureCode := accepted
  attempt := safe
  time := Int.le_trans document.valid.time (Int.le_max_right _ _)
  lifecycle := shape

end Document

/-- The branches of `applyProcessingOutcome` once its time and attempt are valid. -/
def Document.applyAttempt (document : Document) (time : Int) (outcome : ProcessingOutcome)
    (attempt : Nat) (safe : attempt ≤ 9007199254740991) : Except DocumentFailure Document :=
  if stale : document.isStale outcome.run attempt = true then .ok document
  else
    have unarchived := document.archivedAt_eq_none (Document.live_of_not_stale stale)
    match outcome.result with
    | .succeeded =>
      .ok ⟨{ document.reported outcome.run attempt time with
          status := .processed, processingFailureCode := none },
        document.reported_valid safe _ _ (by simp) ⟨unarchived, rfl⟩⟩
    | .retrying =>
      if current : document.status = .processing then
        if attempt = document.processingAttempt then .ok document
        else
          .ok ⟨document.reported outcome.run attempt time,
            document.reported_valid safe document.status
              document.processingFailureCode document.valid.failureCode (by
                have shape := document.valid.lifecycle
                simp only [DocumentState.Lifecycle, current] at shape ⊢
                exact shape)⟩
      else
        .ok ⟨{ document.reported outcome.run attempt time with
            status := .processing, processingFailureCode := none },
          document.reported_valid safe _ _ (by simp) ⟨unarchived, rfl⟩⟩
    | .failed =>
      match processingFailureCode outcome.failureCode with
      | .ok ⟨some code, accepted⟩ =>
        -- a later report about an attempt that already failed keeps the original failure
        if document.status = .processingFailed ∧ attempt = document.processingAttempt then
          .ok document
        else
          .ok ⟨{ document.reported outcome.run attempt time with
              status := .processingFailed, processingFailureCode := some code },
            document.reported_valid safe _ _ accepted ⟨unarchived, by simp⟩⟩
      | _ => .error
          (invalid "document processing failure code is invalid" .invalidProcessingFailureCode)

/-- Apply an outcome of the current processing run. Deliveries are at least once
and not strictly ordered, so a stale outcome returns the document unchanged. -/
def Document.applyProcessingOutcome (document : Document) (time : JsDate)
    (outcome : ProcessingOutcome) : Except DocumentFailure Document :=
  match time with
  | none =>
    .error (invalid "document processing outcome time is invalid" .invalidProcessingOutcome)
  | some time =>
    match read : outcome.attempt.safeNat? with
    | none => .error (invalid "document processing attempt is invalid" .invalidProcessingOutcome)
    | some attempt => document.applyAttempt time outcome attempt (safeNat?_le read)

end N2FNest.Documents
