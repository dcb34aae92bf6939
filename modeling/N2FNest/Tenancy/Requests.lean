import N2FNest.Documents.Creation
import N2FNest.Tenancy.Workspace
import N2FNest.Workflows.Requests

/-! The commands and queries on an organization's documents and jobs, as the operations
they await. -/

namespace N2FNest.Tenancy

open Documents Events Jobs Lib Organizations Pagination Provenance Shared

variable {Work Value : Type}

abbrev Program (Work Value : Type) := Script (Op Work) Op.Answer (Except Failure Value)

/-- `if (!result.ok) return err(report(result.error))`. -/
def orReport {Given : Type} (report : Failure → Failure) (next : Given → Program Work Value) :
    Except Failure Given → Program Work Value
  | .ok given => next given
  | .error error => .done (.error (report error))

def refuse (error : Failure) : Program Work Value := .done (.error error)

/-- `if (!result.ok) return result` after a command's own program. -/
def Program.andThen {Given : Type} (program : Program Work Given)
    (next : Given → Program Work Value) : Program Work Value :=
  program.bind (orReport id next)

/-- A row of another organization is answered as no row. -/
def ownRow {Row : Type} (organization : Row → ID) (organizationId : ID) (missing : Failure)
    (next : Row → Program Work Value) : Option Row → Program Work Value
  | none => refuse missing
  | some row => if organization row ≠ organizationId then refuse missing else next row

/-- The cursor scope of a list of an organization. -/
def scopeOf (list : String) (organizationId : ID) : JsString :=
  ⟨(js list).units ++ organizationId.text.units⟩

def documentDependency : Failure → Failure := reportDependency "Document" "document" [
  (.forbidden, ["document.access_forbidden", "document.archive_forbidden"]),
  (.conflict, ["document.already_exists", "document.stale_write", "document.organization_mismatch"]),
  (.unavailable, ["document.id_generation"]),
  (.invalid, ["document.invalid_operation", "document.invalid_page"]),
  (.notFound, ["document.not_found"]),
  (.internal, ["document.persistence_invalid"]),
  (.unauthenticated, ["document.missing_token"])]

def documentIds (_ : Failure) : Failure :=
  failure .unavailable "Document ID generation failed" "document.id_generation"

def documentForbidden : Failure :=
  failure .forbidden "organization access is required" "document.access_forbidden"

def documentEvent (eventId : ID) (type : String) (time : Int) (work : Work) (document : Document)
    (payload : JsObject) : Envelope Work where
  id := eventId
  type := js type
  occurredAtMs := time
  work := work
  payload := payload
  subject := some ⟨js "document", document.id⟩
  tenant := some document.organizationId

/-- Build the event of a changed document and commit both. -/
def commitWithEvent (mode : CommitMode) (document : Document) (type : String) (time : Int)
    (work : Work) (payload : JsObject) (result : Value) : Program Work Value :=
  .await .newId <| orReport documentIds fun eventId =>
    let event := documentEvent eventId type time work document payload
    .await (.envelope event) <| orReport documentDependency fun _ =>
    .await (.commitDocument ⟨mode, document, event, work⟩) <| orReport documentDependency fun _ =>
    .done (.ok result)

structure CreateDocumentResult where
  documentId : ID
  organizationId : ID
  name : JsString
  storageKey : Option JsString

/-- `CreateDocument.execute`. -/
def createDocument (operation : String) (sessionToken : JsString) (organizationId : ID)
    (name storageKey : JsValue) (work : Work) : Program Work CreateDocumentResult :=
  if operation ≠ "document.create" then
    refuse (failure .invalid "document creation operation is invalid" "document.invalid_operation")
  else .await (.findAccess sessionToken organizationId) <| orReport documentDependency fun
    | none => refuse documentForbidden
    | some access =>
      .await .now fun createdAt =>
      .await .newId <| orReport documentIds fun documentId =>
      match Document.create {
          id := documentId
          organizationId := organizationId
          name := name
          storageKey := storageKey
          createdAt := some createdAt } with
      | .error error => refuse error.toFailure
      | .ok document =>
        commitWithEvent .create document "document.created.v1" createdAt work
          (createdPayload document access.identityId)
          ⟨document.id, document.organizationId, document.name, document.storageKey⟩

/-- What every read of one document does with the row it finds. -/
def ownDocument (organizationId : ID) (next : Document → Program Work Value) :
    Option Document → Program Work Value :=
  ownRow (fun document => document.organizationId) organizationId documentNotFound next

/-- `GetDocument.execute`. -/
def getDocument (sessionToken : JsString) (organizationId documentId : ID) :
    Program Work Document :=
  .await (.findAccess sessionToken organizationId) <| orReport documentDependency fun
    | none => refuse documentForbidden
    | some _ =>
      .await (.findDocument documentId) <| orReport documentDependency <|
        ownDocument organizationId fun document => .done (.ok document)

/-- `ListDocuments.execute`; `host` reads dates in other forms than ISO. -/
def listDocuments (host : JsString → Option Moment) (sessionToken : JsString) (organizationId : ID)
    (limit cursor : Option JsString) : Program Work (Page Document) :=
  let scope := scopeOf "documents:" organizationId
  match request host scope limit cursor with
  | .error _ => refuse (failure .invalid "page size or cursor is invalid" "document.invalid_page")
  | .ok page =>
    .await (.findAccess sessionToken organizationId) <| orReport documentDependency fun
      | none => refuse documentForbidden
      | some _ =>
        .await (.listDocuments organizationId page) <| orReport documentDependency fun documents =>
        .done ((window documents (.ofNat page.limit) scope fun document =>
          position (momentOf document.createdAt) document.id.text).mapError documentDependency)

def archivedPayload (document : Document) (identityId : ID) : JsObject :=
  [(js "organization_id", .string document.organizationId.text),
    (js "document_id", .string document.id.text), (js "identity_id", .string identityId.text),
    (js "status", .string (js document.status.text)),
    (js "archived_at", match document.archivedAt with
      | some time => .string (momentOf time).toISOString
      | none => .undefined)]

structure ArchiveDocumentResult where
  documentId : ID
  archivedAt : Option Int

/-- `ArchiveDocument.execute`. -/
def archiveDocument (operation : String) (sessionToken : JsString) (organizationId documentId : ID)
    (work : Work) : Program Work ArchiveDocumentResult :=
  let forbidden := failure .forbidden "only organization owners and admins can archive documents"
    "document.archive_forbidden"
  if operation ≠ "document.archive" then
    refuse (failure .invalid "document archive operation is invalid" "document.invalid_operation")
  else .await (.findAccess sessionToken organizationId) <| orReport documentDependency fun
    | none => refuse forbidden
    | some access =>
      if access.administers = false then refuse forbidden
      else .await (.findDocument documentId) <| orReport documentDependency <|
        ownDocument organizationId fun current =>
          .await .now fun archivedAt =>
          match current.archive (some archivedAt) with
          | .error error => refuse error.toFailure
          | .ok archived =>
            commitWithEvent .update archived "document.archived.v1" archivedAt work
              (archivedPayload archived access.identityId) ⟨archived.id, archived.archivedAt⟩

/-- `CheckDocumentProcessable.execute`. -/
def checkDocumentProcessable (organizationId documentId : ID) : Program Work Unit :=
  .await (.findDocument documentId) <| orReport documentDependency <|
    ownDocument organizationId fun document =>
      if document.status = .archived then
        refuse (failure .invalid "archived documents cannot be processed" "document.archived")
      else if document.status = .processed then
        refuse (failure .invalid "document has already been processed"
          "document.already_processed")
      else .done (.ok ())

structure ProcessDocumentResult where
  documentId : ID
  organizationId : ID
  status : DocumentStatus
  processingFailureCode : Option JsString

def resultOf (document : Document) : ProcessDocumentResult :=
  ⟨document.id, document.organizationId, document.status, document.processingFailureCode⟩

/-- What a `ProcessDocument` subclass is constructed with. -/
inductive Processing where
  | begin | retry | complete | fail

def Processing.operation : Processing → String
  | .begin => "document.processing.start"
  | .retry => "document.processing.retry"
  | .complete => "document.processing.complete"
  | .fail => "document.processing.fail"

def Processing.eventType : Processing → String
  | .begin | .retry => "document.processing.started.v1"
  | .complete => "document.processing.completed.v1"
  | .fail => "document.processing.failed.v1"

def Processing.transition (action : Processing) (document : Document) (time : Int) (run : ID)
    (attempt : Option JsNumber) (failureCode : JsValue) : Except DocumentFailure Document :=
  let outcome (result : OutcomeResult) :=
    document.applyProcessingOutcome (some time) ⟨run, attempt.getD (.ofNat 0), result, failureCode⟩
  match action with
  | .begin => document.beginProcessing (some time) run
  | .retry => outcome .retrying
  | .complete => outcome .succeeded
  | .fail => outcome .failed

def processingPayload (document : Document) : JsObject :=
  [(js "organization_id", .string document.organizationId.text),
    (js "document_id", .string document.id.text),
    (js "status", .string (js document.status.text)),
    (js "processing_failure_code", orNull .string document.processingFailureCode),
    (js "processing_run", orNull (fun run : ID => .string run.text) document.processingRun),
    (js "processing_attempt", .number (.ofNat document.processingAttempt))]

/-- `ProcessDocument.execute`. The transitions return the document itself where they
change nothing. -/
def processDocument (action : Processing) (operation : String) (organizationId documentId run : ID)
    (attempt : Option JsNumber) (failureCode : JsValue) (work : Work) :
    Program Work ProcessDocumentResult :=
  if operation ≠ action.operation then
    refuse (failure .invalid "document processing operation is invalid"
      "document.invalid_operation")
  else .await (.findDocument documentId) <| orReport documentDependency <|
    ownDocument organizationId fun current =>
      .await .now fun time =>
      match action.transition current time run attempt failureCode with
      | .error error => refuse error.toFailure
      | .ok changed =>
        if changed = current then .done (.ok (resultOf changed))
        else commitWithEvent .update changed action.eventType time work (processingPayload changed)
          (resultOf changed)

def commitJobWithEvent (mode : CommitMode) (job : Job) (type : JobEventType) (time : Int)
    (work : Work) (payload : JsObject) (failed : Failure → Program Work Value) (result : Value) :
    Program Work Value :=
  .await .newId <| orReport idGenerationFailure fun eventId =>
    let event := jobEvent ⟨eventId, work⟩ type time job payload
    .await (.envelope event) <| orReport Jobs.dependencyFailure fun _ =>
    .await (.commitJob ⟨mode, job, event, work⟩) fun
      | .ok _ => .done (.ok result)
      | .error error => failed error

def reportJob (error : Failure) : Program Work Value := refuse (Jobs.dependencyFailure error)

structure SubmitJobResult where
  jobId : ID
  organizationId : ID
  kind : JsString
  maxAttempts : Nat

/-- `SubmitJob.execute`. -/
def submitJob (operation : String) (sessionToken : JsString) (organizationId : ID)
    (kind maxAttempts : JsValue) (work : Work) : Program Work SubmitJobResult :=
  let forbidden := failure .forbidden "only organization owners and admins can submit jobs"
    "job.submit_forbidden"
  if operation ≠ "job.submit" then
    refuse (failure .invalid "job submission operation is invalid" "job.invalid_operation")
  else .await (.findAccess sessionToken organizationId) <| orReport Jobs.dependencyFailure fun
    | none => refuse forbidden
    | some access =>
      if access.administers = false then refuse forbidden
      else .await .now fun createdAt =>
        .await .newId <| orReport idGenerationFailure fun jobId =>
        match Job.create {
            id := jobId
            organizationId := organizationId
            kind := kind
            subject := .undefined
            maxAttempts := maxAttempts
            createdAt := some createdAt } with
        | .error error => refuse error.toFailure
        | .ok job =>
          commitJobWithEvent .create job .submitted createdAt work
            (SubmitJob.payload access.identityId job) reportJob
            ⟨job.id, job.organizationId, job.kind, job.maxAttempts⟩

/-- `ListJobs.execute`. -/
def listJobs (host : JsString → Option Moment) (sessionToken : JsString) (organizationId : ID)
    (limit cursor : Option JsString) : Program Work (Page Job) :=
  let scope := scopeOf "jobs:" organizationId
  match request host scope limit cursor with
  | .error _ => refuse (failure .invalid "page size or cursor is invalid" "job.invalid_page")
  | .ok page =>
    .await (.findAccess sessionToken organizationId) <| orReport Jobs.dependencyFailure fun
      | none => refuse (failure .forbidden "organization access is required" "job.access_forbidden")
      | some _ =>
        .await (.listJobs organizationId page) <| orReport Jobs.dependencyFailure fun jobs =>
        .done ((window jobs (.ofNat page.limit) scope fun job =>
          position (momentOf job.createdAt) job.id.text).mapError Jobs.dependencyFailure)

/-- The operation each `TransitionJob` subclass is constructed with. -/
def actionOperation : Action → String
  | .start => "job.start"
  | .complete => "job.complete"
  | .fail => "job.fail"
  | .retry => "job.retry"
  | .cancel => "job.cancel"

structure TransitionJobResult where
  jobId : ID
  status : JobStatus
  attempts : Nat
  updatedAt : Int
  finishedAt : Option Int

/-- `TransitionJob.execute`. -/
def transitionJob (action : Action) (operation : String) (sessionToken : JsString)
    (organizationId jobId : ID) (failureCode : JsValue) (work : Work) :
    Program Work TransitionJobResult :=
  let forbidden := failure .forbidden "only organization owners and admins can transition jobs"
    "job.transition_forbidden"
  if operation ≠ actionOperation action then
    refuse (failure .invalid "job operation is invalid" "job.invalid_operation")
  else .await (.findAccess sessionToken organizationId) <| orReport Jobs.dependencyFailure fun
    | none => refuse forbidden
    | some access =>
      if access.administers = false then refuse forbidden
      else .await (.findJob jobId) <| orReport Jobs.dependencyFailure <|
        ownRow (fun job : Job => job.organizationId) organizationId jobNotFound fun current =>
          .await .now fun time =>
          match transition current action (some time) failureCode with
          | .error error => refuse error.toFailure
          | .ok changed =>
            commitJobWithEvent .update changed action.eventType time work
              (TransitionJob.payload access.identityId changed) reportJob
              ⟨changed.id, changed.status, changed.attempts, changed.updatedAt,
                changed.finishedAt⟩

/-- `SubmitWorkflowJob.reuse`. -/
def reuse (job : Job) (work : Work) : Program Work SubmitResult :=
  if job.status ≠ .failed then .done (.ok ⟨job.id, job.status, false⟩)
  else .await .now fun time =>
    match job.retry (some time) with
    | .error error => refuse error.toFailure
    | .ok retried =>
      commitJobWithEvent .update retried .retried time work (SubmitWorkflowJob.payload retried)
        reportJob ⟨job.id, retried.status, false⟩

/-- `SubmitWorkflowJob.execute`. -/
def submitWorkflowJob (operation : String) (organizationId : ID) (kind : JsString)
    (subject : JobSubject) (maxAttempts : JsValue) (work : Work) : Program Work SubmitResult :=
  if operation ≠ "job.submit.workflow" then refuse invalidOperation
  else .await (.findOpenJob organizationId kind subject) <| orReport Jobs.dependencyFailure fun
    | some job => reuse job work
    | none =>
      .await .now fun createdAt =>
      .await .newId <| orReport idGenerationFailure fun jobId =>
      match Job.create {
          id := jobId
          organizationId := organizationId
          kind := .string kind
          subject := subjectValue (some subject)
          maxAttempts := maxAttempts
          createdAt := some createdAt } with
      | .error error => refuse error.toFailure
      | .ok job =>
        commitJobWithEvent .create job .submitted createdAt work (SubmitWorkflowJob.payload job)
          (fun error =>
            -- a concurrent submission for the same subject committed first
            if error.type = some "job.subject_taken" then
              .await (.findOpenJob organizationId kind subject) <|
                orReport Jobs.dependencyFailure fun
                | some winner => reuse winner work
                | none => reportJob error
            else reportJob error)
          ⟨job.id, job.status, true⟩

structure RequestDocumentProcessingResult where
  documentId : ID
  jobId : ID
  documentStatus : DocumentStatus
  jobStatus : JobStatus
  jobCreated : Bool

/-- `RequestDocumentProcessing.execute`. Its own check of the membership is the bridge's. -/
def requestDocumentProcessing (operation : String) (sessionToken : JsString)
    (organizationId documentId : ID) (maxAttempts : JsValue) (work : Work) :
    Program Work RequestDocumentProcessingResult :=
  if operation ≠ "document.processing.request" then
    refuse (failure .invalid "document processing request operation is invalid"
      "document.processing.invalid_operation")
  else .await (.findAccess sessionToken organizationId) <| orReport id fun
    | none => refuse (failure .forbidden "organization access is required"
        "document.processing_forbidden")
    | some access =>
      if access.administers = false then
        refuse (failure .forbidden "only organization owners and admins can process documents"
          "document.processing_forbidden")
      else (checkDocumentProcessable organizationId documentId).andThen fun _ =>
        .await (.childWork work "job.submit.workflow") <| orReport id fun jobWork =>
        (submitWorkflowJob "job.submit.workflow" organizationId
          Workflows.DOCUMENT_PROCESSING_JOB_KIND ⟨js "document", documentId⟩ maxAttempts
          jobWork).andThen fun submitted =>
        .await (.childWork jobWork "document.processing.start") <| orReport id fun beginWork =>
        (processDocument .begin "document.processing.start" organizationId documentId
          submitted.jobId none .undefined beginWork).andThen fun begun =>
        .done (.ok ⟨begun.documentId, submitted.jobId, begun.status, submitted.status,
          submitted.created⟩)

/-- A request on one organization. The outcomes of processing come from the organization's
own job events and carry no session. -/
inductive Request (Work : Type) where
  | createDocument (operation : String) (sessionToken : JsString) (name storageKey : JsValue)
      (work : Work)
  | getDocument (sessionToken : JsString) (documentId : ID)
  | listDocuments (sessionToken : JsString) (limit cursor : Option JsString)
  | archiveDocument (operation : String) (sessionToken : JsString) (documentId : ID) (work : Work)
  | submitJob (operation : String) (sessionToken : JsString) (kind maxAttempts : JsValue)
      (work : Work)
  | listJobs (sessionToken : JsString) (limit cursor : Option JsString)
  | transitionJob (action : Action) (operation : String) (sessionToken : JsString) (jobId : ID)
      (failureCode : JsValue) (work : Work)
  | requestDocumentProcessing (operation : String) (sessionToken : JsString) (documentId : ID)
      (maxAttempts : JsValue) (work : Work)
  | processOutcome (action : Processing) (operation : String) (documentId run : ID)
      (attempt : Option JsNumber) (failureCode : JsValue) (work : Work)

inductive Reply where
  | created (result : CreateDocumentResult)
  | document (document : Document)
  | documents (page : Page Document)
  | archived (result : ArchiveDocumentResult)
  | submitted (result : SubmitJobResult)
  | jobs (page : Page Job)
  | transitioned (result : TransitionJobResult)
  | requested (result : RequestDocumentProcessingResult)
  | processed (result : ProcessDocumentResult)

def Program.reply (program : Program Work Value) (wrap : Value → Reply) : Program Work Reply :=
  program.andThen fun value => .done (.ok (wrap value))

def program (host : JsString → Option Moment) (organizationId : ID) :
    Request Work → Program Work Reply
  | .createDocument operation sessionToken name storageKey work =>
    (createDocument operation sessionToken organizationId name storageKey work).reply .created
  | .getDocument sessionToken documentId =>
    (getDocument sessionToken organizationId documentId).reply .document
  | .listDocuments sessionToken limit cursor =>
    (listDocuments host sessionToken organizationId limit cursor).reply .documents
  | .archiveDocument operation sessionToken documentId work =>
    (archiveDocument operation sessionToken organizationId documentId work).reply .archived
  | .submitJob operation sessionToken kind maxAttempts work =>
    (submitJob operation sessionToken organizationId kind maxAttempts work).reply .submitted
  | .listJobs sessionToken limit cursor =>
    (listJobs host sessionToken organizationId limit cursor).reply .jobs
  | .transitionJob action operation sessionToken jobId failureCode work =>
    (transitionJob action operation sessionToken organizationId jobId failureCode work).reply
      .transitioned
  | .requestDocumentProcessing operation sessionToken documentId maxAttempts work =>
    (requestDocumentProcessing operation sessionToken organizationId documentId maxAttempts
      work).reply .requested
  | .processOutcome action operation documentId run attempt failureCode work =>
    (processDocument action operation organizationId documentId run attempt failureCode work).reply
      .processed

end N2FNest.Tenancy
