import N2FNest.Documents.Document
import N2FNest.Jobs.Events

/-! The document-processing workflow's own decoder for Jobs events, and the
document commands it drives. -/

namespace N2FNest.Workflows

open Documents Events Jobs Lib Shared

/-- The job kind this workflow submits. -/
def DOCUMENT_PROCESSING_JOB_KIND : JsString := js "document.process"

/-- What an outcome asks of the document. A canceled job has no failure code of
its own. -/
inductive OutcomeAction where
  | retry
  | complete
  | fail (failureCode : JsString)
  deriving DecidableEq

/-- A job outcome in the workflow's terms. The job is the processing run. -/
structure JobOutcome where
  organizationId : ID
  documentId : ID
  jobId : ID
  attempt : Nat
  action : OutcomeAction
  deriving DecidableEq

/-- The `ACTIONS` record: the action an event type leads to, given the failure
code its payload would supply. -/
def actionOf (type failureCode : JsString) : Option OutcomeAction :=
  if type = js "job.retried.v1" then some .retry
  else if type = js "job.completed.v1" then some .complete
  else if type = js "job.failed.v1" then some (.fail failureCode)
  else if type = js "job.canceled.v1" then some (.fail failureCode)
  else none

def invalidEvent (field : String) : Failure :=
  failure .invalid ("job event " ++ field ++ " is invalid") "workflow.invalid_event"

def idAt (value : JsValue) (field : String) : Except Failure ID :=
  match value with
  | .string text => parse (.string text)
  | _ => .error (invalidEvent field)

/-- The subject of a payload this workflow acts on: its job kind, and a subject
of type `document`. -/
def documentSubject (payload : JsObject) : Option JsObject :=
  match payload.read (js "kind"), payload.read (js "subject") with
  | .string kind, .object subject =>
    match JsObject.read subject (js "type") with
    | .string type =>
      if kind = DOCUMENT_PROCESSING_JOB_KIND ∧ type = js "document" then some subject else none
    | _ => none
  | _, _ => none

def failureCodeAt (payload : JsObject) : JsString :=
  match payload.read (js "failure_code") with
  | .string code => code
  | _ => js "job.canceled"

def attemptAt (payload : JsObject) : Except Failure Nat :=
  match payload.read (js "attempts") with
  | .number value => match value.safeNat? with
    | some attempt => .ok attempt
    | none => .error (invalidEvent "attempts")
  | _ => .error (invalidEvent "attempts")

variable {Work : Type}

/-- Decode an event, or `none` for one this workflow does not act on. -/
def decodeJobEvent (event : Envelope Work) : Except Failure (Option JobOutcome) :=
  match actionOf event.type (failureCodeAt event.payload) with
  | none => .ok none
  | some action =>
    match documentSubject event.payload with
    | none => .ok none
    | some subject => do
      let documentId ← idAt (subject.read (js "id")) "subject.id"
      let organizationId ← idAt (event.payload.read (js "organization_id")) "organization_id"
      let jobId ← idAt (event.payload.read (js "job_id")) "job_id"
      let attempt ← attemptAt event.payload
      return some ⟨organizationId, documentId, jobId, attempt, action⟩

/-- The outcome the retry, complete and fail commands hand to the document. -/
def JobOutcome.processing (outcome : JobOutcome) : ProcessingOutcome where
  run := outcome.jobId
  attempt := .ofNat outcome.attempt
  result := match outcome.action with
    | .retry => .retrying
    | .complete => .succeeded
    | .fail _ => .failed
  failureCode := match outcome.action with
    | .fail code => .string code
    | _ => .undefined

/-- One delivery: decode, then apply the outcome to the document. -/
def applyJobEvent (document : Document) (event : Envelope Work) (time : JsDate) :
    Except Failure Document := do
  match ← decodeJobEvent event with
  | none => return document
  | some outcome =>
    (document.applyProcessingOutcome time outcome.processing).mapError DocumentFailure.toFailure

/-- Deliver a sequence of events, each at its own time, stopping at an error. -/
def applyJobEvents (document : Document) : List (Envelope Work × JsDate) → Except Failure Document
  | [] => return document
  | (event, time) :: rest => do
    let document ← applyJobEvent document event time
    applyJobEvents document rest

/-- The document a job works on, if this workflow acts on the job at all. -/
def documentOf (job : JobState) : Option ID :=
  if job.kind = DOCUMENT_PROCESSING_JOB_KIND then
    match job.subject with
    | some subject => if subject.type = js "document" then some subject.id else none
    | none => none
  else none

/-- The action a job transition stands for, read off the job it leads to. -/
def outcomeAction (action : Action) (job : JobState) : Option OutcomeAction :=
  match action with
  | .start => none
  | .complete => some .complete
  | .fail => some (.fail (job.failureCode.getD (js "job.canceled")))
  | .retry => some .retry
  | .cancel => some (.fail (job.failureCode.getD (js "job.canceled")))

/-- What decoding the event of a transition yields, in the job's own terms. -/
def outcomeOf (action : Action) (job : JobState) : Option JobOutcome :=
  match outcomeAction action job, documentOf job with
  | some outcome, some documentId =>
    some ⟨job.organizationId, documentId, job.id, job.attempts, outcome⟩
  | _, _ => none

private theorem actionOf_event (command : Command) (job : Job) :
    actionOf command.action.eventType.name (failureCodeAt (command.payload job)) =
      outcomeAction command.action job.toJobState := by
  by_cases workflow : command = .resubmit
  · subst workflow
    rfl
  · have read : failureCodeAt (command.payload job) = job.failureCode.getD (js "job.canceled") := by
      unfold failureCodeAt
      rw [command.read_failureCode job workflow]
      cases job.failureCode <;> rfl
    rw [read]
    cases command.action <;> rfl

private theorem documentSubject_event (command : Command) (job : Job) :
    documentSubject (command.payload job) =
      (documentOf job.toJobState).bind fun _ => job.subject.map JobSubject.fields := by
  unfold documentSubject documentOf
  rw [command.read_kind, command.read_subject]
  cases job.subject with
  | none => by_cases same : job.kind = DOCUMENT_PROCESSING_JOB_KIND <;> simp [subjectValue, same]
  | some subject =>
    simp only [subjectValue, JobSubject.read_type]
    by_cases same : job.kind = DOCUMENT_PROCESSING_JOB_KIND <;>
      by_cases document : subject.type = js "document" <;> simp [same, document]

theorem subject_of_documentOf {job : JobState} {documentId : ID}
    (found : documentOf job = some documentId) :
    ∃ subject, job.subject = some subject ∧ subject.id = documentId := by
  unfold documentOf at found
  split at found
  · split at found
    · rename_i subject present
      split at found
      · exact ⟨subject, present, Option.some.inj found⟩
      · cases found
    · cases found
  · cases found

/-- Every event a command emits decodes, to the outcome its transition stands for. -/
theorem decode_event (command : Command) (context : EventContext Work) (time : Int) (job : Job) :
    decodeJobEvent (command.event context time job) = .ok (outcomeOf command.action job.toJobState) := by
  have action := actionOf_event command job
  have target := documentSubject_event command job
  have safe : job.attempts ≤ 9007199254740991 :=
    Nat.le_trans job.valid.attempts (Nat.le_trans job.valid.budget.2 (by decide))
  unfold decodeJobEvent outcomeOf
  simp only [Command.event, jobEvent, action, target]
  cases outcomeAction command.action job.toJobState with
  | none => rfl
  | some outcome =>
    cases found : documentOf job.toJobState with
    | none => rfl
    | some documentId =>
      obtain ⟨subject, present, identified⟩ := subject_of_documentOf found
      simp only [present, Option.map_some, Option.bind_some, JobSubject.read_id, idAt, parse_text,
        command.read_organizationId, command.read_jobId, attemptAt, command.read_attempts,
        JsNumber.safeNat?_ofNat safe, ok_bind, identified]
      rfl

end N2FNest.Workflows
