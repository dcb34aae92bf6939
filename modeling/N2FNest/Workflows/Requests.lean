import N2FNest.Documents.InMemory
import N2FNest.Workflows.JobEvents

/-! Document processing as a protocol: requests check, submit and begin in
separate steps, jobs transition and emit events, and the events reach the
documents whenever they do. -/

namespace N2FNest.Workflows

open Documents Events Jobs Lib Shared

variable {Work : Type} [DecidableEq Work]

/-- `CheckDocumentProcessable.execute`. -/
def checkDocumentProcessable (documents : DocumentStore) (organizationId documentId : ID) :
    Except Failure Unit :=
  match documents.get documentId with
  | none => .error documentNotFound
  | some document =>
    if document.organizationId ≠ organizationId then .error documentNotFound
    else if document.status = .archived then
      .error (failure .invalid "archived documents cannot be processed" "document.archived")
    else if document.status = .processed then
      .error (failure .invalid "document has already been processed" "document.already_processed")
    else .ok ()

/-- `SubmitWorkflowJob.execute` as one step: no other commit comes between its
search for an open job and its own commit. -/
def submitWorkflowJob (jobs : JobStore) (organizationId : ID) (kind : JsString)
    (subject : JobSubject) (maxAttempts : JsValue) (jobId : ID) (context : EventContext Work)
    (time : Int) : Except Failure (ID × JobStore × List (Envelope Work)) :=
  match openJobBySubject jobs organizationId kind subject with
  | some job =>
    if job.status ≠ .failed then .ok (job.id, jobs, [])
    else do
      let retried ← (job.retry (some time)).mapError JobFailure.toFailure
      let event := Command.resubmit.event context time retried
      let jobs ← JobStore.commit jobs ⟨.update, retried, event, context.work⟩
      return (job.id, jobs, [event])
  | none => do
    let job ← (Job.create {
      id := jobId
      organizationId := organizationId
      kind := .string kind
      subject := subjectValue (some subject)
      maxAttempts := maxAttempts
      createdAt := some time }).mapError JobFailure.toFailure
    let event := jobEvent context .submitted time job (SubmitWorkflowJob.payload job)
    let jobs ← JobStore.commit jobs ⟨.create, job, event, context.work⟩
    return (job.id, jobs, [event])

/-- `ProcessDocument.execute`: only a changed document is committed. -/
def processDocument (documents : DocumentStore) (organizationId documentId : ID)
    (transition : Document → Except DocumentFailure Document) : Except Failure DocumentStore :=
  match documents.get documentId with
  | none => .error documentNotFound
  | some document =>
    if document.organizationId ≠ organizationId then .error documentNotFound
    else match transition document with
      | .error error => .error error.toFailure
      | .ok changed => .ok (if changed = document then documents else documents.set changed.saved)

/-- `DocumentProcessingJobEventSubscription.handle`. -/
def handle (documents : DocumentStore) (event : Envelope Work) (time : Int) :
    Except Failure DocumentStore := do
  match ← decodeJobEvent event with
  | none => return documents
  | some outcome =>
    processDocument documents outcome.organizationId outcome.documentId
      fun document => document.applyProcessingOutcome (some time) outcome.processing

/-- How far a request has come. -/
inductive Stage where
  | idle
  | checked (organizationId documentId : ID) (maxAttempts : JsValue)
  | submitted (organizationId documentId jobId : ID)

/-- An emitted event, and whether it has been delivered since. -/
structure Posted (Work : Type) where
  event : Envelope Work
  delivered : Bool

structure Protocol (Work : Type) where
  documents : DocumentStore
  jobs : JobStore
  posted : List (Posted Work)
  requests : Nat → Stage

inductive ProtocolLabel (Work : Type) where
  | upload (input : CreateDocumentInput)
  | check (request : Nat) (organizationId documentId : ID) (maxAttempts : JsValue)
  | submit (request : Nat) (jobId : ID) (context : EventContext Work) (time : Int)
  | beginProcessing (request : Nat) (time : Int)
  | transition (jobId : ID) (command : Command) (context : EventContext Work) (time : Int)
  | deliver (index : Nat) (time : Int)

namespace Protocol

def initial : Protocol Work := ⟨Table.empty, Table.empty, [], fun _ => .idle⟩

def post (state : Protocol Work) (events : List (Envelope Work)) : List (Posted Work) :=
  state.posted ++ events.map (⟨·, false⟩)

def upload (state : Protocol Work) (input : CreateDocumentInput) : Protocol Work :=
  match Document.create input, state.documents.get input.id with
  | .ok document, none => { state with documents := state.documents.set document.saved }
  | _, _ => state

def check (state : Protocol Work) (request : Nat) (organizationId documentId : ID)
    (maxAttempts : JsValue) : Protocol Work :=
  match state.requests request,
      checkDocumentProcessable state.documents organizationId documentId with
  | .idle, .ok () =>
    { state with requests :=
        Function.update state.requests request (.checked organizationId documentId maxAttempts) }
  | _, _ => state

/-- A request that fails to submit ends. -/
def submit (state : Protocol Work) (request : Nat) (jobId : ID) (context : EventContext Work)
    (time : Int) : Protocol Work :=
  match state.requests request with
  | .checked organizationId documentId maxAttempts =>
    match submitWorkflowJob state.jobs organizationId DOCUMENT_PROCESSING_JOB_KIND
        ⟨js "document", documentId⟩ maxAttempts jobId context time with
    | .ok (jobId, jobs, events) =>
      { state with
        jobs := jobs
        posted := state.post events
        requests := Function.update state.requests request
          (.submitted organizationId documentId jobId) }
    | .error _ => { state with requests := Function.update state.requests request .idle }
  | _ => state

def beginProcessing (state : Protocol Work) (request : Nat) (time : Int) : Protocol Work :=
  match state.requests request with
  | .submitted organizationId documentId jobId =>
    let ended := Function.update state.requests request .idle
    match processDocument state.documents organizationId documentId
        (fun document => document.beginProcessing (some time) jobId) with
    | .ok documents => { state with documents := documents, requests := ended }
    | .error _ => { state with requests := ended }
  | _ => state

def transition (state : Protocol Work) (jobId : ID) (command : Command)
    (context : EventContext Work) (time : Int) : Protocol Work :=
  match state.jobs.get jobId with
  | none => state
  | some job =>
    match command.apply job (some time) with
    | .error _ => state
    | .ok next =>
      let event := command.event context time next
      match JobStore.commit state.jobs ⟨.update, next, event, context.work⟩ with
      | .ok jobs => { state with jobs := jobs, posted := state.post [event] }
      | .error _ => state

/-- A delivery counts as one whether or not its handler succeeds. -/
def deliver (state : Protocol Work) (index : Nat) (time : Int) : Protocol Work :=
  match state.posted[index]? with
  | none => state
  | some posted =>
    { state with
      documents := (handle state.documents posted.event time).toOption.getD state.documents
      posted := state.posted.set index { posted with delivered := true } }

def step (state : Protocol Work) : ProtocolLabel Work → Protocol Work
  | .upload input => state.upload input
  | .check request organizationId documentId maxAttempts =>
    state.check request organizationId documentId maxAttempts
  | .submit request jobId context time => state.submit request jobId context time
  | .beginProcessing request time => state.beginProcessing request time
  | .transition jobId command context time => state.transition jobId command context time
  | .deliver index time => state.deliver index time

end Protocol

theorem submitWorkflowJob_inv {jobs next : JobStore} {organizationId : ID} {kind : JsString}
    {subject : JobSubject} {maxAttempts : JsValue} {jobId submitted : ID}
    {context : EventContext Work} {time : Int} {events : List (Envelope Work)}
    (done : submitWorkflowJob jobs organizationId kind subject maxAttempts jobId context time =
      .ok (submitted, next, events)) :
    ∃ job : Job, submitted = job.id ∧ job.organizationId = organizationId ∧ job.kind = kind ∧
      job.subject = some subject ∧
      (job ∈ jobs.rows ∧ next = jobs ∧ events = [] ∨
        (∃ retried : Job, job ∈ jobs.rows ∧ Command.resubmit.apply job (some time) = .ok retried ∧
          next = jobs.set retried.saved ∧ events = [Command.resubmit.event context time retried]) ∨
        jobs.get job.id = none ∧ next = jobs.set job.saved ∧
          events = [jobEvent context .submitted time job (SubmitWorkflowJob.payload job)]) := by
  unfold submitWorkflowJob at done
  split at done
  · rename_i job found
    obtain ⟨present, opens⟩ := openJobBySubject_inv found
    obtain ⟨_, organization, kinds, about⟩ := JobState.opens_iff.mp opens
    split at done
    · cases done
      exact ⟨job, rfl, organization, kinds, about, .inl ⟨present, rfl, rfl⟩⟩
    · obtain ⟨retried, again, rest⟩ := bind_ok done
      obtain ⟨stored, committed, same⟩ := bind_ok rest
      cases pure_eq_ok.mp same
      exact ⟨job, rfl, organization, kinds, about, .inr (.inl ⟨retried, present, mapError_ok again,
        (JobStore.commit_inv committed).1, rfl⟩)⟩
  · obtain ⟨job, created, rest⟩ := bind_ok done
    obtain ⟨stored, committed, same⟩ := bind_ok rest
    cases pure_eq_ok.mp same
    obtain ⟨named, organization, kinds, _, _, _, valid, about⟩ := Job.create_inv (mapError_ok created)
    obtain ⟨stores, fresh⟩ := JobStore.commit_inv committed
    refine ⟨job, rfl, organization, ?_, subject_of_value about, .inr (.inr ⟨fresh rfl, stores, rfl⟩)⟩
    exact (JsValue.string.inj kinds).symm

theorem processDocument_inv {documents next : DocumentStore} {organizationId documentId : ID}
    {transition : Document → Except DocumentFailure Document}
    (done : processDocument documents organizationId documentId transition = .ok next) :
    ∃ document changed, documents.get documentId = some document ∧
      document.organizationId = organizationId ∧ transition document = .ok changed ∧
      next = if changed = document then documents else documents.set changed.saved := by
  unfold processDocument at done
  split at done
  · cases done
  · rename_i document found
    split at done
    · cases done
    · rename_i organization
      split at done
      · cases done
      · rename_i changed moved
        exact ⟨document, changed, found, not_not.mp organization, moved, (Except.ok.inj done).symm⟩

/-- The document a command leaves in the store. -/
def processed (organizationId documentId : ID)
    (transition : Document → Except DocumentFailure Document) (document : Document) : Document :=
  if document.id = documentId ∧ document.organizationId = organizationId then
    match transition document with
    | .ok changed => if changed = document then document else changed.saved
    | .error _ => document
  else document

/-- A command acts on one document of the store and on no other. -/
theorem get_processDocument (documents : DocumentStore) (organizationId documentId : ID)
    {transition : Document → Except DocumentFailure Document}
    (keeps : ∀ document changed, transition document = .ok changed → changed.id = document.id)
    (id : ID) :
    ((processDocument documents organizationId documentId transition).toOption.getD documents).get
        id = (documents.get id).map (processed organizationId documentId transition) := by
  cases result : processDocument documents organizationId documentId transition with
  | error failure =>
    cases found : documents.get id with
    | none => exact found
    | some document =>
      have same : processed organizationId documentId transition document = document := by
        unfold processed
        split
        · rename_i addressed
          have named : documents.get documentId = some document := by
            rw [← addressed.1, DocumentStore.id_of_get found, found]
          cases moved : transition document with
          | error other => rfl
          | ok changed => simp [processDocument, named, addressed.2, moved] at result
        · rfl
      simp [Except.toOption, found, same]
  | ok next =>
    obtain ⟨target, changed, present, organization, moved, stored⟩ := processDocument_inv result
    have named := DocumentStore.id_of_get present
    have kept := (keeps target changed moved).trans named
    simp only [Except.toOption, Option.getD_some, stored]
    by_cases here : id = documentId
    · subst here
      simp only [present, Option.map_some, processed, named, organization, and_self, if_true, moved]
      split
      · exact present
      · rw [← kept]
        exact Table.get_set_same documents changed.saved
    · have elsewhere : documents.get id =
          (documents.get id).map (processed organizationId documentId transition) := by
        cases found : documents.get id with
        | none => rfl
        | some document =>
          have other : document.id ≠ documentId := by
            rw [DocumentStore.id_of_get found]
            exact here
          simp [processed, other]
      split
      · exact elsewhere
      · rw [Table.get_set_other documents (by rw [← kept] at here; exact Ne.symm here)]
        exact elsewhere

end N2FNest.Workflows
