import N2FNest.Events.Envelope
import N2FNest.Jobs.Transition

/-! The events Jobs emits. Three commands transition a job and each builds its
own payload; what a consumer reads from them is the same. -/

namespace N2FNest.Jobs

open Events Lib Shared

inductive JobEventType where
  | submitted | started | completed | failed | retried | canceled
  deriving DecidableEq, Repr

def JobEventType.name : JobEventType → JsString
  | .submitted => js "job.submitted.v1"
  | .started => js "job.started.v1"
  | .completed => js "job.completed.v1"
  | .failed => js "job.failed.v1"
  | .retried => js "job.retried.v1"
  | .canceled => js "job.canceled.v1"

theorem JobEventType.name_inj {left right : JobEventType} (same : left.name = right.name) :
    left = right := by
  revert same
  cases left <;> cases right <;> decide

def JobStatus.name : JobStatus → JsString
  | .queued => js "queued"
  | .running => js "running"
  | .succeeded => js "succeeded"
  | .failed => js "failed"
  | .canceled => js "canceled"

theorem JobStatus.name_inj {left right : JobStatus} (same : left.name = right.name) :
    left = right := by
  revert same
  cases left <;> cases right <;> decide

def JobSubject.fields (subject : JobSubject) : JsObject :=
  [(js "type", .string subject.type), (js "id", .string subject.id.text)]

@[simp] theorem JobSubject.read_type (subject : JobSubject) :
    subject.fields.read (js "type") = .string subject.type := rfl

@[simp] theorem JobSubject.read_id (subject : JobSubject) :
    subject.fields.read (js "id") = .string subject.id.text := rfl

def subjectValue : Option JobSubject → JsValue
  | none => .null
  | some subject => .object subject.fields

/-- A subject written out as a value reads back as itself. -/
theorem subject_of_value {subject : JobSubject}
    {found : {found : Option JobSubject //
      ∀ subject, found = some subject → subject.type.isToken 63 = true}}
    (read : Jobs.subject (subjectValue (some subject)) = .ok found) : found.val = some subject := by
  simp only [subjectValue, Jobs.subject, JobSubject.read_type, JobSubject.read_id, parse_text] at read
  split at read
  · cases read
    rfl
  · cases read

def codeValue : Option JsString → JsValue
  | none => .null
  | some code => .string code

/-- The failure code recorded for a job reclaimed after running too long. -/
def JOB_TIMED_OUT : JsString := js "job.timed_out"

def TransitionJob.payload (identityId : ID) (job : Job) : JsObject :=
  [(js "organization_id", .string job.organizationId.text),
    (js "job_id", .string job.id.text),
    (js "identity_id", .string identityId.text),
    (js "kind", .string job.kind),
    (js "subject", subjectValue job.subject),
    (js "status", .string job.status.name),
    (js "attempts", .number (.ofNat job.attempts)),
    (js "failure_code", codeValue job.failureCode)]

def ExpireStaleJobs.payload (job : Job) : JsObject :=
  [(js "organization_id", .string job.organizationId.text),
    (js "job_id", .string job.id.text),
    (js "kind", .string job.kind),
    (js "subject", subjectValue job.subject),
    (js "status", .string job.status.name),
    (js "attempts", .number (.ofNat job.attempts)),
    (js "failure_code", codeValue job.failureCode)]

def SubmitWorkflowJob.payload (job : Job) : JsObject :=
  [(js "organization_id", .string job.organizationId.text),
    (js "job_id", .string job.id.text),
    (js "kind", .string job.kind),
    (js "subject", subjectValue job.subject),
    (js "status", .string job.status.name),
    (js "attempts", .number (.ofNat job.attempts)),
    (js "max_attempts", .number (.ofNat job.maxAttempts))]

def SubmitJob.payload (identityId : ID) (job : Job) : JsObject :=
  [(js "organization_id", .string job.organizationId.text),
    (js "job_id", .string job.id.text),
    (js "identity_id", .string identityId.text),
    (js "kind", .string job.kind),
    (js "subject", subjectValue job.subject),
    (js "status", .string job.status.name),
    (js "max_attempts", .number (.ofNat job.maxAttempts))]

/-- What a command adds to the job's own data when it emits an event. -/
structure EventContext (Work : Type) where
  eventId : ID
  work : Work

variable {Work : Type}

def jobEvent (context : EventContext Work) (type : JobEventType) (time : Int) (job : Job)
    (payload : JsObject) : Envelope Work where
  id := context.eventId
  type := type.name
  occurredAtMs := time
  work := context.work
  payload := payload
  subject := some ⟨js "job", job.id⟩
  tenant := some job.organizationId

/-- The event each `TransitionJob` subclass is constructed with. -/
def Action.eventType : Action → JobEventType
  | .start => .started
  | .complete => .completed
  | .fail => .failed
  | .retry => .retried
  | .cancel => .canceled

/-- The commands that transition a job: `TransitionJob` with its action,
`ExpireStaleJobs`, and `SubmitWorkflowJob` when it reuses a failed job. -/
inductive Command where
  | transition (action : Action) (identityId : ID) (failureCode : JsValue)
  | expire
  | resubmit

def Command.action : Command → Action
  | .transition action _ _ => action
  | .expire => .fail
  | .resubmit => .retry

def Command.apply (command : Command) (job : Job) (time : JsDate) : Except JobFailure Job :=
  match command with
  | .transition action _ code => Jobs.transition job action time code
  | .expire => job.fail time (.string JOB_TIMED_OUT)
  | .resubmit => job.retry time

def Command.payload (command : Command) (job : Job) : JsObject :=
  match command with
  | .transition _ identityId _ => TransitionJob.payload identityId job
  | .expire => ExpireStaleJobs.payload job
  | .resubmit => SubmitWorkflowJob.payload job

def Command.event (command : Command) (context : EventContext Work) (time : Int) (job : Job) :
    Envelope Work :=
  jobEvent context command.action.eventType time job (command.payload job)

theorem Command.apply_inv {command : Command} {job next : Job} {time : JsDate}
    (done : command.apply job time = .ok next) :
    Kept job next ∧ Advances job next command.action := by
  cases command with
  | transition action identityId code => exact transition_inv done
  | expire => exact Job.fail_inv done
  | resubmit => exact Job.retry_inv done

section Reads

variable (command : Command) (job : Job)

theorem Command.read_organizationId : (command.payload job).read (js "organization_id") =
    .string job.organizationId.text := by
  cases command <;> rfl

theorem Command.read_jobId :
    (command.payload job).read (js "job_id") = .string job.id.text := by
  cases command <;> rfl

theorem Command.read_kind : (command.payload job).read (js "kind") = .string job.kind := by
  cases command <;> rfl

theorem Command.read_subject :
    (command.payload job).read (js "subject") = subjectValue job.subject := by
  cases command <;> rfl

theorem Command.read_status :
    (command.payload job).read (js "status") = .string job.status.name := by
  cases command <;> rfl

theorem Command.read_attempts :
    (command.payload job).read (js "attempts") = .number (.ofNat job.attempts) := by
  cases command <;> rfl

/-- Only the workflow's retry leaves the failure code out. -/
theorem Command.read_failureCode (other : command ≠ .resubmit) :
    (command.payload job).read (js "failure_code") = codeValue job.failureCode := by
  cases command with
  | resubmit => exact absurd rfl other
  | transition action identityId code => rfl
  | expire => rfl

end Reads

/-- A job's life from its creation on: the job as it stands and the events its
transitions emitted, in order. -/
inductive History (first : Job) : Job → List (Envelope Work) → Prop where
  | created : History first first []
  | step (earlier : History first job events) (command : Command) (time : Int)
      (done : command.apply job (some time) = .ok next) (context : EventContext Work) :
      History first next (events ++ [command.event context time next])

theorem History.kept {first job : Job} {events : List (Envelope Work)}
    (history : History first job events) : Kept first job := by
  induction history with
  | created => exact Kept.refl first
  | step _ _ _ done _ ih => exact ih.trans (Command.apply_inv done).1

/-- What has been emitted so far is the history of the job as it stood then. -/
theorem History.truncate {first job : Job} {events earlier : List (Envelope Work)}
    (history : History first job events) (start : earlier <+: events) :
    ∃ past, History first past earlier := by
  induction history with
  | created =>
    cases List.prefix_nil.mp start
    exact ⟨first, .created⟩
  | step before command time done context ih =>
    rcases List.prefix_concat_iff.mp start with whole | shorter
    · subst whole
      exact ⟨_, .step before command time done context⟩
    · exact ih shorter

/-- Run commands one after another, each at its own time, and collect the events. -/
def perform (context : EventContext Work) (job : Job) :
    List (Command × Int) → Except JobFailure (Job × List (Envelope Work))
  | [] => return (job, [])
  | (command, time) :: rest => do
    let next ← command.apply job (some time)
    let (final, events) ← perform context next rest
    return (final, command.event context time next :: events)

/-- A new job, the job a sequence of commands makes of it, and their events. -/
def createAndPerform (context : EventContext Work) (input : CreateJobInput)
    (steps : List (Command × Int)) : Except JobFailure (Job × Job × List (Envelope Work)) := do
  let first ← Job.create input
  let (final, events) ← perform context first steps
  return (first, final, events)

private theorem History.perform {first job final : Job} {before events : List (Envelope Work)}
    {context : EventContext Work} {steps : List (Command × Int)} (history : History first job before)
    (done : perform context job steps = .ok (final, events)) :
    History first final (before ++ events) := by
  induction steps generalizing job before events with
  | nil =>
    cases done
    rwa [List.append_nil]
  | cons step rest ih =>
    obtain ⟨command, time⟩ := step
    obtain ⟨next, applied, more⟩ := bind_ok done
    obtain ⟨⟨last, later⟩, performed, same⟩ := bind_ok more
    cases same
    have longer := ih (history.step command time applied context) performed
    rwa [List.append_assoc] at longer

theorem createAndPerform_history {first final : Job} {events : List (Envelope Work)}
    {context : EventContext Work} {input : CreateJobInput} {steps : List (Command × Int)}
    (done : createAndPerform context input steps = .ok (first, final, events)) :
    Job.create input = .ok first ∧ History first final events := by
  obtain ⟨job, created, more⟩ := bind_ok done
  obtain ⟨⟨last, emitted⟩, performed, same⟩ := bind_ok more
  cases same
  exact ⟨created, History.created.perform performed⟩

end N2FNest.Jobs
