import N2FNest.Shared.Identifier

/-! The Job aggregate. The class constructor is private in the source, so a job
only arises from `create`, `restore`, a transition or `saved`; here the
invariant those four keep is a field of the type. -/

namespace N2FNest.Jobs

open Shared

inductive JobStatus where
  | queued | running | succeeded | failed | canceled
  deriving DecidableEq, Repr

inductive JobFailureType where
  | invalidKind | invalidSubject | invalidAttempts | invalidFailureCode | invalidCreatedAt
  | invalidState | nonMonotonicTime | invalidTime | notQueued | attemptsExhausted
  | notRunning | notFailed | notCancelable
  deriving DecidableEq, Repr

def JobFailureType.name : JobFailureType → String
  | .invalidKind => "job.invalid_kind"
  | .invalidSubject => "job.invalid_subject"
  | .invalidAttempts => "job.invalid_attempts"
  | .invalidFailureCode => "job.invalid_failure_code"
  | .invalidCreatedAt => "job.invalid_created_at"
  | .invalidState => "job.invalid_state"
  | .nonMonotonicTime => "job.non_monotonic_time"
  | .invalidTime => "job.invalid_time"
  | .notQueued => "job.not_queued"
  | .attemptsExhausted => "job.attempts_exhausted"
  | .notRunning => "job.not_running"
  | .notFailed => "job.not_failed"
  | .notCancelable => "job.not_cancelable"

/-- A domain failure; its kind is always `invalid`. -/
structure JobFailure where
  type : JobFailureType
  message : String
  deriving DecidableEq, Repr

def invalid (message : String) (type : JobFailureType) : JobFailure := ⟨type, message⟩

def JobFailure.toFailure (error : JobFailure) : Failure :=
  failure .invalid error.message error.type.name

/-- An opaque application-level subject. -/
structure JobSubject where
  type : JsString
  id : ID
  deriving DecidableEq

structure JobState where
  id : ID
  organizationId : ID
  kind : JsString
  subject : Option JobSubject
  status : JobStatus
  attempts : Nat
  maxAttempts : Nat
  createdAt : Int
  updatedAt : Int
  startedAt : Option Int
  finishedAt : Option Int
  failureCode : Option JsString
  version : Nat
  deriving DecidableEq

/-- The timestamps and failure code each status requires. -/
def JobState.Lifecycle (state : JobState) : Prop :=
  match state.status with
  | .queued => state.startedAt = none ∧ state.finishedAt = none ∧ state.failureCode = none
  | .running => state.startedAt ≠ none ∧ state.finishedAt = none ∧ state.failureCode = none ∧
      1 ≤ state.attempts
  | .succeeded => state.startedAt ≠ none ∧ state.finishedAt ≠ none ∧ state.failureCode = none
  | .failed => state.startedAt ≠ none ∧ state.finishedAt ≠ none ∧ state.failureCode ≠ none
  | .canceled => state.finishedAt ≠ none

instance JobState.lifecycleDecidable (state : JobState) : Decidable state.Lifecycle :=
  match status : state.status with
  | .queued => decidable_of_iff (state.startedAt = none ∧ state.finishedAt = none ∧
      state.failureCode = none) (by simp only [JobState.Lifecycle, status])
  | .running => decidable_of_iff (state.startedAt ≠ none ∧ state.finishedAt = none ∧
      state.failureCode = none ∧ 1 ≤ state.attempts) (by simp only [JobState.Lifecycle, status])
  | .succeeded => decidable_of_iff (state.startedAt ≠ none ∧ state.finishedAt ≠ none ∧
      state.failureCode = none) (by simp only [JobState.Lifecycle, status])
  | .failed => decidable_of_iff (state.startedAt ≠ none ∧ state.finishedAt ≠ none ∧
      state.failureCode ≠ none) (by simp only [JobState.Lifecycle, status])
  | .canceled => decidable_of_iff (state.finishedAt ≠ none)
      (by simp only [JobState.Lifecycle, status])

structure JobState.Valid (state : JobState) : Prop where
  kind : state.kind.isToken 119 = true
  subject : ∀ subject, state.subject = some subject → subject.type.isToken 63 = true
  failureCode : ∀ code, state.failureCode = some code → code.isToken 127 = true
  attempts : state.attempts ≤ state.maxAttempts
  budget : 1 ≤ state.maxAttempts ∧ state.maxAttempts ≤ 10
  time : state.createdAt ≤ state.updatedAt
  lifecycle : state.Lifecycle

structure Job extends JobState where
  valid : toJobState.Valid
  deriving DecidableEq

def kind : JsValue → Except JobFailure {text : JsString // text.isToken 119 = true}
  | .string value =>
    if accepted : value.isToken 119 = true then .ok ⟨value, accepted⟩
    else .error (invalid "job kind is invalid" .invalidKind)
  | _ => .error (invalid "job kind is invalid" .invalidKind)

def invalidSubject : JobFailure := invalid "job subject is invalid" .invalidSubject

/-- An absent subject is accepted; a present one is an object with a `type`
token and an `id` that parses. -/
def subject : JsValue →
    Except JobFailure {found : Option JobSubject //
      ∀ subject, found = some subject → subject.type.isToken 63 = true}
  | .undefined => .ok ⟨none, by simp⟩
  | .null => .ok ⟨none, by simp⟩
  | .object (fields : JsObject) =>
    match fields.read (js "type"), fields.read (js "id") with
    | .string type, .string id =>
      if accepted : type.isToken 63 = true then
        match parse (.string id) with
        | .ok id => .ok ⟨some ⟨type, id⟩, by
            intro subject same
            cases same
            exact accepted⟩
        | .error _ => .error invalidSubject
      else .error invalidSubject
    | _, _ => .error invalidSubject
  | _ => .error invalidSubject

/-- The attempt budget: three unless given, and then a safe integer from 1 to 10. -/
def attempts : JsValue → Except JobFailure {count : Nat // 1 ≤ count ∧ count ≤ 10}
  | .undefined => .ok ⟨3, by decide⟩
  | .number value =>
    match value.safeNat? with
    | some count =>
      if accepted : 1 ≤ count ∧ count ≤ 10 then .ok ⟨count, accepted⟩
      else .error (invalid "job max attempts must be between 1 and 10" .invalidAttempts)
    | none => .error (invalid "job max attempts must be between 1 and 10" .invalidAttempts)
  | _ => .error (invalid "job max attempts must be between 1 and 10" .invalidAttempts)

def failureCode : JsValue → Except JobFailure {text : JsString // text.isToken 127 = true}
  | .string value =>
    if accepted : value.isToken 127 = true then .ok ⟨value, accepted⟩
    else .error (invalid "job failure code is invalid" .invalidFailureCode)
  | _ => .error (invalid "job failure code is invalid" .invalidFailureCode)

structure CreateJobInput where
  id : ID
  organizationId : ID
  kind : JsValue
  subject : JsValue
  maxAttempts : JsValue
  createdAt : JsDate

def Job.create (input : CreateJobInput) : Except JobFailure Job := do
  let ⟨jobKind, kindValid⟩ ← Jobs.kind input.kind
  let ⟨maxAttempts, budget⟩ ← Jobs.attempts input.maxAttempts
  let ⟨jobSubject, subjectValid⟩ ← Jobs.subject input.subject
  match input.createdAt with
  | none => throw (invalid "job creation time is invalid" .invalidCreatedAt)
  | some createdAt =>
    return {
      id := input.id
      organizationId := input.organizationId
      kind := jobKind
      subject := jobSubject
      status := .queued
      attempts := 0
      maxAttempts := maxAttempts
      createdAt := createdAt
      updatedAt := createdAt
      startedAt := none
      finishedAt := none
      failureCode := none
      version := UNSAVED
      valid := {
        kind := kindValid
        subject := subjectValid
        failureCode := by simp
        attempts := Nat.zero_le _
        budget := budget
        time := Int.le_refl _
        lifecycle := ⟨rfl, rfl, rfl⟩ } }

/-- What storage hands back. Columns are typed, so a status is one of the five
and the counts are natural numbers; dates can still be invalid. -/
structure RestoreJobInput where
  id : ID
  organizationId : ID
  kind : JsValue
  subject : JsValue
  status : JobStatus
  attempts : Nat
  maxAttempts : Nat
  createdAt : JsDate
  updatedAt : JsDate
  startedAt : Option JsDate
  finishedAt : Option JsDate
  failureCode : Option JsString
  version : Nat

def invalidState (message : String) : JobFailure := invalid message .invalidState

/-- A date that may be absent, but must be valid when present. -/
def optionalDate : Option JsDate → Except JobFailure (Option Int)
  | none => .ok none
  | some none => .error (invalidState "job state is invalid")
  | some (some time) => .ok (some time)

def Job.restore (input : RestoreJobInput) : Except JobFailure Job := do
  let ⟨jobKind, kindValid⟩ ← Jobs.kind input.kind
  let ⟨jobSubject, subjectValid⟩ ← Jobs.subject input.subject
  let startedAt ← optionalDate input.startedAt
  let finishedAt ← optionalDate input.finishedAt
  match input.createdAt, input.updatedAt with
  | some createdAt, some updatedAt =>
    let state : JobState := {
      id := input.id
      organizationId := input.organizationId
      kind := jobKind
      subject := jobSubject
      status := input.status
      attempts := input.attempts
      maxAttempts := input.maxAttempts
      createdAt := createdAt
      updatedAt := updatedAt
      startedAt := startedAt
      finishedAt := finishedAt
      failureCode := input.failureCode
      version := input.version }
    if counts : (1 ≤ state.maxAttempts ∧ state.maxAttempts ≤ 10) ∧
        state.attempts ≤ state.maxAttempts ∧ isStoredVersion state.version = true ∧
        ∀ code ∈ state.failureCode, code.isToken 127 = true then
      if time : createdAt ≤ updatedAt then
        if lifecycle : state.Lifecycle then
          return ⟨state, kindValid, subjectValid, counts.2.2.2, counts.2.1, counts.1, time, lifecycle⟩
        else throw (invalidState "job lifecycle state is invalid")
      else throw (invalid "job update time cannot precede creation" .nonMonotonicTime)
    else throw (invalidState "job state is invalid")
  | _, _ => throw (invalidState "job state is invalid")

/-- This state as storage holds it after a successful write. -/
def Job.saved (job : Job) : Job where
  toJobState := { job.toJobState with version := job.version + 1 }
  valid := ⟨job.valid.kind, job.valid.subject, job.valid.failureCode, job.valid.attempts,
    job.valid.budget, job.valid.time, job.valid.lifecycle⟩

/-- Whether the job still has work ahead of it. At most one open job may exist
per subject. -/
def JobState.isOpen (state : JobState) : Bool :=
  state.status == .queued || state.status == .running ||
    (state.status == .failed && state.attempts < state.maxAttempts)

namespace Job

/-- The checked time of a transition: valid, and not before the last change. -/
def transitionTime (job : Job) : JsDate → Except JobFailure {time : Int // job.updatedAt ≤ time}
  | none => .error (invalid "job transition time is invalid" .invalidTime)
  | some time =>
    if later : job.updatedAt ≤ time then .ok ⟨time, later⟩
    else .error (invalid "job transition time cannot move backwards" .nonMonotonicTime)

def start (job : Job) (time : JsDate) : Except JobFailure Job := do
  let ⟨time, later⟩ ← job.transitionTime time
  if job.status ≠ .queued then throw (invalid "only queued jobs can start" .notQueued)
  else if left : job.attempts < job.maxAttempts then
    return {
      toJobState := { job.toJobState with
        status := .running
        attempts := job.attempts + 1
        updatedAt := time
        startedAt := some time
        finishedAt := none
        failureCode := none }
      valid := { job.valid with
        failureCode := by simp
        attempts := left
        time := Int.le_trans job.valid.time later
        lifecycle := ⟨by simp, rfl, rfl, Nat.le_add_left 1 _⟩ } }
  else throw (invalid "job attempts are exhausted" .attemptsExhausted)

def complete (job : Job) (time : JsDate) : Except JobFailure Job := do
  let ⟨time, later⟩ ← job.transitionTime time
  if running : job.status = .running then
    return {
      toJobState := { job.toJobState with
        status := .succeeded
        updatedAt := time
        finishedAt := some time }
      valid := { job.valid with
        time := Int.le_trans job.valid.time later
        lifecycle := by
          have shape := job.valid.lifecycle
          simp only [JobState.Lifecycle, running] at shape
          exact ⟨shape.1, by simp, shape.2.2.1⟩ } }
  else throw (invalid "only running jobs can complete" .notRunning)

def fail (job : Job) (time : JsDate) (code : JsValue) : Except JobFailure Job := do
  let ⟨time, later⟩ ← job.transitionTime time
  if running : job.status = .running then
    let ⟨reason, accepted⟩ ← Jobs.failureCode code
    return {
      toJobState := { job.toJobState with
        status := .failed
        updatedAt := time
        finishedAt := some time
        failureCode := some reason }
      valid := { job.valid with
        failureCode := by
          intro code same
          cases same
          exact accepted
        time := Int.le_trans job.valid.time later
        lifecycle := by
          have shape := job.valid.lifecycle
          simp only [JobState.Lifecycle, running] at shape
          exact ⟨shape.1, by simp, by simp⟩ } }
  else throw (invalid "only running jobs can fail" .notRunning)

def retry (job : Job) (time : JsDate) : Except JobFailure Job := do
  let ⟨time, later⟩ ← job.transitionTime time
  if job.status ≠ .failed then throw (invalid "only failed jobs can retry" .notFailed)
  else if job.attempts < job.maxAttempts then
    return {
      toJobState := { job.toJobState with
        status := .queued
        updatedAt := time
        startedAt := none
        finishedAt := none
        failureCode := none }
      valid := { job.valid with
        failureCode := by simp
        time := Int.le_trans job.valid.time later
        lifecycle := ⟨rfl, rfl, rfl⟩ } }
  else throw (invalid "job attempts are exhausted" .attemptsExhausted)

def cancel (job : Job) (time : JsDate) : Except JobFailure Job := do
  let ⟨time, later⟩ ← job.transitionTime time
  if job.status = .succeeded ∨ job.status = .canceled then
    throw (invalid "job cannot be canceled in its current state" .notCancelable)
  else
    return {
      toJobState := { job.toJobState with
        status := .canceled
        updatedAt := time
        finishedAt := some time
        failureCode := none }
      valid := { job.valid with
        failureCode := by simp
        time := Int.le_trans job.valid.time later
        lifecycle := by simp [JobState.Lifecycle] } }

end Job

end N2FNest.Jobs
