import N2FNest.Jobs.Postgres

/-! `SubmitWorkflowJob` over PostgreSQL. A call searches, decides and commits in
separate steps, so any other call can commit in between; the calls for one
subject still agree on one job. -/

namespace N2FNest.Jobs

open Events Lib Shared

/-- The kind under which Jobs reports a failure of its own. -/
def knownFailure (error : Failure) : Option Failure :=
  match error.type with
  | none => none
  | some type =>
    let report (kind : Kind) := some (failure kind error.message type)
    if type ∈ ["job.access_forbidden", "job.submit_forbidden", "job.transition_forbidden"] then
      report .forbidden
    else if type ∈ ["job.already_exists", "job.stale_write", "job.subject_taken",
        "job.organization_mismatch"] then report .conflict
    else if type = "job.id_generation" then report .unavailable
    else if type ∈ ["job.invalid_operation", "job.invalid_page"] then report .invalid
    else if type = "job.not_found" then report .notFound
    else if type = "job.persistence_invalid" then report .internal
    else if type = "jobs.missing_token" then report .unauthenticated
    else none

/-- A dependency's failure as the application reports it. -/
def dependencyFailure (error : Failure) : Failure :=
  match knownFailure error with
  | some known => known
  | none => match error.kind with
    | .invalid => failure .internal "Job dependency returned an invalid outcome"
        "job.dependency_invalid"
    | .notFound => failure .notFound "Job dependency could not find the required record"
        "job.dependency_not_found"
    | .conflict => failure .conflict "Job dependency rejected the operation as a conflict"
        "job.dependency_conflict"
    | .unauthenticated => failure .unauthenticated "Job dependency rejected authentication"
        "job.dependency_unauthenticated"
    | .forbidden => failure .forbidden "Job dependency rejected authorization"
        "job.dependency_forbidden"
    | .rateLimited => failure .rateLimited "Job dependency is rate limited"
        "job.dependency_rate_limited"
    | .unavailable => failure .unavailable "Job dependency is unavailable"
        "job.dependency_unavailable"
    | .timeout => failure .timeout "Job dependency timed out" "job.dependency_timeout"
    | .canceled => failure .canceled "Job dependency operation was canceled"
        "job.dependency_canceled"
    | .internal => failure .internal "Job dependency failed internally" "job.dependency_internal"

def idGenerationFailure (_ : Failure) : Failure :=
  failure .unavailable "Job ID generation failed" "job.id_generation"

def invalidOperation : Failure :=
  failure .invalid "workflow job operation is invalid" "job.invalid_operation"

/-- What the calls have in common. -/
structure Target where
  organizationId : ID
  kind : JsString
  subject : JobSubject

def Target.opens (target : Target) (state : JobState) : Bool :=
  state.opens target.organizationId target.kind target.subject

structure SubmitResult where
  jobId : ID
  status : JobStatus
  created : Bool

/-- What a step takes from outside: the call's own arguments, the clock, the id
generator and the envelope's checks, and a failure of the database. -/
structure Choices (Work : Type) where
  operation : String
  maxAttempts : JsValue
  work : Work
  time : Int
  jobId : Except Failure ID
  eventId : Except Failure ID
  envelope : Except Failure Unit
  fault : Option Failure

/-- Where a call stands between two steps. -/
inductive Phase (Work : Type) where
  | ready
  | creating (job : Job) (event : Envelope Work)
  | searching (refused : Failure)
  | retrying (job retried : Job) (event : Envelope Work)
  | returned (result : Except Failure SubmitResult)

variable {Work : Type} [DecidableEq Work]

namespace SubmitWorkflowJob

def event (choices : Choices Work) (type : JobEventType) (job : Job) :
    Except Failure (Envelope Work) := do
  let eventId ← choices.eventId.mapError idGenerationFailure
  choices.envelope.mapError dependencyFailure
  return jobEvent ⟨eventId, choices.work⟩ type choices.time job (SubmitWorkflowJob.payload job)

def «open» (target : Target) (jobs : JobTable) (fault : Option Failure) :
    Except Failure (Option Job) :=
  match fault with
  | some error => .error (dependencyFailure error)
  | none => (findOpenBySubject jobs target.organizationId target.kind target.subject).mapError
      dependencyFailure

/-- Return an open job as it is, or queue a failed one for another attempt. -/
def reuse (job : Job) (choices : Choices Work) : Phase Work :=
  if job.status ≠ .failed then .returned (.ok ⟨job.id, job.status, false⟩)
  else
    let prepared : Except Failure (Job × Envelope Work) := do
      let retried ← (job.retry (some choices.time)).mapError JobFailure.toFailure
      return (retried, ← event choices .retried retried)
    match prepared with
    | .error error => .returned (.error error)
    | .ok (retried, event) => .retrying job retried event

/-- No open job was found: prepare a new one. -/
def submit (target : Target) (choices : Choices Work) : Phase Work :=
  let prepared : Except Failure (Job × Envelope Work) := do
    let jobId ← choices.jobId.mapError idGenerationFailure
    let job ← (Job.create {
      id := jobId
      organizationId := target.organizationId
      kind := .string target.kind
      subject := subjectValue (some target.subject)
      maxAttempts := choices.maxAttempts
      createdAt := some choices.time }).mapError JobFailure.toFailure
    return (job, ← event choices .submitted job)
  match prepared with
  | .error error => .returned (.error error)
  | .ok (job, event) => .creating job event

/-- The next step of `execute`, and the database after it. -/
def advance (target : Target) (database : JobDatabase Work) (choices : Choices Work) :
    Phase Work → Phase Work × JobDatabase Work
  | .ready =>
    if choices.operation ≠ "job.submit.workflow" then (.returned (.error invalidOperation), database)
    else match SubmitWorkflowJob.open target database.jobs choices.fault with
      | .error error => (.returned (.error error), database)
      | .ok (some job) => (reuse job choices, database)
      | .ok none => (submit target choices, database)
  | .creating job event =>
    match database.commit ⟨.create, job, event, event.work⟩ choices.fault with
    | .ok next => (.returned (.ok ⟨job.id, job.status, true⟩), next)
    | .error error =>
      -- a concurrent submission for the same subject committed first
      if error.type = some "job.subject_taken" then (.searching error, database)
      else (.returned (.error (dependencyFailure error)), database)
  | .searching refused => match SubmitWorkflowJob.open target database.jobs choices.fault with
    | .error error => (.returned (.error error), database)
    | .ok (some job) => (reuse job choices, database)
    | .ok none => (.returned (.error (dependencyFailure refused)), database)
  | .retrying job retried event =>
    match database.commit ⟨.update, retried, event, event.work⟩ choices.fault with
    | .ok next => (.returned (.ok ⟨job.id, retried.status, false⟩), next)
    | .error error => (.returned (.error (dependencyFailure error)), database)
  | .returned result => (.returned result, database)

end SubmitWorkflowJob

/-- A row with this id is open for the target. -/
def Target.Served (target : Target) (jobs : JobTable) (id : ID) : Prop :=
  ∃ row ∈ jobs.rows, row.id = id ∧ target.opens row.state = true

/-- What a call has to know about the table where it stands. -/
def Phase.Sound (target : Target) (jobs : JobTable) : Phase Work → Prop
  | .creating job _ => target.opens job.toJobState = true
  | .retrying job retried _ => retried.id = job.id ∧ target.opens retried.toJobState = true
  | .returned (.ok result) => target.Served jobs result.jobId
  | _ => True

/-- The call has reported `created = true`. -/
def Phase.Created : Phase Work → Prop
  | .returned (.ok result) => result.created = true
  | _ => False

namespace SubmitWorkflowJob

variable {target : Target}

/-- A search answers with an open row's job, with nothing, or with a failure. -/
private theorem open_ok {jobs : JobTable} {fault : Option Failure} {job : Job}
    (found : SubmitWorkflowJob.open target jobs fault = .ok (some job)) :
    ∃ row ∈ jobs.rows, target.opens row.state = true ∧ job = row.job := by
  cases fault with
  | some error => cases found
  | none =>
    have found := mapError_ok found
    rcases findOpenBySubject_inv jobs target.organizationId target.kind target.subject with
      ⟨missing, _⟩ | ⟨row, member, opens, same⟩
    · rw [missing] at found
      cases found
    · rw [same] at found
      cases found
      exact ⟨row, member, opens, rfl⟩

/-- A retried job stays open for its subject. -/
private theorem retry_opens {job retried : Job} {time : JsDate} (done : job.retry time = .ok retried)
    (opens : target.opens job.toJobState = true) : target.opens retried.toJobState = true := by
  obtain ⟨kept, moved⟩ := Job.retry_inv done
  obtain ⟨_, organization, kinds, about⟩ := JobState.opens_iff.mp opens
  apply JobState.opens_iff.mpr
  refine ⟨?_, kept.organizationId.trans organization, kept.kind.trans kinds,
    kept.subject.trans about⟩
  cases moved with
  | retry _ _ status => exact (JobState.isOpen_iff _).mpr (.inl status)

omit [DecidableEq Work] in
private theorem reuse_sound {jobs : JobTable} {row : JobRow} (member : row ∈ jobs.rows)
    (opens : target.opens row.state = true) (choices : Choices Work) :
    (reuse row.job choices).Sound target jobs ∧ ¬ (reuse row.job choices).Created := by
  unfold reuse
  split
  · exact ⟨⟨row, member, rfl, opens⟩, by simp [Phase.Created]⟩
  · dsimp only
    split
    · exact ⟨trivial, not_false⟩
    · rename_i retried event prepared
      obtain ⟨next, retry, rest⟩ := bind_ok prepared
      obtain ⟨_, _, same⟩ := bind_ok rest
      cases pure_eq_ok.mp same
      have retry := mapError_ok retry
      exact ⟨⟨(Job.retry_inv retry).1.id, retry_opens retry opens⟩, not_false⟩

omit [DecidableEq Work] in
private theorem submit_sound (jobs : JobTable) (choices : Choices Work) :
    (submit target choices).Sound target jobs ∧ ¬ (submit target choices).Created := by
  unfold submit
  dsimp only
  split
  · exact ⟨trivial, not_false⟩
  · rename_i job event prepared
    obtain ⟨_, _, rest⟩ := bind_ok prepared
    obtain ⟨created, create, rest⟩ := bind_ok rest
    obtain ⟨_, _, same⟩ := bind_ok rest
    cases pure_eq_ok.mp same
    obtain ⟨_, organization, kinds, status, _, _, _, about⟩ := Job.create_inv (mapError_ok create)
    have kinds : job.kind = target.kind := (JsValue.string.inj kinds).symm
    exact ⟨JobState.opens_iff.mpr ⟨(JobState.isOpen_iff _).mpr (.inl status), organization, kinds,
      subject_of_value about⟩, not_false⟩

/-- An accepted commit of a job that is open for the target serves the target with
that job, and every id that was served is the same job's. -/
private theorem commit_serves {database next : JobDatabase Work} {input : Commit Job Work}
    {fault : Option Failure} (done : database.commit input fault = .ok next)
    (opens : target.opens input.row.toJobState = true) :
    target.Served next.jobs input.row.id ∧
      ∀ id, target.Served database.jobs id → id = input.row.id ∧ input.mode = .update := by
  obtain ⟨row, writes, free, stored, _⟩ := JobDatabase.commit_inv done
  have mine : target.opens row.state = true := (writes.opens _ _ _).trans opens
  refine ⟨⟨row, ?_, writes.id, mine⟩, ?_⟩
  · rw [stored]
    exact Table.mem_set.mpr (.inl rfl)
  · rintro id ⟨other, member, named, also⟩
    have same : other.id = input.row.id := (untaken free mine member also).trans writes.id
    refine ⟨named.symm.trans same, ?_⟩
    cases mode : input.mode with
    | update => rfl
    | create =>
      -- the row of an accepted insert is new, so no other row has its id
      rw [mode] at writes
      cases writes with
      | create fresh =>
        have present : database.jobs.get other.id = some other := Table.get_of_mem member
        rw [same, fresh] at present
        cases present

/-- What one step of a call does for every other call. -/
structure Converges (target : Target) (before after : JobDatabase Work)
    (phase next : Phase Work) : Prop where
  unique : UniqueOpenRow after.jobs
  sound : next.Sound target after.jobs
  serves : ∀ id, target.Served before.jobs id → target.Served after.jobs id
  first : next.Created → phase.Created ∨ ∀ id, ¬ target.Served before.jobs id

omit [DecidableEq Work] in
private theorem Converges.idle {database : JobDatabase Work} {phase next : Phase Work}
    (unique : UniqueOpenRow database.jobs)
    (sound : next.Sound target database.jobs ∧ ¬ next.Created) :
    Converges target database database phase next :=
  ⟨unique, sound.1, fun _ served => served, fun created => absurd created sound.2⟩

private theorem Converges.commit {database after : JobDatabase Work} {input : Commit Job Work}
    {fault : Option Failure} {phase : Phase Work} (unique : UniqueOpenRow database.jobs)
    (done : database.commit input fault = .ok after)
    (opens : target.opens input.row.toJobState = true) {result : SubmitResult}
    (named : result.jobId = input.row.id) (created : result.created = true → input.mode = .create) :
    Converges target database after phase (.returned (.ok result)) := by
  obtain ⟨served, others⟩ := commit_serves done opens
  obtain ⟨row, _, free, stored, _⟩ := JobDatabase.commit_inv done
  refine ⟨?_, ?_, ?_, ?_⟩
  · rw [stored]
    exact unique.set free
  · rw [← named] at served
    exact served
  · intro id before
    rw [(others id before).1]
    exact served
  · intro reported
    refine .inr fun id before => ?_
    have update := (others id before).2
    rw [created reported] at update
    cases update

theorem advance_converges {database : JobDatabase Work} {phase : Phase Work}
    (unique : UniqueOpenRow database.jobs) (sound : phase.Sound target database.jobs)
    (choices : Choices Work) :
    Converges target database (advance target database choices phase).2 phase
      (advance target database choices phase).1 := by
  have failed : ∀ error, (Phase.returned (.error error) : Phase Work).Sound target database.jobs ∧
      ¬ (Phase.returned (.error error) : Phase Work).Created := fun _ => ⟨trivial, not_false⟩
  cases phase with
  | ready =>
    simp only [advance]
    split
    · exact .idle unique (failed _)
    · split
      · exact .idle unique (failed _)
      · rename_i found
        obtain ⟨row, member, opens, same⟩ := open_ok found
        subst same
        exact .idle unique (reuse_sound member opens choices)
      · exact .idle unique (submit_sound database.jobs choices)
  | creating job event =>
    simp only [advance]
    split
    · rename_i next done
      exact .commit unique done sound rfl fun _ => rfl
    · split
      · exact .idle unique ⟨trivial, not_false⟩
      · exact .idle unique (failed _)
  | searching refused =>
    simp only [advance]
    split
    · exact .idle unique (failed _)
    · rename_i found
      obtain ⟨row, member, opens, same⟩ := open_ok found
      subst same
      exact .idle unique (reuse_sound member opens choices)
    · exact .idle unique (failed _)
  | retrying job retried event =>
    simp only [advance]
    split
    · rename_i next done
      exact .commit unique done sound.2 sound.1.symm fun created => nomatch created
    · exact .idle unique (failed _)
  | returned result => exact ⟨unique, sound, fun _ served => served, .inl⟩

end SubmitWorkflowJob

/-- The calls for one target, over one database. -/
structure Submissions (Work : Type) where
  database : JobDatabase Work
  calls : Nat → Phase Work

namespace Submissions

/-- One call takes its next step. -/
def step (target : Target) (state : Submissions Work) (label : Nat × Choices Work) :
    Submissions Work :=
  let next := SubmitWorkflowJob.advance target state.database label.2 (state.calls label.1)
  ⟨next.2, Function.update state.calls label.1 next.1⟩

/-- No call has begun. -/
def start (database : JobDatabase Work) : Submissions Work := ⟨database, fun _ => .ready⟩

structure Converging (target : Target) (state : Submissions Work) : Prop where
  unique : UniqueOpenRow state.database.jobs
  sound : ∀ call, (state.calls call).Sound target state.database.jobs
  once : ∀ call other, (state.calls call).Created → (state.calls other).Created → call = other

omit [DecidableEq Work] in
/-- A call's knowledge survives a step of another call. -/
private theorem sound_of_serves {target : Target} {before after : JobTable} {phase : Phase Work}
    (serves : ∀ id, target.Served before id → target.Served after id)
    (sound : phase.Sound target before) : phase.Sound target after := by
  cases phase with
  | returned result =>
    cases result with
    | ok result => exact serves _ sound
    | error _ => exact trivial
  | _ => exact sound

omit [DecidableEq Work] in
private theorem served_of_created {target : Target} {jobs : JobTable} {phase : Phase Work}
    (sound : phase.Sound target jobs) (created : phase.Created) : ∃ id, target.Served jobs id := by
  cases phase with
  | returned result =>
    cases result with
    | ok result => exact ⟨_, sound⟩
    | error _ => exact created.elim
  | _ => exact created.elim

theorem Converging.step {target : Target} {state : Submissions Work}
    (converging : state.Converging target) (label : Nat × Choices Work) :
    (step target state label).Converging target := by
  obtain ⟨call, choices⟩ := label
  have moved := SubmitWorkflowJob.advance_converges converging.unique (converging.sound call) choices
  have first : ∀ other, other ≠ call →
      (SubmitWorkflowJob.advance target state.database choices (state.calls call)).1.Created →
      ¬ (state.calls other).Created := by
    intro other apart created already
    rcases moved.first created with before | unserved
    · exact apart (converging.once other call already before)
    · obtain ⟨id, served⟩ := served_of_created (converging.sound other) already
      exact unserved id served
  refine ⟨moved.unique, ?_, ?_⟩
  · intro other
    by_cases same : other = call
    · subst same
      simp only [Submissions.step, Function.update_self]
      exact moved.sound
    · simp only [Submissions.step, Function.update_of_ne same]
      exact sound_of_serves moved.serves (converging.sound other)
  · intro one other oneCreated otherCreated
    simp only [Submissions.step] at oneCreated otherCreated
    by_cases mine : one = call <;> by_cases yours : other = call
    · exact mine.trans yours.symm
    · subst mine
      rw [Function.update_self] at oneCreated
      rw [Function.update_of_ne yours] at otherCreated
      exact absurd otherCreated (first other yours oneCreated)
    · subst yours
      rw [Function.update_self] at otherCreated
      rw [Function.update_of_ne mine] at oneCreated
      exact absurd oneCreated (first one mine otherCreated)
    · rw [Function.update_of_ne mine] at oneCreated
      rw [Function.update_of_ne yours] at otherCreated
      exact converging.once one other oneCreated otherCreated

end Submissions

namespace JobDatabase

/-- A commit that fails leaves the database as it was. -/
def commitStep (database : JobDatabase Work) (label : Commit Job Work × Option Failure) :
    JobDatabase Work :=
  match database.commit label.1 label.2 with
  | .ok next => next
  | .error _ => database

/-- Every table reachable by commits has one open row per subject. -/
theorem uniqueOpenRow (commits : List (Commit Job Work × Option Failure)) :
    UniqueOpenRow (run commitStep (empty : JobDatabase Work) commits).jobs := by
  refine run_invariant (fun database : JobDatabase Work => UniqueOpenRow database.jobs) ?_ ?_ commits
  · intro database label unique
    unfold commitStep
    split
    · rename_i next done
      obtain ⟨row, _, free, stored, _⟩ := commit_inv done
      rw [stored]
      exact unique.set free
    · exact unique
  · intro _ _ _ one member
    simp [empty, Table.empty] at member

end JobDatabase

/-- Concurrent submissions converge: from any table reachable by commits and for
any interleaving, all calls that return ok name one job, which is the only open
job of the subject, and at most one of them reports to have created it. -/
theorem submissions_converge (target : Target) (commits : List (Commit Job Work × Option Failure))
    (labels : List (Nat × Choices Work)) :
    let final := run (Submissions.step target)
      (.start (run JobDatabase.commitStep JobDatabase.empty commits)) labels
    (∀ call result, final.calls call = .returned (.ok result) →
      (∃ row ∈ final.database.jobs.rows, row.id = result.jobId ∧ target.opens row.state = true) ∧
      (∀ row ∈ final.database.jobs.rows, target.opens row.state = true → row.id = result.jobId) ∧
      ∀ other answer, final.calls other = .returned (.ok answer) →
        answer.jobId = result.jobId ∧
          (answer.created = true → result.created = true → other = call)) := by
  intro final
  have converging : final.Converging target := by
    refine run_invariant (fun state => Submissions.Converging target state) ?_ ?_ labels
    · intro state label holds
      exact holds.step label
    · exact ⟨JobDatabase.uniqueOpenRow commits, fun _ => trivial, fun _ _ created => created.elim⟩
  have served : ∀ call result, final.calls call = .returned (.ok result) →
      target.Served final.database.jobs result.jobId := by
    intro call result answered
    have sound := converging.sound call
    rw [answered] at sound
    exact sound
  have only : ∀ call result, final.calls call = .returned (.ok result) →
      ∀ row ∈ final.database.jobs.rows, target.opens row.state = true → row.id = result.jobId := by
    intro call result answered row member opens
    obtain ⟨held, present, named, also⟩ := served call result answered
    rw [converging.unique _ _ _ row member held present opens also]
    exact named
  intro call result answered
  refine ⟨served call result answered, only call result answered, ?_⟩
  intro other answer also
  refine ⟨?_, ?_⟩
  · obtain ⟨row, member, named, opens⟩ := served other answer also
    rw [← named]
    exact only call result answered row member opens
  · intro later earlier
    apply converging.once other call
    · rw [also]
      exact later
    · rw [answered]
      exact earlier

/-- Two calls both find no open job; the first commits, the second is refused,
searches again and returns the first one's job. -/
def racing : List (Nat × Choices Unit) :=
  let choices (number : Nat) : Choices Unit :=
    { operation := "job.submit.workflow"
      maxAttempts := .undefined
      work := ()
      time := 0
      jobId := .ok (ID.numbered number)
      eventId := .ok (ID.numbered (number + 4))
      envelope := .ok ()
      fault := none }
  [(0, choices 2), (1, choices 3), (0, choices 2), (1, choices 3), (1, choices 3)]

theorem racing_calls_agree :
    let target : Target := ⟨ID.numbered 0, js "document.process", ⟨js "document", ID.numbered 1⟩⟩
    let final := run (Submissions.step target) (.start (run JobDatabase.commitStep .empty [])) racing
    final.calls 0 = .returned (.ok ⟨ID.numbered 2, .queued, true⟩) ∧
      final.calls 1 = .returned (.ok ⟨ID.numbered 2, .queued, false⟩) ∧
      ∃ row ∈ final.database.jobs.rows, row.id = ID.numbered 2 ∧ target.opens row.state = true := by
  intro target final
  have first : final.calls 0 = .returned (.ok ⟨ID.numbered 2, .queued, true⟩) := rfl
  have second : final.calls 1 = .returned (.ok ⟨ID.numbered 2, .queued, false⟩) := rfl
  exact ⟨first, second, (submissions_converge target [] racing 1 _ second).1⟩

end N2FNest.Jobs
