import N2FNest.Jobs.Job
import N2FNest.Lib.Result

/-! What a transition can do. Each fact about histories, events and stores below
rests on these inversions and never unfolds a transition again. -/

namespace N2FNest.Jobs

open Lib Shared

inductive Action where
  | start | complete | fail | retry | cancel
  deriving DecidableEq, Repr

def transition (job : Job) (action : Action) (time : JsDate) (failureCode : JsValue) :
    Except JobFailure Job :=
  match action with
  | .start => job.start time
  | .complete => job.complete time
  | .fail => job.fail time failureCode
  | .retry => job.retry time
  | .cancel => job.cancel time

/-- What every transition leaves alone. -/
structure Kept (job next : Job) : Prop where
  id : next.id = job.id
  organizationId : next.organizationId = job.organizationId
  kind : next.kind = job.kind
  subject : next.subject = job.subject
  maxAttempts : next.maxAttempts = job.maxAttempts
  createdAt : next.createdAt = job.createdAt
  version : next.version = job.version

/-- Everything a successful transition does to the lifecycle, guards included. -/
inductive Advances (job next : Job) : Action → Prop where
  | start (queued : job.status = .queued) (left : job.attempts < job.maxAttempts)
      (status : next.status = .running) (attempts : next.attempts = job.attempts + 1) :
      Advances job next .start
  | complete (running : job.status = .running)
      (status : next.status = .succeeded) (attempts : next.attempts = job.attempts) :
      Advances job next .complete
  | fail (running : job.status = .running) (code : JsString) (accepted : code.isToken 127 = true)
      (reason : next.failureCode = some code)
      (status : next.status = .failed) (attempts : next.attempts = job.attempts) :
      Advances job next .fail
  | retry (failed : job.status = .failed) (left : job.attempts < job.maxAttempts)
      (status : next.status = .queued) (attempts : next.attempts = job.attempts) :
      Advances job next .retry
  | cancel (live : job.status ≠ .succeeded ∧ job.status ≠ .canceled)
      (reason : next.failureCode = none)
      (status : next.status = .canceled) (attempts : next.attempts = job.attempts) :
      Advances job next .cancel

theorem Job.start_inv {job next : Job} {time : JsDate} (done : job.start time = .ok next) :
    Kept job next ∧ Advances job next .start := by
  obtain ⟨⟨time, later⟩, _, body⟩ := bind_ok done
  by_cases queued : job.status = .queued
  · by_cases left : job.attempts < job.maxAttempts
    · simp only [queued, ne_eq, not_true_eq_false, if_false, left, dite_true, pure_eq_ok] at body
      subst body
      exact ⟨⟨rfl, rfl, rfl, rfl, rfl, rfl, rfl⟩, .start queued left rfl rfl⟩
    · simp [queued, left] at body
  · simp [queued] at body

theorem Job.complete_inv {job next : Job} {time : JsDate} (done : job.complete time = .ok next) :
    Kept job next ∧ Advances job next .complete := by
  obtain ⟨⟨time, later⟩, _, body⟩ := bind_ok done
  by_cases running : job.status = .running
  · simp only [running, dite_true, pure_eq_ok] at body
    subst body
    exact ⟨⟨rfl, rfl, rfl, rfl, rfl, rfl, rfl⟩, .complete running rfl rfl⟩
  · simp [running] at body

theorem Job.fail_inv {job next : Job} {time : JsDate} {code : JsValue}
    (done : job.fail time code = .ok next) : Kept job next ∧ Advances job next .fail := by
  obtain ⟨⟨time, later⟩, _, body⟩ := bind_ok done
  by_cases running : job.status = .running
  · simp only [running, dite_true] at body
    obtain ⟨⟨reason, accepted⟩, _, body⟩ := bind_ok body
    simp only [pure_eq_ok] at body
    subst body
    exact ⟨⟨rfl, rfl, rfl, rfl, rfl, rfl, rfl⟩, .fail running reason accepted rfl rfl rfl⟩
  · simp [running] at body

theorem Job.retry_inv {job next : Job} {time : JsDate} (done : job.retry time = .ok next) :
    Kept job next ∧ Advances job next .retry := by
  obtain ⟨⟨time, later⟩, _, body⟩ := bind_ok done
  by_cases failed : job.status = .failed
  · by_cases left : job.attempts < job.maxAttempts
    · simp only [failed, ne_eq, not_true_eq_false, if_false, left, if_true, pure_eq_ok] at body
      subst body
      exact ⟨⟨rfl, rfl, rfl, rfl, rfl, rfl, rfl⟩, .retry failed left rfl rfl⟩
    · simp [failed, left] at body
  · simp [failed] at body

theorem Job.cancel_inv {job next : Job} {time : JsDate} (done : job.cancel time = .ok next) :
    Kept job next ∧ Advances job next .cancel := by
  obtain ⟨⟨time, later⟩, _, body⟩ := bind_ok done
  by_cases finished : job.status = .succeeded ∨ job.status = .canceled
  · simp [finished] at body
  · simp only [finished, if_false, pure_eq_ok] at body
    subst body
    exact ⟨⟨rfl, rfl, rfl, rfl, rfl, rfl, rfl⟩, .cancel (not_or.mp finished) rfl rfl rfl⟩

theorem transition_inv {job next : Job} {action : Action} {time : JsDate} {code : JsValue}
    (done : transition job action time code = .ok next) :
    Kept job next ∧ Advances job next action := by
  cases action with
  | start => exact Job.start_inv done
  | complete => exact Job.complete_inv done
  | fail => exact Job.fail_inv done
  | retry => exact Job.retry_inv done
  | cancel => exact Job.cancel_inv done

/-- A new job is queued with no attempt made. -/
theorem Job.create_inv {input : CreateJobInput} {job : Job} (done : Job.create input = .ok job) :
    job.id = input.id ∧ job.organizationId = input.organizationId ∧
      input.kind = .string job.kind ∧ job.status = .queued ∧ job.attempts = 0 ∧
      job.version = UNSAVED ∧
      ∃ valid, Jobs.subject input.subject = .ok ⟨job.subject, valid⟩ := by
  obtain ⟨⟨jobKind, kindValid⟩, kindDone, body⟩ := bind_ok done
  obtain ⟨⟨maxAttempts, budget⟩, _, body⟩ := bind_ok body
  obtain ⟨⟨jobSubject, subjectValid⟩, subjectDone, body⟩ := bind_ok body
  have sameKind : input.kind = .string jobKind := by
    cases value : input.kind with
    | string text =>
      rw [value, Jobs.kind] at kindDone
      split at kindDone
      · simpa using kindDone
      · cases kindDone
    | _ => rw [value] at kindDone; cases kindDone
  cases created : input.createdAt with
  | none => simp [created] at body
  | some createdAt =>
    simp only [created, pure_eq_ok] at body
    subst body
    exact ⟨rfl, rfl, sameKind, rfl, rfl, rfl, subjectValid, subjectDone⟩

theorem Kept.refl (job : Job) : Kept job job := ⟨rfl, rfl, rfl, rfl, rfl, rfl, rfl⟩

theorem Kept.trans {first second third : Job} (earlier : Kept first second)
    (later : Kept second third) : Kept first third where
  id := later.id.trans earlier.id
  organizationId := later.organizationId.trans earlier.organizationId
  kind := later.kind.trans earlier.kind
  subject := later.subject.trans earlier.subject
  maxAttempts := later.maxAttempts.trans earlier.maxAttempts
  createdAt := later.createdAt.trans earlier.createdAt
  version := later.version.trans earlier.version

/-- Two states of one job, which neither a transition nor a write tells apart. -/
structure SameJob (job next : Job) : Prop where
  id : next.id = job.id
  organizationId : next.organizationId = job.organizationId
  kind : next.kind = job.kind
  subject : next.subject = job.subject
  maxAttempts : next.maxAttempts = job.maxAttempts

theorem SameJob.refl (job : Job) : SameJob job job := ⟨rfl, rfl, rfl, rfl, rfl⟩

theorem SameJob.trans {first second third : Job} (earlier : SameJob first second)
    (later : SameJob second third) : SameJob first third where
  id := later.id.trans earlier.id
  organizationId := later.organizationId.trans earlier.organizationId
  kind := later.kind.trans earlier.kind
  subject := later.subject.trans earlier.subject
  maxAttempts := later.maxAttempts.trans earlier.maxAttempts

theorem Kept.sameJob {job next : Job} (kept : Kept job next) : SameJob job next :=
  ⟨kept.id, kept.organizationId, kept.kind, kept.subject, kept.maxAttempts⟩

theorem Job.saved_same (job : Job) : SameJob job job.saved := ⟨rfl, rfl, rfl, rfl, rfl⟩

theorem JobState.isOpen_iff (state : JobState) : state.isOpen = true ↔
    state.status = .queued ∨ state.status = .running ∨
      (state.status = .failed ∧ state.attempts < state.maxAttempts) := by
  simp [JobState.isOpen, or_assoc]

/-- No transition reopens a job. -/
theorem Advances.open_of_open {job next : Job} {action : Action}
    (moved : Advances job next action) (opened : next.isOpen = true) : job.isOpen = true := by
  rw [JobState.isOpen_iff] at opened ⊢
  cases moved with
  | start queued => exact .inl queued
  | complete running => exact .inr (.inl running)
  | fail running => exact .inr (.inl running)
  | retry failed left => exact .inr (.inr ⟨failed, left⟩)
  | cancel _ _ status => simp [status] at opened

theorem Advances.attempts_le {job next : Job} {action : Action}
    (moved : Advances job next action) : job.attempts ≤ next.attempts := by
  cases moved <;> omega

end N2FNest.Jobs
