import N2FNest.Jobs.Postgres
import N2FNest.Lib.Run

/-! Every reachable job can be stored. The legal combinations of a job's fields are
written three times: in the transitions, in `restore`, and in the table. -/

namespace N2FNest.Jobs

open Lib Shared

/-- The text of the `status` column. -/
def JobStatus.text : JobStatus → String
  | .queued => "queued"
  | .running => "running"
  | .succeeded => "succeeded"
  | .failed => "failed"
  | .canceled => "canceled"

namespace JobColumns

/-- The CHECK constraints of `n2f_jobs_jobs` under their names, as the baseline
migration writes them. A comparison with a NULL is only reached where the branch
beside it decides. -/
def constraints (row : JobColumns) : List (String × Bool) :=
  let status := row.status.text
  [("n2f_jobs_jobs_attempts_check", 0 ≤ row.attempts),
    ("n2f_jobs_jobs_check", row.attempts ≤ row.maxAttempts),
    ("n2f_jobs_jobs_check1", row.createdAt ≤ row.updatedAt),
    ("n2f_jobs_jobs_check2",
      (status == "queued" && row.startedAt.isNone && row.finishedAt.isNone && row.failureCode.isNone) ||
      (status == "running" && row.startedAt.isSome && row.finishedAt.isNone && row.failureCode.isNone &&
        1 ≤ row.attempts) ||
      (status == "succeeded" && row.startedAt.isSome && row.finishedAt.isSome &&
        row.failureCode.isNone) ||
      (status == "failed" && row.startedAt.isSome && row.finishedAt.isSome && row.failureCode.isSome) ||
      (status == "canceled" && row.finishedAt.isSome)),
    ("n2f_jobs_jobs_failure_code_check", row.failureCode.all (·.isToken 127)),
    ("n2f_jobs_jobs_kind_check", row.kind.isToken 119),
    ("n2f_jobs_jobs_max_attempts_check", 1 ≤ row.maxAttempts && row.maxAttempts ≤ 10),
    ("n2f_jobs_jobs_status_check", 
      ["queued", "running", "succeeded", "failed", "canceled"].contains status),
    ("n2f_jobs_jobs_subject_shape_check",
      (row.subjectType.isNone && row.subjectId.isNone) ||
      (row.subjectType.isSome && row.subjectId.isSome && row.subjectType.any (·.isToken 63))),
    ("n2f_jobs_jobs_version_check", 1 ≤ row.version)]

/-- The predicate of the index `n2f_jobs_jobs_open_subject` behind its subject test. -/
def openPredicate (row : JobColumns) : Bool :=
  (["queued", "running"].contains row.status.text) ||
    (row.status.text == "failed" && row.attempts < row.maxAttempts)

/-- What restores satisfies the constraints as the migration spells them. -/
theorem Checks.constraints {row : JobColumns} (checks : row.Checks) :
    ∀ constraint ∈ row.constraints, constraint.2 = true := by
  have lifecycle := checks.lifecycle
  simp only [JobColumns.constraints, List.forall_mem_cons, Bool.and_eq_true, Bool.or_eq_true,
    decide_eq_true_eq, beq_iff_eq]
  refine ⟨Nat.zero_le _, checks.attempts, checks.time, ?_, ?_, checks.kind, checks.maxAttempts, ?_, ?_,
    checks.version.1, by simp⟩
  · cases status : row.status <;>
      simp only [JobState.Lifecycle, state, status, ne_eq] at lifecycle <;>
      simp [JobStatus.text, lifecycle, Option.isSome_iff_ne_none]
  · cases code : row.failureCode with
    | none => rfl
    | some reason => exact checks.failureCode reason code
  · cases row.status <;> simp [JobStatus.text]
  · rcases checks.subjectShape with ⟨type, id⟩ | ⟨type, id, present, also, accepted⟩
    · exact .inl (by simp [type, id])
    · exact .inr (by simp [present, also, accepted])

end JobColumns

namespace Job

/-- The row a successful write of a job leaves: an INSERT gives the first version, an
UPDATE adds one to the version it matched and keeps the creation time. A version the
`integer` column cannot hold is refused. -/
def written (job : Job) : Option JobColumns :=
  if job.version + 1 ≤ 2147483647 then some (job.columns job.createdAt (job.version + 1)) else none

end Job

/-- What can happen to a job between two looks at it. -/
inductive JobLabel where
  | advance (action : Action) (time : JsDate) (failureCode : JsValue)
  | saved
  | reload

namespace Job

theorem written_checks {job : Job} {row : JobColumns} (stored : job.written = some row) : row.Checks := by
  simp only [written, Option.ite_none_right_eq_some, Option.some.injEq] at stored
  obtain ⟨fits, rfl⟩ := stored
  exact job.columns_checks job.valid.time ⟨Nat.le_add_left 1 _, fits⟩

/-- A row written for a job reads back as the saved job. -/
theorem restore_written {job : Job} {row : JobColumns} (stored : job.written = some row) :
    JobRow.restore ⟨row, written_checks stored⟩ = .ok job.saved := by
  have state : row.state = job.saved.toJobState := by
    simp only [written, Option.ite_none_right_eq_some, Option.some.injEq] at stored
    obtain ⟨-, rfl⟩ := stored
    unfold JobColumns.state
    rw [columns_subject]
    rfl
  rw [JobRow.restore_eq]
  congr 1
  unfold JobRow.job
  cases saved : job.saved with
  | mk kept valid =>
    rw [saved] at state
    cases state
    rfl

/-- A transition that fails leaves the job; a write that is refused leaves it too. -/
def step (job : Job) : JobLabel → Job
  | .advance action time code => (transition job action time code).toOption.getD job
  | .saved => job.saved
  | .reload =>
    match stored : job.written with
    | some row => (JobRow.restore ⟨row, written_checks stored⟩).toOption.getD job
    | none => job

theorem step_reload (job : Job) : job.step .reload = job.saved ∨ job.step .reload = job := by
  rw [step]
  split
  · rename_i row stored
    rw [restore_written stored]
    exact .inl rfl
  · exact .inr rfl

/-- A step never takes an attempt back, and keeps the budget and the creation time. -/
theorem step_keeps (job : Job) (label : JobLabel) :
    job.attempts ≤ (job.step label).attempts ∧ (job.step label).maxAttempts = job.maxAttempts ∧
      (job.step label).createdAt = job.createdAt := by
  cases label with
  | advance action time code =>
    rw [step]
    cases done : transition job action time code with
    | error failure => exact ⟨Nat.le_refl _, rfl, rfl⟩
    | ok next =>
      obtain ⟨kept, moved⟩ := transition_inv done
      exact ⟨moved.attempts_le, kept.maxAttempts, kept.createdAt⟩
  | saved => exact ⟨Nat.le_refl _, rfl, rfl⟩
  | reload =>
    rcases job.step_reload with same | same <;> rw [same] <;> exact ⟨Nat.le_refl _, rfl, rfl⟩

theorem run_keeps (job : Job) (labels : List JobLabel) :
    job.attempts ≤ (run step job labels).attempts ∧
      (run step job labels).maxAttempts = job.maxAttempts ∧
      (run step job labels).createdAt = job.createdAt := by
  induction labels generalizing job with
  | nil => exact ⟨Nat.le_refl _, rfl, rfl⟩
  | cons label rest ih =>
    obtain ⟨attempts, budget, created⟩ := job.step_keeps label
    obtain ⟨later, same, since⟩ := ih (job.step label)
    exact ⟨Nat.le_trans attempts later, same.trans budget, since.trans created⟩

theorem openPredicate_columns (job : Job) (createdAt : Int) (version : Nat) :
    job.isOpen = true ↔ (job.columns createdAt version).openPredicate = true := by
  rw [JobState.isOpen_iff]
  show _ ↔ (["queued", "running"].contains job.status.text ||
    (job.status.text == "failed" && decide (job.attempts < job.maxAttempts))) = true
  cases job.status <;> simp [JobStatus.text]

end Job

/-- Every job reached from `create` by transitions, saves and reloads has a row that
the table accepts, that reads back as the saved job and that the partial index calls
open when the job is; its attempts stay within the budget and never decrease. -/
theorem reachable_job_storable (input : CreateJobInput) (created : Job)
    (done : Job.create input = .ok created) (labels : List JobLabel) :
    let job := run Job.step created labels
    (∀ row, job.written = some row →
      (∀ constraint ∈ row.constraints, constraint.2 = true) ∧
      (∃ checks : row.Checks, JobRow.restore ⟨row, checks⟩ = .ok job.saved) ∧
      (job.isOpen = true ↔ row.openPredicate = true)) ∧
    (job.written = none → 2147483647 ≤ job.version) ∧
    created.attempts = 0 ∧ job.attempts ≤ job.maxAttempts ∧
    (∀ later, job.attempts ≤ (run Job.step job later).attempts) ∧
    job.maxAttempts = created.maxAttempts ∧ job.createdAt = created.createdAt := by
  intro job
  have kept := created.run_keeps labels
  refine ⟨?_, ?_, (Job.create_inv done).2.2.2.2.1, job.valid.attempts,
    fun later => (job.run_keeps later).1, kept.2⟩
  · intro row stored
    have checks := Job.written_checks stored
    refine ⟨checks.constraints, ⟨checks, Job.restore_written stored⟩, ?_⟩
    simp only [Job.written, Option.ite_none_right_eq_some, Option.some.injEq] at stored
    obtain ⟨-, rfl⟩ := stored
    exact job.openPredicate_columns job.createdAt (job.version + 1)
  · intro refused
    simp only [Job.written, ite_eq_right_iff] at refused
    by_contra small
    cases refused (by omega)

/-- A job canceled after a failure is still stored. -/
theorem canceled_failure_storable :
    let input : CreateJobInput := {
      id := .numbered 1
      organizationId := .numbered 2
      kind := .string ⟨[0x61]⟩
      subject := .null
      maxAttempts := .undefined
      createdAt := some 0 }
    ∃ created, Job.create input = .ok created ∧
      let job := run Job.step created [.advance .start (some 1) .undefined,
        .advance .fail (some 2) (.string ⟨[0x62]⟩), .reload, .advance .cancel (some 3) .undefined]
      job.status = .canceled ∧ job.attempts ≤ job.maxAttempts ∧
        ∀ row, job.written = some row → ∃ checks : row.Checks, JobRow.restore ⟨row, checks⟩ = .ok job.saved := by
  intro input
  refine ⟨_, rfl, ?_, ?_⟩
  · rfl
  · have storable := reachable_job_storable input _ rfl [.advance .start (some 1) .undefined,
      .advance .fail (some 2) (.string ⟨[0x62]⟩), .reload, .advance .cancel (some 3) .undefined]
    exact ⟨storable.2.2.2.1, fun row stored => (storable.1 row stored).2.1⟩

end N2FNest.Jobs
