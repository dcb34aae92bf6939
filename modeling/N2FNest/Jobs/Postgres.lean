import N2FNest.Jobs.InMemory

/-! The PostgreSQL adapters of Jobs. A commit is one transaction over the job
table and the outbox: it changes both or neither. -/

namespace N2FNest.Jobs

open Events Lib Shared

/-- The columns of `n2f_jobs_jobs`. -/
structure JobColumns where
  id : ID
  organizationId : ID
  kind : JsString
  subjectType : Option JsString
  subjectId : Option ID
  status : JobStatus
  attempts : Nat
  maxAttempts : Nat
  createdAt : Int
  updatedAt : Int
  startedAt : Option Int
  finishedAt : Option Int
  failureCode : Option JsString
  version : Nat
  deriving DecidableEq

namespace JobColumns

def subject (row : JobColumns) : Option JobSubject :=
  match row.subjectType, row.subjectId with
  | some type, some id => some ⟨type, id⟩
  | _, _ => none

/-- The columns read as a job's state. -/
def state (row : JobColumns) : JobState where
  id := row.id
  organizationId := row.organizationId
  kind := row.kind
  subject := row.subject
  status := row.status
  attempts := row.attempts
  maxAttempts := row.maxAttempts
  createdAt := row.createdAt
  updatedAt := row.updatedAt
  startedAt := row.startedAt
  finishedAt := row.finishedAt
  failureCode := row.failureCode
  version := row.version

/-- The CHECK constraints of the table, and the range of its `integer` version. -/
structure Checks (row : JobColumns) : Prop where
  attempts : row.attempts ≤ row.maxAttempts
  time : row.createdAt ≤ row.updatedAt
  lifecycle : row.state.Lifecycle
  failureCode : ∀ code, row.failureCode = some code → code.isToken 127 = true
  kind : row.kind.isToken 119 = true
  maxAttempts : 1 ≤ row.maxAttempts ∧ row.maxAttempts ≤ 10
  subjectShape : row.subjectType = none ∧ row.subjectId = none ∨
    ∃ type id, row.subjectType = some type ∧ row.subjectId = some id ∧ type.isToken 63 = true
  version : FIRST ≤ row.version ∧ row.version ≤ 2147483647

theorem Checks.valid {row : JobColumns} (checks : row.Checks) : row.state.Valid where
  kind := checks.kind
  subject := by
    intro subject present
    rcases checks.subjectShape with ⟨none, _⟩ | ⟨type, id, some, also, accepted⟩
    · simp [state, JobColumns.subject, none] at present
    · simp only [state, JobColumns.subject, some, also, Option.some.injEq] at present
      rw [← present]
      exact accepted
  failureCode := checks.failureCode
  attempts := checks.attempts
  budget := checks.maxAttempts
  time := checks.time
  lifecycle := checks.lifecycle

end JobColumns

/-- A stored row. -/
structure JobRow extends JobColumns where
  checks : toJobColumns.Checks
  deriving DecidableEq

/-- The job a row stands for. -/
def JobRow.job (row : JobRow) : Job := ⟨row.state, row.checks.valid⟩

/-- The reader's `restore`. -/
def JobRow.restore (row : JobRow) : Except Failure Job := do
  let jobId ← parse (.string row.id.text)
  let organizationId ← parse (.string row.organizationId.text)
  (Job.restore {
    id := jobId
    organizationId := organizationId
    kind := .string row.kind
    subject := subjectValue row.subject
    status := row.status
    attempts := row.attempts
    maxAttempts := row.maxAttempts
    createdAt := some row.createdAt
    updatedAt := some row.updatedAt
    startedAt := row.startedAt.map some
    finishedAt := row.finishedAt.map some
    failureCode := row.failureCode
    version := row.version }).mapError JobFailure.toFailure

private theorem optionalDate_some (time : Option Int) : optionalDate (time.map some) = .ok time := by
  cases time <;> rfl

private theorem subject_value (found : Option JobSubject)
    (valid : ∀ subject, found = some subject → subject.type.isToken 63 = true) :
    Jobs.subject (subjectValue found) = .ok ⟨found, valid⟩ := by
  cases found with
  | none => rfl
  | some subject =>
    simp only [subjectValue, Jobs.subject, JobSubject.read_type, JobSubject.read_id, parse_text,
      valid subject rfl, dite_true]

/-- Every row the table accepts restores, to the job it stands for. -/
theorem JobRow.restore_eq (row : JobRow) : row.restore = .ok row.job := by
  have valid := row.checks.valid
  have kind : Jobs.kind (.string row.kind) = .ok ⟨row.kind, valid.kind⟩ := by
    simp only [Jobs.kind]
    exact dif_pos valid.kind
  have counts : (1 ≤ row.maxAttempts ∧ row.maxAttempts ≤ 10) ∧ row.attempts ≤ row.maxAttempts ∧
      isStoredVersion row.version = true ∧ ∀ code ∈ row.failureCode, code.isToken 127 = true := by
    refine ⟨valid.budget, valid.attempts, ?_, valid.failureCode⟩
    simp only [isStoredVersion, Bool.and_eq_true, decide_eq_true_eq]
    exact ⟨row.checks.version.1, Nat.le_trans row.checks.version.2 (by decide)⟩
  have lifecycle : row.state.Lifecycle := valid.lifecycle
  simp only [JobColumns.state] at lifecycle
  have time : row.createdAt ≤ row.updatedAt := valid.time
  simp only [JobRow.restore, parse_text, ok_bind, Job.restore, kind,
    subject_value row.subject valid.subject, optionalDate_some]
  rw [dif_pos counts, dif_pos time, dif_pos lifecycle]
  rfl

namespace Job

/-- The columns a writer sends for a job. -/
def columns (job : Job) (createdAt : Int) (version : Nat) : JobColumns where
  id := job.id
  organizationId := job.organizationId
  kind := job.kind
  subjectType := job.subject.map JobSubject.type
  subjectId := job.subject.map JobSubject.id
  status := job.status
  attempts := job.attempts
  maxAttempts := job.maxAttempts
  createdAt := createdAt
  updatedAt := job.updatedAt
  startedAt := job.startedAt
  finishedAt := job.finishedAt
  failureCode := job.failureCode
  version := version

theorem columns_subject (job : Job) (createdAt : Int) (version : Nat) :
    (job.columns createdAt version).subject = job.subject := by
  unfold columns JobColumns.subject
  cases job.subject <;> rfl

/-- The domain's own rules are the table's checks. -/
theorem columns_checks (job : Job) {createdAt : Int} {version : Nat}
    (time : createdAt ≤ job.updatedAt) (stored : FIRST ≤ version ∧ version ≤ 2147483647) :
    (job.columns createdAt version).Checks where
  attempts := job.valid.attempts
  time := time
  lifecycle := job.valid.lifecycle
  failureCode := job.valid.failureCode
  kind := job.valid.kind
  maxAttempts := job.valid.budget
  subjectShape := by
    cases present : job.subject with
    | none => exact .inl ⟨by simp [columns, present], by simp [columns, present]⟩
    | some subject =>
      exact .inr ⟨subject.type, subject.id, by simp [columns, present], by simp [columns, present],
        job.valid.subject subject present⟩
  version := stored

end Job

abbrev JobTable := Table (fun row : JobRow => row.id)

/-- The partial unique index `n2f_jobs_jobs_open_subject`: another row is open
for the subject this row is open for. -/
def openSubjectTaken (jobs : JobTable) (row : JobRow) : Bool :=
  match row.subject with
  | none => false
  | some subject => row.state.isOpen && jobs.rows.any fun other =>
      other.id ≠ row.id && other.state.opens row.organizationId row.kind subject

/-- The INSERT of a commit; a new row starts at the first version. -/
def insertJob (jobs : JobTable) (job : Job) : Except Failure JobTable :=
  let row : JobRow := ⟨job.columns job.createdAt FIRST, job.columns_checks job.valid.time (by decide)⟩
  match jobs.get job.id with
  | some _ => .error jobExists
  | none => if openSubjectTaken jobs row then .error subjectTaken else .ok (jobs.set row)

/-- The UPDATE of a commit: only the row at the loaded version, and the creation
time stays as stored. -/
def updateJob (jobs : JobTable) (job : Job) : Except Failure JobTable :=
  match jobs.get job.id with
  | none => .error jobNotFound
  | some stored =>
    if stored.organizationId = job.organizationId ∧ stored.version = job.version then
      if fits : stored.createdAt ≤ job.updatedAt ∧ stored.version < 2147483647 then
        let row : JobRow := ⟨job.columns stored.createdAt (stored.version + 1),
          job.columns_checks fits.1 ⟨Nat.le_add_left 1 _, fits.2⟩⟩
        if openSubjectTaken jobs row then .error subjectTaken else .ok (jobs.set row)
      else .error databaseFailed
    else .error staleWrite

def writeJob (jobs : JobTable) (mode : CommitMode) (job : Job) : Except Failure JobTable :=
  match mode with
  | .create => insertJob jobs job
  | .update => updateJob jobs job

variable {Work : Type} [DecidableEq Work]

structure JobDatabase (Work : Type) where
  jobs : JobTable
  outbox : EventLog Work

namespace JobDatabase

def empty : JobDatabase Work := ⟨Table.empty, Table.empty⟩

/-- `PostgresJobWriter.commit` as one transaction. `fault` is a failure of the
database itself, which rolls the transaction back like any other. -/
def commit (database : JobDatabase Work) (input : Commit Job Work) (fault : Option Failure) :
    Except Failure (JobDatabase Work) := do
  assertEventWork input.event input.work
  match fault with
  | some error => throw error
  | none =>
    let jobs ← writeJob database.jobs input.mode input.row
    let outbox ← EventLog.enqueue database.outbox input.event
    return ⟨jobs, outbox⟩

end JobDatabase

/-- The row an accepted commit writes. -/
inductive Writes (jobs : JobTable) (job : Job) (row : JobRow) : CommitMode → Prop where
  | create (fresh : jobs.get job.id = none)
      (columns : row.toJobColumns = job.columns job.createdAt FIRST) : Writes jobs job row .create
  | update (stored : JobRow) (found : jobs.get job.id = some stored)
      (organization : stored.organizationId = job.organizationId)
      (version : stored.version = job.version)
      (columns : row.toJobColumns = job.columns stored.createdAt (stored.version + 1)) :
      Writes jobs job row .update

private theorem insertJob_inv {jobs next : JobTable} {job : Job}
    (written : insertJob jobs job = .ok next) : ∃ row, Writes jobs job row .create ∧
      openSubjectTaken jobs row = false ∧ next = jobs.set row := by
  simp only [insertJob] at written
  split at written
  · cases written
  · rename_i fresh
    split at written
    · cases written
    · rename_i free
      cases written
      exact ⟨_, .create fresh rfl, by simpa using free, rfl⟩

private theorem updateJob_inv {jobs next : JobTable} {job : Job}
    (written : updateJob jobs job = .ok next) : ∃ row, Writes jobs job row .update ∧
      openSubjectTaken jobs row = false ∧ next = jobs.set row := by
  simp only [updateJob] at written
  split at written
  · cases written
  · rename_i stored found
    split at written
    · rename_i current
      split at written
      · split at written
        · cases written
        · rename_i free
          cases written
          exact ⟨_, .update stored found current.1 current.2 rfl, by simpa using free, rfl⟩
      · cases written
    · cases written

theorem JobDatabase.commit_inv {database next : JobDatabase Work} {input : Commit Job Work}
    {fault : Option Failure} (done : database.commit input fault = .ok next) :
    ∃ row, Writes database.jobs input.row row input.mode ∧
      openSubjectTaken database.jobs row = false ∧ next.jobs = database.jobs.set row ∧
      EventLog.enqueue database.outbox input.event = .ok next.outbox := by
  obtain ⟨_, _, rest⟩ := bind_ok done
  split at rest
  · cases rest
  · obtain ⟨jobs, written, rest⟩ := bind_ok rest
    obtain ⟨outbox, queued, same⟩ := bind_ok rest
    cases pure_eq_ok.mp same
    cases mode : input.mode with
    | create =>
      simp only [mode, writeJob] at written
      obtain ⟨row, writes, free, stored⟩ := insertJob_inv written
      exact ⟨row, writes, free, stored, queued⟩
    | update =>
      simp only [mode, writeJob] at written
      obtain ⟨row, writes, free, stored⟩ := updateJob_inv written
      exact ⟨row, writes, free, stored, queued⟩

theorem Writes.id {jobs : JobTable} {job : Job} {row : JobRow} {mode : CommitMode}
    (writes : Writes jobs job row mode) : row.id = job.id := by
  cases writes with
  | create _ columns => rw [columns]; rfl
  | update _ _ _ _ columns => rw [columns]; rfl

/-- The row is open for a subject when the job is. -/
theorem Writes.opens {jobs : JobTable} {job : Job} {row : JobRow} {mode : CommitMode}
    (writes : Writes jobs job row mode) (organizationId : ID) (kind : JsString)
    (subject : JobSubject) :
    row.state.opens organizationId kind subject = job.opens organizationId kind subject := by
  have view : ∀ createdAt version, row.toJobColumns = job.columns createdAt version →
      row.state.opens organizationId kind subject = job.opens organizationId kind subject := by
    intro createdAt version columns
    have about : row.state.subject = job.subject := by
      rw [← job.columns_subject createdAt version, ← columns]
      rfl
    simp only [JobState.opens, about]
    rw [columns]
    rfl
  cases writes with
  | create _ columns => exact view _ _ columns
  | update _ _ _ _ columns => exact view _ _ columns

/-- At most one open row per organization, kind and subject. -/
def UniqueOpenRow (jobs : JobTable) : Prop :=
  ∀ organizationId kind subject, ∀ one ∈ jobs.rows, ∀ other ∈ jobs.rows,
    one.state.opens organizationId kind subject = true →
    other.state.opens organizationId kind subject = true → one = other

/-- A row the index admits shares its subject with no other open row. -/
theorem untaken {jobs : JobTable} {row other : JobRow} (free : openSubjectTaken jobs row = false)
    {organizationId : ID} {kind : JsString} {subject : JobSubject}
    (mine : row.state.opens organizationId kind subject = true) (member : other ∈ jobs.rows)
    (also : other.state.opens organizationId kind subject = true) : other.id = row.id := by
  obtain ⟨opened, organization, kinds, about⟩ := JobState.opens_iff.mp mine
  by_contra different
  have about : row.subject = some subject := about
  have taken : openSubjectTaken jobs row = true := by
    simp only [openSubjectTaken, about, Bool.and_eq_true, List.any_eq_true]
    refine ⟨opened, other, member, by simpa using different, ?_⟩
    have organization : row.organizationId = organizationId := organization
    have kinds : row.kind = kind := kinds
    rw [organization, kinds]
    exact also
  rw [free] at taken
  cases taken

/-- The index keeps open rows unique under every commit. -/
theorem UniqueOpenRow.set {jobs : JobTable} {row : JobRow} (unique : UniqueOpenRow jobs)
    (free : openSubjectTaken jobs row = false) : UniqueOpenRow (jobs.set row) := by
  intro organizationId kind subject one oneMember other otherMember oneOpens otherOpens
  rcases Table.mem_set.mp oneMember with rfl | ⟨oneHeld, oneApart⟩ <;>
    rcases Table.mem_set.mp otherMember with rfl | ⟨otherHeld, otherApart⟩
  · rfl
  · exact absurd (untaken free oneOpens otherHeld otherOpens) otherApart
  · exact absurd (untaken free otherOpens oneHeld oneOpens) oneApart
  · exact unique organizationId kind subject one oneHeld other otherHeld oneOpens otherOpens

/-- `(created_at, id)` order; the text of an identifier orders like its bytes. -/
def createdBefore (row other : JobRow) : Bool :=
  row.createdAt < other.createdAt ||
    (row.createdAt == other.createdAt && row.id.text.units < other.id.text.units)

def findById (jobs : JobTable) (id : ID) : Except Failure (Option Job) :=
  match jobs.get id with
  | none => .ok none
  | some row => row.restore.map some

def findOpenBySubject (jobs : JobTable) (organizationId : ID) (kind : JsString)
    (subject : JobSubject) : Except Failure (Option Job) :=
  match Table.least createdBefore
      (jobs.rows.filter fun row => row.state.opens organizationId kind subject) with
  | none => .ok none
  | some row => row.restore.map some

theorem findById_eq (jobs : JobTable) (id : ID) :
    findById jobs id = .ok ((jobs.get id).map JobRow.job) := by
  unfold findById
  cases jobs.get id with
  | none => rfl
  | some row => simp [row.restore_eq, Except.map]

/-- A search answers with an open row for the subject, or there is none. -/
theorem findOpenBySubject_inv (jobs : JobTable) (organizationId : ID) (kind : JsString)
    (subject : JobSubject) :
    findOpenBySubject jobs organizationId kind subject = .ok none ∧
        (∀ row ∈ jobs.rows, row.state.opens organizationId kind subject = false) ∨
      ∃ row ∈ jobs.rows, row.state.opens organizationId kind subject = true ∧
        findOpenBySubject jobs organizationId kind subject = .ok (some row.job) := by
  unfold findOpenBySubject
  cases found : Table.least createdBefore
      (jobs.rows.filter fun row => row.state.opens organizationId kind subject) with
  | none =>
    refine .inl ⟨rfl, ?_⟩
    intro row member
    have none := List.filter_eq_nil_iff.mp (Table.least_eq_none found) row member
    simpa using none
  | some row =>
    obtain ⟨member, opens⟩ := List.mem_filter.mp (Table.least_mem found)
    refine .inr ⟨row, member, opens, ?_⟩
    simp only [row.restore_eq]
    rfl

end N2FNest.Jobs
