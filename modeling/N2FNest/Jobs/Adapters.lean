import N2FNest.Jobs.Linear
import N2FNest.Lib.Simulation
import N2FNest.Pagination.Select

/-! The two adapters of the job ports, in memory and over PostgreSQL. Callers that create
jobs, take copies of stored ones and commit transitions of their copies, whenever they
like, cannot tell which of the two they talk to. -/

namespace N2FNest.Jobs

open Events Lib Pagination Shared

/-- `JobReader` and `JobWriter`. -/
structure JobPort (Work Store : Type) where
  commit : Store → Commit Job Work → Except Failure Store
  findById : Store → ID → Except Failure (Option Job)
  findOpenBySubject : Store → ID → JsString → JobSubject → Except Failure (Option Job)
  listForOrganization : Store → ID → Request → Except Failure (List Job)

/-- `PostgresJobReader.listForOrganization`. -/
def listForOrganization (jobs : JobTable) (organizationId : ID) (page : Request) :
    Except Failure (List Job) :=
  selectPage (jobs.rows.filter fun row => row.organizationId = organizationId)
    (fun row => createdKey row.createdAt row.id) page >>= (·.mapM (·.restore))

/-- `InMemoryJobReader.listForOrganization`; the store's own order is the page's. -/
def InMemoryJobReader.listForOrganization (store : JobStore) (organizationId : ID)
    (page : Request) : List Job :=
  keysetPage (store.rows.filter fun job => job.organizationId = organizationId)
    (fun job => createdKey job.createdAt job.id) page

variable {Work : Type} [DecidableEq Work]

/-- The adapters in memory, with publications that succeed. -/
def memoryPort : JobPort Work JobStore where
  commit := JobStore.commit
  findById store id := .ok (store.get id)
  findOpenBySubject store organizationId kind subject :=
    .ok (openJobBySubject store organizationId kind subject)
  listForOrganization store organizationId page :=
    .ok (InMemoryJobReader.listForOrganization store organizationId page)

/-- The adapters over a database that never fails of itself. -/
def postgresPort : JobPort Work (JobDatabase Work) where
  commit database input := database.commit input none
  findById database id := findById database.jobs id
  findOpenBySubject database organizationId kind subject :=
    findOpenBySubject database.jobs organizationId kind subject
  listForOrganization database organizationId page :=
    listForOrganization database.jobs organizationId page

/-- What a caller does. An event id is drawn for each attempt to commit. -/
inductive PortLabel (Work : Type) where
  | create (input : CreateJobInput) (time : Int) (identityId : Option ID)
      (context : EventContext Work)
  | load (caller : Nat) (id : ID)
  | transition (caller : Nat) (command : Command) (time : Int) (context : EventContext Work)
  | findOpen (organizationId : ID) (kind : JsString) (subject : JobSubject)
  | list (organizationId : ID) (page : Request)

inductive PortAnswer where
  | nothing
  | refused (error : JobFailure)
  | committed (result : Except Failure Unit)
  | found (result : Except Failure (Option Job))
  | listed (result : Except Failure (List Job))

structure Callers (Store : Type) where
  store : Store
  copies : Nat → Option Job

namespace JobPort

variable {Store : Type} (port : JobPort Work Store)

def write (callers : Callers Store) (input : Commit Job Work) : Callers Store × PortAnswer :=
  match port.commit callers.store input with
  | .ok store => ({ callers with store := store }, .committed (.ok ()))
  | .error error => (callers, .committed (.error error))

def step (callers : Callers Store) : PortLabel Work → Callers Store × PortAnswer
  | .create input time identityId context =>
    match Job.create { input with createdAt := some time } with
    | .error error => (callers, .refused error)
    | .ok job =>
      let event := submittedEvent identityId context time job
      port.write callers ⟨.create, job, event, event.work⟩
  | .load caller id =>
    let found := port.findById callers.store id
    ({ callers with copies := Function.update callers.copies caller (found.toOption.getD none) },
      .found found)
  | .transition caller command time context => match callers.copies caller with
    | none => (callers, .nothing)
    | some copy => match command.apply copy (some time) with
      | .error error => (callers, .refused error)
      | .ok next =>
        let event := command.event context time next
        port.write callers ⟨.update, next, event, event.work⟩
  | .findOpen organizationId kind subject =>
    (callers, .found (port.findOpenBySubject callers.store organizationId kind subject))
  | .list organizationId page =>
    (callers, .listed (port.listForOrganization callers.store organizationId page))

end JobPort

def PortLabel.event? : PortLabel Work → Option ID
  | .create _ _ _ context => some context.eventId
  | .transition _ _ _ context => some context.eventId
  | _ => none

/-- The times are dates that the columns can hold, and a page starts from a position that
PostgreSQL reads as it is written. -/
def PortLabel.Storable : PortLabel Work → Prop
  | .create _ time _ _ => EARLIEST_TIMESTAMP ≤ time ∧ time ≤ 8640000000000000
  | .transition _ _ time _ => EARLIEST_TIMESTAMP ≤ time ∧ time ≤ 8640000000000000
  | .list _ page => page.Canonical
  | _ => True

/-- A caller's copy is the stored job or an earlier state of it. -/
structure CopyOf (copy stored : Job) : Prop where
  same : SameJob copy stored
  createdAt : stored.createdAt = copy.createdAt
  version : copy.version ≤ stored.version
  current : copy.version = stored.version → copy = stored

/-- The two stores hold the same jobs in the same order, the callers hold the same copies,
and the rest of the run draws new events and fits into the columns. -/
structure Related (memory : Callers JobStore) (postgres : Callers (JobDatabase Work))
    (rest : List (PortLabel Work)) : Prop where
  rows : memory.store.rows = postgres.store.jobs.rows.map JobRow.job
  copies : memory.copies = postgres.copies
  held : ∀ caller copy, memory.copies caller = some copy →
    ∃ stored, memory.store.get copy.id = some stored ∧ CopyOf copy stored
  unique : UniqueOpenRow postgres.store.jobs
  room : rest.length < 2147483647
  fits : ∀ row ∈ postgres.store.jobs.rows, row.version + rest.length ≤ 2147483647
  drawn : (rest.filterMap PortLabel.event?).Nodup
  fresh : ∀ id ∈ rest.filterMap PortLabel.event?, postgres.store.outbox.get id = none
  storable : ∀ label ∈ rest, label.Storable

namespace Related

variable {memory : Callers JobStore} {postgres : Callers (JobDatabase Work)}
  {rest : List (PortLabel Work)} (related : Related memory postgres rest)
include related

omit [DecidableEq Work] in
theorem get (id : ID) : memory.store.get id = (postgres.store.jobs.get id).map JobRow.job := by
  unfold Table.get
  rw [related.rows, List.find?_map]
  rfl

omit [DecidableEq Work] in
/-- The stores find the same open job: there is at most one. -/
theorem findOpen (organizationId : ID) (kind : JsString) (subject : JobSubject) :
    findOpenBySubject postgres.store.jobs organizationId kind subject =
      .ok (openJobBySubject memory.store organizationId kind subject) := by
  have found : openJobBySubject memory.store organizationId kind subject =
      (postgres.store.jobs.rows.find? fun row => row.state.opens organizationId kind subject).map
        JobRow.job := by
    unfold openJobBySubject
    rw [related.rows, List.find?_map]
    rfl
  rw [found]
  rcases findOpenBySubject_inv postgres.store.jobs organizationId kind subject with
    ⟨missing, closed⟩ | ⟨row, member, opens, found⟩
  · have nowhere : (postgres.store.jobs.rows.find? fun row =>
        row.state.opens organizationId kind subject) = none := by
      apply List.find?_eq_none.mpr
      intro row member
      simp [closed row member]
    rw [missing, nowhere]
    rfl
  · cases first : postgres.store.jobs.rows.find? fun row =>
        row.state.opens organizationId kind subject with
    | none => exact absurd opens (List.find?_eq_none.mp first row member)
    | some other =>
      have chosen : other.state.opens organizationId kind subject = true :=
        List.find?_some (p := fun row : JobRow => row.state.opens organizationId kind subject) first
      have same := related.unique organizationId kind subject other
        (List.mem_of_find?_eq_some first) row member chosen opens
      rw [found, same]
      rfl

omit [DecidableEq Work] in
theorem list (organizationId : ID) {page : Request} (canonical : page.Canonical) :
    listForOrganization postgres.store.jobs organizationId page =
      .ok (InMemoryJobReader.listForOrganization memory.store organizationId page) := by
  have rows : (memory.store.rows.filter fun job => job.organizationId = organizationId) =
      (postgres.store.jobs.rows.filter fun row => row.organizationId = organizationId).map
        JobRow.job := by
    rw [related.rows, List.filter_map]
    rfl
  have distinct : (((postgres.store.jobs.rows.filter fun row =>
      row.organizationId = organizationId).map JobRow.job).map
        fun job => createdKey job.createdAt job.id).Nodup := by
    rw [← rows]
    exact createdKey_nodup (memory.store.keep fun job => job.organizationId = organizationId).unique
  unfold listForOrganization InMemoryJobReader.listForOrganization
  rw [rows]
  exact selectPage_restored JobRow.restore_eq distinct canonical

omit [DecidableEq Work] in
/-- Among no row of its own id, a new open row is refused by the index where the search in
memory finds an open job. -/
theorem taken {row : JobRow} {subject : JobSubject} (about : row.subject = some subject)
    (opened : row.state.isOpen = true) (missing : postgres.store.jobs.get row.id = none) :
    openSubjectTaken postgres.store.jobs row =
      (openJobBySubject memory.store row.organizationId row.kind subject).isSome := by
  have apart : ∀ other ∈ postgres.store.jobs.rows, decide (other.id ≠ row.id) = true := by
    intro other member
    rw [decide_eq_true_eq]
    intro same
    rw [← same, Table.get_of_mem member] at missing
    cases missing
  unfold openSubjectTaken openJobBySubject
  simp only [about, opened, Bool.true_and]
  rw [related.rows, List.find?_map, Option.isSome_map, Bool.eq_iff_iff, List.any_eq_true,
    List.find?_isSome]
  constructor
  · rintro ⟨other, member, both⟩
    exact ⟨other, member, (Bool.and_eq_true_iff.mp both).2⟩
  · rintro ⟨other, member, opens⟩
    exact ⟨other, member, Bool.and_eq_true_iff.mpr ⟨apart other member, opens⟩⟩

end Related

theorem CopyOf.trans {first second third : Job} (earlier : CopyOf first second)
    (later : CopyOf second third) : CopyOf first third where
  same := earlier.same.trans later.same
  createdAt := later.createdAt.trans earlier.createdAt
  version := Nat.le_trans earlier.version later.version
  current same := by
    have middle : second.version = third.version :=
      Nat.le_antisymm later.version (same ▸ earlier.version)
    rw [earlier.current (same.trans middle.symm), later.current middle]

theorem CopyOf.refl (job : Job) : CopyOf job job :=
  ⟨.refl job, rfl, Nat.le_refl _, fun _ => rfl⟩

/-- What both adapters do with a commit: the same refusal, or the same job stored, with
room for `left` more commits. -/
inductive Agree (memory : JobStore) (postgres : JobDatabase Work) (left : Nat)
    (input : Commit Job Work) : Prop where
  | refused (error : Failure) (first : JobStore.commit memory input = .error error)
      (second : postgres.commit input none = .error error)
  | stored (row : JobRow) (free : openSubjectTaken postgres.jobs row = false)
      (job : row.job = input.row.saved)
      (later : ∀ stored, memory.get input.row.id = some stored → CopyOf stored input.row.saved)
      (room : row.version + left ≤ 2147483647)
      (first : JobStore.commit memory input = .ok (memory.set input.row.saved))
      (second : postgres.commit input none =
        .ok ⟨postgres.jobs.set row, postgres.outbox.set input.event⟩)

section

variable {job : Job} {event : Envelope Work} {mode : CommitMode} {error : Failure}

private theorem memory_refuses {store : JobStore}
    (refused : jobAggregate.check store ⟨mode, job, event, event.work⟩ = .error error) :
    JobStore.commit store ⟨mode, job, event, event.work⟩ = .error error := by
  unfold JobStore.commit
  rw [refused]
  rfl

private theorem memory_stores {store : JobStore} {previous : Option Job}
    (accepted : jobAggregate.check store ⟨mode, job, event, event.work⟩ = .ok previous) :
    JobStore.commit store ⟨mode, job, event, event.work⟩ = .ok (store.set job.saved) := by
  unfold JobStore.commit
  rw [accepted]
  rfl

private theorem postgres_refuses {database : JobDatabase Work}
    (refused : writeJob database.jobs mode job = .error error) :
    database.commit ⟨mode, job, event, event.work⟩ none = .error error := by
  have passes : assertEventWork event event.work = .ok () := if_pos rfl
  simp only [JobDatabase.commit, passes, refused]
  rfl

private theorem postgres_stores {database : JobDatabase Work} {jobs : JobTable}
    (written : writeJob database.jobs mode job = .ok jobs)
    (fresh : database.outbox.get event.id = none) :
    database.commit ⟨mode, job, event, event.work⟩ none = .ok ⟨jobs, database.outbox.set event⟩ := by
  have passes : assertEventWork event event.work = .ok () := if_pos rfl
  have queued : EventLog.enqueue database.outbox event = .ok (database.outbox.set event) := by
    rw [EventLog.enqueue, fresh]
  simp only [JobDatabase.commit, passes, written, queued, ok_bind]
  rfl

end

private theorem inserted_checks (job : Job) : (job.columns job.createdAt FIRST).Checks :=
  job.columns_checks job.valid.time (by decide)

/-- The row an INSERT writes for a new job. -/
def insertedJob (job : Job) : JobRow := ⟨job.columns job.createdAt FIRST, inserted_checks job⟩

theorem insertedJob_job {job : Job} (unsaved : job.version = UNSAVED) :
    (insertedJob job).job = job.saved :=
  job_of_columns rfl rfl (by rw [unsaved]; rfl)

namespace Related

variable {memory : Callers JobStore} {postgres : Callers (JobDatabase Work)}
  {rest : List (PortLabel Work)} {label : PortLabel Work}

omit [DecidableEq Work] in
theorem tail (related : Related memory postgres (label :: rest)) :
    Related memory postgres rest where
  rows := related.rows
  copies := related.copies
  held := related.held
  unique := related.unique
  room := Nat.lt_of_succ_lt related.room
  fits row member := by
    have bound := related.fits row member
    rw [List.length_cons] at bound
    omega
  drawn := by
    have drawn := related.drawn
    cases event : label.event? with
    | none => rwa [List.filterMap_cons_none event] at drawn
    | some id =>
      rw [List.filterMap_cons_some event, List.nodup_cons] at drawn
      exact drawn.2
  fresh id member := by
    apply related.fresh
    cases event : label.event? with
    | none => rwa [List.filterMap_cons_none event]
    | some other =>
      rw [List.filterMap_cons_some event]
      exact List.mem_cons_of_mem other member
  storable label member := related.storable label (List.mem_cons_of_mem _ member)

omit [DecidableEq Work] in
/-- The subject of a new job is taken in both or in neither. -/
private theorem refuses (related : Related memory postgres rest) {job : Job}
    (queued : job.status = .queued) (missing : postgres.store.jobs.get job.id = none) :
    refuseSubject memory.store job =
      if openSubjectTaken postgres.store.jobs (insertedJob job) then some subjectTaken else none := by
  have subjects : (insertedJob job).subject = job.subject := job.columns_subject _ _
  have opened : (insertedJob job).state.isOpen = true :=
    (JobState.isOpen_iff _).mpr (.inl queued)
  cases about : job.subject with
  | none =>
    rw [about] at subjects
    simp only [refuseSubject, about, openSubjectTaken, subjects]
    rfl
  | some subject =>
    have same := related.taken (subjects.trans about) opened missing
    have holds : openSubjectTaken postgres.store.jobs (insertedJob job) =
        (openJobBySubject memory.store job.organizationId job.kind subject).isSome := same
    rw [holds]
    simp only [refuseSubject, about]
    cases openJobBySubject memory.store job.organizationId job.kind subject <;> rfl

/-- A new job is refused for its id, then for its subject, by both. -/
theorem agree_create (related : Related memory postgres (label :: rest)) {input : CreateJobInput}
    {job : Job} (created : Job.create input = .ok job) {event : Envelope Work}
    (drawn : label.event? = some event.id) :
    Agree memory.store postgres.store rest.length ⟨.create, job, event, event.work⟩ := by
  obtain ⟨_, _, _, queued, _, unsaved, _⟩ := Job.create_inv created
  have fresh : postgres.store.outbox.get event.id = none :=
    related.fresh event.id (by rw [List.filterMap_cons_some drawn]; exact List.mem_cons_self)
  have passes : assertEventWork event event.work = .ok () := if_pos rfl
  have held := related.get job.id
  cases found : postgres.store.jobs.get job.id with
  | some row =>
    rw [found] at held
    apply Agree.refused jobExists
    · apply memory_refuses
      simp only [Aggregate.check, passes, held]
      rfl
    · apply postgres_refuses
      simp only [writeJob, insertJob, found]
  | none =>
    rw [found] at held
    have refuses := related.refuses queued found
    by_cases taken : openSubjectTaken postgres.store.jobs (insertedJob job) = true
    · rw [if_pos taken] at refuses
      apply Agree.refused subjectTaken
      · apply memory_refuses
        simp only [Aggregate.check, passes, held, refuses]
        rfl
      · apply postgres_refuses
        simp only [writeJob, insertJob, found]
        exact if_pos taken
    · rw [if_neg taken] at refuses
      have room : FIRST + rest.length ≤ 2147483647 := by
        have bound := related.room
        rw [List.length_cons] at bound
        simp only [FIRST]
        omega
      have absent : ∀ stored, memory.store.get job.id = some stored → CopyOf stored job.saved := by
        intro stored present
        rw [held] at present
        cases present
      apply Agree.stored (insertedJob job) (by simpa using taken) (insertedJob_job unsaved) absent room
      · apply memory_stores
        simp only [Aggregate.check, passes, held, refuses]
        rfl
      · apply postgres_stores _ fresh
        simp only [writeJob, insertJob, found]
        exact if_neg taken

omit [DecidableEq Work] in
/-- The next state of a stored job never meets the index: no transition reopens a job. -/
private theorem free_of_open (related : Related memory postgres rest) {row written : JobRow}
    (member : row ∈ postgres.store.jobs.rows) (id : written.id = row.id)
    (organization : written.organizationId = row.organizationId) (kind : written.kind = row.kind)
    (subject : written.subject = row.subject)
    (opened : written.state.isOpen = true → row.state.isOpen = true) :
    openSubjectTaken postgres.store.jobs written = false := by
  by_contra taken
  simp only [openSubjectTaken, Bool.not_eq_false] at taken
  cases about : written.subject with
  | none => simp [about] at taken
  | some sought =>
    simp only [about, Bool.and_eq_true, List.any_eq_true, decide_eq_true_eq] at taken
    obtain ⟨still, other, present, apart, opens⟩ := taken
    have mine : row.state.opens written.organizationId written.kind sought = true :=
      JobState.opens_iff.mpr ⟨opened still, organization.symm, kind.symm, subject.symm.trans about⟩
    have same := related.unique _ _ _ other present row member opens mine
    apply apart
    rw [same, id]

/-- An update of a copy is refused by both, or stored by both as the job now is. -/
theorem agree_update (related : Related memory postgres (label :: rest)) {caller : Nat} {copy : Job}
    (holds : memory.copies caller = some copy) {command : Command} {time : Int} {next : Job}
    (applied : command.apply copy (some time) = .ok next) {event : Envelope Work}
    (drawn : label.event? = some event.id) :
    Agree memory.store postgres.store rest.length ⟨.update, next, event, event.work⟩ := by
  obtain ⟨kept, moved⟩ := Command.apply_inv applied
  have fresh : postgres.store.outbox.get event.id = none :=
    related.fresh event.id (by rw [List.filterMap_cons_some drawn]; exact List.mem_cons_self)
  have passes : assertEventWork event event.work = .ok () := if_pos rfl
  obtain ⟨stored, current, copied⟩ := related.held caller copy holds
  rw [← kept.id] at current
  have held := related.get next.id
  rw [current] at held
  obtain ⟨row, found, stands⟩ := Option.map_eq_some_iff.mp held.symm
  have organization : stored.organizationId = next.organizationId :=
    copied.same.organizationId.trans kept.organizationId.symm
  by_cases version : stored.version = next.version
  · -- the copy is what the row holds
    have same : copy = row.job := by
      rw [stands]
      exact copied.current (kept.version.symm.trans version.symm)
    subst same
    have created : row.createdAt = next.createdAt := kept.createdAt.symm
    have time : row.createdAt ≤ next.updatedAt := by
      rw [created]
      exact next.valid.time
    have room : row.version < 2147483647 := by
      have bound := related.fits row (Table.mem_of_get found)
      rw [List.length_cons] at bound
      omega
    have numbered : row.version = next.version := kept.version.symm
    let written : JobRow := ⟨next.columns row.createdAt (row.version + 1),
      next.columns_checks time ⟨Nat.le_add_left 1 _, room⟩⟩
    have free : openSubjectTaken postgres.store.jobs written = false := by
      apply related.free_of_open (Table.mem_of_get found) kept.id kept.organizationId kept.kind
      · exact (next.columns_subject _ _).trans kept.subject
      · exact moved.open_of_open
    apply Agree.stored written free (job_of_columns rfl created (by rw [numbered]))
    · intro other present
      cases Option.some.inj (current.symm.trans present)
      exact ⟨stands ▸ kept.sameJob.trans next.saved_same, stands ▸ kept.createdAt,
        stands ▸ kept.version ▸ Nat.le_succ _, fun same => absurd same (by
          rw [version]
          exact Nat.ne_of_lt (Nat.lt_succ_self _))⟩
    · show row.version + 1 + rest.length ≤ 2147483647
      have bound := related.fits row (Table.mem_of_get found)
      rw [List.length_cons] at bound
      omega
    · apply memory_stores
      simp only [Aggregate.check, passes, current, organization, version, ne_eq, not_true_eq_false,
        if_false]
      rfl
    · apply postgres_stores _ fresh
      have owned : row.organizationId = next.organizationId := kept.organizationId.symm
      simp only [writeJob, updateJob, found]
      rw [if_pos ⟨owned, numbered⟩, dif_pos ⟨time, room⟩]
      exact if_neg (by simpa using free)
  · apply Agree.refused staleWrite
    · apply memory_refuses
      simp only [Aggregate.check, passes, current, organization, ne_eq, not_true_eq_false, if_false,
        version, not_false_eq_true, if_true]
      rfl
    · apply postgres_refuses
      have stale : ¬ (row.organizationId = next.organizationId ∧ row.version = next.version) := by
        rintro ⟨_, numbered⟩
        apply version
        rw [← stands]
        exact numbered
      simp only [writeJob, updateJob, found]
      exact if_neg stale

/-- A commit is answered alike, and leaves the stores and the copies related. -/
theorem write (related : Related memory postgres (label :: rest)) {input : Commit Job Work}
    (drawn : label.event? = some input.event.id)
    (agree : Agree memory.store postgres.store rest.length input) :
    (memoryPort.write memory input).2 = (postgresPort.write postgres input).2 ∧
      Related (memoryPort.write memory input).1 (postgresPort.write postgres input).1 rest := by
  have tail := related.tail
  cases agree with
  | refused error first second =>
    simp only [JobPort.write, memoryPort, postgresPort, first, second]
    exact ⟨trivial, tail⟩
  | stored row free job later room first second =>
    simp only [JobPort.write, memoryPort, postgresPort, first, second]
    refine ⟨trivial, ?_, tail.copies, ?_, related.unique.set free, tail.room, ?_, tail.drawn, ?_,
      tail.storable⟩
    · rw [← job]
      apply Table.rows_set_map _ related.rows
      intro other
      rfl
    · intro caller copy holds
      obtain ⟨stored, present, copied⟩ := related.held caller copy holds
      rw [Table.get_set]
      by_cases same : input.row.saved.id = copy.id
      · rw [if_pos same]
        have here : input.row.id = copy.id := same
        exact ⟨_, rfl, copied.trans (later stored (here ▸ present))⟩
      · rw [if_neg same]
        exact ⟨stored, present, copied⟩
    · intro other member
      rcases Table.mem_set.mp member with rfl | ⟨held, _⟩
      · exact room
      · exact tail.fits other held
    · intro id member
      have unseen := related.drawn
      rw [List.filterMap_cons_some drawn, List.nodup_cons] at unseen
      rw [Table.get_set_other]
      · exact tail.fresh id member
      · intro same
        exact unseen.1 (same ▸ member)

theorem step (related : Related memory postgres (label :: rest)) :
    (memoryPort.step memory label).2 = (postgresPort.step postgres label).2 ∧
      Related (memoryPort.step memory label).1 (postgresPort.step postgres label).1 rest := by
  have tail := related.tail
  cases label with
  | create input time identityId context =>
    cases created : Job.create { input with createdAt := some time } with
    | error error =>
      simp only [JobPort.step, created]
      exact ⟨trivial, tail⟩
    | ok job =>
      simp only [JobPort.step, created]
      exact related.write rfl (related.agree_create created rfl)
  | load caller id =>
    have found : findById postgres.store.jobs id = .ok (memory.store.get id) := by
      rw [findById_eq, related.get]
    simp only [JobPort.step, memoryPort, postgresPort, found]
    refine ⟨trivial, { tail with copies := by simp only [related.copies], held := ?_ }⟩
    intro other copy holds
    dsimp only at holds ⊢
    by_cases same : other = caller
    · subst same
      rw [Function.update_self] at holds
      have present : memory.store.get id = some copy := holds
      refine ⟨copy, ?_, .refl copy⟩
      rw [JobStore.id_of_get present]
      exact present
    · rw [Function.update_of_ne same] at holds
      exact tail.held other copy holds
  | transition caller command time context =>
    cases holds : memory.copies caller with
    | none =>
      simp only [JobPort.step, ← related.copies, holds]
      exact ⟨trivial, tail⟩
    | some copy =>
      cases applied : command.apply copy (some time) with
      | error error =>
        simp only [JobPort.step, ← related.copies, holds, applied]
        exact ⟨trivial, tail⟩
      | ok next =>
        simp only [JobPort.step, ← related.copies, holds, applied]
        exact related.write rfl (related.agree_update holds applied rfl)
  | findOpen organizationId kind subject =>
    have found := related.findOpen organizationId kind subject
    simp only [JobPort.step, memoryPort, postgresPort, found]
    exact ⟨trivial, tail⟩
  | list organizationId page =>
    have listed := related.list organizationId (related.storable _ List.mem_cons_self)
    simp only [JobPort.step, memoryPort, postgresPort, listed]
    exact ⟨trivial, tail⟩

end Related

namespace Callers

def inMemory : Callers JobStore := ⟨Table.empty, fun _ => none⟩

def overPostgres : Callers (JobDatabase Work) := ⟨JobDatabase.empty, fun _ => none⟩

end Callers

/-- The two adapters answer every run of callers alike, in any interleaving of their
creations, loads, transitions of copies however old, searches and pages. -/
theorem adapters_agree (labels : List (PortLabel Work)) (room : labels.length < 2147483647)
    (drawn : (labels.filterMap PortLabel.event?).Nodup)
    (storable : ∀ label ∈ labels, label.Storable) :
    outputs memoryPort.step Callers.inMemory labels =
      outputs postgresPort.step Callers.overPostgres labels := by
  have keeps : ∀ first second (label : PortLabel Work) rest, Related first second (label :: rest) →
      (memoryPort.step first label).2 = (postgresPort.step second label).2 ∧
        Related (memoryPort.step first label).1 (postgresPort.step second label).1 rest := by
    intro first second label rest related
    exact related.step
  apply outputs_eq keeps
  · refine ⟨rfl, rfl, ?_, ?_, room, ?_, drawn, fun _ _ => rfl, storable⟩
    · intro caller copy holds
      cases holds
    · intro _ _ _ one member
      cases member
    · intro row member
      cases member

/-- Two callers start copies of one job; the second copy is stale by then. A second job
for the subject is refused. The second page starts after the job of the first. -/
def contending : List (PortLabel Unit) :=
  let job (number : Nat) : CreateJobInput :=
    { id := ID.numbered number
      organizationId := ID.numbered 1
      kind := .string (js "document.process")
      subject := subjectValue (some ⟨js "document", ID.numbered 4⟩)
      maxAttempts := .undefined
      createdAt := some 0 }
  let start (caller number : Nat) : PortLabel Unit :=
    .transition caller (.transition .start (ID.numbered 5) .undefined) 1 ⟨ID.numbered number, ()⟩
  [.create (job 2) 0 none ⟨ID.numbered 6, ()⟩, .create (job 3) 0 none ⟨ID.numbered 7, ()⟩,
    .load 0 (ID.numbered 2), .load 1 (ID.numbered 2), start 0 8, start 1 9,
    .list (ID.numbered 1) ⟨10, none⟩,
    .list (ID.numbered 1) ⟨10, some (createdKey 0 (ID.numbered 2))⟩]

private theorem contending_storable : ∀ label ∈ contending, label.Storable := by
  have page : Request.Canonical ⟨10, some (createdKey 0 (ID.numbered 2))⟩ :=
    canonical_createdKey (by decide) (by decide) _ _
  simp only [contending, List.forall_mem_cons, PortLabel.Storable]
  refine ⟨by decide, by decide, trivial, trivial, by decide, by decide, rfl, page, ?_⟩
  intro label member
  cases member

theorem contending_adapters_agree :
    outputs memoryPort.step Callers.inMemory contending =
        outputs postgresPort.step Callers.overPostgres contending ∧
      (outputs memoryPort.step Callers.inMemory contending)[5]? =
        some (.committed (.error staleWrite)) :=
  ⟨adapters_agree contending (by decide) (by decide +kernel) contending_storable, rfl⟩

end N2FNest.Jobs
