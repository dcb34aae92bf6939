import N2FNest.Jobs.Postgres
import N2FNest.Lib.Ascending

/-! Optimistic concurrency over PostgreSQL. A command holds its copy of a job for
as long as it likes; the version check admits its write only while the copy is
still what the row holds, so the committed states of a job form one history. -/

namespace N2FNest.Jobs

open Events Lib Shared

/-- How far a job has come. Every transition raises it. -/
def JobState.progress (state : JobState) : Nat :=
  4 * state.attempts + match state.status with
    | .running => 0
    | .failed => 1
    | .succeeded => 2
    | .queued => 3
    | .canceled => 4

theorem Advances.progress {job next : Job} {action : Action} (moved : Advances job next action) :
    job.progress < next.progress := by
  unfold JobState.progress
  cases moved with
  | start queued _ status attempts => simp only [queued, status, attempts]; omega
  | complete running status attempts => simp only [running, status, attempts]; omega
  | fail running _ _ _ status attempts => simp only [running, status, attempts]; omega
  | retry failed _ status attempts => simp only [failed, status, attempts]; omega
  | cancel live _ status attempts =>
    simp only [status, attempts]
    cases was : job.status with
    | succeeded => exact absurd was live.1
    | canceled => exact absurd was live.2
    | queued => simp
    | running => simp
    | failed => simp

/-- What a committed state was made from. -/
inductive Origin where
  | create (input : CreateJobInput)
  | update (copy : Job) (command : Command) (time : Int)

variable {Work : Type}

/-- The job as the row holds it after a commit, and the event of that commit. -/
structure Entry (Work : Type) where
  origin : Origin
  job : Job
  event : Envelope Work

/-- The payload of a submission: `SubmitJob` names its caller, `SubmitWorkflowJob`
has none. -/
def submittedPayload (identityId : Option ID) (job : Job) : JsObject :=
  match identityId with
  | some identityId => SubmitJob.payload identityId job
  | none => SubmitWorkflowJob.payload job

def submittedEvent (identityId : Option ID) (context : EventContext Work) (time : Int) (job : Job) :
    Envelope Work :=
  jobEvent context .submitted time job (submittedPayload identityId job)

/-- The first state of a job: what `Job.create` made. -/
def Entry.Creates (entry : Entry Work) : Prop :=
  ∃ input job identityId context time, entry.origin = .create input ∧ Job.create input = .ok job ∧
    entry.job = job.saved ∧ entry.event = submittedEvent identityId context time job

/-- The next state of a job: one transition of exactly the state before it. -/
def Entry.Updates (previous entry : Entry Work) : Prop :=
  ∃ command time next context, entry.origin = .update previous.job command time ∧
    command.apply previous.job (some time) = .ok next ∧
    entry.job = next.saved ∧ entry.event = command.event context time next

structure LegalHistory (entries : List (Entry Work)) : Prop where
  first : ∀ entry, entries.head? = some entry → entry.Creates
  rest : entries.IsChain Entry.Updates

namespace LegalHistory

private theorem version_rises (previous entry : Entry Work) (updates : previous.Updates entry) :
    previous.job.version < entry.job.version := by
  obtain ⟨command, time, next, context, _, applied, stored, _⟩ := updates
  have kept := (Command.apply_inv applied).1.version
  rw [stored]
  show previous.job.version < next.version + 1
  omega

private theorem progress_rises (previous entry : Entry Work) (updates : previous.Updates entry) :
    previous.job.progress < entry.job.progress := by
  obtain ⟨command, time, next, context, _, applied, stored, _⟩ := updates
  rw [stored]
  exact (Command.apply_inv applied).2.progress

/-- A version names one state of a job. -/
theorem eq_of_version {entries : List (Entry Work)} (legal : LegalHistory entries)
    {entry other : Entry Work} (member : entry ∈ entries) (present : other ∈ entries)
    (same : entry.job.version = other.job.version) : entry = other :=
  chain_injective (fun entry => entry.job.version) version_rises legal.rest member present
    same

theorem progress_le {entries : List (Entry Work)} (legal : LegalHistory entries)
    {entry last : Entry Work} (member : entry ∈ entries) (final : entries.getLast? = some last) :
    entry.job.progress ≤ last.job.progress :=
  chain_le_last (fun entry => entry.job.progress) progress_rises legal.rest member final

theorem source {entries : List (Entry Work)} (legal : LegalHistory entries) {entry : Entry Work}
    (member : entry ∈ entries) : entry.Creates ∨ ∃ previous : Entry Work, previous.Updates entry := by
  rcases chain_source legal.rest member with head | ⟨previous, _, updates⟩
  · exact .inl (legal.first entry head)
  · exact .inr ⟨previous, updates⟩

theorem create {entry : Entry Work} (creates : entry.Creates) : LegalHistory [entry] where
  first := by
    intro first head
    cases Option.some.inj head
    exact creates
  rest := List.isChain_singleton entry

theorem update {entries : List (Entry Work)} (legal : LegalHistory entries)
    {last entry : Entry Work} (final : entries.getLast? = some last) (updates : last.Updates entry) :
    LegalHistory (entries ++ [entry]) where
  first := by
    intro first head
    apply legal.first
    cases entries with
    | nil => cases final
    | cons _ _ => exact head
  rest := by
    apply chain_concat legal.rest
    intro other same
    cases Option.some.inj (final.symm.trans same)
    exact updates

end LegalHistory

/-- The database, the copies that commands hold, and every commit so far. -/
structure Commands (Work : Type) where
  database : JobDatabase Work
  copies : Nat → Option Job
  log : List (Entry Work)

namespace Commands

/-- The committed states of one job. -/
def history (state : Commands Work) (id : ID) : List (Entry Work) :=
  state.log.filter fun entry => entry.job.id = id

/-- What holds in every state: rows, versions, copies and outbox all follow the log. -/
structure Linear (state : Commands Work) : Prop where
  legal : ∀ id, LegalHistory (state.history id)
  stored : ∀ id, (state.database.jobs.get id).map JobRow.job =
    (state.history id).getLast?.map Entry.job
  counted : ∀ id row, state.database.jobs.get id = some row →
    row.version = (state.history id).length
  copied : ∀ client copy, state.copies client = some copy → ∃ entry ∈ state.log, entry.job = copy
  outbox : state.database.outbox.rows = state.log.map Entry.event

namespace Linear

private theorem mem_history {state : Commands Work} {entry : Entry Work} (member : entry ∈ state.log)
    {id : ID} (named : entry.job.id = id) : entry ∈ state.history id :=
  List.mem_filter.mpr ⟨member, by simpa using named⟩

/-- The last entry of a stored job's history is what its row holds. -/
private theorem last {state : Commands Work} (linear : state.Linear) {id : ID} {row : JobRow}
    (found : state.database.jobs.get id = some row) :
    ∃ last, (state.history id).getLast? = some last ∧ last.job = row.job := by
  have stored := linear.stored id
  rw [found] at stored
  cases final : (state.history id).getLast? with
  | none => simp [final] at stored
  | some last => exact ⟨last, rfl, by simpa [final] using stored.symm⟩

private theorem history_empty {state : Commands Work} (linear : state.Linear) {id : ID}
    (missing : state.database.jobs.get id = none) : state.history id = [] := by
  have stored := linear.stored id
  rw [missing] at stored
  cases final : (state.history id).getLast? with
  | none => exact List.getLast?_eq_none_iff.mp final
  | some last => simp [final] at stored

/-- A copy at the stored version is what the row holds. -/
theorem current {state : Commands Work} (linear : state.Linear) {client : Nat} {copy : Job}
    {row : JobRow} (held : state.copies client = some copy)
    (found : state.database.jobs.get copy.id = some row) (version : row.version = copy.version) :
    copy = row.job := by
  obtain ⟨entry, member, same⟩ := linear.copied client copy held
  obtain ⟨last, final, stands⟩ := linear.last found
  have past := mem_history member (congrArg (·.id) same)
  have recent := List.mem_of_getLast? final
  have identical : entry = last := by
    apply (linear.legal copy.id).eq_of_version past recent
    rw [same, stands]
    exact version.symm
  rw [← same, identical, stands]

private theorem history_concat (state : Commands Work) (database : JobDatabase Work)
    (entry : Entry Work) (id : ID) :
    history { state with database := database, log := state.log ++ [entry] } id =
      if entry.job.id = id then state.history id ++ [entry] else state.history id := by
  by_cases same : entry.job.id = id <;> simp [history, same]

/-- A commit of the next state of one job's history keeps the log and the
database in step. -/
private theorem append {state : Commands Work} (linear : state.Linear) {database : JobDatabase Work}
    {row : JobRow} (entry : Entry Work) (jobs : database.jobs = state.database.jobs.set row)
    (outbox : database.outbox.rows = state.database.outbox.rows ++ [entry.event])
    (written : entry.job = row.job) (legal : LegalHistory (state.history row.id ++ [entry]))
    (version : row.version = (state.history row.id).length + 1) :
    Linear { state with database := database, log := state.log ++ [entry] } := by
  have named : entry.job.id = row.id := congrArg (·.id) written
  refine ⟨?_, ?_, ?_, ?_, ?_⟩
  · intro id
    rw [history_concat, named]
    by_cases same : row.id = id
    · subst same
      rw [if_pos rfl]
      exact legal
    · rw [if_neg same]
      exact linear.legal id
  · intro id
    rw [history_concat, named, jobs, Table.get_set]
    by_cases same : row.id = id
    · simp [same, written]
    · rw [if_neg same, if_neg same]
      exact linear.stored id
  · intro id held found
    simp only [jobs, Table.get_set] at found
    rw [history_concat, named]
    by_cases same : row.id = id
    · subst same
      rw [if_pos rfl] at found ⊢
      cases Option.some.inj found
      simpa using version
    · rw [if_neg same] at found ⊢
      exact linear.counted id held found
  · intro client copy held
    obtain ⟨entry, member, same⟩ := linear.copied client copy held
    exact ⟨entry, List.mem_append_left _ member, same⟩
  · simp only [outbox, linear.outbox, List.map_append, List.map_cons, List.map_nil]

end Linear

end Commands

inductive CommandLabel (Work : Type) where
  | create (input : CreateJobInput) (time : Int) (identityId : Option ID)
      (context : EventContext Work) (fault : Option Failure)
  | read (client : Nat) (id : ID)
  | update (client : Nat) (command : Command) (time : Int) (context : EventContext Work)
      (fault : Option Failure)

variable [DecidableEq Work]

namespace Commands

def initial : Commands Work := ⟨.empty, fun _ => none, []⟩

/-- A commit, and the row it left behind when it was accepted. -/
def commit (state : Commands Work) (origin : Origin) (mode : CommitMode) (job : Job)
    (event : Envelope Work) (fault : Option Failure) : Commands Work :=
  match state.database.commit ⟨mode, job, event, event.work⟩ fault with
  | .error _ => state
  | .ok database =>
    let written := (database.jobs.get job.id).toList.map fun row => ⟨origin, row.job, event⟩
    { state with database := database, log := state.log ++ written }

/-- Submit a new job. -/
def create (state : Commands Work) (input : CreateJobInput) (time : Int) (identityId : Option ID)
    (context : EventContext Work) (fault : Option Failure) : Commands Work :=
  let input := { input with createdAt := some time }
  match Job.create input with
  | .error _ => state
  | .ok job => state.commit (.create input) .create job
      (submittedEvent identityId context time job) fault

/-- Transition the copy a client holds and commit the result. -/
def update (state : Commands Work) (client : Nat) (command : Command) (time : Int)
    (context : EventContext Work) (fault : Option Failure) : Commands Work :=
  match state.copies client with
  | none => state
  | some copy => match command.apply copy (some time) with
    | .error _ => state
    | .ok next => state.commit (.update copy command time) .update next
        (command.event context time next) fault

/-- Take a copy of a row, by whichever query a command uses. -/
def read (state : Commands Work) (client : Nat) (id : ID) : Commands Work :=
  match findById state.database.jobs id with
  | .error _ => state
  | .ok found => { state with copies := Function.update state.copies client found }

def step (state : Commands Work) : CommandLabel Work → Commands Work
  | .create input time identityId context fault => state.create input time identityId context fault
  | .read client id => state.read client id
  | .update client command time context fault => state.update client command time context fault

end Commands

/-- A commit that a command asks for. -/
structure Attempt (Work : Type) where
  origin : Origin
  mode : CommitMode
  job : Job
  event : Envelope Work
  fault : Option Failure

namespace Attempt

/-- What the writer answers to it. -/
def answer (attempt : Attempt Work) (database : JobDatabase Work) :
    Except Failure (JobDatabase Work) :=
  database.commit ⟨attempt.mode, attempt.job, attempt.event, attempt.event.work⟩ attempt.fault

omit [DecidableEq Work] in
/-- The job as it is saved, with its event. -/
def entry (attempt : Attempt Work) : Entry Work := ⟨attempt.origin, attempt.job.saved, attempt.event⟩

end Attempt

namespace Commands

omit [DecidableEq Work] in
/-- The commit a label asks for: none where the job is not there or its own rules refuse. -/
def attempt (state : Commands Work) : CommandLabel Work → Option (Attempt Work)
  | .create input time identityId context fault =>
    let input := { input with createdAt := some time }
    match Job.create input with
    | .error _ => none
    | .ok job =>
      some ⟨.create input, .create, job, submittedEvent identityId context time job, fault⟩
  | .read _ _ => none
  | .update client command time context fault => match state.copies client with
    | none => none
    | some copy => match command.apply copy (some time) with
      | .error _ => none
      | .ok next =>
        some ⟨.update copy command time, .update, next, command.event context time next, fault⟩

/-- The attempts of a run that the writer answered with ok, in order. -/
def successes (state : Commands Work) : List (CommandLabel Work) → List (Attempt Work)
  | [] => []
  | label :: labels => match state.attempt label with
    | none => successes (state.step label) labels
    | some attempt => match attempt.answer state.database with
      | .error _ => successes (state.step label) labels
      | .ok _ => attempt :: successes (state.step label) labels

/-- What a step leaves, as the writer answered the commit it asked for. -/
structure Answered (state next : Commands Work) (asked : Option (Attempt Work)) : Prop where
  idle : asked = none → next.database = state.database ∧ next.log = state.log
  refused : ∀ attempt failure, asked = some attempt →
    attempt.answer state.database = .error failure →
      next.database = state.database ∧ next.log = state.log
  committed : ∀ attempt database, asked = some attempt →
    attempt.answer state.database = .ok database →
      next.database = database ∧ next.log = state.log ++ [attempt.entry]

end Commands

private theorem Job.columns_state (job : Job) (createdAt : Int) (version : Nat) :
    (job.columns createdAt version).state =
      { job.toJobState with createdAt := createdAt, version := version } := by
  have about := job.columns_subject createdAt version
  simp only [JobColumns.state, about]
  rfl

theorem job_of_columns {row : JobRow} {job : Job} {createdAt : Int} {version : Nat}
    (columns : row.toJobColumns = job.columns createdAt version) (created : createdAt = job.createdAt)
    (next : version = job.version + 1) : row.job = job.saved := by
  have states : row.state = job.saved.toJobState := by
    rw [columns, job.columns_state, created, next]
    rfl
  simp only [JobRow.job]
  congr

theorem Writes.created {jobs : JobTable} {job : Job} {row : JobRow}
    (writes : Writes jobs job row .create) (unsaved : job.version = UNSAVED) :
    jobs.get job.id = none ∧ row.job = job.saved := by
  cases writes with
  | create fresh columns => exact ⟨fresh, job_of_columns columns rfl (by rw [unsaved]; rfl)⟩

theorem Writes.updated {jobs : JobTable} {job : Job} {row : JobRow}
    (writes : Writes jobs job row .update) : ∃ stored, jobs.get job.id = some stored ∧
      stored.version = job.version ∧ (stored.createdAt = job.createdAt → row.job = job.saved) := by
  cases writes with
  | update stored found _ version columns =>
    refine ⟨stored, found, version, fun created => job_of_columns columns created ?_⟩
    rw [version]

/-- An event that no held one equals goes to the end of the outbox. -/
private theorem enqueue_new {outbox next : EventLog Work} {event : Envelope Work}
    (queued : EventLog.enqueue outbox event = .ok next)
    (unseen : ∀ held ∈ outbox.rows, held.sameJson event = false) :
    next.rows = outbox.rows ++ [event] := by
  unfold EventLog.enqueue at queued
  split at queued
  · rename_i missing
    cases queued
    exact Table.rows_set_new missing
  · rename_i held found
    rw [unseen held (Table.mem_of_get found)] at queued
    cases queued

namespace Commands

theorem commit_cases (state : Commands Work) (origin : Origin) (mode : CommitMode) (job : Job)
    (event : Envelope Work) (fault : Option Failure) :
    state.commit origin mode job event fault = state ∨
      ∃ row database, Writes state.database.jobs job row mode ∧
        database.jobs = state.database.jobs.set row ∧
        EventLog.enqueue state.database.outbox event = .ok database.outbox ∧
        state.commit origin mode job event fault =
          { state with database := database, log := state.log ++ [⟨origin, row.job, event⟩] } := by
  unfold commit
  split
  · exact .inl rfl
  · rename_i database done
    obtain ⟨row, writes, _, stored, queued⟩ := JobDatabase.commit_inv done
    have found : database.jobs.get job.id = some row := by
      have same := Table.get_set_same state.database.jobs row
      rw [writes.id] at same
      rw [stored]
      exact same
    refine .inr ⟨row, database, writes, stored, queued, ?_⟩
    simp only [found, Option.toList_some, List.map_cons, List.map_nil]

private theorem submitted_jobId (identityId : Option ID) (job : Job) :
    (submittedPayload identityId job).read (js "job_id") = .string job.id.text := by
  cases identityId <;> rfl

private theorem eventType_ne_submitted (action : Action) : action.eventType ≠ .submitted := by
  cases action <;> simp [Action.eventType]

/-- A submission of a job that has no row yet is a new event. -/
private theorem Linear.submitted_unseen {state : Commands Work} (linear : state.Linear) {job : Job}
    (missing : state.database.jobs.get job.id = none) (identityId : Option ID)
    (context : EventContext Work) (time : Int) :
    ∀ held ∈ state.database.outbox.rows,
      held.sameJson (submittedEvent identityId context time job) = false := by
  intro held queued
  rw [linear.outbox] at queued
  obtain ⟨entry, member, rfl⟩ := List.mem_map.mp queued
  by_contra seen
  obtain ⟨_, types, fields⟩ := Envelope.sameJson_parts (by simpa using seen)
  rcases (linear.legal entry.job.id).source (mem_history member rfl) with
    ⟨_, first, _, _, _, _, _, stored, emitted⟩ | ⟨_, command, _, next, _, _, _, _, emitted⟩
  · rw [emitted] at fields
    have texts := sameFields_string fields (submitted_jobId _ first)
    rw [submittedEvent, jobEvent, submitted_jobId] at texts
    have named : entry.job.id = job.id := by
      rw [stored]
      exact (ID.eq_of_text (JsValue.string.inj texts)).symm
    have past := mem_history member named
    rw [linear.history_empty missing] at past
    cases past
  · rw [emitted] at types
    exact eventType_ne_submitted command.action (JobEventType.name_inj types)

/-- A transition of the stored state is a new event: the job has never come this
far before. -/
private theorem Linear.transition_unseen {state : Commands Work} (linear : state.Linear)
    {row : JobRow} {command : Command} {time : Int} {next : Job}
    (found : state.database.jobs.get next.id = some row)
    (applied : command.apply row.job (some time) = .ok next) (context : EventContext Work) :
    ∀ held ∈ state.database.outbox.rows,
      held.sameJson (command.event context time next) = false := by
  intro held queued
  rw [linear.outbox] at queued
  obtain ⟨entry, member, rfl⟩ := List.mem_map.mp queued
  by_contra seen
  obtain ⟨_, types, fields⟩ := Envelope.sameJson_parts (by simpa using seen)
  rcases (linear.legal entry.job.id).source (mem_history member rfl) with
    ⟨_, _, _, _, _, _, _, _, emitted⟩ | ⟨_, earlier, _, past, _, _, _, stored, emitted⟩
  · rw [emitted] at types
    exact eventType_ne_submitted command.action (JobEventType.name_inj types.symm)
  · rw [emitted] at fields
    have texts := sameFields_string fields (earlier.read_jobId past)
    have statuses := sameFields_string fields (earlier.read_status past)
    have counts := sameFields_number fields (earlier.read_attempts past)
    rw [Command.event, jobEvent, command.read_jobId] at texts
    rw [Command.event, jobEvent, command.read_status] at statuses
    rw [Command.event, jobEvent, command.read_attempts] at counts
    have named : next.id = past.id := ID.eq_of_text (JsValue.string.inj texts)
    have status : next.status = past.status := JobStatus.name_inj (JsValue.string.inj statuses)
    have attempts : next.attempts = past.attempts := JsNumber.ofNat_inj (JsValue.number.inj counts)
    obtain ⟨last, final, stands⟩ := linear.last found
    have held : entry ∈ state.history next.id := by
      apply mem_history member
      rw [stored, named]
      rfl
    have reached := (linear.legal next.id).progress_le held final
    have further := (Command.apply_inv applied).2.progress
    have same : entry.job.progress = next.progress := by
      rw [stored]
      show past.progress = next.progress
      simp only [JobState.progress, status, attempts]
    rw [stands] at reached
    omega

theorem Linear.create {state : Commands Work} (linear : state.Linear) (input : CreateJobInput)
    (time : Int) (identityId : Option ID) (context : EventContext Work) (fault : Option Failure) :
    (state.create input time identityId context fault).Linear := by
  unfold Commands.create
  dsimp only
  split
  · exact linear
  · rename_i job created
    rcases commit_cases state _ .create job (submittedEvent identityId context time job) fault with
      same | ⟨row, database, writes, jobs, queued, same⟩
    · rw [same]
      exact linear
    · rw [same]
      obtain ⟨missing, written⟩ := writes.created (Job.create_inv created).2.2.2.2.2.1
      have empty : state.history row.id = [] := by
        rw [writes.id]
        exact linear.history_empty missing
      have outbox := enqueue_new queued (linear.submitted_unseen missing _ _ _)
      apply linear.append ⟨_, row.job, submittedEvent identityId context time job⟩ jobs outbox rfl
      · rw [empty]
        exact .create ⟨_, job, identityId, context, time, rfl, created, written, rfl⟩
      · rw [empty]
        have version : row.job.version = job.version + 1 := by rw [written]; rfl
        rw [(Job.create_inv created).2.2.2.2.2.1] at version
        exact version

omit [DecidableEq Work] in
/-- An accepted update was made from what the row held. -/
private theorem Linear.updated {state : Commands Work} (linear : state.Linear) {client : Nat}
    {copy next : Job} {command : Command} {time : Int} {row : JobRow}
    (held : state.copies client = some copy) (applied : command.apply copy (some time) = .ok next)
    (writes : Writes state.database.jobs next row .update) :
    ∃ stored, state.database.jobs.get next.id = some stored ∧ stored.version = next.version ∧
      copy = stored.job ∧ row.job = next.saved := by
  have kept := (Command.apply_inv applied).1
  obtain ⟨stored, found, version, written⟩ := writes.updated
  have current : copy = stored.job :=
    linear.current held (kept.id ▸ found) (version.trans kept.version)
  subst current
  exact ⟨stored, found, version, rfl, written kept.createdAt.symm⟩

theorem Linear.update {state : Commands Work} (linear : state.Linear) (client : Nat)
    (command : Command) (time : Int) (context : EventContext Work) (fault : Option Failure) :
    (state.update client command time context fault).Linear := by
  unfold Commands.update
  split
  · exact linear
  · rename_i copy held
    split
    · exact linear
    · rename_i next applied
      rcases commit_cases state _ .update next (command.event context time next) fault with
        same | ⟨row, database, writes, jobs, queued, same⟩
      · rw [same]
        exact linear
      · rw [same]
        obtain ⟨stored, found, version, rfl, written⟩ := linear.updated held applied writes
        obtain ⟨last, final, stands⟩ := linear.last found
        have count := linear.counted next.id stored found
        rw [← writes.id] at final count
        have outbox := enqueue_new queued (linear.transition_unseen found applied _)
        apply linear.append ⟨_, row.job, command.event context time next⟩ jobs outbox rfl
        · apply (linear.legal row.id).update final
          refine ⟨command, time, next, context, ?_, ?_, written, rfl⟩
          · rw [stands]
          · rw [stands]
            exact applied
        · rw [← count, version]
          exact congrArg (·.version) written

omit [DecidableEq Work] in
theorem Linear.read {state : Commands Work} (linear : state.Linear) (client : Nat) (id : ID) :
    (state.read client id).Linear := by
  unfold Commands.read
  rw [findById_eq]
  refine ⟨linear.legal, linear.stored, linear.counted, ?_, linear.outbox⟩
  intro other copy held
  by_cases same : other = client
  · subst same
    simp only [Function.update_self, Option.map_eq_some_iff] at held
    obtain ⟨row, found, rfl⟩ := held
    obtain ⟨last, final, stands⟩ := linear.last found
    exact ⟨last, (List.mem_filter.mp (List.mem_of_getLast? final)).1, stands⟩
  · simp only [Function.update_of_ne same] at held
    exact linear.copied other copy held

theorem Linear.step {state : Commands Work} (linear : state.Linear) (label : CommandLabel Work) :
    (state.step label).Linear := by
  cases label with
  | create input time identityId context fault => exact linear.create input time identityId context fault
  | read client id => exact linear.read client id
  | update client command time context fault => exact linear.update client command time context fault

omit [DecidableEq Work] in
/-- What a commit writes is the job it was asked to save. -/
private theorem Linear.written {state : Commands Work} (linear : state.Linear)
    {label : CommandLabel Work} {attempt : Attempt Work} (asked : state.attempt label = some attempt)
    {row : JobRow} (writes : Writes state.database.jobs attempt.job row attempt.mode) :
    row.job = attempt.job.saved := by
  cases label with
  | create input time identityId context fault =>
    simp only [Commands.attempt] at asked
    cases created : Job.create { input with createdAt := some time } with
    | error => simp [created] at asked
    | ok job =>
      simp only [created, Option.some.injEq] at asked
      subst asked
      exact (writes.created (Job.create_inv created).2.2.2.2.2.1).2
  | read client id => cases asked
  | update client command time context fault =>
    simp only [Commands.attempt] at asked
    cases held : state.copies client with
    | none => simp [held] at asked
    | some copy =>
      cases applied : command.apply copy (some time) with
      | error => simp [held, applied] at asked
      | ok next =>
        simp only [held, applied, Option.some.injEq] at asked
        subst asked
        obtain ⟨_, _, _, _, written⟩ := linear.updated held applied writes
        exact written

/-- A step is the commit it asks for, if any. -/
private theorem step_database_log (state : Commands Work) (label : CommandLabel Work) :
    (state.attempt label = none ∧ (state.step label).database = state.database ∧
        (state.step label).log = state.log) ∨
      ∃ attempt, state.attempt label = some attempt ∧ state.step label =
        state.commit attempt.origin attempt.mode attempt.job attempt.event attempt.fault := by
  cases label with
  | create input time identityId context fault =>
    simp only [Commands.step, Commands.create, Commands.attempt]
    cases Job.create { input with createdAt := some time } with
    | error => exact .inl ⟨rfl, rfl, rfl⟩
    | ok job => exact .inr ⟨_, rfl, rfl⟩
  | read client id =>
    refine .inl ⟨rfl, ?_⟩
    simp [Commands.step, Commands.read, findById_eq]
  | update client command time context fault =>
    simp only [Commands.step, Commands.update, Commands.attempt]
    cases state.copies client with
    | none => exact .inl ⟨rfl, rfl, rfl⟩
    | some copy =>
      dsimp only
      cases command.apply copy (some time) with
      | error => exact .inl ⟨rfl, rfl, rfl⟩
      | ok next => exact .inr ⟨_, rfl, rfl⟩

/-- A commit answered with an error changes nothing; one answered with ok adds the job
it was asked to save, and its event. -/
theorem Linear.answered {state : Commands Work} (linear : state.Linear)
    (label : CommandLabel Work) : state.Answered (state.step label) (state.attempt label) := by
  rcases state.step_database_log label with ⟨none, idle⟩ | ⟨attempt, asked, step⟩
  · rw [none]
    exact ⟨fun _ => idle, fun _ _ some => (by cases some), fun _ _ some => (by cases some)⟩
  · rw [asked, step]
    refine ⟨fun none => (by cases none), ?_, ?_⟩
    · intro other failure same answer
      cases same
      simp only [Attempt.answer] at answer
      rw [Commands.commit, answer]
      exact ⟨rfl, rfl⟩
    · intro other database same answer
      cases same
      simp only [Attempt.answer] at answer
      obtain ⟨row, writes, _, stored, _⟩ := JobDatabase.commit_inv answer
      have found : database.jobs.get attempt.job.id = some row := by
        rw [stored, ← writes.id]
        exact Table.get_set_same state.database.jobs row
      rw [Commands.commit, answer]
      simp only [found, Option.toList_some, List.map_cons, List.map_nil, linear.written asked writes]
      exact ⟨trivial, rfl⟩

/-- The log of a run is what its successful commits saved, in order. -/
theorem Linear.log_run {state : Commands Work} (linear : state.Linear)
    (labels : List (CommandLabel Work)) :
    (run Commands.step state labels).log =
      state.log ++ (state.successes labels).map Attempt.entry := by
  induction labels generalizing state with
  | nil => simp [Commands.successes]
  | cons label labels ih =>
    have answered := linear.answered label
    rw [run_cons, ih (linear.step label), Commands.successes]
    cases asked : state.attempt label with
    | none => rw [(answered.idle asked).2]
    | some attempt =>
      cases answer : attempt.answer state.database with
      | error failure => simp only [answer, (answered.refused attempt failure asked answer).2]
      | ok database =>
        simp only [answer, (answered.committed attempt database asked answer).2, List.map_cons,
          List.append_assoc, List.cons_append, List.nil_append]

end Commands

/-- Optimistic concurrency linearises every job: for any interleaving of commands,
the committed states of a job are a legal history whose length is the stored
version and whose end is the stored row. The log is exactly the commits answered
with ok, the outbox holds one event for each, and a refused commit changes nothing. -/
theorem commits_linearize (labels : List (CommandLabel Work)) :
    let state := run Commands.step Commands.initial labels
    let successes := Commands.successes Commands.initial labels
    (∀ id, LegalHistory (state.history id) ∧
      (state.database.jobs.get id).map JobRow.job = (state.history id).getLast?.map Entry.job ∧
      ∀ row, state.database.jobs.get id = some row → row.version = (state.history id).length ∧
        row.version = (successes.filter fun attempt => attempt.job.id = id).length) ∧
    state.log = successes.map Attempt.entry ∧
    state.database.outbox.rows = state.log.map Entry.event ∧
    ∀ label, state.Answered (state.step label) (state.attempt label) := by
  intro state successes
  have initial : (Commands.initial : Commands Work).Linear := by
    refine ⟨fun id => ⟨?_, ?_⟩, fun id => rfl, ?_, ?_, rfl⟩
    · intro entry head
      cases head
    · exact List.isChain_nil
    · intro id row found
      cases found
    · intro client copy held
      cases held
  have linear : state.Linear := by
    refine run_invariant (fun state => Commands.Linear state) ?_ initial labels
    intro state label holds
    exact holds.step label
  have log : state.log = successes.map Attempt.entry := initial.log_run labels
  have count : ∀ id, (state.history id).length =
      (successes.filter fun attempt => attempt.job.id = id).length := by
    intro id
    have same : (fun entry : Entry Work => decide (entry.job.id = id)) ∘ Attempt.entry =
        fun attempt => decide (attempt.job.id = id) := rfl
    rw [Commands.history, log, List.filter_map, List.length_map, same]
  refine ⟨fun id => ⟨linear.legal id, linear.stored id, ?_⟩, log, linear.outbox, linear.answered⟩
  intro row found
  have version := linear.counted id row found
  exact ⟨version, version.trans (count id)⟩

/-- Two clients start their copies of one job; the second copy is stale by then. -/
def contended : List (CommandLabel Unit) :=
  let job : CreateJobInput :=
    { id := ID.numbered 2
      organizationId := ID.numbered 1
      kind := .string (js "document.process")
      subject := subjectValue (some ⟨js "document", ID.numbered 4⟩)
      maxAttempts := .undefined
      createdAt := some 0 }
  let start (client number : Nat) : CommandLabel Unit :=
    .update client (.transition .start (ID.numbered 5) .undefined) 1 ⟨ID.numbered number, ()⟩ none
  [.create job 0 none ⟨ID.numbered 6, ()⟩ none, .read 0 (ID.numbered 2), .read 1 (ID.numbered 2),
    start 0 7, start 1 8]

private theorem contended_successes :
    (Commands.successes Commands.initial contended).map (·.event.id) =
      [ID.numbered 6, ID.numbered 7] := rfl

theorem contended_linearize :
    (run Commands.step Commands.initial contended).database.outbox.rows.map (·.id) =
        [ID.numbered 6, ID.numbered 7] ∧
      ∀ row, (run Commands.step Commands.initial contended).database.jobs.get (ID.numbered 2) =
        some row → row.version = 2 := by
  obtain ⟨jobs, log, outbox, _⟩ := commits_linearize contended
  refine ⟨?_, ?_⟩
  · rw [outbox, log, List.map_map, List.map_map]
    exact contended_successes
  · intro row found
    rw [((jobs (ID.numbered 2)).2.2 row found).2]
    rfl

end N2FNest.Jobs
