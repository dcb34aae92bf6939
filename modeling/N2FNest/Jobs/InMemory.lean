import N2FNest.Jobs.Events
import N2FNest.Shared.InMemoryWriter

/-! The in-memory job store and its writer. The writer checks the subject of a
new job only, so one open job per subject rests on nothing else opening a job. -/

namespace N2FNest.Jobs

open Events Lib Shared

def jobExists : Failure := failure .conflict "job already exists" "job.already_exists"

def subjectTaken : Failure :=
  failure .conflict "a job already exists for this subject" "job.subject_taken"

def jobNotFound : Failure := failure .notFound "job was not found" "job.not_found"

def staleWrite : Failure :=
  failure .conflict "job was changed by a concurrent operation" "job.stale_write"

abbrev JobStore := Table (fun job : Job => job.id)

theorem JobStore.id_of_get {jobs : JobStore} {id : ID} {job : Job}
    (found : jobs.get id = some job) : job.id = id := by
  have named := Table.key_of_get found
  exact named

/-- Whether a job is an open one for this organization, kind and subject. -/
def JobState.opens (job : JobState) (organizationId : ID) (kind : JsString) (subject : JobSubject) :
    Bool :=
  job.isOpen && job.organizationId == organizationId && job.kind == kind &&
    job.subject == some subject

def openJobBySubject (store : JobStore) (organizationId : ID) (kind : JsString)
    (subject : JobSubject) : Option Job :=
  store.rows.find? fun job => job.opens organizationId kind subject

/-- The check of a new job's subject; a job without a subject is never refused. -/
def refuseSubject (store : JobStore) (job : Job) : Option Failure :=
  match job.subject with
  | some subject =>
    match openJobBySubject store job.organizationId job.kind subject with
    | some _ => some subjectTaken
    | none => none
  | none => none

@[reducible] def jobAggregate : Aggregate Job where
  id job := job.id
  organizationId job := job.organizationId
  version job := job.version
  saved := Job.saved
  saved_id _ := rfl
  saved_version _ := rfl
  existing := jobExists
  missing := jobNotFound
  organizationMismatch :=
    failure .conflict "job organization cannot change" "job.organization_mismatch"
  staleWrite := staleWrite
  refuse := refuseSubject

theorem JobState.opens_iff {job : JobState} {organizationId : ID} {kind : JsString}
    {subject : JobSubject} : job.opens organizationId kind subject = true ↔
      job.isOpen = true ∧ job.organizationId = organizationId ∧ job.kind = kind ∧
        job.subject = some subject := by
  simp [JobState.opens, and_assoc]

theorem openJobBySubject_inv {store : JobStore} {organizationId : ID} {kind : JsString}
    {subject : JobSubject} {job : Job}
    (found : openJobBySubject store organizationId kind subject = some job) :
    job ∈ store.rows ∧ job.opens organizationId kind subject = true := by
  refine ⟨List.mem_of_find?_eq_some found, ?_⟩
  exact List.find?_some (p := fun job : Job => job.opens organizationId kind subject) found

/-- At most one open job per organization, kind and subject. -/
def UniqueOpen (store : JobStore) : Prop :=
  ∀ organizationId kind subject, ∀ one ∈ store.rows, ∀ other ∈ store.rows,
    one.opens organizationId kind subject = true → other.opens organizationId kind subject = true →
    one = other

theorem UniqueOpen.length_le {store : JobStore} (unique : UniqueOpen store) (organizationId : ID)
    (kind : JsString) (subject : JobSubject) :
    (store.rows.filter fun job => job.opens organizationId kind subject).length ≤ 1 := by
  have distinct : (store.rows.filter fun job => job.opens organizationId kind subject).Nodup :=
    (store.unique.of_map _).filter _
  match rows : store.rows.filter fun job => job.opens organizationId kind subject with
  | [] => simp [rows]
  | [job] => simp [rows]
  | one :: other :: rest =>
    have first : one ∈ store.rows.filter fun job => job.opens organizationId kind subject := by
      simp [rows]
    have second : other ∈ store.rows.filter fun job => job.opens organizationId kind subject := by
      simp [rows]
    obtain ⟨oneMember, oneOpens⟩ := List.mem_filter.mp first
    obtain ⟨otherMember, otherOpens⟩ := List.mem_filter.mp second
    have same := unique _ _ _ one oneMember other otherMember oneOpens otherOpens
    rw [rows, same] at distinct
    simp at distinct

/-- Another job of the store is open for the subject this one is open for. -/
def Contested (store : JobStore) (job : Job) : Prop :=
  job.isOpen = true ∧ ∃ subject, job.subject = some subject ∧ ∃ other ∈ store.rows,
    other.id ≠ job.id ∧ other.opens job.organizationId job.kind subject = true

/-- Storing a job keeps open jobs unique exactly when the job is not contested. -/
theorem uniqueOpen_set {store : JobStore} (unique : UniqueOpen store) (job : Job) :
    UniqueOpen (store.set job) ↔ ¬ Contested store job := by
  constructor
  · rintro after ⟨opened, subject, about, other, member, different, also⟩
    have mine : job.opens job.organizationId job.kind subject = true :=
      JobState.opens_iff.mpr ⟨opened, rfl, rfl, about⟩
    have same := after job.organizationId job.kind subject other
      (Table.mem_set.mpr (.inr ⟨member, different⟩)) job (Table.mem_set.mpr (.inl rfl)) also mine
    exact different (congrArg (fun row : Job => row.id) same)
  · intro free organizationId kind subject one oneMember other otherMember oneOpens otherOpens
    have clash : ∀ rival ∈ store.rows, rival.id ≠ job.id →
        job.opens organizationId kind subject = true →
        rival.opens organizationId kind subject = true → False := by
      intro rival member different mine also
      obtain ⟨opened, organization, kinds, about⟩ := JobState.opens_iff.mp mine
      exact free ⟨opened, subject, about, rival, member, different, by
        rw [organization, kinds]
        exact also⟩
    rcases Table.mem_set.mp oneMember with rfl | ⟨oneHeld, oneApart⟩ <;>
      rcases Table.mem_set.mp otherMember with rfl | ⟨otherHeld, otherApart⟩
    · rfl
    · exact (clash other otherHeld otherApart oneOpens otherOpens).elim
    · exact (clash one oneHeld oneApart otherOpens oneOpens).elim
    · exact unique organizationId kind subject one oneHeld other otherHeld oneOpens otherOpens

theorem uniqueOpen_delete {store : JobStore} (unique : UniqueOpen store) (id : ID) :
    UniqueOpen (store.delete id) := by
  intro organizationId kind subject one oneMember other otherMember
  exact unique organizationId kind subject one (List.mem_of_mem_filter oneMember) other
    (List.mem_of_mem_filter otherMember)

theorem not_contested_of_refuse {store : JobStore} {job : Job}
    (free : refuseSubject store job = none) : ¬ Contested store job := by
  rintro ⟨opened, subject, about, other, member, different, also⟩
  simp only [refuseSubject, about] at free
  split at free
  · cases free
  · rename_i missing
    exact List.find?_eq_none.mp missing other member also

/-- A commit whose publication succeeds at once. -/
def JobStore.commit {Work : Type} [DecidableEq Work] (store : JobStore) (input : Commit Job Work) :
    Except Failure JobStore := do
  let _ ← jobAggregate.check store input
  return store.set input.row.saved

theorem JobStore.commit_inv {Work : Type} [DecidableEq Work] {store next : JobStore}
    {input : Commit Job Work} (done : JobStore.commit store input = .ok next) :
    next = store.set input.row.saved ∧
      (input.mode = .create → store.get input.row.id = none) := by
  obtain ⟨previous, accepted, same⟩ := bind_ok done
  refine ⟨(pure_eq_ok.mp same).symm, ?_⟩
  intro creating
  obtain ⟨found, ⟨absent, _⟩ | ⟨_, _, updating, _⟩⟩ := jobAggregate.check_inv accepted
  · exact found.trans absent
  · cases creating.symm.trans updating

variable {Work : Type} [DecidableEq Work]

structure JobClients where
  writer : Writer jobAggregate
  copies : Nat → Option Job

inductive ClientLabel (Work : Type) where
  | create (call : Nat) (input : CreateJobInput) (event : Envelope Work) (work : Work)
  | read (call : Nat) (id : ID)
  | update (call : Nat) (command : Command) (time : JsDate) (event : Envelope Work) (work : Work)
  | published (call : Nat) (success : Bool)

namespace JobClients

def initial : JobClients := ⟨Writer.initial Table.empty, fun _ => none⟩

def create (clients : JobClients) (call : Nat) (input : CreateJobInput) (event : Envelope Work)
    (work : Work) : JobClients :=
  match Job.create input with
  | .ok job => { clients with writer := clients.writer.commit call ⟨.create, job, event, work⟩ }
  | .error _ => clients

def update (clients : JobClients) (call : Nat) (command : Command) (time : JsDate)
    (event : Envelope Work) (work : Work) : JobClients :=
  match clients.copies call with
  | none => clients
  | some copy => match command.apply copy time with
    | .ok job => { clients with writer := clients.writer.commit call ⟨.update, job, event, work⟩ }
    | .error _ => clients

def step (clients : JobClients) : ClientLabel Work → JobClients
  | .create call input event work => clients.create call input event work
  | .read call id =>
    { clients with copies := Function.update clients.copies call (clients.writer.store.get id) }
  | .update call command time event work => clients.update call command time event work
  | .published call success =>
    { clients with writer := clients.writer.published call success }

/-- Two steps can open a job the writer does not check: a failed publication
that puts an open job back, and an update made from a copy that is no longer the
stored job. Neither may happen while the job's subject has another open job. -/
def Unopened (clients : JobClients) : ClientLabel Work → Prop
  | .create _ _ _ _ => True
  | .read _ _ => True
  | .update call command time event work => ∀ copy job previous, clients.copies call = some copy →
      command.apply copy time = .ok job → clients.writer.calls call = none →
      jobAggregate.check clients.writer.store ⟨.update, job, event, work⟩ = .ok previous →
      previous ≠ some copy → ¬ Contested clients.writer.store job
  | .published call success => success = false → ∀ standing previous,
      clients.writer.calls call = some standing → standing.acknowledged = false →
      standing.previous = some previous → ¬ Contested clients.writer.store previous

/-- A commit keeps open jobs unique exactly when what it stores is not contested. -/
private theorem commit_unique {writer : Writer jobAggregate} (unique : UniqueOpen writer.store)
    (call : Nat) (input : Commit Job Work) :
    UniqueOpen (writer.commit call input).store ↔
      ∀ previous, writer.calls call = none → jobAggregate.check writer.store input = .ok previous →
        ¬ Contested writer.store input.row := by
  unfold Writer.commit
  split
  · rename_i previous idle accepted
    constructor
    · intro after _ _ _
      exact (uniqueOpen_set unique input.row.saved).mp after
    · intro free
      exact (uniqueOpen_set unique input.row.saved).mpr (free previous idle accepted)
  · rename_i refused
    refine iff_of_true unique ?_
    intro previous idle accepted
    exact (refused previous idle accepted).elim

/-- A transition of the stored job is not contested when open jobs are unique. -/
private theorem not_contested_of_stored {store : JobStore} (unique : UniqueOpen store)
    {copy job : Job} {command : Command} {time : JsDate} (stored : store.get copy.id = some copy)
    (done : command.apply copy time = .ok job) : ¬ Contested store job := by
  rintro ⟨opened, subject, about, other, member, different, also⟩
  obtain ⟨kept, moved⟩ := Command.apply_inv done
  have mine : copy.opens job.organizationId job.kind subject = true :=
    JobState.opens_iff.mpr ⟨moved.open_of_open opened, kept.organizationId.symm, kept.kind.symm,
      kept.subject.symm.trans about⟩
  have same := unique _ _ subject other member copy (Table.mem_of_get stored) also mine
  exact different (by rw [same, kept.id])

private theorem create_unique (clients : JobClients) (unique : UniqueOpen clients.writer.store)
    (call : Nat) (input : CreateJobInput) (event : Envelope Work) (work : Work) :
    UniqueOpen (clients.create call input event work).writer.store := by
  unfold JobClients.create
  split
  · refine (commit_unique unique call _).mpr ?_
    intro previous _ accepted
    rcases (jobAggregate.check_inv accepted).2 with ⟨_, _, free⟩ | ⟨_, _, updating, _⟩
    · exact not_contested_of_refuse free
    · cases updating
  · exact unique

private theorem update_precise (clients : JobClients) (unique : UniqueOpen clients.writer.store)
    (call : Nat) (command : Command) (time : JsDate) (event : Envelope Work) (work : Work) :
    clients.Unopened (.update call command time event work) ↔
      UniqueOpen (clients.update call command time event work).writer.store := by
  unfold JobClients.update
  split
  · rename_i missing
    refine iff_of_true ?_ unique
    intro copy job previous found
    rw [missing] at found
    cases found
  · rename_i copy held
    split
    · rename_i job done
      rw [commit_unique unique]
      constructor
      · intro safe previous idle accepted
        by_cases current : previous = some copy
        · obtain ⟨stored, _⟩ := jobAggregate.check_inv accepted
          have named : job.id = copy.id := (Command.apply_inv done).1.id
          refine not_contested_of_stored unique ?_ done
          rw [← named, ← current]
          exact stored
        · exact safe copy job previous held done idle accepted current
      · intro safe other next previous found also idle accepted _
        cases held.symm.trans found
        cases done.symm.trans also
        exact safe previous idle accepted
    · rename_i failure refused
      refine iff_of_true ?_ unique
      intro other job previous found also
      cases held.symm.trans found
      cases refused.symm.trans also

private theorem published_precise (clients : JobClients) (unique : UniqueOpen clients.writer.store)
    (call : Nat) (success : Bool) :
    clients.Unopened (.published call success : ClientLabel Work) ↔
      UniqueOpen (clients.writer.published call success).store := by
  unfold Writer.published
  split
  · rename_i row previous found
    cases success with
    | true => exact iff_of_true (fun failed => by cases failed) unique
    | false =>
      cases previous with
      | none =>
        refine iff_of_true ?_ (uniqueOpen_delete unique _)
        intro _ standing previous also _ loaded
        cases found.symm.trans also
        cases loaded
      | some snapshot =>
        refine Iff.trans ?_ (uniqueOpen_set unique snapshot).symm
        constructor
        · intro safe
          exact safe rfl _ snapshot found rfl rfl
        · intro safe _ standing previous also _ loaded
          cases found.symm.trans also
          cases loaded
          exact safe
  · rename_i settled
    refine iff_of_true ?_ unique
    intro _ standing previous found pending _
    obtain ⟨row, loaded, acknowledged⟩ := standing
    cases pending
    exact (settled row loaded found).elim

private theorem step_precise (clients : JobClients) (label : ClientLabel Work)
    (unique : UniqueOpen clients.writer.store) :
    clients.Unopened label ↔ UniqueOpen (clients.step label).writer.store := by
  cases label with
  | create call input event work =>
    exact iff_of_true trivial (clients.create_unique unique call input event work)
  | read call id => exact iff_of_true trivial unique
  | update call command time event work =>
    exact clients.update_precise unique call command time event work
  | published call success => exact clients.published_precise unique call success

/-- One open job per subject holds in every state of a run exactly when no step
of the run opens a job beside another open job of its subject. -/
theorem one_open_job_iff (labels : List (ClientLabel Work)) :
    Along step Unopened initial labels ↔
      ∀ visited, visited <+: labels → UniqueOpen (run step initial visited).writer.store := by
  have empty : UniqueOpen initial.writer.store := by
    intro organizationId kind subject one member
    cases member
  exact along_iff_visited step_precise empty labels

/-- A job's cancellation is stored, its subject goes to a second job, and then
the cancellation's event cannot be published. -/
def reopening : List (ClientLabel Unit) :=
  let event : Envelope Unit := ⟨ID.numbered 9, JobEventType.submitted.name, 0, (), [], none, none⟩
  let input (id : ID) : CreateJobInput :=
    { id := id
      organizationId := ID.numbered 0
      kind := .string (js "report")
      subject := .object [(js "type", .string (js "order")), (js "id", .string (ID.numbered 1).text)]
      maxAttempts := .undefined
      createdAt := some 0 }
  [.create 0 (input (ID.numbered 2)) event (), .published 0 true,
    .read 1 (ID.numbered 2), .update 1 (.transition .cancel (ID.numbered 8) .undefined) (some 1) event (),
    .create 2 (input (ID.numbered 3)) event (), .published 2 true, .published 1 false]

theorem reopening_breaks_uniqueness : ¬ UniqueOpen (run step initial reopening).writer.store := by
  intro unique
  have few := unique.length_le (ID.numbered 0) (js "report") ⟨js "order", ID.numbered 1⟩
  revert few
  decide

end JobClients

end N2FNest.Jobs
