import N2FNest.Tenancy.Confined

/-! Tenant isolation. What the requests on one organization see and do, among any number
of requests on others and in any order of their steps, is what they would see and do with
the organization alone in the database. -/

namespace N2FNest.Tenancy

open Documents Events Jobs Lib Organizations Pagination Shared

variable {Work : Type}

/-- A call is made on one organization. -/
structure Client where
  organizationId : ID
  number : Nat
  deriving DecidableEq

/-- The organization alone in the database. Sessions belong to none. -/
def Workspace.slice (organizationId : ID) (workspace : Workspace Work) : Workspace Work where
  sessions := workspace.sessions
  organizations := workspace.organizations.keep fun row => row.id = organizationId
  memberships := workspace.memberships.keep fun row => row.organizationId = organizationId
  documents := workspace.documents.keep fun row => row.organizationId = organizationId
  jobs := workspace.jobs.keep fun row => row.organizationId = organizationId
  outbox := workspace.outbox.keep fun event => event.tenant = some organizationId

/-- Every identifier in use belongs to one organization. -/
structure Workspace.Owned (owner : ID → ID) (workspace : Workspace Work) : Prop where
  documents : ∀ row ∈ workspace.documents.rows, owner row.id = row.organizationId
  jobs : ∀ row ∈ workspace.jobs.rows, owner row.id = row.organizationId
  outbox : ∀ event ∈ workspace.outbox.rows, event.tenant = some (owner event.id)

def Change.concern : Change Work → Option ID
  | .session _ _ => none
  | .organization row => some row.id
  | .membership row => some row.organizationId
  | .expire job _ _ => some job.organizationId

/-- An identifier drawn in a step belongs to the organization. -/
def Input.drawsFor (owner : ID → ID) (organizationId : ID) (input : Input Work) : Bool :=
  match input.drawn with
  | .ok id => owner id = organizationId
  | .error _ => true

theorem Input.drawsFor_iff {owner : ID → ID} {organizationId : ID} {input : Input Work} :
    input.drawsFor owner organizationId = true ↔
      ∀ id, input.drawn = .ok id → owner id = organizationId := by
  unfold Input.drawsFor
  cases input.drawn <;> simp

/-- An expired job is under an identifier of its organization, and so is the event. -/
def Change.keepsOwn (owner : ID → ID) : Change Work → Bool
  | .expire job _ input =>
    decide (owner job.id = job.organizationId) && input.drawsFor owner job.organizationId
  | _ => true

private theorem find_eq {Row : Type} {first second : List Row} {wanted : Row → Bool}
    (same : ∀ row, wanted row = true → (row ∈ first ↔ row ∈ second))
    (unique : ∀ row ∈ first, ∀ other ∈ first, wanted row = true → wanted other = true → row = other) :
    first.find? wanted = second.find? wanted := by
  cases found : second.find? wanted with
  | none =>
    apply List.find?_eq_none.mpr
    intro row member chosen
    exact List.find?_eq_none.mp found row ((same row chosen).mp member) chosen
  | some row =>
    have chosen := List.find?_some found
    have member := (same row chosen).mpr (List.mem_of_find?_eq_some found)
    cases other : first.find? wanted with
    | none => exact absurd chosen (List.find?_eq_none.mp other row member)
    | some held =>
      rw [unique held (List.mem_of_find?_eq_some other) row member (List.find?_some other) chosen]

private theorem findAccess_slice (workspace : Workspace Work) (sessionToken : JsString)
    (organizationId : ID) : findAccess (workspace.slice organizationId) sessionToken organizationId =
      findAccess workspace sessionToken organizationId := by
  unfold findAccess getOrganizationMembership
  congr 1
  show ((workspace.sessions sessionToken).mapError _ >>= _) = _
  congr 1
  funext identityId
  refine congrArg pure (Eq.symm ?_)
  apply find_eq
  · intro view chosen
    have named : view.organization.id = organizationId := by simpa using chosen
    rw [mem_listForIdentity, mem_listForIdentity]
    show _ ↔ view.membership ∈ workspace.memberships.rows.filter _ ∧ _ ∧ _ ∧
      (workspace.organizations.keep _).get _ = _ ∧ _
    rw [List.mem_filter, Table.get_keep]
    constructor
    · rintro ⟨present, identity, active, found, live⟩
      have member : view.membership.organizationId = organizationId :=
        (Table.key_of_get found).symm.trans named
      refine ⟨⟨present, by simpa using member⟩, identity, active, ?_, live⟩
      simp [found, named, Option.filter]
    · rintro ⟨⟨present, _⟩, identity, active, found, live⟩
      obtain ⟨found, _⟩ := Option.filter_eq_some_iff.mp found
      exact ⟨present, identity, active, found, live⟩
  · intro view member other present chosen also
    obtain ⟨held, identity, _, found, _⟩ := mem_listForIdentity.mp member
    obtain ⟨kept, named, _, joined, _⟩ := mem_listForIdentity.mp present
    have first : view.organization.id = organizationId := by simpa using chosen
    have second : other.organization.id = organizationId := by simpa using also
    have one : view.membership.organizationId = organizationId :=
      (Table.key_of_get found).symm.trans first
    have two : other.membership.organizationId = organizationId :=
      (Table.key_of_get joined).symm.trans second
    have memberships : view.membership = other.membership := by
      apply Table.eq_of_key held kept
      rw [one, two, identity, named]
    have organizations : view.organization = other.organization := by
      rw [memberships] at found
      exact Option.some.inj (found.symm.trans joined)
    obtain ⟨organization, membership⟩ := view
    cases organizations
    cases memberships
    rfl

section Rows

variable {Row : Type} {key : Row → ID} {wanted : ID → Row → Bool} {owner : ID → ID}

/-- Where a row of a table belongs follows from its identifier. -/
private def Divided (wanted : ID → Row → Bool) (owner : ID → ID) (table : Table key) : Prop :=
  ∀ row ∈ table.rows, ∀ organizationId,
    wanted organizationId row = true ↔ owner (key row) = organizationId

variable {table : Table key} {organizationId : ID}

/-- Under an identifier of the organization the slice holds what the table holds. -/
private theorem get_slice (divided : Divided wanted owner table) {id : ID}
    (mine : owner id = organizationId) : (table.keep (wanted organizationId)).get id = table.get id := by
  rw [Table.get_keep]
  cases found : table.get id with
  | none => rfl
  | some row =>
    have named := Table.key_of_get found
    have belongs : wanted organizationId row = true :=
      (divided row (Table.mem_of_get found) organizationId).mpr (by rw [named, mine])
    simp [Option.filter, belongs]

private theorem keep_own (divided : Divided wanted owner table) {row : Row}
    (mine : wanted organizationId row = true) (belongs : owner (key row) = organizationId) :
    (table.set row).keep (wanted organizationId) = (table.keep (wanted organizationId)).set row := by
  apply Table.keep_set mine
  intro other found
  have named := Table.key_of_get found
  exact (divided other (Table.mem_of_get found) organizationId).mpr (by rw [named, belongs])

private theorem keep_apart (divided : Divided wanted owner table) {row : Row} {other : ID}
    (others : wanted other row = false) (belongs : owner (key row) = organizationId)
    (apart : other ≠ organizationId) :
    (table.set row).keep (wanted other) = table.keep (wanted other) := by
  apply Table.keep_set_other others
  intro held found
  have named := Table.key_of_get found
  have elsewhere := (divided held (Table.mem_of_get found) other).not
  rw [named, belongs] at elsewhere
  simpa using elsewhere.mpr (Ne.symm apart)

end Rows

variable {owner : ID → ID} {organizationId : ID}

namespace Workspace.Owned

variable {workspace : Workspace Work} (owned : workspace.Owned owner)
include owned

private theorem dividedDocuments : Divided
    (fun organizationId (row : DocumentRow) => row.organizationId = organizationId) owner
    workspace.documents := by
  intro row member organizationId
  rw [decide_eq_true_eq, owned.documents row member]

private theorem dividedJobs : Divided
    (fun organizationId (row : JobRow) => row.organizationId = organizationId) owner
    workspace.jobs := by
  intro row member organizationId
  rw [decide_eq_true_eq, owned.jobs row member]

private theorem dividedOutbox : Divided
    (fun organizationId (event : Envelope Work) => event.tenant = some organizationId) owner
    workspace.outbox := by
  intro event member organizationId
  rw [decide_eq_true_eq, owned.outbox event member, Option.some.injEq]

end Workspace.Owned

variable [DecidableEq Work]

private theorem writeDocument_slice {documents : DocumentTable}
    (divided : Divided (fun organizationId (row : DocumentRow) => row.organizationId = organizationId)
      owner documents) {mode : CommitMode} {document : Document}
    (mine : document.organizationId = organizationId) (belongs : owner document.id = organizationId) :
    writeDocument (documents.keep fun row => row.organizationId = organizationId) mode document =
      (writeDocument documents mode document).map
        fun next => next.keep fun row => row.organizationId = organizationId := by
  have found := get_slice divided belongs
  have stores : ∀ row : DocumentRow, row.id = document.id →
      row.organizationId = document.organizationId →
      (documents.keep fun row => row.organizationId = organizationId).set row =
        (documents.set row).keep fun row => row.organizationId = organizationId := by
    intro row named organization
    exact (keep_own divided (by simp [organization, mine])
      (by show owner row.id = _; rw [named, belongs])).symm
  cases mode with
  | create =>
    simp only [writeDocument, insertDocument, found]
    split
    · rfl
    · rename_i row made
      obtain ⟨named, organization, _⟩ := insertedRow_inv made
      split
      · rfl
      · split
        · rfl
        · exact congrArg Except.ok (stores row named organization)
  | update =>
    simp only [writeDocument, updateDocument, found]
    split
    · rfl
    · split
      · rfl
      · split
        · split
          · rfl
          · rename_i row made
            obtain ⟨named, organization, _⟩ := updatedRow_inv made
            split
            · rfl
            · exact congrArg Except.ok (stores row named organization)
        · rfl

private theorem enqueue_slice {outbox : EventLog Work}
    (divided : Divided
      (fun organizationId (event : Envelope Work) => event.tenant = some organizationId) owner outbox)
    {event : Envelope Work} (mine : event.tenant = some organizationId)
    (belongs : owner event.id = organizationId) :
    EventLog.enqueue (outbox.keep fun event => event.tenant = some organizationId) event =
      (EventLog.enqueue outbox event).map
        fun next => next.keep fun event => event.tenant = some organizationId := by
  have found := get_slice divided belongs
  simp only [EventLog.enqueue, found]
  split
  · exact congrArg Except.ok (keep_own divided (by simpa using mine) belongs).symm
  · split <;> rfl

private theorem openSubjectTaken_slice {jobs : JobTable} {row : JobRow}
    (mine : row.organizationId = organizationId) :
    openSubjectTaken (jobs.keep fun row => row.organizationId = organizationId) row =
      openSubjectTaken jobs row := by
  unfold openSubjectTaken
  split
  · rfl
  · congr 1
    show (jobs.rows.filter _).any _ = jobs.rows.any _
    rw [List.any_filter]
    congr 1
    funext other
    by_cases here : other.organizationId = organizationId
    · simp [here]
    · have apart : other.state.organizationId ≠ row.organizationId := by rwa [mine]
      simp [here, JobState.opens, apart]

private theorem writeJob_slice {jobs : JobTable}
    (divided : Divided (fun organizationId (row : JobRow) => row.organizationId = organizationId)
      owner jobs) {mode : CommitMode} {job : Job} (mine : job.organizationId = organizationId)
    (belongs : owner job.id = organizationId) :
    writeJob (jobs.keep fun row => row.organizationId = organizationId) mode job =
      (writeJob jobs mode job).map
        fun next => next.keep fun row => row.organizationId = organizationId := by
  have found := get_slice divided belongs
  have stores : ∀ row : JobRow, row.id = job.id → row.organizationId = job.organizationId →
      (jobs.keep fun row => row.organizationId = organizationId).set row =
        (jobs.set row).keep fun row => row.organizationId = organizationId := by
    intro row named organization
    exact (keep_own divided (by simp [organization, mine])
      (by show owner row.id = _; rw [named, belongs])).symm
  cases mode with
  | create =>
    simp only [writeJob, insertJob, found]
    split
    · rfl
    · rw [openSubjectTaken_slice mine]
      split
      · rfl
      · exact congrArg Except.ok (stores _ rfl rfl)
  | update =>
    simp only [writeJob, updateJob, found]
    split
    · rfl
    · split
      · split
        · rw [openSubjectTaken_slice mine]
          split
          · rfl
          · exact congrArg Except.ok (stores _ rfl rfl)
        · rfl
      · rfl

variable {workspace : Workspace Work}

private theorem commitDocument_slice (owned : workspace.Owned owner)
    {input : Commit Document Work} (mine : input.row.organizationId = organizationId)
    (belongs : owner input.row.id = organizationId)
    (tenant : input.event.tenant = some organizationId)
    (drawn : owner input.event.id = organizationId) :
    commitDocument (workspace.slice organizationId) input =
      (commitDocument workspace input).map (Workspace.slice organizationId) := by
  have documents := @writeDocument_slice _ _ _ owned.dividedDocuments input.mode _ mine belongs
  have outbox := enqueue_slice owned.dividedOutbox tenant drawn
  simp only [commitDocument, Workspace.slice, documents, outbox]
  cases assertEventWork input.event input.work with
  | error error => rfl
  | ok _ =>
    cases writeDocument workspace.documents input.mode input.row with
    | error error => rfl
    | ok documents =>
      cases EventLog.enqueue workspace.outbox input.event with
      | error error => rfl
      | ok outbox => rfl

private theorem commitJob_slice (owned : workspace.Owned owner)
    {input : Commit Job Work} (mine : input.row.organizationId = organizationId)
    (belongs : owner input.row.id = organizationId)
    (tenant : input.event.tenant = some organizationId)
    (drawn : owner input.event.id = organizationId) :
    commitJob (workspace.slice organizationId) input =
      (commitJob workspace input).map (Workspace.slice organizationId) := by
  have jobs := @writeJob_slice _ _ _ owned.dividedJobs input.mode _ mine belongs
  have outbox := enqueue_slice owned.dividedOutbox tenant drawn
  simp only [commitJob, JobDatabase.commit, Workspace.slice, jobs, outbox]
  cases assertEventWork input.event input.work with
  | error error => rfl
  | ok _ =>
    cases writeJob workspace.jobs input.mode input.row with
    | error error => rfl
    | ok jobs =>
      cases EventLog.enqueue workspace.outbox input.event with
      | error error => rfl
      | ok outbox => rfl

omit [DecidableEq Work] in
private theorem settle_slice (committed : Except Failure (Workspace Work)) :
    settle (workspace.slice organizationId) (committed.map (Workspace.slice organizationId)) =
      ((settle workspace committed).1, (settle workspace committed).2.slice organizationId) := by
  cases committed <;> rfl

omit [DecidableEq Work] in
private theorem orFault_map {Given Other : Type} (fault : Option Failure)
    (result : Except Failure Given) (change : Given → Other) :
    orFault fault (result.map change) = (orFault fault result).map change := by
  cases fault <;> rfl

/-- What a row of the whole table is to the slice. -/
private theorem alike_orFault {Row Held : Type} {id organization : Row → ID} {key : Held → ID}
    {wanted : ID → Held → Bool} {table : Table key} (divided : Divided wanted owner table)
    (row : Held → Row) (named : ∀ held, id (row held) = key held)
    (belongs : ∀ held, wanted organizationId held = true ↔ organization (row held) = organizationId)
    (fault : Option Failure) (sought : ID) :
    AlikeRow owner organizationId id organization
      (orFault fault (.ok ((table.get sought).map row)))
      (orFault fault (.ok (((table.keep (wanted organizationId)).get sought).map row))) := by
  cases fault with
  | some error =>
    left
    exact ⟨rfl, nofun⟩
  | none =>
    rw [Table.get_keep]
    cases found : table.get sought with
    | none =>
      left
      exact ⟨rfl, nofun⟩
    | some held =>
      by_cases mine : wanted organizationId held = true
      · left
        refine ⟨by simp [Option.filter, mine], ?_⟩
        intro answered same _
        cases same
        rw [named, ← (divided held (Table.mem_of_get found) organizationId)]
        exact mine
      · right
        refine ⟨row held, rfl, fun same => mine ((belongs held).mpr same), ?_⟩
        simp [Option.filter, mine, orFault]

omit [DecidableEq Work] in
private theorem rows_slice {Row : Type} {key : Row → ID} (table : Table key) (wanted : Row → Bool) :
    (table.keep wanted).rows.filter wanted = table.rows.filter wanted := by
  show (table.rows.filter wanted).filter wanted = _
  simp

omit [DecidableEq Work] in
private theorem findOpenBySubject_slice (jobs : JobTable) (kind : JsString) (subject : JobSubject) :
    findOpenBySubject (jobs.keep fun row => row.organizationId = organizationId) organizationId kind
      subject = findOpenBySubject jobs organizationId kind subject := by
  have same : (jobs.keep fun row => row.organizationId = organizationId).rows.filter
      (fun row => row.state.opens organizationId kind subject) =
      jobs.rows.filter fun row => row.state.opens organizationId kind subject := by
    show (jobs.rows.filter _).filter _ = _
    rw [List.filter_filter]
    congr 1
    funext row
    cases opens : row.state.opens organizationId kind subject with
    | false => rfl
    | true =>
      have mine : row.organizationId = organizationId := (JobState.opens_iff.mp opens).2.1
      simp [mine]
  unfold findOpenBySubject
  rw [same]

/-- A permitted operation is answered alike by the slice, and does the same to it. -/
private theorem perform_slice (owned : workspace.Owned owner) {op : Op Work} {input : Input Work}
    (permitted : Permitted owner organizationId op)
    (admitted : ∀ id, input.drawn = .ok id → owner id = organizationId) :
    Alike owner organizationId op (perform workspace op input).1
        (perform (workspace.slice organizationId) op input).1 ∧
      (perform workspace op input).2.slice organizationId =
        (perform (workspace.slice organizationId) op input).2 := by
  cases op with
  | now => exact ⟨rfl, rfl⟩
  | newId => exact ⟨⟨rfl, admitted⟩, rfl⟩
  | childWork => exact ⟨rfl, rfl⟩
  | envelope => exact ⟨rfl, rfl⟩
  | findAccess sessionToken named =>
    cases permitted
    exact ⟨congrArg (orFault input.fault) (findAccess_slice workspace sessionToken _).symm, rfl⟩
  | findDocument id =>
    refine ⟨?_, rfl⟩
    simp only [Alike, perform, Documents.findById_eq, Workspace.slice]
    exact alike_orFault owned.dividedDocuments DocumentRow.document (fun _ => rfl) (fun _ => decide_eq_true_iff) _ _
  | findJob id =>
    refine ⟨?_, rfl⟩
    simp only [Alike, perform, Jobs.findById_eq, Workspace.slice]
    exact alike_orFault owned.dividedJobs JobRow.job (fun _ => rfl) (fun _ => decide_eq_true_iff) _ _
  | listDocuments named page =>
    cases permitted
    refine ⟨?_, rfl⟩
    simp only [Alike, perform, Documents.listForOrganization, Workspace.slice, rows_slice]
  | listJobs named page =>
    cases permitted
    refine ⟨?_, rfl⟩
    simp only [Alike, perform, Jobs.listForOrganization, Workspace.slice, rows_slice]
  | findOpenJob named kind subject =>
    cases permitted
    simp only [Alike, perform, Workspace.slice, findOpenBySubject_slice, true_and, and_true]
    intro job answered
    have answered := orFault_ok answered
    rcases findOpenBySubject_inv workspace.jobs organizationId kind subject with ⟨missing, _⟩ |
      ⟨row, member, opens, found⟩
    · rw [missing] at answered
      cases answered
    · rw [found] at answered
      cases answered
      have mine : row.organizationId = organizationId := (JobState.opens_iff.mp opens).2.1
      exact ⟨mine, (owned.jobs row member).trans mine⟩
  | commitDocument commit =>
    obtain ⟨mine, belongs, tenant, drawn⟩ := permitted
    simp only [Alike, perform, commitDocument_slice owned mine belongs tenant drawn, orFault_map,
      settle_slice, and_self]
  | commitJob commit =>
    obtain ⟨mine, belongs, tenant, drawn⟩ := permitted
    simp only [Alike, perform, commitJob_slice owned mine belongs tenant drawn, orFault_map,
      settle_slice, and_self]

private theorem enqueue_cases {outbox next : EventLog Work} {event : Envelope Work}
    (queued : EventLog.enqueue outbox event = .ok next) :
    next = outbox ∨ next = outbox.set event := by
  unfold EventLog.enqueue at queued
  split at queued
  · cases queued
    exact .inr rfl
  · split at queued
    · cases queued
      exact .inl rfl
    · cases queued

omit [DecidableEq Work] in
private theorem writes_organization {jobs : JobTable} {job : Job} {row : JobRow} {mode : CommitMode}
    (writes : Writes jobs job row mode) : row.organizationId = job.organizationId := by
  cases writes with
  | create _ columns => rw [columns]; rfl
  | update _ _ _ _ columns => rw [columns]; rfl

variable (workspace)

/-- What an accepted commit stores: a row and an event. -/
private theorem settle_commitDocument (input : Commit Document Work) (fault : Option Failure) :
    (settle workspace (orFault fault (commitDocument workspace input))).2 = workspace ∨
      ∃ row outbox, row.id = input.row.id ∧ row.organizationId = input.row.organizationId ∧
        (outbox = workspace.outbox ∨ outbox = workspace.outbox.set input.event) ∧
        (settle workspace (orFault fault (commitDocument workspace input))).2 =
          { workspace with documents := workspace.documents.set row, outbox := outbox } := by
  cases committed : orFault fault (commitDocument workspace input) with
  | error error => exact .inl rfl
  | ok next =>
    right
    obtain ⟨_, _, rest⟩ := bind_ok (orFault_ok committed)
    obtain ⟨documents, written, rest⟩ := bind_ok rest
    obtain ⟨outbox, queued, same⟩ := bind_ok rest
    cases pure_eq_ok.mp same
    obtain ⟨row, writes, rfl⟩ := writeDocument_inv written
    exact ⟨row, outbox, writes.id, writes.organizationId, enqueue_cases queued, rfl⟩

private theorem settle_commitJob (input : Commit Job Work) (fault : Option Failure) :
    (settle workspace (orFault fault (commitJob workspace input))).2 = workspace ∨
      ∃ row outbox, row.id = input.row.id ∧ row.organizationId = input.row.organizationId ∧
        (outbox = workspace.outbox ∨ outbox = workspace.outbox.set input.event) ∧
        (settle workspace (orFault fault (commitJob workspace input))).2 =
          { workspace with jobs := workspace.jobs.set row, outbox := outbox } := by
  cases committed : orFault fault (commitJob workspace input) with
  | error error => exact .inl rfl
  | ok next =>
    right
    obtain ⟨database, written, same⟩ := bind_ok (orFault_ok committed)
    cases pure_eq_ok.mp same
    obtain ⟨row, writes, _, stored, queued⟩ := JobDatabase.commit_inv written
    exact ⟨row, database.outbox, writes.id, writes_organization writes,
      enqueue_cases queued, by rw [← stored]; rfl⟩

variable {workspace}

omit [DecidableEq Work] in
/-- Storing a row and an event of one organization leaves the slices of others. -/
private theorem outbox_apart (owned : workspace.Owned owner) {event : Envelope Work}
    {outbox : EventLog Work} {other : ID} (tenant : event.tenant = some organizationId)
    (drawn : owner event.id = organizationId) (apart : other ≠ organizationId)
    (queued : outbox = workspace.outbox ∨ outbox = workspace.outbox.set event) :
    (outbox.keep fun event => event.tenant = some other) =
      workspace.outbox.keep fun event => event.tenant = some other := by
  rcases queued with rfl | rfl
  · rfl
  · apply keep_apart owned.dividedOutbox _ drawn apart
    simpa [tenant] using Ne.symm apart

/-- A permitted operation leaves the slices of other organizations as they were. -/
private theorem perform_apart (owned : workspace.Owned owner) {op : Op Work} {input : Input Work}
    {other : ID} (permitted : Permitted owner organizationId op) (apart : other ≠ organizationId) :
    (perform workspace op input).2.slice other = workspace.slice other := by
  cases op with
  | commitDocument commit =>
    obtain ⟨mine, belongs, tenant, drawn⟩ := permitted
    rcases settle_commitDocument workspace commit input.fault with same | ⟨row, outbox, named, organization, queued, same⟩
    · exact congrArg _ same
    · simp only [perform, same, Workspace.slice,
        outbox_apart owned tenant drawn apart queued]
      congr 1
      apply keep_apart owned.dividedDocuments _ (by rw [named, belongs]) apart
      simpa [organization, mine] using Ne.symm apart
  | commitJob commit =>
    obtain ⟨mine, belongs, tenant, drawn⟩ := permitted
    rcases settle_commitJob workspace commit input.fault with same | ⟨row, outbox, named, organization, queued, same⟩
    · exact congrArg _ same
    · simp only [perform, same, Workspace.slice,
        outbox_apart owned tenant drawn apart queued]
      congr 1
      apply keep_apart owned.dividedJobs _ (by rw [named, belongs]) apart
      simpa [organization, mine] using Ne.symm apart
  | _ => rfl

private theorem perform_owned (owned : workspace.Owned owner) {op : Op Work} {input : Input Work}
    (permitted : Permitted owner organizationId op) :
    (perform workspace op input).2.Owned owner := by
  have outboxes : ∀ {event : Envelope Work} {outbox : EventLog Work},
      event.tenant = some organizationId → owner event.id = organizationId →
      (outbox = workspace.outbox ∨ outbox = workspace.outbox.set event) →
      ∀ held ∈ outbox.rows, held.tenant = some (owner held.id) := by
    intro event outbox tenant drawn queued held member
    rcases queued with rfl | rfl
    · exact owned.outbox held member
    · rcases Table.mem_set.mp member with rfl | ⟨present, _⟩
      · rw [tenant, drawn]
      · exact owned.outbox held present
  cases op with
  | commitDocument commit =>
    obtain ⟨mine, belongs, tenant, drawn⟩ := permitted
    rcases settle_commitDocument workspace commit input.fault with same |
      ⟨row, outbox, named, organization, queued, same⟩
    · exact Eq.mpr (congrArg _ same) owned
    · simp only [perform, same]
      refine ⟨?_, owned.jobs, outboxes tenant drawn queued⟩
      intro held member
      rcases Table.mem_set.mp member with rfl | ⟨present, _⟩
      · rw [named, belongs, organization, mine]
      · exact owned.documents held present
  | commitJob commit =>
    obtain ⟨mine, belongs, tenant, drawn⟩ := permitted
    rcases settle_commitJob workspace commit input.fault with same |
      ⟨row, outbox, named, organization, queued, same⟩
    · exact Eq.mpr (congrArg _ same) owned
    · simp only [perform, same]
      refine ⟨owned.documents, ?_, outboxes tenant drawn queued⟩
      intro held member
      rcases Table.mem_set.mp member with rfl | ⟨present, _⟩
      · rw [named, belongs, organization, mine]
      · exact owned.jobs held present
  | _ => exact owned

omit [DecidableEq Work] in
/-- What `ExpireStaleJobs` writes keeps to the organization of the job. -/
private theorem permitted_expire {job failed : Job} {time : Int} {context : EventContext Work}
    (belongs : owner job.id = job.organizationId)
    (expired : Command.expire.apply job (some time) = .ok failed)
    (drawn : owner context.eventId = job.organizationId) : Permitted owner job.organizationId
      (.commitJob ⟨.update, failed, Command.expire.event context time failed, context.work⟩) := by
  have same := (Command.apply_inv expired).1
  refine ⟨same.organizationId, ?_, congrArg some same.organizationId, drawn⟩
  rw [same.id]
  exact belongs

/-- At one job the loop of `ExpireStaleJobs` does nothing, or one permitted commit. -/
private theorem expireJob_cases {job : Job} {work : Work} {input : Input Work}
    (kept : Change.keepsOwn owner (.expire job work input) = true) :
    (∀ workspace, expireJob workspace job work input = workspace) ∨
      ∃ commit, Permitted owner job.organizationId (.commitJob commit) ∧
        (∀ id, input.drawn = .ok id → owner id = job.organizationId) ∧
        ∀ workspace, expireJob workspace job work input = (perform workspace (.commitJob commit) input).2 := by
  simp only [Change.keepsOwn, Bool.and_eq_true, decide_eq_true_eq, Input.drawsFor_iff] at kept
  obtain ⟨belongs, own⟩ := kept
  unfold expireJob
  cases expired : Command.expire.apply job (some input.time) with
  | error error => exact .inl fun _ => rfl
  | ok failed =>
    cases drawn : input.drawn with
    | error error => exact .inl fun _ => rfl
    | ok eventId =>
      cases input.envelope with
      | error error => exact .inl fun _ => rfl
      | ok _ =>
        refine .inr ⟨_, permitted_expire belongs expired (own eventId drawn), ?_, fun _ => rfl⟩
        rw [← drawn]
        exact own

private theorem change_owned (owned : workspace.Owned owner) {event : Change Work}
    (kept : event.keepsOwn owner = true) : (change workspace event).Owned owner := by
  cases event with
  | expire job work input =>
    rcases expireJob_cases kept with idle | ⟨commit, permitted, _, same⟩
    · rw [change, idle]
      exact owned
    · rw [change, same]
      exact perform_owned owned permitted
  | _ => exact ⟨owned.documents, owned.jobs, owned.outbox⟩

private theorem change_slice (owned : workspace.Owned owner) {event : Change Work}
    (kept : event.keepsOwn owner = true)
    (mine : event.concern = none ∨ event.concern = some organizationId) :
    (change workspace event).slice organizationId = change (workspace.slice organizationId) event := by
  cases event with
  | session => rfl
  | organization row =>
    have mine : row.id = organizationId := by simpa [Change.concern] using mine
    have kept : (workspace.organizations.set row).keep (fun row => row.id = organizationId) =
        (workspace.organizations.keep fun row => row.id = organizationId).set row := by
      apply Table.keep_set
      · simpa using mine
      · intro other found
        simpa [Table.key_of_get found] using mine
    simp only [change, Workspace.slice, kept]
  | membership row =>
    have mine : row.organizationId = organizationId := by simpa [Change.concern] using mine
    have kept : (workspace.memberships.set row).keep
        (fun row => row.organizationId = organizationId) =
        (workspace.memberships.keep fun row => row.organizationId = organizationId).set row := by
      apply Table.keep_set
      · simpa using mine
      · intro other found
        have named := Table.key_of_get found
        have same : other.organizationId = row.organizationId := congrArg Prod.fst named
        simpa [same] using mine
    simp only [change, Workspace.slice, kept]
  | expire job work input =>
    have mine : job.organizationId = organizationId := by simpa [Change.concern] using mine
    subst mine
    rcases expireJob_cases kept with idle | ⟨commit, permitted, drawn, same⟩
    · rw [change, change, idle, idle]
    · rw [change, change, same, same]
      exact (perform_slice owned permitted drawn).2

private theorem change_apart (owned : workspace.Owned owner) {event : Change Work}
    (kept : event.keepsOwn owner = true) (concerns : event.concern ≠ none)
    (others : event.concern ≠ some organizationId) :
    (change workspace event).slice organizationId = workspace.slice organizationId := by
  cases event with
  | session => exact absurd rfl concerns
  | organization row =>
    have others : row.id ≠ organizationId := by simpa [Change.concern] using others
    simp only [change, Workspace.slice]
    congr 1
    apply Table.keep_set_other
    · simpa using others
    · intro other found
      simpa [Table.key_of_get found] using others
  | membership row =>
    have others : row.organizationId ≠ organizationId := by simpa [Change.concern] using others
    simp only [change, Workspace.slice]
    congr 1
    apply Table.keep_set_other
    · simpa using others
    · intro other found
      have named := Table.key_of_get found
      have same : other.organizationId = row.organizationId := congrArg Prod.fst named
      simpa [same] using others
  | expire job work input =>
    have others : organizationId ≠ job.organizationId := by
      rintro rfl
      exact others rfl
    rcases expireJob_cases kept with idle | ⟨commit, permitted, _, same⟩
    · rw [change, idle]
    · rw [change, same]
      exact perform_apart owned permitted others

/-- The program as a service of requests on organizations. -/
def service (host : JsString → Option Moment) : Service (Workspace Work) Client (Request Work)
    (Input Work) (Change Work) (Op Work) Op.Answer (Except Failure Reply) where
  perform := perform
  program client request := program host client.organizationId request
  event := change

def isolates (host : JsString → Option Moment) (owner : ID → ID) :
    (service host : Service (Workspace Work) _ _ _ _ _ _ _).Isolates ID where
  owner client := client.organizationId
  concern := Change.concern
  slice := Workspace.slice
  Sound := Workspace.Owned owner
  permitted := Permitted owner
  alike := Alike owner
  admits organizationId input := ∀ id, input.drawn = .ok id → owner id = organizationId
  admitsEvent event := event.keepsOwn owner = true
  confined _ request := confined_program host request
  sound owned permitted _ := perform_owned owned permitted
  answered owned permitted admitted := (perform_slice owned permitted admitted).1
  own owned permitted admitted := (perform_slice owned permitted admitted).2
  apart owned permitted _ others := perform_apart owned permitted others
  soundEvent owned kept := change_owned owned kept
  ownEvent owned kept mine := change_slice owned kept mine
  apartEvent owned kept concerns others := change_apart owned kept concerns others

abbrev Label (Work : Type) := PoolLabel Client (Request Work) (Input Work) (Change Work)

/-- What concerns an organization: the steps of its calls, changes of its own rows or of a
session, and the expiry of its jobs. -/
def about (organizationId : ID) : Label Work → Bool
  | .call client _ => client.organizationId = organizationId
  | .turn client _ => client.organizationId = organizationId
  | .event event => event.concern = none ∨ event.concern = some organizationId

/-- No call has been made. -/
def idle (workspace : Workspace Work) :
    Pool (Workspace Work) Client (Op Work) Op.Answer (Except Failure Reply) :=
  ⟨workspace, fun _ => none⟩

private def organizationRow (number : Nat) : OrganizationState :=
  ⟨ID.numbered number, js "Org", js "org", .active, 0, 0, 1⟩

private def memberRow (number identity : Nat) : MembershipState :=
  ⟨ID.numbered 9, ID.numbered number, ID.numbered identity, .owner, .active, 0, 0, none, 1⟩

/-- Organizations 1 and 2, each with one signed-in owner. -/
def neighbours : Workspace Unit where
  sessions token := if token = js "one" then .ok (ID.numbered 3) else .ok (ID.numbered 4)
  organizations := (Table.empty.set (organizationRow 1)).set (organizationRow 2)
  memberships := (Table.empty.set (memberRow 1 3)).set (memberRow 2 4)
  documents := Table.empty
  jobs := Table.empty
  outbox := Table.empty

private def turn (organization number drawn : Nat) : Label Unit :=
  .turn ⟨ID.numbered organization, number⟩ ⟨5, .ok (ID.numbered drawn), .ok (), .ok (), none⟩

private def create (token : String) : Request Unit :=
  .createDocument "document.create" (js token) (.string (js "Plan")) .undefined ()

/-- Both create a document, and organization 2 asks for the one of organization 1. -/
def interleaved : List (Label Unit) :=
  [.call ⟨ID.numbered 1, 0⟩ (create "one"), .call ⟨ID.numbered 2, 0⟩ (create "two"),
    turn 1 0 5, turn 2 0 7, turn 1 0 5, turn 2 0 7, turn 1 0 5, turn 2 0 7, turn 1 0 6,
    turn 1 0 6, turn 2 0 8, turn 1 0 6, turn 2 0 8, turn 2 0 8,
    .call ⟨ID.numbered 2, 1⟩ (.getDocument (js "two") (ID.numbered 5)), turn 2 1 8, turn 2 1 8]

end N2FNest.Tenancy
