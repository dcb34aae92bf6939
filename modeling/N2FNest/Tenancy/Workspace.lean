import N2FNest.Documents.Postgres
import N2FNest.Jobs.Adapters
import N2FNest.Jobs.Submit
import N2FNest.Lib.Script
import N2FNest.Organizations.Commands
import N2FNest.Pagination.Select

/-! The organizations' data in PostgreSQL, and what one awaited operation of a request
does with it. -/

namespace N2FNest.Tenancy

open Events Jobs Lib Organizations Pagination Shared

/-- What the bridge answers: the caller's identity and role in the organization. -/
structure OrganizationAccess where
  organizationId : ID
  identityId : ID
  role : MembershipRole
  deriving DecidableEq

def OrganizationAccess.administers (access : OrganizationAccess) : Bool :=
  access.role = .owner || access.role = .admin

/-- The unique index of the table. -/
abbrev MemberTable := Table (fun row : MembershipState => (row.organizationId, row.identityId))

structure Workspace (Work : Type) where
  /-- The identity of a session token's active session. -/
  sessions : JsString → Except Failure ID
  organizations : OrganizationTable
  memberships : MemberTable
  documents : Documents.DocumentTable
  jobs : JobTable
  outbox : EventLog Work

structure OrganizationMembershipView where
  organization : OrganizationState
  membership : MembershipState

variable {Work : Type}

/-- `PostgresOrganizationReader.listForIdentity`: active memberships of organizations that
are not archived. -/
def listForIdentity (organizations : OrganizationTable) (memberships : MemberTable)
    (identityId : ID) : List OrganizationMembershipView :=
  let views := (memberships.rows.filter fun row => row.identityId = identityId ∧ row.status = .active)
    |>.filterMap fun membership => (organizations.get membership.organizationId).bind
      fun organization =>
        if organization.status ≠ .archived then some ⟨organization, membership⟩ else none
  views.mergeSort fun left right =>
    (createdKey left.organization.createdAt left.organization.id).rank ≤
      (createdKey right.organization.createdAt right.organization.id).rank

/-- `GetOrganizationMembership.execute`. -/
def getOrganizationMembership (workspace : Workspace Work) (sessionToken : JsString)
    (organizationId : ID) : Except Failure (Option OrganizationMembershipView) := do
  let identityId ← (workspace.sessions sessionToken).mapError Organizations.dependencyFailure
  return (listForIdentity workspace.organizations workspace.memberships identityId).find?
    fun view => view.organization.id = organizationId

/-- `OrganizationAccessBridge.find`. -/
def findAccess (workspace : Workspace Work) (sessionToken : JsString) (organizationId : ID) :
    Except Failure (Option OrganizationAccess) := do
  match ← getOrganizationMembership workspace sessionToken organizationId with
  | none => return none
  | some view =>
    if view.organization.status ≠ .active ∨ view.membership.status ≠ .active then return none
    else return some ⟨view.organization.id, view.membership.identityId, view.membership.role⟩

theorem mem_listForIdentity {organizations : OrganizationTable} {memberships : MemberTable}
    {identityId : ID} {view : OrganizationMembershipView} :
    view ∈ listForIdentity organizations memberships identityId ↔
      view.membership ∈ memberships.rows ∧ view.membership.identityId = identityId ∧
        view.membership.status = .active ∧
        organizations.get view.membership.organizationId = some view.organization ∧
        view.organization.status ≠ .archived := by
  unfold listForIdentity
  dsimp only
  rw [(List.mergeSort_perm _ _).mem_iff, List.mem_filterMap]
  constructor
  · rintro ⟨membership, member, joined⟩
    obtain ⟨present, chosen⟩ := List.mem_filter.mp member
    cases found : organizations.get membership.organizationId with
    | none => simp [found] at joined
    | some organization =>
      by_cases live : organization.status = .archived
      · simp [found, live] at joined
      · have same : (⟨organization, membership⟩ : OrganizationMembershipView) = view := by
          simpa [found, live] using joined
        subst same
        have chosen : membership.identityId = identityId ∧ membership.status = .active := by
          simpa using chosen
        exact ⟨present, chosen.1, chosen.2, found, live⟩
  · rintro ⟨present, identity, active, found, live⟩
    refine ⟨view.membership, List.mem_filter.mpr ⟨present, by simp [identity, active]⟩, ?_⟩
    simp [found, live]

/-- The bridge answers with an active membership, of the caller, in the active organization. -/
theorem findAccess_inv {workspace : Workspace Work} {sessionToken : JsString} {organizationId : ID}
    {access : OrganizationAccess}
    (found : findAccess workspace sessionToken organizationId = .ok (some access)) :
    ∃ identityId organization membership, workspace.sessions sessionToken = .ok identityId ∧
      workspace.organizations.get organizationId = some organization ∧
      organization.status = .active ∧
      workspace.memberships.get (organizationId, identityId) = some membership ∧
      membership.status = .active ∧ access = ⟨organizationId, identityId, membership.role⟩ := by
  obtain ⟨view, sought, answered⟩ := bind_ok found
  obtain ⟨identityId, session, listed⟩ := bind_ok sought
  have listed := pure_eq_ok.mp listed
  cases view with
  | none => cases pure_eq_ok.mp answered
  | some view =>
    have named : view.organization.id = organizationId := by simpa using List.find?_some listed
    obtain ⟨present, identity, active, joined, _⟩ :=
      mem_listForIdentity.mp (List.mem_of_find?_eq_some listed)
    have member : view.membership.organizationId = organizationId :=
      (Table.key_of_get joined).symm.trans named
    rw [member] at joined
    have held := Table.get_of_mem present
    rw [member, identity] at held
    dsimp only at answered
    split at answered
    · cases pure_eq_ok.mp answered
    · rename_i live
      obtain ⟨organization, _⟩ := not_or.mp live
      cases pure_eq_ok.mp answered
      exact ⟨identityId, view.organization, view.membership, mapError_ok session, joined,
        not_not.mp organization, held, active, by rw [named, identity]⟩

/-- What a request awaits. The clock, the generator, the factory and the envelope's checks
answer at once; here other requests may come between. -/
inductive Op (Work : Type) where
  | now
  | newId
  | childWork (parent : Work) (operation : String)
  | envelope (event : Envelope Work)
  | findAccess (sessionToken : JsString) (organizationId : ID)
  | findDocument (id : ID)
  | listDocuments (organizationId : ID) (page : Request)
  | commitDocument (input : Commit Documents.Document Work)
  | findJob (id : ID)
  | findOpenJob (organizationId : ID) (kind : JsString) (subject : JobSubject)
  | listJobs (organizationId : ID) (page : Request)
  | commitJob (input : Commit Job Work)

@[reducible] def Op.Answer : Op Work → Type
  | .now => Int
  | .newId => Except Failure ID
  | .childWork _ _ => Except Failure Work
  | .envelope _ => Except Failure Unit
  | .findAccess _ _ => Except Failure (Option OrganizationAccess)
  | .findDocument _ => Except Failure (Option Documents.Document)
  | .listDocuments _ _ => Except Failure (List Documents.Document)
  | .commitDocument _ => Except Failure Unit
  | .findJob _ => Except Failure (Option Job)
  | .findOpenJob _ _ _ => Except Failure (Option Job)
  | .listJobs _ _ => Except Failure (List Job)
  | .commitJob _ => Except Failure Unit

/-- What a step takes from outside; `fault` is a failure of the database. -/
structure Input (Work : Type) where
  time : Int
  drawn : Except Failure ID
  child : Except Failure Work
  envelope : Except Failure Unit
  fault : Option Failure

variable [DecidableEq Work]

/-- `PostgresDocumentWriter.commit`. -/
def commitDocument (workspace : Workspace Work) (input : Commit Documents.Document Work) :
    Except Failure (Workspace Work) := do
  assertEventWork input.event input.work
  let documents ← Documents.writeDocument workspace.documents input.mode input.row
  let outbox ← EventLog.enqueue workspace.outbox input.event
  return { workspace with documents := documents, outbox := outbox }

/-- `PostgresJobWriter.commit`. -/
def commitJob (workspace : Workspace Work) (input : Commit Job Work) :
    Except Failure (Workspace Work) := do
  let database ← JobDatabase.commit ⟨workspace.jobs, workspace.outbox⟩ input none
  return { workspace with jobs := database.jobs, outbox := database.outbox }

/-- The answer to a commit; a refused one leaves the workspace as it was. -/
def settle (workspace : Workspace Work) (committed : Except Failure (Workspace Work)) :
    Except Failure Unit × Workspace Work :=
  match committed with
  | .ok next => (.ok (), next)
  | .error error => (.error error, workspace)

def perform (workspace : Workspace Work) : (op : Op Work) → Input Work → op.Answer × Workspace Work
  | .now, input => (input.time, workspace)
  | .newId, input => (input.drawn, workspace)
  | .childWork _ _, input => (input.child, workspace)
  | .envelope _, input => (input.envelope, workspace)
  | .findAccess sessionToken organizationId, input =>
    (orFault input.fault (findAccess workspace sessionToken organizationId), workspace)
  | .findDocument id, input =>
    (orFault input.fault (Documents.findById workspace.documents id), workspace)
  | .listDocuments organizationId page, input =>
    (orFault input.fault (Documents.listForOrganization workspace.documents organizationId page), workspace)
  | .commitDocument commit, input =>
    settle workspace (orFault input.fault (commitDocument workspace commit))
  | .findJob id, input => (orFault input.fault (findById workspace.jobs id), workspace)
  | .findOpenJob organizationId kind subject, input =>
    (orFault input.fault (findOpenBySubject workspace.jobs organizationId kind subject), workspace)
  | .listJobs organizationId page, input =>
    (orFault input.fault (Jobs.listForOrganization workspace.jobs organizationId page), workspace)
  | .commitJob commit, input => settle workspace (orFault input.fault (commitJob workspace commit))

/-- What no call does: a session begins or ends, an organization or a membership is
written, or `ExpireStaleJobs` comes to one of the jobs it listed. -/
inductive Change (Work : Type) where
  | session (sessionToken : JsString) (identity : Except Failure ID)
  | organization (row : OrganizationState)
  | membership (row : MembershipState)
  | expire (job : Job) (work : Work) (input : Input Work)

/-- The loop of `ExpireStaleJobs.execute` at one job. -/
def expireJob (workspace : Workspace Work) (job : Job) (work : Work) (input : Input Work) :
    Workspace Work :=
  match Command.expire.apply job (some input.time) with
  | .error _ => workspace
  | .ok failed => match input.drawn with
    | .error _ => workspace
    | .ok eventId => match input.envelope with
      | .error _ => workspace
      | .ok _ =>
        let event := Command.expire.event ⟨eventId, work⟩ input.time failed
        (perform workspace (.commitJob ⟨.update, failed, event, work⟩) input).2

def change (workspace : Workspace Work) : Change Work → Workspace Work
  | .session sessionToken identity =>
    { workspace with sessions := Function.update workspace.sessions sessionToken identity }
  | .organization row => { workspace with organizations := workspace.organizations.set row }
  | .membership row => { workspace with memberships := workspace.memberships.set row }
  | .expire job work input => expireJob workspace job work input

end N2FNest.Tenancy
