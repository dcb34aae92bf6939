import N2FNest.Events.Envelope
import N2FNest.Organizations.Organization
import N2FNest.Shared.Versioned

/-! The PostgreSQL adapters of Organization. A commit is one transaction over the
three tables and the outbox. -/

namespace N2FNest.Organizations

open Events Lib Shared

abbrev OrganizationTable := Table (fun row : OrganizationState => row.id)

abbrev MembershipTable := Table (fun row : MembershipState => row.id)

abbrev InvitationTable := Table (fun row : InvitationState => row.id)

structure OrganizationDatabase (Work : Type) where
  organizations : OrganizationTable
  memberships : MembershipTable
  invitations : InvitationTable
  outbox : EventLog Work

private def refusal (message type : String) : Failure := failure .conflict message type

def staleWrite : Failure :=
  refusal "record was changed by a concurrent operation" "organization.stale_write"

def organizationExists : Failure :=
  refusal "organization already exists" "organization.already_exists"

def slugTaken : Failure := refusal "organization slug is already in use" "organization.slug_taken"

def ownerMembershipExists : Failure :=
  refusal "membership already exists" "organization.membership_exists"

def membershipExists : Failure :=
  refusal "identity is already a member" "organization.membership.already_exists"

def invitationExists : Failure :=
  refusal "invitation already exists" "organization.invitation_exists"

def pendingInvitationExists : Failure :=
  refusal "identity already has a pending invitation" "organization.invitation.already_exists"

def acceptanceConflict : Failure :=
  refusal "invitation is no longer pending" "organization.invitation.acceptance_conflict"

def acceptedMembershipExists : Failure :=
  refusal "identity is already a member" "organization.invitation.membership_exists"

def membershipNotFound : Failure :=
  failure .notFound "membership was not found" "organization.membership.not_found"

def invitationNotFound : Failure :=
  failure .notFound "invitation was not found" "organization.invitation.not_found"

variable {Work : Type}

namespace OrganizationDatabase

private def restoreMembership : Option MembershipState → Except Failure (Option Membership)
  | none => .ok none
  | some row => (Membership.restore row).map some

def findMembership (database : OrganizationDatabase Work) (id : ID) :
    Except Failure (Option Membership) :=
  restoreMembership (database.memberships.get id)

def findActiveForIdentity (database : OrganizationDatabase Work) (organizationId identityId : ID) :
    Except Failure (Option Membership) :=
  restoreMembership (database.memberships.rows.find? fun row =>
    row.organizationId = organizationId ∧ row.identityId = identityId ∧ row.status = .active)

def findForIdentity (database : OrganizationDatabase Work) (organizationId identityId : ID) :
    Except Failure (Option Membership) :=
  restoreMembership (database.memberships.rows.find? fun row =>
    row.organizationId = organizationId ∧ row.identityId = identityId)

private def restoreInvitation : Option InvitationState → Except Failure (Option Invitation)
  | none => .ok none
  | some row => (Invitation.restore row).map some

def findInvitation (database : OrganizationDatabase Work) (id : ID) :
    Except Failure (Option Invitation) :=
  restoreInvitation (database.invitations.get id)

/-- `ORDER BY created_at DESC LIMIT 1`. -/
def findPendingForIdentity (database : OrganizationDatabase Work) (organizationId identityId : ID) :
    Except Failure (Option Invitation) :=
  restoreInvitation (Table.least (fun left right => right.createdAt < left.createdAt)
    (database.invitations.rows.filter fun row => row.organizationId = organizationId ∧
      row.identityId = identityId ∧ row.status = .pending))

end OrganizationDatabase

/-- The INSERT of an organization: its id and its slug are unique. -/
def insertOrganization (organizations : OrganizationTable) (organization : OrganizationState) :
    Except Failure OrganizationTable :=
  if (organizations.get organization.id).isSome then .error organizationExists
  else if organizations.rows.any fun row => row.slug = organization.slug then .error slugTaken
  else .ok (organizations.set { organization with version := FIRST })

/-- A row as it is inserted, at the first version. -/
def Membership.inserted (membership : Membership) : MembershipState :=
  { membership.toMembershipState with version := FIRST }

/-- The INSERT of a membership: its id is unique, an identity has one membership
of an organization, and the organization exists. -/
def insertMembership (organizations : OrganizationTable) (memberships : MembershipTable)
    (membership : Membership) (taken : Failure) : Except Failure MembershipTable :=
  if (memberships.get membership.id).isSome ∨ memberships.rows.any (fun row =>
      row.organizationId = membership.organizationId ∧ row.identityId = membership.identityId) then
    .error taken
  else if (organizations.get membership.organizationId).isNone then .error databaseFailed
  else .ok (memberships.set membership.inserted)

/-- The row that the UPDATE of a membership makes of the stored one. -/
def Membership.onto (membership : Membership) (row : MembershipState) : MembershipState :=
  { row with
    role := membership.role
    status := membership.status
    updatedAt := membership.updatedAt
    revokedAt := membership.revokedAt
    version := row.version + 1 }

/-- `UPDATE … WHERE id=$1 AND version=$6`. -/
def updateMembership (memberships : MembershipTable) (membership : Membership) :
    Except Failure MembershipTable :=
  updateVersioned memberships membership.id (fun row => row.version)
    (fun row => row.version = membership.version)
    membership.onto membershipNotFound staleWrite

/-- A new membership is inserted, a loaded one updated. -/
def writeMembership (organizations : OrganizationTable) (memberships : MembershipTable)
    (membership : Membership) : Except Failure MembershipTable :=
  if membership.version = UNSAVED then
    insertMembership organizations memberships membership membershipExists
  else updateMembership memberships membership

/-- The partial unique index `n2f_organization_invitations_pending_identity`. -/
def pendingTaken (invitations : InvitationTable) (row : InvitationState) : Bool :=
  row.status = .pending && invitations.rows.any fun other => other.id ≠ row.id &&
    other.status = .pending && other.organizationId = row.organizationId &&
    other.identityId = row.identityId

def Invitation.inserted (invitation : Invitation) : InvitationState :=
  { invitation.toInvitationState with version := FIRST }

def insertInvitation (organizations : OrganizationTable) (invitations : InvitationTable)
    (invitation : Invitation) : Except Failure InvitationTable :=
  if (invitations.get invitation.id).isSome then .error invitationExists
  else if pendingTaken invitations invitation.toInvitationState then .error pendingInvitationExists
  else if (organizations.get invitation.organizationId).isNone then .error databaseFailed
  else .ok (invitations.set invitation.inserted)

/-- The row that the UPDATE of an invitation makes of the stored one. -/
def Invitation.onto (invitation : Invitation) (row : InvitationState) : InvitationState :=
  { row with
    role := invitation.role
    status := invitation.status
    updatedAt := invitation.updatedAt
    expiresAt := invitation.expiresAt
    acceptedAt := invitation.acceptedAt
    revokedAt := invitation.revokedAt
    version := row.version + 1 }

/-- The UPDATE of a loaded invitation. A settled one is outside the pending index. -/
def updateInvitation (invitations : InvitationTable) (invitation : Invitation) :
    Except Failure InvitationTable := do
  let next ← updateVersioned invitations invitation.id (fun row => row.version)
    (fun row => row.version = invitation.version)
    invitation.onto invitationNotFound staleWrite
  if pendingTaken invitations invitation.toInvitationState then throw pendingInvitationExists
  else return next

def writeInvitation (organizations : OrganizationTable) (invitations : InvitationTable)
    (invitation : Invitation) : Except Failure InvitationTable :=
  if invitation.version = UNSAVED then insertInvitation organizations invitations invitation
  else updateInvitation invitations invitation

/-- `SET status='accepted',updated_at=$2,accepted_at=$2,version=version+1`. -/
def Invitation.acceptedOnto (invitation : Invitation) (row : InvitationState) : InvitationState :=
  { row with
    status := .accepted
    updatedAt := invitation.updatedAt
    acceptedAt := some invitation.updatedAt
    version := row.version + 1 }

/-- `UPDATE … WHERE id AND status='pending' AND version`: the pending
guard keeps acceptance terminal. -/
def acceptInvitationRow (invitations : InvitationTable) (invitation : Invitation) :
    Except Failure InvitationTable :=
  updateVersioned invitations invitation.id (fun row => row.version)
    (fun row => row.status = .pending && row.version = invitation.version)
    invitation.acceptedOnto acceptanceConflict acceptanceConflict

structure CreateOrganizationCommit (Work : Type) where
  organization : OrganizationState
  ownerMembership : Membership
  events : List (Envelope Work)
  work : Work

structure MembershipCommit (Work : Type) where
  membership : Membership
  event : Envelope Work
  work : Work

structure InvitationCommit (Work : Type) where
  invitation : Invitation
  event : Envelope Work
  work : Work

structure InvitationAcceptanceCommit (Work : Type) where
  invitation : Invitation
  membership : Membership
  events : List (Envelope Work)
  work : Work

variable [DecidableEq Work]

namespace OrganizationDatabase

/-- The statements of `PostgresOrganizationWriter.commit`. -/
def commitOrganization (database : OrganizationDatabase Work)
    (input : CreateOrganizationCommit Work) : Except Failure (OrganizationDatabase Work) := do
  input.events.forM (assertEventWork · input.work)
  let organizations ← insertOrganization database.organizations input.organization
  let memberships ← insertMembership organizations database.memberships input.ownerMembership
    ownerMembershipExists
  let outbox ← EventLog.enqueueAll database.outbox input.events
  return { database with
    organizations := organizations, memberships := memberships, outbox := outbox }

/-- The statements of `PostgresMembershipWriter.commit`. -/
def commitMembership (database : OrganizationDatabase Work) (input : MembershipCommit Work) :
    Except Failure (OrganizationDatabase Work) := do
  assertEventWork input.event input.work
  let memberships ← writeMembership database.organizations database.memberships input.membership
  let outbox ← EventLog.enqueue database.outbox input.event
  return { database with memberships := memberships, outbox := outbox }

/-- The statements of `PostgresInvitationWriter.commit`. -/
def commitInvitation (database : OrganizationDatabase Work) (input : InvitationCommit Work) :
    Except Failure (OrganizationDatabase Work) := do
  assertEventWork input.event input.work
  let invitations ← writeInvitation database.organizations database.invitations input.invitation
  let outbox ← EventLog.enqueue database.outbox input.event
  return { database with invitations := invitations, outbox := outbox }

/-- The INSERT of an acceptance writes `status='active'` and one time for both columns. -/
def acceptedMembership (membership : Membership) : Membership where
  toMembershipState := { membership.toMembershipState with
    status := .active, updatedAt := membership.createdAt, revokedAt := none }
  time := Int.le_refl membership.createdAt
  revocation := by simp

/-- The statements of `PostgresInvitationAcceptanceWriter.commit`. -/
def commitAcceptance (database : OrganizationDatabase Work)
    (input : InvitationAcceptanceCommit Work) : Except Failure (OrganizationDatabase Work) := do
  input.events.forM (assertEventWork · input.work)
  let invitations ← acceptInvitationRow database.invitations input.invitation
  let memberships ← insertMembership database.organizations database.memberships
    (acceptedMembership input.membership) acceptedMembershipExists
  let outbox ← EventLog.enqueueAll database.outbox input.events
  return { database with invitations := invitations, memberships := memberships, outbox := outbox }

end OrganizationDatabase

/-- A membership that was inserted: new under its id and for its identity. -/
structure Joined (before after : MembershipTable) (row : MembershipState) : Prop where
  fresh : before.get row.id = none
  alone : ∀ other ∈ before.rows, other.organizationId = row.organizationId →
    other.identityId ≠ row.identityId
  written : after = before.set row

/-- A membership that was updated from the version it was loaded at. -/
structure Altered (before after : MembershipTable) (membership : Membership)
    (stored : MembershipState) : Prop where
  found : before.get membership.id = some stored
  version : stored.version = membership.version
  written : after = before.set (membership.onto stored)

private theorem insertMembership_inv {organizations : OrganizationTable}
    {memberships next : MembershipTable} {membership : Membership} {taken : Failure}
    (done : insertMembership organizations memberships membership taken = .ok next) :
    Joined memberships next membership.inserted := by
  simp only [insertMembership, refuse_ok, not_or, Except.ok.injEq] at done
  obtain ⟨⟨fresh, alone⟩, _, rfl⟩ := done
  refine ⟨by simpa [Membership.inserted] using fresh, ?_, rfl⟩
  intro other member organization identity
  exact alone (List.any_eq_true.mpr ⟨other, member, by simp [organization, identity, Membership.inserted]⟩)

private theorem updateMembership_inv {memberships next : MembershipTable} {membership : Membership}
    (done : updateMembership memberships membership = .ok next) :
    ∃ stored, Altered memberships next membership stored := by
  obtain ⟨stored, found, matched, written⟩ := updateVersioned_inv done
  exact ⟨stored, found, by simpa using matched, written⟩

/-- The invitation rows after an accepted write of `row`. -/
structure Rewritten (before after : InvitationTable) (stored row : InvitationState) : Prop where
  found : before.get stored.id = some stored
  same : row.id = stored.id
  written : after = before.set row

private theorem acceptInvitationRow_inv {invitations next : InvitationTable} {invitation : Invitation}
    (done : acceptInvitationRow invitations invitation = .ok next) :
    ∃ stored, stored.id = invitation.id ∧ stored.status = .pending ∧
      stored.version = invitation.version ∧
      Rewritten invitations next stored (invitation.acceptedOnto stored) := by
  obtain ⟨stored, found, matched, written⟩ := updateVersioned_inv done
  simp only [Bool.and_eq_true, decide_eq_true_eq] at matched
  have named := Table.key_of_get found
  have named : stored.id = invitation.id := named
  exact ⟨stored, named, matched.1, matched.2, named ▸ found, rfl, written⟩

private theorem updateInvitation_inv {invitations next : InvitationTable} {invitation : Invitation}
    (done : updateInvitation invitations invitation = .ok next) :
    ∃ stored, stored.id = invitation.id ∧ stored.version = invitation.version ∧
      Rewritten invitations next stored (invitation.onto stored) := by
  obtain ⟨updated, update, done⟩ := bind_ok done
  split at done
  · cases done
  · cases pure_eq_ok.mp done
    obtain ⟨stored, found, matched, written⟩ := updateVersioned_inv update
    have named := Table.key_of_get found
    have named : stored.id = invitation.id := named
    exact ⟨stored, named, by simpa using matched, named ▸ found, rfl, written⟩

/-- An invitation that was inserted: new under its id, and the only pending one
for its identity. -/
structure Invited (before after : InvitationTable) (row : InvitationState) : Prop where
  fresh : before.get row.id = none
  alone : pendingTaken before row = false
  written : after = before.set row

private theorem insertInvitation_inv {organizations : OrganizationTable}
    {invitations next : InvitationTable} {invitation : Invitation}
    (done : insertInvitation organizations invitations invitation = .ok next) :
    Invited invitations next invitation.inserted := by
  simp only [insertInvitation, refuse_ok, Except.ok.injEq] at done
  obtain ⟨fresh, alone, _, rfl⟩ := done
  exact ⟨by simpa [Invitation.inserted] using fresh, eq_false_of_ne_true alone, rfl⟩

namespace OrganizationDatabase

theorem commitOrganization_inv {database next : OrganizationDatabase Work}
    {input : CreateOrganizationCommit Work} (done : database.commitOrganization input = .ok next) :
    next.invitations = database.invitations ∧
      next.organizations = database.organizations.set { input.organization with version := FIRST } ∧
      Joined database.memberships next.memberships input.ownerMembership.inserted := by
  obtain ⟨_, _, done⟩ := bind_ok done
  obtain ⟨organizations, created, done⟩ := bind_ok done
  obtain ⟨memberships, joined, done⟩ := bind_ok done
  obtain ⟨_, _, done⟩ := bind_ok done
  cases pure_eq_ok.mp done
  simp only [insertOrganization, refuse_ok, Except.ok.injEq] at created
  obtain ⟨_, _, rfl⟩ := created
  exact ⟨rfl, rfl, insertMembership_inv joined⟩

theorem commitMembership_inv {database next : OrganizationDatabase Work}
    {input : MembershipCommit Work} (done : database.commitMembership input = .ok next) :
    next.organizations = database.organizations ∧ next.invitations = database.invitations ∧
      (input.membership.version = UNSAVED ∧
          Joined database.memberships next.memberships input.membership.inserted ∨
        input.membership.version ≠ UNSAVED ∧
          ∃ stored, Altered database.memberships next.memberships input.membership stored) := by
  obtain ⟨_, _, done⟩ := bind_ok done
  obtain ⟨memberships, write, done⟩ := bind_ok done
  obtain ⟨_, _, done⟩ := bind_ok done
  cases pure_eq_ok.mp done
  refine ⟨rfl, rfl, ?_⟩
  unfold writeMembership at write
  split at write
  · rename_i unsaved
    exact .inl ⟨unsaved, insertMembership_inv write⟩
  · rename_i saved
    exact .inr ⟨saved, updateMembership_inv write⟩

theorem commitInvitation_inv {database next : OrganizationDatabase Work}
    {input : InvitationCommit Work} (done : database.commitInvitation input = .ok next) :
    next.organizations = database.organizations ∧ next.memberships = database.memberships ∧
      (input.invitation.version = UNSAVED ∧
          Invited database.invitations next.invitations input.invitation.inserted ∨
        input.invitation.version ≠ UNSAVED ∧ ∃ stored, stored.id = input.invitation.id ∧
          stored.version = input.invitation.version ∧
          Rewritten database.invitations next.invitations stored
            (input.invitation.onto stored)) := by
  obtain ⟨_, _, done⟩ := bind_ok done
  obtain ⟨invitations, write, done⟩ := bind_ok done
  obtain ⟨_, _, done⟩ := bind_ok done
  cases pure_eq_ok.mp done
  refine ⟨rfl, rfl, ?_⟩
  unfold writeInvitation at write
  split at write
  · rename_i unsaved
    exact .inl ⟨unsaved, insertInvitation_inv write⟩
  · rename_i saved
    exact .inr ⟨saved, updateInvitation_inv write⟩

theorem commitAcceptance_inv {database next : OrganizationDatabase Work}
    {input : InvitationAcceptanceCommit Work} (done : database.commitAcceptance input = .ok next) :
    next.organizations = database.organizations ∧
      Joined database.memberships next.memberships (acceptedMembership input.membership).inserted ∧
      ∃ stored, stored.id = input.invitation.id ∧ stored.status = .pending ∧
        stored.version = input.invitation.version ∧
        Rewritten database.invitations next.invitations stored
          (input.invitation.acceptedOnto stored) := by
  obtain ⟨_, _, done⟩ := bind_ok done
  obtain ⟨invitations, accept, done⟩ := bind_ok done
  obtain ⟨memberships, joined, done⟩ := bind_ok done
  obtain ⟨_, _, done⟩ := bind_ok done
  cases pure_eq_ok.mp done
  exact ⟨rfl, insertMembership_inv joined, acceptInvitationRow_inv accept⟩

omit [DecidableEq Work] in
private theorem restoreMembership_inv {found : Option MembershipState} {membership : Membership}
    (done : restoreMembership found = .ok (some membership)) :
    found = some membership.toMembershipState ∧ isStoredVersion membership.version = true := by
  cases found with
  | none => cases done
  | some row =>
    cases restored : Membership.restore row with
    | error error =>
      simp only [restoreMembership, restored] at done
      cases done
    | ok value =>
      simp only [restoreMembership, restored] at done
      cases done
      obtain ⟨same, stored⟩ := Membership.restore_ok restored
      rw [same]
      exact ⟨rfl, stored⟩

omit [DecidableEq Work] in
theorem findMembership_inv {database : OrganizationDatabase Work} {id : ID} {membership : Membership}
    (done : database.findMembership id = .ok (some membership)) :
    database.memberships.get membership.id = some membership.toMembershipState ∧
      membership.version ≠ UNSAVED := by
  obtain ⟨found, stored⟩ := restoreMembership_inv done
  have named := Table.key_of_get found
  have named : membership.id = id := named
  refine ⟨named ▸ found, ?_⟩
  intro unsaved
  rw [unsaved] at stored
  exact absurd stored (by decide)

omit [DecidableEq Work] in
theorem findActiveForIdentity_inv {database : OrganizationDatabase Work} {organizationId identityId : ID}
    {membership : Membership}
    (done : database.findActiveForIdentity organizationId identityId = .ok (some membership)) :
    membership.toMembershipState ∈ database.memberships.rows ∧
      membership.organizationId = organizationId ∧ membership.identityId = identityId ∧
      membership.status = .active := by
  obtain ⟨found, _⟩ := restoreMembership_inv done
  refine ⟨List.mem_of_find?_eq_some found, ?_⟩
  simpa using List.find?_some found

omit [DecidableEq Work] in
theorem findInvitation_inv {database : OrganizationDatabase Work} {id : ID} {invitation : Invitation}
    (done : database.findInvitation id = .ok (some invitation)) :
    database.invitations.get invitation.id = some invitation.toInvitationState ∧
      invitation.version ≠ UNSAVED := by
  unfold findInvitation at done
  cases found : database.invitations.get id with
  | none =>
    rw [found] at done
    cases done
  | some row =>
    cases restored : Invitation.restore row with
    | error error =>
      simp only [found, restoreInvitation, restored] at done
      cases done
    | ok value =>
      simp only [found, restoreInvitation, restored] at done
      cases done
      obtain ⟨same, stored⟩ := Invitation.restore_ok restored
      have named := Table.key_of_get found
      have named : row.id = id := named
      rw [same]
      refine ⟨named ▸ found, ?_⟩
      intro unsaved
      rw [unsaved] at stored
      exact absurd stored (by decide)

end OrganizationDatabase

end N2FNest.Organizations
