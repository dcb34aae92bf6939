import N2FNest.Lib.Run
import N2FNest.Organizations.Postgres

/-! The commands of Organization over PostgreSQL. Authorization, target and commit
are separate atomic steps, so every command acts on what it read earlier. -/

namespace N2FNest.Organizations

open Events Lib Shared

def dependencyFailure : Failure → Failure := reportDependency "Organization" "organization" [
  (.conflict, ["organization.already_exists", "organization.invitation.acceptance_conflict",
    "organization.invitation.already_exists", "organization.invitation.membership_exists",
    "organization.invitation_exists", "organization.membership.already_exists",
    "organization.membership_exists", "organization.slug_taken", "organization.stale_write"]),
  (.unavailable, ["organization.id_generation", "organization.invitation.id_generation",
    "organization.membership.id_generation"]),
  (.invalid, ["organization.invalid_operation", "organization.invitation.invalid_operation",
    "organization.membership.invalid_operation"]),
  (.forbidden, ["organization.invitation.accept_forbidden", "organization.invitation.forbidden",
    "organization.invitation.revoke_forbidden", "organization.membership.add_forbidden",
    "organization.membership.owner_locked", "organization.membership.revoke_forbidden",
    "organization.membership.role_forbidden"]),
  (.notFound, ["organization.invitation.identity_not_found", "organization.invitation.not_found",
    "organization.membership.identity_not_found", "organization.membership.not_found"]),
  (.unauthenticated, ["organization.missing_token"]),
  (.internal, ["organization.persistence_invalid"])]

def idGenerationFailure (type : String) (_ : Failure) : Failure :=
  failure .unavailable "Organization ID generation failed" type

def INVITATION_TTL_MS : Int := 7 * 24 * 60 * 60 * 1000

/-- What a deployment fixes: two functions of the language, and how a work scope
names its operation. -/
structure Host (Work : Type) where
  toLowerCase : JsString → JsString
  toISOString : Int → JsString
  operation : Work → String

/-- What a step takes from outside: the session's actor and the referenced
identity, the clock, generated ids, the envelope's checks, and a failure of the
database. -/
structure Choices where
  actor : Except Failure ID
  identity : Except Failure (Option ID)
  clock : JsDate
  newId : Nat → Except Failure ID
  envelope : Nat → Except Failure Unit
  fault : Option Failure

inductive Command (Work : Type) where
  | createOrganization (name slug : JsValue) (work : Work)
  | addMembership (organizationId identityId : ID) (role : JsValue) (work : Work)
  | changeMembershipRole (organizationId membershipId : ID) (role : JsValue) (work : Work)
  | revokeMembership (organizationId membershipId : ID) (work : Work)
  | inviteIdentity (organizationId identityId : ID) (role : JsValue) (work : Work)
  | acceptInvitation (organizationId invitationId : ID) (work : Work)
  | revokeInvitation (organizationId invitationId : ID) (work : Work)

inductive Outcome where
  | created (organizationId ownerMembershipId : ID)
  | added (membershipId identityId : ID) (role : MembershipRole)
  | roleChanged (membershipId : ID) (role : MembershipRole)
  | membershipRevoked (membershipId : ID)
  | invited (invitationId identityId : ID) (role : InvitationRole) (expiresAt : Int)
  | accepted (invitationId membershipId organizationId identityId : ID) (role : InvitationRole)
  | invitationRevoked (invitationId : ID)

variable {Work : Type}

namespace Command

def organizationId : Command Work → Option ID
  | .createOrganization .. => none
  | .addMembership organizationId .. => some organizationId
  | .changeMembershipRole organizationId .. => some organizationId
  | .revokeMembership organizationId .. => some organizationId
  | .inviteIdentity organizationId .. => some organizationId
  | .acceptInvitation organizationId .. => some organizationId
  | .revokeInvitation organizationId .. => some organizationId

def work : Command Work → Work
  | .createOrganization _ _ work => work
  | .addMembership _ _ _ work => work
  | .changeMembershipRole _ _ _ work => work
  | .revokeMembership _ _ work => work
  | .inviteIdentity _ _ _ work => work
  | .acceptInvitation _ _ work => work
  | .revokeInvitation _ _ work => work

/-- The operation a command's work scope must name, and the failure where it names
another. -/
def operation : Command Work → String × Failure
  | .createOrganization .. => ("organization.create",
      failure .invalid "organization work operation is invalid" "organization.invalid_operation")
  | .addMembership .. => ("organization.membership.add",
      failure .invalid "membership add operation is invalid"
        "organization.membership.invalid_operation")
  | .changeMembershipRole .. => ("organization.membership.role.change",
      failure .invalid "membership role change operation is invalid"
        "organization.membership.invalid_operation")
  | .revokeMembership .. => ("organization.membership.revoke",
      failure .invalid "membership revocation operation is invalid"
        "organization.membership.invalid_operation")
  | .inviteIdentity .. => ("organization.invitation.create",
      failure .invalid "invitation operation is invalid" "organization.invitation.invalid_operation")
  | .acceptInvitation .. => ("organization.invitation.accept",
      failure .invalid "invitation acceptance operation is invalid"
        "organization.invitation.invalid_operation")
  | .revokeInvitation .. => ("organization.invitation.revoke",
      failure .invalid "invitation revocation operation is invalid"
        "organization.invitation.invalid_operation")

end Command

/-- An event of the tenant `organizationId`, under a generated id. -/
def organizationEvent (choices : Choices) (index : Nat) (idFailure : String) (type : String)
    (time : Int) (work : Work) (payload : JsObject) (kind : String) (id organizationId : ID) :
    Except Failure (Envelope Work) := do
  let eventId ← (choices.newId index).mapError (idGenerationFailure idFailure)
  (choices.envelope index).mapError dependencyFailure
  return {
    id := eventId
    type := js type
    occurredAtMs := time
    work := work
    payload := payload
    subject := some ⟨js kind, id⟩
    tenant := some organizationId }

private def idText (id : ID) : JsValue := .string id.text

private def roleText (role : MembershipRole) : JsValue := .string (js role.name)

private def membershipPayload (membership : Membership) : JsObject :=
  [(js "organization_id", idText membership.organizationId),
    (js "identity_id", idText membership.identityId), (js "membership_id", idText membership.id)]

private def invitationPayload (invitation : Invitation) : JsObject :=
  [(js "organization_id", idText invitation.organizationId),
    (js "identity_id", idText invitation.identityId), (js "invitation_id", idText invitation.id),
    (js "role", roleText invitation.role.toMembership)]

/-- The id-generation failures of the three aggregates. -/
private def organizationIds : String := "organization.id_generation"

private def membershipIds : String := "organization.membership.id_generation"

private def invitationIds : String := "organization.invitation.id_generation"

/-- The operation check and the actor, which every command starts with. -/
def begin (host : Host Work) (choices : Choices) (command : Command Work) : Except Failure ID :=
  if host.operation command.work ≠ command.operation.1 then .error command.operation.2
  else choices.actor.mapError dependencyFailure

/-- The owner check of the commands that only an owner may run. -/
def authorize (database : OrganizationDatabase Work) (choices : Choices) (organizationId actor : ID)
    (forbidden : Failure) : Except Failure Unit := do
  let found ← (orFault choices.fault (database.findActiveForIdentity organizationId actor)).mapError
    dependencyFailure
  match found with
  | none => throw forbidden
  | some membership => if membership.role ≠ .owner then throw forbidden else return

/-- `findForIdentity`, which must find nothing. -/
def unassociated (database : OrganizationDatabase Work) (choices : Choices)
    (organizationId identityId : ID) (taken : Failure) : Except Failure Unit := do
  let existing ← (orFault choices.fault (database.findForIdentity organizationId identityId)).mapError
    dependencyFailure
  match existing with
  | some _ => throw taken
  | none => return

/-- The referenced identity must be active. -/
def referenced (choices : Choices) (missing : Failure) : Except Failure Unit := do
  match ← choices.identity.mapError dependencyFailure with
  | none => throw missing
  | some _ => return

namespace CreateOrganization

def prepare (host : Host Work) (choices : Choices) (actor : ID) (name slug : JsValue) (work : Work) :
    Except Failure (CreateOrganizationCommit Work) := do
  let organizationId ← (choices.newId 0).mapError (idGenerationFailure organizationIds)
  let organization ← createOrganization host.toLowerCase organizationId name slug choices.clock
  let membershipId ← (choices.newId 1).mapError (idGenerationFailure organizationIds)
  let membership ← Membership.add membershipId organization.id actor
    (.string (js MembershipRole.owner.name)) choices.clock
  let organizationEvent ← organizationEvent choices 2 organizationIds "organization.created.v1"
    organization.createdAt work
    [(js "organization_id", idText organization.id), (js "identity_id", idText actor),
      (js "name", .string organization.name), (js "slug", .string organization.slug)]
    "organization" organization.id organization.id
  let membershipEvent ← Organizations.organizationEvent choices 3 organizationIds
    "organization.membership.added.v1" organization.createdAt work
    (membershipPayload membership ++ [(js "role", roleText membership.role)])
    "membership" membership.id organization.id
  return ⟨organization, membership, [organizationEvent, membershipEvent], work⟩

end CreateOrganization

namespace AddMembership

def prepare (database : OrganizationDatabase Work) (choices : Choices)
    (organizationId identityId : ID) (role : JsValue) (work : Work) :
    Except Failure (MembershipCommit Work) := do
  referenced choices (failure .notFound "active identity was not found"
    "organization.membership.identity_not_found")
  unassociated database choices organizationId identityId
    (failure .conflict "identity is already associated with organization"
      "organization.membership.already_exists")
  let membershipId ← (choices.newId 0).mapError (idGenerationFailure membershipIds)
  let membership ← Membership.add membershipId organizationId identityId role choices.clock
  let event ← organizationEvent choices 1 membershipIds "organization.membership.added.v1"
    membership.createdAt work
    (membershipPayload membership ++ [(js "role", roleText membership.role)])
    "membership" membership.id membership.organizationId
  return ⟨membership, event, work⟩

end AddMembership

/-- The membership that a role change or a revocation is about; an owner's is
locked. -/
def target (database : OrganizationDatabase Work) (choices : Choices)
    (organizationId membershipId : ID) (locked : String) : Except Failure Membership := do
  let found ← (orFault choices.fault (database.findMembership membershipId)).mapError dependencyFailure
  match found with
  | none => throw membershipNotFound
  | some membership =>
    if membership.organizationId ≠ organizationId then throw membershipNotFound
    else if membership.role = .owner then
      throw (failure .forbidden locked "organization.membership.owner_locked")
    else return membership

namespace ChangeMembershipRole

def prepare (database : OrganizationDatabase Work) (choices : Choices)
    (organizationId membershipId : ID) (role : JsValue) (work : Work) :
    Except Failure (MembershipCommit Work) := do
  let membership ← target database choices organizationId membershipId
    "the owner membership cannot be changed by this command"
  let changed ← membership.changeRole role choices.clock
  let event ← organizationEvent choices 0 membershipIds "organization.membership.role.changed.v1"
    changed.updatedAt work
    (membershipPayload changed ++
      [(js "previous_role", roleText membership.role), (js "role", roleText changed.role)])
    "membership" changed.id changed.organizationId
  return ⟨changed, event, work⟩

end ChangeMembershipRole

namespace RevokeMembership

def prepare (database : OrganizationDatabase Work) (choices : Choices)
    (organizationId membershipId : ID) (work : Work) : Except Failure (MembershipCommit Work) := do
  let membership ← target database choices organizationId membershipId
    "the owner membership cannot be revoked by this command"
  let revoked ← membership.revoke choices.clock
  let event ← organizationEvent choices 0 membershipIds "organization.membership.revoked.v1"
    revoked.updatedAt work
    (membershipPayload revoked ++ [(js "role", roleText revoked.role)])
    "membership" revoked.id revoked.organizationId
  return ⟨revoked, event, work⟩

end RevokeMembership

namespace InviteIdentity

/-- The referenced identity exists and has no membership. -/
def checkIdentity (database : OrganizationDatabase Work) (choices : Choices)
    (organizationId identityId : ID) : Except Failure Unit := do
  referenced choices (failure .notFound "identity was not found"
    "organization.invitation.identity_not_found")
  unassociated database choices organizationId identityId
    (failure .conflict "identity already has an organization membership"
      "organization.invitation.membership_exists")

def prepare (host : Host Work) (database : OrganizationDatabase Work) (choices : Choices)
    (organizationId identityId : ID) (role : JsValue) (work : Work) :
    Except Failure (InvitationCommit Work) := do
  let existing ← (orFault choices.fault
    (database.findPendingForIdentity organizationId identityId)).mapError dependencyFailure
  match existing with
  | some _ => throw (failure .conflict "an invitation is already pending"
      "organization.invitation.already_exists")
  | none =>
    let id ← (choices.newId 0).mapError (idGenerationFailure invitationIds)
    let expiresAt := choices.clock.bind fun time => timeClip (time + INVITATION_TTL_MS)
    let invitation ← Invitation.issue id organizationId identityId role choices.clock expiresAt
    let event ← organizationEvent choices 1 invitationIds "organization.invitation.created.v1"
      invitation.createdAt work
      (invitationPayload invitation ++
        [(js "expires_at", .string (host.toISOString invitation.expiresAt))])
      "invitation" invitation.id invitation.organizationId
    return ⟨invitation, event, work⟩

end InviteIdentity

/-- The invitation under this id, if it is the organization's. -/
def invitationOf (database : OrganizationDatabase Work) (choices : Choices)
    (organizationId invitationId : ID) : Except Failure Invitation := do
  let found ← (orFault choices.fault (database.findInvitation invitationId)).mapError dependencyFailure
  match found with
  | none => throw invitationNotFound
  | some invitation =>
    if invitation.organizationId ≠ organizationId then throw invitationNotFound else return invitation

namespace AcceptInvitation

def prepare (database : OrganizationDatabase Work) (choices : Choices) (organizationId actor : ID)
    (invitation : Invitation) (work : Work) :
    Except Failure (InvitationAcceptanceCommit Work) := do
  unassociated database choices organizationId actor
    (failure .conflict "identity already has an organization membership"
      "organization.invitation.membership_exists")
  let accepted ← invitation.accept choices.clock
  let membershipId ← (choices.newId 0).mapError (idGenerationFailure invitationIds)
  let membership ← Membership.add membershipId accepted.organizationId accepted.identityId
    (.string (js accepted.role.name)) choices.clock
  let invitationEvent ← organizationEvent choices 1 invitationIds
    "organization.invitation.accepted.v1" accepted.updatedAt work (invitationPayload accepted)
    "invitation" accepted.id accepted.organizationId
  let membershipEvent ← organizationEvent choices 2 invitationIds
    "organization.membership.added.v1" accepted.updatedAt work
    (membershipPayload membership ++
      [(js "role", roleText membership.role), (js "invitation_id", idText accepted.id)])
    "membership" membership.id membership.organizationId
  return ⟨accepted, membership, [invitationEvent, membershipEvent], work⟩

end AcceptInvitation

namespace RevokeInvitation

def prepare (database : OrganizationDatabase Work) (choices : Choices)
    (organizationId invitationId : ID) (work : Work) : Except Failure (InvitationCommit Work) := do
  let invitation ← invitationOf database choices organizationId invitationId
  let revoked ← invitation.revoke choices.clock
  let event ← organizationEvent choices 0 invitationIds "organization.invitation.revoked.v1"
    revoked.updatedAt work (invitationPayload revoked) "invitation" revoked.id revoked.organizationId
  return ⟨revoked, event, work⟩

end RevokeInvitation

/-- Where a call stands between two of its steps. -/
inductive Call (Work : Type) where
  | idle
  | requested (command : Command Work)
  | authorized (actor : ID) (command : Command Work)
  | unassociated (command : Command Work)
  | invited (actor organizationId : ID) (invitation : Invitation) (work : Work)
  | creating (input : CreateOrganizationCommit Work)
  | adding (input : MembershipCommit Work)
  | changing (actor : ID) (input : MembershipCommit Work)
  | revoking (actor : ID) (input : MembershipCommit Work)
  | inviting (input : InvitationCommit Work)
  | accepting (input : InvitationAcceptanceCommit Work)
  | withdrawing (input : InvitationCommit Work)
  | returned (result : Except Failure Outcome)

namespace Call

def attempt : Except Failure (Call Work) → Call Work
  | .ok next => next
  | .error error => .returned (.error error)

/-- The owner check of a command, which it keeps for its next step. -/
def owned (database : OrganizationDatabase Work) (choices : Choices) (actor : ID)
    (command : Command Work) (organizationId : ID) (message type : String) :
    Except Failure (Call Work) := do
  authorize database choices organizationId actor (failure .forbidden message type)
  return .authorized actor command

/-- The first step of a command: the actor, and the first read it makes. -/
def first (host : Host Work) (database : OrganizationDatabase Work) (choices : Choices)
    (command : Command Work) : Except Failure (Call Work) := do
  let actor ← begin host choices command
  match command with
  | .createOrganization name slug work =>
    return .creating (← CreateOrganization.prepare host choices actor name slug work)
  | .addMembership organizationId .. =>
    owned database choices actor command organizationId
      "only an organization owner can add members" "organization.membership.add_forbidden"
  | .changeMembershipRole organizationId .. =>
    owned database choices actor command organizationId
      "only an organization owner can change roles" "organization.membership.role_forbidden"
  | .revokeMembership organizationId .. =>
    owned database choices actor command organizationId
      "only an organization owner can revoke memberships"
      "organization.membership.revoke_forbidden"
  | .inviteIdentity organizationId .. =>
    owned database choices actor command organizationId
      "only an organization owner can create invitations" "organization.invitation.forbidden"
  | .revokeInvitation organizationId .. =>
    owned database choices actor command organizationId
      "only an organization owner can revoke invitations"
      "organization.invitation.revoke_forbidden"
  | .acceptInvitation organizationId invitationId work =>
    let invitation ← invitationOf database choices organizationId invitationId
    if invitation.identityId ≠ actor then
      throw (failure .forbidden "only the invited identity can accept this invitation"
        "organization.invitation.accept_forbidden")
    else return .invited actor organizationId invitation work

/-- What an authorized command reads next. -/
def second (database : OrganizationDatabase Work) (choices : Choices) (actor : ID) :
    Command Work → Except Failure (Call Work)
  | .addMembership organizationId identityId role work => do
    return .adding (← AddMembership.prepare database choices organizationId identityId role work)
  | .changeMembershipRole organizationId membershipId role work => do
    return .changing actor
      (← ChangeMembershipRole.prepare database choices organizationId membershipId role work)
  | .revokeMembership organizationId membershipId work => do
    return .revoking actor
      (← RevokeMembership.prepare database choices organizationId membershipId work)
  | .inviteIdentity organizationId identityId role work => do
    InviteIdentity.checkIdentity database choices organizationId identityId
    return .unassociated (.inviteIdentity organizationId identityId role work)
  | .revokeInvitation organizationId invitationId work => do
    return .withdrawing
      (← RevokeInvitation.prepare database choices organizationId invitationId work)
  | command => .ok (.authorized actor command)

/-- The read that a call makes next. -/
def next (host : Host Work) (database : OrganizationDatabase Work) (choices : Choices) :
    Call Work → Except Failure (Call Work)
  | .requested command => first host database choices command
  | .authorized actor command => second database choices actor command
  | .unassociated (.inviteIdentity organizationId identityId role work) => do
    return .inviting
      (← InviteIdentity.prepare host database choices organizationId identityId role work)
  | .invited actor organizationId invitation work => do
    return .accepting
      (← AcceptInvitation.prepare database choices organizationId actor invitation work)
  | call => .ok call

variable [DecidableEq Work]

/-- The transaction a call is about to make, with the outcome it then reports. -/
def commit (database : OrganizationDatabase Work) :
    Call Work → Option (Except Failure (OrganizationDatabase Work) × Outcome)
  | .creating input => some (database.commitOrganization input,
      .created input.organization.id input.ownerMembership.id)
  | .adding input => some (database.commitMembership input,
      .added input.membership.id input.membership.identityId input.membership.role)
  | .changing _ input => some (database.commitMembership input,
      .roleChanged input.membership.id input.membership.role)
  | .revoking _ input => some (database.commitMembership input,
      .membershipRevoked input.membership.id)
  | .inviting input => some (database.commitInvitation input, .invited input.invitation.id
      input.invitation.identityId input.invitation.role input.invitation.expiresAt)
  | .accepting input => some (database.commitAcceptance input, .accepted input.invitation.id
      input.membership.id input.membership.organizationId input.membership.identityId
      input.invitation.role)
  | .withdrawing input => some (database.commitInvitation input,
      .invitationRevoked input.invitation.id)
  | _ => none

/-- One atomic step of a call, and the database after it. -/
def advance (host : Host Work) (database : OrganizationDatabase Work) (choices : Choices)
    (call : Call Work) : Call Work × OrganizationDatabase Work :=
  match call.commit database with
  | none => (attempt (call.next host database choices), database)
  | some (result, outcome) => match orFault choices.fault result with
    | .ok after => (.returned (.ok outcome), after)
    | .error error => (.returned (.error (dependencyFailure error)), database)

end Call

structure OrganizationSystem (Work : Type) where
  database : OrganizationDatabase Work
  calls : Nat → Call Work

inductive Label (Work : Type) where
  | request (caller : Nat) (command : Command Work)
  | advance (caller : Nat) (choices : Choices)

namespace OrganizationSystem

def empty : OrganizationSystem Work where
  database := ⟨Table.empty, Table.empty, Table.empty, Table.empty⟩
  calls := fun _ => .idle

variable [DecidableEq Work]

def step (host : Host Work) (state : OrganizationSystem Work) :
    Label Work → OrganizationSystem Work
  | .request caller command => match state.calls caller with
    | .idle => { state with calls := Function.update state.calls caller (.requested command) }
    | _ => state
  | .advance caller choices =>
    let (after, database) := (state.calls caller).advance host state.database choices
    { database := database, calls := Function.update state.calls caller after }

/-- A step of a call reads, is refused, or makes its commit. Only the last
changes the database. -/
theorem advance_cases (host : Host Work) (state : OrganizationSystem Work) (caller : Nat)
    (choices : Choices) :
    (state.calls caller).commit state.database = none ∧
        state.step host (.advance caller choices) = { state with
          calls := Function.update state.calls caller
            (Call.attempt ((state.calls caller).next host state.database choices)) } ∨
      (∃ error, state.step host (.advance caller choices) = { state with
          calls := Function.update state.calls caller (.returned (.error error)) }) ∨
      ∃ database outcome, (state.calls caller).commit state.database = some (.ok database, outcome) ∧
        state.step host (.advance caller choices) = {
          database := database
          calls := Function.update state.calls caller (.returned (.ok outcome)) } := by
  cases commits : (state.calls caller).commit state.database with
  | none =>
    refine .inl ⟨rfl, ?_⟩
    simp only [step, Call.advance, commits]
  | some made =>
    obtain ⟨result, outcome⟩ := made
    simp only [step, Call.advance, commits]
    cases done : orFault choices.fault result with
    | error error => exact .inr (.inl ⟨dependencyFailure error, rfl⟩)
    | ok database => exact .inr (.inr ⟨database, outcome, by rw [orFault_ok done], rfl⟩)

end OrganizationSystem

end N2FNest.Organizations
