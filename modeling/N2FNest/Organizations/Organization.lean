import N2FNest.Lib.Result
import N2FNest.Shared.Identifier

/-! The aggregates of Organization: organizations, memberships and invitations.
The rules that `restore` checks are fields of the types. -/

namespace N2FNest.Organizations

open Lib Shared

private def invalid (message type : String) : Failure := failure .invalid message type

inductive OrganizationStatus where
  | active | suspended | archived
  deriving DecidableEq, Repr

structure OrganizationState where
  id : ID
  name : JsString
  slug : JsString
  status : OrganizationStatus
  createdAt : Int
  updatedAt : Int
  version : Nat
  deriving DecidableEq

def nameOf : JsValue → Except Failure JsString
  | .string input =>
    if input.trim.length = 0 ∨ 160 < input.trim.length then
      .error (invalid "organization name is invalid" "organization.invalid_name")
    else .ok input.trim
  | _ => .error (invalid "organization name must be a string" "organization.invalid_name")

/-- `/^[a-z][a-z0-9-]{0,62}$/`. -/
def isSlug (text : JsString) : Bool :=
  match text.units with
  | [] => false
  | first :: rest => (0x61 ≤ first && first ≤ 0x7A) && rest.length ≤ 62 && rest.all fun unit =>
      (0x61 ≤ unit && unit ≤ 0x7A) || (0x30 ≤ unit && unit ≤ 0x39) || unit == 0x2D

/-- `toLowerCase` is the language's own, over all of Unicode. -/
def slugOf (toLowerCase : JsString → JsString) : JsValue → Except Failure JsString
  | .string input =>
    let slug := toLowerCase input.trim
    if 63 < slug.length ∨ isSlug slug = false then
      .error (invalid "organization slug is invalid" "organization.invalid_slug")
    else .ok slug
  | _ => .error (invalid "organization slug must be a string" "organization.invalid_slug")

/-- `Organization.create`. -/
def createOrganization (toLowerCase : JsString → JsString) (id : ID) (name slug : JsValue)
    (createdAt : JsDate) : Except Failure OrganizationState :=
  match createdAt with
  | none => .error (invalid "organization creation time must be valid"
      "organization.invalid_created_at")
  | some time => do
    let name ← nameOf name
    let slug ← slugOf toLowerCase slug
    return {
      id := id
      name := name
      slug := slug
      status := .active
      createdAt := time
      updatedAt := time
      version := UNSAVED }

inductive MembershipRole where
  | owner | admin | member
  deriving DecidableEq, Repr

def MembershipRole.name : MembershipRole → String
  | .owner => "owner"
  | .admin => "admin"
  | .member => "member"

/-- `MEMBERSHIP_ROLES.includes(role)`, with the role it recognises. -/
def MembershipRole.ofValue? : JsValue → Option MembershipRole
  | .string text => [MembershipRole.owner, .admin, .member].find? fun role => js role.name = text
  | _ => none

inductive MembershipStatus where
  | active | revoked
  deriving DecidableEq, Repr

/-- The columns of `n2f_organization_memberships`. -/
structure MembershipState where
  id : ID
  organizationId : ID
  identityId : ID
  role : MembershipRole
  status : MembershipStatus
  createdAt : Int
  updatedAt : Int
  revokedAt : Option Int
  version : Nat
  deriving DecidableEq

structure Membership extends MembershipState where
  time : createdAt ≤ updatedAt
  revocation : status = .revoked ↔ revokedAt ≠ none

namespace Membership

def invalidRole : Failure := invalid "membership role is invalid" "membership.invalid_role"

def add (id organizationId identityId : ID) (role : JsValue) (createdAt : JsDate) :
    Except Failure Membership :=
  match MembershipRole.ofValue? role, createdAt with
  | none, _ => .error invalidRole
  | some _, none => .error (invalid "membership creation time must be valid"
      "membership.invalid_created_at")
  | some role, some time => .ok {
      id := id
      organizationId := organizationId
      identityId := identityId
      role := role
      status := .active
      createdAt := time
      updatedAt := time
      revokedAt := none
      version := UNSAVED
      time := Int.le_refl time
      revocation := by simp }

def restore (state : MembershipState) : Except Failure Membership :=
  if isStoredVersion state.version = false then
    .error (invalid "membership state is invalid" "membership.invalid_state")
  else if time : state.createdAt ≤ state.updatedAt then
    if revocation : state.status = .revoked ↔ state.revokedAt ≠ none then
      .ok ⟨state, time, revocation⟩
    else .error (invalid "membership revocation state is invalid" "membership.invalid_state")
  else .error (invalid "membership update time cannot precede creation"
    "membership.non_monotonic_time")

def transitionTime (membership : Membership) (instant : JsDate) :
    Except Failure {time : Int // membership.updatedAt ≤ time} :=
  match instant with
  | none => .error (invalid "membership transition time must be valid"
      "membership.invalid_transition_time")
  | some time =>
    if forward : membership.updatedAt ≤ time then .ok ⟨time, forward⟩
    else .error (invalid "membership transition time cannot move backwards"
      "membership.non_monotonic_time")

def changeRole (membership : Membership) (role : JsValue) (instant : JsDate) :
    Except Failure Membership := do
  let ⟨time, forward⟩ ← membership.transitionTime instant
  match MembershipRole.ofValue? role with
  | none => throw invalidRole
  | some role =>
    if membership.status = .revoked then
      throw (invalid "revoked memberships cannot change role" "membership.revoked")
    else return {
      membership with
      role := role
      updatedAt := time
      time := Int.le_trans membership.time forward }

def revoke (membership : Membership) (instant : JsDate) : Except Failure Membership := do
  let ⟨time, forward⟩ ← membership.transitionTime instant
  if membership.status = .revoked then
    throw (invalid "membership is already revoked" "membership.already_revoked")
  else return {
    membership with
    status := .revoked
    updatedAt := time
    revokedAt := some time
    time := Int.le_trans membership.time forward
    revocation := by simp }

theorem add_inv {id organizationId identityId : ID} {role : JsValue} {createdAt : JsDate}
    {membership : Membership}
    (done : add id organizationId identityId role createdAt = .ok membership) :
    membership.id = id ∧ membership.organizationId = organizationId ∧
      membership.identityId = identityId ∧ MembershipRole.ofValue? role = some membership.role ∧
      membership.status = .active ∧ membership.version = UNSAVED := by
  unfold add at done
  split at done
  · cases done
  · cases done
  · rename_i accepted
    cases done
    exact ⟨rfl, rfl, rfl, accepted, rfl, rfl⟩

theorem restore_ok {state : MembershipState} {membership : Membership}
    (done : restore state = .ok membership) :
    membership.toMembershipState = state ∧ isStoredVersion state.version = true := by
  simp only [restore, refuse_ok, check_ok, Except.ok.injEq] at done
  obtain ⟨stored, _, _, rfl⟩ := done
  exact ⟨rfl, by simpa using stored⟩

/-- What every transition keeps. -/
structure Keeps (before after : Membership) : Prop where
  id : after.id = before.id
  organizationId : after.organizationId = before.organizationId
  identityId : after.identityId = before.identityId
  version : after.version = before.version

theorem changeRole_keeps {membership changed : Membership} {role : JsValue} {instant : JsDate}
    (done : membership.changeRole role instant = .ok changed) : membership.Keeps changed := by
  obtain ⟨⟨time, forward⟩, _, done⟩ := bind_ok done
  dsimp only at done
  split at done
  · cases done
  · split at done
    · cases done
    · cases pure_eq_ok.mp done
      exact ⟨rfl, rfl, rfl, rfl⟩

theorem revoke_keeps {membership revoked : Membership} {instant : JsDate}
    (done : membership.revoke instant = .ok revoked) : membership.Keeps revoked := by
  obtain ⟨⟨time, forward⟩, _, done⟩ := bind_ok done
  dsimp only at done
  split at done
  · cases done
  · cases pure_eq_ok.mp done
    exact ⟨rfl, rfl, rfl, rfl⟩

end Membership

inductive InvitationRole where
  | admin | member
  deriving DecidableEq, Repr

def InvitationRole.toMembership : InvitationRole → MembershipRole
  | .admin => .admin
  | .member => .member

def InvitationRole.name (role : InvitationRole) : String := role.toMembership.name

/-- `INVITATION_ROLES.includes(role)`, with the role it recognises. -/
def InvitationRole.ofValue? : JsValue → Option InvitationRole
  | .string text => [InvitationRole.admin, .member].find? fun role => js role.name = text
  | _ => none

theorem InvitationRole.ofValue?_name (role : InvitationRole) :
    MembershipRole.ofValue? (.string (js role.name)) = some role.toMembership := by
  cases role <;> decide

inductive InvitationStatus where
  | pending | accepted | revoked
  deriving DecidableEq, Repr

/-- The columns of `n2f_organization_invitations`. -/
structure InvitationState where
  id : ID
  organizationId : ID
  identityId : ID
  role : InvitationRole
  status : InvitationStatus
  createdAt : Int
  updatedAt : Int
  expiresAt : Int
  acceptedAt : Option Int
  revokedAt : Option Int
  version : Nat
  deriving DecidableEq

/-- The times each status requires. -/
def InvitationState.Settlement (state : InvitationState) : Prop :=
  (state.acceptedAt ≠ none ↔ state.status = .accepted) ∧
    (state.revokedAt ≠ none ↔ state.status = .revoked)

instance (state : InvitationState) : Decidable state.Settlement :=
  inferInstanceAs (Decidable (_ ∧ _))

structure Invitation extends InvitationState where
  time : createdAt ≤ updatedAt
  expiry : createdAt < expiresAt
  settlement : toInvitationState.Settlement

namespace Invitation

def issue (id organizationId identityId : ID) (role : JsValue) (createdAt expiresAt : JsDate) :
    Except Failure Invitation :=
  match InvitationRole.ofValue? role, createdAt, expiresAt with
  | none, _, _ => .error (invalid "invitation role is invalid" "invitation.invalid_role")
  | some role, some created, some expires =>
    if expiry : created < expires then .ok {
      id := id
      organizationId := organizationId
      identityId := identityId
      role := role
      status := .pending
      createdAt := created
      updatedAt := created
      expiresAt := expires
      acceptedAt := none
      revokedAt := none
      version := UNSAVED
      time := Int.le_refl created
      expiry := expiry
      settlement := ⟨by simp, by simp⟩ }
    else .error (invalid "invitation expiry must be after creation" "invitation.invalid_expiry")
  | some _, _, _ => .error (invalid "invitation time is invalid" "invitation.invalid_time")

def restore (state : InvitationState) : Except Failure Invitation :=
  if isStoredVersion state.version = false then
    .error (invalid "invitation state is invalid" "invitation.invalid_state")
  else if times : state.createdAt ≤ state.updatedAt ∧ state.createdAt < state.expiresAt then
    if settlement : state.Settlement then .ok ⟨state, times.1, times.2, settlement⟩
    else .error (invalid "invitation state is invalid" "invitation.invalid_state")
  else .error (invalid "invitation time is invalid" "invitation.invalid_time")

def transitionTime (invitation : Invitation) (instant : JsDate) :
    Except Failure {time : Int // invitation.updatedAt ≤ time} :=
  match instant with
  | none => .error (invalid "invitation transition time is invalid" "invitation.invalid_time")
  | some time =>
    if forward : invitation.updatedAt ≤ time then .ok ⟨time, forward⟩
    else .error (invalid "invitation transition time cannot move backwards"
      "invitation.non_monotonic_time")

def isExpired (invitation : Invitation) (time : Int) : Bool :=
  invitation.status = .pending && invitation.expiresAt ≤ time

def accept (invitation : Invitation) (instant : JsDate) : Except Failure Invitation := do
  let ⟨time, forward⟩ ← invitation.transitionTime instant
  if pending : invitation.status = .pending then
    if invitation.isExpired time = true then
      throw (invalid "invitation has expired" "invitation.expired")
    else return {
      invitation with
      status := .accepted
      updatedAt := time
      acceptedAt := some time
      time := Int.le_trans invitation.time forward
      settlement := ⟨by simp, by simpa [pending] using invitation.settlement.2⟩ }
  else throw (invalid "only pending invitations can be accepted" "invitation.not_pending")

def revoke (invitation : Invitation) (instant : JsDate) : Except Failure Invitation := do
  let ⟨time, forward⟩ ← invitation.transitionTime instant
  if pending : invitation.status = .pending then return {
      invitation with
      status := .revoked
      updatedAt := time
      revokedAt := some time
      time := Int.le_trans invitation.time forward
      settlement := ⟨by simpa [pending] using invitation.settlement.1, by simp⟩ }
  else throw (invalid "only pending invitations can be revoked" "invitation.not_pending")

theorem issue_inv {id organizationId identityId : ID} {role : JsValue} {createdAt expiresAt : JsDate}
    {invitation : Invitation}
    (done : issue id organizationId identityId role createdAt expiresAt = .ok invitation) :
    invitation.status = .pending ∧ invitation.version = UNSAVED := by
  unfold issue at done
  split at done
  · cases done
  · simp only [check_ok, Except.ok.injEq] at done
    obtain ⟨_, rfl⟩ := done
    exact ⟨rfl, rfl⟩
  · cases done

theorem restore_ok {state : InvitationState} {invitation : Invitation}
    (done : restore state = .ok invitation) :
    invitation.toInvitationState = state ∧ isStoredVersion state.version = true := by
  simp only [restore, refuse_ok, check_ok, Except.ok.injEq] at done
  obtain ⟨stored, _, _, rfl⟩ := done
  exact ⟨rfl, by simpa using stored⟩

/-- Acceptance happens while pending and before the expiry. -/
theorem accept_inv {invitation accepted : Invitation} {instant : JsDate}
    (done : invitation.accept instant = .ok accepted) :
    ∃ time, invitation.status = .pending ∧ invitation.createdAt ≤ time ∧ time < invitation.expiresAt ∧
      accepted.toInvitationState = { invitation.toInvitationState with
        status := .accepted, updatedAt := time, acceptedAt := some time } := by
  obtain ⟨⟨time, forward⟩, _, done⟩ := bind_ok done
  dsimp only at done
  split at done
  · rename_i pending
    split at done
    · cases done
    · rename_i fresh
      cases pure_eq_ok.mp done
      simp only [isExpired, pending, decide_true, Bool.true_and, decide_eq_true_eq] at fresh
      exact ⟨time, pending, Int.le_trans invitation.time forward, Int.not_le.mp fresh, rfl⟩
  · cases done

theorem revoke_inv {invitation revoked : Invitation} {instant : JsDate}
    (done : invitation.revoke instant = .ok revoked) :
    ∃ time, invitation.status = .pending ∧
      revoked.toInvitationState = { invitation.toInvitationState with
        status := .revoked, updatedAt := time, revokedAt := some time } := by
  obtain ⟨⟨time, forward⟩, _, done⟩ := bind_ok done
  dsimp only at done
  split at done
  · rename_i pending
    cases pure_eq_ok.mp done
    exact ⟨time, pending, rfl⟩
  · cases done

end Invitation

end N2FNest.Organizations
