import N2FNest.Organizations.Commands

/-! Invitations are settled once. Acceptance guards the row by its status and its
version, revocation by its version alone; both versions are of a row that was
pending when it was read. -/

namespace N2FNest.Organizations

open Events Lib Shared

variable {Work : Type}

/-- The acceptance time lies within the invitation's lifetime. -/
def InvitationState.Timely (row : InvitationState) : Prop :=
  ∃ time, row.acceptedAt = some time ∧ row.createdAt ≤ time ∧ time < row.expiresAt

/-- What an invitation keeps for good. -/
structure InvitationState.SameTerms (before after : InvitationState) : Prop where
  organizationId : after.organizationId = before.organizationId
  identityId : after.identityId = before.identityId
  role : after.role = before.role
  createdAt : after.createdAt = before.createdAt
  expiresAt : after.expiresAt = before.expiresAt

theorem InvitationState.SameTerms.trans {first second third : InvitationState}
    (earlier : first.SameTerms second) (later : second.SameTerms third) : first.SameTerms third where
  organizationId := later.organizationId.trans earlier.organizationId
  identityId := later.identityId.trans earlier.identityId
  role := later.role.trans earlier.role
  createdAt := later.createdAt.trans earlier.createdAt
  expiresAt := later.expiresAt.trans earlier.expiresAt

/-- Only a pending invitation moves, once, to a settled one of the same terms. -/
def InvitationState.Precedes (before after : InvitationState) : Prop :=
  before.SameTerms after ∧ (after = before ∨
    before.status = .pending ∧ before.version < after.version ∧ after.status ≠ .pending)

theorem InvitationState.Precedes.refl (row : InvitationState) : row.Precedes row :=
  ⟨⟨rfl, rfl, rfl, rfl, rfl⟩, .inl rfl⟩

def InvitationsMove (before after : InvitationTable) : Prop :=
  ∀ id row, before.get id = some row → ∃ moved, after.get id = some moved ∧ row.Precedes moved

theorem InvitationsMove.refl (invitations : InvitationTable) :
    InvitationsMove invitations invitations :=
  fun _ row found => ⟨row, found, .refl row⟩

theorem Invited.moves {before after : InvitationTable} {row : InvitationState}
    (invited : Invited before after row) : InvitationsMove before after := by
  intro id old found
  have other : row.id ≠ id := by
    intro same
    have fresh := invited.fresh
    rw [same, found] at fresh
    cases fresh
  rw [invited.written]
  exact ⟨old, (Table.get_set_other before other).trans found, .refl old⟩

theorem Rewritten.moves {before after : InvitationTable} {stored row : InvitationState}
    (rewritten : Rewritten before after stored row) (precedes : stored.Precedes row) :
    InvitationsMove before after := by
  intro id old found
  rw [rewritten.written]
  by_cases same : row.id = id
  · have stays : old = stored := by
      rw [← same, rewritten.same, rewritten.found] at found
      exact (Option.some.inj found).symm
    rw [stays, Table.get_set, if_pos same]
    exact ⟨row, rfl, precedes⟩
  · exact ⟨old, (Table.get_set_other before same).trans found, .refl old⟩

/-- A copy that a call holds: the stored row has its terms, and at the copy's
version it still has this status. -/
def HeldInvitation (invitations : InvitationTable) (invitation : Invitation)
    (status : InvitationStatus) : Prop :=
  ∃ row, invitations.get invitation.id = some row ∧ row.SameTerms invitation.toInvitationState ∧
    invitation.version ≤ row.version ∧ (invitation.version = row.version → row.status = status)

theorem HeldInvitation.later {before after : InvitationTable} {invitation : Invitation}
    {status : InvitationStatus} (held : HeldInvitation before invitation status)
    (moves : InvitationsMove before after) : HeldInvitation after invitation status := by
  obtain ⟨row, found, terms, version, current⟩ := held
  obtain ⟨moved, present, same, forward⟩ := moves _ row found
  have back : moved.SameTerms row := ⟨same.1.symm, same.2.symm, same.3.symm, same.4.symm, same.5.symm⟩
  refine ⟨moved, present, back.trans terms, ?_, ?_⟩
  · rcases forward with rfl | ⟨_, greater, _⟩
    · exact version
    · omega
  · rcases forward with rfl | ⟨_, greater, _⟩
    · exact current
    · omega

/-- An acceptance on its way to its commit. -/
structure Acceptable (invitations : InvitationTable) (input : InvitationAcceptanceCommit Work) :
    Prop where
  held : HeldInvitation invitations input.invitation .pending
  timely : input.invitation.createdAt ≤ input.invitation.updatedAt ∧
    input.invitation.updatedAt < input.invitation.expiresAt
  organizationId : input.membership.organizationId = input.invitation.organizationId
  identityId : input.membership.identityId = input.invitation.identityId
  role : input.membership.role = input.invitation.role.toMembership

/-- A revocation on its way to its commit. -/
structure Withdrawable (invitations : InvitationTable) (input : InvitationCommit Work) : Prop where
  held : HeldInvitation invitations input.invitation .pending
  revoked : input.invitation.status = .revoked
  saved : input.invitation.version ≠ UNSAVED

def Call.Holds (invitations : InvitationTable) : Call Work → Prop
  | .invited _ _ invitation _ => HeldInvitation invitations invitation invitation.status
  | .inviting input => input.invitation.status = .pending ∧ input.invitation.version = UNSAVED
  | .accepting input => Acceptable invitations input
  | .withdrawing input => Withdrawable invitations input
  | _ => True

theorem Call.Holds.later {before after : InvitationTable} {call : Call Work}
    (holds : call.Holds before) (moves : InvitationsMove before after) : call.Holds after := by
  cases call with
  | invited actor organizationId invitation work => exact HeldInvitation.later holds moves
  | accepting input =>
    exact ⟨holds.held.later moves, holds.timely, holds.organizationId, holds.identityId, holds.role⟩
  | withdrawing input => exact ⟨holds.held.later moves, holds.revoked, holds.saved⟩
  | _ => exact holds

theorem invitationOf_held {database : OrganizationDatabase Work} {choices : Choices}
    {organizationId invitationId : ID} {invitation : Invitation}
    (done : invitationOf database choices organizationId invitationId = .ok invitation) :
    HeldInvitation database.invitations invitation invitation.status ∧
      invitation.version ≠ UNSAVED := by
  obtain ⟨found, read, done⟩ := bind_ok done
  cases found with
  | none => cases done
  | some loaded =>
    dsimp only at done
    split at done
    · cases done
    · cases pure_eq_ok.mp done
      obtain ⟨present, saved⟩ := OrganizationDatabase.findInvitation_inv (orFault_ok (mapError_ok read))
      exact ⟨⟨_, present, ⟨rfl, rfl, rfl, rfl, rfl⟩, Nat.le_refl _, fun _ => rfl⟩, saved⟩

/-- A settled copy of a pending invitation still stands for the pending row. -/
private theorem HeldInvitation.settled {invitations : InvitationTable} {invitation settled : Invitation}
    (held : HeldInvitation invitations invitation .pending) (id : settled.id = invitation.id)
    (terms : invitation.SameTerms settled.toInvitationState)
    (version : settled.version = invitation.version) :
    HeldInvitation invitations settled .pending := by
  obtain ⟨row, found, same, lower, current⟩ := held
  refine ⟨row, ?_, same.trans terms, ?_, ?_⟩
  · rw [id]
    exact found
  · rw [version]
    exact lower
  · rw [version]
    exact current

theorem AcceptInvitation.prepare_acceptable {database : OrganizationDatabase Work} {choices : Choices}
    {organizationId actor : ID} {invitation : Invitation} {work : Work}
    {input : InvitationAcceptanceCommit Work}
    (held : HeldInvitation database.invitations invitation invitation.status)
    (done : prepare database choices organizationId actor invitation work = .ok input) :
    Acceptable database.invitations input := by
  obtain ⟨_, _, done⟩ := bind_ok done
  obtain ⟨accepted, accept, done⟩ := bind_ok done
  obtain ⟨_, _, done⟩ := bind_ok done
  obtain ⟨membership, added, done⟩ := bind_ok done
  obtain ⟨_, _, done⟩ := bind_ok done
  obtain ⟨_, _, done⟩ := bind_ok done
  cases pure_eq_ok.mp done
  obtain ⟨time, pending, created, expires, same⟩ := Invitation.accept_inv accept
  obtain ⟨_, organization, identity, role, _⟩ := Membership.add_inv added
  rw [InvitationRole.ofValue?_name] at role
  rw [pending] at held
  refine ⟨held.settled ?_ ?_ ?_, ?_, organization, identity, (Option.some.inj role).symm⟩
  · rw [same]
  · rw [same]
    exact ⟨rfl, rfl, rfl, rfl, rfl⟩
  · rw [same]
  · rw [same]
    exact ⟨created, expires⟩

theorem RevokeInvitation.prepare_withdrawable {database : OrganizationDatabase Work}
    {choices : Choices} {organizationId invitationId : ID} {work : Work}
    {input : InvitationCommit Work}
    (done : prepare database choices organizationId invitationId work = .ok input) :
    Withdrawable database.invitations input := by
  obtain ⟨invitation, read, done⟩ := bind_ok done
  obtain ⟨revoked, revoke, done⟩ := bind_ok done
  obtain ⟨_, _, done⟩ := bind_ok done
  cases pure_eq_ok.mp done
  obtain ⟨held, saved⟩ := invitationOf_held read
  obtain ⟨time, pending, same⟩ := Invitation.revoke_inv revoke
  rw [pending] at held
  refine ⟨held.settled ?_ ?_ ?_, ?_, ?_⟩
  · rw [same]
  · rw [same]
    exact ⟨rfl, rfl, rfl, rfl, rfl⟩
  · rw [same]
  · rw [same]
  · rw [same]
    exact saved

theorem InviteIdentity.prepare_pending {host : Host Work} {database : OrganizationDatabase Work}
    {choices : Choices} {organizationId identityId : ID} {role : JsValue} {work : Work}
    {input : InvitationCommit Work}
    (done : prepare host database choices organizationId identityId role work = .ok input) :
    input.invitation.status = .pending ∧ input.invitation.version = UNSAVED := by
  obtain ⟨existing, _, done⟩ := bind_ok done
  cases existing with
  | some _ => cases done
  | none =>
    obtain ⟨_, _, done⟩ := bind_ok done
    obtain ⟨invitation, issued, done⟩ := bind_ok done
    obtain ⟨_, _, done⟩ := bind_ok done
    cases pure_eq_ok.mp done
    exact Invitation.issue_inv issued

theorem Call.next_holds {host : Host Work} {database : OrganizationDatabase Work} {choices : Choices}
    {call after : Call Work} (holds : call.Holds database.invitations)
    (done : call.next host database choices = .ok after) : after.Holds database.invitations := by
  have owner : ∀ {actor : ID} {command : Command Work} {organizationId : ID} {message type : String},
      owned database choices actor command organizationId message type = .ok after →
      after.Holds database.invitations := by
    intro actor command organizationId message type done
    obtain ⟨_, _, done⟩ := bind_ok done
    cases pure_eq_ok.mp done
    trivial
  cases call with
  | requested command =>
    obtain ⟨actor, _, done⟩ := bind_ok done
    cases command with
    | createOrganization name slug work =>
      obtain ⟨input, _, done⟩ := bind_ok done
      cases pure_eq_ok.mp done
      trivial
    | acceptInvitation organizationId invitationId work =>
      obtain ⟨invitation, read, done⟩ := bind_ok done
      split at done
      · cases done
      · cases pure_eq_ok.mp done
        exact (invitationOf_held read).1
    | addMembership organizationId identityId role work => exact owner done
    | changeMembershipRole organizationId membershipId role work => exact owner done
    | revokeMembership organizationId membershipId work => exact owner done
    | inviteIdentity organizationId identityId role work => exact owner done
    | revokeInvitation organizationId invitationId work => exact owner done
  | authorized actor command =>
    cases command with
    | addMembership organizationId identityId role work =>
      obtain ⟨input, _, done⟩ := bind_ok done
      cases pure_eq_ok.mp done
      trivial
    | changeMembershipRole organizationId membershipId role work =>
      obtain ⟨input, _, done⟩ := bind_ok done
      cases pure_eq_ok.mp done
      trivial
    | revokeMembership organizationId membershipId work =>
      obtain ⟨input, _, done⟩ := bind_ok done
      cases pure_eq_ok.mp done
      trivial
    | inviteIdentity organizationId identityId role work =>
      obtain ⟨_, _, done⟩ := bind_ok done
      cases pure_eq_ok.mp done
      trivial
    | revokeInvitation organizationId invitationId work =>
      obtain ⟨input, prepared, done⟩ := bind_ok done
      cases pure_eq_ok.mp done
      exact RevokeInvitation.prepare_withdrawable prepared
    | _ =>
      cases done
      trivial
  | unassociated command =>
    cases command with
    | inviteIdentity organizationId identityId role work =>
      obtain ⟨input, prepared, done⟩ := bind_ok done
      cases pure_eq_ok.mp done
      exact InviteIdentity.prepare_pending prepared
    | _ =>
      cases done
      trivial
  | invited actor organizationId invitation work =>
    obtain ⟨input, prepared, done⟩ := bind_ok done
    cases pure_eq_ok.mp done
    exact AcceptInvitation.prepare_acceptable holds prepared
  | _ =>
    cases done
    exact holds

/-- One membership row per organization and identity. -/
def UniqueMembers (memberships : MembershipTable) : Prop :=
  ∀ first ∈ memberships.rows, ∀ second ∈ memberships.rows,
    first.organizationId = second.organizationId → first.identityId = second.identityId →
    first = second

/-- One pending invitation per organization and identity. -/
def UniquePending (invitations : InvitationTable) : Prop :=
  ∀ first ∈ invitations.rows, ∀ second ∈ invitations.rows, first.status = .pending →
    second.status = .pending → first.organizationId = second.organizationId →
    first.identityId = second.identityId → first = second

/-- Exactly one membership is new, and it is the one the invitation promised. -/
def Admits (before after : MembershipTable) (invitation : InvitationState) : Prop :=
  ∃ member, after.rows = before.rows ++ [member] ∧
    member.organizationId = invitation.organizationId ∧ member.identityId = invitation.identityId ∧
    member.role = invitation.role.toMembership ∧ member.status = .active

theorem Joined.unique {before after : MembershipTable} {row : MembershipState}
    (joined : Joined before after row) (unique : UniqueMembers before) : UniqueMembers after := by
  intro first member second present organization identity
  rw [joined.written] at member present
  rcases Table.mem_set.mp member with rfl | ⟨stays, _⟩
  · rcases Table.mem_set.mp present with rfl | ⟨present, _⟩
    · rfl
    · exact absurd identity.symm (joined.alone second present organization.symm)
  · rcases Table.mem_set.mp present with rfl | ⟨present, _⟩
    · exact absurd identity (joined.alone first stays organization)
    · exact unique first stays second present organization identity

theorem Altered.unique {before after : MembershipTable} {membership : Membership}
    {stored : MembershipState} (altered : Altered before after membership stored)
    (unique : UniqueMembers before) : UniqueMembers after := by
  have old := Table.mem_of_get altered.found
  -- another row for the same identity would be the row that was updated
  have alone : ∀ other ∈ before.rows, other.organizationId = stored.organizationId →
      other.identityId = stored.identityId → other.id = stored.id := by
    intro other member organization identity
    rw [unique other member stored old organization identity]
  intro first member second present organization identity
  rw [altered.written] at member present
  rcases Table.mem_set.mp member with rfl | ⟨member, elsewhere⟩
  · rcases Table.mem_set.mp present with rfl | ⟨present, elsewhere⟩
    · rfl
    · exact absurd (alone second present organization.symm identity.symm) elsewhere
  · rcases Table.mem_set.mp present with rfl | ⟨present, _⟩
    · exact absurd (alone first member organization identity) elsewhere
    · exact unique first member second present organization identity

theorem Invited.unique {before after : InvitationTable} {row : InvitationState}
    (invited : Invited before after row) (unique : UniquePending before) : UniquePending after := by
  have alone : ∀ other ∈ before.rows, other.id ≠ row.id → row.status = .pending →
      other.status = .pending → other.organizationId = row.organizationId →
      other.identityId ≠ row.identityId := by
    intro other member elsewhere mine theirs organization identity
    have free := invited.alone
    simp only [pendingTaken, mine, decide_true, Bool.true_and] at free
    refine absurd (List.any_eq_true.mpr ⟨other, member, ?_⟩) (ne_true_of_eq_false free)
    simp [elsewhere, theirs, organization, identity]
  intro first member second present left right organization identity
  rw [invited.written] at member present
  rcases Table.mem_set.mp member with rfl | ⟨stays, elsewhere⟩
  · rcases Table.mem_set.mp present with rfl | ⟨present, elsewhere⟩
    · rfl
    · exact absurd identity.symm (alone second present elsewhere left right organization.symm)
  · rcases Table.mem_set.mp present with rfl | ⟨present, _⟩
    · exact absurd identity (alone first stays elsewhere right left organization)
    · exact unique first stays second present left right organization identity

theorem Rewritten.unique {before after : InvitationTable} {stored row : InvitationState}
    (rewritten : Rewritten before after stored row) (settled : row.status ≠ .pending)
    (unique : UniquePending before) : UniquePending after := by
  intro first member second present left right organization identity
  rw [rewritten.written] at member present
  rcases Table.mem_set.mp member with rfl | ⟨member, _⟩
  · exact absurd left settled
  · rcases Table.mem_set.mp present with rfl | ⟨present, _⟩
    · exact absurd right settled
    · exact unique first member second present left right organization identity

/-- What an accepted commit does for invitations and memberships. -/
structure Settles (before after : OrganizationDatabase Work) : Prop where
  moves : InvitationsMove before.invitations after.invitations
  members : UniqueMembers before.memberships → UniqueMembers after.memberships
  pending : UniquePending before.invitations → UniquePending after.invitations
  accepted : ∀ id row, after.invitations.get id = some row → row.status = .accepted →
    before.invitations.get id = some row ∨
      (∃ old, before.invitations.get id = some old ∧ old.status = .pending) ∧ row.Timely ∧
        Admits before.memberships after.memberships row

/-- A commit that leaves the invitations alone. -/
private theorem Settles.memberships {before after : OrganizationDatabase Work}
    (same : after.invitations = before.invitations)
    (members : UniqueMembers before.memberships → UniqueMembers after.memberships) :
    Settles before after where
  moves := by
    rw [same]
    exact .refl _
  members := members
  pending := by
    rw [same]
    exact id
  accepted := by
    rw [same]
    exact fun _ _ found _ => .inl found

/-- A write of one invitation row that is not accepted. -/
private theorem Settles.invitation {before after : OrganizationDatabase Work} {row : InvitationState}
    (same : after.memberships = before.memberships)
    (written : after.invitations = before.invitations.set row) (other : row.status ≠ .accepted)
    (moves : InvitationsMove before.invitations after.invitations)
    (pending : UniquePending before.invitations → UniquePending after.invitations) :
    Settles before after where
  moves := moves
  members := by
    rw [same]
    exact id
  pending := pending
  accepted := by
    intro id found present accepted
    rw [written] at present
    rcases Table.get_set_cases present with rfl | before
    · exact absurd accepted other
    · exact .inl before

private theorem HeldInvitation.current {invitations : InvitationTable} {invitation : Invitation}
    {stored : InvitationState} (held : HeldInvitation invitations invitation .pending)
    (named : stored.id = invitation.id) (found : invitations.get stored.id = some stored)
    (version : stored.version = invitation.version) :
    stored.status = .pending ∧ stored.SameTerms invitation.toInvitationState := by
  obtain ⟨row, present, terms, _, current⟩ := held
  have same : row = stored := by
    rw [← named, found] at present
    exact (Option.some.inj present).symm
  subst same
  exact ⟨current version.symm, terms⟩

variable [DecidableEq Work]

private theorem commitMembership_settles {database after : OrganizationDatabase Work}
    {input : MembershipCommit Work} (done : database.commitMembership input = .ok after) :
    Settles database after := by
  obtain ⟨_, same, ⟨_, joined⟩ | ⟨_, stored, altered⟩⟩ :=
    OrganizationDatabase.commitMembership_inv done
  · exact .memberships same joined.unique
  · exact .memberships same altered.unique

private theorem Acceptable.settles {database after : OrganizationDatabase Work}
    {input : InvitationAcceptanceCommit Work} (acceptable : Acceptable database.invitations input)
    (done : database.commitAcceptance input = .ok after) : Settles database after := by
  obtain ⟨_, joined, stored, named, pending, version, rewritten⟩ :=
    OrganizationDatabase.commitAcceptance_inv done
  obtain ⟨_, terms⟩ := acceptable.held.current named rewritten.found version
  have precedes : stored.Precedes (input.invitation.acceptedOnto stored) :=
    ⟨⟨rfl, rfl, rfl, rfl, rfl⟩, .inr ⟨pending, Nat.lt_succ_self _, by simp [Invitation.acceptedOnto]⟩⟩
  refine ⟨rewritten.moves precedes, joined.unique,
    rewritten.unique (by simp [Invitation.acceptedOnto]), ?_⟩
  intro id row found accepted
  by_cases here : stored.id = id
  · have written : after.invitations.get stored.id = some (input.invitation.acceptedOnto stored) := by
      rw [rewritten.written, Table.get_set]
      exact if_pos rewritten.same
    rw [here, found] at written
    cases written
    refine .inr ⟨⟨stored, here ▸ rewritten.found, pending⟩, ?_, ?_⟩
    · refine ⟨input.invitation.updatedAt, rfl, ?_, ?_⟩
      · exact Int.le_trans (Int.le_of_eq terms.createdAt.symm) acceptable.timely.1
      · exact Int.lt_of_lt_of_le acceptable.timely.2 (Int.le_of_eq terms.expiresAt)
    · refine ⟨(OrganizationDatabase.acceptedMembership input.membership).inserted, ?_, ?_, ?_, ?_, rfl⟩
      · rw [joined.written]
        exact Table.rows_set_new joined.fresh
      · exact acceptable.organizationId.trans terms.organizationId
      · exact acceptable.identityId.trans terms.identityId
      · exact acceptable.role.trans (congrArg InvitationRole.toMembership terms.role)
  · refine .inl ?_
    rw [rewritten.written, Table.get_set] at found
    exact (if_neg (fun same => here (rewritten.same.symm.trans same))).symm.trans found

private theorem Withdrawable.settles {database after : OrganizationDatabase Work}
    {input : InvitationCommit Work} (withdrawable : Withdrawable database.invitations input)
    (done : database.commitInvitation input = .ok after) : Settles database after := by
  obtain ⟨_, same, ⟨unsaved, _⟩ | ⟨_, stored, named, version, rewritten⟩⟩ :=
    OrganizationDatabase.commitInvitation_inv done
  · exact absurd unsaved withdrawable.saved
  · obtain ⟨pending, terms⟩ := withdrawable.held.current named rewritten.found version
    have settled : (input.invitation.onto stored).status = .revoked := withdrawable.revoked
    have precedes : stored.Precedes (input.invitation.onto stored) :=
      ⟨⟨rfl, rfl, terms.role, rfl, terms.expiresAt⟩,
        .inr ⟨pending, Nat.lt_succ_self _, by simp [settled]⟩⟩
    exact .invitation same rewritten.written (by simp [settled]) (rewritten.moves precedes)
      (rewritten.unique (by simp [settled]))

theorem Call.commit_settles {database after : OrganizationDatabase Work} {call : Call Work}
    {outcome : Outcome} (holds : call.Holds database.invitations)
    (done : call.commit database = some (.ok after, outcome)) : Settles database after := by
  cases call with
  | creating input =>
    simp only [commit, Option.some.injEq, Prod.mk.injEq] at done
    obtain ⟨same, _, joined⟩ := OrganizationDatabase.commitOrganization_inv done.1
    exact .memberships same joined.unique
  | adding input =>
    simp only [commit, Option.some.injEq, Prod.mk.injEq] at done
    exact commitMembership_settles done.1
  | changing actor input =>
    simp only [commit, Option.some.injEq, Prod.mk.injEq] at done
    exact commitMembership_settles done.1
  | revoking actor input =>
    simp only [commit, Option.some.injEq, Prod.mk.injEq] at done
    exact commitMembership_settles done.1
  | inviting input =>
    simp only [commit, Option.some.injEq, Prod.mk.injEq] at done
    obtain ⟨_, same, ⟨_, invited⟩ | ⟨saved, _⟩⟩ := OrganizationDatabase.commitInvitation_inv done.1
    · have pending : input.invitation.inserted.status = .pending := holds.1
      exact .invitation same invited.written (by simp [pending]) invited.moves invited.unique
    · exact absurd holds.2 saved
  | accepting input =>
    simp only [commit, Option.some.injEq, Prod.mk.injEq] at done
    exact Acceptable.settles holds done.1
  | withdrawing input =>
    simp only [commit, Option.some.injEq, Prod.mk.injEq] at done
    exact Withdrawable.settles holds done.1
  | _ => simp [commit] at done

structure OrganizationSystem.Settled (state : OrganizationSystem Work) : Prop where
  members : UniqueMembers state.database.memberships
  pending : UniquePending state.database.invitations
  calls : ∀ caller, (state.calls caller).Holds state.database.invitations

namespace OrganizationSystem.Settled

variable {state : OrganizationSystem Work}

omit [DecidableEq Work] in
private theorem calls_update {calls : Nat → Call Work} {invitations : InvitationTable} {caller : Nat}
    {call : Call Work} (holds : ∀ other, (calls other).Holds invitations)
    (also : call.Holds invitations) (other : Nat) :
    (Function.update calls caller call other).Holds invitations :=
  (Function.forall_update_iff calls fun _ call => call.Holds invitations).mpr
    ⟨also, fun other _ => holds other⟩ other

omit [DecidableEq Work] in
private theorem idle (database : OrganizationDatabase Work) : Settles database database :=
  .memberships rfl id

theorem settles (settled : state.Settled) (host : Host Work) (label : Label Work) :
    Settles state.database (OrganizationSystem.step host state label).database := by
  cases label with
  | request caller command =>
    simp only [OrganizationSystem.step]
    split <;> exact idle _
  | advance caller choices =>
    rcases OrganizationSystem.advance_cases host state caller choices with
      ⟨_, moved⟩ | ⟨_, moved⟩ | ⟨database, outcome, commits, moved⟩
    · rw [moved]
      exact idle _
    · rw [moved]
      exact idle _
    · rw [moved]
      exact Call.commit_settles (settled.calls caller) commits

theorem step (settled : state.Settled) (host : Host Work) (label : Label Work) :
    (OrganizationSystem.step host state label).Settled := by
  have settles := settled.settles host label
  refine ⟨settles.members settled.members, settles.pending settled.pending, ?_⟩
  have later := fun caller => (settled.calls caller).later settles.moves
  cases label with
  | request caller command =>
    simp only [OrganizationSystem.step]
    split
    · exact calls_update settled.calls trivial
    · exact settled.calls
  | advance caller choices =>
    rcases OrganizationSystem.advance_cases host state caller choices with
      ⟨_, moved⟩ | ⟨_, moved⟩ | ⟨database, outcome, commits, moved⟩
    · rw [moved]
      refine calls_update settled.calls ?_
      cases done : (state.calls caller).next host state.database choices with
      | error error => trivial
      | ok after => exact Call.next_holds (settled.calls caller) done
    · rw [moved]
      exact calls_update settled.calls trivial
    · rw [moved] at later ⊢
      exact calls_update later trivial

omit [DecidableEq Work] in
theorem empty : (OrganizationSystem.empty : OrganizationSystem Work).Settled where
  members := fun _ member => absurd member List.not_mem_nil
  pending := fun _ member => absurd member List.not_mem_nil
  calls := fun _ => trivial

theorem run (host : Host Work) (settled : state.Settled) (labels : List (Label Work)) :
    (Lib.run (OrganizationSystem.step host) state labels).Settled :=
  run_invariant OrganizationSystem.Settled (fun _ label holds => holds.step host label) settled labels

end OrganizationSystem.Settled

/-- What holds of invitations after a run from the empty database. -/
structure InvitationsSettled (host : Host Work) (labels : List (Label Work))
    (state : OrganizationSystem Work) : Prop where
  members : UniqueMembers state.database.memberships
  pending : UniquePending state.database.invitations
  /-- An accepted or revoked invitation never changes again. -/
  terminal : ∀ row ∈ state.database.invitations.rows, row.status ≠ .pending → ∀ later,
    (run (OrganizationSystem.step host) state later).database.invitations.get row.id = some row
  /-- An accepted invitation was accepted within its lifetime, by a step that added
  exactly its membership. -/
  accepted : ∀ row ∈ state.database.invitations.rows, row.status = .accepted → row.Timely ∧
    ∃ earlier label later, labels = earlier ++ label :: later ∧
      let before := run (OrganizationSystem.step host) OrganizationSystem.empty earlier
      (∃ old, before.database.invitations.get row.id = some old ∧ old.status = .pending) ∧
      (before.step host label).database.invitations.get row.id = some row ∧
      Admits before.database.memberships (before.step host label).database.memberships row
  /-- A refused commit changes nothing. -/
  refused : ∀ caller choices error,
    (state.step host (.advance caller choices)).calls caller = .returned (.error error) →
    (state.step host (.advance caller choices)).database = state.database

/-- Invitations are settled once, in every state that any interleaving of the
commands reaches. -/
theorem invitations_settled_once (host : Host Work) (labels : List (Label Work)) :
    InvitationsSettled host labels
      (run (OrganizationSystem.step host) OrganizationSystem.empty labels) := by
  have start : (OrganizationSystem.empty : OrganizationSystem Work).Settled := .empty
  have settled := start.run host labels
  refine ⟨settled.members, settled.pending, ?_, ?_, ?_⟩
  · intro row member other later
    have kept := run_invariant
      (fun state : OrganizationSystem Work => state.Settled ∧
        state.database.invitations.get row.id = some row)
      (fun state label both => by
        refine ⟨both.1.step host label, ?_⟩
        obtain ⟨moved, present, _, same | ⟨pending, _⟩⟩ :=
          (both.1.settles host label).moves row.id row both.2
        · rw [same] at present
          exact present
        · exact absurd pending other)
      ⟨settled, Table.get_of_mem member⟩ later
    exact kept.2
  · intro row member accepted
    obtain ⟨earlier, label, later, same, before, after⟩ := run_turn
      (fun state : OrganizationSystem Work => state.database.invitations.get row.id = some row)
      (by simp [OrganizationSystem.empty]) (Table.get_of_mem member)
    rcases ((start.run host earlier).settles host label).accepted row.id row after accepted with
      unchanged | ⟨pending, timely, admits⟩
    · exact absurd unchanged before
    · exact ⟨timely, earlier, label, later, same, pending, after, admits⟩
  · intro caller choices error refused
    rcases OrganizationSystem.advance_cases host
        (run (OrganizationSystem.step host) OrganizationSystem.empty labels) caller choices with
      ⟨_, moved⟩ | ⟨_, moved⟩ | ⟨database, outcome, _, moved⟩
    · rw [moved]
    · rw [moved]
    · rw [moved] at refused
      simp at refused

end N2FNest.Organizations
