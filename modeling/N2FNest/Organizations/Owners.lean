import N2FNest.Organizations.Commands

/-! An organization never loses its owner. No command writes a membership that it
read as an owner's, and the version check refuses a write to one that has become
an owner's since. -/

namespace N2FNest.Organizations

open Events Lib Shared

variable {Work : Type}

/-- The identity holds an active owner membership of the organization. -/
def OwnerOf (memberships : MembershipTable) (organizationId identityId : ID) : Prop :=
  ∃ row ∈ memberships.rows, row.organizationId = organizationId ∧ row.identityId = identityId ∧
    row.role = .owner ∧ row.status = .active

/-- No membership is lost or moved elsewhere, and an owner's stays as it is. -/
def MembershipsMove (before after : MembershipTable) : Prop :=
  ∀ id row, before.get id = some row → ∃ moved, after.get id = some moved ∧
    moved.organizationId = row.organizationId ∧ moved.identityId = row.identityId ∧
    (moved = row ∨ row.version < moved.version ∧ row.role ≠ .owner)

theorem MembershipsMove.refl (memberships : MembershipTable) :
    MembershipsMove memberships memberships :=
  fun _ row found => ⟨row, found, rfl, rfl, .inl rfl⟩

theorem MembershipsMove.owner {before after : MembershipTable} (moves : MembershipsMove before after)
    {row : MembershipState} (member : row ∈ before.rows) (owner : row.role = .owner) :
    row ∈ after.rows := by
  obtain ⟨moved, found, _, _, same | ⟨_, other⟩⟩ := moves row.id row (Table.get_of_mem member)
  · rw [same] at found
    exact Table.mem_of_get found
  · exact absurd owner other

theorem OwnerOf.later {before after : MembershipTable} {organizationId identityId : ID}
    (owner : OwnerOf before organizationId identityId) (moves : MembershipsMove before after) :
    OwnerOf after organizationId identityId := by
  obtain ⟨row, member, organization, identity, role, active⟩ := owner
  exact ⟨row, moves.owner member role, organization, identity, role, active⟩

theorem Joined.moves {before after : MembershipTable} {row : MembershipState}
    (joined : Joined before after row) : MembershipsMove before after := by
  intro id old found
  have other : row.id ≠ id := by
    intro same
    have fresh := joined.fresh
    rw [same, found] at fresh
    cases fresh
  rw [joined.written]
  exact ⟨old, (Table.get_set_other before other).trans found, rfl, rfl, .inl rfl⟩

/-- A copy that a role change or a revocation holds: at its version the row is not
an owner's. -/
def HeldMembership (memberships : MembershipTable) (membership : Membership) : Prop :=
  ∃ row, memberships.get membership.id = some row ∧
    row.organizationId = membership.organizationId ∧ membership.version ≤ row.version ∧
    (membership.version = row.version → row.role ≠ .owner)

theorem HeldMembership.later {before after : MembershipTable} {membership : Membership}
    (held : HeldMembership before membership) (moves : MembershipsMove before after) :
    HeldMembership after membership := by
  obtain ⟨row, found, organization, version, current⟩ := held
  obtain ⟨moved, present, same, _, forward⟩ := moves _ row found
  refine ⟨moved, present, same.trans organization, ?_, ?_⟩
  · rcases forward with rfl | ⟨greater, _⟩
    · exact version
    · omega
  · rcases forward with rfl | ⟨greater, _⟩
    · exact current
    · omega

theorem Altered.moves {before after : MembershipTable} {membership : Membership}
    {stored : MembershipState} (altered : Altered before after membership stored)
    (held : HeldMembership before membership) : MembershipsMove before after := by
  obtain ⟨row, found, _, _, current⟩ := held
  have same : row = stored := Option.some.inj (found.symm.trans altered.found)
  subst same
  have named := Table.key_of_get found
  have named : row.id = membership.id := named
  intro id old present
  by_cases here : membership.id = id
  · subst here
    rw [found] at present
    cases present
    refine ⟨membership.onto row, ?_, rfl, rfl, .inr ⟨?_, current altered.version.symm⟩⟩
    · rw [altered.written, Table.get_set]
      exact if_pos named
    · exact Nat.lt_succ_self row.version
  · have other : row.id ≠ id := fun also => here (named.symm.trans also)
    refine ⟨old, ?_, rfl, rfl, .inl rfl⟩
    rw [altered.written, Table.get_set]
    exact (if_neg other).trans present

theorem authorize_owner {database : OrganizationDatabase Work} {choices : Choices}
    {organizationId actor : ID} {forbidden : Failure}
    (done : authorize database choices organizationId actor forbidden = .ok ()) :
    OwnerOf database.memberships organizationId actor := by
  obtain ⟨found, read, done⟩ := bind_ok done
  cases found with
  | none => cases done
  | some membership =>
    dsimp only at done
    split at done
    · cases done
    · rename_i owner
      obtain ⟨member, organization, identity, active⟩ :=
        OrganizationDatabase.findActiveForIdentity_inv (orFault_ok (mapError_ok read))
      exact ⟨_, member, organization, identity, not_not.mp owner, active⟩

theorem target_held {database : OrganizationDatabase Work} {choices : Choices}
    {organizationId membershipId : ID} {locked : String} {membership : Membership}
    (done : target database choices organizationId membershipId locked = .ok membership) :
    HeldMembership database.memberships membership ∧ membership.organizationId = organizationId ∧
      membership.version ≠ UNSAVED := by
  obtain ⟨found, read, done⟩ := bind_ok done
  cases found with
  | none => cases done
  | some loaded =>
    dsimp only at done
    split at done
    · cases done
    · rename_i organization
      split at done
      · cases done
      · rename_i other
        cases pure_eq_ok.mp done
        obtain ⟨present, saved⟩ := OrganizationDatabase.findMembership_inv (orFault_ok (mapError_ok read))
        exact ⟨⟨_, present, rfl, Nat.le_refl _, fun _ => other⟩, not_not.mp organization, saved⟩

/-- A transition keeps what makes a copy safe to write. -/
private theorem HeldMembership.kept {memberships : MembershipTable} {before after : Membership}
    (held : HeldMembership memberships before) (keeps : before.Keeps after) :
    HeldMembership memberships after := by
  unfold HeldMembership at held ⊢
  rw [keeps.id, keeps.organizationId, keeps.version]
  exact held

/-- The commit of a role change or a revocation, in the hands of `actor`. -/
structure OwnerActs (memberships : MembershipTable) (actor : ID) (membership : Membership) : Prop where
  owner : OwnerOf memberships membership.organizationId actor
  held : HeldMembership memberships membership
  saved : membership.version ≠ UNSAVED

theorem OwnerActs.later {before after : MembershipTable} {actor : ID} {membership : Membership}
    (acts : OwnerActs before actor membership) (moves : MembershipsMove before after) :
    OwnerActs after actor membership :=
  ⟨acts.owner.later moves, acts.held.later moves, acts.saved⟩

private theorem OwnerActs.of_target {memberships : MembershipTable} {actor organizationId : ID}
    {before after : Membership} (owner : OwnerOf memberships organizationId actor)
    (found : HeldMembership memberships before ∧ before.organizationId = organizationId ∧
      before.version ≠ UNSAVED) (keeps : before.Keeps after) : OwnerActs memberships actor after := by
  obtain ⟨held, organization, saved⟩ := found
  refine ⟨?_, held.kept keeps, ?_⟩
  · rw [keeps.organizationId, organization]
    exact owner
  · rw [keeps.version]
    exact saved

theorem CreateOrganization.prepare_inv {host : Host Work} {choices : Choices} {actor : ID}
    {name slug : JsValue} {work : Work} {input : CreateOrganizationCommit Work}
    (done : prepare host choices actor name slug work = .ok input) :
    input.ownerMembership.organizationId = input.organization.id ∧
      input.ownerMembership.role = .owner ∧ input.ownerMembership.status = .active := by
  obtain ⟨_, _, done⟩ := bind_ok done
  obtain ⟨organization, _, done⟩ := bind_ok done
  obtain ⟨_, _, done⟩ := bind_ok done
  obtain ⟨membership, added, done⟩ := bind_ok done
  obtain ⟨_, _, done⟩ := bind_ok done
  obtain ⟨_, _, done⟩ := bind_ok done
  cases pure_eq_ok.mp done
  obtain ⟨_, same, _, role, active, _⟩ := Membership.add_inv added
  have owner : MembershipRole.ofValue? (.string (js MembershipRole.owner.name)) = some .owner := by
    decide
  exact ⟨same, (Option.some.inj (owner.symm.trans role)).symm, active⟩

theorem AddMembership.prepare_unsaved {database : OrganizationDatabase Work} {choices : Choices}
    {organizationId identityId : ID} {role : JsValue} {work : Work} {input : MembershipCommit Work}
    (done : prepare database choices organizationId identityId role work = .ok input) :
    input.membership.version = UNSAVED := by
  obtain ⟨_, _, done⟩ := bind_ok done
  obtain ⟨_, _, done⟩ := bind_ok done
  obtain ⟨_, _, done⟩ := bind_ok done
  obtain ⟨membership, added, done⟩ := bind_ok done
  obtain ⟨_, _, done⟩ := bind_ok done
  cases pure_eq_ok.mp done
  exact (Membership.add_inv added).2.2.2.2.2

/-- What a call relies on where it stands. -/
def Call.Knows (memberships : MembershipTable) : Call Work → Prop
  | .authorized actor command => ∀ organizationId, command.organizationId = some organizationId →
      OwnerOf memberships organizationId actor
  | .creating input => input.ownerMembership.organizationId = input.organization.id ∧
      input.ownerMembership.role = .owner ∧ input.ownerMembership.status = .active
  | .adding input => input.membership.version = UNSAVED
  | .changing actor input => OwnerActs memberships actor input.membership
  | .revoking actor input => OwnerActs memberships actor input.membership
  | _ => True

theorem Call.Knows.later {before after : MembershipTable} {call : Call Work}
    (knows : call.Knows before) (moves : MembershipsMove before after) : call.Knows after := by
  cases call with
  | authorized actor command => exact fun id same => (knows id same).later moves
  | changing actor input => exact OwnerActs.later knows moves
  | revoking actor input => exact OwnerActs.later knows moves
  | _ => exact knows

namespace Call

private theorem owned_knows {database : OrganizationDatabase Work} {choices : Choices} {actor : ID}
    {command : Command Work} {organizationId : ID} {message type : String} {after : Call Work}
    (named : command.organizationId = some organizationId)
    (done : owned database choices actor command organizationId message type = .ok after) :
    after.Knows database.memberships := by
  obtain ⟨_, allowed, done⟩ := bind_ok done
  cases pure_eq_ok.mp done
  intro id same
  rw [named] at same
  cases same
  exact authorize_owner allowed

private theorem first_knows {host : Host Work} {database : OrganizationDatabase Work}
    {choices : Choices} {command : Command Work} {after : Call Work}
    (done : first host database choices command = .ok after) : after.Knows database.memberships := by
  obtain ⟨actor, _, done⟩ := bind_ok done
  cases command with
  | createOrganization name slug work =>
    obtain ⟨input, prepared, done⟩ := bind_ok done
    cases pure_eq_ok.mp done
    exact CreateOrganization.prepare_inv prepared
  | acceptInvitation organizationId invitationId work =>
    obtain ⟨invitation, _, done⟩ := bind_ok done
    split at done
    · cases done
    · cases pure_eq_ok.mp done
      trivial
  | addMembership organizationId identityId role work => exact owned_knows rfl done
  | changeMembershipRole organizationId membershipId role work => exact owned_knows rfl done
  | revokeMembership organizationId membershipId work => exact owned_knows rfl done
  | inviteIdentity organizationId identityId role work => exact owned_knows rfl done
  | revokeInvitation organizationId invitationId work => exact owned_knows rfl done

private theorem second_knows {database : OrganizationDatabase Work} {choices : Choices} {actor : ID}
    {command : Command Work} {after : Call Work}
    (knows : (Call.authorized actor command).Knows database.memberships)
    (done : second database choices actor command = .ok after) : after.Knows database.memberships := by
  cases command with
  | addMembership organizationId identityId role work =>
    obtain ⟨input, prepared, done⟩ := bind_ok done
    cases pure_eq_ok.mp done
    exact AddMembership.prepare_unsaved prepared
  | changeMembershipRole organizationId membershipId role work =>
    obtain ⟨input, prepared, done⟩ := bind_ok done
    cases pure_eq_ok.mp done
    obtain ⟨membership, found, prepared⟩ := bind_ok prepared
    obtain ⟨changed, change, prepared⟩ := bind_ok prepared
    obtain ⟨_, _, prepared⟩ := bind_ok prepared
    cases pure_eq_ok.mp prepared
    exact .of_target (knows organizationId rfl) (target_held found) (Membership.changeRole_keeps change)
  | revokeMembership organizationId membershipId work =>
    obtain ⟨input, prepared, done⟩ := bind_ok done
    cases pure_eq_ok.mp done
    obtain ⟨membership, found, prepared⟩ := bind_ok prepared
    obtain ⟨revoked, revoke, prepared⟩ := bind_ok prepared
    obtain ⟨_, _, prepared⟩ := bind_ok prepared
    cases pure_eq_ok.mp prepared
    exact .of_target (knows organizationId rfl) (target_held found) (Membership.revoke_keeps revoke)
  | inviteIdentity organizationId identityId role work =>
    obtain ⟨_, _, done⟩ := bind_ok done
    cases pure_eq_ok.mp done
    trivial
  | revokeInvitation organizationId invitationId work =>
    obtain ⟨input, _, done⟩ := bind_ok done
    cases pure_eq_ok.mp done
    trivial
  | _ =>
    cases done
    exact knows

theorem next_knows {host : Host Work} {database : OrganizationDatabase Work} {choices : Choices}
    {call after : Call Work} (knows : call.Knows database.memberships)
    (done : call.next host database choices = .ok after) : after.Knows database.memberships := by
  cases call with
  | requested command => exact first_knows done
  | authorized actor command => exact second_knows knows done
  | unassociated command =>
    cases command with
    | inviteIdentity organizationId identityId role work =>
      obtain ⟨input, _, done⟩ := bind_ok done
      cases pure_eq_ok.mp done
      trivial
    | _ =>
      cases done
      trivial
  | invited actor organizationId invitation work =>
    obtain ⟨input, _, done⟩ := bind_ok done
    cases pure_eq_ok.mp done
    trivial
  | _ =>
    cases done
    exact knows

end Call

/-- Every stored organization has an active owner. -/
def Owned (database : OrganizationDatabase Work) : Prop :=
  ∀ organization ∈ database.organizations.rows, ∃ identityId,
    OwnerOf database.memberships organization.id identityId

private theorem Owned.kept {before after : OrganizationDatabase Work} (owned : Owned before)
    (organizations : after.organizations = before.organizations)
    (moves : MembershipsMove before.memberships after.memberships) : Owned after := by
  intro organization member
  rw [organizations] at member
  obtain ⟨identityId, owner⟩ := owned organization member
  exact ⟨identityId, owner.later moves⟩

variable [DecidableEq Work]

/-- An accepted commit keeps every owner, and gives a new organization one. -/
theorem Call.commit_owned {database after : OrganizationDatabase Work} {call : Call Work}
    {outcome : Outcome} (knows : call.Knows database.memberships) (owned : Owned database)
    (done : call.commit database = some (.ok after, outcome)) :
    MembershipsMove database.memberships after.memberships ∧ Owned after := by
  have joins : ∀ {row}, after.organizations = database.organizations →
      Joined database.memberships after.memberships row →
      MembershipsMove database.memberships after.memberships ∧ Owned after :=
    fun same joined => ⟨joined.moves, owned.kept same joined.moves⟩
  have alters : ∀ {input : MembershipCommit Work} {actor : ID},
      OwnerActs database.memberships actor input.membership →
      database.commitMembership input = .ok after →
      MembershipsMove database.memberships after.memberships ∧ Owned after := by
    intro input actor acts done
    obtain ⟨organizations, _, ⟨unsaved, _⟩ | ⟨_, stored, altered⟩⟩ :=
      OrganizationDatabase.commitMembership_inv done
    · exact absurd unsaved acts.saved
    · have moves := altered.moves acts.held
      exact ⟨moves, owned.kept organizations moves⟩
  have invites : ∀ {input : InvitationCommit Work}, database.commitInvitation input = .ok after →
      MembershipsMove database.memberships after.memberships ∧ Owned after := by
    intro input done
    obtain ⟨organizations, memberships, _⟩ := OrganizationDatabase.commitInvitation_inv done
    have moves : MembershipsMove database.memberships after.memberships := by
      rw [memberships]
      exact .refl _
    exact ⟨moves, owned.kept organizations moves⟩
  cases call with
  | creating input =>
    simp only [commit, Option.some.injEq, Prod.mk.injEq] at done
    obtain ⟨_, organizations, joined⟩ := OrganizationDatabase.commitOrganization_inv done.1
    refine ⟨joined.moves, ?_⟩
    intro organization member
    rw [organizations] at member
    rcases Table.mem_set.mp member with rfl | ⟨present, _⟩
    · refine ⟨input.ownerMembership.identityId, input.ownerMembership.inserted, ?_, knows.1, rfl, knows.2⟩
      rw [joined.written]
      exact Table.mem_set.mpr (.inl rfl)
    · obtain ⟨identityId, owner⟩ := owned organization present
      exact ⟨identityId, owner.later joined.moves⟩
  | adding input =>
    simp only [commit, Option.some.injEq, Prod.mk.injEq] at done
    obtain ⟨organizations, _, ⟨_, joined⟩ | ⟨saved, _⟩⟩ :=
      OrganizationDatabase.commitMembership_inv done.1
    · exact joins organizations joined
    · exact absurd knows saved
  | changing actor input =>
    simp only [commit, Option.some.injEq, Prod.mk.injEq] at done
    exact alters knows done.1
  | revoking actor input =>
    simp only [commit, Option.some.injEq, Prod.mk.injEq] at done
    exact alters knows done.1
  | inviting input =>
    simp only [commit, Option.some.injEq, Prod.mk.injEq] at done
    exact invites done.1
  | withdrawing input =>
    simp only [commit, Option.some.injEq, Prod.mk.injEq] at done
    exact invites done.1
  | accepting input =>
    simp only [commit, Option.some.injEq, Prod.mk.injEq] at done
    obtain ⟨organizations, joined, _⟩ := OrganizationDatabase.commitAcceptance_inv done.1
    exact joins organizations joined
  | _ => simp [commit] at done

structure OrganizationSystem.Owned (state : OrganizationSystem Work) : Prop where
  database : Organizations.Owned state.database
  calls : ∀ caller, (state.calls caller).Knows state.database.memberships

namespace OrganizationSystem.Owned

variable {state : OrganizationSystem Work}

omit [DecidableEq Work] in
private theorem calls_update {calls : Nat → Call Work} {memberships : MembershipTable} {caller : Nat}
    {call : Call Work} (knows : ∀ other, (calls other).Knows memberships)
    (also : call.Knows memberships) (other : Nat) :
    (Function.update calls caller call other).Knows memberships :=
  (Function.forall_update_iff calls fun _ call => call.Knows memberships).mpr
    ⟨also, fun other _ => knows other⟩ other

/-- One step keeps the invariant and every owner. -/
theorem step (owned : state.Owned) (host : Host Work) (label : Label Work) :
    (OrganizationSystem.step host state label).Owned ∧ MembershipsMove state.database.memberships
      (OrganizationSystem.step host state label).database.memberships := by
  cases label with
  | request caller command =>
    simp only [OrganizationSystem.step]
    split
    · exact ⟨⟨owned.database, calls_update owned.calls trivial⟩, .refl _⟩
    · exact ⟨owned, .refl _⟩
  | advance caller choices =>
    rcases OrganizationSystem.advance_cases host state caller choices with
      ⟨_, moved⟩ | ⟨_, moved⟩ | ⟨database, outcome, commits, moved⟩
    · rw [moved]
      refine ⟨⟨owned.database, calls_update owned.calls ?_⟩, .refl _⟩
      cases done : (state.calls caller).next host state.database choices with
      | error error => trivial
      | ok after => exact Call.next_knows (owned.calls caller) done
    · rw [moved]
      exact ⟨⟨owned.database, calls_update owned.calls trivial⟩, .refl _⟩
    · rw [moved]
      obtain ⟨moves, still⟩ := Call.commit_owned (owned.calls caller) owned.database commits
      exact ⟨⟨still, calls_update (fun other => (owned.calls other).later moves) trivial⟩, moves⟩

omit [DecidableEq Work] in
theorem empty : (OrganizationSystem.empty : OrganizationSystem Work).Owned :=
  ⟨fun _ member => absurd member List.not_mem_nil, fun _ => trivial⟩

end OrganizationSystem.Owned

/-- What holds of owners in one state of a run, for every way the run goes on. -/
structure OwnersKept (host : Host Work) (state : OrganizationSystem Work) : Prop where
  /-- Every stored organization has an active owner. -/
  owned : ∀ organization ∈ state.database.organizations.rows,
    ∃ row ∈ state.database.memberships.rows, row.organizationId = organization.id ∧
      row.role = .owner ∧ row.status = .active
  /-- An active owner is one in every later state. -/
  lasting : ∀ row ∈ state.database.memberships.rows, row.role = .owner → row.status = .active →
    ∀ later, row ∈ (run (OrganizationSystem.step host) state later).database.memberships.rows
  /-- Who changes or revokes a membership is an active owner of its organization when
  the commit happens. -/
  authorized : ∀ caller choices actor input outcome,
    state.calls caller = .changing actor input ∨ state.calls caller = .revoking actor input →
    (state.step host (.advance caller choices)).calls caller = .returned (.ok outcome) →
    ∃ target, state.database.memberships.get input.membership.id = some target ∧
      OwnerOf state.database.memberships target.organizationId actor

/-- An organization never loses its owner, in every state that any interleaving of
the commands reaches. -/
theorem owners_kept (host : Host Work) (labels : List (Label Work)) :
    OwnersKept host (run (OrganizationSystem.step host) OrganizationSystem.empty labels) := by
  have owned := run_invariant OrganizationSystem.Owned (fun _ label holds => (holds.step host label).1)
    OrganizationSystem.Owned.empty labels
  generalize run (OrganizationSystem.step host) OrganizationSystem.empty labels = state at owned
  refine ⟨?_, ?_, ?_⟩
  · intro organization member
    obtain ⟨_, row, present, same, _, owner⟩ := owned.database organization member
    exact ⟨row, present, same, owner⟩
  · intro row member owner _ later
    exact (run_invariant
      (fun state : OrganizationSystem Work => state.Owned ∧ row ∈ state.database.memberships.rows)
      (fun _ label both =>
        ⟨(both.1.step host label).1, (both.1.step host label).2.owner both.2 owner⟩)
      ⟨owned, member⟩ later).2
  · intro caller choices actor input outcome here _
    have knows := owned.calls caller
    have acts : OwnerActs state.database.memberships actor input.membership := by
      rcases here with here | here
      · rw [here] at knows
        exact knows
      · rw [here] at knows
        exact knows
    obtain ⟨target, found, organization, _⟩ := acts.held
    exact ⟨target, found, organization ▸ acts.owner⟩

end N2FNest.Organizations
