import N2FNest.Events.Publication
import N2FNest.Organizations.Postgres

/-! The in-memory writers of Organization that publish several events. They store first,
and put the store back by hand when an event is refused. -/

namespace N2FNest.Organizations

open Events Lib Shared

variable {Bytes Work : Type}

structure InMemoryOrganizationStore where
  organizations : OrganizationTable
  memberships : MembershipTable
  invitations : InvitationTable

def OrganizationState.saved (organization : OrganizationState) : OrganizationState :=
  { organization with version := organization.version + 1 }

def MembershipState.saved (membership : MembershipState) : MembershipState :=
  { membership with version := membership.version + 1 }

def InvitationState.saved (invitation : InvitationState) : InvitationState :=
  { invitation with version := invitation.version + 1 }

namespace InMemoryOrganizationStore

section Checks

variable [DecidableEq Work]

/-- What `InMemoryOrganizationWriter.commit` checks before it stores anything. -/
def checkOrganization (store : InMemoryOrganizationStore) (input : CreateOrganizationCommit Work) :
    Except Failure Unit := do
  input.events.forM (assertEventWork · input.work)
  if (store.organizations.get input.organization.id).isSome then .error organizationExists
  else if store.organizations.rows.any fun row => row.slug = input.organization.slug then
    .error slugTaken
  else if (store.memberships.get input.ownerMembership.id).isSome then .error ownerMembershipExists
  else .ok ()

/-- What `InMemoryInvitationAcceptanceWriter.commit` checks, and the invitation it read. -/
def checkAcceptance (store : InMemoryOrganizationStore) (input : InvitationAcceptanceCommit Work) :
    Except Failure InvitationState := do
  input.events.forM (assertEventWork · input.work)
  match store.invitations.get input.invitation.id with
  | none => .error acceptanceConflict
  | some previousInvitation =>
    if previousInvitation.status ≠ .pending ∨ previousInvitation.version ≠ input.invitation.version then
      .error acceptanceConflict
    else if (store.memberships.get input.membership.id).isSome ∨
        store.memberships.rows.any (fun candidate =>
          candidate.identityId = input.membership.identityId &&
            candidate.organizationId = input.membership.organizationId) then
      .error acceptedMembershipExists
    else .ok previousInvitation

end Checks

/-- What a commit comes to: its result, the store and the bus. -/
structure Outcome (Work : Type) where
  result : Except Failure Unit
  store : InMemoryOrganizationStore
  bus : InboxState Work

variable [DecidableEq Bytes] (bytes : Envelope Work → Bytes) (policy : RetryPolicy)

/-- A writer that has stored its change publishes its events, and undoes the change at the
first that is refused. -/
def publishing (stored : InMemoryOrganizationStore) (bus : InboxState Work)
    (events : List (Envelope Work)) (publications : Nat → Publication Work)
    (undo : InMemoryOrganizationStore → InMemoryOrganizationStore) : Outcome Work :=
  match bus.publishAll bytes policy events publications with
  | (.ok (), after) => ⟨.ok (), stored, after⟩
  | (.error error, after) => ⟨.error error, undo stored, after⟩

variable [DecidableEq Work]

/-- `InMemoryOrganizationWriter.commit`. -/
def commitOrganization (store : InMemoryOrganizationStore) (bus : InboxState Work)
    (input : CreateOrganizationCommit Work) (publications : Nat → Publication Work) : Outcome Work :=
  match store.checkOrganization input with
  | .error error => ⟨.error error, store, bus⟩
  | .ok () =>
    publishing bytes policy
      { store with
        organizations := store.organizations.set input.organization.saved
        memberships := store.memberships.set input.ownerMembership.toMembershipState.saved }
      bus input.events publications
      fun stored => { stored with
        memberships := stored.memberships.delete input.ownerMembership.id
        organizations := stored.organizations.delete input.organization.id }

/-- `InMemoryInvitationAcceptanceWriter.commit`. -/
def commitAcceptance (store : InMemoryOrganizationStore) (bus : InboxState Work)
    (input : InvitationAcceptanceCommit Work) (publications : Nat → Publication Work) : Outcome Work :=
  match store.checkAcceptance input with
  | .error error => ⟨.error error, store, bus⟩
  | .ok previousInvitation =>
    publishing bytes policy
      { store with
        invitations := store.invitations.set input.invitation.toInvitationState.saved
        memberships := store.memberships.set input.membership.toMembershipState.saved }
      bus input.events publications
      fun stored => { stored with
        invitations := stored.invitations.set previousInvitation
        memberships := stored.memberships.delete input.membership.id }

/-- A failure leaves the store, and the events the bus has accepted, as they were. -/
def Outcome.LeavesNothing (outcome : Outcome Work) (bytes : Envelope Work → Bytes)
    (store : InMemoryOrganizationStore) (bus : InboxState Work) : Prop :=
  (∃ error, outcome.result = .error error) → outcome.store = store ∧
    ∀ id, accepted bytes outcome.bus.inbox.events id = accepted bytes bus.inbox.events id

variable {bytes policy}

omit [DecidableEq Work] in
/-- With a change that is undone, what is left is what the loop over the events left. -/
theorem publishing_leaves_nothing_iff {store stored : InMemoryOrganizationStore} {bus : InboxState Work}
    {events : List (Envelope Work)} {publications : Nat → Publication Work}
    {undo : InMemoryOrganizationStore → InMemoryOrganizationStore} (undone : undo stored = store) :
    (publishing bytes policy stored bus events publications undo).LeavesNothing bytes store bus ↔
      Repeats bytes bus.inbox.events events publications := by
  rw [← InboxState.publishAll_unchanged_iff bytes policy]
  unfold Outcome.LeavesNothing publishing
  split
  · rename_i after published
    simp [published]
  · rename_i error after published
    simp [published, undone]

private theorem undo_organization {store : InMemoryOrganizationStore} {input : CreateOrganizationCommit Work}
    (checked : store.checkOrganization input = .ok ()) :
    (store.organizations.set input.organization.saved).delete input.organization.id =
        store.organizations ∧
      (store.memberships.set input.ownerMembership.toMembershipState.saved).delete
        input.ownerMembership.id = store.memberships := by
  obtain ⟨-, -, checked⟩ := bind_ok checked
  obtain ⟨newOrganization, checked⟩ := refuse_ok.mp checked
  obtain ⟨-, checked⟩ := refuse_ok.mp checked
  obtain ⟨newMembership, -⟩ := refuse_ok.mp checked
  rw [Option.not_isSome_iff_eq_none] at newOrganization newMembership
  exact ⟨Table.delete_set_new newOrganization, Table.delete_set_new newMembership⟩

private theorem undo_acceptance {store : InMemoryOrganizationStore} {input : InvitationAcceptanceCommit Work}
    {previousInvitation : InvitationState} (checked : store.checkAcceptance input = .ok previousInvitation) :
    (store.invitations.set input.invitation.toInvitationState.saved).set previousInvitation =
        store.invitations ∧
      (store.memberships.set input.membership.toMembershipState.saved).delete input.membership.id =
        store.memberships := by
  obtain ⟨-, -, checked⟩ := bind_ok checked
  split at checked
  · cases checked
  rename_i held found
  obtain ⟨-, checked⟩ := refuse_ok.mp checked
  obtain ⟨newMembership, checked⟩ := refuse_ok.mp checked
  rw [← Except.ok.inj checked]
  rw [not_or, Option.not_isSome_iff_eq_none] at newMembership
  have named : held.id = input.invitation.id := Table.key_of_get found
  have same : input.invitation.toInvitationState.saved.id = held.id := named.symm
  refine ⟨?_, Table.delete_set_new newMembership.1⟩
  rw [Table.set_set same]
  exact Table.set_present (named ▸ found)

/-- A failed commit leaves nothing behind exactly where its own checks refused it, or every
event before the first one that is refused had been accepted before the call. -/
theorem failed_commit_leaves_nothing_iff (bytes : Envelope Work → Bytes) (policy : RetryPolicy)
    (store : InMemoryOrganizationStore) (bus : InboxState Work) (publications : Nat → Publication Work) :
    (∀ input : CreateOrganizationCommit Work,
      (commitOrganization bytes policy store bus input publications).LeavesNothing bytes store bus ↔
        (store.checkOrganization input = .ok () →
          Repeats bytes bus.inbox.events input.events publications)) ∧
    (∀ input : InvitationAcceptanceCommit Work,
      (commitAcceptance bytes policy store bus input publications).LeavesNothing bytes store bus ↔
        (∀ previousInvitation, store.checkAcceptance input = .ok previousInvitation →
          Repeats bytes bus.inbox.events input.events publications)) := by
  have refused : ∀ error, (⟨.error error, store, bus⟩ : Outcome Work).LeavesNothing bytes store bus :=
    fun error _ => ⟨rfl, fun _ => rfl⟩
  constructor
  · intro input
    unfold commitOrganization
    cases checked : store.checkOrganization input with
    | error error => exact ⟨fun _ impossible => (by cases impossible), fun _ => refused error⟩
    | ok _ =>
      obtain ⟨organizations, memberships⟩ := undo_organization checked
      rw [publishing_leaves_nothing_iff (by simp only [organizations, memberships])]
      exact ⟨fun repeats _ => repeats, fun repeats => repeats rfl⟩
  · intro input
    unfold commitAcceptance
    cases checked : store.checkAcceptance input with
    | error error => exact ⟨fun _ _ impossible => (by cases impossible), fun _ => refused error⟩
    | ok previousInvitation =>
      obtain ⟨invitations, memberships⟩ := undo_acceptance checked
      rw [publishing_leaves_nothing_iff (by simp only [invitations, memberships])]
      exact ⟨fun repeats _ _ => repeats, fun repeats => repeats previousInvitation rfl⟩

private def created (number : Nat) : Envelope Unit :=
  ⟨.numbered number, js "organization.created.v1", 0, (), [], none, none⟩

private theorem active_revocation :
    MembershipStatus.active = .revoked ↔ (none : Option Int) ≠ none := by
  simp

private def founding : CreateOrganizationCommit Unit where
  organization := ⟨.numbered 3, js "Harbour", js "harbour", .active, 0, 0, UNSAVED⟩
  ownerMembership :=
    { id := .numbered 4, organizationId := .numbered 3, identityId := .numbered 5, role := .owner,
      status := .active, createdAt := 0, updatedAt := 0, revokedAt := none, version := UNSAVED,
      time := Int.le_refl 0, revocation := active_revocation }
  events := [created 1, created 2]
  work := ()

/-- The signal is aborted from the second publication on. -/
private def abortedLater (index : Nat) : Publication Unit where
  aborted := 0 < index
  consumers := []
  clock := fun _ => .finite 0
  meanwhile := []
  quiet := List.forall_mem_nil _

private def emptyStore : InMemoryOrganizationStore := ⟨Table.empty, Table.empty, Table.empty⟩

theorem aborted_commit_leaves_event :
    let bytes := fun event : Envelope Unit => event.type
    let outcome := commitOrganization bytes DEFAULT_RETRY emptyStore .initial founding abortedLater
    outcome.result = .error canceled ∧ outcome.store = emptyStore ∧
      accepted bytes outcome.bus.inbox.events (.numbered 1) = some (created 1).type ∧
      ¬ outcome.LeavesNothing bytes emptyStore .initial := by
  intro bytes outcome
  have failed : outcome.result = .error canceled := by rfl
  have held : accepted bytes outcome.bus.inbox.events (.numbered 1) = some (created 1).type := by rfl
  refine ⟨failed, by rfl, held, fun nothing => ?_⟩
  have lost := (nothing ⟨_, failed⟩).2 (.numbered 1)
  rw [held] at lost
  cases lost

end InMemoryOrganizationStore

end N2FNest.Organizations
