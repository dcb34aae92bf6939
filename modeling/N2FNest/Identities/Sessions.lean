import N2FNest.Identities.Commands

/-! No session survives a password reset. A login keeps the credential it read
for as long as it runs; what makes its commit safe is that `updated_at` names
one password hash, which every reset replaces by a later one. -/

namespace N2FNest.Identities

open Events Lib Shared

variable {Work : Type}

/-- A found record is the stored rows', read together. -/
theorem AccountDatabase.findCredential_inv {toLowerCase : JsString → JsString}
    {database : AccountDatabase Work} {wanted : CredentialRow → Bool}
    {record : CredentialAuthenticationRecord}
    (done : database.findCredential toLowerCase wanted = .ok (some record)) :
    record.identity.toIdentityState = database.identity ∧
      record.credential.identityId = database.credential.identityId ∧
      record.credential.updatedAt = database.credential.updatedAt ∧
      record.passwordHash = database.credential.passwordHash ∧
      database.identity.id = database.credential.identityId := by
  unfold findCredential at done
  split at done
  · rename_i found
    obtain ⟨identity, first, done⟩ := bind_ok done
    obtain ⟨credential, second, done⟩ := bind_ok done
    cases pure_eq_ok.mp done
    have same := Credential.restore_ok second
    refine ⟨Identity.restore_ok first, ?_, ?_, rfl, found.2.2⟩
    · rw [same]
    · rw [same]
  · cases done

/-- What a login knows about the stored credential: it verified the hash that the
credential's `updated_at` stood for when it was read. -/
structure Login.Knows (host : Host) (credential : CredentialRow) (login : Login Work) : Prop where
  verified : host.verifyPassword login.password login.record.passwordHash = true
  owner : login.session.identityId = credential.identityId
  time : login.record.credential.updatedAt ≤ credential.updatedAt
  hash : login.record.credential.updatedAt = credential.updatedAt →
    login.record.passwordHash = credential.passwordHash

theorem AuthenticateIdentity.authenticate_knows {host : Host} {database : AccountDatabase Work}
    {choices : Choices} {email : JsValue} {password : JsString} {work : Work} {login : Login Work}
    (done : authenticate host database choices email password work = .ok login) :
    login.Knows host database.credential := by
  unfold authenticate at done
  split at done
  · cases done
  obtain ⟨_, _, done⟩ := bind_ok done
  obtain ⟨found, read, done⟩ := bind_ok done
  obtain ⟨_, _, done⟩ := bind_ok done
  cases found with
  | none => cases done
  | some record =>
    dsimp only at done
    split at done
    · cases done
    · rename_i accepted
      obtain ⟨_, _, done⟩ := bind_ok done
      obtain ⟨_, _, done⟩ := bind_ok done
      obtain ⟨session, create, done⟩ := bind_ok done
      obtain ⟨⟨_, _⟩, _, done⟩ := bind_ok done
      obtain ⟨_, _, done⟩ := bind_ok done
      cases pure_eq_ok.mp done
      obtain ⟨identity, _, time, hash, joined⟩ :=
        AccountDatabase.findCredential_inv (orFault_ok (mapError_ok read))
      simp only [not_or, Bool.not_eq_false] at accepted
      refine ⟨accepted.1, ?_, Int.le_of_eq time, fun _ => hash⟩
      calc session.identityId = record.identity.id := (Session.create_inv create).2
        _ = database.identity.id := congrArg IdentityState.id identity
        _ = database.credential.identityId := joined

/-- Every revocation a command prepares is one. -/
theorem revokeEach_revoked {choices : Choices} {reason : String} {instant : JsDate} {occurredAt : Int}
    {work : Work} {identityId : Session → ID} {index : Nat} {sessions : List Session}
    {evicted : List (SessionEviction Work)}
    (done : revokeEach choices reason instant occurredAt work identityId index sessions = .ok evicted) :
    ∀ eviction ∈ evicted, eviction.session.status = .revoked := by
  induction sessions generalizing index evicted with
  | nil =>
    cases done
    simp
  | cons session rest ih =>
    obtain ⟨revoked, revoke, done⟩ := bind_ok done
    obtain ⟨event, _, done⟩ := bind_ok done
    obtain ⟨later, tail, done⟩ := bind_ok done
    cases pure_eq_ok.mp done
    intro eviction member
    rcases List.mem_cons.mp member with rfl | member
    · exact (Session.revoke_inv revoke).1
    · exact ih tail eviction member

namespace ConfirmPasswordReset

theorem readAccount_inv {host : Host} {database : AccountDatabase Work} {choices : Choices}
    {link : ResetLink Work} {account : ResetAccount Work}
    (done : readAccount host database choices link = .ok account) :
    account.credential.updatedAt < account.changed.updatedAt ∧
      account.changed.identityId = database.credential.identityId ∧
      account.toResetLink = link ∧
      (∀ identity ∈ account.verified, identity.status = .active) := by
  obtain ⟨found, read, done⟩ := bind_ok done
  split at done
  · cases done
  · rename_i record
    split at done
    · cases done
    · obtain ⟨changed, change, done⟩ := bind_ok done
      obtain ⟨verified, verify, done⟩ := bind_ok done
      obtain ⟨_, _, done⟩ := bind_ok done
      cases pure_eq_ok.mp done
      obtain ⟨forward, _, owner⟩ := Credential.changeSecret_inv change
      have same := (AccountDatabase.findCredential_inv (orFault_ok (mapError_ok read))).2.1
      refine ⟨forward, owner.trans same, rfl, ?_⟩
      intro identity present
      unfold verifyPending at verify
      split at verify
      · cases result : record.identity.verify link.instant with
        | error error =>
          rw [result] at verify
          cases verify
        | ok active =>
          rw [result] at verify
          cases verify
          cases present
          exact (Identity.verify_inv result).2.1
      · cases verify
        cases present

theorem prepare_inv {choices : Choices} {account : ResetAccount Work} {active : List Session}
    {input : ResetCommit Work} (done : prepare choices account active = .ok input) :
    input.challenge = account.consumed ∧ input.credential = account.changed ∧
      input.previousUpdatedAt = account.credential.updatedAt ∧ input.identity = account.verified ∧
      ∀ eviction ∈ input.revoked, eviction.session.status = .revoked := by
  obtain ⟨revoked, ended, done⟩ := bind_ok done
  obtain ⟨_, _, done⟩ := bind_ok done
  cases pure_eq_ok.mp done
  exact ⟨rfl, rfl, rfl, rfl, revokeEach_revoked ended⟩

end ConfirmPasswordReset

theorem RevokeSession.readSession_revoked {host : Host} {database : AccountDatabase Work}
    {choices : Choices} {sessionToken : JsString} {work : Work} {input : RevocationCommit Work}
    (done : readSession host database choices sessionToken work = .ok (.inl input)) :
    input.session.status = .revoked := by
  obtain ⟨found, _, done⟩ := bind_ok done
  split at done
  · cases done
  · split at done
    · cases done
    · obtain ⟨revoked, revoke, done⟩ := bind_ok done
      obtain ⟨_, _, done⟩ := bind_ok done
      cases pure_eq_ok.mp done
      exact (Session.revoke_inv revoke).1

/-- What a call relies on where it stands. -/
def Call.Knows (host : Host) (credential : CredentialRow) : Call Work → Prop
  | .authenticated login => login.Knows host credential
  | .opening login evicted => login.Knows host credential ∧
      ∀ eviction ∈ evicted, eviction.session.status = .revoked
  | .resetting account => account.credential.updatedAt < account.changed.updatedAt ∧
      account.changed.identityId = credential.identityId
  | .replacing input => input.previousUpdatedAt < input.credential.updatedAt ∧
      input.credential.identityId = credential.identityId ∧
      ∀ eviction ∈ input.revoked, eviction.session.status = .revoked
  | .revoking input => input.session.status = .revoked
  | _ => True

/-- A credential only moves to a later `updated_at`. -/
def CredentialRow.Precedes (before after : CredentialRow) : Prop :=
  after.identityId = before.identityId ∧ (after = before ∨ before.updatedAt < after.updatedAt)

theorem Login.Knows.later {host : Host} {before after : CredentialRow} {login : Login Work}
    (knows : login.Knows host before) (moved : before.Precedes after) : login.Knows host after := by
  obtain ⟨owner, same | forward⟩ := moved
  · rw [same]
    exact knows
  · refine ⟨knows.verified, knows.owner.trans owner.symm, ?_, ?_⟩
    · exact Int.le_trans knows.time (Int.le_of_lt forward)
    · intro equal
      have := knows.time
      omega

theorem Call.Knows.later {host : Host} {before after : CredentialRow} {call : Call Work}
    (knows : call.Knows host before) (moved : before.Precedes after) : call.Knows host after := by
  have owner := moved.1
  cases call with
  | authenticated login => exact Login.Knows.later knows moved
  | opening login evicted => exact ⟨knows.1.later moved, knows.2⟩
  | resetting account => exact ⟨knows.1, knows.2.trans owner.symm⟩
  | replacing input => exact ⟨knows.1, knows.2.1.trans owner.symm, knows.2.2⟩
  | _ => exact knows

namespace Call

private theorem first_knows {host : Host} {database : AccountDatabase Work} {choices : Choices}
    {command : Command Work} {after : Call Work}
    (done : first host database choices command = .ok after) :
    after.Knows host database.credential := by
  cases command with
  | authenticate email password work =>
    obtain ⟨login, accepted, done⟩ := bind_ok done
    cases pure_eq_ok.mp done
    exact AuthenticateIdentity.authenticate_knows accepted
  | confirmPasswordReset challengeId token password work =>
    obtain ⟨link, _, done⟩ := bind_ok done
    cases pure_eq_ok.mp done
    trivial
  | verify challengeId token work =>
    obtain ⟨challenge, _, done⟩ := bind_ok done
    cases pure_eq_ok.mp done
    trivial
  | revokeSession sessionToken work =>
    obtain ⟨read, found, done⟩ := bind_ok done
    cases read with
    | inl input =>
      cases pure_eq_ok.mp done
      exact RevokeSession.readSession_revoked found
    | inr outcome =>
      cases pure_eq_ok.mp done
      trivial

theorem next_knows {host : Host} {database : AccountDatabase Work} {choices : Choices}
    {call after : Call Work} (knows : call.Knows host database.credential)
    (done : call.next host database choices = .ok after) : after.Knows host database.credential := by
  cases call with
  | requested command => exact first_knows done
  | authenticated login =>
    obtain ⟨active, _, done⟩ := bind_ok done
    obtain ⟨evicted, ended, done⟩ := bind_ok done
    cases pure_eq_ok.mp done
    exact ⟨knows, revokeEach_revoked ended⟩
  | confirming link =>
    obtain ⟨account, read, done⟩ := bind_ok done
    cases pure_eq_ok.mp done
    obtain ⟨forward, owner, _⟩ := ConfirmPasswordReset.readAccount_inv read
    exact ⟨forward, owner⟩
  | resetting account =>
    obtain ⟨active, _, done⟩ := bind_ok done
    obtain ⟨input, prepared, done⟩ := bind_ok done
    cases pure_eq_ok.mp done
    obtain ⟨_, changed, previous, _, revoked⟩ := ConfirmPasswordReset.prepare_inv prepared
    simp only [Knows, changed, previous]
    exact ⟨knows.1, knows.2, revoked⟩
  | verifying challenge work =>
    obtain ⟨input, _, done⟩ := bind_ok done
    cases pure_eq_ok.mp done
    trivial
  | _ =>
    cases done
    exact knows

end Call

/-- Every active session was opened by a login that verified the stored hash. -/
structure AccountState.Sound (host : Host) (state : AccountState Work) : Prop where
  calls : ∀ caller, (state.calls caller).Knows host state.database.credential
  sessions : ∀ row ∈ state.database.sessions.rows, row.status = .active →
    row.identityId = state.database.credential.identityId ∧
      ∃ opening, state.openedBy row.id = some opening ∧
        host.verifyPassword opening.password opening.passwordHash = true ∧
        opening.passwordHash = state.database.credential.passwordHash

namespace AccountState.Sound

variable {host : Host} {state : AccountState Work}

/-- Steps that keep the credential and activate no session keep the invariant. -/
private theorem kept (sound : state.Sound host) {database : AccountDatabase Work}
    {calls : Nat → Call Work} (credential : database.credential = state.database.credential)
    (none : NoneActivated state.database.sessions database.sessions)
    (knows : ∀ caller, (calls caller).Knows host state.database.credential) :
    AccountState.Sound host ⟨database, calls, state.openedBy⟩ := by
  refine ⟨?_, ?_⟩
  · rw [credential]
    exact knows
  · intro row member active
    obtain ⟨old, present, named, owned, before⟩ := none row member active
    rw [credential, ← named, ← owned]
    exact sound.sessions old present before

private theorem calls_update {calls : Nat → Call Work} {credential : CredentialRow} {caller : Nat}
    {call : Call Work} (knows : ∀ other, (calls other).Knows host credential)
    (also : call.Knows host credential) (other : Nat) :
    (Function.update calls caller call other).Knows host credential :=
  (Function.forall_update_iff calls fun _ call => call.Knows host credential).mpr
    ⟨also, fun other _ => knows other⟩ other

variable [DecidableEq Work]

/-- The commit of a login adds its own session, opened with the stored hash. -/
private theorem opens (sound : state.Sound host) {caller : Nat} {login : Login Work}
    {evicted : List (SessionEviction Work)} {outcome : Outcome} {database : AccountDatabase Work}
    (here : state.calls caller = .opening login evicted)
    (done : state.database.openSession (login.commit evicted) = .ok database) :
    AccountState.Sound host
      { database := database
        calls := Function.update state.calls caller (.returned (.ok outcome))
        openedBy := Function.update state.openedBy login.session.id
          (some ⟨login.password, login.record.passwordHash⟩) } := by
  have knows := sound.calls caller
  rw [here] at knows
  obtain ⟨credential, _, _, unchanged, middle, none, missing, written⟩ :=
    AccountDatabase.openSession_inv knows.2 done
  refine ⟨?_, ?_⟩
  · rw [credential]
    exact calls_update sound.calls trivial
  · intro row member active
    rw [written] at member
    rw [credential]
    rcases Table.mem_set.mp member with rfl | ⟨present, other⟩
    · refine ⟨knows.1.owner, _, Function.update_self .., knows.1.verified, ?_⟩
      exact knows.1.hash unchanged.symm
    · obtain ⟨old, stored, named, owned, before⟩ := none row present active
      obtain ⟨mine, opening, history, verified⟩ := sound.sessions old stored before
      have elsewhere : row.id ≠ login.session.id := other
      refine ⟨owned.symm.trans mine, opening, ?_, verified⟩
      rw [named] at history
      exact (Function.update_of_ne elsewhere ..).trans history

/-- A reset leaves no active session, and moves the credential on. -/
private theorem replaced (sound : state.Sound host) {caller : Nat} {input : ResetCommit Work}
    {database : AccountDatabase Work} (here : state.calls caller = .replacing input)
    (done : state.database.resetPassword input = .ok database) :
    state.database.credential.Precedes database.credential ∧
      ∀ row ∈ database.sessions.rows, row.status ≠ .active := by
  have knows := sound.calls caller
  rw [here] at knows
  have replaced := AccountDatabase.resetPassword_inv knows.2.2 done
  refine ⟨?_, ?_⟩
  · rw [replaced.credential]
    refine ⟨rfl, .inr ?_⟩
    rw [replaced.unchanged]
    exact knows.1
  · intro row member active
    obtain ⟨old, stored, _, owned, before⟩ := replaced.sessions row member active
    have mine := (sound.sessions old stored before).1
    exact replaced.survivors row member ((owned.symm.trans mine).trans knows.2.1.symm) active

private theorem advance (sound : state.Sound host) (caller : Nat) (choices : Choices) :
    (state.step host (.advance caller choices)).Sound host := by
  have knows := sound.calls caller
  rcases AccountState.advance_cases host state caller choices with
    ⟨reads, moved⟩ | ⟨error, refused⟩ | ⟨database, outcome, commits, accepted⟩
  · rw [moved]
    refine sound.kept rfl (.refl _) (calls_update sound.calls ?_)
    cases done : (state.calls caller).next host state.database choices with
    | error error => trivial
    | ok after => exact Call.next_knows knows done
  · rw [refused]
    exact sound.kept rfl (.refl _) (calls_update sound.calls trivial)
  · rw [accepted]
    cases here : state.calls caller with
    | opening login evicted =>
      simp only [here, Call.commit, Option.some.injEq, Prod.mk.injEq] at commits
      exact sound.opens here commits.1
    | replacing input =>
      simp only [here, Call.commit, Option.some.injEq, Prod.mk.injEq] at commits
      obtain ⟨moved, ended⟩ := sound.replaced here commits.1
      refine ⟨?_, fun row member active => absurd active (ended row member)⟩
      exact calls_update (fun other => (sound.calls other).later moved) trivial
    | activating input =>
      simp only [here, Call.commit, Option.some.injEq, Prod.mk.injEq] at commits
      have verified := AccountDatabase.verifyIdentity_inv commits.1
      refine sound.kept verified.credential ?_ (calls_update sound.calls trivial)
      rw [verified.sessions]
      exact .refl _
    | revoking input =>
      rw [here] at knows
      simp only [here, Call.commit, Option.some.injEq, Prod.mk.injEq] at commits
      obtain ⟨credential, _, _, none⟩ := AccountDatabase.endSession_inv knows commits.1
      exact sound.kept credential none (calls_update sound.calls trivial)
    | _ => simp [here, Call.commit] at commits

theorem step (sound : state.Sound host) (label : Label Work) :
    (AccountState.step host state label).Sound host := by
  cases label with
  | request caller command =>
    simp only [AccountState.step]
    split
    · exact sound.kept rfl (.refl _) (calls_update sound.calls trivial)
    · exact sound
  | advance caller choices => exact sound.advance caller choices
  | issue id purpose issuedAt expiresAt tokenDigest event work fault =>
    simp only [AccountState.step]
    split
    · rename_i database done
      obtain ⟨challenge, _, done⟩ := bind_ok done
      obtain ⟨credential, _, sessions, _⟩ :=
        AccountDatabase.issueChallenge_inv (orFault_ok done)
      refine sound.kept credential ?_ sound.calls
      rw [sessions]
      exact .refl _
    · exact sound
  | record sessionId time =>
    exact sound.kept rfl (state.database.recordActivity_none sessionId time) sound.calls
  | prune endedBefore idleBefore selected =>
    exact sound.kept rfl (state.database.pruneSessions_none endedBefore idleBefore selected) sound.calls

omit [DecidableEq Work] in
theorem registered (host : Host) (identity : IdentityState) (credential : CredentialRow)
    (challenges : ChallengeTable) (outbox : EventLog Work) :
    (AccountState.registered identity credential challenges outbox).Sound host :=
  ⟨fun _ => trivial, fun _ member => absurd member List.not_mem_nil⟩

end AccountState.Sound

variable [DecidableEq Work]

/-- What a password reset promises about sessions. -/
structure NoSessionSurvives (host : Host) (state : AccountState Work) : Prop where
  /-- An active session was created by a login that verified the stored hash. -/
  verified : ∀ row ∈ state.database.sessions.rows, row.status = .active →
    ∃ opening, state.openedBy row.id = some opening ∧
      host.verifyPassword opening.password opening.passwordHash = true ∧
      opening.passwordHash = state.database.credential.passwordHash
  /-- After a successful reset commit no session is active. -/
  reset : ∀ caller choices input outcome, state.calls caller = .replacing input →
    (state.step host (.advance caller choices)).calls caller = .returned (.ok outcome) →
    ∀ row ∈ (state.step host (.advance caller choices)).database.sessions.rows, row.status ≠ .active
  /-- A refused commit changes nothing. -/
  refused : ∀ caller choices error,
    (state.step host (.advance caller choices)).calls caller = .returned (.error error) →
    (state.step host (.advance caller choices)).database = state.database

/-- No session survives a password reset, in every state that any interleaving of
logins, resets, verifications and revocations reaches. -/
theorem no_session_survives_reset (host : Host) (identity : IdentityState)
    (credential : CredentialRow) (challenges : ChallengeTable) (outbox : EventLog Work)
    (labels : List (Label Work)) :
    NoSessionSurvives host (run (AccountState.step host)
      (AccountState.registered identity credential challenges outbox) labels) := by
  have sound := run_invariant (AccountState.Sound host) (fun _ label holds => holds.step label)
    (AccountState.Sound.registered host identity credential challenges outbox) labels
  generalize run (AccountState.step host)
    (AccountState.registered identity credential challenges outbox) labels = state at sound
  refine ⟨fun row member active => (sound.sessions row member active).2, ?_, ?_⟩
  · intro caller choices input outcome here accepted
    rcases AccountState.advance_cases host state caller choices with
      ⟨reads, _⟩ | ⟨error, refused⟩ | ⟨database, _, commits, moved⟩
    · simp [here, Call.commit] at reads
    · rw [refused] at accepted
      simp at accepted
    · rw [moved]
      simp only [here, Call.commit, Option.some.injEq, Prod.mk.injEq] at commits
      exact (sound.replaced here commits.1).2
  · intro caller choices error refused
    rcases AccountState.advance_cases host state caller choices with
      ⟨_, moved⟩ | ⟨_, moved⟩ | ⟨database, outcome, _, moved⟩
    · rw [moved]
    · rw [moved]
    · rw [moved] at refused
      simp at refused

end N2FNest.Identities
