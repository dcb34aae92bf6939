import N2FNest.Events.Envelope
import N2FNest.Identities.Account
import N2FNest.Shared.Versioned
import Mathlib.Data.List.Sort

/-! The PostgreSQL adapters of Identity over the rows of one identity. A commit
is one transaction: it changes all of its tables or none. -/

namespace N2FNest.Identities

open Events Lib Shared

/-- A row of `n2f_identity_credentials`. -/
structure CredentialRow extends CredentialState where
  passwordHash : JsString

/-- A row of `n2f_identity_sessions`. -/
structure SessionRow extends SessionState where
  tokenDigest : JsString

/-- A row of `n2f_identity_verification_challenges`. -/
structure ChallengeRow extends ChallengeState where
  tokenDigest : JsString

abbrev SessionTable := Table (fun row : SessionRow => row.id)

abbrev ChallengeTable := Table (fun row : ChallengeRow => row.id)

/-- The rows of one identity, and the outbox. -/
structure AccountDatabase (Work : Type) where
  identity : IdentityState
  credential : CredentialRow
  sessions : SessionTable
  challenges : ChallengeTable
  outbox : EventLog Work

def staleWrite : Failure :=
  failure .conflict "record was changed by a concurrent operation" "identity.stale_write"

def challengeExists : Failure :=
  failure .conflict "verification challenge already exists" "identity.challenge_already_exists"

def sessionExists : Failure :=
  failure .conflict "session already exists" "identity.session_already_exists"

def sessionNotFound : Failure :=
  failure .notFound "session was not found" "identity.session_not_found"

def identityNotFound : Failure := failure .notFound "identity was not found" "identity.not_found"

def verificationNotFound : Failure :=
  failure .notFound "verification challenge was not found" "identity.verification_not_found"

structure CredentialAuthenticationRecord where
  identity : Identity
  credential : Credential
  passwordHash : JsString

structure VerificationChallengeRecord where
  challenge : VerificationChallenge
  tokenDigest : JsString

variable {Work : Type}

namespace AccountDatabase

/-- `PostgresCredentialAuthenticatorReader.find`: the active credential that
`wanted` selects, joined with its identity. -/
def findCredential (toLowerCase : JsString → JsString) (database : AccountDatabase Work)
    (wanted : CredentialRow → Bool) : Except Failure (Option CredentialAuthenticationRecord) :=
  if wanted database.credential = true ∧ database.credential.status = .active ∧
      database.identity.id = database.credential.identityId then do
    let identity ← Identity.restore database.identity
    let credential ← Credential.restore toLowerCase database.credential.toCredentialState
    return some ⟨identity, credential, database.credential.passwordHash⟩
  else .ok none

def findByEmail (toLowerCase : JsString → JsString) (database : AccountDatabase Work)
    (email : JsString) : Except Failure (Option CredentialAuthenticationRecord) :=
  database.findCredential toLowerCase fun row => row.email = email

def findByIdentity (toLowerCase : JsString → JsString) (database : AccountDatabase Work)
    (identityId : ID) : Except Failure (Option CredentialAuthenticationRecord) :=
  database.findCredential toLowerCase fun row => row.identityId = identityId

/-- `PostgresIdentityReader.find`. -/
def findIdentity (database : AccountDatabase Work) (id : ID) : Except Failure (Option Identity) :=
  if database.identity.id = id then (Identity.restore database.identity).map some else .ok none

/-- `PostgresVerificationChallengeReader.find`. -/
def findChallenge (database : AccountDatabase Work) (id : ID) :
    Except Failure (Option VerificationChallengeRecord) :=
  match database.challenges.get id with
  | none => .ok none
  | some row => do
    let challenge ← VerificationChallenge.restore row.toChallengeState
    return some ⟨challenge, row.tokenDigest⟩

/-- `PostgresCurrentSessionReader.findByToken`. -/
def findByToken (database : AccountDatabase Work) (digest : JsString) :
    Except Failure (Option Session) :=
  match database.sessions.rows.find? fun row => row.tokenDigest = digest with
  | none => .ok none
  | some row => (Session.restore row.toSessionState).map some

/-- `ORDER BY created_at DESC, id DESC`. -/
private def newestFirst (left right : SessionRow) : Prop :=
  right.createdAt < left.createdAt ∨
    right.createdAt = left.createdAt ∧ right.id.text.units ≤ left.id.text.units

instance (left right : SessionRow) : Decidable (newestFirst left right) :=
  inferInstanceAs (Decidable (_ ∨ _))

/-- `PostgresActiveSessionReader.listActive`. -/
def listActive (database : AccountDatabase Work) (identityId : ID) : Except Failure (List Session) :=
  let rows := database.sessions.rows.filter fun row =>
    row.identityId = identityId ∧ row.status = .active
  (rows.insertionSort newestFirst).mapM fun row => Session.restore row.toSessionState

end AccountDatabase

/-- `SET status=$2,revoked_at=$3,version=version+1 WHERE id=$1 AND version=$4`. -/
def revokeSession (missing : Failure) (sessions : SessionTable) (session : Session) :
    Except Failure SessionTable :=
  updateVersioned sessions session.id (fun row => row.version)
    (fun row => row.version = session.version)
    (fun row => { row with
      status := session.status, revokedAt := session.revokedAt, version := row.version + 1 })
    missing staleWrite

/-- A new row starts at the first version; its id and its token are unique. -/
def insertSession (sessions : SessionTable) (session : Session) (tokenDigest : JsString) :
    Except Failure SessionTable :=
  if (sessions.get session.id).isSome ∨ sessions.rows.any (fun row => row.tokenDigest = tokenDigest)
  then .error sessionExists
  else .ok (sessions.set ⟨{ session.toSessionState with version := FIRST }, tokenDigest⟩)

/-- The identity's `UPDATE … WHERE id=$1 AND version=$5`. -/
def updateIdentity (row : IdentityState) (identity : Identity) : Except Failure IdentityState :=
  if row.id ≠ identity.id then .error identityNotFound
  else if row.version ≠ identity.version then .error staleWrite
  else if 2147483647 ≤ row.version then .error databaseFailed
  else .ok { row with
    status := identity.status
    updatedAt := identity.updatedAt
    verifiedAt := identity.verifiedAt
    version := row.version + 1 }

/-- `SET status=$2,consumed_at=$3,version=version+1 WHERE id=$1 AND … AND version=$n`. -/
def updateChallenge (challenges : ChallengeTable) (challenge : VerificationChallenge)
    (also : ChallengeRow → Bool) : Except Failure ChallengeTable :=
  updateVersioned challenges challenge.id (fun row => row.version)
    (fun row => also row && row.version = challenge.version)
    (fun row => { row with
      status := challenge.status, consumedAt := challenge.consumedAt, version := row.version + 1 })
    verificationNotFound staleWrite

structure SessionEviction (Work : Type) where
  session : Session
  event : Envelope Work

/-- The input of `PostgresSessionWriter.commit`. -/
structure SessionCommit (Work : Type) where
  session : Session
  credential : Credential
  tokenDigest : JsString
  event : Envelope Work
  evicted : List (SessionEviction Work)
  work : Work

/-- The input of `PostgresPasswordResetWriter.commit`. -/
structure ResetCommit (Work : Type) where
  challenge : VerificationChallenge
  credential : Credential
  previousUpdatedAt : Int
  passwordHash : JsString
  identity : Option Identity
  revoked : List (SessionEviction Work)
  events : List (Envelope Work)
  work : Work

/-- The input of `PostgresVerificationWriter.commit`. -/
structure VerificationCommit (Work : Type) where
  identity : Identity
  challenge : VerificationChallenge
  event : Envelope Work
  work : Work

/-- The input of `PostgresSessionRevocationWriter.commit`. -/
structure RevocationCommit (Work : Type) where
  session : Session
  event : Envelope Work
  work : Work

/-- The input of `PostgresVerificationChallengeWriter.commit`. -/
structure ChallengeCommit (Work : Type) where
  challenge : VerificationChallenge
  tokenDigest : JsString
  event : Envelope Work
  work : Work

/-- Revoke in turn; the first session that moved fails the transaction. -/
def revokeAll (missing : Failure) : SessionTable → List Session → Except Failure SessionTable
  | sessions, [] => .ok sessions
  | sessions, session :: rest => do revokeAll missing (← revokeSession missing sessions session) rest

variable [DecidableEq Work]

/-- The loop over the evicted sessions: each revocation with its event. -/
def evictAll : SessionTable × EventLog Work → List (SessionEviction Work) →
    Except Failure (SessionTable × EventLog Work)
  | tables, [] => .ok tables
  | (sessions, outbox), eviction :: rest => do
    let sessions ← revokeSession sessionNotFound sessions eviction.session
    let outbox ← EventLog.enqueue outbox eviction.event
    evictAll (sessions, outbox) rest

namespace AccountDatabase

/-- The statements of `PostgresSessionWriter.commit`. The password this login
checked must still be the credential's: a reset changes `updated_at`. -/
def openSession (database : AccountDatabase Work) (input : SessionCommit Work) :
    Except Failure (AccountDatabase Work) := do
  (input.event :: input.evicted.map SessionEviction.event).forM (assertEventWork · input.work)
  if database.credential.id = input.credential.id ∧ database.credential.status = .active ∧
      database.credential.updatedAt = input.credential.updatedAt then
    let (sessions, outbox) ← evictAll (database.sessions, database.outbox) input.evicted
    let sessions ← insertSession sessions input.session input.tokenDigest
    let outbox ← EventLog.enqueue outbox input.event
    return { database with sessions := sessions, outbox := outbox }
  else throw staleWrite

/-- The identity a reset verifies with it, if it was pending. -/
def verifyAlong (row : IdentityState) : Option Identity → Except Failure IdentityState
  | none => .ok row
  | some identity => updateIdentity row identity

/-- The statements of `PostgresPasswordResetWriter.commit`. -/
def resetPassword (database : AccountDatabase Work) (input : ResetCommit Work) :
    Except Failure (AccountDatabase Work) := do
  input.events.forM (assertEventWork · input.work)
  if database.credential.id = input.credential.id ∧ database.credential.status = .active ∧
      database.credential.updatedAt = input.previousUpdatedAt then
    let challenges ← updateChallenge database.challenges input.challenge
      fun row => row.purpose = .passwordReset
    let identity ← verifyAlong database.identity input.identity
    let sessions ← revokeAll staleWrite database.sessions (input.revoked.map SessionEviction.session)
    -- a session opened after the list was read would outlive the reset
    if sessions.rows.any fun row =>
        row.identityId = input.credential.identityId ∧ row.status = .active then
      throw staleWrite
    else
      let outbox ← EventLog.enqueueAll database.outbox input.events
      return {
        identity := identity
        credential := { database.credential with
          passwordHash := input.passwordHash, updatedAt := input.credential.updatedAt }
        sessions := sessions
        challenges := challenges
        outbox := outbox }
  else throw staleWrite

/-- The statements of `PostgresVerificationWriter.commit`. -/
def verifyIdentity (database : AccountDatabase Work) (input : VerificationCommit Work) :
    Except Failure (AccountDatabase Work) := do
  assertEventWork input.event input.work
  let identity ← updateIdentity database.identity input.identity
  let challenges ← updateChallenge database.challenges input.challenge
    fun row => row.identityId = input.identity.id
  let outbox ← EventLog.enqueue database.outbox input.event
  return { database with identity := identity, challenges := challenges, outbox := outbox }

/-- The statements of `PostgresSessionRevocationWriter.commit`. -/
def endSession (database : AccountDatabase Work) (input : RevocationCommit Work) :
    Except Failure (AccountDatabase Work) := do
  assertEventWork input.event input.work
  let sessions ← revokeSession sessionNotFound database.sessions input.session
  let outbox ← EventLog.enqueue database.outbox input.event
  return { database with sessions := sessions, outbox := outbox }

/-- The statements of `PostgresVerificationChallengeWriter.commit`. -/
def issueChallenge (database : AccountDatabase Work) (input : ChallengeCommit Work) :
    Except Failure (AccountDatabase Work) := do
  assertEventWork input.event input.work
  match database.challenges.get input.challenge.id with
  | some _ => throw challengeExists
  | none =>
    let outbox ← EventLog.enqueue database.outbox input.event
    return { database with
      challenges := database.challenges.set
        ⟨{ input.challenge.toChallengeState with version := FIRST }, input.tokenDigest⟩
      outbox := outbox }

/-- `SET last_seen_at=$2 WHERE id=$1 AND last_seen_at<$2`. -/
def seenAt (sessionId : ID) (time : Int) (row : SessionRow) : SessionRow :=
  if row.id = sessionId ∧ row.lastSeenAt < time then { row with lastSeenAt := time } else row

theorem seenAt_id (sessionId : ID) (time : Int) (row : SessionRow) :
    (seenAt sessionId time row).id = row.id := by
  unfold seenAt
  split <;> rfl

theorem seenAt_tokenDigest (sessionId : ID) (time : Int) (row : SessionRow) :
    (seenAt sessionId time row).tokenDigest = row.tokenDigest := by
  unfold seenAt
  split <;> rfl

/-- `PostgresSessionActivityWriter.record`: forward only and outside the version. -/
def recordActivity (database : AccountDatabase Work) (sessionId : ID) (time : Int) :
    AccountDatabase Work :=
  { database with sessions := database.sessions.modify (seenAt sessionId time) (seenAt_id sessionId time) }

/-- `PostgresSessionPruner.prune`; `selected` are the ids its LIMIT and the locks
of other transactions leave it. -/
def pruneSessions (database : AccountDatabase Work) (endedBefore idleBefore : Int)
    (selected : ID → Bool) : AccountDatabase Work :=
  { database with sessions := database.sessions.keep fun row =>
      !(selected row.id && (row.revokedAt.any (· < endedBefore) || row.expiresAt < endedBefore ||
        row.lastSeenAt < idleBefore)) }

end AccountDatabase

/-- No session of `after` is active that was not active before. -/
def NoneActivated (before after : SessionTable) : Prop :=
  ∀ row ∈ after.rows, row.status = .active →
    ∃ old ∈ before.rows, old.id = row.id ∧ old.identityId = row.identityId ∧ old.status = .active

theorem NoneActivated.refl (sessions : SessionTable) : NoneActivated sessions sessions :=
  fun row member active => ⟨row, member, rfl, rfl, active⟩

/-- A row later on. Where nothing is recorded, `still`, one that was not revoked is the same. -/
structure SessionRow.Follows (still : Prop) (before after : SessionRow) : Prop where
  id : after.id = before.id
  owner : after.identityId = before.identityId
  moved : after.status = .revoked ∧ before.version < after.version ∨
    after.status = before.status ∧ after.version = before.version ∧ (still → after = before)

namespace SessionRow.Follows

variable {still : Prop} {first second third : SessionRow}

theorem refl (row : SessionRow) : row.Follows still row :=
  ⟨rfl, rfl, .inr ⟨rfl, rfl, fun _ => rfl⟩⟩

theorem trans (earlier : first.Follows still second) (later : second.Follows still third) :
    first.Follows still third := by
  refine ⟨later.id.trans earlier.id, later.owner.trans earlier.owner, ?_⟩
  rcases earlier.moved with ⟨ended, newer⟩ | ⟨status, version, same⟩
  · left
    rcases later.moved with ⟨again, newest⟩ | ⟨status, version, _⟩
    · exact ⟨again, newer.trans newest⟩
    · exact ⟨status.trans ended, version ▸ newer⟩
  · rcases later.moved with ⟨again, newest⟩ | ⟨after, number, also⟩
    · exact .inl ⟨again, version ▸ newest⟩
    · exact .inr ⟨after.trans status, number.trans version, fun quiet =>
        (also quiet).trans (same quiet)⟩

theorem weaken {less : Prop} (follows : first.Follows still second) (implies : less → still) :
    first.Follows less second := by
  refine ⟨follows.id, follows.owner, follows.moved.imp_right ?_⟩
  rintro ⟨status, version, same⟩
  exact ⟨status, version, fun quiet => same (implies quiet)⟩

theorem version_le (follows : first.Follows still second) : first.version ≤ second.version := by
  rcases follows.moved with ⟨-, newer⟩ | ⟨-, same, -⟩
  · exact newer.le
  · exact same.ge

/-- A revocation is for good. -/
theorem revoked (follows : first.Follows still second) (ended : first.status = .revoked) :
    second.status = .revoked := by
  rcases follows.moved with ⟨again, -⟩ | ⟨same, -, -⟩
  · exact again
  · exact same.trans ended

end SessionRow.Follows

/-- Every row is followed by one, and every other row was opened under one of the ids. -/
structure SessionsStep (still : Prop) (before after : SessionTable) (opened : List ID) : Prop where
  kept : ∀ row ∈ before.rows, ∃ later ∈ after.rows, row.Follows still later
  added : ∀ row ∈ after.rows, row.id ∈ opened ∨ ∃ old ∈ before.rows, old.id = row.id

namespace SessionsStep

variable {still : Prop} {first second third : SessionTable} {opened more : List ID}

theorem refl (sessions : SessionTable) : SessionsStep still sessions sessions [] :=
  ⟨fun row member => ⟨row, member, .refl row⟩, fun row member => .inr ⟨row, member, rfl⟩⟩

theorem trans (earlier : SessionsStep still first second opened)
    (later : SessionsStep still second third more) :
    SessionsStep still first third (opened ++ more) := by
  constructor
  · intro row member
    obtain ⟨middle, present, follows⟩ := earlier.kept row member
    obtain ⟨last, there, after⟩ := later.kept middle present
    exact ⟨last, there, follows.trans after⟩
  · intro row member
    rcases later.added row member with fresh | ⟨middle, present, named⟩
    · exact .inl (List.mem_append_right opened fresh)
    · rcases earlier.added middle present with fresh | ⟨old, there, same⟩
      · exact .inl (List.mem_append_left more (named ▸ fresh))
      · exact .inr ⟨old, there, same.trans named⟩

theorem weaken {less : Prop} (step : SessionsStep still first second opened) (implies : less → still) :
    SessionsStep less first second opened := by
  refine ⟨fun row member => ?_, step.added⟩
  obtain ⟨later, present, follows⟩ := step.kept row member
  exact ⟨later, present, follows.weaken implies⟩

end SessionsStep

/-- Where nothing is opened, nothing is activated. -/
theorem SessionsStep.noneActivated {still : Prop} {before after : SessionTable}
    (step : SessionsStep still before after []) : NoneActivated before after := by
  intro row member active
  rcases step.added row member with impossible | ⟨old, present, named⟩
  · cases impossible
  · obtain ⟨later, there, follows⟩ := step.kept old present
    have equal := Table.eq_of_key there member (follows.id.trans named)
    subst equal
    refine ⟨old, present, named, follows.owner.symm, ?_⟩
    rcases follows.moved with ⟨ended, -⟩ | ⟨same, -, -⟩
    · rw [active] at ended
      cases ended
    · exact same.symm.trans active

/-- The row a revocation is for, and the table after it. -/
theorem revokeSession_inv {missing : Failure} {sessions next : SessionTable} {session : Session}
    (done : revokeSession missing sessions session = .ok next) :
    ∃ stored, sessions.get session.id = some stored ∧ stored.version = session.version ∧
      next = sessions.set { stored with
        status := session.status, revokedAt := session.revokedAt, version := stored.version + 1 } := by
  obtain ⟨stored, found, matched, written⟩ := updateVersioned_inv done
  exact ⟨stored, found, of_decide_eq_true matched, written⟩

theorem revokeSession_step {missing : Failure} {sessions next : SessionTable} {session : Session}
    (revoked : session.status = .revoked) (done : revokeSession missing sessions session = .ok next)
    (still : Prop) : SessionsStep still sessions next [] := by
  obtain ⟨stored, found, -, rfl⟩ := revokeSession_inv done
  constructor
  · intro row member
    by_cases same : row.id = stored.id
    · have here := Table.eq_of_key member (Table.mem_of_get found) same
      subst here
      exact ⟨_, Table.mem_set.mpr (.inl rfl), rfl, rfl, .inl ⟨revoked, Nat.lt_succ_self _⟩⟩
    · exact ⟨row, Table.mem_set.mpr (.inr ⟨member, same⟩), .refl row⟩
  · intro row member
    rcases Table.mem_set.mp member with rfl | ⟨present, -⟩
    · exact .inr ⟨stored, Table.mem_of_get found, rfl⟩
    · exact .inr ⟨row, present, rfl⟩

theorem revokeAll_step {missing : Failure} {sessions next : SessionTable} {ended : List Session}
    (revoked : ∀ session ∈ ended, session.status = .revoked)
    (done : revokeAll missing sessions ended = .ok next) (still : Prop) :
    SessionsStep still sessions next [] := by
  induction ended generalizing sessions with
  | nil =>
    cases done
    exact .refl _
  | cons session rest ih =>
    obtain ⟨here, others⟩ := List.forall_mem_cons.mp revoked
    obtain ⟨middle, first, later⟩ := bind_ok done
    exact (revokeSession_step here first still).trans (ih others later)

theorem evictAll_step {tables next : SessionTable × EventLog Work} {evicted : List (SessionEviction Work)}
    (revoked : ∀ eviction ∈ evicted, eviction.session.status = .revoked)
    (done : evictAll tables evicted = .ok next) (still : Prop) :
    SessionsStep still tables.1 next.1 [] := by
  induction evicted generalizing tables with
  | nil =>
    cases done
    exact .refl _
  | cons eviction rest ih =>
    obtain ⟨here, others⟩ := List.forall_mem_cons.mp revoked
    obtain ⟨sessions, first, later⟩ := bind_ok done
    obtain ⟨outbox, _, later⟩ := bind_ok later
    exact (revokeSession_step here first still).trans (ih others later)

/-- The challenge row that an accepted commit spends. -/
structure Spending (before after : ChallengeTable) (challenge : VerificationChallenge)
    (stored : ChallengeRow) : Prop where
  found : before.get challenge.id = some stored
  version : stored.version = challenge.version
  written : after = before.set { stored with
    status := challenge.status, consumedAt := challenge.consumedAt, version := stored.version + 1 }

private theorem updateChallenge_inv {challenges next : ChallengeTable}
    {challenge : VerificationChallenge} {also : ChallengeRow → Bool}
    (done : updateChallenge challenges challenge also = .ok next) :
    ∃ stored, also stored = true ∧ Spending challenges next challenge stored := by
  obtain ⟨stored, found, matched, written⟩ := updateVersioned_inv done
  simp only [Bool.and_eq_true, decide_eq_true_eq] at matched
  exact ⟨stored, matched.1, found, matched.2, written⟩

private theorem updateIdentity_inv {row next : IdentityState} {identity : Identity}
    (done : updateIdentity row identity = .ok next) :
    next.id = row.id ∧ next.status = identity.status := by
  simp only [updateIdentity, refuse_ok, Except.ok.injEq] at done
  obtain ⟨_, _, _, rfl⟩ := done
  exact ⟨rfl, rfl⟩

namespace AccountDatabase

/-- An accepted login found the credential as it was read, and its session is
the only one that became active. -/
structure Opened (before after : AccountDatabase Work) (input : SessionCommit Work) : Prop where
  credential : after.credential = before.credential
  identity : after.identity = before.identity
  challenges : after.challenges = before.challenges
  unchanged : before.credential.updatedAt = input.credential.updatedAt
  sessions : ∃ evicted : SessionTable, NoneActivated before.sessions evicted ∧
    evicted.get input.session.id = none ∧ after.sessions = evicted.set
      ⟨{ input.session.toSessionState with version := FIRST }, input.tokenDigest⟩

theorem openSession_inv {database next : AccountDatabase Work} {input : SessionCommit Work}
    (revoked : ∀ eviction ∈ input.evicted, eviction.session.status = .revoked)
    (done : database.openSession input = .ok next) : Opened database next input := by
  obtain ⟨_, _, done⟩ := bind_ok done
  split at done
  · rename_i unchanged
    obtain ⟨⟨evicted, _⟩, evict, done⟩ := bind_ok done
    obtain ⟨sessions, insert, done⟩ := bind_ok done
    obtain ⟨_, _, done⟩ := bind_ok done
    cases pure_eq_ok.mp done
    have none := (evictAll_step revoked evict False).noneActivated
    simp only [insertSession, refuse_ok, Except.ok.injEq, not_or] at insert
    obtain ⟨⟨fresh, _⟩, rfl⟩ := insert
    exact ⟨rfl, rfl, rfl, unchanged.2.2, evicted, none, by simpa using fresh, rfl⟩
  · cases done

/-- An accepted reset found the credential as it was read, spent a reset
challenge and left no active session. -/
structure Replaced (before after : AccountDatabase Work) (input : ResetCommit Work) : Prop where
  credential : after.credential = { before.credential with
    passwordHash := input.passwordHash, updatedAt := input.credential.updatedAt }
  unchanged : before.credential.updatedAt = input.previousUpdatedAt
  challenge : ∃ stored, stored.purpose = .passwordReset ∧
    Spending before.challenges after.challenges input.challenge stored
  identity : after.identity = before.identity ∨ ∃ identity, input.identity = some identity ∧
    after.identity.id = before.identity.id ∧ after.identity.status = identity.status
  sessions : NoneActivated before.sessions after.sessions
  survivors : ∀ row ∈ after.sessions.rows, row.identityId = input.credential.identityId →
    row.status ≠ .active

private theorem verifyAlong_inv {row next : IdentityState} {identity : Option Identity}
    (done : verifyAlong row identity = .ok next) :
    next = row ∨ ∃ verified, identity = some verified ∧ next.id = row.id ∧
      next.status = verified.status := by
  cases identity with
  | none => exact .inl (Except.ok.inj done).symm
  | some verified => exact .inr ⟨verified, rfl, updateIdentity_inv done⟩

theorem resetPassword_inv {database next : AccountDatabase Work} {input : ResetCommit Work}
    (revoked : ∀ eviction ∈ input.revoked, eviction.session.status = .revoked)
    (done : database.resetPassword input = .ok next) : Replaced database next input := by
  obtain ⟨_, _, done⟩ := bind_ok done
  split at done
  · rename_i unchanged
    obtain ⟨challenges, spend, done⟩ := bind_ok done
    obtain ⟨identity, along, done⟩ := bind_ok done
    obtain ⟨sessions, ended, done⟩ := bind_ok done
    split at done
    · cases done
    · rename_i survivors
      obtain ⟨outbox, _, done⟩ := bind_ok done
      cases pure_eq_ok.mp done
      obtain ⟨stored, purpose, spending⟩ := updateChallenge_inv spend
      have ended := (revokeAll_step (by simpa using revoked) ended False).noneActivated
      refine ⟨rfl, unchanged.2.2, ⟨stored, by simpa using purpose, spending⟩,
        verifyAlong_inv along, ended, ?_⟩
      intro row member owned active
      exact survivors (List.any_eq_true.mpr ⟨row, member, by simp [owned, active]⟩)
  · cases done

/-- An accepted verification spent a challenge of the identity it verified. -/
structure Verified (before after : AccountDatabase Work) (input : VerificationCommit Work) : Prop where
  credential : after.credential = before.credential
  sessions : after.sessions = before.sessions
  challenge : ∃ stored, Spending before.challenges after.challenges input.challenge stored
  identity : after.identity.id = before.identity.id ∧ after.identity.status = input.identity.status

theorem verifyIdentity_inv {database next : AccountDatabase Work} {input : VerificationCommit Work}
    (done : database.verifyIdentity input = .ok next) : Verified database next input := by
  obtain ⟨_, _, done⟩ := bind_ok done
  obtain ⟨identity, verified, done⟩ := bind_ok done
  obtain ⟨challenges, spend, done⟩ := bind_ok done
  obtain ⟨outbox, _, done⟩ := bind_ok done
  cases pure_eq_ok.mp done
  obtain ⟨stored, _, spending⟩ := updateChallenge_inv spend
  exact ⟨rfl, rfl, ⟨stored, spending⟩, updateIdentity_inv verified⟩

theorem endSession_inv {database next : AccountDatabase Work} {input : RevocationCommit Work}
    (revoked : input.session.status = .revoked) (done : database.endSession input = .ok next) :
    next.credential = database.credential ∧ next.identity = database.identity ∧
      next.challenges = database.challenges ∧ NoneActivated database.sessions next.sessions := by
  obtain ⟨_, _, done⟩ := bind_ok done
  obtain ⟨sessions, ended, done⟩ := bind_ok done
  obtain ⟨outbox, _, done⟩ := bind_ok done
  cases pure_eq_ok.mp done
  exact ⟨rfl, rfl, rfl, (revokeSession_step revoked ended False).noneActivated⟩

theorem issueChallenge_inv {database next : AccountDatabase Work} {input : ChallengeCommit Work}
    (done : database.issueChallenge input = .ok next) :
    next.credential = database.credential ∧ next.identity = database.identity ∧
      next.sessions = database.sessions ∧ ∃ row, row.id = input.challenge.id ∧
        database.challenges.get row.id = none ∧ next.challenges = database.challenges.set row := by
  obtain ⟨_, _, done⟩ := bind_ok done
  split at done
  · cases done
  · rename_i fresh
    obtain ⟨outbox, _, done⟩ := bind_ok done
    cases pure_eq_ok.mp done
    exact ⟨rfl, rfl, rfl, _, rfl, fresh, rfl⟩

omit [DecidableEq Work] in
theorem recordActivity_step (database : AccountDatabase Work) (sessionId : ID) (time : Int) :
    SessionsStep False database.sessions (database.recordActivity sessionId time).sessions [] := by
  have same : ∀ row, (seenAt sessionId time row).identityId = row.identityId ∧
      (seenAt sessionId time row).status = row.status ∧
      (seenAt sessionId time row).version = row.version := by
    intro row
    unfold seenAt
    split <;> exact ⟨rfl, rfl, rfl⟩
  constructor
  · intro row member
    obtain ⟨owner, status, version⟩ := same row
    refine ⟨_, List.mem_map_of_mem member, seenAt_id sessionId time row, owner, .inr ?_⟩
    exact ⟨status, version, False.elim⟩
  · intro row member
    obtain ⟨old, present, rfl⟩ := List.mem_map.mp member
    exact .inr ⟨old, present, (seenAt_id sessionId time old).symm⟩

omit [DecidableEq Work] in
theorem recordActivity_none (database : AccountDatabase Work) (sessionId : ID) (time : Int) :
    NoneActivated database.sessions (database.recordActivity sessionId time).sessions :=
  (database.recordActivity_step sessionId time).noneActivated

omit [DecidableEq Work] in
theorem pruneSessions_none (database : AccountDatabase Work) (endedBefore idleBefore : Int)
    (selected : ID → Bool) : NoneActivated database.sessions
      (database.pruneSessions endedBefore idleBefore selected).sessions := by
  intro row member active
  exact ⟨row, List.mem_of_mem_filter member, rfl, rfl, active⟩

end AccountDatabase

end N2FNest.Identities
