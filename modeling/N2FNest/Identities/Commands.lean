import N2FNest.Identities.Postgres
import N2FNest.Lib.Run

/-! The commands of Identity over PostgreSQL. Each read and each commit of a call
is one atomic step, so the steps of any number of calls interleave freely. -/

namespace N2FNest.Identities

open Events Lib Shared

def dependencyFailure : Failure → Failure := reportDependency "Identity" "identity" [
  (.conflict, ["identity.already_exists", "identity.email_taken",
    "identity.session_already_exists", "identity.challenge_already_exists", "identity.stale_write"]),
  (.invalid, ["identity.password_too_short", "identity.password_too_long",
    "identity.invalid_session_expiry", "identity.invalid_verification_expiry"]),
  (.notFound, ["identity.not_found", "identity.verification_not_found",
    "identity.session_not_found"]),
  (.unavailable, ["identity.incomplete_state"])]

def idGenerationFailure (_ : Failure) : Failure :=
  failure .unavailable "Identity ID generation failed" "identity.id_generation"

def invalidCredentials : Failure :=
  failure .unauthenticated "credentials are invalid" "identity.invalid_credentials"

def invalidLink : Failure :=
  failure .unauthenticated "reset link is invalid" "identity.invalid_verification_token"

def invalidToken : Failure :=
  failure .unauthenticated "verification token is invalid" "identity.invalid_verification_token"

def PASSWORD_MAX_LENGTH : Nat := 1024

/-- What a deployment fixes: the language's lower casing, the password and token
functions of the crypto adapters, and the session policy. -/
structure Host where
  toLowerCase : JsString → JsString
  verifyPassword : JsString → JsString → Bool
  verifyToken : JsString → JsString → Bool
  digestToken : JsString → JsString
  idleTimeoutMs : Int
  maxActivePerIdentity : Nat

/-- What a step takes from outside: the clock, generated ids and tokens, the
answers of the policies, and a failure of the verifier or of the database. -/
structure Choices where
  clock : JsDate
  expiresAt : Except Failure JsDate
  newId : Nat → Except Failure ID
  envelope : Nat → Except Failure Unit
  token : Except Failure (JsString × JsString)
  passwordPolicy : Except Failure Unit
  passwordHash : Except Failure JsString
  verifier : Option Failure
  fault : Option Failure

inductive Command (Work : Type) where
  | authenticate (email : JsValue) (password : JsString) (work : Work)
  | confirmPasswordReset (challengeId : ID) (token password : JsString) (work : Work)
  | verify (challengeId : ID) (token : JsString) (work : Work)
  | revokeSession (sessionToken : JsString) (work : Work)

inductive Outcome where
  | authenticated (identityId sessionId : ID) (token : JsString) (expiresAt : Int)
  | passwordReset (identityId : ID) (verified : Bool) (sessionsRevoked : Nat)
  | verified (identityId : ID) (status : IdentityStatus)
  | sessionRevoked (sessionId : Option ID) (revoked : Bool)

variable {Work : Type}

/-- An event about an identity, under the next generated id. -/
def identityEvent (choices : Choices) (index : Nat) (type : String) (time : Int) (work : Work)
    (payload : JsObject) (identityId : ID) : Except Failure (Envelope Work) := do
  let eventId ← (choices.newId index).mapError idGenerationFailure
  (choices.envelope index).mapError dependencyFailure
  return {
    id := eventId
    type := js type
    occurredAtMs := time
    work := work
    payload := payload
    subject := some ⟨js "identity", identityId⟩
    tenant := none }

private def text (id : ID) : JsValue := .string id.text

private def time (value : Int) : JsValue := .number (.finite value)

/-- Revoke each session with its event, in order; the first refusal ends it. -/
def revokeEach (choices : Choices) (reason : String) (instant : JsDate) (occurredAt : Int)
    (work : Work) (identityId : Session → ID) :
    Nat → List Session → Except Failure (List (SessionEviction Work))
  | _, [] => .ok []
  | index, session :: rest => do
    let revoked ← session.revoke instant
    let event ← identityEvent choices index "identity.session.revoked.v1" occurredAt work
      [(js "identity_id", text (identityId session)), (js "session_id", text session.id),
        (js "status", .string (js "revoked")), (js "reason", .string (js reason))]
      (identityId session)
    let later ← revokeEach choices reason instant occurredAt work identityId (index + 1) rest
    return ⟨revoked, event⟩ :: later

/-- A login whose password was accepted: the record it read, and what it is
about to store. -/
structure Login (Work : Type) where
  password : JsString
  record : CredentialAuthenticationRecord
  session : Session
  token : JsString
  tokenDigest : JsString
  event : Envelope Work
  work : Work

def Login.commit (login : Login Work) (evicted : List (SessionEviction Work)) :
    SessionCommit Work where
  session := login.session
  credential := login.record.credential
  tokenDigest := login.tokenDigest
  event := login.event
  evicted := evicted
  work := login.work

namespace AuthenticateIdentity

/-- Up to the read of the active sessions. A decoy is verified where there is no
credential, so only the verifier's own failure shows. -/
def authenticate (host : Host) (database : AccountDatabase Work) (choices : Choices)
    (email : JsValue) (password : JsString) (work : Work) : Except Failure (Login Work) := do
  if PASSWORD_MAX_LENGTH < password.length then throw invalidCredentials
  else
    let email ← (normalizeEmail host.toLowerCase email).mapError fun _ => invalidCredentials
    let found ← (orFault choices.fault (database.findByEmail host.toLowerCase email)).mapError
      dependencyFailure
    (orFault choices.verifier (.ok ())).mapError dependencyFailure
    match found with
    | none => throw invalidCredentials
    | some record =>
      if host.verifyPassword password record.passwordHash = false ∨ record.identity.status ≠ .active ∨
          record.credential.status ≠ .active then throw invalidCredentials
      else
        let expiresAt ← choices.expiresAt.mapError dependencyFailure
        let sessionId ← (choices.newId 0).mapError idGenerationFailure
        let session ← Session.create sessionId record.identity.id choices.clock expiresAt
        let (token, tokenDigest) ← choices.token.mapError dependencyFailure
        let event ← identityEvent choices 1 "identity.session.created.v1" session.createdAt work
          [(js "identity_id", text record.identity.id), (js "credential_id", text record.credential.id),
            (js "session_id", text session.id), (js "expires_at_ms", time session.expiresAt)]
          record.identity.id
        return ⟨password, record, session, token, tokenDigest, event, work⟩

/-- The sessions this login revokes to keep the cap: the oldest usable ones. -/
def evictions (host : Host) (choices : Choices) (created : Session) (work : Work)
    (active : List Session) : Except Failure (List (SessionEviction Work)) :=
  let usable := active.filter fun candidate =>
    (candidate.assertUsable (some created.createdAt) host.idleTimeoutMs).isOk
  let ordered := usable.insertionSort fun left right => right.createdAt ≤ left.createdAt
  revokeEach choices "session_limit" (some created.createdAt) created.createdAt work
    (fun session => session.identityId) 0 (ordered.drop (host.maxActivePerIdentity - 1))

end AuthenticateIdentity

/-- A reset whose link was accepted. -/
structure ResetLink (Work : Type) where
  consumed : VerificationChallenge
  instant : JsDate
  occurredAt : Int
  work : Work

/-- A reset that has read the account it is for. -/
structure ResetAccount (Work : Type) extends ResetLink Work where
  identity : Identity
  credential : Credential
  changed : Credential
  verified : Option Identity
  passwordHash : JsString

namespace ConfirmPasswordReset

def readChallenge (host : Host) (database : AccountDatabase Work) (choices : Choices)
    (challengeId : ID) (token : JsString) (work : Work) : Except Failure (ResetLink Work) := do
  choices.passwordPolicy.mapError dependencyFailure
  let found ← (orFault choices.fault (database.findChallenge challengeId)).mapError dependencyFailure
  match found with
  | none => throw invalidLink
  | some record =>
    if record.challenge.purpose ≠ .passwordReset then throw invalidLink
    else
      (orFault choices.verifier (.ok ())).mapError dependencyFailure
      if host.verifyToken token record.tokenDigest = false then throw invalidLink
      else
        let consumed ← (record.challenge.consume choices.clock).mapError fun _ => invalidLink
        return ⟨consumed, choices.clock, choices.clock.getD 0, work⟩

/-- A pending identity is verified along with the reset. -/
def verifyPending (identity : Identity) (instant : JsDate) : Except Failure (Option Identity) :=
  if identity.status = .pendingVerification then (identity.verify instant).map some else .ok none

def readAccount (host : Host) (database : AccountDatabase Work) (choices : Choices)
    (link : ResetLink Work) : Except Failure (ResetAccount Work) := do
  let found ← (orFault choices.fault
    (database.findByIdentity host.toLowerCase link.consumed.identityId)).mapError dependencyFailure
  match found with
  | none => throw invalidLink
  | some record =>
    if record.identity.status ≠ .active ∧ record.identity.status ≠ .pendingVerification then
      throw invalidLink
    else
      let changed ← record.credential.changeSecret link.instant
      let verified ← verifyPending record.identity link.instant
      let passwordHash ← choices.passwordHash.mapError dependencyFailure
      return ⟨link, record.identity, record.credential, changed, verified, passwordHash⟩

/-- The events of the reset itself; `index` counts the ids already drawn. -/
def events (choices : Choices) (account : ResetAccount Work) (index revoked : Nat) :
    Except Failure (List (Envelope Work)) := do
  let identityId := account.identity.id
  let event (index : Nat) (type : String) (payload : JsObject) :=
    identityEvent choices index type account.occurredAt account.work payload identityId
  let reset ← event index "identity.password.reset.v1"
    [(js "identity_id", text identityId), (js "credential_id", text account.credential.id),
      (js "challenge_id", text account.consumed.id), (js "sessions_revoked", time revoked)]
  match account.verified with
  | none => return [reset]
  | some verified =>
    let verification ← event (index + 1) "identity.verified.v1"
      [(js "identity_id", text identityId), (js "challenge_id", text account.consumed.id),
        (js "purpose", .string (js account.consumed.purpose.name)),
        (js "status", .string (js verified.status.name))]
    return [reset, verification]

/-- Revoke the sessions that were listed and put the commit together. -/
def prepare (choices : Choices) (account : ResetAccount Work) (active : List Session) :
    Except Failure (ResetCommit Work) := do
  let revoked ← revokeEach choices "password_reset" account.instant account.occurredAt account.work
    (fun _ => account.identity.id) 0 active
  let events ← events choices account active.length revoked.length
  return {
    challenge := account.consumed
    credential := account.changed
    previousUpdatedAt := account.credential.updatedAt
    passwordHash := account.passwordHash
    identity := account.verified
    revoked := revoked
    events := events ++ revoked.map SessionEviction.event
    work := account.work }

end ConfirmPasswordReset

namespace VerifyIdentity

/-- A password-reset challenge proves the same mailbox but authorizes a
different act; it is not a verification challenge. -/
def readChallenge (host : Host) (database : AccountDatabase Work) (choices : Choices)
    (challengeId : ID) (token : JsString) : Except Failure VerificationChallenge := do
  let found ← (orFault choices.fault (database.findChallenge challengeId)).mapError dependencyFailure
  match found with
  | none => throw verificationNotFound
  | some record =>
    if record.challenge.purpose ≠ .emailVerification then throw verificationNotFound
    else
      (orFault choices.verifier (.ok ())).mapError dependencyFailure
      if host.verifyToken token record.tokenDigest = false then throw invalidToken
      else return record.challenge

def readIdentity (database : AccountDatabase Work) (choices : Choices)
    (challenge : VerificationChallenge) (work : Work) :
    Except Failure (VerificationCommit Work) := do
  let found ← (orFault choices.fault (database.findIdentity challenge.identityId)).mapError
    dependencyFailure
  match found with
  | none => throw identityNotFound
  | some identity =>
    let consumed ← challenge.consume choices.clock
    let verified ← identity.verify choices.clock
    let event ← identityEvent choices 0 "identity.verified.v1" verified.updatedAt work
      [(js "identity_id", text verified.id), (js "challenge_id", text consumed.id),
        (js "purpose", .string (js consumed.purpose.name)),
        (js "status", .string (js verified.status.name))]
      verified.id
    return ⟨verified, consumed, event, work⟩

end VerifyIdentity

namespace RevokeSession

/-- The commit to make, or the result where there is nothing to revoke. -/
def readSession (host : Host) (database : AccountDatabase Work) (choices : Choices)
    (sessionToken : JsString) (work : Work) :
    Except Failure (RevocationCommit Work ⊕ Outcome) := do
  let found ← (orFault choices.fault
    (database.findByToken (host.digestToken sessionToken))).mapError dependencyFailure
  match found with
  | none => return .inr (.sessionRevoked none false)
  | some session =>
    if session.status = .revoked then return .inr (.sessionRevoked (some session.id) false)
    else
      let revoked ← session.revoke choices.clock
      let event ← identityEvent choices 0 "identity.session.revoked.v1" (choices.clock.getD 0) work
        [(js "identity_id", text revoked.identityId), (js "session_id", text revoked.id),
          (js "status", .string (js "revoked"))]
        revoked.identityId
      return .inl ⟨revoked, event, work⟩

end RevokeSession

/-- Where a call stands between two of its steps. -/
inductive Call (Work : Type) where
  | idle
  | requested (command : Command Work)
  | authenticated (login : Login Work)
  | opening (login : Login Work) (evicted : List (SessionEviction Work))
  | confirming (link : ResetLink Work)
  | resetting (account : ResetAccount Work)
  | replacing (input : ResetCommit Work)
  | verifying (challenge : VerificationChallenge) (work : Work)
  | activating (input : VerificationCommit Work)
  | revoking (input : RevocationCommit Work)
  | returned (result : Except Failure Outcome)

namespace Call

/-- The next phase, or the failure that ends the call. -/
def attempt : Except Failure (Call Work) → Call Work
  | .ok next => next
  | .error error => .returned (.error error)

/-- The first read of a command. -/
def first (host : Host) (database : AccountDatabase Work) (choices : Choices) :
    Command Work → Except Failure (Call Work)
  | .authenticate email password work => do
    return .authenticated
      (← AuthenticateIdentity.authenticate host database choices email password work)
  | .confirmPasswordReset challengeId token _ work => do
    return .confirming
      (← ConfirmPasswordReset.readChallenge host database choices challengeId token work)
  | .verify challengeId token work => do
    return .verifying (← VerifyIdentity.readChallenge host database choices challengeId token) work
  | .revokeSession sessionToken work => do
    match ← RevokeSession.readSession host database choices sessionToken work with
    | .inl input => return .revoking input
    | .inr outcome => return .returned (.ok outcome)

/-- The read that follows another read. -/
def next (host : Host) (database : AccountDatabase Work) (choices : Choices) :
    Call Work → Except Failure (Call Work)
  | .requested command => first host database choices command
  | .authenticated login => do
    let active ← (orFault choices.fault (database.listActive login.session.identityId)).mapError
      dependencyFailure
    return .opening login
      (← AuthenticateIdentity.evictions host choices login.session login.work active)
  | .confirming link => do
    return .resetting (← ConfirmPasswordReset.readAccount host database choices link)
  | .resetting account => do
    let active ← (orFault choices.fault (database.listActive account.identity.id)).mapError
      dependencyFailure
    return .replacing (← ConfirmPasswordReset.prepare choices account active)
  | .verifying challenge work => do
    return .activating (← VerifyIdentity.readIdentity database choices challenge work)
  | call => .ok call

variable [DecidableEq Work]

/-- The transaction a call is about to make, with the outcome it then reports. -/
def commit (database : AccountDatabase Work) :
    Call Work → Option (Except Failure (AccountDatabase Work) × Outcome)
  | .opening login evicted => some (database.openSession (login.commit evicted),
      .authenticated login.record.identity.id login.session.id login.token login.session.expiresAt)
  | .replacing input => some (database.resetPassword input,
      .passwordReset input.credential.identityId input.identity.isSome input.revoked.length)
  | .activating input => some (database.verifyIdentity input,
      .verified input.identity.id input.identity.status)
  | .revoking input => some (database.endSession input, .sessionRevoked (some input.session.id) true)
  | _ => none

/-- One atomic step of a call, and the database after it. -/
def advance (host : Host) (database : AccountDatabase Work) (choices : Choices) (call : Call Work) :
    Call Work × AccountDatabase Work :=
  match call.commit database with
  | none => (attempt (call.next host database choices), database)
  | some (result, outcome) => match orFault choices.fault result with
    | .ok after => (.returned (.ok outcome), after)
    | .error error => (.returned (.error (dependencyFailure error)), database)

end Call

/-- The password a login presented, and the hash it was verified against. -/
structure Opening where
  password : JsString
  passwordHash : JsString

/-- `openedBy` is a history: the login whose commit last inserted a session under
an id. No step reads it. -/
structure AccountState (Work : Type) where
  database : AccountDatabase Work
  calls : Nat → Call Work
  openedBy : ID → Option Opening

inductive Label (Work : Type) where
  | request (caller : Nat) (command : Command Work)
  | advance (caller : Nat) (choices : Choices)
  | issue (id : ID) (purpose : VerificationPurpose) (issuedAt expiresAt : JsDate)
      (tokenDigest : JsString) (event : Envelope Work) (work : Work) (fault : Option Failure)
  | record (sessionId : ID) (time : Int)
  | prune (endedBefore idleBefore : Int) (selected : ID → Bool)

namespace AccountState

/-- A registered account before its first call. -/
def registered (identity : IdentityState) (credential : CredentialRow)
    (challenges : ChallengeTable) (outbox : EventLog Work) : AccountState Work where
  database := ⟨identity, credential, Table.empty, challenges, outbox⟩
  calls := fun _ => .idle
  openedBy := fun _ => none

/-- The history after a call moved from `before` to `after`. -/
def opened (openedBy : ID → Option Opening) : Call Work → Call Work → ID → Option Opening
  | .opening login _, .returned (.ok _) =>
    Function.update openedBy login.session.id (some ⟨login.password, login.record.passwordHash⟩)
  | _, _ => openedBy

variable [DecidableEq Work]

def step (host : Host) (state : AccountState Work) : Label Work → AccountState Work
  | .request caller command => match state.calls caller with
    | .idle => { state with calls := Function.update state.calls caller (.requested command) }
    | _ => state
  | .advance caller choices =>
    let call := state.calls caller
    let (after, database) := call.advance host state.database choices
    { database := database
      calls := Function.update state.calls caller after
      openedBy := opened state.openedBy call after }
  | .issue id purpose issuedAt expiresAt tokenDigest event work fault =>
    let issued := do
      let challenge ← VerificationChallenge.issue id state.database.identity.id purpose issuedAt
        expiresAt
      orFault fault (state.database.issueChallenge ⟨challenge, tokenDigest, event, work⟩)
    match issued with
    | .ok database => { state with database := database }
    | .error _ => state
  | .record sessionId time =>
    { state with database := state.database.recordActivity sessionId time }
  | .prune endedBefore idleBefore selected =>
    { state with database := state.database.pruneSessions endedBefore idleBefore selected }

/-- A step of a call reads, is refused, or makes its commit. Only the last
changes the database. -/
theorem advance_cases (host : Host) (state : AccountState Work) (caller : Nat) (choices : Choices) :
    (state.calls caller).commit state.database = none ∧
        state.step host (.advance caller choices) = { state with
          calls := Function.update state.calls caller
            (Call.attempt ((state.calls caller).next host state.database choices)) } ∨
      (∃ error, state.step host (.advance caller choices) = { state with
          calls := Function.update state.calls caller (.returned (.error error)) }) ∨
      ∃ database outcome, (state.calls caller).commit state.database = some (.ok database, outcome) ∧
        state.step host (.advance caller choices) = {
          database := database
          calls := Function.update state.calls caller (.returned (.ok outcome))
          openedBy := opened state.openedBy (state.calls caller) (.returned (.ok outcome)) } := by
  cases commits : (state.calls caller).commit state.database with
  | none =>
    refine .inl ⟨rfl, ?_⟩
    simp only [step, Call.advance, commits]
    -- a call that has nothing to commit is not opening a session
    have history : ∀ after, opened state.openedBy (state.calls caller) after = state.openedBy := by
      intro after
      cases here : state.calls caller with
      | opening login evicted => simp [here, Call.commit] at commits
      | _ => rfl
    rw [history]
  | some made =>
    obtain ⟨result, outcome⟩ := made
    simp only [step, Call.advance, commits]
    cases done : orFault choices.fault result with
    | error error =>
      refine .inr (.inl ⟨dependencyFailure error, ?_⟩)
      have history : opened state.openedBy (state.calls caller)
          (.returned (.error (dependencyFailure error))) = state.openedBy := by
        cases state.calls caller <;> rfl
      rw [history]
    | ok database => exact .inr (.inr ⟨database, outcome, by rw [orFault_ok done], rfl⟩)

end AccountState

end N2FNest.Identities
