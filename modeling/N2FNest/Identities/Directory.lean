import N2FNest.Identities.Commands
import N2FNest.Identities.CurrentIdentity
import N2FNest.Lib.Script
import N2FNest.Shared.Text

/-! The accounts of all identities in PostgreSQL, and what one awaited operation of a
request without a session does with them. -/

namespace N2FNest.Identities

open Events Lib Shared

abbrev IdentityTable := Table (fun row : IdentityState => row.id)

abbrev CredentialTable := Table (fun row : CredentialRow => row.id)

/-- What the mailer is given. -/
inductive Mail where
  | verification (address : JsString) (challengeId : ID) (token : JsString) (expiresAt : Int)
  | accountExists (address : JsString)
  | passwordReset (address : JsString) (challengeId : ID) (token : JsString) (expiresAt : Int)

/-- The message's `to`. -/
def Mail.address : Mail → JsString
  | .verification address _ _ _ | .accountExists address | .passwordReset address _ _ _ => address

structure Directory (Work : Type) where
  identities : IdentityTable
  credentials : CredentialTable
  sessions : SessionTable
  challenges : ChallengeTable
  outbox : EventLog Work
  mails : List Mail

def emailTaken : Failure :=
  failure .conflict "email is already registered" "identity.email_taken"

def alreadyExists : Failure :=
  failure .conflict "identity already exists" "identity.already_exists"

def databaseConflict : Failure :=
  failure .conflict "database operation failed" "database.conflict"

/-- The input of `PostgresRegistrationWriter.commit`. -/
structure RegistrationCommit (Work : Type) where
  identity : Identity
  credential : Credential
  passwordHash : JsString
  event : Envelope Work
  work : Work

/-- `Identity.register`. -/
def Identity.register (id : ID) (createdAt : Int) : Identity where
  id := id
  status := .pendingVerification
  createdAt := createdAt
  updatedAt := createdAt
  verifiedAt := none
  version := UNSAVED
  time := Int.le_refl createdAt
  verification := ⟨fun _ => rfl, fun pending => absurd rfl pending⟩

/-- `Credential.createEmailPassword`. -/
def Credential.createEmailPassword (toLowerCase : JsString → JsString) (id identityId : ID)
    (email : JsValue) (createdAt : Int) : Except Failure Credential := do
  let email ← normalizeEmail toLowerCase email
  return {
    id := id
    identityId := identityId
    email := email
    status := .active
    createdAt := createdAt
    updatedAt := createdAt
    revokedAt := none
    time := Int.le_refl createdAt
    revocation := by simp }

variable {Work : Type}

namespace Directory

/-- `PostgresIdentityReader.find`. -/
def findIdentity (directory : Directory Work) (id : ID) : Except Failure (Option Identity) :=
  match directory.identities.get id with
  | none => .ok none
  | some row => (Identity.restore row).map some

/-- `PostgresCredentialAuthenticatorReader.findByEmail`: the active credential of an email,
joined with its identity. -/
def findByEmail (toLowerCase : JsString → JsString) (directory : Directory Work) (email : JsString) :
    Except Failure (Option CredentialAuthenticationRecord) :=
  match email.asColumn with
  | none => .error databaseFailed
  | some stored =>
    let joined := directory.credentials.rows.findSome? fun row =>
      if row.email = stored ∧ row.status = .active then
        (directory.identities.get row.identityId).map fun identity => (identity, row)
      else none
    match joined with
    | none => .ok none
    | some (state, row) => do
      let identity ← Identity.restore state
      let credential ← Credential.restore toLowerCase row.toCredentialState
      return some ⟨identity, credential, row.passwordHash⟩

/-- `PostgresActiveSessionReader.listActive`. -/
def listActive (directory : Directory Work) (identityId : ID) : Except Failure (List Session) :=
  let rows := directory.sessions.rows.filter fun row =>
    row.identityId = identityId ∧ row.status = .active
  (rows.mergeSort fun left right => right.createdAt < left.createdAt ∨
    right.createdAt = left.createdAt ∧ right.id.text.units ≤ left.id.text.units).mapM fun row =>
      Session.restore row.toSessionState

variable [DecidableEq Work]

/-- The statements of `PostgresRegistrationWriter.commit`. -/
def register (directory : Directory Work) (input : RegistrationCommit Work) :
    Except Failure (Directory Work) := do
  assertEventWork input.event input.work
  if (directory.identities.get input.identity.id).isSome then throw alreadyExists
  else match input.credential.email.asColumn with
    | none => throw databaseFailed
    | some email =>
      if directory.credentials.rows.any fun row => row.email = email then throw emailTaken
      else if (directory.credentials.get input.credential.id).isSome then throw databaseConflict
      else
        let outbox ← EventLog.enqueue directory.outbox input.event
        return { directory with
          identities := directory.identities.set { input.identity.toIdentityState with version := FIRST }
          credentials := directory.credentials.set
            ⟨{ input.credential.toCredentialState with email := email }, input.passwordHash⟩
          outbox := outbox }

/-- The statements of `PostgresVerificationChallengeWriter.commit`. -/
def issueChallenge (directory : Directory Work) (input : ChallengeCommit Work) :
    Except Failure (Directory Work) := do
  assertEventWork input.event input.work
  match directory.challenges.get input.challenge.id with
  | some _ => throw challengeExists
  | none =>
    let outbox ← EventLog.enqueue directory.outbox input.event
    return { directory with
      challenges := directory.challenges.set
        ⟨{ input.challenge.toChallengeState with version := FIRST }, input.tokenDigest⟩
      outbox := outbox }

/-- The statements of `PostgresSessionWriter.commit`. -/
def openSession (directory : Directory Work) (input : SessionCommit Work) :
    Except Failure (Directory Work) := do
  (input.event :: input.evicted.map SessionEviction.event).forM (assertEventWork · input.work)
  let unchanged := (directory.credentials.get input.credential.id).any fun row =>
    row.status = .active ∧ row.updatedAt = input.credential.updatedAt
  if unchanged = false then throw staleWrite
  else
    let (sessions, outbox) ← evictAll (directory.sessions, directory.outbox) input.evicted
    let sessions ← insertSession sessions input.session input.tokenDigest
    let outbox ← EventLog.enqueue outbox input.event
    return { directory with sessions := sessions, outbox := outbox }

end Directory

def PASSWORD_MIN_LENGTH : Nat := 8

/-- `DefaultPasswordPolicy.validate`. -/
def validatePassword (password : JsString) : Except Failure Unit :=
  if password.length < PASSWORD_MIN_LENGTH then
    .error (failure .invalid "password must be at least 8 characters" "identity.password_too_short")
  else if PASSWORD_MAX_LENGTH < password.length then
    .error (failure .invalid "password must be at most 1024 characters" "identity.password_too_long")
  else .ok ()

/-- `FixedDurationPolicy.expiresAt` of a valid start. -/
def fixedDuration (durationMs : Int) (type label : String) (start : Int) : Except Failure JsDate :=
  if -9007199254740991 ≤ start + durationMs ∧ start + durationMs ≤ 9007199254740991 then
    .ok (timeClip (start + durationMs))
  else .error (failure .invalid (label ++ " start time is invalid") type)

/-- `DefaultVerificationPolicy`: a day. -/
def verificationExpiry : Int → Except Failure JsDate :=
  fixedDuration (24 * 60 * 60 * 1000) "identity.invalid_verification_expiry" "verification"

/-- `DefaultPasswordResetPolicy`: an hour. -/
def passwordResetExpiry : Int → Except Failure JsDate :=
  fixedDuration (60 * 60 * 1000) "identity.invalid_verification_expiry" "password reset"

/-- What a request awaits. The clock, the generator and the envelope's checks answer at
once; here other requests may come between. -/
inductive AccountOp (Work : Type) where
  | now
  | newId
  | envelope (event : Envelope Work)
  | hashPassword (password : JsString)
  | verifyPassword (password passwordHash : JsString)
  | verifyDecoy (password : JsString)
  | issueToken
  | findByEmail (email : JsString)
  | findIdentity (id : ID)
  | listActive (identityId : ID)
  | commitRegistration (input : RegistrationCommit Work)
  | commitChallenge (input : ChallengeCommit Work)
  | commitSession (input : SessionCommit Work)
  | send (mail : Mail)

@[reducible] def AccountOp.Answer : AccountOp Work → Type
  | .now => Int
  | .newId => Except Failure ID
  | .envelope _ => Except Failure Unit
  | .hashPassword _ => Except Failure JsString
  | .verifyPassword _ _ | .verifyDecoy _ => Except Failure Bool
  | .issueToken => Except Failure (JsString × JsString)
  | .findByEmail _ => Except Failure (Option CredentialAuthenticationRecord)
  | .findIdentity _ => Except Failure (Option Identity)
  | .listActive _ => Except Failure (List Session)
  | .commitRegistration _ | .commitChallenge _ | .commitSession _ | .send _ => Except Failure Unit

/-- What one operation takes from outside. -/
structure Supply where
  now : Int
  newId : Except Failure ID
  envelope : Except Failure Unit
  passwordHash : Except Failure JsString
  verifier : Option Failure
  token : Except Failure (JsString × JsString)
  fault : Option Failure
  mailer : Except Failure Unit

variable [DecidableEq Work]

/-- A transaction answers with its failure, or takes effect. -/
def commitTo (directory : Directory Work) (outcome : Except Failure (Directory Work)) :
    Except Failure Unit × Directory Work :=
  match outcome with
  | .ok next => (.ok (), next)
  | .error error => (.error error, directory)

def Directory.perform (host : Host) (directory : Directory Work) :
    (op : AccountOp Work) → Supply → op.Answer × Directory Work
  | .now, supply => (supply.now, directory)
  | .newId, supply => (supply.newId, directory)
  | .envelope _, supply => (supply.envelope, directory)
  | .hashPassword _, supply => (supply.passwordHash, directory)
  | .verifyPassword password passwordHash, supply =>
    (orFault supply.verifier (.ok (host.verifyPassword password passwordHash)), directory)
  | .verifyDecoy _, supply => (orFault supply.verifier (.ok false), directory)
  | .issueToken, supply => (supply.token, directory)
  | .findByEmail email, supply =>
    (orFault supply.fault (directory.findByEmail host.toLowerCase email), directory)
  | .findIdentity id, supply => (orFault supply.fault (directory.findIdentity id), directory)
  | .listActive identityId, supply => (orFault supply.fault (directory.listActive identityId), directory)
  | .commitRegistration input, supply =>
    commitTo directory (orFault supply.fault (directory.register input))
  | .commitChallenge input, supply =>
    commitTo directory (orFault supply.fault (directory.issueChallenge input))
  | .commitSession input, supply =>
    commitTo directory (orFault supply.fault (directory.openSession input))
  | .send mail, supply => match supply.mailer with
    | .ok () => (.ok (), { directory with mails := directory.mails ++ [mail] })
    | .error error => (.error error, directory)

end N2FNest.Identities
