import N2FNest.Identities.Directory

/-! The requests that need no session: sign-up, a new verification link, a password reset
and a login, as the operations they await. -/

namespace N2FNest.Identities

open Events Lib Shared

variable {Work Value : Type}

abbrev AccountProgram (Work Value : Type) :=
  Script (AccountOp Work) AccountOp.Answer (Except Failure Value)

namespace AccountProgram

def refuse (error : Failure) : AccountProgram Work Value := .done (.error error)

/-- `if (!result.ok) return err(report(result.error))`. -/
def orReport {Given : Type} (report : Failure → Failure) (next : Given → AccountProgram Work Value) :
    Except Failure Given → AccountProgram Work Value
  | .ok given => next given
  | .error error => refuse (report error)

end AccountProgram

open AccountProgram

/-- An event about an identity under a new identifier. -/
def withEvent (type : String) (time : Int) (work : Work) (payload : JsObject) (identityId : ID)
    (next : Envelope Work → AccountProgram Work Value) : AccountProgram Work Value :=
  .await .newId <| orReport idGenerationFailure fun eventId =>
    let event : Envelope Work := {
      id := eventId
      type := js type
      occurredAtMs := time
      work := work
      payload := payload
      subject := some ⟨js "identity", identityId⟩
      tenant := none }
    .await (.envelope event) <| orReport dependencyFailure fun _ => next event

private def idText (id : ID) : JsValue := .string id.text

private def timeValue (value : Int) : JsValue := .number (.finite value)

def emptyPassword : Failure :=
  failure .invalid "password cannot be empty" "identity.empty_password"

structure RegisterIdentityResult where
  identityId : ID
  credentialId : ID
  status : IdentityStatus

/-- `RegisterIdentity.execute`. -/
def registerIdentity (toLowerCase : JsString → JsString) (email : JsValue) (password : JsString)
    (work : Work) : AccountProgram Work RegisterIdentityResult :=
  if password.length = 0 then refuse emptyPassword
  else orReport dependencyFailure (fun _ =>
    .await .now fun createdAt =>
    .await .newId <| orReport idGenerationFailure fun identityId =>
    let identity := Identity.register identityId createdAt
    .await .newId <| orReport idGenerationFailure fun credentialId =>
    orReport id (fun credential =>
      .await (.hashPassword password) <| orReport dependencyFailure fun passwordHash =>
      withEvent "identity.registered.v1" createdAt work
        [(js "identity_id", idText identity.id), (js "credential_id", idText credential.id),
          (js "credential_method", .string (js "email_password")),
          (js "status", .string (js identity.status.name))] identity.id fun event =>
      .await (.commitRegistration ⟨identity, credential, passwordHash, event, work⟩) <|
        orReport dependencyFailure fun _ =>
      .done (.ok ⟨identity.id, credential.id, identity.status⟩))
      (Credential.createEmailPassword toLowerCase credentialId identity.id email createdAt))
    (validatePassword password)

structure IssuedChallenge where
  identityId : ID
  challengeId : ID
  token : JsString
  expiresAt : Int

/-- Issue a challenge and commit it, in any of the commands that do. -/
def commitIssued (purpose : VerificationPurpose) (expiry : Int → Except Failure JsDate)
    (identityId : ID) (work : Work) (next : IssuedChallenge → AccountProgram Work Value) :
    AccountProgram Work Value :=
  .await .now fun issuedAt =>
  orReport dependencyFailure (fun expiresAt =>
    .await .newId <| orReport idGenerationFailure fun challengeId =>
    orReport id (fun challenge =>
      .await .issueToken <| orReport dependencyFailure fun token =>
      withEvent "identity.verification_challenge.issued.v1" issuedAt work
        [(js "identity_id", idText challenge.identityId), (js "challenge_id", idText challenge.id),
          (js "purpose", .string (js challenge.purpose.name)),
          (js "expires_at_ms", timeValue challenge.expiresAt)] challenge.identityId fun event =>
      .await (.commitChallenge ⟨challenge, token.2, event, work⟩) <| orReport dependencyFailure fun _ =>
      next ⟨challenge.identityId, challenge.id, token.1, challenge.expiresAt⟩)
      (VerificationChallenge.issue challengeId identityId purpose (some issuedAt) expiresAt))
    (expiry issuedAt)

/-- `IssueVerificationChallenge.execute`. -/
def issueVerificationChallenge (identityId : ID) (work : Work) : AccountProgram Work IssuedChallenge :=
  .await (.findIdentity identityId) <| orReport dependencyFailure fun
    | none => refuse identityNotFound
    | some identity =>
      if identity.status ≠ .pendingVerification then
        refuse (failure .conflict ("identity is " ++ identity.status.name)
          "identity.verification_unavailable")
      else commitIssued .emailVerification verificationExpiry identity.id work fun issued =>
        .done (.ok issued)

/-- Accepted; whether the message was handed to delivery is for logs only. -/
structure MailedResult where
  mailed : Bool

def sendMail (mail : Mail) : AccountProgram Work MailedResult :=
  .await (.send mail) fun sent => .done (.ok ⟨sent.isOk⟩)

def unmailed : AccountProgram Work MailedResult := .done (.ok ⟨false⟩)

/-- `SignUp.execute`. -/
def signUp (toLowerCase : JsString → JsString) (email : JsValue) (password : JsString) (work : Work) :
    AccountProgram Work MailedResult :=
  (registerIdentity toLowerCase email password work).bind fun
    | .error error =>
      if error.type ≠ some "identity.email_taken" then refuse error
      else match normalizeEmail toLowerCase email with
        | .error _ => unmailed
        | .ok address => sendMail (.accountExists address)
    | .ok registered =>
      (issueVerificationChallenge registered.identityId work).bind fun challenge =>
        match challenge, normalizeEmail toLowerCase email with
        | .ok issued, .ok address =>
          sendMail (.verification address issued.challengeId issued.token issued.expiresAt)
        | _, _ => unmailed

/-- `ResendVerification.execute`. -/
def resendVerification (toLowerCase : JsString → JsString) (email : JsValue) (work : Work) :
    AccountProgram Work MailedResult :=
  orReport id (fun address =>
    .await (.findByEmail address) <| orReport dependencyFailure fun
      | none => unmailed
      | some record =>
        if record.identity.status ≠ .pendingVerification then unmailed
        else (issueVerificationChallenge record.identity.id work).bind <| orReport id fun issued =>
          sendMail (.verification address issued.challengeId issued.token issued.expiresAt))
    (normalizeEmail toLowerCase email)

/-- `RequestPasswordReset.execute`. -/
def requestPasswordReset (toLowerCase : JsString → JsString) (email : JsValue) (work : Work) :
    AccountProgram Work MailedResult :=
  orReport id (fun address =>
    .await (.findByEmail address) <| orReport dependencyFailure fun
      | none => unmailed
      | some record =>
        if record.identity.status ≠ .active ∧ record.identity.status ≠ .pendingVerification then
          unmailed
        else commitIssued .passwordReset passwordResetExpiry record.identity.id work fun issued =>
          sendMail (.passwordReset address issued.challengeId issued.token issued.expiresAt))
    (normalizeEmail toLowerCase email)

structure AuthenticateIdentityResult where
  identityId : ID
  sessionId : ID
  token : JsString
  expiresAt : Int

/-- The loop over the sessions that a login ends, with an event each. -/
def evictEach (instant : Int) (work : Work)
    (next : List (SessionEviction Work) → AccountProgram Work Value) :
    List Session → List (SessionEviction Work) → AccountProgram Work Value
  | [], evictions => next evictions
  | stale :: rest, evictions =>
    orReport id (fun revoked =>
      withEvent "identity.session.revoked.v1" instant work
        [(js "identity_id", idText revoked.identityId), (js "session_id", idText revoked.id),
          (js "status", .string (js "revoked")), (js "reason", .string (js "session_limit"))]
        revoked.identityId fun event =>
      evictEach instant work next rest (evictions ++ [⟨revoked, event⟩]))
      (stale.revoke (some instant))

/-- The oldest sessions still usable that no room is left for. -/
def overCap (host : Host) (created : Session) (active : List Session) : List Session :=
  let usable := active.filter fun candidate =>
    (candidate.assertUsable (some created.createdAt) host.idleTimeoutMs).isOk
  (usable.mergeSort fun left right => right.createdAt ≤ left.createdAt).drop
    (host.maxActivePerIdentity - 1)

/-- `AuthenticateIdentity.execute`. -/
def authenticateIdentity (host : Host) (expiry : Int → Except Failure JsDate) (email : JsValue)
    (password : JsString) (work : Work) : AccountProgram Work AuthenticateIdentityResult :=
  if PASSWORD_MAX_LENGTH < password.length then refuse invalidCredentials
  else orReport (fun _ => invalidCredentials) (fun address =>
    .await (.findByEmail address) <| orReport dependencyFailure fun
      | none => .await (.verifyDecoy password) <| orReport dependencyFailure fun _ =>
        refuse invalidCredentials
      | some record =>
        .await (.verifyPassword password record.passwordHash) <| orReport dependencyFailure fun right =>
        if right = false ∨ record.identity.status ≠ .active ∨ record.credential.status ≠ .active then
          refuse invalidCredentials
        else
          .await .now fun createdAt =>
          orReport dependencyFailure (fun expiresAt =>
            .await .newId <| orReport idGenerationFailure fun sessionId =>
            orReport id (fun session =>
              .await .issueToken <| orReport dependencyFailure fun token =>
              withEvent "identity.session.created.v1" createdAt work
                [(js "identity_id", idText record.identity.id),
                  (js "credential_id", idText record.credential.id),
                  (js "session_id", idText session.id),
                  (js "expires_at_ms", timeValue session.expiresAt)] record.identity.id fun event =>
              .await (.listActive session.identityId) <| orReport dependencyFailure fun active =>
              evictEach createdAt work (fun evicted =>
                .await (.commitSession ⟨session, record.credential, token.2, event, evicted, work⟩) <|
                  orReport dependencyFailure fun _ =>
                .done (.ok ⟨record.identity.id, session.id, token.1, session.expiresAt⟩))
                (overCap host session active) [])
              (Session.create sessionId record.identity.id (some createdAt) expiresAt))
            (expiry createdAt))
    (normalizeEmail host.toLowerCase email)

inductive AccountRequest (Work : Type) where
  | register (email : JsValue) (password : JsString) (work : Work)
  | resend (email : JsValue) (work : Work)
  | reset (email : JsValue) (work : Work)
  | login (email : JsValue) (password : JsString) (work : Work)

/-- `ACCEPTED` is the one answer to sign-up, resend and reset. -/
inductive AccountAnswer where
  | accepted
  | session (result : AuthenticateIdentityResult)

def answering {Given : Type} (answer : Given → AccountAnswer)
    (program : AccountProgram Work Given) : AccountProgram Work AccountAnswer :=
  program.bind fun result => .done (result.map answer)

def AccountRequest.program (host : Host) (expiry : Int → Except Failure JsDate) :
    AccountRequest Work → AccountProgram Work AccountAnswer
  | .register email password work =>
    answering (fun _ => .accepted) (signUp host.toLowerCase email password work)
  | .resend email work =>
    answering (fun _ => .accepted) (resendVerification host.toLowerCase email work)
  | .reset email work =>
    answering (fun _ => .accepted) (requestPasswordReset host.toLowerCase email work)
  | .login email password work =>
    answering .session (authenticateIdentity host expiry email password work)

end N2FNest.Identities
