import N2FNest.Lib.Result
import N2FNest.Shared.Identifier

/-! The aggregates of Identity: an identity, its password credential, its
sessions and the challenges mailed to it. The constructors are private in the
source, so the rules that `restore` checks are fields of the types here. -/

namespace N2FNest.Identities

open Lib Shared

private def invalid (message type : String) : Failure := failure .invalid message type

inductive IdentityStatus where
  | pendingVerification | active | suspended | disabled
  deriving DecidableEq, Repr

def IdentityStatus.name : IdentityStatus → String
  | .pendingVerification => "pending_verification"
  | .active => "active"
  | .suspended => "suspended"
  | .disabled => "disabled"

/-- The columns of `n2f_identity_identities`. -/
structure IdentityState where
  id : ID
  status : IdentityStatus
  createdAt : Int
  updatedAt : Int
  verifiedAt : Option Int
  version : Nat
  deriving DecidableEq

/-- A pending identity has no verification time; any other one that is not
disabled has one. -/
def IdentityState.Verification (state : IdentityState) : Prop :=
  (state.status = .pendingVerification → state.verifiedAt = none) ∧
    (state.status ≠ .pendingVerification → state.status ≠ .disabled → state.verifiedAt ≠ none)

instance (state : IdentityState) : Decidable state.Verification :=
  inferInstanceAs (Decidable (_ ∧ _))

structure Identity extends IdentityState where
  time : createdAt ≤ updatedAt
  verification : toIdentityState.Verification

namespace Identity

def restore (state : IdentityState) : Except Failure Identity :=
  if isStoredVersion state.version = false then
    .error (invalid "identity state is invalid" "identity.invalid_state")
  else if time : state.createdAt ≤ state.updatedAt then
    if verification : state.Verification then .ok ⟨state, time, verification⟩
    else .error (invalid "identity verification state is invalid" "identity.invalid_state")
  else .error (invalid "identity update time cannot precede creation" "identity.non_monotonic_time")

def transitionTime (identity : Identity) (instant : JsDate) :
    Except Failure {time : Int // identity.updatedAt ≤ time} :=
  match instant with
  | none => .error (invalid "identity transition time must be valid"
      "identity.invalid_transition_time")
  | some time =>
    if forward : identity.updatedAt ≤ time then .ok ⟨time, forward⟩
    else .error (invalid "identity transition time cannot move backwards"
      "identity.non_monotonic_time")

def verify (identity : Identity) (instant : JsDate) : Except Failure Identity := do
  let ⟨time, forward⟩ ← identity.transitionTime instant
  if identity.status ≠ .pendingVerification then
    throw (invalid "only pending identities can be verified" "identity.invalid_verification")
  else return {
    identity with
    status := .active
    updatedAt := time
    verifiedAt := some time
    time := Int.le_trans identity.time forward
    verification := ⟨fun pending => by simp at pending, fun _ _ => by simp⟩ }

theorem restore_ok {state : IdentityState} {identity : Identity}
    (done : restore state = .ok identity) : identity.toIdentityState = state := by
  simp only [restore, refuse_ok, check_ok, Except.ok.injEq] at done
  obtain ⟨_, _, _, rfl⟩ := done
  rfl

/-- Verification turns a pending identity active and changes nothing else that
identifies it. -/
theorem verify_inv {identity verified : Identity} {instant : JsDate}
    (done : identity.verify instant = .ok verified) :
    identity.status = .pendingVerification ∧ verified.status = .active ∧
      verified.id = identity.id ∧ verified.version = identity.version := by
  obtain ⟨⟨time, forward⟩, _, rest⟩ := bind_ok done
  dsimp only at rest
  split at rest
  · cases rest
  · rename_i pending
    cases pure_eq_ok.mp rest
    exact ⟨not_not.mp pending, rfl, rfl, rfl⟩

end Identity

inductive CredentialStatus where
  | active | revoked
  deriving DecidableEq, Repr

structure CredentialState where
  id : ID
  identityId : ID
  email : JsString
  status : CredentialStatus
  createdAt : Int
  updatedAt : Int
  revokedAt : Option Int
  deriving DecidableEq

structure Credential extends CredentialState where
  time : createdAt ≤ updatedAt
  revocation : status = .revoked ↔ revokedAt ≠ none

/-- `/^[^\s@]+@[^\s@]+\.[^\s@]+$/`: one `@`, no white space, and a dot inside
the part after it. -/
def isEmail (text : JsString) : Bool :=
  match text.units.splitOn 0x40 with
  | [name, domain] => name ≠ [] && name.all (fun unit => !JsString.isSpace unit) &&
      domain.all (fun unit => !JsString.isSpace unit) && (domain.drop 1).dropLast.contains 0x2E
  | _ => false

/-- `toLowerCase` is the language's own, over all of Unicode. -/
def normalizeEmail (toLowerCase : JsString → JsString) : JsValue → Except Failure JsString
  | .string input =>
    let normalized := toLowerCase input.trim
    if normalized.length = 0 ∨ 254 < normalized.length ∨ isEmail normalized = false then
      .error (invalid "email must be a valid address" "credential.invalid_email")
    else .ok normalized
  | _ => .error (invalid "email must be a string" "credential.invalid_email")

namespace Credential

def restore (toLowerCase : JsString → JsString) (state : CredentialState) :
    Except Failure Credential := do
  let email ← normalizeEmail toLowerCase (.string state.email)
  if time : state.createdAt ≤ state.updatedAt then
    if revocation : state.status = .revoked ↔ state.revokedAt ≠ none then
      .ok ⟨{ state with email := email }, time, revocation⟩
    else .error (invalid "credential revocation state is invalid" "credential.invalid_state")
  else .error (invalid "credential update time cannot precede creation"
    "credential.non_monotonic_time")

/-- The credential with a new secret. `updatedAt` moves strictly forward, so
storage can tell a concurrent change by it. -/
def changeSecret (credential : Credential) (instant : JsDate) : Except Failure Credential :=
  match instant with
  | none => .error (invalid "credential change time must be valid" "credential.invalid_change_time")
  | some time =>
    if forward : credential.updatedAt < time then
      if credential.status = .revoked then
        .error (invalid "credential is revoked" "credential.revoked")
      else .ok {
        credential with
        updatedAt := time
        time := Int.le_trans credential.time (Int.le_of_lt forward) }
    else .error (invalid "credential transition time cannot move backwards"
      "credential.non_monotonic_time")

/-- A restored credential is the row's, its email normalized. -/
theorem restore_ok {toLowerCase : JsString → JsString} {state : CredentialState}
    {credential : Credential} (done : restore toLowerCase state = .ok credential) :
    credential.toCredentialState = { state with email := credential.email } := by
  obtain ⟨email, _, rest⟩ := bind_ok done
  simp only [check_ok, Except.ok.injEq] at rest
  obtain ⟨_, _, rfl⟩ := rest
  rfl

theorem changeSecret_inv {credential changed : Credential} {instant : JsDate}
    (done : credential.changeSecret instant = .ok changed) :
    credential.updatedAt < changed.updatedAt ∧ changed.id = credential.id ∧
      changed.identityId = credential.identityId := by
  cases instant with
  | none => cases done
  | some time =>
    simp only [changeSecret, check_ok, refuse_ok, Except.ok.injEq] at done
    obtain ⟨forward, _, rfl⟩ := done
    exact ⟨forward, rfl, rfl⟩

end Credential

inductive SessionStatus where
  | active | revoked
  deriving DecidableEq, Repr

structure SessionState where
  id : ID
  identityId : ID
  status : SessionStatus
  createdAt : Int
  expiresAt : Int
  lastSeenAt : Int
  revokedAt : Option Int
  version : Nat
  deriving DecidableEq

/-- Exactly a revoked session has a revocation time, and not before its creation. -/
def SessionState.Revocation (state : SessionState) : Prop :=
  (state.status = .revoked ↔ state.revokedAt ≠ none) ∧
    ∀ time ∈ state.revokedAt, state.createdAt ≤ time

instance (state : SessionState) : Decidable state.Revocation :=
  inferInstanceAs (Decidable (_ ∧ _))

structure Session extends SessionState where
  expiry : createdAt < expiresAt
  seen : createdAt ≤ lastSeenAt
  revocation : toSessionState.Revocation

namespace Session

def create (id identityId : ID) (createdAt expiresAt : JsDate) : Except Failure Session :=
  match createdAt, expiresAt with
  | some created, some expires =>
    if expiry : created < expires then .ok {
      id := id
      identityId := identityId
      status := .active
      createdAt := created
      expiresAt := expires
      lastSeenAt := created
      revokedAt := none
      version := UNSAVED
      expiry := expiry
      seen := Int.le_refl created
      revocation := ⟨by simp, by simp⟩ }
    else .error (invalid "session must expire after creation" "session.invalid_expiry")
  | _, _ => .error (invalid "session times must be valid" "session.invalid_time")

def restore (state : SessionState) : Except Failure Session :=
  if seen : state.createdAt ≤ state.lastSeenAt ∧ isStoredVersion state.version = true then
    if expiry : state.createdAt < state.expiresAt then
      if revocation : state.Revocation then .ok ⟨state, expiry, seen.1, revocation⟩
      else .error (invalid "session revocation state is invalid" "session.invalid_state")
    else .error (invalid "session must expire after creation" "session.invalid_expiry")
  else .error (invalid "session state is invalid" "session.invalid_state")

/-- Whether the session can authenticate: active, before its expiry, and used
within the idle timeout. -/
def assertUsable (session : Session) (instant : JsDate) (idleTimeoutMs : Int) :
    Except Failure Unit :=
  match instant with
  | none => .error (invalid "session check time must be valid" "session.invalid_check_time")
  | some time =>
    if session.status = .revoked then
      .error (failure .unauthenticated "session is revoked" "session.revoked")
    else if session.expiresAt ≤ time then
      .error (failure .unauthenticated "session has expired" "session.expired")
    else if idleTimeoutMs ≤ time - session.lastSeenAt then
      .error (failure .unauthenticated "session expired after inactivity" "session.expired")
    else .ok ()

def revoke (session : Session) (instant : JsDate) : Except Failure Session :=
  match instant with
  | none => .error (invalid "session revocation time must be valid"
      "session.invalid_revocation_time")
  | some time =>
    if after : session.createdAt ≤ time then
      if session.status = .revoked then
        .error (invalid "session is already revoked" "session.already_revoked")
      else .ok {
        session with
        status := .revoked
        revokedAt := some time
        revocation := ⟨by simp, by simpa using after⟩ }
    else .error (invalid "session revocation cannot precede creation" "session.non_monotonic_time")

theorem revoke_created {session revoked : Session} {instant : JsDate}
    (done : session.revoke instant = .ok revoked) : revoked.createdAt = session.createdAt := by
  cases instant with
  | none => cases done
  | some time =>
    simp only [revoke, check_ok, refuse_ok, Except.ok.injEq] at done
    obtain ⟨_, _, rfl⟩ := done
    rfl

theorem create_inv {id identityId : ID} {createdAt expiresAt : JsDate} {session : Session}
    (done : create id identityId createdAt expiresAt = .ok session) :
    session.id = id ∧ session.identityId = identityId := by
  unfold create at done
  split at done
  · simp only [check_ok, Except.ok.injEq] at done
    obtain ⟨_, rfl⟩ := done
    exact ⟨rfl, rfl⟩
  · cases done

theorem restore_ok {state : SessionState} {session : Session}
    (done : restore state = .ok session) : session.toSessionState = state := by
  simp only [restore, check_ok, Except.ok.injEq] at done
  obtain ⟨_, _, _, rfl⟩ := done
  rfl

theorem revoke_inv {session revoked : Session} {instant : JsDate}
    (done : session.revoke instant = .ok revoked) :
    revoked.status = .revoked ∧ revoked.id = session.id ∧ revoked.version = session.version := by
  cases instant with
  | none => cases done
  | some time =>
    simp only [revoke, check_ok, refuse_ok, Except.ok.injEq] at done
    obtain ⟨_, _, rfl⟩ := done
    exact ⟨rfl, rfl, rfl⟩

end Session

inductive VerificationPurpose where
  | emailVerification | passwordReset
  deriving DecidableEq, Repr

def VerificationPurpose.name : VerificationPurpose → String
  | .emailVerification => "email_verification"
  | .passwordReset => "password_reset"

inductive VerificationStatus where
  | issued | consumed
  deriving DecidableEq, Repr

structure ChallengeState where
  id : ID
  identityId : ID
  purpose : VerificationPurpose
  status : VerificationStatus
  issuedAt : Int
  expiresAt : Int
  consumedAt : Option Int
  version : Nat
  deriving DecidableEq

/-- Exactly a consumed challenge has a consumption time, and within its lifetime. -/
def ChallengeState.Consumption (state : ChallengeState) : Prop :=
  (state.status = .consumed ↔ state.consumedAt ≠ none) ∧
    ∀ time ∈ state.consumedAt, state.issuedAt ≤ time ∧ time < state.expiresAt

instance (state : ChallengeState) : Decidable state.Consumption :=
  inferInstanceAs (Decidable (_ ∧ _))

structure VerificationChallenge extends ChallengeState where
  expiry : issuedAt < expiresAt
  consumption : toChallengeState.Consumption

namespace VerificationChallenge

def issue (id identityId : ID) (purpose : VerificationPurpose) (issuedAt expiresAt : JsDate) :
    Except Failure VerificationChallenge :=
  match issuedAt, expiresAt with
  | some issued, some expires =>
    if expiry : issued < expires then .ok {
      id := id
      identityId := identityId
      purpose := purpose
      status := .issued
      issuedAt := issued
      expiresAt := expires
      consumedAt := none
      version := UNSAVED
      expiry := expiry
      consumption := ⟨by simp, by simp⟩ }
    else .error (invalid "verification challenge must expire after issuance"
      "verification.invalid_expiry")
  | _, _ => .error (invalid "verification challenge times must be valid"
      "verification.invalid_time")

def restore (state : ChallengeState) : Except Failure VerificationChallenge :=
  if isStoredVersion state.version = false then
    .error (invalid "verification challenge state is invalid" "verification.invalid_state")
  else if expiry : state.issuedAt < state.expiresAt then
    if consumption : state.Consumption then .ok ⟨state, expiry, consumption⟩
    else .error (invalid "verification challenge consumption state is invalid"
      "verification.invalid_state")
  else .error (invalid "verification challenge must expire after issuance"
    "verification.invalid_expiry")

def consume (challenge : VerificationChallenge) (instant : JsDate) :
    Except Failure VerificationChallenge :=
  match instant with
  | none => .error (invalid "verification consumption time must be valid"
      "verification.invalid_consumption_time")
  | some time =>
    if after : challenge.issuedAt ≤ time then
      if challenge.status = .consumed then
        .error (invalid "verification challenge is already consumed" "verification.already_consumed")
      else if before : time < challenge.expiresAt then .ok {
        challenge with
        status := .consumed
        consumedAt := some time
        consumption := ⟨by simp, by simpa using ⟨after, before⟩⟩ }
      else .error (invalid "verification challenge has expired" "verification.expired")
    else .error (invalid "verification consumption cannot precede issuance"
      "verification.non_monotonic_time")

theorem restore_ok {state : ChallengeState} {challenge : VerificationChallenge}
    (done : restore state = .ok challenge) : challenge.toChallengeState = state := by
  simp only [restore, refuse_ok, check_ok, Except.ok.injEq] at done
  obtain ⟨_, _, _, rfl⟩ := done
  rfl

/-- Consuming spends an issued challenge at a time inside its lifetime. -/
theorem consume_inv {challenge consumed : VerificationChallenge} {instant : JsDate}
    (done : challenge.consume instant = .ok consumed) :
    ∃ time, challenge.status = .issued ∧ challenge.issuedAt ≤ time ∧ time < challenge.expiresAt ∧
      consumed.toChallengeState =
        { challenge.toChallengeState with status := .consumed, consumedAt := some time } := by
  cases instant with
  | none => cases done
  | some time =>
    simp only [consume, check_ok, refuse_ok, Except.ok.injEq] at done
    obtain ⟨after, fresh, before, rfl⟩ := done
    have issued : challenge.status = .issued := by
      cases status : challenge.status with
      | issued => rfl
      | consumed => exact absurd status fresh
    exact ⟨time, issued, after, before, rfl⟩

end VerificationChallenge

end N2FNest.Identities
