import N2FNest.Identities.SignUp
import N2FNest.Lib.Rely

/-! What requests without a session do to the accounts: every stored row restores, and
none of them changes an account that there is. -/

namespace N2FNest.Identities

open Events Lib Shared

variable {Work : Type}

/-- Stored rows restore, and a credential has its identity. -/
structure Directory.Sound (host : Host) (directory : Directory Work) : Prop where
  identities : ∀ row ∈ directory.identities.rows, ∃ identity, Identity.restore row = .ok identity
  credentials : ∀ row ∈ directory.credentials.rows, ∃ credential,
    Credential.restore host.toLowerCase row.toCredentialState = .ok credential
  owned : ∀ row ∈ directory.credentials.rows, ∃ identity,
    directory.identities.get row.identityId = some identity

/-- Identities stay as they are, and a new credential is of a pending one. -/
structure Directory.Grows (before after : Directory Work) : Prop where
  kept : ∀ id row, before.identities.get id = some row → after.identities.get id = some row
  pending : ∀ row ∈ after.credentials.rows, row ∈ before.credentials.rows ∨
    ∃ identity, after.identities.get row.identityId = some identity ∧
      identity.status = .pendingVerification

/-- What the code relies on of `toLowerCase`: a normalized address is normalized also as
the database keeps it. -/
def Host.Settles (host : Host) : Prop := ∀ email address stored,
  normalizeEmail host.toLowerCase email = .ok address → address.asColumn = some stored →
    normalizeEmail host.toLowerCase (.string stored) = .ok stored

/-- The service is up, and generated identifiers are new when they are stored. -/
def Directory.Available (directory : Directory Work) : AccountOp Work → Supply → Prop
  | .now, supply => 0 ≤ supply.now ∧ supply.now + 86400000 ≤ 8640000000000000
  | .newId, supply => supply.newId.isOk = true
  | .envelope _, supply => supply.envelope.isOk = true
  | .hashPassword _, supply => supply.passwordHash.isOk = true
  | .verifyPassword _ _, supply | .verifyDecoy _, supply => supply.verifier = none
  | .issueToken, supply => supply.token.isOk = true
  | .findByEmail _, supply | .findIdentity _, supply | .listActive _, supply
  | .commitSession _, supply => supply.fault = none
  | .commitRegistration input, supply => supply.fault = none ∧
      directory.identities.get input.identity.id = none ∧
      directory.credentials.get input.credential.id = none ∧
      directory.outbox.get input.event.id = none
  | .commitChallenge input, supply => supply.fault = none ∧
      directory.challenges.get input.challenge.id = none ∧
      directory.outbox.get input.event.id = none
  | .send _, _ => True

/-- An identity as it is first stored. -/
theorem Identity.restore_first (identity : Identity) :
    ∃ restored, Identity.restore { identity.toIdentityState with version := FIRST } = .ok restored := by
  unfold Identity.restore
  split
  · rename_i unversioned
    have stored : isStoredVersion FIRST = true := by decide
    exact absurd (stored.symm.trans unversioned) (by decide)
  · split
    · split
      · exact ⟨_, rfl⟩
      · rename_i unverified
        exact absurd identity.verification unverified
    · rename_i backwards
      exact absurd identity.time backwards

/-- A credential as it is stored, under a normalized address. -/
theorem Credential.restore_stored (credential : Credential) {toLowerCase : JsString → JsString}
    {stored : JsString} (normalized : normalizeEmail toLowerCase (.string stored) = .ok stored) :
    ∃ restored, Credential.restore toLowerCase
      { credential.toCredentialState with email := stored } = .ok restored := by
  unfold Credential.restore
  rw [normalized, ok_bind]
  split
  · split
    · exact ⟨_, rfl⟩
    · rename_i unrevoked
      exact absurd credential.revocation unrevoked
  · rename_i backwards
    exact absurd credential.time backwards

namespace Directory

variable {host : Host} {directory next : Directory Work}

theorem Grows.refl (directory : Directory Work) : directory.Grows directory :=
  ⟨fun _ _ found => found, fun _ member => .inl member⟩

theorem Grows.trans {first second third : Directory Work} (early : first.Grows second)
    (late : second.Grows third) : first.Grows third where
  kept id row found := late.kept id row (early.kept id row found)
  pending := by
    intro row member
    rcases late.pending row member with before | pending
    · rcases early.pending row before with old | ⟨identity, found, pending⟩
      · exact .inl old
      · exact .inr ⟨identity, late.kept _ _ found, pending⟩
    · exact .inr pending

/-- What leaves the accounts alone. -/
private theorem same_accounts (sound : directory.Sound host)
    (identities : next.identities = directory.identities)
    (credentials : next.credentials = directory.credentials) :
    next.Sound host ∧ directory.Grows next := by
  constructor
  · exact ⟨by rw [identities]; exact sound.identities, by rw [credentials]; exact sound.credentials,
      by rw [identities, credentials]; exact sound.owned⟩
  · exact ⟨fun id row found => identities ▸ found, fun row member => .inl (credentials ▸ member)⟩

variable [DecidableEq Work]

/-- An accepted registration stored a pending identity and its credential. -/
theorem register_inv {input : RegistrationCommit Work}
    (done : directory.register input = .ok next) :
    directory.identities.get input.identity.id = none ∧ ∃ email,
      input.credential.email.asColumn = some email ∧
      next.identities = directory.identities.set { input.identity.toIdentityState with version := FIRST } ∧
      next.credentials = directory.credentials.set
        ⟨{ input.credential.toCredentialState with email := email }, input.passwordHash⟩ := by
  obtain ⟨-, -, done⟩ := bind_ok done
  split at done
  · cases done
  · rename_i new
    split at done
    · cases done
    · rename_i email stored
      split at done
      · cases done
      · split at done
        · cases done
        · obtain ⟨outbox, -, done⟩ := bind_ok done
          cases pure_eq_ok.mp done
          exact ⟨by simpa using new, email, stored, rfl, rfl⟩

theorem openSession_accounts {input : SessionCommit Work}
    (done : directory.openSession input = .ok next) :
    next.identities = directory.identities ∧ next.credentials = directory.credentials := by
  obtain ⟨-, -, done⟩ := bind_ok done
  dsimp only at done
  split at done
  · cases done
  · obtain ⟨evicted, -, done⟩ := bind_ok done
    obtain ⟨sessions, -, done⟩ := bind_ok done
    obtain ⟨outbox, -, done⟩ := bind_ok done
    cases pure_eq_ok.mp done
    exact ⟨rfl, rfl⟩

theorem issueChallenge_accounts {input : ChallengeCommit Work}
    (done : directory.issueChallenge input = .ok next) :
    next.identities = directory.identities ∧ next.credentials = directory.credentials := by
  obtain ⟨-, -, done⟩ := bind_ok done
  split at done
  · cases done
  · obtain ⟨outbox, -, done⟩ := bind_ok done
    cases pure_eq_ok.mp done
    exact ⟨rfl, rfl⟩

/-- What a program keeps to: it registers a pending identity with a credential of a
normalized address. -/
def Permitted (host : Host) : AccountOp Work → Prop
  | .commitRegistration input => input.identity.status = .pendingVerification ∧
      input.credential.identityId = input.identity.id ∧
      ∃ email, normalizeEmail host.toLowerCase email = .ok input.credential.email
  | _ => True

theorem register_sound {input : RegistrationCommit Work} (settles : host.Settles)
    (sound : directory.Sound host) (permitted : Permitted host (.commitRegistration input))
    (done : directory.register input = .ok next) : next.Sound host ∧ directory.Grows next := by
  obtain ⟨pending, owner, email, normalized⟩ := permitted
  obtain ⟨new, stored, kept, identities, credentials⟩ := register_inv done
  have found : ∀ id row, directory.identities.get id = some row →
      next.identities.get id = some row := by
    intro id row found
    rw [identities, Table.get_set_other]
    · exact found
    · rintro rfl
      rw [new] at found
      cases found
  have registered : next.identities.get input.credential.identityId =
      some { input.identity.toIdentityState with version := FIRST } := by
    rw [identities, owner]
    exact Table.get_set_same _ _
  have rows : ∀ row ∈ next.credentials.rows, row ∈ directory.credentials.rows ∨
      row = ⟨{ input.credential.toCredentialState with email := stored }, input.passwordHash⟩ := by
    intro row member
    rw [credentials] at member
    rcases Table.mem_set.mp member with same | ⟨old, -⟩
    · exact .inr same
    · exact .inl old
  refine ⟨⟨?_, ?_, ?_⟩, ⟨found, ?_⟩⟩
  · intro row member
    rw [identities] at member
    rcases Table.mem_set.mp member with rfl | ⟨old, -⟩
    · exact input.identity.restore_first
    · exact sound.identities row old
  · intro row member
    rcases rows row member with old | rfl
    · exact sound.credentials row old
    · exact input.credential.restore_stored (settles email _ stored normalized kept)
  · intro row member
    rcases rows row member with old | rfl
    · obtain ⟨identity, held⟩ := sound.owned row old
      exact ⟨identity, found _ _ held⟩
    · exact ⟨_, registered⟩
  · intro row member
    rcases rows row member with old | rfl
    · exact .inl old
    · exact .inr ⟨_, registered, pending⟩

theorem perform_sound (settles : host.Settles) (sound : directory.Sound host) {op : AccountOp Work}
    (permitted : Permitted host op) (supply : Supply) :
    (directory.perform host op supply).2.Sound host ∧
      directory.Grows (directory.perform host op supply).2 := by
  have still : directory.Sound host ∧ directory.Grows directory := ⟨sound, Grows.refl directory⟩
  have committed : ∀ outcome : Except Failure (Directory Work),
      (∀ next, outcome = .ok next → next.Sound host ∧ directory.Grows next) →
      (commitTo directory outcome).2.Sound host ∧ directory.Grows (commitTo directory outcome).2 := by
    intro outcome keeps
    cases outcome with
    | ok next => exact keeps next rfl
    | error error => exact still
  cases op with
  | commitRegistration input =>
    exact committed _ fun next done => register_sound settles sound permitted (orFault_ok done)
  | commitChallenge input =>
    refine committed _ fun next done => ?_
    obtain ⟨identities, credentials⟩ := issueChallenge_accounts (orFault_ok done)
    exact same_accounts sound identities credentials
  | commitSession input =>
    refine committed _ fun next done => ?_
    obtain ⟨identities, credentials⟩ := openSession_accounts (orFault_ok done)
    exact same_accounts sound identities credentials
  | send mail =>
    simp only [perform]
    split
    · exact same_accounts sound rfl rfl
    · exact still
  | _ => exact still

end Directory

variable [DecidableEq Work]

/-- The requests without a session, over the accounts. Nothing else happens to them. -/
def accountService (host : Host) (expiry : Int → Except Failure JsDate) (Client : Type) :
    Service (Directory Work) Client (AccountRequest Work) Supply Empty (AccountOp Work)
      AccountOp.Answer (Except Failure AccountAnswer) where
  perform directory op supply := directory.perform host op supply
  program _ request := request.program host expiry
  event directory _ := directory

/-- From a directory on, accounts only grow. -/
def accountConduct {host : Host} (settles : host.Settles) (expiry : Int → Except Failure JsDate)
    (Client : Type) (start : Directory Work) :
    (@accountService Work _ host expiry Client).Conduct where
  Inv directory := directory.Sound host ∧ start.Grows directory
  rely := Directory.Grows
  permits := Directory.Permitted host
  admits := Directory.Available
  admitsEvent _ _ := True
  refl := Directory.Grows.refl
  trans := Directory.Grows.trans
  keeps := by
    intro directory op supply sound permitted _
    obtain ⟨kept, grows⟩ := Directory.perform_sound settles sound.1 permitted supply
    exact ⟨⟨kept, sound.2.trans grows⟩, grows⟩
  keepsEvent := by
    intro directory event
    exact event.elim

end N2FNest.Identities
