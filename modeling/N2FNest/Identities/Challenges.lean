import N2FNest.Identities.Sessions

/-! A verification challenge is spent at most once and only for its purpose. The
two writers guard the row differently; what they share is that the version they
ask for is the version of a row that was still issued. -/

namespace N2FNest.Identities

open Events Lib Shared

variable {Work : Type}

/-- Challenge rows only move from issued to consumed, at a later version. -/
structure ChallengeRow.Precedes (before after : ChallengeRow) : Prop where
  purpose : after.purpose = before.purpose
  issuedAt : after.issuedAt = before.issuedAt
  expiresAt : after.expiresAt = before.expiresAt
  moved : after = before ∨ before.version < after.version ∧ after.status = .consumed

theorem ChallengeRow.Precedes.refl (row : ChallengeRow) : row.Precedes row := ⟨rfl, rfl, rfl, .inl rfl⟩

/-- No challenge is lost, and each one only moves on. -/
def ChallengesMove (before after : ChallengeTable) : Prop :=
  ∀ id row, before.get id = some row → ∃ moved, after.get id = some moved ∧ row.Precedes moved

theorem ChallengesMove.refl (challenges : ChallengeTable) : ChallengesMove challenges challenges :=
  fun _ row found => ⟨row, found, .refl row⟩

theorem ChallengesMove.set_new {challenges : ChallengeTable} {row : ChallengeRow}
    (fresh : challenges.get row.id = none) : ChallengesMove challenges (challenges.set row) := by
  intro id old found
  have other : row.id ≠ id := by
    intro same
    rw [same, found] at fresh
    cases fresh
  exact ⟨old, (Table.get_set_other challenges other).trans found, .refl old⟩

private theorem challenge_id {challenges : ChallengeTable} {id : ID} {row : ChallengeRow}
    (found : challenges.get id = some row) : row.id = id := by
  have named := Table.key_of_get found
  exact named

namespace Spending

variable {before after : ChallengeTable} {challenge : VerificationChallenge} {stored : ChallengeRow}

/-- The row as it is after the commit. -/
theorem get (spending : Spending before after challenge stored) :
    after.get challenge.id = some { stored with
      status := challenge.status, consumedAt := challenge.consumedAt, version := stored.version + 1 } := by
  have named : stored.id = challenge.id := challenge_id spending.found
  rw [spending.written, Table.get_set, if_pos named]

theorem moves (spending : Spending before after challenge stored)
    (consumed : challenge.status = .consumed) : ChallengesMove before after := by
  intro id row found
  by_cases same : challenge.id = id
  · subst same
    rw [spending.found] at found
    cases found
    exact ⟨_, spending.get, rfl, rfl, rfl, .inr ⟨Nat.lt_succ_self _, consumed⟩⟩
  · have other : stored.id ≠ id := fun named => same ((challenge_id spending.found).symm.trans named)
    refine ⟨row, ?_, .refl row⟩
    rw [spending.written, Table.get_set, if_neg other]
    exact found

end Spending

/-- A copy that a call holds: the stored row is at its version or past it, and at
its version it still has the status the copy was read with. -/
def Held (challenges : ChallengeTable) (challenge : VerificationChallenge)
    (status : VerificationStatus) : Prop :=
  ∃ row, challenges.get challenge.id = some row ∧ row.purpose = challenge.purpose ∧
    row.issuedAt = challenge.issuedAt ∧ row.expiresAt = challenge.expiresAt ∧
    challenge.version ≤ row.version ∧ (challenge.version = row.version → row.status = status)

theorem Held.later {before after : ChallengeTable} {challenge : VerificationChallenge}
    {status : VerificationStatus} (held : Held before challenge status)
    (moves : ChallengesMove before after) : Held after challenge status := by
  obtain ⟨row, found, purpose, issued, expires, version, current⟩ := held
  obtain ⟨moved, present, forward⟩ := moves _ row found
  refine ⟨moved, present, forward.purpose.trans purpose, forward.issuedAt.trans issued,
    forward.expiresAt.trans expires, ?_, ?_⟩
  · rcases forward.moved with same | ⟨greater, _⟩
    · rw [same]
      exact version
    · omega
  · rcases forward.moved with same | ⟨greater, _⟩
    · rw [same]
      exact current
    · omega

/-- Consuming a copy that was issued leaves a copy of an issued row. -/
theorem Held.consume {challenges : ChallengeTable} {challenge consumed : VerificationChallenge}
    {instant : JsDate} (held : Held challenges challenge challenge.status)
    (done : challenge.consume instant = .ok consumed) :
    Held challenges consumed .issued ∧ consumed.status = .consumed ∧
      consumed.purpose = challenge.purpose := by
  obtain ⟨time, issued, _, _, same⟩ := VerificationChallenge.consume_inv done
  rw [issued] at held
  have status : consumed.status = .consumed := by rw [same]
  have purpose : consumed.purpose = challenge.purpose := by rw [same]
  refine ⟨?_, status, purpose⟩
  unfold Held at held ⊢
  rw [same]
  exact held

theorem AccountDatabase.findChallenge_held {database : AccountDatabase Work} {id : ID}
    {record : VerificationChallengeRecord}
    (done : database.findChallenge id = .ok (some record)) :
    Held database.challenges record.challenge record.challenge.status := by
  unfold findChallenge at done
  split at done
  · cases done
  · rename_i row found
    obtain ⟨challenge, restored, done⟩ := bind_ok done
    cases pure_eq_ok.mp done
    have same := VerificationChallenge.restore_ok restored
    have named := challenge_id found
    unfold Held
    simp only [same]
    exact ⟨row, named ▸ found, rfl, rfl, rfl, Nat.le_refl _, fun _ => rfl⟩

/-- The challenge that a call is about to spend, consumed in its own copy. -/
structure Spendable (challenges : ChallengeTable) (challenge : VerificationChallenge) : Prop where
  held : Held challenges challenge .issued
  consumed : challenge.status = .consumed

theorem Spendable.later {before after : ChallengeTable} {challenge : VerificationChallenge}
    (spendable : Spendable before challenge) (moves : ChallengesMove before after) :
    Spendable after challenge :=
  ⟨spendable.held.later moves, spendable.consumed⟩

def Call.Holds (challenges : ChallengeTable) : Call Work → Prop
  | .confirming link => Spendable challenges link.consumed
  | .resetting account => Spendable challenges account.consumed ∧
      ∀ identity ∈ account.verified, identity.status = .active
  | .replacing input => Spendable challenges input.challenge ∧
      ∀ identity ∈ input.identity, identity.status = .active
  | .verifying challenge _ => Held challenges challenge challenge.status ∧
      challenge.purpose = .emailVerification
  | .activating input => Spendable challenges input.challenge ∧
      input.challenge.purpose = .emailVerification ∧ input.identity.status = .active
  | _ => True

theorem Call.Holds.later {before after : ChallengeTable} {call : Call Work}
    (holds : call.Holds before) (moves : ChallengesMove before after) : call.Holds after := by
  cases call with
  | confirming link => exact Spendable.later holds moves
  | resetting account => exact ⟨holds.1.later moves, holds.2⟩
  | replacing input => exact ⟨holds.1.later moves, holds.2⟩
  | verifying challenge work => exact ⟨holds.1.later moves, holds.2⟩
  | activating input => exact ⟨holds.1.later moves, holds.2⟩
  | _ => trivial

theorem ConfirmPasswordReset.readChallenge_holds {host : Host} {database : AccountDatabase Work}
    {choices : Choices} {challengeId : ID} {token : JsString} {work : Work} {link : ResetLink Work}
    (done : readChallenge host database choices challengeId token work = .ok link) :
    Spendable database.challenges link.consumed := by
  obtain ⟨_, _, done⟩ := bind_ok done
  obtain ⟨found, read, done⟩ := bind_ok done
  cases found with
  | none => cases done
  | some record =>
    dsimp only at done
    split at done
    · cases done
    · obtain ⟨_, _, done⟩ := bind_ok done
      split at done
      · cases done
      · obtain ⟨consumed, consume, done⟩ := bind_ok done
        cases pure_eq_ok.mp done
        have held := AccountDatabase.findChallenge_held (orFault_ok (mapError_ok read))
        obtain ⟨spendable, status, _⟩ := held.consume (mapError_ok consume)
        exact ⟨spendable, status⟩

namespace VerifyIdentity

theorem readChallenge_holds {host : Host} {database : AccountDatabase Work} {choices : Choices}
    {challengeId : ID} {token : JsString} {challenge : VerificationChallenge}
    (done : readChallenge host database choices challengeId token = .ok challenge) :
    Held database.challenges challenge challenge.status ∧ challenge.purpose = .emailVerification := by
  obtain ⟨found, read, done⟩ := bind_ok done
  cases found with
  | none => cases done
  | some record =>
    dsimp only at done
    split at done
    · cases done
    · rename_i purpose
      obtain ⟨_, _, done⟩ := bind_ok done
      split at done
      · cases done
      · cases pure_eq_ok.mp done
        exact ⟨AccountDatabase.findChallenge_held (orFault_ok (mapError_ok read)), not_not.mp purpose⟩

theorem readIdentity_holds {database : AccountDatabase Work} {choices : Choices}
    {challenge : VerificationChallenge} {work : Work} {input : VerificationCommit Work}
    (held : Held database.challenges challenge challenge.status)
    (done : readIdentity database choices challenge work = .ok input) :
    Spendable database.challenges input.challenge ∧ input.challenge.purpose = challenge.purpose ∧
      input.identity.status = .active := by
  obtain ⟨found, _, done⟩ := bind_ok done
  cases found with
  | none => cases done
  | some identity =>
    obtain ⟨consumed, consume, done⟩ := bind_ok done
    obtain ⟨verified, verify, done⟩ := bind_ok done
    obtain ⟨_, _, done⟩ := bind_ok done
    cases pure_eq_ok.mp done
    obtain ⟨spendable, status, purpose⟩ := held.consume consume
    exact ⟨⟨spendable, status⟩, purpose, (Identity.verify_inv verify).2.1⟩

end VerifyIdentity

theorem Call.next_holds {host : Host} {database : AccountDatabase Work} {choices : Choices}
    {call after : Call Work} (holds : call.Holds database.challenges)
    (done : call.next host database choices = .ok after) : after.Holds database.challenges := by
  cases call with
  | requested command =>
    cases command with
    | confirmPasswordReset challengeId token password work =>
      obtain ⟨link, read, done⟩ := bind_ok done
      cases pure_eq_ok.mp done
      exact ConfirmPasswordReset.readChallenge_holds read
    | verify challengeId token work =>
      obtain ⟨challenge, read, done⟩ := bind_ok done
      cases pure_eq_ok.mp done
      exact VerifyIdentity.readChallenge_holds read
    | authenticate email password work =>
      obtain ⟨login, _, done⟩ := bind_ok done
      cases pure_eq_ok.mp done
      trivial
    | revokeSession sessionToken work =>
      obtain ⟨read, _, done⟩ := bind_ok done
      cases read <;>
      · cases pure_eq_ok.mp done
        trivial
  | authenticated login =>
    obtain ⟨active, _, done⟩ := bind_ok done
    obtain ⟨evicted, _, done⟩ := bind_ok done
    cases pure_eq_ok.mp done
    trivial
  | confirming link =>
    obtain ⟨account, read, done⟩ := bind_ok done
    cases pure_eq_ok.mp done
    obtain ⟨_, _, same, active⟩ := ConfirmPasswordReset.readAccount_inv read
    refine ⟨?_, active⟩
    rw [same]
    exact holds
  | resetting account =>
    obtain ⟨active, _, done⟩ := bind_ok done
    obtain ⟨input, prepared, done⟩ := bind_ok done
    cases pure_eq_ok.mp done
    obtain ⟨challenge, _, _, identity, _⟩ := ConfirmPasswordReset.prepare_inv prepared
    simp only [Holds, challenge, identity]
    exact holds
  | verifying challenge work =>
    obtain ⟨input, read, done⟩ := bind_ok done
    cases pure_eq_ok.mp done
    obtain ⟨spendable, purpose, active⟩ := VerifyIdentity.readIdentity_holds holds.1 read
    exact ⟨spendable, purpose.trans holds.2, active⟩
  | _ =>
    cases done
    exact holds

/-- How a step may change the challenges and the identity. -/
structure Moves (before after : AccountDatabase Work) : Prop where
  challenges : ChallengesMove before.challenges after.challenges
  identity : after.identity.status = before.identity.status ∨ after.identity.status = .active

theorem Moves.refl (database : AccountDatabase Work) : Moves database database :=
  ⟨.refl _, .inl rfl⟩

variable [DecidableEq Work]

/-- An accepted commit moves challenges and identity on. -/
theorem Call.commit_moves {host : Host} {database after : AccountDatabase Work} {call : Call Work}
    {outcome : Outcome} (knows : call.Knows host database.credential)
    (holds : call.Holds database.challenges) (done : call.commit database = some (.ok after, outcome)) :
    Moves database after := by
  cases call with
  | opening login evicted =>
    simp only [commit, Option.some.injEq, Prod.mk.injEq] at done
    have opened := AccountDatabase.openSession_inv knows.2 done.1
    constructor
    · rw [opened.challenges]
      exact .refl _
    · rw [opened.identity]
      exact .inl rfl
  | replacing input =>
    simp only [commit, Option.some.injEq, Prod.mk.injEq] at done
    have replaced := AccountDatabase.resetPassword_inv knows.2.2 done.1
    obtain ⟨stored, _, spending⟩ := replaced.challenge
    refine ⟨spending.moves holds.1.consumed, ?_⟩
    rcases replaced.identity with same | ⟨identity, given, _, status⟩
    · rw [same]
      exact .inl rfl
    · exact .inr (status.trans (holds.2 identity given))
  | activating input =>
    simp only [commit, Option.some.injEq, Prod.mk.injEq] at done
    have verified := AccountDatabase.verifyIdentity_inv done.1
    obtain ⟨stored, spending⟩ := verified.challenge
    exact ⟨spending.moves holds.1.consumed, .inr (verified.identity.2.trans holds.2.2)⟩
  | revoking input =>
    simp only [commit, Option.some.injEq, Prod.mk.injEq] at done
    obtain ⟨_, identity, challenges, _⟩ := AccountDatabase.endSession_inv knows done.1
    constructor
    · rw [challenges]
      exact .refl _
    · rw [identity]
      exact .inl rfl
  | _ => simp [commit] at done

/-- The invariant: every call's copies are good, and its session facts hold. -/
structure AccountState.Holds (host : Host) (state : AccountState Work) : Prop where
  sound : state.Sound host
  calls : ∀ caller, (state.calls caller).Holds state.database.challenges

namespace AccountState.Holds

variable {host : Host} {state : AccountState Work}

omit [DecidableEq Work] in
private theorem calls_update {calls : Nat → Call Work} {challenges : ChallengeTable} {caller : Nat}
    {call : Call Work} (holds : ∀ other, (calls other).Holds challenges)
    (also : call.Holds challenges) (other : Nat) :
    (Function.update calls caller call other).Holds challenges :=
  (Function.forall_update_iff calls fun _ call => call.Holds challenges).mpr
    ⟨also, fun other _ => holds other⟩ other

theorem moves (holds : state.Holds host) (label : Label Work) :
    Moves state.database (state.step host label).database := by
  cases label with
  | request caller command =>
    simp only [step]
    split <;> exact .refl _
  | advance caller choices =>
    rcases AccountState.advance_cases host state caller choices with
      ⟨_, moved⟩ | ⟨_, moved⟩ | ⟨database, outcome, commits, moved⟩
    · rw [moved]
      exact .refl _
    · rw [moved]
      exact .refl _
    · rw [moved]
      exact Call.commit_moves (holds.sound.calls caller) (holds.calls caller) commits
  | issue id purpose issuedAt expiresAt tokenDigest event work fault =>
    simp only [step]
    split
    · rename_i database done
      obtain ⟨challenge, _, done⟩ := bind_ok done
      obtain ⟨_, identity, _, row, _, fresh, challenges⟩ :=
        AccountDatabase.issueChallenge_inv (orFault_ok done)
      constructor
      · rw [challenges]
        exact .set_new fresh
      · rw [identity]
        exact .inl rfl
    · exact .refl _
  | record sessionId time => exact ⟨.refl _, .inl rfl⟩
  | prune endedBefore idleBefore selected => exact ⟨.refl _, .inl rfl⟩

theorem step (holds : state.Holds host) (label : Label Work) :
    (AccountState.step host state label).Holds host := by
  refine ⟨holds.sound.step label, ?_⟩
  have later := fun caller => (holds.calls caller).later (holds.moves label).challenges
  cases label with
  | request caller command =>
    simp only [AccountState.step] at later ⊢
    split
    · exact calls_update holds.calls trivial
    · exact holds.calls
  | advance caller choices =>
    rcases AccountState.advance_cases host state caller choices with
      ⟨_, moved⟩ | ⟨_, moved⟩ | ⟨database, outcome, commits, moved⟩
    · rw [moved]
      refine calls_update holds.calls ?_
      cases done : (state.calls caller).next host state.database choices with
      | error error => trivial
      | ok after => exact Call.next_holds (holds.calls caller) done
    · rw [moved]
      exact calls_update holds.calls trivial
    · rw [moved] at later ⊢
      exact calls_update later trivial
  | issue id purpose issuedAt expiresAt tokenDigest event work fault =>
    simp only [AccountState.step] at later ⊢
    split at later
    · exact later
    · exact holds.calls
  | record sessionId time => exact holds.calls
  | prune endedBefore idleBefore selected => exact holds.calls

omit [DecidableEq Work] in
theorem registered (host : Host) (identity : IdentityState) (credential : CredentialRow)
    (challenges : ChallengeTable) (outbox : EventLog Work) :
    (AccountState.registered identity credential challenges outbox).Holds host :=
  ⟨.registered host identity credential challenges outbox, fun _ => trivial⟩

end AccountState.Holds

/-- The challenge that a call is about to commit as consumed. -/
def Call.spends : Call Work → Option ID
  | .replacing input => some input.challenge.id
  | .activating input => some input.challenge.id
  | _ => none

/-- This step is a successful commit that consumes the challenge. -/
def Consumes (host : Host) (state : AccountState Work) (caller : Nat) (choices : Choices) (id : ID) :
    Prop :=
  (state.calls caller).spends = some id ∧
    ∃ outcome, (state.step host (.advance caller choices)).calls caller = .returned (.ok outcome)

omit [DecidableEq Work] in
/-- The identity changes from pending to active. -/
def Activates (before after : AccountState Work) : Prop :=
  before.database.identity.status = .pendingVerification ∧ after.database.identity.status = .active

/-- A consuming commit found its challenge issued and left it consumed. -/
structure Consumed (before after : ChallengeTable) (id : ID) : Prop where
  issued : ∃ row, before.get id = some row ∧ row.status = .issued
  consumed : ∃ row time, after.get id = some row ∧ row.status = .consumed ∧
    row.consumedAt = some time ∧ row.issuedAt ≤ time ∧ time < row.expiresAt

omit [DecidableEq Work] in
private theorem Spending.consumed {before after : ChallengeTable} {challenge : VerificationChallenge}
    {stored : ChallengeRow} (spending : Spending before after challenge stored)
    (spendable : Spendable before challenge) :
    stored.purpose = challenge.purpose ∧ Consumed before after challenge.id := by
  obtain ⟨row, found, purpose, issued, expires, _, current⟩ := spendable.held
  have same : row = stored := Option.some.inj (found.symm.trans spending.found)
  subst same
  refine ⟨purpose, ⟨row, found, current spending.version.symm⟩, ?_⟩
  have consumption := challenge.consumption
  obtain ⟨time, spent⟩ := Option.ne_none_iff_exists'.mp (consumption.1.mp spendable.consumed)
  obtain ⟨after, before⟩ := consumption.2 time spent
  exact ⟨_, time, spending.get, spendable.consumed, spent, issued ▸ after, expires ▸ before⟩

namespace Consumes

variable {host : Host} {state : AccountState Work} {caller : Nat} {choices : Choices} {id : ID}

/-- The commit that a consuming step makes. -/
private theorem commits (consumes : Consumes host state caller choices id) :
    ∃ database outcome, (state.calls caller).commit state.database = some (.ok database, outcome) ∧
      (state.step host (.advance caller choices)).database = database := by
  obtain ⟨spends, outcome, accepted⟩ := consumes
  rcases AccountState.advance_cases host state caller choices with
    ⟨reads, moved⟩ | ⟨error, moved⟩ | ⟨database, outcome, commits, moved⟩
  · cases here : state.calls caller with
    | replacing input => simp [here, Call.commit] at reads
    | activating input => simp [here, Call.commit] at reads
    | _ => simp [here, Call.spends] at spends
  · rw [moved] at accepted
    simp at accepted
  · exact ⟨database, outcome, commits, by rw [moved]⟩

theorem consumed (consumes : Consumes host state caller choices id) (holds : state.Holds host) :
    Consumed state.database.challenges
      (state.step host (.advance caller choices)).database.challenges id := by
  obtain ⟨database, outcome, commits, moved⟩ := consumes.commits
  obtain ⟨spends, _⟩ := consumes
  have knows := holds.sound.calls caller
  have copies := holds.calls caller
  rw [moved]
  cases here : state.calls caller with
  | replacing input =>
    rw [here] at knows copies
    simp only [here, Call.commit, Option.some.injEq, Prod.mk.injEq] at commits
    obtain ⟨stored, _, spending⟩ := (AccountDatabase.resetPassword_inv knows.2.2 commits.1).challenge
    simp only [here, Call.spends, Option.some.injEq] at spends
    exact spends ▸ (spending.consumed copies.1).2
  | activating input =>
    rw [here] at knows copies
    simp only [here, Call.commit, Option.some.injEq, Prod.mk.injEq] at commits
    obtain ⟨stored, spending⟩ := (AccountDatabase.verifyIdentity_inv commits.1).challenge
    simp only [here, Call.spends, Option.some.injEq] at spends
    exact spends ▸ (spending.consumed copies.1).2
  | _ => simp [here, Call.spends] at spends

end Consumes

/-- The challenge is consumed, for good. -/
private def Spent (id : ID) (state : AccountState Work) : Prop :=
  ∃ row, state.database.challenges.get id = some row ∧ row.status = .consumed

private theorem Spent.step {host : Host} {state : AccountState Work} {id : ID}
    (holds : state.Holds host) (spent : Spent id state) (label : Label Work) :
    Spent id (AccountState.step host state label) := by
  obtain ⟨row, found, consumed⟩ := spent
  obtain ⟨moved, present, forward⟩ := (holds.moves label).challenges id row found
  refine ⟨moved, present, ?_⟩
  rcases forward.moved with same | ⟨_, also⟩
  · rw [same]
    exact consumed
  · exact also

/-- A step that changes the password hash is a reset's commit. -/
private theorem password_changed {host : Host} {state : AccountState Work} {label : Label Work}
    (holds : state.Holds host)
    (changed : (state.step host label).database.credential.passwordHash ≠
      state.database.credential.passwordHash) :
    ∃ caller choices id row, label = .advance caller choices ∧ Consumes host state caller choices id ∧
      state.database.challenges.get id = some row ∧ row.purpose = .passwordReset := by
  cases label with
  | request caller command =>
    exfalso
    apply changed
    simp only [AccountState.step]
    split <;> rfl
  | advance caller choices =>
    have knows := holds.sound.calls caller
    rcases AccountState.advance_cases host state caller choices with
      ⟨_, moved⟩ | ⟨_, moved⟩ | ⟨database, outcome, commits, moved⟩
    · exact absurd (by rw [moved]) changed
    · exact absurd (by rw [moved]) changed
    · have accepted : (state.step host (.advance caller choices)).calls caller =
          .returned (.ok outcome) := by
        rw [moved]
        exact Function.update_self ..
      rw [moved] at changed
      cases here : state.calls caller with
      | replacing input =>
        rw [here] at knows
        simp only [here, Call.commit, Option.some.injEq, Prod.mk.injEq] at commits
        obtain ⟨stored, purpose, spending⟩ :=
          (AccountDatabase.resetPassword_inv knows.2.2 commits.1).challenge
        exact ⟨caller, choices, input.challenge.id, stored, rfl,
          ⟨by rw [here]; rfl, outcome, accepted⟩, spending.found, purpose⟩
      | opening login evicted =>
        rw [here] at knows
        simp only [here, Call.commit, Option.some.injEq, Prod.mk.injEq] at commits
        exact absurd (by rw [(AccountDatabase.openSession_inv knows.2 commits.1).credential]) changed
      | activating input =>
        simp only [here, Call.commit, Option.some.injEq, Prod.mk.injEq] at commits
        exact absurd (by rw [(AccountDatabase.verifyIdentity_inv commits.1).credential]) changed
      | revoking input =>
        rw [here] at knows
        simp only [here, Call.commit, Option.some.injEq, Prod.mk.injEq] at commits
        exact absurd (by rw [(AccountDatabase.endSession_inv knows commits.1).1]) changed
      | _ => simp [here, Call.commit] at commits
  | issue id purpose issuedAt expiresAt tokenDigest event work fault =>
    exfalso
    apply changed
    simp only [AccountState.step]
    split
    · rename_i database done
      obtain ⟨challenge, _, done⟩ := bind_ok done
      rw [(AccountDatabase.issueChallenge_inv (orFault_ok done)).1]
    · rfl
  | record sessionId time => exact absurd rfl changed
  | prune endedBefore idleBefore selected => exact absurd rfl changed

/-- What single use means in one state of a run, for every way the run goes on. -/
structure SpentOnce (host : Host) (state : AccountState Work) : Prop where
  /-- No later commit consumes the challenge that this step consumes. -/
  once : ∀ caller choices id, Consumes host state caller choices id → ∀ later other choices',
    ¬ Consumes host (run (AccountState.step host) (state.step host (.advance caller choices)) later)
      other choices' id
  /-- The commit lies within the challenge's lifetime. -/
  within : ∀ caller choices id, Consumes host state caller choices id →
    ∃ row time, (state.step host (.advance caller choices)).database.challenges.get id = some row ∧
      row.consumedAt = some time ∧ row.issuedAt ≤ time ∧ time < row.expiresAt
  /-- The identity turns from pending to active at most once. -/
  activated : ∀ label, Activates state (state.step host label) → ∀ later label',
    ¬ Activates (run (AccountState.step host) (state.step host label) later)
      ((run (AccountState.step host) (state.step host label) later).step host label')
  /-- Only a commit that consumes a reset challenge changes the password. -/
  password : ∀ label, (state.step host label).database.credential.passwordHash ≠
      state.database.credential.passwordHash →
    ∃ caller choices id row, label = .advance caller choices ∧ Consumes host state caller choices id ∧
      state.database.challenges.get id = some row ∧ row.purpose = .passwordReset
  /-- What `VerifyIdentity` consumes is no reset challenge. -/
  purpose : ∀ caller choices input id row, state.calls caller = .activating input →
    Consumes host state caller choices id → state.database.challenges.get id = some row →
    row.purpose ≠ .passwordReset

private theorem AccountState.Holds.spentOnce {host : Host} {state : AccountState Work}
    (holds : state.Holds host) : SpentOnce host state where
  once := by
    intro caller choices id consumes later other choices' again
    obtain ⟨row, _, found, consumed, _⟩ := (consumes.consumed holds).consumed
    have kept := run_invariant
      (fun state : AccountState Work => state.Holds host ∧ Spent id state)
      (fun _ label both => ⟨both.1.step label, both.2.step both.1 label⟩)
      ⟨holds.step (.advance caller choices), row, found, consumed⟩ later
    obtain ⟨stored, present, issued⟩ := (again.consumed kept.1).issued
    obtain ⟨spent, also, status⟩ := kept.2
    rw [present] at also
    cases also
    rw [issued] at status
    cases status
  within := by
    intro caller choices id consumes
    obtain ⟨row, time, found, _, rest⟩ := (consumes.consumed holds).consumed
    exact ⟨row, time, found, rest⟩
  activated := by
    rintro label ⟨_, active⟩ later label' ⟨pending, _⟩
    have kept := run_invariant
      (fun state : AccountState Work => state.Holds host ∧
        state.database.identity.status = .active)
      (fun _ label both => ⟨both.1.step label,
        (both.1.moves label).identity.elim (fun same => same.trans both.2) id⟩)
      ⟨holds.step label, active⟩ later
    rw [kept.2] at pending
    cases pending
  password := fun _ changed => password_changed holds changed
  purpose := by
    intro caller choices input id row here consumes found reset
    obtain ⟨database, outcome, commits, _⟩ := consumes.commits
    have copies := holds.calls caller
    rw [here] at copies
    simp only [here, Call.commit, Option.some.injEq, Prod.mk.injEq] at commits
    obtain ⟨stored, spending⟩ := (AccountDatabase.verifyIdentity_inv commits.1).challenge
    have named : input.challenge.id = id := by simpa [here, Call.spends] using consumes.1
    rw [← named, spending.found] at found
    cases found
    rw [(spending.consumed copies.1).1, copies.2.1] at reset
    cases reset

/-- A challenge is spent at most once and only for its purpose, in every state that
any interleaving of the commands reaches. -/
theorem challenges_spent_once (host : Host) (identity : IdentityState)
    (credential : CredentialRow) (challenges : ChallengeTable) (outbox : EventLog Work)
    (labels : List (Label Work)) :
    SpentOnce host (run (AccountState.step host)
      (AccountState.registered identity credential challenges outbox) labels) := by
  have holds := run_invariant (AccountState.Holds host) (fun _ label holds => holds.step label)
    (AccountState.Holds.registered host identity credential challenges outbox) labels
  exact holds.spentOnce

end N2FNest.Identities
