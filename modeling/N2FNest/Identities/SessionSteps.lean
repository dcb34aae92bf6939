import N2FNest.Identities.Sessions

/-! What a step of an account does to its sessions: a row stays as it is, apart from its
activity, or is revoked at a later version; a new row is one a login inserted. -/

namespace N2FNest.Identities

open Events Lib Shared

variable {Work : Type}

section Evictions

variable [DecidableEq Work]

/-- Each eviction found its row at the version it was read at, and left it revoked. -/
theorem evictAll_ended {tables next : SessionTable × EventLog Work} {evicted : List (SessionEviction Work)}
    (revoked : ∀ eviction ∈ evicted, eviction.session.status = .revoked)
    (done : evictAll tables evicted = .ok next) : ∀ eviction ∈ evicted,
      (∃ row ∈ tables.1.rows, row.id = eviction.session.id ∧ row.version ≤ eviction.session.version) ∧
        ∃ row ∈ next.1.rows, row.id = eviction.session.id ∧ row.status = .revoked := by
  induction evicted generalizing tables with
  | nil => exact List.forall_mem_nil _
  | cons eviction rest ih =>
    obtain ⟨here, others⟩ := List.forall_mem_cons.mp revoked
    obtain ⟨sessions, first, later⟩ := bind_ok done
    obtain ⟨outbox, _, later⟩ := bind_ok later
    have before := revokeSession_step here first False
    have after := evictAll_step others later False
    refine List.forall_mem_cons.mpr ⟨?_, fun other member => ?_⟩
    · obtain ⟨stored, found, version, rfl⟩ := revokeSession_inv first
      have named := Table.key_of_get found
      refine ⟨⟨stored, Table.mem_of_get found, named, version.le⟩, ?_⟩
      obtain ⟨row, present, follows⟩ := after.kept _ (Table.mem_set.mpr (.inl rfl))
      exact ⟨row, present, follows.id.trans named, follows.revoked here⟩
    · obtain ⟨⟨row, present, named, version⟩, ended⟩ := ih others later other member
      refine ⟨?_, ended⟩
      rcases before.added row present with impossible | ⟨old, there, same⟩
      · cases impossible
      · obtain ⟨now, also, follows⟩ := before.kept old there
        have equal := Table.eq_of_key also present (follows.id.trans same)
        subst equal
        exact ⟨old, there, same.trans named, follows.version_le.trans version⟩

namespace AccountDatabase

/-- An accepted login revoked what it evicts, and inserted its session. -/
structure Evicted (before after : AccountDatabase Work) (input : SessionCommit Work) : Prop where
  step : ∀ still, SessionsStep still before.sessions after.sessions [input.session.id]
  found : ∀ eviction ∈ input.evicted, ∃ row ∈ before.sessions.rows,
    row.id = eviction.session.id ∧ row.version ≤ eviction.session.version
  ended : ∀ eviction ∈ input.evicted, ∃ row ∈ after.sessions.rows,
    row.id = eviction.session.id ∧ row.status = .revoked

theorem openSession_evicted {database next : AccountDatabase Work} {input : SessionCommit Work}
    (revoked : ∀ eviction ∈ input.evicted, eviction.session.status = .revoked)
    (done : database.openSession input = .ok next) : Evicted database next input := by
  obtain ⟨_, _, done⟩ := bind_ok done
  split at done
  · obtain ⟨⟨evicted, _⟩, evict, done⟩ := bind_ok done
    obtain ⟨sessions, insert, done⟩ := bind_ok done
    obtain ⟨_, _, done⟩ := bind_ok done
    cases pure_eq_ok.mp done
    simp only [insertSession, refuse_ok, Except.ok.injEq, not_or] at insert
    obtain ⟨⟨fresh, _⟩, rfl⟩ := insert
    have other : ∀ row ∈ evicted.rows, row.id ≠ input.session.id := by
      intro row member same
      rw [← same, Table.get_of_mem member] at fresh
      exact fresh rfl
    have inserts : ∀ still, SessionsStep still evicted (evicted.set
        ⟨{ input.session.toSessionState with version := FIRST }, input.tokenDigest⟩)
        [input.session.id] := by
      intro still
      constructor
      · intro row member
        exact ⟨row, Table.mem_set.mpr (.inr ⟨member, other row member⟩), .refl row⟩
      · intro row member
        rcases Table.mem_set.mp member with rfl | ⟨present, -⟩
        · exact .inl List.mem_cons_self
        · exact .inr ⟨row, present, rfl⟩
    have evictions := evictAll_ended revoked evict
    refine ⟨fun still => ?_, fun eviction member => (evictions eviction member).1, ?_⟩
    · exact (evictAll_step revoked evict still).trans (inserts still)
    · intro eviction member
      obtain ⟨row, present, named, ended⟩ := (evictions eviction member).2
      exact ⟨row, Table.mem_set.mpr (.inr ⟨present, other row present⟩), named, ended⟩
  · cases done

theorem resetPassword_step {database next : AccountDatabase Work} {input : ResetCommit Work}
    (revoked : ∀ eviction ∈ input.revoked, eviction.session.status = .revoked)
    (done : database.resetPassword input = .ok next) (still : Prop) :
    SessionsStep still database.sessions next.sessions [] := by
  obtain ⟨_, _, done⟩ := bind_ok done
  split at done
  · obtain ⟨challenges, _, done⟩ := bind_ok done
    obtain ⟨identity, _, done⟩ := bind_ok done
    obtain ⟨sessions, ended, done⟩ := bind_ok done
    split at done
    · cases done
    · obtain ⟨outbox, _, done⟩ := bind_ok done
      cases pure_eq_ok.mp done
      exact revokeAll_step (by simpa using revoked) ended still
  · cases done

theorem endSession_step {database next : AccountDatabase Work} {input : RevocationCommit Work}
    (revoked : input.session.status = .revoked) (done : database.endSession input = .ok next)
    (still : Prop) : SessionsStep still database.sessions next.sessions [] := by
  obtain ⟨_, _, done⟩ := bind_ok done
  obtain ⟨sessions, ended, done⟩ := bind_ok done
  obtain ⟨outbox, _, done⟩ := bind_ok done
  cases pure_eq_ok.mp done
  exact revokeSession_step revoked ended still

end AccountDatabase

end Evictions

def Label.prunes : Label Work → Bool
  | .prune _ _ _ => true
  | _ => false

def Label.records : Label Work → Bool
  | .record _ _ => true
  | _ => false

variable [DecidableEq Work] (host : Host)

namespace AccountState

/-- The login a step commits. -/
def committed (state : AccountState Work) : Label Work → Option (SessionCommit Work)
  | .advance caller choices =>
    match state.calls caller, (state.step host (.advance caller choices)).calls caller with
    | .opening login evicted, .returned (.ok _) => some (login.commit evicted)
    | _, _ => none
  | _ => none

/-- The logins a run commits, in order. -/
def loginCommits : AccountState Work → List (Label Work) → List (SessionCommit Work)
  | _, [] => []
  | state, label :: rest =>
    (state.committed host label).toList ++ loginCommits (state.step host label) rest

variable {host} {state : AccountState Work}

/-- What a step does to the sessions, and to the database where it commits a login. -/
structure StepEffect (host : Host) (state : AccountState Work) (label : Label Work) : Prop where
  step : SessionsStep (label.records = false) state.database.sessions
    (state.step host label).database.sessions
    ((state.committed host label).toList.map fun input => input.session.id)
  evicts : ∀ input, state.committed host label = some input →
    AccountDatabase.Evicted state.database (state.step host label).database input

private theorem StepEffect.idle {label : Label Work} (nothing : state.committed host label = none)
    (same : (state.step host label).database.sessions = state.database.sessions) :
    StepEffect host state label := by
  refine ⟨?_, fun input made => ?_⟩
  · rw [nothing, same]
    exact .refl _
  · rw [nothing] at made
    cases made

private theorem committed_other {caller : Nat} (choices : Choices)
    (other : ∀ login evicted, state.calls caller ≠ .opening login evicted) :
    state.committed host (.advance caller choices) = none := by
  simp only [committed]
  split
  · rename_i login evicted _ here _
    exact absurd here (other login evicted)
  · rfl

private theorem advance_effect (sound : state.Sound host) (caller : Nat) (choices : Choices) :
    StepEffect host state (.advance caller choices) := by
  have knows := sound.calls caller
  rcases AccountState.advance_cases host state caller choices with
    ⟨reads, moved⟩ | ⟨error, refused⟩ | ⟨database, outcome, commits, accepted⟩
  · refine .idle (committed_other choices fun login evicted here => ?_) (by rw [moved])
    simp [here, Call.commit] at reads
  · refine .idle ?_ (by rw [refused])
    simp [committed, refused]
  · have opened : ∀ login evicted, state.calls caller = .opening login evicted →
        state.committed host (.advance caller choices) = some (login.commit evicted) := by
      intro login evicted here
      simp [committed, accepted, here]
    have unopened : (∀ login evicted, state.calls caller ≠ .opening login evicted) →
        (∀ still, SessionsStep still state.database.sessions database.sessions []) →
        StepEffect host state (.advance caller choices) := by
      intro different step
      refine ⟨?_, fun input made => ?_⟩
      · rw [committed_other choices different, accepted]
        exact step _
      · rw [committed_other choices different] at made
        cases made
    cases here : state.calls caller with
    | opening login evicted =>
      rw [here] at knows
      simp only [here, Call.commit, Option.some.injEq, Prod.mk.injEq] at commits
      have evicts := AccountDatabase.openSession_evicted knows.2 commits.1
      refine ⟨?_, fun input made => ?_⟩
      · rw [opened login evicted here, accepted]
        exact evicts.step _
      · rw [opened login evicted here] at made
        cases made
        rw [accepted]
        exact evicts
    | replacing input =>
      rw [here] at knows
      simp only [here, Call.commit, Option.some.injEq, Prod.mk.injEq] at commits
      refine unopened (by simp [here]) ?_
      exact AccountDatabase.resetPassword_step knows.2.2 commits.1
    | activating input =>
      simp only [here, Call.commit, Option.some.injEq, Prod.mk.injEq] at commits
      refine unopened (by simp [here]) fun still => ?_
      rw [(AccountDatabase.verifyIdentity_inv commits.1).sessions]
      exact .refl _
    | revoking input =>
      rw [here] at knows
      simp only [here, Call.commit, Option.some.injEq, Prod.mk.injEq] at commits
      exact unopened (by simp [here]) (AccountDatabase.endSession_step knows commits.1)
    | _ => simp [here, Call.commit] at commits

/-- Every step but pruning lets each session follow itself. -/
theorem step_effect (sound : state.Sound host) {label : Label Work} (unpruned : label.prunes = false) :
    StepEffect host state label := by
  cases label with
  | request caller command =>
    refine .idle rfl ?_
    simp only [step]
    split <;> rfl
  | advance caller choices => exact advance_effect sound caller choices
  | issue id purpose issuedAt expiresAt tokenDigest event work fault =>
    refine .idle rfl ?_
    simp only [step]
    split
    · rename_i database done
      obtain ⟨challenge, _, done⟩ := bind_ok done
      obtain ⟨-, -, sessions, -⟩ := AccountDatabase.issueChallenge_inv (orFault_ok done)
      exact sessions
    · rfl
  | record sessionId time =>
    refine ⟨?_, fun input made => by cases made⟩
    refine (state.database.recordActivity_step sessionId time).weaken ?_
    exact fun quiet => Bool.noConfusion quiet
  | prune endedBefore idleBefore selected => cases unpruned

/-- The same over a run, with the ids of the logins it commits. -/
theorem run_sessions (sound : state.Sound host) {labels : List (Label Work)}
    (unpruned : ∀ label ∈ labels, label.prunes = false) :
    SessionsStep (∀ label ∈ labels, label.records = false) state.database.sessions
      (run (step host) state labels).database.sessions
      ((loginCommits host state labels).map fun input => input.session.id) := by
  induction labels generalizing state with
  | nil => exact .refl _
  | cons label rest ih =>
    obtain ⟨here, later⟩ := List.forall_mem_cons.mp unpruned
    rw [loginCommits, List.map_append]
    refine ((step_effect sound here).step.weaken ?_).trans ((ih (sound.step label) later).weaken ?_)
    · exact fun still => (List.forall_mem_cons.mp still).1
    · exact fun still => (List.forall_mem_cons.mp still).2

end AccountState

end N2FNest.Identities
