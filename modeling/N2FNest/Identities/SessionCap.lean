import N2FNest.Identities.SessionSteps

/-! The cap on an identity's sessions. A login lists the active ones, and revokes the oldest
usable ones when it commits; what other logins insert in between is all that can exceed the cap. -/

namespace N2FNest.Identities

open Events Lib Shared

variable {Work : Type}

/-- Whether a stored session can authenticate. -/
def SessionRow.usable (row : SessionRow) (time idleTimeoutMs : Int) : Bool :=
  match Session.restore row.toSessionState with
  | .ok session => (session.assertUsable (some time) idleTimeoutMs).isOk
  | .error _ => false

/-- The identity's sessions that can authenticate. -/
def usableSessions (sessions : SessionTable) (identityId : ID) (time idleTimeoutMs : Int) :
    List SessionRow :=
  sessions.rows.filter fun row => row.identityId = identityId && row.usable time idleTimeoutMs

/-- Rows have ids of their own, so the ids that the usable ones may have bound their number. -/
theorem usableSessions_length_le {sessions : SessionTable} {identityId : ID}
    {time idleTimeoutMs : Int} {ids : List ID}
    (inside : ∀ row ∈ usableSessions sessions identityId time idleTimeoutMs, row.id ∈ ids) :
    (usableSessions sessions identityId time idleTimeoutMs).length ≤ ids.length := by
  have distinct : ((usableSessions sessions identityId time idleTimeoutMs).map fun row =>
      row.id).Nodup :=
    (List.filter_sublist.map fun row : SessionRow => row.id).nodup sessions.unique
  have subset : ((usableSessions sessions identityId time idleTimeoutMs).map fun row => row.id) ⊆ ids := by
    intro id member
    obtain ⟨row, present, rfl⟩ := List.mem_map.mp member
    exact inside row present
  have bound := (List.subperm_of_subset distinct subset).length_le
  rwa [List.length_map] at bound

theorem SessionRow.usable_active {row : SessionRow} {time idleTimeoutMs : Int}
    (usable : row.usable time idleTimeoutMs = true) : row.status = .active := by
  unfold SessionRow.usable at usable
  split at usable
  · rename_i session restored
    have same := congrArg SessionState.status (Session.restore_ok restored)
    cases status : row.status with
    | active => rfl
    | revoked =>
      rw [status] at same
      simp [Session.assertUsable, same, Except.isOk, Except.toBool] at usable
  · cases usable

/-- The revoked sessions stand for the ones they were made from, in order. -/
theorem revokeEach_same {choices : Choices} {reason : String} {instant : JsDate} {occurredAt : Int}
    {work : Work} {identityId : Session → ID} {index : Nat} {sessions : List Session}
    {evicted : List (SessionEviction Work)}
    (done : revokeEach choices reason instant occurredAt work identityId index sessions = .ok evicted) :
    (∀ session ∈ sessions, ∃ eviction ∈ evicted, eviction.session.id = session.id) ∧
      ∀ eviction ∈ evicted, ∃ session ∈ sessions, eviction.session.id = session.id ∧
        eviction.session.version = session.version ∧
        eviction.session.createdAt = session.createdAt := by
  induction sessions generalizing index evicted with
  | nil =>
    cases done
    exact ⟨List.forall_mem_nil _, List.forall_mem_nil _⟩
  | cons session rest ih =>
    obtain ⟨revoked, revoke, done⟩ := bind_ok done
    obtain ⟨event, _, done⟩ := bind_ok done
    obtain ⟨later, tail, done⟩ := bind_ok done
    cases pure_eq_ok.mp done
    obtain ⟨-, named, version⟩ := Session.revoke_inv revoke
    have created := Session.revoke_created revoke
    obtain ⟨forward, backward⟩ := ih tail
    constructor
    · refine List.forall_mem_cons.mpr ⟨⟨_, List.mem_cons_self, named⟩, fun other member => ?_⟩
      obtain ⟨eviction, present, same⟩ := forward other member
      exact ⟨eviction, List.mem_cons_of_mem _ present, same⟩
    · refine List.forall_mem_cons.mpr
        ⟨⟨session, List.mem_cons_self, named, version, created⟩, fun other member => ?_⟩
      obtain ⟨source, present, same⟩ := backward other member
      exact ⟨source, List.mem_cons_of_mem _ present, same⟩

/-- What a login saw and decided: the usable rows that it keeps, and the ones it revokes. -/
structure Decided (host : Host) (sessions : SessionTable) (login : Session) (kept : List ID)
    (evicted : List (SessionEviction Work)) : Prop where
  few : kept.length ≤ host.maxActivePerIdentity - 1
  seen : ∀ row ∈ usableSessions sessions login.identityId login.createdAt host.idleTimeoutMs,
    row.id ∈ kept ∨ ∃ eviction ∈ evicted, eviction.session.id = row.id
  rows : ∀ eviction ∈ evicted,
    ∃ row ∈ usableSessions sessions login.identityId login.createdAt host.idleTimeoutMs,
      row.id = eviction.session.id ∧ row.version = eviction.session.version ∧
        row.createdAt = eviction.session.createdAt
  order : ∀ row ∈ usableSessions sessions login.identityId login.createdAt host.idleTimeoutMs,
    (∀ eviction ∈ evicted, eviction.session.id ≠ row.id) →
      ∀ eviction ∈ evicted, eviction.session.createdAt ≤ row.createdAt

/-- The active rows of the identity, as sessions. -/
private theorem listActive_same {database : AccountDatabase Work} {identityId : ID}
    {active : List Session} (done : database.listActive identityId = .ok active) :
    (∀ row ∈ database.sessions.rows, row.identityId = identityId → row.status = .active →
      ∃ session ∈ active, Session.restore row.toSessionState = .ok session) ∧
    ∀ session ∈ active, ∃ row ∈ database.sessions.rows, row.identityId = identityId ∧
      Session.restore row.toSessionState = .ok session := by
  obtain ⟨forward, backward⟩ := mapM_ok done
  constructor
  · intro row member owned active
    apply forward
    rw [List.mem_insertionSort]
    exact List.mem_filter.mpr ⟨member, by simp [owned, active]⟩
  · intro session member
    obtain ⟨row, present, restored⟩ := backward session member
    rw [List.mem_insertionSort] at present
    obtain ⟨there, chosen⟩ := List.mem_filter.mp present
    exact ⟨row, there, (of_decide_eq_true chosen).1, restored⟩

theorem evictions_decided {host : Host} {database : AccountDatabase Work} {choices : Choices}
    {created : Session} {work : Work} {active : List Session} {evicted : List (SessionEviction Work)}
    (listed : database.listActive created.identityId = .ok active)
    (done : AuthenticateIdentity.evictions host choices created work active = .ok evicted) :
    ∃ kept, Decided host database.sessions created kept evicted := by
  obtain ⟨toSession, toRow⟩ := listActive_same listed
  obtain ⟨forward, backward⟩ := revokeEach_same done
  let ordered := (active.filter fun candidate =>
    (candidate.assertUsable (some created.createdAt) host.idleTimeoutMs).isOk).insertionSort
      fun left right => right.createdAt ≤ left.createdAt
  have sorted : ordered.Pairwise fun left right => right.createdAt ≤ left.createdAt := by
    have : Std.Total fun (left right : Session) => right.createdAt ≤ left.createdAt :=
      ⟨fun left right => Int.le_total right.createdAt left.createdAt⟩
    have : IsTrans Session fun left right => right.createdAt ≤ left.createdAt :=
      ⟨fun first second third earlier later => Int.le_trans later earlier⟩
    exact List.pairwise_insertionSort _ _
  have mem_ordered : ∀ session, session ∈ ordered ↔ session ∈ active ∧
      (session.assertUsable (some created.createdAt) host.idleTimeoutMs).isOk = true := by
    intro session
    rw [List.mem_insertionSort, List.mem_filter]
  -- a usable row is one of the sessions that were ordered
  have seen : ∀ row ∈ usableSessions database.sessions created.identityId created.createdAt
      host.idleTimeoutMs, ∃ session ∈ ordered, session.toSessionState = row.toSessionState := by
    intro row member
    obtain ⟨present, chosen⟩ := List.mem_filter.mp member
    obtain ⟨owned, usable⟩ := Bool.and_eq_true_iff.mp chosen
    obtain ⟨session, found, restored⟩ := toSession row present (of_decide_eq_true owned)
      (SessionRow.usable_active usable)
    rw [SessionRow.usable, restored] at usable
    exact ⟨session, (mem_ordered session).mpr ⟨found, usable⟩, Session.restore_ok restored⟩
  refine ⟨(ordered.take (host.maxActivePerIdentity - 1)).map fun session => session.id, ?_, ?_, ?_, ?_⟩
  · rw [List.length_map]
    exact List.length_take_le _ _
  · intro row member
    obtain ⟨session, found, same⟩ := seen row member
    have named : session.id = row.id := congrArg SessionState.id same
    rw [← List.take_append_drop (host.maxActivePerIdentity - 1) ordered] at found
    rcases List.mem_append.mp found with early | late
    · exact .inl (named ▸ List.mem_map_of_mem early)
    · obtain ⟨eviction, present, also⟩ := forward session late
      exact .inr ⟨eviction, present, also.trans named⟩
  · intro eviction member
    obtain ⟨session, late, named, version, createdAt⟩ := backward eviction member
    obtain ⟨found, usable⟩ := (mem_ordered session).mp (List.mem_of_mem_drop late)
    obtain ⟨row, present, owned, restored⟩ := toRow session found
    have same := Session.restore_ok restored
    refine ⟨row, List.mem_filter.mpr ⟨present, ?_⟩, ?_, ?_, ?_⟩
    · simp only [owned, decide_true, Bool.true_and, SessionRow.usable, restored, usable]
    · rw [named]
      exact congrArg SessionState.id same.symm
    · rw [version]
      exact congrArg SessionState.version same.symm
    · rw [createdAt]
      exact congrArg SessionState.createdAt same.symm
  · intro row member spared eviction present
    obtain ⟨session, found, same⟩ := seen row member
    obtain ⟨stale, late, -, -, createdAt⟩ := backward eviction present
    rw [← List.take_append_drop (host.maxActivePerIdentity - 1) ordered] at found sorted
    rcases List.mem_append.mp found with early | dropped
    · have newer := (List.pairwise_append.mp sorted).2.2 session early stale late
      rw [createdAt]
      exact newer.trans (congrArg SessionState.createdAt same).le
    · obtain ⟨other, also, named⟩ := forward session dropped
      exact absurd (named.trans (congrArg SessionState.id same)) (spared other also)

/-- A session that a login is about to revoke is as it was read, or revoked since. -/
def Stands (sessions : SessionTable) (session : Session) : Prop :=
  ∃ row ∈ sessions.rows, row.id = session.id ∧
    (row.status = .active ∧ row.version = session.version ∨
      row.status = .revoked ∧ session.version < row.version)

theorem Stands.later {still : Prop} {before after : SessionTable} {opened : List ID} {session : Session}
    (stands : Stands before session) (step : SessionsStep still before after opened) :
    Stands after session := by
  obtain ⟨row, member, named, state⟩ := stands
  obtain ⟨later, present, follows⟩ := step.kept row member
  refine ⟨later, present, follows.id.trans named, ?_⟩
  rcases state with ⟨active, version⟩ | ⟨ended, newer⟩
  · rcases follows.moved with ⟨ended, newer⟩ | ⟨status, same, -⟩
    · exact .inr ⟨ended, version ▸ newer⟩
    · exact .inl ⟨status.trans active, same.trans version⟩
  · exact .inr ⟨follows.revoked ended, newer.trans_le follows.version_le⟩

/-- A session whose row is at the version it was read at is active. -/
theorem Stands.active {sessions : SessionTable} {session : Session} (stands : Stands sessions session)
    {row : SessionRow} (member : row ∈ sessions.rows) (named : row.id = session.id)
    (version : row.version ≤ session.version) : row.status = .active := by
  obtain ⟨other, present, same, state⟩ := stands
  have equal := Table.eq_of_key present member (same.trans named.symm)
  subst equal
  rcases state with ⟨active, -⟩ | ⟨-, newer⟩
  · exact active
  · omega

/-- Only a login that was authenticated gets to its commit. -/
theorem Call.next_opening {host : Host} {database : AccountDatabase Work} {choices : Choices}
    {call : Call Work} {login : Login Work} {evicted : List (SessionEviction Work)}
    (done : call.next host database choices = .ok (.opening login evicted)) :
    call = .authenticated login ∨ call = .opening login evicted := by
  cases call with
  | requested command =>
    cases command with
    | revokeSession sessionToken work =>
      obtain ⟨read, _, done⟩ := bind_ok done
      cases read <;> cases pure_eq_ok.mp done
    | _ =>
      obtain ⟨_, _, done⟩ := bind_ok done
      cases pure_eq_ok.mp done
  | authenticated authenticated =>
    obtain ⟨_, _, done⟩ := bind_ok done
    obtain ⟨_, _, done⟩ := bind_ok done
    cases pure_eq_ok.mp done
    exact .inl rfl
  | confirming link =>
    obtain ⟨_, _, done⟩ := bind_ok done
    cases pure_eq_ok.mp done
  | resetting account =>
    obtain ⟨_, _, done⟩ := bind_ok done
    obtain ⟨_, _, done⟩ := bind_ok done
    cases pure_eq_ok.mp done
  | verifying challenge work =>
    obtain ⟨_, _, done⟩ := bind_ok done
    cases pure_eq_ok.mp done
  | opening => exact .inr (Except.ok.inj done)
  | _ => cases done

namespace AccountState

variable [DecidableEq Work] {host : Host} {state : AccountState Work}

/-- Every pending login's evictions stand. -/
def Pending (state : AccountState Work) : Prop :=
  ∀ caller login evicted, state.calls caller = .opening login evicted →
    ∀ eviction ∈ evicted, Stands state.database.sessions eviction.session

/-- The step that lists the active sessions, and what it decides. -/
theorem listing_decided {caller : Nat} {choices : Choices} {login : Login Work}
    {evicted : List (SessionEviction Work)} (asked : state.calls caller = .authenticated login)
    (listed : (state.step host (.advance caller choices)).calls caller = .opening login evicted) :
    (state.step host (.advance caller choices)).database = state.database ∧
      ∃ kept, Decided host state.database.sessions login.session kept evicted := by
  simp only [step, asked, Call.advance, Call.commit, Function.update_self] at listed ⊢
  refine ⟨trivial, ?_⟩
  simp only [Call.next] at listed
  cases read : (orFault choices.fault (state.database.listActive login.session.identityId)).mapError
      dependencyFailure with
  | error error =>
    rw [read] at listed
    cases listed
  | ok active =>
    simp only [read, ok_bind] at listed
    cases done : AuthenticateIdentity.evictions host choices login.session login.work active with
    | error error =>
      rw [done] at listed
      cases listed
    | ok evictions =>
      rw [done] at listed
      cases listed
      exact evictions_decided (orFault_ok (mapError_ok read)) done

/-- A login gets to its commit by its own listing step, and stays there until its next one. -/
theorem opening_origin {label : Label Work} {caller : Nat} {login : Login Work}
    {evicted : List (SessionEviction Work)}
    (opening : (state.step host label).calls caller = .opening login evicted) :
    state.calls caller = .opening login evicted ∨
      ∃ choices, label = .advance caller choices ∧ state.calls caller = .authenticated login := by
  cases label with
  | request other command =>
    simp only [step] at opening
    split at opening
    · by_cases same : caller = other
      · subst same
        simp at opening
      · exact .inl ((Function.update_of_ne same ..).symm.trans opening)
    · exact .inl opening
  | advance other choices =>
    by_cases same : caller = other
    · subst same
      rcases advance_cases host state caller choices with
        ⟨reads, moved⟩ | ⟨error, refused⟩ | ⟨database, outcome, commits, accepted⟩
      · rw [moved] at opening
        simp only [Function.update_self] at opening
        cases done : (state.calls caller).next host state.database choices with
        | error error =>
          rw [done] at opening
          cases opening
        | ok after =>
          rw [done] at opening
          have after_eq : after = .opening login evicted := opening
          subst after_eq
          rcases Call.next_opening done with asked | waiting
          · exact .inr ⟨choices, rfl, asked⟩
          · exact .inl waiting
      · rw [refused] at opening
        simp at opening
      · rw [accepted] at opening
        simp at opening
    · left
      rw [← opening]
      exact (Function.update_of_ne same ..).symm
  | issue id purpose issuedAt expiresAt tokenDigest event work fault =>
    simp only [step] at opening
    split at opening <;> exact .inl opening
  | record sessionId time => exact .inl opening
  | prune endedBefore idleBefore selected => exact .inl opening

theorem Pending.step (pending : state.Pending) (sound : state.Sound host) {label : Label Work}
    (unpruned : label.prunes = false) : (state.step host label).Pending := by
  intro caller login evicted opening eviction member
  rcases opening_origin opening with waiting | ⟨choices, rfl, asked⟩
  · exact (pending caller login evicted waiting eviction member).later (step_effect sound unpruned).step
  · obtain ⟨same, kept, decided⟩ := listing_decided asked opening
    rw [same]
    obtain ⟨row, usable, named, version, -⟩ := decided.rows eviction member
    obtain ⟨present, chosen⟩ := List.mem_filter.mp usable
    obtain ⟨-, usable⟩ := Bool.and_eq_true_iff.mp chosen
    exact ⟨row, present, named, .inl ⟨SessionRow.usable_active usable, version⟩⟩

/-- What a committed login was about to commit. -/
theorem committed_opening {label : Label Work} {input : SessionCommit Work}
    (made : state.committed host label = some input) :
    ∃ caller login evicted, state.calls caller = .opening login evicted ∧
      input = login.commit evicted := by
  unfold committed at made
  split at made
  · rename_i caller choices
    split at made
    · rename_i login evicted _ opening _
      exact ⟨caller, login, evicted, opening, (Option.some.inj made).symm⟩
    · cases made
  · cases made

/-- A committed login found each session it revokes active. -/
theorem Pending.evicts_active (pending : state.Pending) (sound : state.Sound host) {label : Label Work}
    (unpruned : label.prunes = false) {input : SessionCommit Work}
    (made : state.committed host label = some input) :
    ∀ eviction ∈ input.evicted, ∃ row ∈ state.database.sessions.rows,
      row.id = eviction.session.id ∧ row.status = .active := by
  intro eviction member
  obtain ⟨row, present, named, version⟩ :=
    ((step_effect sound unpruned).evicts input made).found eviction member
  obtain ⟨caller, login, evicted, opening, rfl⟩ := committed_opening made
  have stands := pending caller login evicted opening eviction member
  exact ⟨row, present, named, stands.active present named version⟩

theorem run_pending (pending : state.Pending) (sound : state.Sound host) {labels : List (Label Work)}
    (unpruned : ∀ label ∈ labels, label.prunes = false) :
    (run (AccountState.step host) state labels).Pending := by
  induction labels generalizing state with
  | nil => exact pending
  | cons label rest ih =>
    obtain ⟨here, later⟩ := List.forall_mem_cons.mp unpruned
    exact ih (pending.step sound here) (sound.step label) later

/-- No two logins of a run revoke the same session, and none revokes a revoked one. -/
private theorem commits_apart (pending : state.Pending) (sound : state.Sound host)
    {labels : List (Label Work)} (unpruned : ∀ label ∈ labels, label.prunes = false) :
    ((loginCommits host state labels).Pairwise fun first second =>
      ∀ one ∈ first.evicted, ∀ other ∈ second.evicted, one.session.id ≠ other.session.id) ∧
    ∀ input ∈ loginCommits host state labels, ∀ eviction ∈ input.evicted,
      ∀ row ∈ state.database.sessions.rows, row.id = eviction.session.id → row.status ≠ .revoked := by
  induction labels generalizing state with
  | nil => exact ⟨List.Pairwise.nil, List.forall_mem_nil _⟩
  | cons label rest ih =>
    obtain ⟨here, later⟩ := List.forall_mem_cons.mp unpruned
    obtain ⟨apart, unrevoked⟩ := ih (pending.step sound here) (sound.step label) later
    have effect := step_effect sound here
    have rests : ∀ input ∈ loginCommits host (state.step host label) rest,
        ∀ eviction ∈ input.evicted, ∀ row ∈ state.database.sessions.rows,
          row.id = eviction.session.id → row.status ≠ .revoked := by
      intro input made eviction member row present named ended
      obtain ⟨after, there, follows⟩ := effect.step.kept row present
      exact unrevoked input made eviction member after there (follows.id.trans named)
        (follows.revoked ended)
    cases made : state.committed host label with
    | none =>
      rw [loginCommits, made]
      exact ⟨apart, rests⟩
    | some input =>
      rw [loginCommits, made, Option.toList_some, List.singleton_append]
      refine ⟨List.pairwise_cons.mpr ⟨fun second also one first other member same => ?_, apart⟩, ?_⟩
      · obtain ⟨row, present, named, ended⟩ := (effect.evicts input made).ended one first
        exact unrevoked second also other member row present (named.trans same) ended
      · refine List.forall_mem_cons.mpr ⟨fun eviction member row present named ended => ?_, rests⟩
        obtain ⟨found, there, same, active⟩ := pending.evicts_active sound here made eviction member
        have equal := Table.eq_of_key there present (same.trans named.symm)
        rw [← equal, active] at ended
        cases ended

/-- The session of `caller` that was about to commit was decided by a listing step of the same
login, and has waited since. -/
structure ListedAt (host : Host) (state : AccountState Work) (labels before : List (Label Work))
    (caller : Nat) (listing : Choices) (middle : List (Label Work)) (login : Login Work)
    (evicted : List (SessionEviction Work)) : Prop where
  split : labels = before ++ .advance caller listing :: middle
  asked : (run (step host) state before).calls caller = .authenticated login
  waits : ∀ part, part <+: middle →
    (run (step host) state (before ++ .advance caller listing :: part)).calls caller =
      .opening login evicted

/-- Each login that gets to its commit has a listing step. -/
theorem listed_before (none : ∀ caller login evicted, state.calls caller ≠ .opening login evicted)
    {labels : List (Label Work)} {caller : Nat} {login : Login Work}
    {evicted : List (SessionEviction Work)}
    (opening : (run (step host) state labels).calls caller = .opening login evicted) :
    ∃ before listing middle, ListedAt host state labels before caller listing middle login evicted := by
  induction labels using List.reverseRecOn with
  | nil => exact absurd opening (none caller login evicted)
  | append_singleton taken label ih =>
    have last := opening
    rw [run_append, run_cons, run_nil] at last
    rcases opening_origin last with waiting | ⟨listing, rfl, asked⟩
    · obtain ⟨before, listing, middle, listed⟩ := ih waiting
      refine ⟨before, listing, middle ++ [label], ?_, listed.asked, ?_⟩
      · rw [listed.split, List.append_assoc, List.cons_append]
      · intro part early
        rcases List.prefix_concat_iff.mp early with rfl | earlier
        · rw [listed.split, List.append_assoc, List.cons_append] at opening
          exact opening
        · exact listed.waits part earlier
    · refine ⟨taken, listing, [], rfl, asked, ?_⟩
      intro part early
      rw [List.prefix_nil.mp early]
      exact opening

/-- What the commit of a login promises, where `others` logins committed since its listing. -/
structure Capped (host : Host) (listed stored after : SessionTable) (input : SessionCommit Work)
    (others : Nat) : Prop where
  count : (usableSessions after input.session.identityId input.session.createdAt
    host.idleTimeoutMs).length ≤ host.maxActivePerIdentity + others
  /-- What it revokes was usable, and is revoked. -/
  revoked : ∀ eviction ∈ input.evicted,
    (∃ row ∈ usableSessions stored input.session.identityId input.session.createdAt
      host.idleTimeoutMs, row.id = eviction.session.id) ∧
    ∃ row ∈ after.rows, row.id = eviction.session.id ∧ row.status = .revoked
  /-- What it saw and kept was created no earlier than what it revokes. -/
  order : ∀ kept ∈ usableSessions listed input.session.identityId input.session.createdAt
      host.idleTimeoutMs,
    (∀ eviction ∈ input.evicted, eviction.session.id ≠ kept.id) →
    ∀ ended ∈ usableSessions listed input.session.identityId input.session.createdAt
        host.idleTimeoutMs,
      (∃ eviction ∈ input.evicted, eviction.session.id = ended.id) → ended.createdAt ≤ kept.createdAt

/-- Where nothing is recorded, a row that is still active is the one that was there. -/
private theorem same_active {before after : SessionTable} {opened : List ID}
    (step : SessionsStep True before after opened) {old row : SessionRow} (present : old ∈ before.rows)
    (member : row ∈ after.rows) (named : old.id = row.id) (active : row.status = .active) :
    row = old := by
  obtain ⟨later, there, follows⟩ := step.kept old present
  have equal := Table.eq_of_key there member (follows.id.trans named)
  subst equal
  rcases follows.moved with ⟨ended, -⟩ | ⟨-, -, same⟩
  · rw [active] at ended
    cases ended
  · exact same trivial

omit [DecidableEq Work] in
theorem window_capped {listed stored after : AccountDatabase Work} {login : Login Work}
    {kept : List ID} {evicted : List (SessionEviction Work)} {opened : List ID}
    (cap : 1 ≤ host.maxActivePerIdentity)
    (decided : Decided host listed.sessions login.session kept evicted)
    (between : SessionsStep True listed.sessions stored.sessions opened)
    (commits : AccountDatabase.Evicted stored after (login.commit evicted))
    (active : ∀ eviction ∈ evicted, ∃ row ∈ stored.sessions.rows,
      row.id = eviction.session.id ∧ row.status = .active) :
    Capped host listed.sessions stored.sessions after.sessions (login.commit evicted) opened.length := by
  refine ⟨?_, ?_, ?_⟩
  · have whole := between.trans (commits.step True)
    have inside : ∀ row ∈ usableSessions after.sessions login.session.identityId
        login.session.createdAt host.idleTimeoutMs,
        row.id ∈ login.session.id :: (kept ++ opened) := by
      intro row member
      obtain ⟨present, chosen⟩ := List.mem_filter.mp member
      obtain ⟨owned, usable⟩ := Bool.and_eq_true_iff.mp chosen
      have status := SessionRow.usable_active usable
      rcases whole.added row present with fresh | ⟨old, there, named⟩
      · rcases List.mem_append.mp fresh with other | own
        · exact List.mem_cons_of_mem _ (List.mem_append_right kept other)
        · rw [List.mem_singleton.mp own]
          exact List.mem_cons_self
      · have equal := same_active whole there present named status
        subst equal
        have listed_usable : row ∈ usableSessions listed.sessions login.session.identityId
            login.session.createdAt host.idleTimeoutMs := List.mem_filter.mpr ⟨there, chosen⟩
        rcases decided.seen row listed_usable with spared | ⟨eviction, late, same⟩
        · exact List.mem_cons_of_mem _ (List.mem_append_left opened spared)
        · obtain ⟨gone, also, same_id, ended⟩ := commits.ended eviction late
          have one := Table.eq_of_key also present (same_id.trans same)
          rw [one, status] at ended
          cases ended
    have bound := usableSessions_length_le inside
    have few := decided.few
    rw [List.length_cons, List.length_append] at bound
    have count : (usableSessions after.sessions login.session.identityId login.session.createdAt
        host.idleTimeoutMs).length ≤ host.maxActivePerIdentity + opened.length := by
      omega
    exact count
  · intro eviction member
    refine ⟨?_, commits.ended eviction member⟩
    obtain ⟨row, present, named, status⟩ := active eviction member
    obtain ⟨old, usable, same, -, -⟩ := decided.rows eviction member
    obtain ⟨there, chosen⟩ := List.mem_filter.mp usable
    have equal := same_active between there present (same.trans named.symm) status
    subst equal
    exact ⟨row, List.mem_filter.mpr ⟨present, chosen⟩, named⟩
  · rintro row member spared ended present ⟨eviction, late, named⟩
    obtain ⟨source, usable, same, -, createdAt⟩ := decided.rows eviction late
    have equal := Table.eq_of_key (List.mem_filter.mp usable).1 (List.mem_filter.mp present).1
      (same.trans named)
    rw [← equal, createdAt]
    exact decided.order row member spared eviction late

/-- What a run promises about the sessions that its logins open and revoke. -/
structure SessionCap (host : Host) (state : AccountState Work) (labels : List (Label Work)) : Prop where
  /-- No two logins revoke the same session. -/
  apart : (loginCommits host state labels).Pairwise fun first second =>
    ∀ one ∈ first.evicted, ∀ other ∈ second.evicted, one.session.id ≠ other.session.id
  /-- Each committed login has a listing step; where no activity is recorded since, it keeps the cap
  but for the logins that committed in between. -/
  capped : ∀ taken label later input, labels = taken ++ label :: later →
    (run (step host) state taken).committed host label = some input →
    ∃ before caller listing middle login evicted, input = login.commit evicted ∧
      ListedAt host state taken before caller listing middle login evicted ∧
      ((∀ label ∈ middle, label.records = false) →
        Capped host (run (step host) state before).database.sessions
          (run (step host) state taken).database.sessions
          (run (step host) state (taken ++ [label])).database.sessions input
          (loginCommits host (run (step host) state (before ++ [.advance caller listing])) middle).length)

/-- The cap on an identity's sessions, in every interleaving of logins, revocations and records. -/
theorem session_cap (host : Host) (cap : 1 ≤ host.maxActivePerIdentity) (identity : IdentityState)
    (credential : CredentialRow) (challenges : ChallengeTable) (outbox : EventLog Work)
    (labels : List (Label Work)) (unpruned : ∀ label ∈ labels, label.prunes = false) :
    SessionCap host (registered identity credential challenges outbox) labels := by
  have sound := Sound.registered host identity credential challenges outbox
  have none : ∀ caller login evicted,
      (registered identity credential challenges outbox).calls caller ≠ .opening login evicted :=
    fun _ _ _ impossible => by cases impossible
  have pending : (registered identity credential challenges outbox).Pending :=
    fun caller login evicted opening => absurd opening (none caller login evicted)
  refine ⟨(commits_apart pending sound unpruned).1, ?_⟩
  intro taken label later input split made
  have quiet : ∀ label ∈ taken, label.prunes = false := by
    intro other member
    exact unpruned other (split ▸ List.mem_append_left _ member)
  have here : label.prunes = false := unpruned label (by simp [split])
  have soundly : ∀ labels, (run (step host) (registered identity credential challenges outbox)
      labels).Sound host :=
    run_invariant (Sound host) (fun _ label holds => holds.step label) sound
  obtain ⟨caller, login, evicted, opening, rfl⟩ := committed_opening made
  obtain ⟨before, listing, middle, listed⟩ := listed_before none opening
  refine ⟨before, caller, listing, middle, login, evicted, rfl, listed, fun still => ?_⟩
  have start := listed.waits [] List.nil_prefix
  rw [run_append, run_cons, run_nil] at start
  obtain ⟨same, kept, decided⟩ := listing_decided listed.asked start
  have inside : ∀ label ∈ middle, label.prunes = false := by
    intro other member
    apply quiet
    rw [listed.split]
    exact List.mem_append_right before (List.mem_cons_of_mem _ member)
  have between := run_sessions (soundly (before ++ [.advance caller listing])) inside
  rw [← run_append, List.append_assoc, List.singleton_append, ← listed.split] at between
  have unchanged : (run (step host) (registered identity credential challenges outbox)
      (before ++ [.advance caller listing])).database =
      (run (step host) (registered identity credential challenges outbox) before).database := by
    rw [run_append, run_cons, run_nil]
    exact same
  rw [unchanged] at between
  have active := (run_pending pending sound quiet).evicts_active (soundly taken) here made
  have commits := (step_effect (soundly taken) here).evicts _ made
  have capped := window_capped cap decided (between.weaken fun _ => still) commits active
  rw [List.length_map] at capped
  rw [run_append (step host) _ taken]
  exact capped

/-- One session at a time. -/
private def phoneOnly : Host where
  toLowerCase := id
  verifyPassword := fun password passwordHash => password = passwordHash
  verifyToken := fun token tokenDigest => token = tokenDigest
  digestToken := id
  idleTimeoutMs := 1000
  maxActivePerIdentity := 1

private def drawing (clock : Int) (first : Nat) : Choices where
  clock := some clock
  expiresAt := .ok (some (clock + 5000))
  newId := fun index => .ok (.numbered (first + index))
  envelope := fun _ => .ok ()
  token := .ok ((ID.numbered first).text, (ID.numbered first).text)
  passwordPolicy := .ok ()
  passwordHash := .ok (js "secret")
  verifier := none
  fault := none

private def account : AccountState Unit :=
  registered ⟨.numbered 1, .active, 0, 0, some 0, FIRST⟩
    ⟨⟨.numbered 2, .numbered 1, js "a@b.c", .active, 0, 0, none⟩, js "secret"⟩ Table.empty Table.empty

private def signIn (caller : Nat) (clock : Int) (first : Nat) : List (Label Unit) :=
  [.request caller (.authenticate (.string (js "a@b.c")) (js "secret") ()),
    .advance caller (drawing clock first), .advance caller (drawing clock (first + 2)),
    .advance caller (drawing clock 0)]

private def twice : List (Label Unit) := signIn 0 1 3 ++ signIn 1 2 5

theorem second_sign_in : 1 ≤ phoneOnly.maxActivePerIdentity ∧
    (∀ label ∈ twice, label.prunes = false) ∧ SessionCap phoneOnly account twice ∧
    (loginCommits phoneOnly account twice).map (fun input => input.evicted.length) = [0, 1] := by
  have unpruned : ∀ label ∈ twice, label.prunes = false := by decide
  refine ⟨Nat.le_refl 1, unpruned, ?_, by decide +kernel⟩
  exact session_cap phoneOnly (Nat.le_refl 1) _ _ _ _ twice unpruned

end AccountState

end N2FNest.Identities
