import N2FNest.Identities.SessionUse

/-! A session in use stays alive, an idle one does not. Whatever uses overlap, the recorded use of
a session is its creation or the time of an earlier use, and no use long after it succeeds. -/

namespace N2FNest.Identities

open Events Lib Shared
open GetCurrentIdentity (Accepted)

variable {Work : Type} {policy : DefaultSessionPolicy} {digestToken : JsString → JsString}

/-- Every later row is an earlier one, but for a `last_seen_at` that is no earlier. -/
def Forward (before after : SessionTable) : Prop :=
  ∀ row ∈ after.rows, ∃ old ∈ before.rows, row = old.usedAt row.lastSeenAt ∧
    old.lastSeenAt ≤ row.lastSeenAt

namespace Forward

variable {first second third : SessionTable}

theorem refl (sessions : SessionTable) : Forward sessions sessions :=
  fun row member => ⟨row, member, rfl, Int.le_refl _⟩

theorem trans (earlier : Forward first second) (later : Forward second third) :
    Forward first third := by
  intro row member
  obtain ⟨middle, present, same, after⟩ := later row member
  obtain ⟨old, there, also, before⟩ := earlier middle present
  refine ⟨old, there, ?_, before.trans after⟩
  rw [same, also]
  rfl

theorem of_row (forward : Forward first second) {old row : SessionRow} (present : old ∈ first.rows)
    (member : row ∈ second.rows) (named : old.id = row.id) :
    row = old.usedAt row.lastSeenAt ∧ old.lastSeenAt ≤ row.lastSeenAt := by
  obtain ⟨other, there, same, after⟩ := forward row member
  have equal : other = old := by
    apply Table.eq_of_key there present
    exact (congrArg SessionRow.toSessionState same.symm ▸ named).symm
  subst equal
  exact ⟨same, after⟩

end Forward

theorem AccountDatabase.recordActivity_forward (database : AccountDatabase Work) (sessionId : ID)
    (time : Int) : Forward database.sessions (database.recordActivity sessionId time).sessions := by
  intro row member
  obtain ⟨old, present, rfl⟩ := List.mem_map.mp member
  refine ⟨old, present, ?_⟩
  unfold seenAt
  split
  · rename_i later
    exact ⟨rfl, Int.le_of_lt later.2⟩
  · exact ⟨rfl, Int.le_refl _⟩

namespace UseState

theorem step_forward (state : UseState policy Work) (label : UseLabel) :
    Forward state.database.sessions (state.step digestToken label).database.sessions := by
  cases label with
  | find caller sessionToken now fault =>
    simp only [step]
    split
    · split <;> exact .refl _
    · exact .refl _
  | view caller fault =>
    simp only [step]
    split
    · split
      · split <;> exact .refl _
      · exact .refl _
    · exact .refl _
  | record caller fault =>
    simp only [step]
    split
    · split
      · exact AccountDatabase.recordActivity_forward _ _ _
      · exact .refl _
    · exact .refl _
  | prune command now selected fault =>
    simp only [step]
    split
    · rename_i database done
      obtain ⟨time, retentionMs, -, rfl⟩ := PruneSessions.execute_inv done
      intro row member
      exact ⟨row, (List.mem_filter.mp member).1, rfl, Int.le_refl _⟩
    · exact .refl _

theorem run_forward (state : UseState policy Work) (labels : List UseLabel) :
    Forward state.database.sessions (run (step digestToken) state labels).database.sessions := by
  induction labels generalizing state with
  | nil => exact .refl _
  | cons label rest ih => exact (step_forward state label).trans (ih _)

end UseState

/-- The session that a use read, whether it has ended or not. -/
def Use.reading : Use policy → Option (Accepted policy)
  | .accepted reading | .recording reading _ | .succeeded reading _ => some reading
  | _ => none

/-- A use of the steps read the row, at its reading of the clock. -/
structure ReadIn (digestToken : JsString → JsString) (start : UseState policy Work)
    (taken before : List UseLabel) (caller : Nat) (reading : Accepted policy) (row : SessionRow) :
    Prop where
  split : ∃ sessionToken fault later, digestToken sessionToken = row.tokenDigest ∧
    taken = before ++ .find caller sessionToken (some reading.time) fault :: later
  stored : row ∈ (run (UseState.step digestToken) start before).database.sessions.rows
  held : reading.session.toSessionState = row.toSessionState

/-- A use with the session's token read the clock at that time. -/
def UsedAt (digestToken : JsString → JsString) (labels : List UseLabel) (tokenDigest : JsString)
    (time : Int) : Prop :=
  ∃ caller sessionToken fault, UseLabel.find caller sessionToken (some time) fault ∈ labels ∧
    digestToken sessionToken = tokenDigest

theorem UsedAt.later {labels more : List UseLabel} {tokenDigest : JsString} {time : Int}
    (used : UsedAt digestToken labels tokenDigest time) :
    UsedAt digestToken (labels ++ more) tokenDigest time := by
  obtain ⟨caller, sessionToken, fault, member, digest⟩ := used
  exact ⟨caller, sessionToken, fault, List.mem_append_left more member, digest⟩

theorem ReadIn.used {start : UseState policy Work} {taken before : List UseLabel} {caller : Nat}
    {reading : Accepted policy} {row : SessionRow}
    (read : ReadIn digestToken start taken before caller reading row) :
    UsedAt digestToken taken row.tokenDigest reading.time := by
  obtain ⟨sessionToken, fault, later, digest, split⟩ := read.split
  refine ⟨caller, sessionToken, fault, ?_, digest⟩
  rw [split]
  exact List.mem_append_right before List.mem_cons_self

theorem ReadIn.later {start : UseState policy Work} {taken before : List UseLabel} {caller : Nat}
    {reading : Accepted policy} {row : SessionRow}
    (read : ReadIn digestToken start taken before caller reading row) (more : List UseLabel) :
    ReadIn digestToken start (taken ++ more) before caller reading row := by
  obtain ⟨sessionToken, fault, later, digest, split⟩ := read.split
  refine ⟨⟨sessionToken, fault, later ++ more, digest, ?_⟩, read.stored, read.held⟩
  rw [split, List.append_assoc, List.cons_append]

/-- What an accepted use read. -/
theorem GetCurrentIdentity.readSession_inv {database : AccountDatabase Work} {fault : Option Failure}
    {tokenDigest : JsString} {now : JsDate} {reading : Accepted policy}
    (done : readSession policy (orFault fault (database.findByToken tokenDigest)) now = .ok reading) :
    now = some reading.time ∧ ∃ row ∈ database.sessions.rows, row.tokenDigest = tokenDigest ∧
      reading.session.toSessionState = row.toSessionState := by
  obtain ⟨found, read, done⟩ := bind_ok done
  have stored := orFault_ok (mapError_ok read)
  cases found with
  | none => cases done
  | some session =>
    have accepted : reading.session = session ∧ reading.now = now := by
      dsimp only at done
      unfold accept at done
      split at done
      · cases done
      · cases done
        exact ⟨rfl, rfl⟩
    refine ⟨accepted.2.symm.trans reading.usable_inv.1, ?_⟩
    unfold AccountDatabase.findByToken at stored
    split at stored
    · cases stored
    · rename_i row found
      cases restored : Session.restore row.toSessionState with
      | error error =>
        rw [restored] at stored
        cases stored
      | ok same =>
        rw [restored] at stored
        cases stored
        refine ⟨row, List.mem_of_find?_eq_some found, by simpa using List.find?_some found, ?_⟩
        rw [accepted.1]
        exact Session.restore_ok restored

/-- What each step of a run leaves: every use in it read a row, and every recorded time is that of
one of them. -/
structure Told (digestToken : JsString → JsString) (start : UseState policy Work)
    (taken : List UseLabel) : Prop where
  reads : ∀ caller reading,
    ((run (UseState.step digestToken) start taken).uses caller).reading = some reading →
    ∃ before row, ReadIn digestToken start taken before caller reading row
  seen : ∀ row ∈ (run (UseState.step digestToken) start taken).database.sessions.rows,
    (∃ old ∈ start.database.sessions.rows, old.id = row.id ∧ row.lastSeenAt = old.lastSeenAt) ∨
      UsedAt digestToken taken row.tokenDigest row.lastSeenAt

namespace Told

variable {start : UseState policy Work} {taken : List UseLabel}

private theorem next (told : Told digestToken start taken) {label : UseLabel}
    (uses : ∀ caller reading,
      (((run (UseState.step digestToken) start taken).step digestToken label).uses caller).reading =
        some reading →
      ((run (UseState.step digestToken) start taken).uses caller).reading = some reading ∨
        ∃ row, ReadIn digestToken start (taken ++ [label]) taken caller reading row)
    (rows : ∀ row ∈
      ((run (UseState.step digestToken) start taken).step digestToken label).database.sessions.rows,
      row ∈ (run (UseState.step digestToken) start taken).database.sessions.rows ∨
        UsedAt digestToken (taken ++ [label]) row.tokenDigest row.lastSeenAt) :
    Told digestToken start (taken ++ [label]) := by
  constructor
  · intro caller reading here
    rw [run_append] at here
    rcases uses caller reading here with before | ⟨row, read⟩
    · obtain ⟨before, row, read⟩ := told.reads caller reading before
      exact ⟨before, row, read.later [label]⟩
    · exact ⟨taken, row, read⟩
  · intro row member
    rw [run_append] at member
    rcases rows row member with present | used
    · exact (told.seen row present).imp_right UsedAt.later
    · exact .inr used

private theorem reading_update {uses : Nat → Use policy} {caller other : Nat} {use : Use policy}
    {reading : Accepted policy} (here : (Function.update uses caller use other).reading = some reading) :
    other = caller ∧ use.reading = some reading ∨ (uses other).reading = some reading := by
  by_cases same : other = caller
  · subst same
    rw [Function.update_self] at here
    exact .inl ⟨rfl, here⟩
  · rw [Function.update_of_ne same] at here
    exact .inr here

private theorem find (told : Told digestToken start taken) (caller : Nat) (sessionToken : JsString)
    (now : JsDate) (fault : Option Failure) :
    Told digestToken start (taken ++ [.find caller sessionToken now fault]) := by
  apply told.next
  · intro other reading here
    simp only [UseState.step] at here
    split at here
    · split at here
      · rename_i accepted done
        rcases reading_update here with ⟨rfl, mine⟩ | before
        · cases mine
          obtain ⟨valid, row, stored, digest, held⟩ := GetCurrentIdentity.readSession_inv done
          exact .inr ⟨row, ⟨sessionToken, fault, [], digest.symm, by rw [valid]⟩, stored, held⟩
        · exact .inl before
      · rcases reading_update here with ⟨-, mine⟩ | before
        · cases mine
        · exact .inl before
    · exact .inl here
  · intro row member
    left
    simp only [UseState.step] at member
    split at member
    · split at member <;> exact member
    · exact member

private theorem view (told : Told digestToken start taken) (caller : Nat) (fault : Option Failure) :
    Told digestToken start (taken ++ [.view caller fault]) := by
  apply told.next
  · intro other reading here
    left
    simp only [UseState.step] at here
    split at here
    · rename_i accepted stands
      have mine : ∀ use : Use policy, (use.reading = some accepted ∨ use.reading = none) →
          (Function.update (run (UseState.step digestToken) start taken).uses caller use other).reading =
            some reading → ((run (UseState.step digestToken) start taken).uses other).reading =
              some reading := by
        intro use kept here
        rcases reading_update here with ⟨rfl, mine⟩ | before
        · rw [stands]
          rcases kept with same | none
          · exact same.symm.trans mine
          · rw [none] at mine
            cases mine
        · exact before
      split at here
      · split at here
        · exact mine _ (.inl rfl) here
        · exact mine _ (.inl rfl) here
      · exact mine _ (.inr rfl) here
    · exact here
  · intro row member
    left
    simp only [UseState.step] at member
    split at member
    · split at member
      · split at member <;> exact member
      · exact member
    · exact member

/-- What is recorded is the time of the use, and it is the row of that use. -/
private theorem record (told : Told digestToken start taken) (caller : Nat) (fault : Option Failure) :
    Told digestToken start (taken ++ [.record caller fault]) := by
  apply told.next
  · intro other reading here
    left
    simp only [UseState.step] at here
    split at here
    · rename_i accepted found stands
      split at here
      · rcases reading_update here with ⟨rfl, mine⟩ | before
        · rw [stands]
          exact mine
        · exact before
      · rcases reading_update here with ⟨-, mine⟩ | before
        · cases mine
        · exact before
    · exact here
  · intro row member
    simp only [UseState.step] at member
    split at member
    · rename_i accepted found stands
      split at member
      · obtain ⟨before, source, read⟩ := told.reads caller accepted (by rw [stands]; rfl)
        obtain ⟨old, present, rfl⟩ := List.mem_map.mp member
        by_cases recorded : old.id = accepted.session.id ∧ old.lastSeenAt < accepted.time
        · right
          obtain ⟨sessionToken, split⟩ := read.split
          have forward : Forward (run (UseState.step digestToken) start before).database.sessions
              (run (UseState.step digestToken) start taken).database.sessions := by
            obtain ⟨fault, later, -, rfl⟩ := split
            rw [run_append]
            exact UseState.run_forward _ _
          have named : source.id = old.id :=
            ((congrArg SessionState.id read.held).trans rfl).symm.trans recorded.1.symm
          have same := (forward.of_row read.stored present named).1
          have digest : old.tokenDigest = source.tokenDigest := by
            rw [same]
            rfl
          rw [AccountDatabase.seenAt_tokenDigest, digest, AccountDatabase.seenAt, if_pos recorded]
          exact read.used.later
        · left
          rw [AccountDatabase.seenAt, if_neg recorded]
          exact present
      · exact .inl member
    · exact .inl member

private theorem prune (told : Told digestToken start taken) (command : PruneSessions.Command)
    (now : JsDate) (selected : ID → Bool) (fault : Option Failure) :
    Told digestToken start (taken ++ [.prune command now selected fault]) := by
  apply told.next
  · intro other reading here
    left
    simp only [UseState.step] at here
    split at here <;> exact here
  · intro row member
    left
    simp only [UseState.step] at member
    split at member
    · rename_i database done
      obtain ⟨time, retentionMs, -, rfl⟩ := PruneSessions.execute_inv done
      exact (List.mem_filter.mp member).1
    · exact member

theorem of_run (idle : ∀ caller, start.uses caller = .idle) (labels : List UseLabel) :
    Told digestToken start labels := by
  induction labels using List.reverseRecOn with
  | nil =>
    refine ⟨fun caller reading here => ?_, fun row member => .inl ⟨row, member, rfl, rfl⟩⟩
    rw [run_nil, idle] at here
    cases here
  | append_singleton taken label ih =>
    cases label with
    | find caller sessionToken now fault => exact ih.find caller sessionToken now fault
    | view caller fault => exact ih.view caller fault
    | record caller fault => exact ih.record caller fault
    | prune command now selected fault => exact ih.prune command now selected fault

end Told

/-- What the use of a session promises, in every run from its creation on. -/
structure SessionActivity (policy : DefaultSessionPolicy) (digestToken : JsString → JsString)
    (sessionToken : JsString) (start : UseState policy Work) (created : SessionRow) : Prop where
  lifetime : created.expiresAt = created.createdAt + policy.lifetimeMs
  /-- A session in use stays alive: at every point of the run no use has failed, the session is
  stored, and its recorded use lags the last one by less than the interval. -/
  alive : ∀ labels, InUse digestToken sessionToken created.expiresAt created.createdAt start labels →
    ∀ taken, taken <+: labels →
      KeptAlive created (run (UseState.step digestToken) start taken) (lastUse created.createdAt taken)
  /-- Whatever overlaps, a recorded use moves forward and nothing else of the row changes. -/
  forward : ∀ taken later,
    ∀ row ∈ (run (UseState.step digestToken) start taken).database.sessions.rows,
    ∀ after ∈ (run (UseState.step digestToken) start (taken ++ later)).database.sessions.rows,
    row.id = after.id → after = row.usedAt after.lastSeenAt ∧ row.lastSeenAt ≤ after.lastSeenAt
  /-- Whatever overlaps, a use that succeeds read the row before its expiry, and less than the idle
  timeout after the recorded use, which is the creation or an earlier use. -/
  succeeds : ∀ labels caller reading view,
    (run (UseState.step digestToken) start labels).uses caller = .succeeded reading view →
    reading.session.id = created.id →
    ∃ before row, ReadIn digestToken start labels before caller reading row ∧
      row = created.usedAt row.lastSeenAt ∧ reading.time < created.expiresAt ∧
      reading.time - row.lastSeenAt < policy.idleTimeoutMs ∧
      (row.lastSeenAt = created.createdAt ∨
        UsedAt digestToken before created.tokenDigest row.lastSeenAt)

theorem DefaultSessionPolicy.expiresAt_inv {createdAt : Int} {expiresAt : JsDate} {id identityId : ID}
    {session : Session} (expires : policy.expiresAt (some createdAt) = .ok expiresAt)
    (create : Session.create id identityId (some createdAt) expiresAt = .ok session) :
    session.createdAt = createdAt ∧ session.expiresAt = createdAt + policy.lifetimeMs := by
  unfold DefaultSessionPolicy.expiresAt at expires
  simp only at expires
  split at expires
  · cases clipped : timeClip (createdAt + policy.lifetimeMs) with
    | none =>
      rw [clipped] at expires
      cases expires
      cases create
    | some time =>
      rw [clipped] at expires
      cases expires
      simp only [Session.create, check_ok, Except.ok.injEq] at create
      obtain ⟨_, rfl⟩ := create
      exact ⟨rfl, timeClip_some clipped⟩
  · cases expires

/-- A session in use stays alive, an idle one does not. -/
theorem session_activity (policy : DefaultSessionPolicy) (timeout : 4 ≤ policy.idleTimeoutMs)
    (digestToken : JsString → JsString) (sessionToken : JsString) (database : AccountDatabase Work)
    {sessions : SessionTable} {id identityId : ID} {createdAt : Int} {expiresAt : JsDate}
    {session : Session} {found : IdentityView}
    (expires : policy.expiresAt (some createdAt) = .ok expiresAt)
    (create : Session.create id identityId (some createdAt) expiresAt = .ok session)
    (insert : insertSession database.sessions session (digestToken sessionToken) =
      .ok sessions)
    (reads : database.findView identityId = .ok (some found)) (active : found.status = .active) :
    SessionActivity policy digestToken sessionToken
      ⟨{ database with sessions := sessions }, fun _ => .idle⟩
      ⟨{ session.toSessionState with version := FIRST }, digestToken sessionToken⟩ := by
  obtain ⟨made, lifetime⟩ := DefaultSessionPolicy.expiresAt_inv expires create
  have fresh := Session.create_fresh create (digestToken sessionToken)
  have owner := (Session.create_inv create).2
  simp only [insertSession, refuse_ok, Except.ok.injEq, not_or] at insert
  obtain ⟨⟨unknown, unshared⟩, rfl⟩ := insert
  generalize row_eq : (⟨{ session.toSessionState with version := FIRST }, digestToken sessionToken⟩ :
    SessionRow) = created at fresh
  have digest : digestToken sessionToken = created.tokenDigest := by rw [← row_eq]
  have born : created.usedAt created.createdAt = created := by
    rw [← fresh.seen]
    rfl
  have stored : created ∈ (database.sessions.set created).rows := Table.mem_set.mpr (.inl rfl)
  refine ⟨?_, ?_, ?_, ?_⟩
  · rw [← row_eq]
    exact lifetime.trans (congrArg (· + policy.lifetimeMs) made.symm)
  · intro labels inUse
    have same : ∀ other : AccountDatabase Work, other.identity = database.identity →
        other.findView created.identityId = .ok (some found) := by
      intro other same
      rw [← row_eq, ← reads, AccountDatabase.findView, AccountDatabase.findView,
        AccountDatabase.findIdentity, AccountDatabase.findIdentity, same, owner]
    apply InUse.kept_alive timeout fresh digest same active inUse
    refine ⟨fun _ _ failed => (by cases failed), fresh.expiry, created.createdAt, Int.le_refl _, ?_, ?_⟩
    · refine ⟨?_, ?_, rfl, Int.le_refl _⟩
      · rw [born]
        exact Table.get_set_same ..
      · intro other member shared
        rcases Table.mem_set.mp member with rfl | ⟨present, -⟩
        · rfl
        · refine absurd (List.any_eq_true.mpr ⟨other, present, ?_⟩) unshared
          rw [shared, ← digest, decide_eq_true_eq]
    · refine .quiet (fun _ => rfl) ?_
      have interval := DefaultSessionPolicy.activityIntervalMs_pos timeout
      omega
  · intro taken later row member after present named
    rw [run_append] at present
    exact (UseState.run_forward _ later).of_row member present named
  · intro labels caller reading view here named
    obtain ⟨before, row, read⟩ := (Told.of_run (fun _ => rfl) labels).reads caller reading
      (by rw [here]; rfl)
    have mine : created.id = row.id := named.symm.trans ((congrArg SessionState.id read.held).trans rfl)
    have same := ((UseState.run_forward _ before).of_row stored read.stored mine).1
    have expiry : reading.session.expiresAt = created.expiresAt := by
      rw [read.held, same]
      rfl
    have seen : reading.session.lastSeenAt = row.lastSeenAt := congrArg SessionState.lastSeenAt read.held
    obtain ⟨-, -, unexpired, recent⟩ := reading.usable_inv
    rw [expiry] at unexpired
    rw [seen] at recent
    refine ⟨before, row, read, same, unexpired, recent, ?_⟩
    rcases (Told.of_run (fun _ => rfl) before).seen row read.stored with ⟨old, there, first, last⟩ | used
    · left
      have equal := Table.eq_of_key there stored (first.trans mine.symm)
      rw [last, equal, fresh.seen]
    · right
      have shared : row.tokenDigest = created.tokenDigest := by
        rw [same]
        rfl
      rwa [shared] at used

private def quarterMinute : DefaultSessionPolicy := ⟨15000, 8⟩

private def portal : AccountDatabase Unit where
  identity := ⟨.numbered 1, .active, 0, 0, some 0, FIRST⟩
  credential := ⟨⟨.numbered 2, .numbered 1, js "a@b.c", .active, 0, 0, none⟩, js "secret"⟩
  sessions := Table.empty
  challenges := Table.empty
  outbox := Table.empty

theorem portal_session_activity : ∃ session sessions,
    Session.create (.numbered 3) (.numbered 1) (some 0) (some 15000) = .ok session ∧
      insertSession portal.sessions session (js "tab") = .ok sessions ∧
      SessionActivity quarterMinute id (js "tab") ⟨{ portal with sessions := sessions }, fun _ => .idle⟩
        ⟨{ session.toSessionState with version := FIRST }, js "tab"⟩ ∧
      InUse id (js "tab") 15000 0
        (⟨{ portal with sessions := sessions }, fun _ => .idle⟩ : UseState quarterMinute Unit)
        [.find 0 (js "tab") (some 6) none, .view 0 none, .record 0 none] := by
  have viewed : portal.findView (.numbered 1) = .ok (some ⟨.numbered 1, .active, some 0⟩) := rfl
  have expires : quarterMinute.expiresAt (some 0) = .ok (some 15000) := rfl
  have create : Session.create (.numbered 3) (.numbered 1) (some 0) (some 15000) = .ok _ := rfl
  refine ⟨_, _, create, rfl, ?_, ?_⟩
  · exact session_activity quarterMinute (by decide) id (js "tab") portal expires create rfl viewed rfl
  · exact .find (fun _ => rfl) rfl (by decide) (by decide) (by decide) (.view (.record .done))

end N2FNest.Identities
