import N2FNest.Identities.CurrentIdentity

/-! Uses of a session one after another. A recorded use lags the real one by less than the
activity interval, so uses that are closer than the idle timeout less that interval never find the
session idle, and no pruner finds it ended. -/

namespace N2FNest.Identities

open Events Lib Shared
open GetCurrentIdentity (Accepted)

variable {Work : Type} {policy : DefaultSessionPolicy} {digestToken : JsString → JsString}

/-- A row as a login inserts it. -/
structure SessionRow.Fresh (created : SessionRow) : Prop where
  status : created.status = .active
  unrevoked : created.revokedAt = none
  seen : created.lastSeenAt = created.createdAt
  expiry : created.createdAt < created.expiresAt
  version : created.version = FIRST

theorem Session.create_fresh {id identityId : ID} {createdAt expiresAt : JsDate} {session : Session}
    (done : Session.create id identityId createdAt expiresAt = .ok session) (tokenDigest : JsString) :
    SessionRow.Fresh ⟨{ session.toSessionState with version := FIRST }, tokenDigest⟩ := by
  unfold Session.create at done
  split at done
  · simp only [check_ok, Except.ok.injEq] at done
    obtain ⟨expiry, rfl⟩ := done
    exact ⟨rfl, rfl, rfl, expiry, rfl⟩
  · cases done

def SessionRow.usedAt (row : SessionRow) (time : Int) : SessionRow := { row with lastSeenAt := time }

/-- A fresh row can be read at any time it was used at. -/
theorem SessionRow.Fresh.restore {created : SessionRow} (fresh : created.Fresh) {seen : Int}
    (after : created.createdAt ≤ seen) :
    ∃ session, Session.restore (created.usedAt seen).toSessionState = .ok session ∧
      session.toSessionState = (created.usedAt seen).toSessionState := by
  have version : isStoredVersion created.version = true := by
    rw [fresh.version]
    rfl
  have revocation : (created.usedAt seen).Revocation := by
    constructor
    · simp [SessionRow.usedAt, fresh.status, fresh.unrevoked]
    · simp [SessionRow.usedAt, fresh.unrevoked]
  refine ⟨⟨(created.usedAt seen).toSessionState, fresh.expiry, after, revocation⟩, ?_, rfl⟩
  have expiry : (created.usedAt seen).createdAt < (created.usedAt seen).expiresAt := fresh.expiry
  have later : (created.usedAt seen).createdAt ≤ (created.usedAt seen).lastSeenAt := after
  have stored : isStoredVersion (created.usedAt seen).version = true := version
  rw [Session.restore, dif_pos ⟨later, stored⟩, dif_pos expiry, dif_pos revocation]

theorem Session.assertUsable_ok {session : Session} {instant : JsDate} {idleTimeoutMs : Int} :
    session.assertUsable instant idleTimeoutMs = .ok () ↔
      ∃ time, instant = some time ∧ session.status = .active ∧ time < session.expiresAt ∧
        time - session.lastSeenAt < idleTimeoutMs := by
  cases instant with
  | none => simp [Session.assertUsable]
  | some time =>
    have active : session.status ≠ .revoked ↔ session.status = .active := by
      cases session.status <;> simp
    simp [Session.assertUsable, refuse_ok, active]

namespace GetCurrentIdentity

/-- What a use that was accepted knows. -/
theorem Accepted.usable_inv (accepted : Accepted policy) :
    accepted.now = some accepted.time ∧ accepted.session.status = .active ∧
      accepted.time < accepted.session.expiresAt ∧
      accepted.time - accepted.session.lastSeenAt < policy.idleTimeoutMs := by
  obtain ⟨time, reading, active, unexpired, recent⟩ := Session.assertUsable_ok.mp accepted.usable
  have same : accepted.time = time := by rw [Accepted.time, reading, Option.getD_some]
  rw [same]
  exact ⟨reading, active, unexpired, recent⟩

theorem accept_ok {session : Session} {now : Int} (active : session.status = .active)
    (unexpired : now < session.expiresAt) (recent : now - session.lastSeenAt < policy.idleTimeoutMs) :
    ∃ accepted, accept policy session (some now) = .ok accepted ∧ accepted.session = session ∧
      accepted.time = now := by
  have usable := Session.assertUsable_ok.mpr ⟨now, rfl, active, unexpired, recent⟩
  refine ⟨⟨session, some now, usable⟩, ?_, rfl, rfl⟩
  unfold accept
  split
  · rename_i error refused
    rw [usable] at refused
    cases refused
  · rfl

end GetCurrentIdentity

theorem timeClip_some {value time : Int} (clipped : timeClip value = some time) : time = value := by
  unfold timeClip at clipped
  split at clipped
  · exact (Option.some.inj clipped).symm
  · cases clipped

/-- An accepted prune run deletes no row but those that ended, or were idle, before its reading of
the clock, by the retention. -/
theorem PruneSessions.execute_inv {database next : AccountDatabase Work} {command : Command}
    {now : JsDate} {selected : ID → Bool} {fault : Option Failure}
    (done : execute policy database command now selected fault = .ok next) :
    ∃ (time : Int) (retentionMs : Nat), now = some time ∧
      next = database.pruneSessions (time - retentionMs)
        (time - retentionMs - policy.idleTimeoutMs) selected := by
  unfold execute at done
  split at done
  · rename_i retentionMs limit _ _
    split at done
    · cases done
    · have pruned := orFault_ok (mapError_ok done)
      unfold AccountDatabase.prune at pruned
      split at pruned
      · rename_i ended idle endedBefore idleBefore
        cases now with
        | none => cases endedBefore
        | some time =>
          have first := timeClip_some endedBefore
          have second := timeClip_some idleBefore
          cases pruned
          refine ⟨time, retentionMs, rfl, ?_⟩
          rw [first, second]
      · cases pruned
  · cases done

/-- The accepted session of a use that has not ended. -/
def Use.pending : Use policy → Option (Accepted policy)
  | .accepted reading | .recording reading _ => some reading
  | _ => none

/-- The clock's reading of the first use of the steps. -/
def nextUse : List UseLabel → Option Int
  | [] => none
  | .find _ _ (some now) _ :: _ => some now
  | _ :: rest => nextUse rest

/-- The clock's reading of the last use of the steps, or the one before them. -/
def lastUse : Int → List UseLabel → Int
  | last, [] => last
  | _, .find _ _ (some now) _ :: rest => lastUse now rest
  | last, _ :: rest => lastUse last rest

/-- The steps of uses that begin when none is pending, with gaps of at most the idle timeout less
the activity interval, and of prune runs: the clock reads no more for one than for the use it falls
into, and otherwise than for the use that follows it, or for the last one where none does. -/
inductive InUse (digestToken : JsString → JsString) (sessionToken : JsString) (expiresAt : Int) :
    Int → UseState policy Work → List UseLabel → Prop
  | done {last : Int} {state : UseState policy Work} : InUse digestToken sessionToken expiresAt last state []
  | find {last now : Int} {state : UseState policy Work} {caller : Nat} {rest : List UseLabel}
      (quiet : ∀ other, (state.uses other).pending = none) (fresh : state.uses caller = .idle)
      (later : last ≤ now) (close : now - last ≤ policy.idleTimeoutMs - policy.activityIntervalMs)
      (unexpired : now < expiresAt)
      (next : InUse digestToken sessionToken expiresAt now
        (state.step digestToken (.find caller sessionToken (some now) none)) rest) :
      InUse digestToken sessionToken expiresAt last state
        (.find caller sessionToken (some now) none :: rest)
  | view {last : Int} {state : UseState policy Work} {caller : Nat} {rest : List UseLabel}
      (next : InUse digestToken sessionToken expiresAt last
        (state.step digestToken (.view caller none)) rest) :
      InUse digestToken sessionToken expiresAt last state (.view caller none :: rest)
  | record {last : Int} {state : UseState policy Work} {caller : Nat} {rest : List UseLabel}
      (next : InUse digestToken sessionToken expiresAt last
        (state.step digestToken (.record caller none)) rest) :
      InUse digestToken sessionToken expiresAt last state (.record caller none :: rest)
  | prune {last : Int} {state : UseState policy Work} {command : PruneSessions.Command}
      {now : JsDate} {selected : ID → Bool} {fault : Option Failure} {rest : List UseLabel}
      (within : ∀ caller reading, (state.uses caller).pending = some reading →
        ∀ time ∈ now, time ≤ reading.time)
      (between : ∀ time ∈ now, time ≤ (nextUse rest).getD last)
      (next : InUse digestToken sessionToken expiresAt last
        (state.step digestToken (.prune command now selected fault)) rest) :
      InUse digestToken sessionToken expiresAt last state (.prune command now selected fault :: rest)

theorem InUse.next_close {sessionToken : JsString} {expiresAt last now : Int}
    {state : UseState policy Work} {labels : List UseLabel}
    (inUse : InUse digestToken sessionToken expiresAt last state labels)
    (next : nextUse labels = some now) :
    now - last ≤ policy.idleTimeoutMs - policy.activityIntervalMs ∧ now < expiresAt := by
  induction inUse with
  | done => cases next
  | find quiet fresh later close unexpired =>
    cases next
    exact ⟨close, unexpired⟩
  | view _ ih => exact ih next
  | record _ ih => exact ih next
  | prune _ _ _ ih => exact ih next

/-- The stored session, used at `seen`, and the identity. -/
structure Stored (created : SessionRow) (identity : IdentityState) (state : UseState policy Work)
    (seen : Int) : Prop where
  row : state.database.sessions.get created.id = some (created.usedAt seen)
  digests : ∀ other ∈ state.database.sessions.rows,
    other.tokenDigest = created.tokenDigest → other.id = created.id
  identity : state.database.identity = identity
  after : created.createdAt ≤ seen

/-- Where the uses stand at the time of the last one: none is pending and the record lags by less
than the interval, or one has read the row as it is stored. -/
inductive Phase (created : SessionRow) (uses : Nat → Use policy) (seen last : Int) : Prop
  | quiet (still : ∀ caller, (uses caller).pending = none)
      (lags : last - seen < policy.activityIntervalMs)
  | pending (caller : Nat) (reading : Accepted policy) (alone : ∀ other ≠ caller, (uses other).pending = none)
      (here : uses caller = .accepted reading ∨ (∃ view, uses caller = .recording reading view) ∧
        reading.due = true)
      (time : reading.time = last)
      (held : reading.session.toSessionState = (created.usedAt seen).toSessionState)

structure Alive (created : SessionRow) (identity : IdentityState) (state : UseState policy Work)
    (last : Int) : Prop where
  unfailed : ∀ caller error, state.uses caller ≠ .failed error
  unexpired : last < created.expiresAt
  seen : ∃ seen ≤ last, Stored created identity state seen ∧ Phase created state.uses seen last

namespace Alive

variable {created : SessionRow} {identity : IdentityState} {state : UseState policy Work} {last : Int}

/-- A use finds the session usable. -/
private theorem reads {seen now : Int} {sessionToken : JsString} (fresh : created.Fresh)
    (stored : Stored created identity state seen) (digest : digestToken sessionToken = created.tokenDigest)
    (unexpired : now < created.expiresAt) (recent : now - seen < policy.idleTimeoutMs) :
    ∃ reading : Accepted policy, GetCurrentIdentity.readSession policy
        (state.database.findByToken (digestToken sessionToken)) (some now) = .ok reading ∧
      reading.time = now ∧ reading.session.toSessionState = (created.usedAt seen).toSessionState := by
  obtain ⟨session, restored, held⟩ := fresh.restore stored.after
  have named : ∀ row : SessionRow, decide (row.tokenDigest = digestToken sessionToken) = true →
      row ∈ state.database.sessions.rows → row.id = created.id := by
    intro row chosen member
    exact stored.digests row member ((of_decide_eq_true chosen).trans digest)
  have found : state.database.findByToken (digestToken sessionToken) = .ok (some session) := by
    have chosen : (some (created.usedAt seen)).filter
        (fun row => decide (row.tokenDigest = digestToken sessionToken)) =
        some (created.usedAt seen) := by
      simp [Option.filter, digest, SessionRow.usedAt]
    unfold AccountDatabase.findByToken
    rw [Table.find_of_key named, stored.row, chosen]
    simp only [restored]
    rfl
  obtain ⟨reading, accepted, same, time⟩ := GetCurrentIdentity.accept_ok
    ((congrArg SessionState.status held).trans fresh.status)
    (unexpired.trans_eq (congrArg SessionState.expiresAt held).symm)
    ((congrArg (now - ·) (congrArg SessionState.lastSeenAt held)).trans_lt recent)
  refine ⟨reading, ?_, time, same ▸ held⟩
  rw [found]
  exact accepted

private theorem unfailed_update {uses : Nat → Use policy} (unfailed : ∀ caller error, uses caller ≠ .failed error)
    {caller : Nat} {use : Use policy} (passes : ∀ error, use ≠ .failed error) :
    ∀ other error, Function.update uses caller use other ≠ .failed error :=
  (Function.forall_update_iff uses fun _ use => ∀ error, use ≠ .failed error).mpr
    ⟨passes, fun other _ => unfailed other⟩

private theorem pending_update {uses : Nat → Use policy} {caller : Nat} {use : Use policy}
    (alone : ∀ other ≠ caller, (uses other).pending = none) (ended : use.pending = none) :
    ∀ other, (Function.update uses caller use other).pending = none :=
  (Function.forall_update_iff uses fun _ use => use.pending = none).mpr ⟨ended, alone⟩

theorem find {now : Int} {sessionToken : JsString} {caller : Nat} (fresh : created.Fresh)
    (alive : Alive created identity state last)
    (digest : digestToken sessionToken = created.tokenDigest)
    (quiet : ∀ other, (state.uses other).pending = none) (idle : state.uses caller = .idle)
    (later : last ≤ now) (close : now - last ≤ policy.idleTimeoutMs - policy.activityIntervalMs)
    (unexpired : now < created.expiresAt) :
    Alive created identity (state.step digestToken (.find caller sessionToken (some now) none)) now := by
  obtain ⟨seen, before, stored, phase⟩ := alive.seen
  cases phase with
  | pending other reading _ here =>
    have impossible := quiet other
    rcases here with here | ⟨⟨view, here⟩, _⟩ <;> rw [here] at impossible <;> cases impossible
  | quiet still lags =>
    have recent : now - seen < policy.idleTimeoutMs := by omega
    obtain ⟨reading, read, time, held⟩ := reads fresh stored digest unexpired recent
    have stepped : state.step digestToken (.find caller sessionToken (some now) none) =
        state.put caller (.accepted reading) := by
      simp only [UseState.step, idle, orFault, read]
    rw [stepped]
    refine ⟨unfailed_update alive.unfailed (by simp), unexpired, seen, before.trans later, ?_, ?_⟩
    · exact ⟨stored.row, stored.digests, stored.identity, stored.after⟩
    · refine .pending caller reading (fun other different => ?_) (.inl ?_) time held
      · simp only [UseState.put, Function.update_of_ne different]
        exact still other
      · simp [UseState.put]

/-- The identity that is read is the one of the session. -/
theorem view {caller : Nat} {found : IdentityView} (alive : Alive created identity state last)
    (reads : ∀ database : AccountDatabase Work, database.identity = identity →
      database.findView created.identityId = .ok (some found))
    (active : found.status = .active) :
    Alive created identity (state.step digestToken (.view caller none)) last := by
  obtain ⟨seen, before, stored, phase⟩ := alive.seen
  cases here : state.uses caller with
  | accepted reading =>
    cases phase with
    | quiet still =>
      have impossible := still caller
      rw [here] at impossible
      cases impossible
    | pending other waiting alone stands time held =>
      have same : caller = other := by
        by_contra different
        have impossible := alone caller different
        rw [here] at impossible
        cases impossible
      subst same
      rcases stands with accepted | ⟨⟨view, recording⟩, -⟩
      · cases here.symm.trans accepted
        have owner : reading.session.identityId = created.identityId :=
          (congrArg SessionState.identityId held).trans rfl
        have viewed : GetCurrentIdentity.readIdentity
            (state.database.findView reading.session.identityId) = .ok found := by
          rw [owner, reads state.database stored.identity]
          simp [GetCurrentIdentity.readIdentity, active, Except.mapError]
        simp only [UseState.step, here, orFault, viewed]
        split
        · rename_i due
          refine ⟨unfailed_update alive.unfailed (by simp), alive.unexpired, seen, before, ?_, ?_⟩
          · exact ⟨stored.row, stored.digests, stored.identity, stored.after⟩
          · refine .pending caller reading (fun other different => ?_) (.inr ⟨⟨found, ?_⟩, due⟩) time held
            · simp only [UseState.put, Function.update_of_ne different]
              exact alone other different
            · simp [UseState.put]
        · rename_i recent
          refine ⟨unfailed_update alive.unfailed (by simp), alive.unexpired, seen, before, ?_, ?_⟩
          · exact ⟨stored.row, stored.digests, stored.identity, stored.after⟩
          · have last_seen : reading.session.lastSeenAt = seen := congrArg SessionState.lastSeenAt held
            refine .quiet (pending_update alone rfl) ?_
            simp only [Accepted.due, decide_eq_true_eq, time, last_seen] at recent
            omega
      · cases here.symm.trans recording
  | _ =>
    simp only [UseState.step, here]
    exact alive

/-- A record brings the row up to its use. -/
theorem record {caller : Nat} (timeout : 4 ≤ policy.idleTimeoutMs)
    (alive : Alive created identity state last) :
    Alive created identity (state.step digestToken (.record caller none)) last := by
  obtain ⟨seen, before, stored, phase⟩ := alive.seen
  have interval := DefaultSessionPolicy.activityIntervalMs_pos timeout
  cases here : state.uses caller with
  | recording reading found =>
    cases phase with
    | quiet still =>
      have impossible := still caller
      rw [here] at impossible
      cases impossible
    | pending other waiting alone stands time held =>
      have same : caller = other := by
        by_contra different
        have impossible := alone caller different
        rw [here] at impossible
        cases impossible
      subst same
      rcases stands with accepted | ⟨⟨view, recording⟩, due⟩
      · cases here.symm.trans accepted
      · cases here.symm.trans recording
        have named : reading.session.id = created.id := (congrArg SessionState.id held).trans rfl
        have last_seen : reading.session.lastSeenAt = seen := congrArg SessionState.lastSeenAt held
        simp only [Accepted.due, decide_eq_true_eq, time, last_seen] at due
        have forward : seen < last := by omega
        simp only [UseState.step, here, named, time]
        refine ⟨unfailed_update alive.unfailed (by simp), alive.unexpired, last, Int.le_refl _, ?_, ?_⟩
        · refine ⟨?_, ?_, stored.identity, stored.after.trans before⟩
          · simp only [AccountDatabase.recordActivity, Table.get_modify, stored.row, Option.map_some,
              AccountDatabase.seenAt]
            rw [if_pos ⟨rfl, forward⟩]
            rfl
          · intro row member digest
            obtain ⟨old, present, rfl⟩ := List.mem_map.mp member
            rw [AccountDatabase.seenAt_id]
            exact stored.digests old present ((AccountDatabase.seenAt_tokenDigest ..).symm.trans digest)
        · exact .quiet (pending_update alone rfl) (by omega)
  | _ =>
    simp only [UseState.step, here]
    exact alive

private theorem kept {seen time : Int} {retentionMs : Nat} {selected : ID → Bool} (fresh : created.Fresh)
    (stored : Stored created identity state seen) (unexpired : time ≤ created.expiresAt)
    (recent : time - seen ≤ policy.idleTimeoutMs) :
    Stored created identity { state with
      database := state.database.pruneSessions (time - retentionMs)
        (time - retentionMs - policy.idleTimeoutMs) selected } seen := by
  refine ⟨?_, ?_, stored.identity, stored.after⟩
  · have spared : ¬ (created.expiresAt < time - retentionMs) ∧
        ¬ (seen < time - retentionMs - policy.idleTimeoutMs) := by omega
    simp only [AccountDatabase.pruneSessions, Table.get_keep, stored.row]
    simp [Option.filter, SessionRow.usedAt, fresh.unrevoked, spared]
  · intro row member digest
    exact stored.digests row (List.mem_filter.mp member).1 digest

theorem prune {command : PruneSessions.Command} {now : JsDate} {selected : ID → Bool}
    {fault : Option Failure} (fresh : created.Fresh)
    (alive : Alive created identity state last)
    (within : ∀ caller reading, (state.uses caller).pending = some reading →
      ∀ time ∈ now, time ≤ reading.time)
    (between : ∀ time ∈ now, time - last ≤ policy.idleTimeoutMs - policy.activityIntervalMs ∧
      time ≤ created.expiresAt) :
    Alive created identity (state.step digestToken (.prune command now selected fault)) last := by
  obtain ⟨seen, before, stored, phase⟩ := alive.seen
  simp only [UseState.step]
  split
  · rename_i database done
    obtain ⟨time, retentionMs, rfl, rfl⟩ := PruneSessions.execute_inv done
    obtain ⟨close, unexpired⟩ := between time rfl
    refine ⟨alive.unfailed, alive.unexpired, seen, before, kept fresh stored unexpired ?_, phase⟩
    cases phase with
    | quiet _ lags => omega
    | pending caller reading _ here time held =>
      have pending : (state.uses caller).pending = some reading := by
        rcases here with here | ⟨⟨view, here⟩, _⟩ <;> rw [here] <;> rfl
      have bound := within caller reading pending _ rfl
      have recent := reading.usable_inv.2.2.2
      have last_seen : reading.session.lastSeenAt = seen := congrArg SessionState.lastSeenAt held
      omega
  · exact alive

end Alive

/-- What holds of a session in use: no use fails, and it is stored as it was created, but for the
last use that was recorded; where none is pending, that is less than the interval ago. -/
structure KeptAlive (created : SessionRow) (state : UseState policy Work) (last : Int) : Prop where
  unfailed : ∀ caller error, state.uses caller ≠ .failed error
  stored : ∃ seen, state.database.sessions.get created.id = some (created.usedAt seen) ∧
    created.createdAt ≤ seen ∧ seen ≤ last ∧
    ((∀ caller, (state.uses caller).pending = none) → last - seen < policy.activityIntervalMs)

theorem Alive.keptAlive {created : SessionRow} {identity : IdentityState} {state : UseState policy Work}
    {last : Int} (alive : Alive created identity state last) : KeptAlive created state last := by
  obtain ⟨seen, before, stored, phase⟩ := alive.seen
  refine ⟨alive.unfailed, seen, stored.row, stored.after, before, fun quiet => ?_⟩
  cases phase with
  | quiet _ lags => exact lags
  | pending caller reading _ here =>
    have impossible := quiet caller
    rcases here with here | ⟨⟨view, here⟩, _⟩ <;> rw [here] at impossible <;> cases impossible

theorem InUse.kept_alive {created : SessionRow} {identity : IdentityState} {sessionToken : JsString}
    {found : IdentityView} {state : UseState policy Work} {labels : List UseLabel} {last : Int}
    (timeout : 4 ≤ policy.idleTimeoutMs) (fresh : created.Fresh)
    (digest : digestToken sessionToken = created.tokenDigest)
    (reads : ∀ database : AccountDatabase Work, database.identity = identity →
      database.findView created.identityId = .ok (some found)) (active : found.status = .active)
    (inUse : InUse digestToken sessionToken created.expiresAt last state labels)
    (alive : Alive created identity state last) :
    ∀ taken, taken <+: labels →
      KeptAlive created (run (UseState.step digestToken) state taken) (lastUse last taken) := by
  induction inUse with
  | done =>
    intro taken early
    rw [List.prefix_nil.mp early]
    exact alive.keptAlive
  | find quiet idle later close unexpired _ ih =>
    refine forall_prefix_cons alive.keptAlive ?_
    exact ih (alive.find fresh digest quiet idle later close unexpired)
  | view _ ih =>
    refine forall_prefix_cons alive.keptAlive ?_
    exact ih (alive.view reads active)
  | record _ ih =>
    refine forall_prefix_cons alive.keptAlive ?_
    exact ih (alive.record timeout)
  | @prune last state command now selected fault rest within between next ih =>
    refine forall_prefix_cons alive.keptAlive ?_
    refine ih (alive.prune fresh within fun time reading => ?_)
    have bound := between time reading
    have interval := DefaultSessionPolicy.activityIntervalMs_le timeout
    have unexpired := alive.unexpired
    cases following : nextUse rest with
    | none =>
      rw [following, Option.getD_none] at bound
      omega
    | some upcoming =>
      rw [following, Option.getD_some] at bound
      have ⟨close, before⟩ := next.next_close following
      omega

end N2FNest.Identities
