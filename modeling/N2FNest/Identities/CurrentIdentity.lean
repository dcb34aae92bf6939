import N2FNest.Identities.Commands

/-! The use of a session. A request reads it, checks it, reads the identity, and records
the use where the last recorded one is a while ago; a pruner deletes what ended long before. -/

namespace N2FNest.Identities

open Events Lib Shared

structure DefaultSessionPolicy where
  lifetimeMs : Int
  idleTimeoutMs : Int
  deriving DecidableEq, Repr

namespace DefaultSessionPolicy

/-- Often enough that recorded activity lags real use by under a quarter of the idle timeout. -/
def activityIntervalMs (policy : DefaultSessionPolicy) : Int :=
  min (60 * 1000) (policy.idleTimeoutMs / 4)

def expiresAt (policy : DefaultSessionPolicy) (start : JsDate) : Except Failure JsDate :=
  let refused := failure .invalid "session start time is invalid" "identity.invalid_session_expiry"
  match start with
  | none => .error refused
  | some startMs =>
    let expires := startMs + policy.lifetimeMs
    if -9007199254740991 ≤ expires ∧ expires ≤ 9007199254740991 then .ok (timeClip expires)
    else .error refused

theorem activityIntervalMs_pos {policy : DefaultSessionPolicy} (timeout : 4 ≤ policy.idleTimeoutMs) :
    1 ≤ policy.activityIntervalMs := by
  unfold activityIntervalMs
  omega

theorem activityIntervalMs_le {policy : DefaultSessionPolicy} (timeout : 4 ≤ policy.idleTimeoutMs) :
    policy.activityIntervalMs ≤ policy.idleTimeoutMs := by
  unfold activityIntervalMs
  omega

end DefaultSessionPolicy

/-- `Session.seen`: activity only moves forward. -/
def Session.seenAt (session : Session) : JsDate → Session
  | none => session
  | some time =>
    if later : session.lastSeenAt < time then
      { session with lastSeenAt := time, seen := Int.le_trans session.seen (Int.le_of_lt later) }
    else session

/-- The `UPDATE` leaves the row as the aggregate would be. -/
theorem AccountDatabase.seenAt_row {row : SessionRow} {session : Session}
    (held : session.toSessionState = row.toSessionState) (time : Int) :
    (session.seenAt (some time)).toSessionState =
      (AccountDatabase.seenAt session.id time row).toSessionState := by
  have named : row.id = session.id := (congrArg SessionState.id held).symm
  have last : row.lastSeenAt = session.lastSeenAt := (congrArg SessionState.lastSeenAt held).symm
  by_cases later : session.lastSeenAt < time
  · rw [seenAt, if_pos ⟨named, last ▸ later⟩]
    simp only [Session.seenAt, dif_pos later]
    exact congrArg (fun state : SessionState => { state with lastSeenAt := time }) held
  · rw [seenAt, if_neg fun both => later (last ▸ both.2)]
    simp only [Session.seenAt, dif_neg later]
    exact held

variable {Work : Type}

structure IdentityView where
  identityId : ID
  status : IdentityStatus
  verifiedAt : Option Int
  deriving DecidableEq

namespace AccountDatabase

/-- `PostgresIdentityViewReader.findById`. -/
def findView (database : AccountDatabase Work) (identityId : ID) :
    Except Failure (Option IdentityView) := do
  let found ← database.findIdentity identityId
  return found.map fun identity => ⟨identity.id, identity.status, identity.verifiedAt⟩

/-- The pruner's statement. An invalid date is no timestamp. -/
def prune (database : AccountDatabase Work) (endedBefore idleBefore : JsDate)
    (selected : ID → Bool) : Except Failure (AccountDatabase Work) :=
  match endedBefore, idleBefore with
  | some ended, some idle => .ok (database.pruneSessions ended idle selected)
  | _, _ => .error databaseFailed

end AccountDatabase

namespace GetCurrentIdentity

def unauthenticated : Failure :=
  failure .unauthenticated "current Identity is unavailable" "identity.current_unavailable"

def sessionReaderUnavailable (_ : Failure) : Failure :=
  failure .unavailable "current Identity session storage is unavailable"
    "identity.session_reader_unavailable"

def identityReaderUnavailable (_ : Failure) : Failure :=
  failure .unavailable "current Identity storage is unavailable"
    "identity.identity_reader_unavailable"

def sessionActivityUnavailable (_ : Failure) : Failure :=
  failure .unavailable "current Identity session activity could not be recorded"
    "identity.session_activity_unavailable"

/-- A session's own refusal is reported as it is; its other failures are of its state. -/
def sessionFailure (error : Failure) : Failure :=
  if error.type = some "session.revoked" ∨ error.type = some "session.expired" then error
  else failure .internal "current Identity session state is invalid" "identity.invalid_session_state"

/-- A session that was found usable at the clock's reading. -/
structure Accepted (policy : DefaultSessionPolicy) where
  session : Session
  now : JsDate
  usable : session.assertUsable now policy.idleTimeoutMs = .ok ()

variable {policy : DefaultSessionPolicy}

def Accepted.time (accepted : Accepted policy) : Int := accepted.now.getD 0

/-- Whether the last recorded use is an interval ago. -/
def Accepted.due (accepted : Accepted policy) : Bool :=
  policy.activityIntervalMs ≤ accepted.time - accepted.session.lastSeenAt

def accept (policy : DefaultSessionPolicy) (session : Session) (now : JsDate) :
    Except Failure (Accepted policy) :=
  match usable : session.assertUsable now policy.idleTimeoutMs with
  | .error error => .error (sessionFailure error)
  | .ok () => .ok ⟨session, now, usable⟩

/-- From the read of the session to the read of the identity. -/
def readSession (policy : DefaultSessionPolicy) (found : Except Failure (Option Session))
    (now : JsDate) : Except Failure (Accepted policy) := do
  match ← found.mapError sessionReaderUnavailable with
  | none => throw unauthenticated
  | some session => accept policy session now

def readIdentity (found : Except Failure (Option IdentityView)) : Except Failure IdentityView := do
  match ← found.mapError identityReaderUnavailable with
  | none => throw unauthenticated
  | some view => if view.status ≠ .active then throw unauthenticated else return view

end GetCurrentIdentity

open GetCurrentIdentity (Accepted)

namespace PruneSessions

structure Command where
  retentionMs : JsNumber
  limit : JsNumber

def invalidBounds : Failure :=
  dependencyFailure (failure .invalid "session pruning bounds are invalid" "identity.invalid_prune_bounds")

/-- `selected` are the ids that the limit and the locks of other transactions leave the
statement, and `fault` a failure of the database. -/
def execute (policy : DefaultSessionPolicy) (database : AccountDatabase Work) (command : Command)
    (now : JsDate) (selected : ID → Bool) (fault : Option Failure) :
    Except Failure (AccountDatabase Work) :=
  match command.retentionMs.safeNat?, command.limit.safeNat? with
  | some retentionMs, some limit =>
    if limit < 1 then .error invalidBounds
    else
      let endedBefore := now.map fun time : Int => time - retentionMs
      let idleBefore := endedBefore.map fun time : Int => time - policy.idleTimeoutMs
      (orFault fault (database.prune (endedBefore.bind timeClip) (idleBefore.bind timeClip)
        selected)).mapError dependencyFailure
  | _, _ => .error invalidBounds

end PruneSessions

/-- Where a use stands between two of its accesses to the database. -/
inductive Use (policy : DefaultSessionPolicy) where
  | idle
  | accepted (reading : Accepted policy)
  | recording (reading : Accepted policy) (view : IdentityView)
  | succeeded (reading : Accepted policy) (view : IdentityView)
  | failed (error : Failure)

structure UseState (policy : DefaultSessionPolicy) (Work : Type) where
  database : AccountDatabase Work
  uses : Nat → Use policy

inductive UseLabel where
  | find (caller : Nat) (sessionToken : JsString) (now : JsDate) (fault : Option Failure)
  | view (caller : Nat) (fault : Option Failure)
  | record (caller : Nat) (fault : Option Failure)
  | prune (command : PruneSessions.Command) (now : JsDate) (selected : ID → Bool)
      (fault : Option Failure)

namespace UseState

variable {policy : DefaultSessionPolicy} (digestToken : JsString → JsString)

def put (state : UseState policy Work) (caller : Nat) (use : Use policy) : UseState policy Work :=
  { state with uses := Function.update state.uses caller use }

def step (state : UseState policy Work) : UseLabel → UseState policy Work
  | .find caller sessionToken now fault => match state.uses caller with
    | .idle =>
      let found := orFault fault (state.database.findByToken (digestToken sessionToken))
      match GetCurrentIdentity.readSession policy found now with
      | .ok reading => state.put caller (.accepted reading)
      | .error error => state.put caller (.failed error)
    | _ => state
  | .view caller fault => match state.uses caller with
    | .accepted reading =>
      let found := orFault fault (state.database.findView reading.session.identityId)
      match GetCurrentIdentity.readIdentity found with
      | .ok view =>
        if reading.due then state.put caller (.recording reading view)
        else state.put caller (.succeeded reading view)
      | .error error => state.put caller (.failed error)
    | _ => state
  | .record caller fault => match state.uses caller with
    | .recording reading view => match fault with
      | none =>
        let database := state.database.recordActivity reading.session.id reading.time
        { state.put caller (.succeeded reading view) with database := database }
      | some error => state.put caller (.failed (GetCurrentIdentity.sessionActivityUnavailable error))
    | _ => state
  | .prune command now selected fault =>
    match PruneSessions.execute policy state.database command now selected fault with
    | .ok database => { state with database := database }
    | .error _ => state

end UseState

end N2FNest.Identities
