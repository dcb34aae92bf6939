import N2FNest.Lib.Run
import N2FNest.Shared.Failure

/-! `Database.transaction` as the event loop interleaves it: the operation that
talks to the server, the caller's signal and the budget timer that stop it, and
the race between the two that decides the answer. -/

namespace N2FNest.Database.Transaction

open Lib Shared

/-- What a `catch` receives: a carried failure, a `pg.DatabaseError` with its
code, or anything else. -/
inductive Caught where
  | failure (error : Failure)
  | database (code : String)
  | other

def timedOut : Failure := failure .timeout "database operation timed out" "database.timeout"

def canceled : Failure := failure .canceled "database operation canceled" "database.canceled"

def uncertain : Failure :=
  failure .unavailable "database commit outcome uncertain" "database.commit_uncertain"

def closed : Failure := failure .unavailable "database closed" "database.closed"

def rolledBack : Failure := failure .internal "database transaction aborted" "database.failed"

def map : Caught → Failure
  | .failure error => error
  | .database code =>
    if code = "23505" then failure .conflict "database operation failed" "database.conflict"
    else if code = "40001" ∨ code = "40P01" then
      failure .unavailable "database operation was not serializable" "database.serialization"
    else if code = "57014" then timedOut
    else databaseFailed
  | .other => failure .unavailable "database operation failed" "database.unavailable"

def commitFailure : Caught → Failure
  | .database code => map (.database code)
  | _ => uncertain

inductive Statement where
  | begin | commit | rollback
  deriving DecidableEq

/-- The server's side of the transaction. -/
inductive Server where
  | fresh | opened | committed | rolledBack
  deriving DecidableEq

/-- A command tag or a `DatabaseError`. -/
inductive Reply where
  | tag (command : Statement)
  | error (code : String)
  deriving DecidableEq

variable {T : Type}

/-- Where the operation stands: the statement or promise it awaits. -/
inductive Phase (T : Type) where
  | connecting
  | beginning
  | running
  | rollingBack (error : Failure)
  | committing (value : T)
  | stopping
  | settled

/-- One call of `client.release`, with what had happened before it. -/
structure Release where
  destroy : Bool
  fired : Bool
  threw : Bool

structure State (T : Type) where
  phase : Phase T
  /-- The pool handed out a client. -/
  connected : Bool
  /-- `signal.aborted`, of the caller's signal. -/
  signalled : Bool
  /-- The timer is set and has not fired. -/
  armed : Bool
  /-- `controller.signal.aborted`: the signal or the timer stopped the operation. -/
  aborted : Bool
  committing : Bool
  released : Bool
  releases : List Release
  /-- The operation entered its `catch`. -/
  threw : Bool
  stopped : Option (Except Failure T)
  /-- What the race settled with. -/
  result : Option (Except Failure T)
  returned : Bool
  server : Server
  /-- A statement the server has not handled. -/
  inflight : Option Statement
  /-- An answer the operation has not seen. -/
  reply : Option Reply
  /-- The statements sent, and whether the operation had been stopped before. -/
  sent : List (Statement × Bool)

/-- How the callback ends. -/
inductive Finish (T : Type) where
  | value (value : T)
  | failure (error : Failure)
  | thrown (error : Caught)

/-- What the server makes of a statement. -/
inductive Answer where
  | done | undone | refused (code : String)

inductive Event (T : Type) where
  | connected | unreachable (error : Caught)
  | abort | timeout
  | replied | lost
  | finished (outcome : Finish T)
  | resumed | returned
  | served (answer : Answer) | disconnected

namespace State

def initial (signalled : Bool) : State T where
  phase := .connecting
  connected := false
  signalled := signalled
  armed := false
  aborted := false
  committing := false
  released := false
  releases := []
  threw := false
  stopped := none
  result := none
  returned := false
  server := .fresh
  inflight := none
  reply := none
  sent := []

/-- The answer of a call that leased no client. -/
def refuse (state : State T) (error : Failure) : State T :=
  { state with phase := .settled, result := some (.error error), returned := true }

/-- The call up to `pool.connect()`. -/
def start (closing signalled : Bool) : State T :=
  if closing then (initial signalled).refuse closed
  else if signalled then (initial signalled).refuse canceled
  else initial signalled

def release (state : State T) (destroy : Bool) : State T :=
  if state.released then state
  else { state with
    released := true
    releases := state.releases ++ [⟨destroy, state.aborted, state.threw⟩] }

/-- The race keeps the value that settles first. -/
def settle (state : State T) (value : Except Failure T) : State T :=
  match state.result with
  | some _ => state
  | none => { state with result := some value }

/-- Resolve `stopped`, which only its first resolution decides. -/
def cancel (state : State T) (value : Except Failure T) : State T :=
  match state.stopped with
  | some _ => state
  | none => { state with stopped := some value }.settle value

def stop (state : State T) (byCaller : Bool) : State T :=
  ({ state with aborted := true }.release true).cancel (.error
    (if state.committing then uncertain else if byCaller then canceled else timedOut))

def send (state : State T) (statement : Statement) : State T :=
  { state with
    inflight := some statement
    sent := state.sent ++ [(statement, state.aborted)] }

/-- The operation returns: its `finally`, then its promise. -/
def finish (state : State T) (value : Except Failure T) : State T :=
  ({ state with phase := .settled }.release false).settle value

/-- The operation's `catch`. -/
def throw (state : State T) (error : Caught) : State T :=
  ({ state with threw := true }.release true).finish
    (.error (if state.committing then commitFailure error else map error))

/-- The operation goes on with the answer to its statement. -/
def replied (state : State T) (reply : Reply) : State T :=
  match state.phase, reply with
  | .beginning, .tag _ => { state with phase := .running, reply := none }
  | .rollingBack error, .tag _ => { state with reply := none }.finish (.error error)
  | .committing value, .tag command =>
    { state with reply := none }.finish
      (if command = Statement.commit then .ok value else .error rolledBack)
  | .beginning, .error code | .rollingBack _, .error code | .committing _, .error code =>
    { state with reply := none }.throw (.database code)
  | _, _ => state

/-- The callback ended. -/
def finished (state : State T) : Finish T → State T
  | .thrown error => state.throw error
  | .failure error =>
    if state.aborted then { state with phase := .stopping }
    else { state with phase := .rollingBack error }.send .rollback
  | .value value =>
    if state.aborted then { state with phase := .stopping }
    else { state with phase := .committing value, committing := true }.send .commit

/-- The server handles the statement that reached it. A `COMMIT` of a failed
transaction is answered with `ROLLBACK`. -/
def served (state : State T) (answer : Answer) : State T :=
  match state.inflight, state.server with
  | some .begin, .fresh => match answer with
    | .refused code => { state with inflight := none, reply := some (.error code) }
    | _ => { state with inflight := none, server := .opened, reply := some (.tag .begin) }
  | some .commit, .opened => match answer with
    | .done => { state with inflight := none, server := .committed, reply := some (.tag .commit) }
    | .undone =>
      { state with inflight := none, server := .rolledBack, reply := some (.tag .rollback) }
    | .refused code =>
      { state with inflight := none, server := .rolledBack, reply := some (.error code) }
  | some .rollback, .opened => match answer with
    | .refused code => { state with inflight := none, reply := some (.error code) }
    | _ => { state with inflight := none, server := .rolledBack, reply := some (.tag .rollback) }
  | _, _ => state

def step (state : State T) : Event T → State T
  | .connected => match state.phase with
    | .connecting =>
      let leased := { state with connected := true, armed := true }
      if state.signalled then { leased with phase := .stopping }.stop true
      else { leased with phase := .beginning }.send .begin
    | _ => state
  | .unreachable error => match state.phase with
    | .connecting => state.refuse (map error)
    | _ => state
  | .abort =>
    if state.signalled then state
    else if state.connected && !state.returned then { state with signalled := true }.stop true
    else { state with signalled := true }
  | .timeout => if state.armed then { state with armed := false }.stop false else state
  | .replied => match state.reply with
    | some reply => state.replied reply
    | none => state
  | .lost => match state.phase with
    -- A connection that is lost, or a client that is destroyed, rejects the query.
    | .beginning | .rollingBack _ | .committing _ => state.throw .other
    | _ => state
  | .finished outcome => match state.phase with
    | .running => state.finished outcome
    | _ => state
  | .resumed => match state.phase, state.stopped with
    | .stopping, some value => state.finish value
    | _, _ => state
  | .returned => if state.result.isSome then { state with returned := true, armed := false } else state
  | .served answer => state.served answer
  | .disconnected =>
    { state with
      inflight := none
      server := if state.server = .opened then .rolledBack else state.server }

/-- The release log after a release that may not be the first. -/
def logged (state : State T) (call : Release) : List Release :=
  if state.released then state.releases else state.releases ++ [call]

/-- What `stop` reports when it is the first to do so. -/
def verdict (state : State T) (byCaller : Bool) : Failure :=
  if state.committing then uncertain else if byCaller then canceled else timedOut

theorem stop_eq (state : State T) (byCaller : Bool) : state.stop byCaller =
    { state with
      aborted := true
      released := true
      releases := state.logged ⟨true, true, state.threw⟩
      stopped := state.stopped.or (some (.error (state.verdict byCaller)))
      result := if state.stopped.isSome then state.result
        else state.result.or (some (.error (state.verdict byCaller))) } := by
  cases freed : state.released <;> cases ended : state.stopped <;> cases settled : state.result <;>
    simp [stop, release, cancel, settle, logged, verdict, freed, ended, settled]

theorem finish_eq (state : State T) (value : Except Failure T) : state.finish value =
    { state with
      phase := .settled
      released := true
      releases := state.logged ⟨false, state.aborted, state.threw⟩
      result := state.result.or (some value) } := by
  cases freed : state.released <;> cases settled : state.result <;>
    simp [finish, release, settle, logged, freed, settled]

/-- What the `catch` reports. -/
def caught (state : State T) (error : Caught) : Failure :=
  if state.committing then commitFailure error else map error

theorem throw_eq (state : State T) (error : Caught) : state.throw error =
    { state with
      phase := .settled
      threw := true
      released := true
      releases := state.logged ⟨true, state.aborted, true⟩
      result := state.result.or (some (.error (state.caught error))) } := by
  cases freed : state.released <;> cases settled : state.result <;>
    simp [throw, finish, release, settle, logged, caught, freed, settled]

end State

/-- The operation awaits the answer to a statement. -/
def Phase.awaits : Phase T → Bool
  | .beginning | .rollingBack _ | .committing _ => true
  | _ => false

namespace State

/-- The values the operation returns with. -/
inductive Ends (state : State T) : Except Failure T → Prop
  | undone {error : Failure} (phase : state.phase = .rollingBack error) : Ends state (.error error)
  | committed {value : T} (phase : state.phase = .committing value)
      (reply : state.reply = some (.tag .commit)) : Ends state (.ok value)
  | rolledBack {value : T} {command : Statement} (phase : state.phase = .committing value)
      (reply : state.reply = some (.tag command)) (other : command ≠ .commit) :
      Ends state (.error rolledBack)
  | stopped {value : Except Failure T} (phase : state.phase = .stopping)
      (ended : state.stopped = some value) : Ends state value

/-- The errors its `catch` receives. -/
inductive Throws (state : State T) : Caught → Prop
  | callback {error : Caught} (phase : state.phase = .running) : Throws state error
  | refused {code : String} (awaits : state.phase.awaits = true)
      (reply : state.reply = some (.error code)) : Throws state (.database code)
  | lost (awaits : state.phase.awaits = true) : Throws state .other

/-- Everything one event can do, with what the code had checked before it. -/
inductive Moves (state : State T) : State T → Prop
  | noted (signalled armed returned : Bool) (timer : armed = true → state.armed = true)
      (answered : returned = true → state.returned = true ∨ state.result.isSome = true) :
      Moves state { state with signalled, armed, returned }
  | refused (error : Failure) (phase : state.phase = .connecting) : Moves state (state.refuse error)
  | begun (phase : state.phase = .connecting) :
      Moves state ({ state with connected := true, armed := true, phase := .beginning }.send .begin)
  | late (phase : state.phase = .connecting) :
      Moves state ({ state with connected := true, armed := true, phase := .stopping }.stop true)
  | stopped (byCaller signalled armed : Bool) (leased : state.connected = true) :
      Moves state ({ state with signalled, armed }.stop byCaller)
  | entered (phase : state.phase = .beginning) (reply : state.reply.isSome = true) :
      Moves state { state with phase := .running, reply := none }
  | waited (phase : state.phase = .running) (aborted : state.aborted = true) :
      Moves state { state with phase := .stopping }
  | rolling (error : Failure) (phase : state.phase = .running) (live : state.aborted = false) :
      Moves state ({ state with phase := .rollingBack error }.send .rollback)
  | committing (value : T) (phase : state.phase = .running) (live : state.aborted = false) :
      Moves state ({ state with phase := .committing value, committing := true }.send .commit)
  | finished {value : Except Failure T} {reply : Option Reply} (ends : state.Ends value)
      (kept : reply = none ∨ reply = state.reply) : Moves state ({ state with reply }.finish value)
  | thrown {error : Caught} {reply : Option Reply} (throws : state.Throws error)
      (kept : reply = none ∨ reply = state.reply) : Moves state ({ state with reply }.throw error)
  | served (answer : Answer) : Moves state (state.served answer)
  | disconnected : Moves state (state.step .disconnected)

theorem Moves.refl (state : State T) : Moves state state :=
  .noted state.signalled state.armed state.returned id .inl

private theorem replied_moves {state : State T} {reply : Reply} (found : state.reply = some reply) :
    Moves state (state.replied reply) := by
  unfold State.replied
  split
  · exact .entered ‹_› (by simp [found])
  · exact .finished (.undone ‹_›) (.inl rfl)
  · rename_i value command phase
    split
    · rename_i same
      exact .finished (.committed phase (same ▸ found)) (.inl rfl)
    · exact .finished (.rolledBack phase found ‹_›) (.inl rfl)
  · rename_i phase
    exact .thrown (.refused (by simp [phase, Phase.awaits]) found) (.inl rfl)
  · rename_i phase
    exact .thrown (.refused (by simp [phase, Phase.awaits]) found) (.inl rfl)
  · rename_i phase
    exact .thrown (.refused (by simp [phase, Phase.awaits]) found) (.inl rfl)
  · exact .refl state

private theorem finished_moves {state : State T} (phase : state.phase = .running)
    (outcome : Finish T) : Moves state (state.finished outcome) := by
  cases outcome with
  | thrown error => exact .thrown (.callback phase) (.inr rfl)
  | failure error =>
    cases aborted : state.aborted with
    | true => simpa [State.finished, aborted] using Moves.waited phase aborted
    | false => simpa [State.finished, aborted] using Moves.rolling error phase aborted
  | value value =>
    cases aborted : state.aborted with
    | true => simpa [State.finished, aborted] using Moves.waited phase aborted
    | false => simpa [State.finished, aborted] using Moves.committing value phase aborted

/-- The timer exists only with a client. -/
theorem step_moves {state : State T} (timer : state.armed = true → state.connected = true)
    (event : Event T) : Moves state (state.step event) := by
  cases event with
  | connected =>
    simp only [step]
    split
    · split
      · exact .late ‹_›
      · exact .begun ‹_›
    · exact .refl state
  | unreachable error =>
    simp only [step]
    split
    · exact .refused _ ‹_›
    · exact .refl state
  | abort =>
    simp only [step]
    split
    · exact .refl state
    · split
      · rename_i listening
        exact .stopped true true state.armed (by simp at listening; exact listening.1)
      · exact .noted true state.armed state.returned id .inl
  | timeout =>
    simp only [step]
    split
    · exact .stopped false state.signalled false (timer ‹_›)
    · exact .refl state
  | replied =>
    simp only [step]
    split
    · exact replied_moves ‹_›
    · exact .refl state
  | lost =>
    simp only [step]
    split
    · rename_i phase
      exact .thrown (.lost (by simp [phase, Phase.awaits])) (.inr rfl)
    · rename_i phase
      exact .thrown (.lost (by simp [phase, Phase.awaits])) (.inr rfl)
    · rename_i phase
      exact .thrown (.lost (by simp [phase, Phase.awaits])) (.inr rfl)
    · exact .refl state
  | finished outcome =>
    simp only [step]
    split
    · exact finished_moves ‹_› outcome
    · exact .refl state
  | resumed =>
    simp only [step]
    split
    · exact .finished (.stopped ‹_› ‹_›) (.inr rfl)
    · exact .refl state
  | returned =>
    simp only [step]
    split
    · exact .noted state.signalled false true (fun never => nomatch never) fun _ => .inr ‹_›
    · exact .refl state
  | served answer => exact .served answer
  | disconnected => exact .disconnected

/-- The server does nothing, or answers the statement that was under way. Only a
committed `COMMIT` is answered with its tag. -/
theorem served_cases (state : State T) (answer : Answer) : state.served answer = state ∨
    ∃ statement reply server, state.inflight = some statement ∧ state.server ≠ .committed ∧
      state.served answer = { state with inflight := none, reply := some reply, server } ∧
      if reply = .tag .commit then statement = .commit ∧ server = .committed
      else server ≠ .committed := by
  unfold served
  split
  · rename_i sent server
    split
    · exact .inr ⟨_, _, state.server, sent, by simp [server], rfl, by simp [server]⟩
    · exact .inr ⟨_, _, _, sent, by simp [server], rfl, by simp⟩
  · rename_i sent server
    split
    · exact .inr ⟨_, _, _, sent, by simp [server], rfl, by simp⟩
    · exact .inr ⟨_, _, _, sent, by simp [server], rfl, by simp⟩
    · exact .inr ⟨_, _, _, sent, by simp [server], rfl, by simp⟩
  · rename_i sent server
    split
    · exact .inr ⟨_, _, state.server, sent, by simp [server], rfl, by simp [server]⟩
    · exact .inr ⟨_, _, _, sent, by simp [server], rfl, by simp⟩
  · exact .inl rfl

end State

end N2FNest.Database.Transaction
