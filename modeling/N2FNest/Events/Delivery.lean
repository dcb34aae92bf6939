import N2FNest.Events.Envelope
import N2FNest.Events.Retry
import N2FNest.Lib.Result
import N2FNest.Lib.Table

/-! Delivery rows under leases. The outbox and the inbox keep the same columns and
write them with the same statements; the two differ in their keys and in what a
row is joined with. Times are in microseconds, as the database keeps them. -/

namespace N2FNest.Events

open Lib Shared

/-- How long a claim holds its row: 30 seconds. -/
def LEASE : Int := 30000000

def UNDECODABLE : JsString := js "events.undecodable"

def LEASE_EXPIRED : JsString := js "events.lease_expired"

/-- `settled` is `sent` in the outbox and `processed` in the inbox. -/
inductive DeliveryState where
  | pending | settled | dead
  deriving DecidableEq, Repr

structure DeliveryColumns where
  state : DeliveryState
  attempts : Nat
  availableAt : Int
  lease : Option ID
  leaseUntil : Option Int
  lastError : Option JsString
  finishedAt : Option Int

namespace DeliveryColumns

/-- The column defaults of a new row. -/
def fresh (now : Int) : DeliveryColumns where
  state := .pending
  attempts := 0
  availableAt := now
  lease := none
  leaseUntil := none
  lastError := none
  finishedAt := none

/-- The CHECK constraints of the table, the states being a type already. -/
def admitted (row : DeliveryColumns) : Bool :=
  row.attempts ≤ 100 && row.lease.isNone == row.leaseUntil.isNone &&
    row.lastError.all fun error => error.charLength ≤ 200

/-- `lease_until IS NULL OR lease_until<=clock_timestamp()`. -/
def unleased (now : Int) (row : DeliveryColumns) : Bool := row.leaseUntil.all (· ≤ now)

/-- A row whose last permitted attempt never reported back. -/
def abandoned (policy : RetryPolicy) (now : Int) (row : DeliveryColumns) : Bool :=
  row.state == .pending && policy.maxAttempts ≤ row.attempts && row.unleased now

def sweep (now : Int) (row : DeliveryColumns) : DeliveryColumns :=
  { row with
    state := .dead
    lease := none
    leaseUntil := none
    finishedAt := some now
    lastError := some (row.lastError.getD LEASE_EXPIRED) }

def claimable (policy : RetryPolicy) (now : Int) (row : DeliveryColumns) : Bool :=
  row.state == .pending && row.attempts < policy.maxAttempts && row.availableAt ≤ now &&
    row.unleased now

def claim (token : ID) (now : Int) (row : DeliveryColumns) : DeliveryColumns :=
  { row with
    lease := some token
    leaseUntil := some (now + LEASE)
    attempts := row.attempts + 1 }

def quarantine (now : Int) (row : DeliveryColumns) : DeliveryColumns :=
  { row with
    state := .dead
    lease := none
    leaseUntil := none
    finishedAt := some now
    lastError := some UNDECODABLE }

/-- Record the outcome of an attempt: `error` is its failure, if it failed. -/
def finish (state : DeliveryState) (error : Option JsString) (delayMs : Int) (now : Int)
    (row : DeliveryColumns) : DeliveryColumns :=
  { row with
    state := state
    lease := none
    leaseUntil := none
    lastError := error.map fun text => text.slice 200
    availableAt := now + delayMs * 1000
    finishedAt := if state = .pending then none else some now }

/-- The lease columns stay as they are. -/
def requeue (now : Int) (row : DeliveryColumns) : DeliveryColumns :=
  { row with
    state := .pending
    attempts := 0
    availableAt := now
    lastError := none
    finishedAt := none }

/-- How the columns of a row hang together. -/
structure Consistent (row : DeliveryColumns) : Prop where
  leased : row.lease = none ↔ row.leaseUntil = none
  idle : row.state ≠ .pending → row.lease = none
  finished : row.finishedAt = none ↔ row.state = .pending
  error : ∀ text, row.lastError = some text → text.charLength ≤ 200

/-- Attempts stay within the policy, and the last one is never left unattended. -/
structure Budgeted (maxAttempts : Nat) (row : DeliveryColumns) : Prop where
  bounded : row.attempts ≤ maxAttempts
  attended : row.state = .pending → row.attempts = maxAttempts → row.lease ≠ none

variable {row : DeliveryColumns} {maxAttempts : Nat}

theorem Consistent.admitted (consistent : row.Consistent) (few : row.attempts ≤ 100) :
    row.admitted = true := by
  have leases : row.lease.isNone = row.leaseUntil.isNone := by
    rw [Bool.eq_iff_iff, Option.isNone_iff_eq_none, Option.isNone_iff_eq_none]
    exact consistent.leased
  have errors : row.lastError.all (fun error => error.charLength ≤ 200) = true := by
    cases stored : row.lastError with
    | none => rfl
    | some text => simpa using consistent.error text stored
  simp [DeliveryColumns.admitted, leases, errors, few]

theorem fresh_consistent (now : Int) : (fresh now).Consistent :=
  ⟨by simp [fresh], by simp [fresh], by simp [fresh], by simp [fresh]⟩

theorem fresh_budgeted (now : Int) (some : 1 ≤ maxAttempts) : (fresh now).Budgeted maxAttempts where
  bounded := Nat.zero_le _
  attended := by
    intro _ all
    have none : 0 = maxAttempts := all
    omega

theorem Consistent.sweep (consistent : row.Consistent) (now : Int) : (row.sweep now).Consistent where
  leased := by simp [DeliveryColumns.sweep]
  idle := by simp [DeliveryColumns.sweep]
  finished := by simp [DeliveryColumns.sweep]
  error := by
    intro text stored
    cases before : row.lastError with
    | none =>
      have same : LEASE_EXPIRED = text := by simpa [DeliveryColumns.sweep, before] using stored
      rw [← same]
      decide
    | some earlier =>
      have same : earlier = text := by simpa [DeliveryColumns.sweep, before] using stored
      exact consistent.error text (before.trans (congrArg some same))

theorem Consistent.claim (consistent : row.Consistent) (token : ID) (now : Int)
    (pending : row.state = .pending) : (row.claim token now).Consistent where
  leased := by simp [DeliveryColumns.claim]
  idle := by simp [DeliveryColumns.claim, pending]
  finished := consistent.finished
  error := consistent.error

theorem quarantine_consistent (now : Int) : (row.quarantine now).Consistent where
  leased := by simp [quarantine]
  idle := by simp [quarantine]
  finished := by simp [quarantine]
  error := by
    intro text stored
    have same : UNDECODABLE = text := by simpa [quarantine] using stored
    rw [← same]
    decide

theorem finish_consistent (state : DeliveryState) (error : Option JsString) (delayMs now : Int) :
    (row.finish state error delayMs now).Consistent where
  leased := by simp [finish]
  idle := by simp [finish]
  finished := by simp [finish]
  error := by
    intro text stored
    obtain ⟨whole, _, same⟩ := Option.map_eq_some_iff.mp stored
    rw [← same]
    exact (JsString.charLength_le _).trans (JsString.slice_length whole 200)

theorem Consistent.requeue (consistent : row.Consistent) (now : Int) :
    (row.requeue now).Consistent where
  leased := consistent.leased
  idle := by simp [DeliveryColumns.requeue]
  finished := by simp [DeliveryColumns.requeue]
  error := by simp [DeliveryColumns.requeue]

theorem Budgeted.ended {next : DeliveryColumns} (budgeted : row.Budgeted maxAttempts)
    (same : next.attempts = row.attempts) (ended : next.state ≠ .pending) :
    next.Budgeted maxAttempts :=
  ⟨same ▸ budgeted.bounded, fun pending => absurd pending ended⟩

theorem claim_budgeted (token : ID) (now : Int) (left : row.attempts < maxAttempts) :
    (row.claim token now).Budgeted maxAttempts :=
  ⟨left, by simp [claim]⟩

theorem requeue_budgeted (now : Int) (some : 1 ≤ maxAttempts) :
    (row.requeue now).Budgeted maxAttempts where
  bounded := Nat.zero_le _
  attended := by
    intro _ all
    have none : 0 = maxAttempts := all
    omega

end DeliveryColumns

/-- A row: its key, what it carries besides, and the delivery columns. -/
structure DeliveryRow (Key Body : Type) extends DeliveryColumns where
  key : Key
  body : Body

variable {Key Body Event : Type}

abbrev Deliveries (Key Body : Type) := Table (fun row : DeliveryRow Key Body => row.key)

/-- The rows that `selects` names, rewritten. -/
def rewrite (table : Deliveries Key Body) (selects : DeliveryRow Key Body → Bool)
    (set : DeliveryColumns → DeliveryColumns) : Deliveries Key Body :=
  table.modify (fun row => if selects row then { row with toDeliveryColumns := set row.toDeliveryColumns }
    else row) (by intro row; split <;> rfl)

/-- An UPDATE, with the number of rows it wrote. A row that breaks a CHECK fails
the whole statement. -/
def update (table : Deliveries Key Body) (selects : DeliveryRow Key Body → Bool)
    (set : DeliveryColumns → DeliveryColumns) : Except Failure (Deliveries Key Body × Nat) :=
  if table.rows.all fun row => !selects row || (set row.toDeliveryColumns).admitted then
    .ok (rewrite table selects set, table.rows.countP selects)
  else .error databaseFailed

variable [DecidableEq Key]

/-- `ORDER BY available_at,event_id`. -/
def availableBefore (eventId : Key → ID) (row other : DeliveryRow Key Body) : Bool :=
  row.availableAt < other.availableAt || (row.availableAt == other.availableAt &&
    (eventId row.key).text.units < (eventId other.key).text.units)

/-- A queue's own part of a claim: which rows it looks at, the event id they are
ordered by, and the envelope joined to a row, as far as it decodes. -/
structure Queue (Key Body Event : Type) where
  selects : Key → Bool
  eventId : Key → ID
  envelope : DeliveryRow Key Body → Option (Except Failure Event)

inductive Claimed (Key Event : Type) where
  | nothing
  | quarantined (key : Key) (attempt : Nat)
  | leased (key : Key) (event : Event) (attempt : Nat)

/-- The claim transaction: sweep, take the first due row, and quarantine it when its
envelope does not decode. -/
def claim (policy : RetryPolicy) (queue : Queue Key Body Event) (table : Deliveries Key Body)
    (token : ID) (now : Int) : Except Failure (Claimed Key Event × Deliveries Key Body) := do
  let (swept, _) ← update table (fun row => queue.selects row.key && row.abandoned policy now)
    (.sweep now)
  let candidate := Table.least (availableBefore queue.eventId)
    (swept.rows.filter fun row => queue.selects row.key && row.claimable policy now)
  match candidate with
  | none => return (.nothing, swept)
  | some row => match queue.envelope row with
    | none => return (.nothing, swept)
    | some decoded =>
      let (claimed, _) ← update swept (fun other => other.key = row.key) (.claim token now)
      match decoded with
      | .ok event => return (.leased row.key event (row.attempts + 1), claimed)
      | .error _ =>
        let (quarantined, _) ← update claimed (fun other => other.key = row.key) (.quarantine now)
        return (.quarantined row.key (row.attempts + 1), quarantined)

/-- The state an attempt leaves its row in. -/
def outcome (policy : RetryPolicy) (attempt : Nat) (error : Option JsString) : DeliveryState :=
  match error with
  | none => .settled
  | some _ => if exhausted policy attempt then .dead else .pending

def delayMs (policy : RetryPolicy) (attempt : Nat) (draw : Draw) (error : Option JsString) : Int :=
  match error with
  | none => 0
  | some _ => retryDelay policy attempt draw

/-- A finish always binds a delay its parameter can carry: an acknowledgement for any
policy, a failure for one whose delays are sendable. -/
theorem delayMs_fits {policy : RetryPolicy} {error : Option JsString}
    (sendable : error = none ∨ policy.Sendable) (attempt : Nat) (draw : Draw) :
    fitsInteger (delayMs policy attempt draw error) = true := by
  cases error with
  | none => rfl
  | some text =>
    rcases sendable with none | sendable
    · cases none
    · exact sendable.retryDelay attempt draw

/-- The finish transaction. `holds` is what its WHERE asks of the row besides its
key, the lease and that it is pending. -/
def finish (policy : RetryPolicy) (table : Deliveries Key Body) (key : Key) (token : ID)
    (attempt : Nat) (error : Option JsString) (draw : Draw) (now : Int)
    (holds : DeliveryColumns → Bool) : Except Failure (Deliveries Key Body) := do
  let delay := delayMs policy attempt draw error
  if fitsInteger delay then
    let (finished, count) ← update table
      (fun row => row.key = key && row.lease = some token && row.state == .pending &&
        holds row.toDeliveryColumns)
      (.finish (outcome policy attempt error) error delay now)
    if count = 1 then return finished else throw (conflict "lease_lost")
  else throw databaseFailed

/-- The requeue transaction, over the dead rows `selects` names. -/
def requeue (table : Deliveries Key Body) (selects : Key → Bool) (now : Int) :
    Except Failure (Deliveries Key Body × Nat) :=
  update table (fun row => selects row.key && row.state == .dead) (.requeue now)

end N2FNest.Events
