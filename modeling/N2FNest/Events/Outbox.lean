import N2FNest.Events.Leases
import N2FNest.Lib.Run

/-! The PostgreSQL outbox and its dispatchers. A dispatch claims a row, publishes
its event outside any transaction and records the outcome under its lease; a
dispatch can stop for good anywhere in between, and any number of them run at
once. A failure of the database itself is such a stop, before the statement took
effect or after it. -/

namespace N2FNest.Events

open Lib Shared

/-- The envelope as the outbox stores it. Nothing below depends on how envelopes
are encoded. -/
structure Codec (Text Work : Type) where
  bytes : Envelope Work → Text
  decode : Text → Except Failure (Envelope Work)
  admitted : Text → Bool
  sameJsonb : Text → Text → Bool

variable {Text Work : Type}

abbrev OutboxRows (Text : Type) := Deliveries ID Text

/-- `INSERT … ON CONFLICT(event_id) DO UPDATE`: an id already present is accepted
again only for the same event, and its row stays as it is. -/
def enqueue (codec : Codec Text Work) (rows : OutboxRows Text) (event : Envelope Work) (now : Int) :
    Except Failure (OutboxRows Text) :=
  let text := codec.bytes event
  if codec.admitted text then
    match rows.get event.id with
    | none => .ok (rows.set ⟨.fresh now, event.id, text⟩)
    | some held =>
      if codec.sameJsonb held.body text then .ok rows else .error (conflict "id_reused")
  else .error databaseFailed

structure Lease (Work : Type) where
  event : Envelope Work
  token : ID
  attempt : Nat

structure Receipt where
  eventId : ID
  durable : Bool

namespace Store

def queue (codec : Codec Text Work) : Queue ID Text (Envelope Work) where
  selects := fun _ => true
  eventId := id
  envelope := fun row => some (codec.decode row.body)

def claim (policy : RetryPolicy) (codec : Codec Text Work) (rows : OutboxRows Text) (token : ID)
    (now : Int) : Except Failure (Claimed ID (Envelope Work) × OutboxRows Text) :=
  Events.claim policy (queue codec) rows token now

/-- `lease_until>clock_timestamp()`. -/
def live (now : Int) (row : DeliveryColumns) : Bool := row.leaseUntil.any (now < ·)

def finish (policy : RetryPolicy) (rows : OutboxRows Text) (lease : Lease Work)
    (error : Option JsString) (draw : Draw) (now : Int) : Except Failure (OutboxRows Text) :=
  Events.finish policy rows lease.event.id lease.token lease.attempt error draw now (live now)

def ack (policy : RetryPolicy) (rows : OutboxRows Text) (lease : Lease Work) (draw : Draw)
    (now : Int) : Except Failure (OutboxRows Text) :=
  finish policy rows lease none draw now

def release (policy : RetryPolicy) (rows : OutboxRows Text) (lease : Lease Work) (error : JsString)
    (draw : Draw) (now : Int) : Except Failure (OutboxRows Text) :=
  finish policy rows lease (some error) draw now

def requeue (rows : OutboxRows Text) (eventId : Option ID) (now : Int) :
    Except Failure (OutboxRows Text × Nat) :=
  Events.requeue rows (fun key => eventId.all (key = ·)) now

/-- `state='sent' AND finished_at<clock_timestamp()-retention`. -/
def prunable (retentionMs : Int) (now : Int) (row : DeliveryColumns) : Bool :=
  row.state == .settled && row.finishedAt.any (· < now - retentionMs * 1000)

/-- Delete up to `limit` of the old sent rows; which ones is up to the scan. -/
def prune (rows : OutboxRows Text) (retentionMs : Int) (limit : Nat) (scan : ID → Bool) (now : Int) :
    OutboxRows Text :=
  let chosen := ((rows.rows.filter fun row =>
    prunable retentionMs now row.toDeliveryColumns && scan row.key).take limit).map fun row => row.key
  rows.keep fun row => row.key ∉ chosen

end Store

/-- Where a dispatch stands. -/
inductive Dispatch (Work : Type) where
  | ready
  | publishing (lease : Lease Work)
  | acking (lease : Lease Work)
  | releasing (lease : Lease Work) (reason : Failure)
  | returned (result : Except Failure Bool)
  | crashed

def invalidReceipt : Failure :=
  failure .unavailable "publisher receipt invalid" "events.invalid_receipt"

namespace Dispatch

/-- The lease a dispatch holds or believes to hold. -/
def lease? : Dispatch Work → Option (Lease Work)
  | .publishing lease => some lease
  | .acking lease => some lease
  | .releasing lease _ => some lease
  | _ => none

/-- What a claim makes of the dispatch that asked for it. -/
def claimed (token : ID) : Claimed ID (Envelope Work) → Dispatch Work
  | .nothing => .returned (.ok false)
  | .quarantined _ _ => .returned (.ok true)
  | .leased _ event attempt => .publishing ⟨event, token, attempt⟩

/-- Only a durable receipt for the event itself lets a dispatch acknowledge. -/
def published (lease : Lease Work) : Except Failure Receipt → Dispatch Work
  | .ok receipt =>
    if receipt.durable && receipt.eventId = lease.event.id then .acking lease
    else .releasing lease invalidReceipt
  | .error error => .releasing lease error

theorem published_cases (lease : Lease Work) (receipt : Except Failure Receipt) :
    published lease receipt = .acking lease ∨ ∃ reason, published lease receipt = .releasing lease reason := by
  cases receipt with
  | error error => exact .inr ⟨error, rfl⟩
  | ok receipt =>
    by_cases good : (receipt.durable && receipt.eventId = lease.event.id) = true
    · exact .inl (if_pos good)
    · exact .inr ⟨invalidReceipt, if_neg good⟩

end Dispatch

/-- The outbox, the database clock and the dispatches by their tokens. The last
three fields record the claims that returned a row, the event ids of durable
receipts and the events enqueued. -/
structure OutboxState (Text Work : Type) where
  rows : OutboxRows Text
  now : Int
  dispatches : ID → Dispatch Work
  claims : List (Claim ID)
  receipts : List ID
  enqueued : List ID

inductive OutboxLabel (Work : Type) where
  | enqueue (event : Envelope Work)
  | claim (token : ID)
  | publish (token : ID) (receipt : Except Failure Receipt)
  | finish (token : ID) (draw : Draw)
  | crash (token : ID)
  | requeue (eventId : Option ID)
  | prune (retentionMs : Int) (limit : Nat) (scan : ID → Bool)
  | tick (elapsed : Nat)

namespace OutboxState

def initial (now : Int) : OutboxState Text Work :=
  ⟨Table.empty, now, fun _ => .ready, [], [], []⟩

def move (state : OutboxState Text Work) (token : ID) (dispatch : Dispatch Work) :
    OutboxState Text Work :=
  { state with dispatches := Function.update state.dispatches token dispatch }

def enqueue (codec : Codec Text Work) (state : OutboxState Text Work) (event : Envelope Work) :
    OutboxState Text Work :=
  match Events.enqueue codec state.rows event state.now with
  | .error _ => state
  | .ok rows => { state with rows := rows, enqueued := state.enqueued ++ [event.id] }

/-- A token is good for one claim: every dispatch draws its own. -/
def claim (policy : RetryPolicy) (codec : Codec Text Work) (state : OutboxState Text Work)
    (token : ID) : OutboxState Text Work :=
  match state.dispatches token with
  | .ready => match Store.claim policy codec state.rows token state.now with
    | .error error => state.move token (.returned (.error error))
    | .ok (claimed, rows) =>
      { state.move token (.claimed token claimed) with
        rows := rows
        claims := state.claims ++ claimed.entries token }
  | _ => state

/-- The publisher answers; a durable receipt is remembered. -/
def publish (state : OutboxState Text Work) (token : ID) (receipt : Except Failure Receipt) :
    OutboxState Text Work :=
  match state.dispatches token with
  | .publishing lease =>
    let durable := match receipt with
      | .ok receipt => if receipt.durable then [receipt.eventId] else []
      | .error _ => []
    { state.move token (.published lease receipt) with receipts := state.receipts ++ durable }
  | _ => state

def finish (policy : RetryPolicy) (state : OutboxState Text Work) (token : ID) (draw : Draw) :
    OutboxState Text Work :=
  match state.dispatches token with
  | .acking lease => match Store.ack policy state.rows lease draw state.now with
    | .error error => state.move token (.returned (.error error))
    | .ok rows => { state.move token (.returned (.ok true)) with rows := rows }
  | .releasing lease reason =>
    match Store.release policy state.rows lease (js reason.code) draw state.now with
    | .error error => state.move token (.returned (.error error))
    | .ok rows => { state.move token (.returned (.error reason)) with rows := rows }
  | _ => state

def requeue (state : OutboxState Text Work) (eventId : Option ID) : OutboxState Text Work :=
  match Store.requeue state.rows eventId state.now with
  | .error _ => state
  | .ok (rows, _) => { state with rows := rows }

def step (policy : RetryPolicy) (codec : Codec Text Work) (state : OutboxState Text Work) :
    OutboxLabel Work → OutboxState Text Work
  | .enqueue event => state.enqueue codec event
  | .claim token => state.claim policy codec token
  | .publish token receipt => state.publish token receipt
  | .finish token draw => state.finish policy token draw
  | .crash token => state.move token .crashed
  | .requeue eventId => state.requeue eventId
  | .prune retentionMs limit scan =>
    { state with rows := Store.prune state.rows retentionMs limit scan state.now }
  | .tick elapsed => { state with now := state.now + elapsed }

end OutboxState

theorem enqueue_inv {codec : Codec Text Work} {rows next : OutboxRows Text} {event : Envelope Work}
    {now : Int} (done : enqueue codec rows event now = .ok next) :
    (next = rows ∧ rows.get event.id ≠ none) ∨
      (rows.get event.id = none ∧ next = rows.set ⟨.fresh now, event.id, codec.bytes event⟩) := by
  simp only [enqueue] at done
  split at done
  · split at done
    · rename_i missing
      cases done
      exact .inr ⟨missing, rfl⟩
    · rename_i held found
      split at done
      · cases done
        exact .inl ⟨rfl, by simp [found]⟩
      · cases done
  · cases done

namespace Store

/-- Only old sent rows are deleted, and no other row changes. -/
theorem get_prune (rows : OutboxRows Text) (retentionMs : Int) (limit : Nat) (scan : ID → Bool)
    (now : Int) (key : ID) :
    (prune rows retentionMs limit scan now).get key = rows.get key ∨
      (prune rows retentionMs limit scan now).get key = none ∧
        ∃ row, rows.get key = some row ∧ row.state = .settled := by
  unfold prune
  dsimp only
  rw [Table.get_keep]
  cases found : rows.get key with
  | none => exact .inl rfl
  | some row =>
    have named : row.key = key := Table.key_of_get found
    rw [Option.filter_some]
    split
    · exact .inl rfl
    · rename_i deleted
      refine .inr ⟨rfl, row, rfl, ?_⟩
      have pruned : row.key ∈ ((rows.rows.filter fun row => prunable retentionMs now row.toDeliveryColumns &&
          scan row.key).take limit).map fun row => row.key := by
        simpa only [Bool.not_eq_true, decide_eq_false_iff_not, not_not] using deleted
      obtain ⟨other, taken, same⟩ := List.mem_map.mp pruned
      obtain ⟨member, chosen⟩ := List.mem_filter.mp (List.mem_of_mem_take taken)
      have identical : other = row := Table.eq_of_key member (Table.mem_of_get found) same
      subst identical
      have old := (Bool.and_eq_true_iff.mp chosen).1
      simpa using (Bool.and_eq_true_iff.mp old).1

theorem finish_settles {policy : RetryPolicy} {rows next : OutboxRows Text} {lease : Lease Work}
    {error : Option JsString} {draw : Draw} {now : Int}
    (done : finish policy rows lease error draw now = .ok next) (key : ID) :
    (next.get key = none ↔ rows.get key = none) ∧
      ∀ row, next.get key = some row → row.state = .settled →
        (∃ before, rows.get key = some before ∧ before.state = .settled) ∨
          key = lease.event.id ∧ error = none := by
  obtain ⟨holder, holds, rfl⟩ := finish_inv done
  rw [get_rewrite]
  refine ⟨Option.map_eq_none_iff, ?_⟩
  intro row found settled
  obtain ⟨before, held, same⟩ := Option.map_eq_some_iff.mp found
  have named : before.key = key := Table.key_of_get held
  subst same
  split at settled
  · rename_i selected
    refine .inr ⟨named.symm.trans (of_decide_eq_true selected), ?_⟩
    cases error with
    | none => rfl
    | some text =>
      simp only [DeliveryColumns.finish, outcome] at settled
      split at settled <;> cases settled
  · exact .inl ⟨before, held, settled⟩

end Store

namespace OutboxState

variable {policy : RetryPolicy} {codec : Codec Text Work} {state : OutboxState Text Work}

/-- Everything a step can do to the rows and to the log of claims. -/
inductive RowStep (policy : RetryPolicy) (codec : Codec Text Work) (state : OutboxState Text Work) :
    OutboxRows Text → List (Claim ID) → Prop where
  | same : RowStep policy codec state state.rows state.claims
  | insert (key : ID) (text : Text) (missing : state.rows.get key = none) :
      RowStep policy codec state (state.rows.set ⟨.fresh state.now, key, text⟩) state.claims
  | claim {token : ID} {claimed : Claimed ID (Envelope Work)} {next : OutboxRows Text}
      (ready : state.dispatches token = .ready)
      (claiming : Claims policy (Store.queue codec) state.rows token state.now claimed next) :
      RowStep policy codec state next (state.claims ++ claimed.entries token)
  | finish {token : ID} {lease : Lease Work} {error : Option JsString} {draw : Draw}
      {next : OutboxRows Text} (holds : (state.dispatches token).lease? = some lease)
      (acking : error = none → state.dispatches token = .acking lease)
      (done : Store.finish policy state.rows lease error draw state.now = .ok next) :
      RowStep policy codec state next state.claims
  | requeue {eventId : Option ID} {next : OutboxRows Text} {count : Nat}
      (done : Store.requeue state.rows eventId state.now = .ok (next, count)) :
      RowStep policy codec state next state.claims
  | prune (retentionMs : Int) (limit : Nat) (scan : ID → Bool) :
      RowStep policy codec state (Store.prune state.rows retentionMs limit scan state.now) state.claims

theorem step_rows (policy : RetryPolicy) (codec : Codec Text Work) (state : OutboxState Text Work)
    (label : OutboxLabel Work) :
    RowStep policy codec state (state.step policy codec label).rows
      (state.step policy codec label).claims := by
  cases label with
  | enqueue event =>
    simp only [step, OutboxState.enqueue]
    split
    · exact .same
    · rename_i rows done
      rcases enqueue_inv done with ⟨same, _⟩ | ⟨missing, same⟩
      · rw [same]
        exact .same
      · rw [same]
        exact .insert event.id _ missing
  | claim token =>
    simp only [step, OutboxState.claim]
    split
    · rename_i ready
      split
      · exact .same
      · rename_i done
        exact .claim ready (claim_inv done)
    · exact .same
  | publish token receipt =>
    simp only [step, OutboxState.publish]
    split <;> exact .same
  | finish token draw =>
    simp only [step, OutboxState.finish]
    split
    · rename_i lease acking
      split
      · exact .same
      · rename_i done
        exact .finish (by rw [acking]; rfl) (fun _ => acking) done
    · rename_i lease reason releasing
      split
      · exact .same
      · rename_i done
        have failed : some (js reason.code) = none → state.dispatches token = .acking lease := by simp
        exact .finish (by rw [releasing]; rfl) failed done
    · exact .same
  | crash token => exact .same
  | requeue eventId =>
    simp only [step, OutboxState.requeue]
    split
    · exact .same
    · rename_i done
      exact .requeue done
  | prune retentionMs limit scan => exact .prune retentionMs limit scan
  | tick elapsed => exact .same

/-- The token under which a step may lease a row. -/
def claimant (state : OutboxState Text Work) : OutboxLabel Work → Option ID
  | .claim token => match state.dispatches token with
    | .ready => some token
    | _ => none
  | _ => none

/-- No step but an enqueue brings a row or another body. -/
theorem step_descends (policy : RetryPolicy) (codec : Codec Text Work) (state : OutboxState Text Work)
    {label : OutboxLabel Work} (plain : ∀ event, label ≠ .enqueue event) :
    Descends (state.claimant label) state.rows (state.step policy codec label).rows := by
  cases label with
  | enqueue event => exact absurd rfl (plain event)
  | claim token =>
    simp only [step, OutboxState.claim, claimant]
    split
    · split
      · exact .refl _ _
      · rename_i done
        exact (claim_inv done).descends
    · exact .refl _ _
  | publish token receipt =>
    simp only [step, OutboxState.publish]
    split <;> exact .refl _ _
  | finish token draw =>
    simp only [step, OutboxState.finish]
    split
    · rename_i lease acking
      split
      · exact .refl _ _
      · rename_i rows done
        have finished : Store.finish policy state.rows lease none draw state.now = .ok rows := done
        exact finish_descends finished
    · rename_i lease reason releasing
      split
      · exact .refl _ _
      · rename_i rows done
        have finished : Store.finish policy state.rows lease (some (js reason.code)) draw state.now =
          .ok rows := done
        exact finish_descends finished
    · exact .refl _ _
  | crash token => exact .refl _ _
  | requeue eventId =>
    simp only [step, OutboxState.requeue]
    split
    · exact .refl _ _
    · rename_i done
      exact requeue_descends done
  | prune retentionMs limit scan =>
    intro key row found
    rcases Store.get_prune state.rows retentionMs limit scan state.now key with same | ⟨gone, _⟩
    · exact ⟨row, same.symm.trans found, rfl, .inr (.inl rfl)⟩
    · cases gone.symm.trans found
  | tick elapsed => exact .refl _ _

/-- Everything a step can do to the dispatch of a token. -/
inductive DispatchStep (policy : RetryPolicy) (codec : Codec Text Work) (state : OutboxState Text Work)
    (token : ID) : OutboxLabel Work → Dispatch Work → Prop where
  | same {label : OutboxLabel Work} : DispatchStep policy codec state token label (state.dispatches token)
  | returned {label : OutboxLabel Work} (result : Except Failure Bool) :
      DispatchStep policy codec state token label (.returned result)
  | crashed {label : OutboxLabel Work} : DispatchStep policy codec state token label .crashed
  | claimed {claimed : Claimed ID (Envelope Work)} {rows : OutboxRows Text}
      (ready : state.dispatches token = .ready)
      (claiming : Claims policy (Store.queue codec) state.rows token state.now claimed rows) :
      DispatchStep policy codec state token (.claim token) (.claimed token claimed)
  | published {lease : Lease Work} (receipt : Except Failure Receipt)
      (publishing : state.dispatches token = .publishing lease) :
      DispatchStep policy codec state token (.publish token receipt) (.published lease receipt)

/-- A step moves one dispatch at most. -/
private theorem move_step {label : OutboxLabel Work} {token : ID} {dispatch : Dispatch Work}
    (moved : DispatchStep policy codec state token label dispatch) (other : ID) :
    DispatchStep policy codec state other label ((state.move token dispatch).dispatches other) := by
  by_cases same : other = token
  · subst same
    simpa only [move, Function.update_self] using moved
  · simpa only [move, Function.update_of_ne same] using DispatchStep.same

theorem step_dispatch (policy : RetryPolicy) (codec : Codec Text Work) (state : OutboxState Text Work)
    (label : OutboxLabel Work) (token : ID) :
    DispatchStep policy codec state token label ((state.step policy codec label).dispatches token) := by
  cases label with
  | enqueue event =>
    simp only [step, OutboxState.enqueue]
    split <;> exact .same
  | claim other =>
    simp only [step, OutboxState.claim]
    split
    · rename_i ready
      split
      · exact move_step (.returned _) token
      · rename_i done
        exact move_step (.claimed ready (claim_inv done)) token
    · exact .same
  | publish other receipt =>
    simp only [step, OutboxState.publish]
    split
    · rename_i publishing
      exact move_step (.published receipt publishing) token
    · exact .same
  | finish other draw =>
    simp only [step, OutboxState.finish]
    split
    · split <;> exact move_step (.returned _) token
    · split <;> exact move_step (.returned _) token
    · exact .same
  | crash other => exact move_step .crashed token
  | requeue eventId =>
    simp only [step, OutboxState.requeue]
    split <;> exact .same
  | prune retentionMs limit scan => exact .same
  | tick elapsed => exact .same

/-- A dispatch has the lease it had, or the lease of its own claim. -/
theorem DispatchStep.lease {label : OutboxLabel Work} {token : ID} {dispatch : Dispatch Work}
    (moved : DispatchStep policy codec state token label dispatch) {lease : Lease Work}
    (holds : dispatch.lease? = some lease) :
    (state.dispatches token).lease? = some lease ∨ state.dispatches token = .ready ∧
      ∃ claimed rows, Claims policy (Store.queue codec) state.rows token state.now claimed rows ∧
        dispatch = .claimed token claimed := by
  cases moved with
  | same => exact .inl holds
  | returned => cases holds
  | crashed => cases holds
  | claimed ready claiming => exact .inr ⟨ready, _, _, claiming, rfl⟩
  | published receipt publishing =>
    left
    rw [publishing]
    rcases Dispatch.published_cases _ receipt with acking | ⟨reason, releasing⟩
    · rw [acking] at holds
      exact holds
    · rw [releasing] at holds
      exact holds

/-- No dispatch becomes ready again. -/
theorem DispatchStep.ready {label : OutboxLabel Work} {token : ID}
    (moved : DispatchStep policy codec state token label .ready) : state.dispatches token = .ready := by
  generalize same : (Dispatch.ready : Dispatch Work) = dispatch at moved
  cases moved with
  | same => rfl
  | returned => cases same
  | crashed => cases same
  | claimed ready => exact same ▸ ready
  | published receipt publishing =>
    rcases Dispatch.published_cases _ receipt with acking | ⟨reason, releasing⟩
    · cases same.trans acking
    · cases same.trans releasing

/-- A dispatch publishes from its claim on. -/
theorem DispatchStep.publishing {label : OutboxLabel Work} {token : ID} {lease : Lease Work}
    (moved : DispatchStep policy codec state token label (.publishing lease)) :
    state.dispatches token = .publishing lease ∨ state.dispatches token = .ready := by
  generalize same : Dispatch.publishing lease = dispatch at moved
  cases moved with
  | same => exact .inl rfl
  | returned => cases same
  | crashed => cases same
  | claimed ready => exact .inr ready
  | published receipt publishing =>
    rcases Dispatch.published_cases _ receipt with acking | ⟨reason, releasing⟩
    · cases same.trans acking
    · cases same.trans releasing

/-- A dispatch comes to acknowledge only by the receipt of its publication. -/
theorem DispatchStep.acking {label : OutboxLabel Work} {token : ID} {lease : Lease Work}
    (moved : DispatchStep policy codec state token label (.acking lease)) :
    state.dispatches token = .acking lease ∨ ∃ receipt, label = .publish token receipt ∧
      state.dispatches token = .publishing lease ∧ Dispatch.published lease receipt = .acking lease := by
  generalize same : Dispatch.acking lease = dispatch at moved
  cases moved with
  | same => exact .inl rfl
  | returned => cases same
  | crashed => cases same
  | claimed ready claiming => cases claiming <;> cases same
  | published receipt publishing =>
    rcases Dispatch.published_cases _ receipt with acking | ⟨reason, releasing⟩
    · cases same.trans acking
      exact .inr ⟨receipt, rfl, publishing, rfl⟩
    · cases same.trans releasing

variable {next : OutboxRows Text} {claims : List (Claim ID)}

/-- A row is settled only by the acknowledgement of a dispatch that holds a lease
for its event. -/
theorem RowStep.settled (changed : RowStep policy codec state next claims) {key : ID}
    {row : DeliveryRow ID Text} (found : next.get key = some row) (settled : row.state = .settled) :
    (∃ before, state.rows.get key = some before ∧ before.state = .settled) ∨
      ∃ token lease draw, state.dispatches token = .acking lease ∧ lease.event.id = key ∧
        Store.ack policy state.rows lease draw state.now = .ok next := by
  cases changed with
  | same => exact .inl ⟨row, found, settled⟩
  | insert =>
    rcases Table.get_set_cases found with fresh | held
    · rw [fresh] at settled
      cases settled
    · exact .inl ⟨row, held, settled⟩
  | claim _ claiming => exact .inl (claiming.retained.settled key row found settled)
  | finish _ acking done =>
    rcases (Store.finish_settles done key).2 row found settled with before | ⟨same, none⟩
    · exact .inl before
    · subst none
      exact .inr ⟨_, _, _, acking rfl, same.symm, done⟩
  | requeue done => exact .inl ((requeue_retained done).settled key row found settled)
  | prune retentionMs limit scan =>
    rcases Store.get_prune state.rows retentionMs limit scan state.now key with same | ⟨gone, _⟩
    · exact .inl ⟨row, same.symm.trans found, settled⟩
    · rw [gone] at found
      cases found

/-- A row is deleted only once it is settled. -/
theorem RowStep.deleted (changed : RowStep policy codec state next claims) {key : ID}
    {row : DeliveryRow ID Text} (found : state.rows.get key = some row)
    (gone : next.get key = none) : row.state = .settled := by
  have present : state.rows.get key ≠ none := by simp [found]
  cases changed with
  | same => exact absurd gone present
  | insert =>
    rw [Table.get_set] at gone
    split at gone
    · cases gone
    · exact absurd gone present
  | claim _ claiming => exact absurd ((claiming.retained.present key).mp gone) present
  | finish _ _ done => exact absurd ((Store.finish_settles done key).1.mp gone) present
  | requeue done => exact absurd (((requeue_retained done).present key).mp gone) present
  | prune retentionMs limit scan =>
    rcases Store.get_prune state.rows retentionMs limit scan state.now key with
      same | ⟨_, other, held, settled⟩
    · exact absurd (same.symm.trans gone) present
    · cases Option.some.inj (found.symm.trans held)
      exact settled

/-- Every step keeps leases and claims together. -/
theorem RowStep.ledger (changed : RowStep policy codec state next claims)
    (ledger : Ledger state.rows state.claims) : Ledger next claims := by
  cases changed with
  | same => exact ledger
  | insert key text => exact ledger.insert state.now key text
  | claim _ claiming => exact ledger.claim claiming
  | finish _ _ done => exact Ledger.finish ledger done
  | requeue done => exact ledger.requeue done
  | prune => exact ledger.keep _

/-- What every reachable state knows of receipts. -/
structure Safe (state : OutboxState Text Work) : Prop where
  ledger : Ledger state.rows state.claims
  settled : ∀ key row, state.rows.get key = some row → row.state = .settled → key ∈ state.receipts
  acking : ∀ token lease, state.dispatches token = .acking lease → lease.event.id ∈ state.receipts
  kept : ∀ id ∈ state.enqueued, state.rows.get id = none → id ∈ state.receipts

/-- What a step does besides: it only adds receipts, a dispatch that comes to
acknowledge has just seen a durable receipt for its event, and what is enqueued
has a row. -/
structure Frame (state next : OutboxState Text Work) : Prop where
  receipts : ∀ id ∈ state.receipts, id ∈ next.receipts
  acking : ∀ token lease, next.dispatches token = .acking lease →
    state.dispatches token = .acking lease ∨ lease.event.id ∈ next.receipts
  enqueued : ∀ id ∈ next.enqueued, id ∈ state.enqueued ∨ next.rows.get id ≠ none

private theorem Frame.same {next : OutboxState Text Work} (receipts : next.receipts = state.receipts)
    (dispatches : next.dispatches = state.dispatches) (enqueued : next.enqueued = state.enqueued) :
    Frame state next where
  receipts := by rw [receipts]; exact fun _ received => received
  acking := by rw [dispatches]; exact fun _ _ acking => .inl acking
  enqueued := by rw [enqueued]; exact fun _ queued => .inl queued

private theorem Frame.move {next : OutboxState Text Work} {token : ID} {dispatch : Dispatch Work}
    (receipts : next.receipts = state.receipts)
    (dispatches : next.dispatches = Function.update state.dispatches token dispatch)
    (enqueued : next.enqueued = state.enqueued) (never : ∀ lease, dispatch ≠ .acking lease) :
    Frame state next where
  receipts := by rw [receipts]; exact fun _ received => received
  acking := by
    intro other lease acking
    rw [dispatches] at acking
    by_cases same : other = token
    · subst same
      rw [Function.update_self] at acking
      exact absurd acking (never lease)
    · rw [Function.update_of_ne same] at acking
      exact .inl acking
  enqueued := by rw [enqueued]; exact fun _ queued => .inl queued

private theorem publish_frame (state : OutboxState Text Work) (token : ID)
    (receipt : Except Failure Receipt) : Frame state (state.publish token receipt) := by
  unfold OutboxState.publish
  split
  · rename_i lease publishing
    refine ⟨fun _ received => List.mem_append_left _ received, ?_, fun _ queued => .inl queued⟩
    intro other held acking
    by_cases same : other = token
    · subst same
      simp only [OutboxState.move, Function.update_self] at acking
      cases receipt with
      | error error => cases acking
      | ok receipt =>
        simp only [Dispatch.published] at acking
        split at acking
        · rename_i good
          cases acking
          simp only [Bool.and_eq_true, decide_eq_true_eq] at good
          refine .inr (List.mem_append_right _ ?_)
          simp [good.1, good.2]
        · cases acking
    · simp only [OutboxState.move, Function.update_of_ne same] at acking
      exact .inl acking
  · exact .same rfl rfl rfl

theorem step_frame (policy : RetryPolicy) (codec : Codec Text Work) (state : OutboxState Text Work)
    (label : OutboxLabel Work) : Frame state (state.step policy codec label) := by
  cases label with
  | enqueue event =>
    simp only [step, OutboxState.enqueue]
    split
    · exact .same rfl rfl rfl
    · rename_i rows done
      refine ⟨fun _ received => received, fun _ _ acking => .inl acking, ?_⟩
      intro id queued
      rcases List.mem_append.mp queued with before | same
      · exact .inl before
      · rw [List.mem_singleton.mp same]
        rcases enqueue_inv done with ⟨rfl, present⟩ | ⟨_, rfl⟩
        · exact .inr present
        · exact .inr (by simp)
  | claim token =>
    simp only [step, OutboxState.claim]
    split
    · split
      · exact .move rfl rfl rfl (by simp)
      · rename_i claimed rows done
        refine .move rfl rfl rfl fun lease => ?_
        cases claimed <;> simp [Dispatch.claimed]
    · exact .same rfl rfl rfl
  | publish token receipt => exact publish_frame state token receipt
  | finish token draw =>
    simp only [step, OutboxState.finish]
    split
    · split <;> exact .move rfl rfl rfl (by simp)
    · split <;> exact .move rfl rfl rfl (by simp)
    · exact .same rfl rfl rfl
  | crash token => exact .move rfl rfl rfl (by simp)
  | requeue eventId =>
    simp only [step, OutboxState.requeue]
    split <;> exact .same rfl rfl rfl
  | prune retentionMs limit scan => exact .same rfl rfl rfl
  | tick elapsed => exact .same rfl rfl rfl

theorem Safe.step (safe : state.Safe) (label : OutboxLabel Work) :
    (state.step policy codec label).Safe := by
  have changed := step_rows policy codec state label
  have frame := step_frame policy codec state label
  refine ⟨changed.ledger safe.ledger, ?_, ?_, ?_⟩
  · intro key row found settled
    apply frame.receipts
    rcases changed.settled found settled with ⟨before, held, already⟩ | ⟨token, lease, _, acking, same, _⟩
    · exact safe.settled key before held already
    · rw [← same]
      exact safe.acking token lease acking
  · intro token lease acking
    rcases frame.acking token lease acking with before | received
    · exact frame.receipts _ (safe.acking token lease before)
    · exact received
  · intro id queued gone
    rcases frame.enqueued id queued with before | present
    · apply frame.receipts
      cases found : state.rows.get id with
      | none => exact safe.kept id before found
      | some row => exact safe.settled id row found (changed.deleted found gone)
    · exact absurd gone present

theorem safe (policy : RetryPolicy) (codec : Codec Text Work) (now : Int)
    (labels : List (OutboxLabel Work)) :
    (run (OutboxState.step policy codec) (initial now) labels).Safe := by
  refine run_invariant (fun state => Safe state) (fun state label holds => holds.step label) ?_
    labels
  refine ⟨⟨?_, ?_⟩, ?_, ?_, ?_⟩
  · intro row member
    cases member
  · intro row member
    cases member
  · intro key row found
    cases found
  · intro token lease acking
    cases acking
  · intro id queued
    cases queued

end OutboxState

/-- The lease is the row's most recent claim and has not run out. -/
structure Owns (state : OutboxState Text Work) (lease : Lease Work) (row : DeliveryRow ID Text) :
    Prop where
  found : state.rows.get lease.event.id = some row
  recent : (latest state.claims lease.event.id).map Claim.token = some lease.token
  live : ∃ expiry, row.leaseUntil = some expiry ∧ state.now < expiry

/-- Lease safety of a state and of every step from it. -/
structure OutboxSafety (policy : RetryPolicy) (codec : Codec Text Work)
    (state : OutboxState Text Work) : Prop where
  /-- The one lease a row can carry is that of its most recent claim. -/
  leased : ∀ key row token, state.rows.get key = some row → row.lease = some token →
    (latest state.claims key).map Claim.token = some token
  /-- A claim returns no row with an unexpired lease. -/
  exclusive : ∀ token key event attempt rows,
    Store.claim policy codec state.rows token state.now = .ok (.leased key event attempt, rows) →
    ∃ row, state.rows.get key = some row ∧
      ∀ expiry, row.leaseUntil = some expiry → expiry ≤ state.now
  /-- An ack (no error) or a release succeeds only for the owner of the lease. -/
  finishes : ∀ lease error draw rows,
    Store.finish policy state.rows lease error draw state.now = .ok rows → ∃ row, Owns state lease row
  /-- Any other one reports the lease lost, as long as its delay can be sent. -/
  lost : ∀ lease error draw, (∀ row, ¬ Owns state lease row) → error = none ∨ policy.Sendable →
    Store.finish policy state.rows lease error draw state.now = .error (conflict "lease_lost")
  /-- A dispatch that finishes without owning its lease changes no row. -/
  unchanged : ∀ token draw,
    (∀ lease row, (state.dispatches token).lease? = some lease → ¬ Owns state lease row) →
    (state.step policy codec (.finish token draw)).rows = state.rows
  /-- A row enters `sent` only by a successful ack, after a durable receipt for it. -/
  sent : ∀ label key row, (state.step policy codec label).rows.get key = some row →
    row.state = .settled →
    (∃ before, state.rows.get key = some before ∧ before.state = .settled) ∨
      ∃ token lease draw, state.dispatches token = .acking lease ∧ lease.event.id = key ∧
        key ∈ state.receipts ∧ Store.ack policy state.rows lease draw state.now =
          .ok (state.step policy codec label).rows
  /-- A row is deleted only in state `sent`. -/
  deleted : ∀ label key row, state.rows.get key = some row →
    (state.step policy codec label).rows.get key = none → row.state = .settled
  /-- No enqueued event is gone without a durable receipt for it. -/
  kept : ∀ id ∈ state.enqueued, (∃ row, state.rows.get id = some row) ∨ id ∈ state.receipts

namespace OutboxState

variable {policy : RetryPolicy} {codec : Codec Text Work} {state : OutboxState Text Work}

private theorem Safe.owns (safe : state.Safe) {lease : Lease Work} {row : DeliveryRow ID Text}
    (holder : Holder state.rows lease.event.id lease.token (Store.live state.now) row) :
    Owns state lease row := by
  have named : row.key = lease.event.id := Table.key_of_get holder.found
  have recent := safe.ledger.held row (Table.mem_of_get holder.found) lease.token holder.lease
  refine ⟨holder.found, ?_, ?_⟩
  · rw [← named, recent]
    rfl
  · have live := holder.live
    unfold Store.live at live
    cases held : row.leaseUntil with
    | none => simp [held] at live
    | some expiry => exact ⟨expiry, rfl, by simpa [held] using live⟩

private theorem Safe.lost (safe : state.Safe) {lease : Lease Work} {error : Option JsString}
    {draw : Draw} (stranger : ∀ row, ¬ Owns state lease row)
    (sendable : error = none ∨ policy.Sendable) :
    Store.finish policy state.rows lease error draw state.now = .error (conflict "lease_lost") := by
  rw [Store.finish, finish_lost fun row holder => stranger row (safe.owns holder),
    delayMs_fits sendable]
  rfl

private theorem Safe.unchanged (safe : state.Safe) {token : ID} (draw : Draw)
    (stranger : ∀ lease row, (state.dispatches token).lease? = some lease → ¬ Owns state lease row) :
    (state.step policy codec (.finish token draw)).rows = state.rows := by
  have refused : ∀ lease error rows, (state.dispatches token).lease? = some lease →
      Store.finish policy state.rows lease error draw state.now ≠ .ok rows := by
    intro lease error rows holds done
    obtain ⟨row, holder, _⟩ := finish_inv done
    exact stranger lease row holds (safe.owns holder)
  simp only [OutboxState.step, OutboxState.finish]
  split
  · rename_i lease acking
    split
    · rfl
    · rename_i done
      exact absurd done (refused lease none _ (by rw [acking]; rfl))
  · rename_i lease reason releasing
    split
    · rfl
    · rename_i done
      exact absurd done (refused lease (some (js reason.code)) _ (by rw [releasing]; rfl))
  · rfl

theorem Safe.safety (safe : state.Safe) (policy : RetryPolicy) (codec : Codec Text Work) :
    OutboxSafety policy codec state where
  leased := by
    intro key row token found leased
    have named : row.key = key := Table.key_of_get found
    rw [← named, safe.ledger.held row (Table.mem_of_get found) token leased]
    rfl
  exclusive := by
    intro token key event attempt rows done
    cases claim_inv done with
    | leased row _ present _ _ due =>
      refine ⟨row, Table.get_of_mem present, ?_⟩
      intro expiry held
      have unleased := (claimable_pending due).2.2
      simpa [DeliveryColumns.unleased, held] using unleased
  finishes := by
    intro lease error draw rows done
    obtain ⟨row, holder, _⟩ := finish_inv done
    exact ⟨row, safe.owns holder⟩
  lost := fun lease error draw stranger sendable => safe.lost stranger sendable
  unchanged := fun token draw stranger => safe.unchanged draw stranger
  sent := by
    intro label key row found settled
    rcases (step_rows policy codec state label).settled found settled with
      before | ⟨token, lease, draw, acking, same, done⟩
    · exact .inl before
    · exact .inr ⟨token, lease, draw, acking, same, same ▸ safe.acking token lease acking, done⟩
  deleted := fun label key row found gone => (step_rows policy codec state label).deleted found gone
  kept := by
    intro id queued
    cases found : state.rows.get id with
    | none => exact .inr (safe.kept id queued found)
    | some row => exact .inl ⟨row, rfl⟩

end OutboxState

/-- Outbox lease safety, in every state that any interleaving of enqueues, claims,
publications, finishes, crashes, requeues, prunes and clock advances reaches. -/
theorem outbox_lease_safety (policy : RetryPolicy) (codec : Codec Text Work) (now : Int)
    (labels : List (OutboxLabel Work)) :
    OutboxSafety policy codec (run (OutboxState.step policy codec) (.initial now) labels) :=
  (OutboxState.safe policy codec now labels).safety policy codec

/-- What a dispatch does with its token. -/
def Dispatch.use : Dispatch Work → TokenUse
  | .ready => .unused
  | .publishing lease => .holding lease.attempt
  | .acking lease => .holding lease.attempt
  | .releasing lease _ => .holding lease.attempt
  | _ => .spent

namespace OutboxState

variable {policy : RetryPolicy} {codec : Codec Text Work} {state : OutboxState Text Work}

/-- The attempts of the rows and of the dispatches at work on them. -/
structure Budget (policy : RetryPolicy) (state : OutboxState Text Work) : Prop where
  within : WithinBudget policy.maxAttempts state.rows
  tokens : Tokens state.claims (Dispatch.use ∘ state.dispatches)
  named : ∀ token lease, (state.dispatches token).lease? = some lease → lease.token = token

private theorem use_of_lease {dispatch : Dispatch Work} {lease : Lease Work}
    (holds : dispatch.lease? = some lease) : dispatch.use = .holding lease.attempt := by
  cases dispatch <;> cases holds <;> rfl

private theorem Budget.mine (budget : state.Budget policy) {token : ID} {lease : Lease Work}
    (holds : (state.dispatches token).lease? = some lease) :
    ∀ claim ∈ state.claims, claim.token = lease.token → claim.attempt = lease.attempt := by
  rw [budget.named token lease holds]
  exact budget.tokens.holding token lease.attempt (use_of_lease holds)

theorem RowStep.within {next : OutboxRows Text} {claims : List (Claim ID)}
    (changed : RowStep policy codec state next claims) (some : 1 ≤ policy.maxAttempts)
    (ledger : Ledger state.rows state.claims) (budget : state.Budget policy) :
    WithinBudget policy.maxAttempts next := by
  cases changed with
  | same => exact budget.within
  | insert key text => exact budget.within.insert some state.now key text
  | claim _ claiming => exact budget.within.claim claiming
  | finish holds _ done => exact WithinBudget.finish budget.within ledger (budget.mine holds) done
  | requeue done => exact budget.within.requeue some done
  | prune => exact budget.within.keep _

/-- A dispatch moves on with its lease, or without one. -/
private theorem move_tokens (budget : state.Budget policy) (token : ID) {dispatch : Dispatch Work}
    (goes : dispatch.use = .spent ∧ dispatch.lease? = none ∨
      dispatch.use = (state.dispatches token).use ∧
        dispatch.lease? = (state.dispatches token).lease?) :
    Tokens state.claims (Dispatch.use ∘ (state.move token dispatch).dispatches) ∧
      ∀ other lease, ((state.move token dispatch).dispatches other).lease? = some lease →
        lease.token = other := by
  constructor
  · simp only [move, Function.comp_update]
    apply budget.tokens.move
    rcases goes with ⟨spent, _⟩ | ⟨same, _⟩
    · exact .inr spent
    · exact .inl same
  · intro other lease holds
    simp only [move] at holds
    by_cases same : other = token
    · subst same
      rw [Function.update_self] at holds
      rcases goes with ⟨_, none⟩ | ⟨_, kept⟩
      · rw [none] at holds
        cases holds
      · exact budget.named other lease (kept.symm.trans holds)
    · rw [Function.update_of_ne same] at holds
      exact budget.named other lease holds

private theorem claim_tokens (budget : state.Budget policy) (token : ID) :
    Tokens (state.claim policy codec token).claims
        (Dispatch.use ∘ (state.claim policy codec token).dispatches) ∧
      ∀ other lease, ((state.claim policy codec token).dispatches other).lease? = some lease →
        lease.token = other := by
  unfold OutboxState.claim
  split
  · rename_i ready
    split
    · exact move_tokens budget token (.inl ⟨rfl, rfl⟩)
    · rename_i claimed rows done
      have use : (Dispatch.claimed token claimed : Dispatch Work).use = claimed.use := by
        cases claimed <;> rfl
      constructor
      · simp only [move, Function.comp_update, use]
        exact budget.tokens.claimed (by simp [ready, Dispatch.use]) claimed
      · intro other lease holds
        simp only [move] at holds
        by_cases same : other = token
        · subst same
          rw [Function.update_self] at holds
          cases claimed <;> cases holds
          rfl
        · rw [Function.update_of_ne same] at holds
          exact budget.named other lease holds
  · exact ⟨budget.tokens, budget.named⟩

private theorem step_tokens (budget : state.Budget policy) (label : OutboxLabel Work) :
    Tokens (state.step policy codec label).claims
        (Dispatch.use ∘ (state.step policy codec label).dispatches) ∧
      ∀ token lease, ((state.step policy codec label).dispatches token).lease? = some lease →
        lease.token = token := by
  cases label with
  | enqueue event =>
    simp only [step, OutboxState.enqueue]
    split <;> exact ⟨budget.tokens, budget.named⟩
  | claim token => exact claim_tokens budget token
  | publish token receipt =>
    simp only [step, OutboxState.publish]
    split
    · rename_i lease publishing
      apply move_tokens budget token
      refine .inr ?_
      rw [publishing]
      rcases Dispatch.published_cases lease receipt with acking | ⟨reason, releasing⟩
      · rw [acking]
        exact ⟨rfl, rfl⟩
      · rw [releasing]
        exact ⟨rfl, rfl⟩
    · exact ⟨budget.tokens, budget.named⟩
  | finish token draw =>
    simp only [step, OutboxState.finish]
    split
    · split <;> exact move_tokens budget token (.inl ⟨rfl, rfl⟩)
    · split <;> exact move_tokens budget token (.inl ⟨rfl, rfl⟩)
    · exact ⟨budget.tokens, budget.named⟩
  | crash token => exact move_tokens budget token (.inl ⟨rfl, rfl⟩)
  | requeue eventId =>
    simp only [step, OutboxState.requeue]
    split <;> exact ⟨budget.tokens, budget.named⟩
  | prune retentionMs limit scan => exact ⟨budget.tokens, budget.named⟩
  | tick elapsed => exact ⟨budget.tokens, budget.named⟩

theorem Budget.step (budget : state.Budget policy) (some : 1 ≤ policy.maxAttempts) (safe : state.Safe)
    (label : OutboxLabel Work) : (state.step policy codec label).Budget policy := by
  obtain ⟨tokens, named⟩ := step_tokens budget label
  exact ⟨(step_rows policy codec state label).within some safe.ledger budget, tokens, named⟩

theorem budget (policy : RetryPolicy) (codec : Codec Text Work) (some : 1 ≤ policy.maxAttempts)
    (now : Int) (labels : List (OutboxLabel Work)) :
    (run (OutboxState.step policy codec) (initial now) labels).Budget policy := by
  have both : ∀ state : OutboxState Text Work, ∀ label, state.Safe ∧ state.Budget policy →
      (state.step policy codec label).Safe ∧ (state.step policy codec label).Budget policy :=
    fun state label holds => ⟨holds.1.step label, holds.2.step some holds.1 label⟩
  refine (run_invariant (fun state => Safe state ∧ Budget policy state) both ?_ labels).2
  refine ⟨safe policy codec now [], ?_, ⟨?_, ?_⟩, ?_⟩
  · intro row member
    cases member
  · intro token _ claim member
    cases member
  · intro token attempt _ claim member
    cases member
  · intro token lease holds
    cases holds

end OutboxState

end N2FNest.Events
