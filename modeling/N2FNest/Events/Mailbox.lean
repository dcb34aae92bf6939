import N2FNest.Events.Outbox

/-! The PostgreSQL inbox: one envelope per event and one delivery receipt per
consumer. A worker leases a consumer's next receipt, runs the handler outside any
transaction and records the outcome under the same lease. Unlike the outbox, the
inbox lets a worker finish after its lease ran out, as long as no one else took
the row. -/

namespace N2FNest.Events

open Lib Shared

variable {Text Work : Type}

structure MailboxRow (Text : Type) where
  eventId : ID
  envelope : Text

abbrev MailboxRows (Text : Type) := Table (fun row : MailboxRow Text => row.eventId)

/-- Receipts by event and consumer. -/
abbrev MailboxReceipts := Deliveries (ID × JsString) Unit

def invalidConsumer : Failure :=
  failure .invalid "invalid event consumer" "events.invalid_consumer"

/-- `CONSUMER_NAME`. -/
def isConsumer (consumer : JsString) : Bool := consumer.isName 64

inductive DeliveryOutcome where
  | processed | retrying | dead
  deriving DecidableEq, Repr

/-- The outcome of one delivery attempt. -/
structure Delivery where
  eventId : ID
  eventType : Option JsString
  attempt : Nat
  outcome : DeliveryOutcome
  error : Option JsString

namespace Mailbox

/-- Store an envelope once; the id may come again only with the same event. -/
def insert (codec : Codec Text Work) (mailbox : MailboxRows Text) (event : Envelope Work) :
    Except Failure (MailboxRows Text) :=
  let text := codec.bytes event
  if codec.admitted text then
    match mailbox.get event.id with
    | none => .ok (mailbox.set ⟨event.id, text⟩)
    | some held =>
      if codec.sameJsonb held.envelope text then .ok mailbox else .error (conflict "id_reused")
  else .error databaseFailed

/-- `INSERT … ON CONFLICT(event_id,consumer) DO NOTHING`. -/
def openReceipt (eventId : ID) (now : Int) (receipts : MailboxReceipts) (consumer : JsString) :
    MailboxReceipts :=
  match receipts.get (eventId, consumer) with
  | some _ => receipts
  | none => receipts.set ⟨.fresh now, (eventId, consumer), ()⟩

def accept (codec : Codec Text Work) (mailbox : MailboxRows Text) (receipts : MailboxReceipts)
    (event : Envelope Work) (consumers : List JsString) (now : Int) :
    Except Failure (MailboxRows Text × MailboxReceipts) := do
  if consumers.all isConsumer then
    let stored ← insert codec mailbox event
    return (stored, consumers.foldl (openReceipt event.id now) receipts)
  else throw invalidConsumer

/-- A consumer's receipts, each joined to its event's envelope. -/
def queue (codec : Codec Text Work) (mailbox : MailboxRows Text) (consumer : JsString) :
    Queue (ID × JsString) Unit (Envelope Work) where
  selects := fun key => key.2 = consumer
  eventId := Prod.fst
  envelope := fun row => (mailbox.get row.key.1).map fun stored => codec.decode stored.envelope

def claim (policy : RetryPolicy) (codec : Codec Text Work) (mailbox : MailboxRows Text)
    (receipts : MailboxReceipts) (consumer : JsString) (token : ID) (now : Int) :
    Except Failure (Claimed (ID × JsString) (Envelope Work) × MailboxReceipts) :=
  Events.claim policy (queue codec mailbox consumer) receipts token now

def finish (policy : RetryPolicy) (receipts : MailboxReceipts) (consumer : JsString) (eventId token : ID)
    (attempt : Nat) (error : Option JsString) (draw : Draw) (now : Int) :
    Except Failure MailboxReceipts :=
  Events.finish policy receipts (eventId, consumer) token attempt error draw now fun _ => true

def requeue (receipts : MailboxReceipts) (consumer : JsString) (eventId : Option ID) (now : Int) :
    Except Failure (MailboxReceipts × Nat) :=
  if isConsumer consumer then
    Events.requeue receipts (fun key => key.2 = consumer && eventId.all (key.1 = ·)) now
  else .error invalidConsumer

/-- A receipt that keeps its event: not processed, or processed too recently. -/
def retains (retentionMs : Int) (now : Int) (row : DeliveryColumns) : Bool :=
  row.state ≠ .settled || row.finishedAt.any (now - retentionMs * 1000 ≤ ·)

/-- The events a prune deletes; which of the eligible ones is up to the scan. -/
def prunable (mailbox : MailboxRows Text) (receipts : MailboxReceipts) (retentionMs : Int) (limit : Nat)
    (scan : ID → Bool) (now : Int) : List ID :=
  let eligible := mailbox.rows.filter fun stored => scan stored.eventId && !receipts.rows.any fun row =>
    row.key.1 = stored.eventId && retains retentionMs now row.toDeliveryColumns
  (eligible.take limit).map fun stored => stored.eventId

end Mailbox

/-- Where a worker stands in `deliver`. -/
inductive Worker (Work : Type) where
  | ready
  | handling (consumer : JsString) (event : Envelope Work) (attempt : Nat)
  | finishing (consumer : JsString) (event : Envelope Work) (attempt : Nat) (error : Option JsString)
  | returned (result : Except Failure (Option Delivery))
  | crashed

namespace Worker

def claimed (consumer : JsString) : Claimed (ID × JsString) (Envelope Work) → Worker Work
  | .nothing => .returned (.ok none)
  | .quarantined key attempt => .returned (.ok (some ⟨key.1, none, attempt, .dead, some UNDECODABLE⟩))
  | .leased _ event attempt => .handling consumer event attempt

/-- What `deliver` reports of a recorded attempt. -/
def delivery (policy : RetryPolicy) (event : Envelope Work) (attempt : Nat)
    (error : Option JsString) : Delivery where
  eventId := event.id
  eventType := some event.type
  attempt := attempt
  outcome := match outcome policy attempt error with
    | .settled => .processed
    | .dead => .dead
    | .pending => .retrying
  error := error

def use : Worker Work → TokenUse
  | .ready => .unused
  | .handling _ _ attempt => .holding attempt
  | .finishing _ _ attempt _ => .holding attempt
  | _ => .spent

end Worker

structure MailboxState (Text Work : Type) where
  mailbox : MailboxRows Text
  receipts : MailboxReceipts
  now : Int
  workers : ID → Worker Work
  claims : List (Claim (ID × JsString))

inductive MailboxLabel (Work : Type) where
  | accept (event : Envelope Work) (consumers : List JsString)
  | claim (token : ID) (consumer : JsString)
  | handle (token : ID) (result : Except Failure Unit)
  | finish (token : ID) (draw : Draw)
  | crash (token : ID)
  | requeue (consumer : JsString) (eventId : Option ID)
  | prune (retentionMs : Int) (limit : Nat) (scan : ID → Bool)
  | tick (elapsed : Nat)

namespace MailboxState

def initial (now : Int) : MailboxState Text Work :=
  ⟨Table.empty, Table.empty, now, fun _ => .ready, []⟩

def move (state : MailboxState Text Work) (token : ID) (worker : Worker Work) :
    MailboxState Text Work :=
  { state with workers := Function.update state.workers token worker }

def accept (codec : Codec Text Work) (state : MailboxState Text Work) (event : Envelope Work)
    (consumers : List JsString) : MailboxState Text Work :=
  match Mailbox.accept codec state.mailbox state.receipts event consumers state.now with
  | .error _ => state
  | .ok (mailbox, receipts) => { state with mailbox := mailbox, receipts := receipts }

/-- The first half of `deliver`, under a token drawn for it. -/
def claim (policy : RetryPolicy) (codec : Codec Text Work) (state : MailboxState Text Work)
    (token : ID) (consumer : JsString) : MailboxState Text Work :=
  match state.workers token with
  | .ready =>
    if isConsumer consumer then
      match Mailbox.claim policy codec state.mailbox state.receipts consumer token state.now with
      | .error error => state.move token (.returned (.error error))
      | .ok (claimed, receipts) =>
        { state.move token (.claimed consumer claimed) with
          receipts := receipts
          claims := state.claims ++ claimed.entries token }
    else state.move token (.returned (.error invalidConsumer))
  | _ => state

/-- The handler answers. -/
def handle (state : MailboxState Text Work) (token : ID) (result : Except Failure Unit) :
    MailboxState Text Work :=
  match state.workers token with
  | .handling consumer event attempt =>
    let error := match result with
      | .ok _ => none
      | .error error => some (js error.code)
    state.move token (.finishing consumer event attempt error)
  | _ => state

/-- The second half of `deliver`. -/
def finish (policy : RetryPolicy) (state : MailboxState Text Work) (token : ID) (draw : Draw) :
    MailboxState Text Work :=
  match state.workers token with
  | .finishing consumer event attempt error =>
    match Mailbox.finish policy state.receipts consumer event.id token attempt error draw state.now with
    | .error failed => state.move token (.returned (.error failed))
    | .ok receipts =>
      { state.move token (.returned (.ok (some (Worker.delivery policy event attempt error)))) with
        receipts := receipts }
  | _ => state

def requeue (state : MailboxState Text Work) (consumer : JsString) (eventId : Option ID) :
    MailboxState Text Work :=
  match Mailbox.requeue state.receipts consumer eventId state.now with
  | .error _ => state
  | .ok (receipts, _) => { state with receipts := receipts }

/-- Deleting an event deletes its receipts with it. -/
def prune (state : MailboxState Text Work) (retentionMs : Int) (limit : Nat) (scan : ID → Bool) :
    MailboxState Text Work :=
  let gone := Mailbox.prunable state.mailbox state.receipts retentionMs limit scan state.now
  { state with
    mailbox := state.mailbox.keep fun stored => stored.eventId ∉ gone
    receipts := state.receipts.keep fun row => row.key.1 ∉ gone }

def step (policy : RetryPolicy) (codec : Codec Text Work) (state : MailboxState Text Work) :
    MailboxLabel Work → MailboxState Text Work
  | .accept event consumers => state.accept codec event consumers
  | .claim token consumer => state.claim policy codec token consumer
  | .handle token result => state.handle token result
  | .finish token draw => state.finish policy token draw
  | .crash token => state.move token .crashed
  | .requeue consumer eventId => state.requeue consumer eventId
  | .prune retentionMs limit scan => state.prune retentionMs limit scan
  | .tick elapsed => { state with now := state.now + elapsed }

variable {policy : RetryPolicy} {codec : Codec Text Work} {state : MailboxState Text Work}

/-- Everything a step can do to the receipts and to the log of claims. -/
inductive ReceiptStep (policy : RetryPolicy) (codec : Codec Text Work)
    (state : MailboxState Text Work) : MailboxReceipts → List (Claim (ID × JsString)) → Prop where
  | same : ReceiptStep policy codec state state.receipts state.claims
  | accept (eventId : ID) (consumers : List JsString) :
      ReceiptStep policy codec state
        (consumers.foldl (Mailbox.openReceipt eventId state.now) state.receipts) state.claims
  | claim {token : ID} {consumer : JsString} {claimed : Claimed (ID × JsString) (Envelope Work)}
      {next : MailboxReceipts} (ready : state.workers token = .ready)
      (claiming : Claims policy (Mailbox.queue codec state.mailbox consumer) state.receipts token
        state.now claimed next) :
      ReceiptStep policy codec state next (state.claims ++ claimed.entries token)
  | finish {token : ID} {consumer : JsString} {event : Envelope Work} {attempt : Nat}
      {error : Option JsString} {draw : Draw} {next : MailboxReceipts}
      (finishing : state.workers token = .finishing consumer event attempt error)
      (done : Mailbox.finish policy state.receipts consumer event.id token attempt error draw
        state.now = .ok next) :
      ReceiptStep policy codec state next state.claims
  | requeue {selects : ID × JsString → Bool} {next : MailboxReceipts} {count : Nat}
      (done : Events.requeue state.receipts selects state.now = .ok (next, count)) :
      ReceiptStep policy codec state next state.claims
  | prune (wanted : DeliveryRow (ID × JsString) Unit → Bool) :
      ReceiptStep policy codec state (state.receipts.keep wanted) state.claims

theorem step_receipts (policy : RetryPolicy) (codec : Codec Text Work)
    (state : MailboxState Text Work) (label : MailboxLabel Work) :
    ReceiptStep policy codec state (state.step policy codec label).receipts
      (state.step policy codec label).claims := by
  cases label with
  | accept event consumers =>
    simp only [step, MailboxState.accept]
    split
    · exact .same
    · rename_i mailbox receipts done
      unfold Mailbox.accept at done
      split at done
      · obtain ⟨stored, _, rest⟩ := bind_ok done
        cases pure_eq_ok.mp rest
        exact .accept event.id consumers
      · simp at done
  | claim token consumer =>
    simp only [step, MailboxState.claim]
    split
    · rename_i ready
      split
      · split
        · exact .same
        · rename_i done
          exact .claim ready (claim_inv done)
      · exact .same
    · exact .same
  | handle token result =>
    simp only [step, MailboxState.handle]
    split <;> exact .same
  | finish token draw =>
    simp only [step, MailboxState.finish]
    split
    · rename_i finishing
      split
      · exact .same
      · rename_i done
        exact .finish finishing done
    · exact .same
  | crash token => exact .same
  | requeue consumer eventId =>
    simp only [step, MailboxState.requeue]
    split
    · exact .same
    · rename_i done
      unfold Mailbox.requeue at done
      split at done
      · exact .requeue done
      · cases done
  | prune retentionMs limit scan => exact .prune _
  | tick elapsed => exact .same

/-- The attempts of the receipts and of the workers on them. -/
structure Budget (policy : RetryPolicy) (state : MailboxState Text Work) : Prop where
  ledger : Ledger state.receipts state.claims
  within : WithinBudget policy.maxAttempts state.receipts
  tokens : Tokens state.claims (Worker.use ∘ state.workers)

private theorem opened {maxAttempts : Nat} (some : 1 ≤ maxAttempts) (eventId : ID) (now : Int)
    (consumers : List JsString) {receipts : MailboxReceipts} {claims : List (Claim (ID × JsString))}
    (ledger : Ledger receipts claims) (within : WithinBudget maxAttempts receipts) :
    Ledger (consumers.foldl (Mailbox.openReceipt eventId now) receipts) claims ∧
      WithinBudget maxAttempts (consumers.foldl (Mailbox.openReceipt eventId now) receipts) := by
  induction consumers generalizing receipts with
  | nil => exact ⟨ledger, within⟩
  | cons consumer rest ih =>
    rw [List.foldl_cons]
    unfold Mailbox.openReceipt
    split
    · exact ih ledger within
    · exact ih (ledger.insert now _ _) (within.insert some now _ _)

private theorem ReceiptStep.keeps {next : MailboxReceipts} {claims : List (Claim (ID × JsString))}
    (changed : ReceiptStep policy codec state next claims) (some : 1 ≤ policy.maxAttempts)
    (budget : state.Budget policy) :
    Ledger next claims ∧ WithinBudget policy.maxAttempts next := by
  obtain ⟨ledger, within, tokens⟩ := budget
  cases changed with
  | same => exact ⟨ledger, within⟩
  | accept eventId consumers => exact opened some eventId state.now consumers ledger within
  | claim _ claiming => exact ⟨ledger.claim claiming, within.claim claiming⟩
  | finish finishing done =>
    refine ⟨Ledger.finish ledger done, WithinBudget.finish within ledger ?_ done⟩
    exact tokens.holding _ _ (by simp [finishing, Worker.use])
  | requeue done => exact ⟨ledger.requeue done, within.requeue some done⟩
  | prune wanted => exact ⟨ledger.keep wanted, within.keep wanted⟩

private theorem move_tokens (tokens : Tokens state.claims (Worker.use ∘ state.workers)) (token : ID)
    {worker : Worker Work} (goes : worker.use = (state.workers token).use ∨ worker.use = .spent) :
    Tokens state.claims (Worker.use ∘ (state.move token worker).workers) := by
  simp only [move, Function.comp_update]
  exact tokens.move goes

private theorem step_tokens (tokens : Tokens state.claims (Worker.use ∘ state.workers))
    (label : MailboxLabel Work) :
    Tokens (state.step policy codec label).claims
      (Worker.use ∘ (state.step policy codec label).workers) := by
  cases label with
  | accept event consumers =>
    simp only [step, MailboxState.accept]
    split <;> exact tokens
  | claim token consumer =>
    simp only [step, MailboxState.claim]
    split
    · rename_i ready
      split
      · split
        · exact move_tokens tokens token (.inr rfl)
        · rename_i claimed receipts done
          have use : (Worker.claimed consumer claimed : Worker Work).use = claimed.use := by
            cases claimed <;> rfl
          simp only [move, Function.comp_update, use]
          exact tokens.claimed (by simp [ready, Worker.use]) claimed
      · exact move_tokens tokens token (.inr rfl)
    · exact tokens
  | handle token result =>
    simp only [step, MailboxState.handle]
    split
    · rename_i handling
      exact move_tokens tokens token (.inl (by rw [handling]; rfl))
    · exact tokens
  | finish token draw =>
    simp only [step, MailboxState.finish]
    split
    · split <;> exact move_tokens tokens token (.inr rfl)
    · exact tokens
  | crash token => exact move_tokens tokens token (.inr rfl)
  | requeue consumer eventId =>
    simp only [step, MailboxState.requeue]
    split <;> exact tokens
  | prune retentionMs limit scan => exact tokens
  | tick elapsed => exact tokens

theorem Budget.step (budget : state.Budget policy) (some : 1 ≤ policy.maxAttempts)
    (label : MailboxLabel Work) : (state.step policy codec label).Budget policy := by
  obtain ⟨ledger, within⟩ := (step_receipts policy codec state label).keeps some budget
  exact ⟨ledger, within, step_tokens budget.tokens label⟩

theorem budget (policy : RetryPolicy) (codec : Codec Text Work) (some : 1 ≤ policy.maxAttempts)
    (now : Int) (labels : List (MailboxLabel Work)) :
    (run (MailboxState.step policy codec) (initial now) labels).Budget policy := by
  refine run_invariant (fun state => Budget policy state)
    (fun state label holds => holds.step some label) ?_ labels
  refine ⟨⟨?_, ?_⟩, ?_, ⟨?_, ?_⟩⟩
  · intro row member
    cases member
  · intro row member
    cases member
  · intro row member
    cases member
  · intro token _ claim member
    cases member
  · intro token attempt _ claim member
    cases member

end MailboxState

/-- The delivery row invariant: for a policy of 1 to 100 attempts, every reachable
outbox and every reachable inbox is in good order. -/
theorem delivery_rows_sound (policy : RetryPolicy) (codec : Codec Text Work)
    (some : 1 ≤ policy.maxAttempts) (few : policy.maxAttempts ≤ 100) (now : Int)
    (sends : List (OutboxLabel Work)) (deliveries : List (MailboxLabel Work)) :
    let outbox := run (OutboxState.step policy codec) (.initial now) sends
    let inbox := run (MailboxState.step policy codec) (.initial now) deliveries
    SoundTable policy (Store.queue codec) outbox.rows (Dispatch.use ∘ outbox.dispatches) outbox.now ∧
      ∀ consumer, SoundTable policy (Mailbox.queue codec inbox.mailbox consumer) inbox.receipts
        (Worker.use ∘ inbox.workers) inbox.now := by
  intro outbox inbox
  have sent := OutboxState.budget policy codec some now sends
  have safe := OutboxState.safe policy codec now sends
  have received := MailboxState.budget policy codec some now deliveries
  constructor
  · exact safe.ledger.soundTable few sent.within sent.tokens _ _
  · intro consumer
    exact received.ledger.soundTable few received.within received.tokens _ _

/-- The default policy, an event claimed once and an event accepted for a consumer. -/
theorem default_rows_sound :
    let codec : Codec (Envelope Unit) Unit := ⟨id, .ok, fun _ => true, Envelope.sameJson⟩
    let event : Envelope Unit := ⟨ID.numbered 1, js "job.started.v1", 0, (), [], none, none⟩
    let outbox := run (OutboxState.step DEFAULT_RETRY codec) (.initial 0)
      [.enqueue event, .claim (ID.numbered 2), .tick 5]
    (outbox.rows.get event.id).map (fun row => (row.attempts, row.lease)) =
        some (1, some (ID.numbered 2)) ∧
      (∀ row ∈ outbox.rows.rows, row.Sound 12) ∧
      ∀ row ∈ (run (MailboxState.step DEFAULT_RETRY codec) (.initial 0)
        [.accept event [js "audit"], .claim (ID.numbered 2) (js "audit")]).receipts.rows,
        row.Sound 12 := by
  intro codec event outbox
  have sound := delivery_rows_sound DEFAULT_RETRY codec (by decide) (by decide) 0
    [.enqueue event, .claim (ID.numbered 2), .tick 5]
    [.accept event [js "audit"], .claim (ID.numbered 2) (js "audit")]
  exact ⟨rfl, sound.1.rows, (sound.2 (js "audit")).rows⟩

end N2FNest.Events
