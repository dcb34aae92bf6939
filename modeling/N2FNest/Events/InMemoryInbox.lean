import N2FNest.Events.Mailbox
import N2FNest.Shared.Number

/-! The process-local inbox. A call of `deliver` leases a receipt, awaits the
handler and records the outcome; the two halves around the handler are steps of
their own, and any number of calls are between them at once. A receipt is never
removed from its map or replaced there, so the object a call keeps is the receipt
under its consumer and event. -/

namespace N2FNest.Events

open Lib Shared

variable {Bytes Work : Type}

inductive ReceiptState where
  | pending | processed | dead
  deriving DecidableEq, Repr

structure InboxReceipt where
  eventId : ID
  state : ReceiptState
  attempts : Nat
  availableAt : JsNumber
  leased : Bool
  sequence : Nat
  deriving DecidableEq

abbrev InboxReceipts := Table (fun receipt : InboxReceipt => receipt.eventId)

structure ConsumerReceipts where
  consumer : JsString
  receipts : InboxReceipts

structure InMemoryInbox (Work : Type) where
  events : EventLog Work
  receipts : Table (fun entry : ConsumerReceipts => entry.consumer)
  sequence : Nat

/-- What a handler's promise comes to. -/
inductive HandlerResult where
  | returned (result : Except Failure Unit)
  | threw

/-- The failure type `deliver` reports, `none` for a handler that succeeded. -/
def HandlerResult.error : HandlerResult → Option JsString
  | .returned (.ok _) => none
  | .returned (.error error) => some (js error.code)
  | .threw => some (js "events.handler_threw")

/-- A call of `deliver` that awaits its handler. -/
structure Handling (Work : Type) where
  consumer : JsString
  eventId : ID
  event : Option (Envelope Work)
  attempt : Nat

def Handling.key (handling : Handling Work) : JsString × ID := (handling.consumer, handling.eventId)

namespace InMemoryInbox

def initial : InMemoryInbox Work := ⟨Table.empty, Table.empty, 0⟩

/-- `#receiptsFor`, the map it returns. -/
def receiptsFor (inbox : InMemoryInbox Work) (consumer : JsString) : InboxReceipts :=
  match inbox.receipts.get consumer with
  | some entry => entry.receipts
  | none => Table.empty

/-- A consumer's map after a change, opened when it was not there. -/
def withReceipts (inbox : InMemoryInbox Work) (consumer : JsString) (receipts : InboxReceipts) :
    InMemoryInbox Work :=
  { inbox with receipts := inbox.receipts.set ⟨consumer, receipts⟩ }

def find (inbox : InMemoryInbox Work) (consumer : JsString) (eventId : ID) : Option InboxReceipt :=
  (inbox.receiptsFor consumer).get eventId

/-- Open a consumer's receipt unless it has one. -/
def openReceipt (inbox : InMemoryInbox Work) (eventId : ID) (consumer : JsString) (now : JsNumber) :
    InMemoryInbox Work :=
  let receipts := inbox.receiptsFor consumer
  match receipts.get eventId with
  | some _ => inbox.withReceipts consumer receipts
  | none =>
    { inbox.withReceipts consumer (receipts.set ⟨eventId, .pending, 0, now, false, inbox.sequence⟩) with
      sequence := inbox.sequence + 1 }

/-- The loop of `accept`. It stops at an invalid name, with the receipts before it open. -/
def openReceipts (eventId : ID) (clock : JsString → JsNumber) :
    List JsString → InMemoryInbox Work → Except Failure Unit × InMemoryInbox Work
  | [], inbox => (.ok (), inbox)
  | consumer :: rest, inbox =>
    if isConsumer consumer then
      openReceipts eventId clock rest (inbox.openReceipt eventId consumer (clock consumer))
    else (.error invalidConsumer, inbox)

/-- `clock` gives the reading taken when a consumer's receipt is opened. -/
def accept [DecidableEq Bytes] (bytes : Envelope Work → Bytes) (inbox : InMemoryInbox Work)
    (event : Envelope Work) (consumers : List JsString) (clock : JsString → JsNumber) :
    Except Failure Unit × InMemoryInbox Work :=
  if (inbox.events.get event.id).any fun existing => bytes existing ≠ bytes event then
    (.error (conflict "id_reused"), inbox)
  else openReceipts event.id clock consumers { inbox with events := inbox.events.set event }

/-- One turn of the scan in `deliver`. -/
def consider (now : JsNumber) (next : Option InboxReceipt) (receipt : InboxReceipt) :
    Option InboxReceipt :=
  if receipt.state ≠ .pending || receipt.leased || now.below receipt.availableAt then next
  else match next with
    | none => some receipt
    | some held =>
      if receipt.availableAt.below held.availableAt ||
        (receipt.availableAt.same held.availableAt && receipt.sequence < held.sequence)
      then some receipt else next

def nextDue (receipts : InboxReceipts) (now : JsNumber) : Option InboxReceipt :=
  receipts.rows.foldl (consider now) none

def lease (receipt : InboxReceipt) : InboxReceipt :=
  { receipt with leased := true, attempts := receipt.attempts + 1 }

/-- `deliver` up to its call of the handler. -/
def claim (inbox : InMemoryInbox Work) (consumer : JsString) (now : JsNumber) :
    Except Failure (Option (Handling Work)) × InMemoryInbox Work :=
  if isConsumer consumer then
    let receipts := inbox.receiptsFor consumer
    match nextDue receipts now with
    | none => (.ok none, inbox.withReceipts consumer receipts)
    | some receipt =>
      let leased := lease receipt
      (.ok (some ⟨consumer, receipt.eventId, inbox.events.get receipt.eventId, leased.attempts⟩),
        inbox.withReceipts consumer (receipts.set leased))
  else (.error invalidConsumer, inbox)

/-- What an outcome makes of a receipt. -/
def settle (policy : RetryPolicy) (attempt : Nat) (error : Option JsString) (now : JsNumber)
    (draw : Draw) (receipt : InboxReceipt) : InboxReceipt :=
  match error with
  | none => { receipt with leased := false, state := .processed }
  | some _ =>
    { receipt with
      leased := false
      state := if exhausted policy attempt then .dead else .pending
      availableAt := now.add (JsNumber.ofRat (retryDelay policy attempt draw)) }

def finish (policy : RetryPolicy) (inbox : InMemoryInbox Work) (handling : Handling Work)
    (result : HandlerResult) (now : JsNumber) (draw : Draw) : InMemoryInbox Work :=
  match inbox.find handling.consumer handling.eventId with
  | some receipt =>
    inbox.withReceipts handling.consumer ((inbox.receiptsFor handling.consumer).set
      (settle policy handling.attempt result.error now draw receipt))
  | none => inbox

def requeues (eventId : Option JsString) (receipt : InboxReceipt) : Bool :=
  receipt.state = .dead && eventId.all (receipt.eventId.text = ·)

def revive (eventId : Option JsString) (clock : ID → JsNumber) (receipt : InboxReceipt) : InboxReceipt :=
  if requeues eventId receipt then
    { receipt with state := .pending, attempts := 0, availableAt := clock receipt.eventId }
  else receipt

theorem revive_eventId (eventId : Option JsString) (clock : ID → JsNumber) (receipt : InboxReceipt) :
    (revive eventId clock receipt).eventId = receipt.eventId := by
  unfold revive
  split <;> rfl

/-- `clock` gives the reading taken when a receipt is put back. -/
def requeue (inbox : InMemoryInbox Work) (consumer : JsString) (eventId : Option JsString)
    (clock : ID → JsNumber) : Except Failure Nat × InMemoryInbox Work :=
  if isConsumer consumer then
    let receipts := inbox.receiptsFor consumer
    (.ok (receipts.rows.countP (requeues eventId)),
      inbox.withReceipts consumer (receipts.modify (revive eventId clock) (revive_eventId eventId clock)))
  else (.error invalidConsumer, inbox)

/-- The consumers an `accept` gave a receipt they did not have. -/
def opened (before after : InMemoryInbox Work) (eventId : ID) (consumers : List JsString) :
    List (JsString × ID) :=
  (consumers.filter fun consumer =>
    (before.find consumer eventId).isNone && (after.find consumer eventId).isSome).map (·, eventId)

/-- The receipts a `requeue` puts back. -/
def requeued (inbox : InMemoryInbox Work) (consumer : JsString) (eventId : Option JsString) :
    List (JsString × ID) :=
  if isConsumer consumer then
    ((inbox.receiptsFor consumer).rows.filter (requeues eventId)).map fun receipt =>
      (consumer, receipt.eventId)
  else []

end InMemoryInbox

/-- What a run records of a receipt: it entered the queue, or a handler ended. -/
inductive LedgerEntry where
  | queued (key : JsString × ID)
  | attempted (key : JsString × ID) (error : Option JsString)

/-- The outcomes of the handlers called for a receipt since it last entered the queue. -/
def LedgerEntry.record (key : JsString × ID) (tries : List (Option JsString)) :
    LedgerEntry → List (Option JsString)
  | .queued other => if other = key then [] else tries
  | .attempted other error => if other = key then tries ++ [error] else tries

/-- The inbox with the calls of `deliver` that await a handler. -/
structure InboxState (Work : Type) where
  inbox : InMemoryInbox Work
  running : List (Handling Work)
  log : List LedgerEntry

inductive InboxLabel (Work : Type) where
  | accept (event : Envelope Work) (consumers : List JsString) (clock : JsString → JsNumber)
  | claim (consumer : JsString) (now : JsNumber)
  | finish (call : Nat) (result : HandlerResult) (now : JsNumber) (draw : Draw)
  | requeue (consumer : JsString) (eventId : Option JsString) (clock : ID → JsNumber)

namespace InboxState

def initial : InboxState Work := ⟨.initial, [], []⟩

def tries (state : InboxState Work) (key : JsString × ID) : List (Option JsString) :=
  state.log.foldl (LedgerEntry.record key) []

/-- `call` counts the running calls, oldest first; a handler may end in any order. -/
def step [DecidableEq Bytes] (bytes : Envelope Work → Bytes) (policy : RetryPolicy)
    (state : InboxState Work) : InboxLabel Work → InboxState Work
  | .accept event consumers clock =>
    let inbox := (state.inbox.accept bytes event consumers clock).2
    { state with
      inbox := inbox
      log := state.log ++ (state.inbox.opened inbox event.id consumers).map .queued }
  | .claim consumer now =>
    match state.inbox.claim consumer now with
    | (.ok (some handling), inbox) =>
      { state with inbox := inbox, running := state.running ++ [handling] }
    | (_, inbox) => { state with inbox := inbox }
  | .finish call result now draw =>
    match state.running[call]? with
    | some handling =>
      { inbox := state.inbox.finish policy handling result now draw
        running := state.running.eraseIdx call
        log := state.log ++ [.attempted handling.key result.error] }
    | none => state
  | .requeue consumer eventId clock =>
    { state with
      inbox := (state.inbox.requeue consumer eventId clock).2
      log := state.log ++ (state.inbox.requeued consumer eventId).map .queued }

/-- The consumers a step is for. -/
def concerns (state : InboxState Work) : InboxLabel Work → List JsString
  | .accept _ consumers _ => consumers
  | .claim consumer _ => [consumer]
  | .finish call _ _ _ => (state.running[call]?.map fun handling => handling.consumer).toList
  | .requeue consumer _ _ => [consumer]

end InboxState

end N2FNest.Events
