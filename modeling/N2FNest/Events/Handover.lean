import N2FNest.Events.Mailbox

/-! The way of an event from its writer to the inbox. The outbox hands it to
JetStream and a worker hands it from there to the inbox: three stores without a
transaction in common. A participant can stop for good between any two steps, and
whatever passes between them can be late, lost or repeated. -/

namespace N2FNest.Events

open Lib Shared

variable {Text Work : Type}

/-- The codec with the publisher's own comparison of two envelopes: `isDeepStrictEqual`
of their JSON, `none` where one of them is no JSON. -/
structure WireCodec (Text Work : Type) extends Codec Text Work where
  deepEqual : Text → Text → Option Bool

/-- Every envelope the program holds was decoded from bytes. -/
def Codec.Issued (codec : Codec Text Work) (event : Envelope Work) : Prop :=
  ∃ text, codec.decode text = .ok event

def jetStreamUnavailable : Failure :=
  failure .unavailable "JetStream operation incomplete" "events.jetstream_unavailable"

def undecodable : Failure :=
  failure .invalid "undecodable JetStream message terminated" "events.undecodable"

structure Message (Text : Type) where
  msgId : ID
  data : Text

/-- Messages by their sequence numbers, and what the server remembers of them: the ids of
the duplicate window, the messages it got +ACK or +TERM for, and those it discarded. -/
structure JetStream (Text : Type) where
  messages : List (Message Text)
  window : ID → Option Nat
  settled : List Nat
  discarded : List Nat

/-- What JetStream answers a publisher. The original of a duplicate is asked for by a
request of its own. -/
inductive PubReply (Text : Type) where
  | stored (seq : Nat)
  | duplicate (seq : Nat)
  | original (data : Option Text)

namespace JetStream

def empty : JetStream Text := ⟨[], fun _ => none, [], []⟩

def held (stream : JetStream Text) (seq : Nat) : Option (Message Text) :=
  if seq ∈ stream.discarded then none else stream.messages[seq]?

/-- An id that came within the duplicate window is not stored again. -/
def publish (stream : JetStream Text) (msgId : ID) (data : Text) : JetStream Text × PubReply Text :=
  match stream.window msgId with
  | some seq => (stream, .duplicate seq)
  | none =>
    let seq := stream.messages.length
    ({ stream with
        messages := stream.messages ++ [⟨msgId, data⟩]
        window := Function.update stream.window msgId (some seq) }, .stored seq)

/-- The duplicate window of an id ends. -/
def forget (stream : JetStream Text) (msgId : ID) : JetStream Text :=
  { stream with window := Function.update stream.window msgId none }

def settle (stream : JetStream Text) (seq : Nat) : JetStream Text :=
  { stream with settled := stream.settled ++ [seq] }

/-- Only what was settled is discarded. -/
def discard (stream : JetStream Text) (seq : Nat) : JetStream Text :=
  if seq ∈ stream.settled then { stream with discarded := stream.discarded ++ [seq] } else stream

end JetStream

/-- What `publish` returns for an answer of JetStream; a duplicate is to be looked at. -/
def Broker.receipt (codec : WireCodec Text Work) (event : Envelope Work) :
    PubReply Text → Option (Except Failure Receipt)
  | .stored _ => some (.ok ⟨event.id, true⟩)
  | .duplicate _ => none
  | .original none => some (.error jetStreamUnavailable)
  | .original (some data) => match codec.deepEqual data (codec.bytes event) with
    | some true => some (.ok ⟨event.id, true⟩)
    | some false => some (.error (conflict "id_reused"))
    | none => some (.error jetStreamUnavailable)

/-- A call of `publish`: its event and JetStream's last answer to it. -/
structure PublishCall (Text Work : Type) where
  event : Envelope Work
  reply : Option (PubReply Text)

inductive Settlement where
  | ack | nak | term
  deriving DecidableEq

/-- Where a call of `transfer` stands. -/
inductive Transfer (Text Work : Type) where
  | ready
  | received (seq : Nat) (data : Text)
  | publishing (seq : Nat) (event : Envelope Work)
  | accepting (seq : Nat) (event : Envelope Work) (consumers : List JsString)
  | replying (result : Except Failure Bool)
  | returned (result : Except Failure Bool)

/-- What `transfer` replies to a message whose event it published, and returns then. -/
def Broker.settlement (event : Envelope Work) :
    Except Failure Receipt → Settlement × Except Failure Bool
  | .error error => (.nak, .error error)
  | .ok receipt =>
    if receipt.durable && receipt.eventId = event.id then (.ack, .ok true)
    else (.nak, .error jetStreamUnavailable)

namespace EventDelivery

/-- `none` where it throws. -/
def subscribe (subscribers : List JsString) (consumer : JsString) : Option (List JsString) :=
  if isConsumer consumer && !subscribers.contains consumer then some (subscribers ++ [consumer])
  else none

def unsubscribe (subscribers : List JsString) (consumer : JsString) : List JsString :=
  subscribers.filter (· ≠ consumer)

end EventDelivery

/-- How the transaction of an `accept` ends for its caller. -/
inductive Commit where
  | answered
  | unanswered (error : Failure)
  | failed (error : Failure)

/-- A committed `accept` of a transfer: its event, the consumers subscribed when it was
published, and the inbox right after the commit. -/
structure Acceptance (Text Work : Type) where
  event : Envelope Work
  subscribed : List JsString
  mailbox : MailboxRows Text
  receipts : MailboxReceipts

/-- All participants: the outbox with its dispatches and their calls of `publish`, the
stream, the transfers with the replies under way, the subscriptions of each process and
the inbox. The last two fields record the events of committed writers and the committed
acceptances. -/
structure Pipeline (Text Work : Type) where
  outbox : OutboxState Text Work
  calls : ID → Option (PublishCall Text Work)
  stream : JetStream Text
  transfers : Nat → Transfer Text Work
  replies : List (Nat × Settlement)
  subscribers : Nat → List JsString
  inbox : MailboxState Text Work
  committed : List (Envelope Work)
  accepted : List (Acceptance Text Work)

inductive PipelineLabel (codec : Codec Text Work) where
  | enqueue (event : Envelope Work) (issued : codec.Issued event)
  | claim (token : ID)
  | send (token : ID)
  | arrive (token : ID)
  | fetch (token : ID)
  | answer (token : ID)
  | fail (token : ID) (error : Failure)
  | finish (token : ID) (draw : Draw)
  | crash (token : ID)
  | requeue (eventId : Option ID)
  | prune (retentionMs : Int) (limit : Nat) (scan : ID → Bool)
  | tick (elapsed : Nat)
  | forget (msgId : ID)
  | discard (seq : Nat)
  | subscribe (process : Nat) (consumer : JsString)
  | unsubscribe (process : Nat) (consumer : JsString)
  | restart (process : Nat)
  | next (turn seq : Nat)
  | decode (turn : Nat)
  | publish (turn process : Nat)
  | accept (turn : Nat) (commit : Commit)
  | settle (index : Nat)
  | confirm (turn : Nat)
  | halt (turn : Nat) (error : Failure)
  | inbox (label : MailboxLabel Work)

namespace Pipeline

def initial (now : Int) : Pipeline Text Work where
  outbox := .initial now
  calls := fun _ => none
  stream := .empty
  transfers := fun _ => .ready
  replies := []
  subscribers := fun _ => []
  inbox := .initial now
  committed := []
  accepted := []

/-- A step of the outbox or of one of its dispatches. -/
def dispatch (policy : RetryPolicy) (codec : Codec Text Work) (state : Pipeline Text Work)
    (label : OutboxLabel Work) : Pipeline Text Work :=
  { state with outbox := state.outbox.step policy codec label }

def enqueue (policy : RetryPolicy) (codec : Codec Text Work) (state : Pipeline Text Work)
    (event : Envelope Work) : Pipeline Text Work :=
  match Events.enqueue codec state.outbox.rows event state.outbox.now with
  | .error _ => state
  | .ok _ =>
    { state.dispatch policy codec (.enqueue event) with committed := state.committed ++ [event] }

/-- The request of a `publish` leaves. -/
def send (state : Pipeline Text Work) (token : ID) : Pipeline Text Work :=
  match state.outbox.dispatches token with
  | .publishing lease =>
    { state with calls := Function.update state.calls token (some ⟨lease.event, none⟩) }
  | _ => state

/-- The request reaches JetStream, be it late or again, and is answered. -/
def arrive (codec : Codec Text Work) (state : Pipeline Text Work) (token : ID) :
    Pipeline Text Work :=
  match state.calls token with
  | none => state
  | some call =>
    let (stream, reply) := state.stream.publish call.event.id (codec.bytes call.event)
    { state with
      stream := stream
      calls := Function.update state.calls token (some { call with reply := some reply }) }

/-- The original of a duplicate is read. -/
def fetch (state : Pipeline Text Work) (token : ID) : Pipeline Text Work :=
  match state.calls token with
  | some ⟨event, some (.duplicate seq)⟩ =>
    let reply := .original ((state.stream.held seq).map Message.data)
    { state with calls := Function.update state.calls token (some ⟨event, some reply⟩) }
  | _ => state

/-- `publish` returns. -/
def answer (policy : RetryPolicy) (codec : WireCodec Text Work) (state : Pipeline Text Work)
    (token : ID) : Pipeline Text Work :=
  match state.calls token with
  | some ⟨event, some reply⟩ => match Broker.receipt codec event reply with
    | some receipt => state.dispatch policy codec.toCodec (.publish token receipt)
    | none => state
  | _ => state

def move (state : Pipeline Text Work) (turn : Nat) (transfer : Transfer Text Work) :
    Pipeline Text Work :=
  { state with transfers := Function.update state.transfers turn transfer }

/-- A transfer replies to its message and waits for the server to confirm that. -/
def reply (state : Pipeline Text Work) (turn seq : Nat)
    (outcome : Settlement × Except Failure Bool) : Pipeline Text Work :=
  { state.move turn (.replying outcome.2) with replies := state.replies ++ [(seq, outcome.1)] }

/-- Any message the stream holds may come, be it again. -/
def next (state : Pipeline Text Work) (turn seq : Nat) : Pipeline Text Work :=
  match state.transfers turn with
  | .ready => match state.stream.held seq with
    | none => state.move turn (.returned (.ok false))
    | some message => state.move turn (.received seq message.data)
  | _ => state

def decode (codec : Codec Text Work) (state : Pipeline Text Work) (turn : Nat) :
    Pipeline Text Work :=
  match state.transfers turn with
  | .received seq data => match codec.decode data with
    | .error _ => state.reply turn seq (.term, .error undecodable)
    | .ok event => state.move turn (.publishing seq event)
  | _ => state

/-- `EventDelivery.publish` reads who is subscribed in its process. -/
def publish (state : Pipeline Text Work) (turn process : Nat) : Pipeline Text Work :=
  match state.transfers turn with
  | .publishing seq event =>
    state.move turn (.accepting seq event (state.subscribers process))
  | _ => state

/-- A transaction that fails by itself, by the database or by its caller's deadline is
reported as failed; one that committed may be reported so as well. -/
def accept (codec : Codec Text Work) (state : Pipeline Text Work) (turn : Nat) (commit : Commit) :
    Pipeline Text Work :=
  match state.transfers turn with
  | .accepting seq event consumers =>
    match commit, Mailbox.accept codec state.inbox.mailbox state.inbox.receipts event consumers
        state.inbox.now with
    | .failed error, _ => state.reply turn seq (Broker.settlement event (.error error))
    | _, .error error => state.reply turn seq (Broker.settlement event (.error error))
    | commit, .ok (mailbox, receipts) =>
      let receipt := match commit with
        | .unanswered error => .error error
        | _ => .ok ⟨event.id, true⟩
      { state.reply turn seq (Broker.settlement event receipt) with
        inbox := { state.inbox with mailbox := mailbox, receipts := receipts }
        accepted := state.accepted ++ [⟨event, consumers, mailbox, receipts⟩] }
  | _ => state

/-- A reply under way reaches JetStream, be it late or again. -/
def settle (state : Pipeline Text Work) (index : Nat) : Pipeline Text Work :=
  match state.replies[index]? with
  | some (seq, .ack) => { state with stream := state.stream.settle seq }
  | some (seq, .term) => { state with stream := state.stream.settle seq }
  | _ => state

def confirm (state : Pipeline Text Work) (turn : Nat) : Pipeline Text Work :=
  match state.transfers turn with
  | .replying result => state.move turn (.returned result)
  | _ => state

def subscribed (state : Pipeline Text Work) (process : Nat) (subscribers : List JsString) :
    Pipeline Text Work :=
  { state with subscribers := Function.update state.subscribers process subscribers }

/-- A dispatch that crashes or a transfer that halts leaves its requests under way. -/
def step (policy : RetryPolicy) (codec : WireCodec Text Work) (state : Pipeline Text Work) :
    PipelineLabel codec.toCodec → Pipeline Text Work
  | .enqueue event _ => state.enqueue policy codec.toCodec event
  | .claim token => state.dispatch policy codec.toCodec (.claim token)
  | .send token => state.send token
  | .arrive token => state.arrive codec.toCodec token
  | .fetch token => state.fetch token
  | .answer token => state.answer policy codec token
  | .fail token error => state.dispatch policy codec.toCodec (.publish token (.error error))
  | .finish token draw => state.dispatch policy codec.toCodec (.finish token draw)
  | .crash token => state.dispatch policy codec.toCodec (.crash token)
  | .requeue eventId => state.dispatch policy codec.toCodec (.requeue eventId)
  | .prune retentionMs limit scan =>
    state.dispatch policy codec.toCodec (.prune retentionMs limit scan)
  | .tick elapsed => state.dispatch policy codec.toCodec (.tick elapsed)
  | .forget msgId => { state with stream := state.stream.forget msgId }
  | .discard seq => { state with stream := state.stream.discard seq }
  | .subscribe process consumer =>
    match EventDelivery.subscribe (state.subscribers process) consumer with
    | some subscribers => state.subscribed process subscribers
    | none => state
  | .unsubscribe process consumer =>
    state.subscribed process (EventDelivery.unsubscribe (state.subscribers process) consumer)
  | .restart process => state.subscribed process []
  | .next turn seq => state.next turn seq
  | .decode turn => state.decode codec.toCodec turn
  | .publish turn process => state.publish turn process
  | .accept turn commit => state.accept codec.toCodec turn commit
  | .settle index => state.settle index
  | .confirm turn => state.confirm turn
  | .halt turn error => state.move turn (.returned (.error error))
  | .inbox label => { state with inbox := state.inbox.step policy codec.toCodec label }

end Pipeline

end N2FNest.Events
