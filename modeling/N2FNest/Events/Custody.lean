import N2FNest.Events.Handover
import N2FNest.Events.InboxSafety

/-! Who has an event on its way to the inbox: its row, until the stream has it for
certain, and the stream, until the inbox has it for certain. -/

namespace N2FNest.Events

open Lib Shared

variable {Text Work : Type}

/-- Storage takes the text for the event's own. -/
def Codec.Carries (codec : Codec Text Work) (text : Text) (event : Envelope Work) : Prop :=
  codec.sameJsonb text (codec.bytes event) = true

/-- What the way relies on: the bytes of an envelope decode to it again, and the
comparisons of texts agree. -/
structure WireCodec.Lawful (codec : WireCodec Text Work) : Prop where
  again : ∀ event, codec.Issued event → codec.decode (codec.bytes event) = .ok event
  same : ∀ event, codec.Issued event → codec.Carries (codec.bytes event) event
  trans : ∀ first second third, codec.sameJsonb first second = true →
    codec.sameJsonb second third = true → codec.sameJsonb first third = true
  deep : ∀ first second, codec.deepEqual first second = some true →
    codec.sameJsonb first second = true

/-- The stream got the text, or one equal to it, under this id. -/
def Streamed (codec : Codec Text Work) (messages : List (Message Text)) (msgId : ID)
    (text : Text) : Prop :=
  ∃ message ∈ messages, message.msgId = msgId ∧ codec.sameJsonb message.data text = true

theorem Streamed.grows {codec : Codec Text Work} {messages more : List (Message Text)} {msgId : ID}
    {text : Text} (streamed : Streamed codec messages msgId text) (grown : messages <+: more) :
    Streamed codec more msgId text := by
  obtain ⟨message, member, named, same⟩ := streamed
  exact ⟨message, grown.subset member, named, same⟩

/-- Rows hold the bytes of their events, a lease of a row is for its very event, and
nothing is sent or about to be acknowledged that the stream did not get. -/
structure Posted (codec : Codec Text Work) (outbox : OutboxState Text Work)
    (messages : List (Message Text)) : Prop where
  rows : ∀ key row, outbox.rows.get key = some row →
    ∃ event, codec.Issued event ∧ event.id = key ∧ row.body = codec.bytes event
  leases : ∀ token lease, (outbox.dispatches token).lease? = some lease →
    lease.token = token ∧ codec.Issued lease.event
  leased : ∀ token lease row, (outbox.dispatches token).lease? = some lease →
    outbox.rows.get lease.event.id = some row → row.lease = some token →
    row.body = codec.bytes lease.event
  settled : ∀ key row, outbox.rows.get key = some row → row.state = .settled →
    Streamed codec messages key row.body
  acking : ∀ token lease, outbox.dispatches token = .acking lease →
    Streamed codec messages lease.event.id (codec.bytes lease.event)

/-- What a step of the outbox must not do by itself. -/
def Grounded (codec : Codec Text Work) (outbox : OutboxState Text Work)
    (messages : List (Message Text)) : OutboxLabel Work → Prop
  | .enqueue event => codec.Issued event
  | .publish token receipt => ∀ lease, outbox.dispatches token = .publishing lease →
    Dispatch.published lease receipt = .acking lease →
    Streamed codec messages lease.event.id (codec.bytes lease.event)
  | _ => True

namespace Posted

variable {policy : RetryPolicy} {codec : WireCodec Text Work} {outbox next : OutboxState Text Work}
  {messages more : List (Message Text)}

theorem grows (posted : Posted codec.toCodec outbox messages) (grown : messages <+: more) :
    Posted codec.toCodec outbox more where
  rows := posted.rows
  leases := posted.leases
  leased := posted.leased
  settled := fun key row found settled => (posted.settled key row found settled).grows grown
  acking := fun token lease acking => (posted.acking token lease acking).grows grown

/-- What a row was sent for, the stream got. -/
private theorem settled_of (posted : Posted codec.toCodec outbox messages) {token : Option ID}
    {rows : OutboxRows Text} {claims : List (Claim ID)}
    (changed : OutboxState.RowStep policy codec.toCodec outbox rows claims)
    (descends : Descends token outbox.rows rows) (key : ID) (row : DeliveryRow ID Text)
    (found : rows.get key = some row) (settled : row.state = .settled) :
    Streamed codec.toCodec messages key row.body := by
  obtain ⟨before, held, body, -⟩ := descends key row found
  rw [body]
  rcases changed.settled found settled with
    ⟨same, stood, already⟩ | ⟨turn, lease, draw, acking, named, done⟩
  · rw [held] at stood
    cases stood
    exact posted.settled key before held already
  · have finished : Store.finish policy outbox.rows lease none draw outbox.now = .ok rows := done
    obtain ⟨holder, holds, -⟩ := finish_inv finished
    have mine : (outbox.dispatches turn).lease? = some lease := by rw [acking]; rfl
    have taken : holder.lease = some turn :=
      holds.lease.trans (congrArg some (posted.leases turn lease mine).1)
    have same : before = holder := Option.some.inj (held.symm.trans (named ▸ holds.found))
    rw [same, posted.leased turn lease holder mine holds.found taken, ← named]
    exact posted.acking turn lease acking

/-- A claim leases an event whose row holds its bytes. -/
private theorem lease_of (lawful : codec.Lawful) (posted : Posted codec.toCodec outbox messages)
    {token : ID} {claimed : Claimed ID (Envelope Work)} {rows : OutboxRows Text}
    (claiming : Claims policy (Store.queue codec.toCodec) outbox.rows token outbox.now claimed rows)
    {lease : Lease Work} (holds : (Dispatch.claimed token claimed).lease? = some lease) :
    lease.token = token ∧ codec.Issued lease.event ∧
      ∃ row, outbox.rows.get lease.event.id = some row ∧ row.body = codec.bytes lease.event := by
  cases claiming with
  | nothing => cases holds
  | quarantined => cases holds
  | leased row event present _ _ _ decoded =>
    cases holds
    have found : outbox.rows.get row.key = some row := Table.get_of_mem present
    obtain ⟨issued, known, named, body⟩ := posted.rows row.key row found
    have read : codec.decode row.body = .ok event := Option.some.inj decoded
    rw [body, lawful.again issued known] at read
    cases read
    exact ⟨rfl, known, row, named ▸ found, body⟩

/-- A dispatch with a lease leases no further row. -/
private theorem claimant_ne {label : OutboxLabel Work} {token : ID} {lease : Lease Work}
    (holds : (outbox.dispatches token).lease? = some lease) :
    outbox.claimant label ≠ some token := by
  intro taking
  cases label with
  | claim other =>
    simp only [OutboxState.claimant] at taking
    split at taking
    · rename_i ready
      cases taking
      rw [ready] at holds
      cases holds
    · cases taking
  | _ => cases taking

/-- The row of a new event holds its bytes. -/
private theorem enqueue (posted : Posted codec.toCodec outbox messages) {event : Envelope Work}
    (issued : codec.Issued event) :
    Posted codec.toCodec (outbox.step policy codec.toCodec (.enqueue event)) messages := by
  rw [OutboxState.step, OutboxState.enqueue]
  split
  · exact posted
  · rename_i rows done
    rcases enqueue_inv done with ⟨rfl, -⟩ | ⟨missing, rfl⟩
    · exact ⟨posted.rows, posted.leases, posted.leased, posted.settled, posted.acking⟩
    · refine ⟨?_, posted.leases, ?_, ?_, posted.acking⟩
      · intro key row found
        rcases Table.get_set_cases found with rfl | held
        · have held : (outbox.rows.set _).get key = some _ := found
          have named := Table.key_of_get held
          exact ⟨event, issued, named, rfl⟩
        · exact posted.rows key row held
      · intro token lease row holds found taken
        rcases Table.get_set_cases found with rfl | held
        · cases taken
        · exact posted.leased token lease row holds held taken
      · intro key row found settled
        rcases Table.get_set_cases found with rfl | held
        · cases settled
        · exact posted.settled key row held settled

theorem step (lawful : codec.Lawful) (posted : Posted codec.toCodec outbox messages)
    {label : OutboxLabel Work} (grounded : Grounded codec.toCodec outbox messages label) :
    Posted codec.toCodec (outbox.step policy codec.toCodec label) messages := by
  by_cases queues : ∃ event, label = .enqueue event
  · obtain ⟨event, rfl⟩ := queues
    exact posted.enqueue grounded
  have plain : ∀ event, label ≠ .enqueue event := fun event same => queues ⟨event, same⟩
  have changed := OutboxState.step_rows policy codec.toCodec outbox label
  have descends := OutboxState.step_descends policy codec.toCodec outbox plain
  have moved := OutboxState.step_dispatch policy codec.toCodec outbox label
  constructor
  · intro key row found
    obtain ⟨before, held, body, -⟩ := descends key row found
    rw [body]
    exact posted.rows key before held
  · intro token lease holds
    rcases (moved token).lease holds with before | ⟨-, claimed, rows, claiming, same⟩
    · exact posted.leases token lease before
    · obtain ⟨mine, issued, -⟩ := posted.lease_of lawful claiming (same ▸ holds)
      exact ⟨mine, issued⟩
  · intro token lease row holds found taken
    obtain ⟨before, held, body, kept⟩ := descends _ row found
    rw [body]
    rcases (moved token).lease holds with still | ⟨-, claimed, rows, claiming, same⟩
    · rw [taken] at kept
      refine posted.leased token lease before still held ?_
      rcases kept with none | kept | mine
      · cases none
      · exact kept.symm
      · exact absurd mine.symm (claimant_ne still)
    · obtain ⟨-, -, leased, stood, bytes⟩ := posted.lease_of lawful claiming (same ▸ holds)
      rw [held] at stood
      cases stood
      exact bytes
  · exact posted.settled_of changed descends
  · intro token lease acking
    rcases (acking ▸ moved token).acking with before | ⟨receipt, rfl, publishing, answered⟩
    · exact posted.acking token lease before
    · exact grounded lease publishing answered

end Posted

/-- An answer is about the message that the stream keeps for the event. -/
def PubReply.Sound (codec : Codec Text Work) (messages : List (Message Text)) (event : Envelope Work) :
    PubReply Text → Prop
  | .stored _ => Streamed codec messages event.id (codec.bytes event)
  | .duplicate seq => ∃ message, messages[seq]? = some message ∧ message.msgId = event.id
  | .original data => ∀ text, data = some text →
    ∃ message ∈ messages, message.msgId = event.id ∧ message.data = text

theorem getElem?_grows {messages more : List (Message Text)} {seq : Nat} {message : Message Text}
    (grown : messages <+: more) (there : messages[seq]? = some message) :
    more[seq]? = some message := by
  obtain ⟨rest, rfl⟩ := grown
  exact (List.getElem?_append_left (List.getElem?_eq_some_iff.mp there).1).trans there

theorem PubReply.Sound.grows {codec : Codec Text Work} {messages more : List (Message Text)}
    {event : Envelope Work} {reply : PubReply Text} (sound : reply.Sound codec messages event)
    (grown : messages <+: more) : reply.Sound codec more event := by
  cases reply with
  | stored seq => exact Streamed.grows sound grown
  | duplicate seq =>
    obtain ⟨message, there, named⟩ := sound
    exact ⟨message, getElem?_grows grown there, named⟩
  | original data =>
    intro text same
    obtain ⟨message, member, named, held⟩ := sound text same
    exact ⟨message, grown.subset member, named, held⟩

/-- A receipt is only given for an event that the stream got. -/
theorem Broker.receipt_ok {codec : WireCodec Text Work} (lawful : codec.Lawful)
    {messages : List (Message Text)} {event : Envelope Work} {reply : PubReply Text} {receipt : Receipt}
    (sound : reply.Sound codec.toCodec messages event)
    (given : Broker.receipt codec event reply = some (.ok receipt)) :
    Streamed codec.toCodec messages event.id (codec.bytes event) := by
  cases reply with
  | stored seq => exact sound
  | duplicate seq => cases given
  | original data =>
    cases data with
    | none => cases given
    | some text =>
      obtain ⟨message, member, named, rfl⟩ := sound text rfl
      simp only [Broker.receipt] at given
      split at given
      · rename_i equal
        exact ⟨message, member, named, lawful.deep _ _ equal⟩
      · cases given
      · cases given

/-- A call is for the event its dispatch leased, and has not begun before the claim. -/
structure Calling (codec : Codec Text Work) (outbox : OutboxState Text Work)
    (calls : ID → Option (PublishCall Text Work)) (messages : List (Message Text)) : Prop where
  unsent : ∀ token, outbox.dispatches token = .ready → calls token = none
  called : ∀ token lease call, outbox.dispatches token = .publishing lease →
    calls token = some call → call.event = lease.event
  sound : ∀ token call, calls token = some call → codec.Issued call.event ∧
    ∀ reply, call.reply = some reply → reply.Sound codec messages call.event

namespace Calling

variable {policy : RetryPolicy} {codec : Codec Text Work} {outbox : OutboxState Text Work}
  {calls : ID → Option (PublishCall Text Work)} {messages more : List (Message Text)}

theorem grows (calling : Calling codec outbox calls messages) (grown : messages <+: more) :
    Calling codec outbox calls more where
  unsent := calling.unsent
  called := calling.called
  sound := by
    intro token call known
    obtain ⟨issued, sound⟩ := calling.sound token call known
    exact ⟨issued, fun reply same => (sound reply same).grows grown⟩

theorem step (calling : Calling codec outbox calls messages) (label : OutboxLabel Work) :
    Calling codec (outbox.step policy codec label) calls messages where
  unsent := by
    intro token ready
    have moved := OutboxState.step_dispatch policy codec outbox label token
    exact calling.unsent token (ready ▸ moved).ready
  called := by
    intro token lease call publishing known
    have moved := OutboxState.step_dispatch policy codec outbox label token
    rcases (publishing ▸ moved).publishing with before | ready
    · exact calling.called token lease call before known
    · cases (calling.unsent token ready).symm.trans known
  sound := calling.sound

/-- A call begins or is answered. -/
theorem update (calling : Calling codec outbox calls messages) {token : ID}
    {call : PublishCall Text Work} (begun : outbox.dispatches token ≠ .ready)
    (own : ∀ lease, outbox.dispatches token = .publishing lease → call.event = lease.event)
    (issued : codec.Issued call.event)
    (sound : ∀ reply, call.reply = some reply → reply.Sound codec messages call.event) :
    Calling codec outbox (Function.update calls token (some call)) messages where
  unsent := by
    intro other ready
    have different : other ≠ token := fun same => begun (same ▸ ready)
    rw [Function.update_of_ne different]
    exact calling.unsent other ready
  called := by
    intro other lease held publishing known
    by_cases same : other = token
    · subst same
      rw [Function.update_self] at known
      cases known
      exact own lease publishing
    · rw [Function.update_of_ne same] at known
      exact calling.called other lease held publishing known
  sound := by
    intro other held known
    by_cases same : other = token
    · subst same
      rw [Function.update_self] at known
      cases known
      exact ⟨issued, sound⟩
    · rw [Function.update_of_ne same] at known
      exact calling.sound other held known

/-- A call under way gets an answer. -/
theorem answered (calling : Calling codec outbox calls messages) {token : ID}
    {call : PublishCall Text Work} (known : calls token = some call) {reply : PubReply Text}
    (sound : reply.Sound codec messages call.event) :
    Calling codec outbox (Function.update calls token (some ⟨call.event, some reply⟩)) messages := by
  apply calling.update
  · intro ready
    cases (calling.unsent token ready).symm.trans known
  · exact fun lease publishing => calling.called token lease call publishing known
  · exact (calling.sound token call known).1
  · intro given same
    cases same
    exact sound

end Calling

/-- What an acceptance left in the inbox: an envelope equal to the text, and a receipt for
every consumer that was subscribed. -/
structure Acceptance.Holds (codec : Codec Text Work) (acceptance : Acceptance Text Work) (id : ID)
    (text : Text) : Prop where
  stored : ∃ row, acceptance.mailbox.get id = some row ∧ codec.sameJsonb row.envelope text = true
  receipts : ∀ consumer ∈ acceptance.subscribed,
    ∃ row, acceptance.receipts.get (id, consumer) = some row

/-- The inbox took the message. -/
def Taken (codec : Codec Text Work) (messages : List (Message Text))
    (accepted : List (Acceptance Text Work)) (seq : Nat) : Prop :=
  ∃ message, messages[seq]? = some message ∧
    ∃ acceptance ∈ accepted, acceptance.Holds codec message.msgId message.data

theorem Taken.grows {codec : Codec Text Work} {messages more : List (Message Text)}
    {accepted : List (Acceptance Text Work)} {seq : Nat} (taken : Taken codec messages accepted seq)
    (grown : messages <+: more) (rest : List (Acceptance Text Work)) :
    Taken codec more (accepted ++ rest) seq := by
  obtain ⟨message, there, acceptance, member, holds⟩ := taken
  exact ⟨message, getElem?_grows grown there, acceptance, List.mem_append_left rest member, holds⟩

/-- A committed `accept` of an envelope leaves it with its receipts. -/
theorem accept_holds {codec : WireCodec Text Work} (lawful : codec.Lawful)
    {mailbox next : MailboxRows Text} {receipts opened : MailboxReceipts} {event : Envelope Work}
    {consumers : List JsString} {now : Int} (issued : codec.Issued event)
    (done : Mailbox.accept codec.toCodec mailbox receipts event consumers now = .ok (next, opened)) :
    (Acceptance.mk event consumers next opened).Holds codec.toCodec event.id (codec.bytes event) := by
  obtain ⟨inserted, rfl⟩ := Mailbox.accept_inv done
  constructor
  · simp only [Mailbox.insert] at inserted
    split at inserted
    · split at inserted
      · cases inserted
        exact ⟨⟨event.id, codec.bytes event⟩, Table.get_set_same _ _, lawful.same event issued⟩
      · rename_i held found
        split at inserted
        · rename_i equal
          cases inserted
          exact ⟨held, found, equal⟩
        · cases inserted
    · cases inserted
  · intro consumer member
    exact Option.ne_none_iff_exists'.mp (Mailbox.opened_present event.id now consumers receipts member)

/-- Every message is an envelope under its own id, and one the consumer settled is in the inbox. -/
structure JetStream.Sound (codec : Codec Text Work) (stream : JetStream Text)
    (accepted : List (Acceptance Text Work)) : Prop where
  issued : ∀ message ∈ stream.messages,
    ∃ event, codec.Issued event ∧ message = ⟨event.id, codec.bytes event⟩
  window : ∀ id seq, stream.window id = some seq →
    ∃ message, stream.messages[seq]? = some message ∧ message.msgId = id
  settled : ∀ seq ∈ stream.settled, Taken codec stream.messages accepted seq
  discarded : ∀ seq ∈ stream.discarded, seq ∈ stream.settled

namespace JetStream

variable {codec : WireCodec Text Work} {stream : JetStream Text} {accepted : List (Acceptance Text Work)}

theorem Sound.accepts (sound : stream.Sound codec.toCodec accepted)
    (rest : List (Acceptance Text Work)) : stream.Sound codec.toCodec (accepted ++ rest) where
  issued := sound.issued
  window := sound.window
  settled := fun seq member => (sound.settled seq member).grows List.prefix_rfl rest
  discarded := sound.discarded

theorem publish_prefix (stream : JetStream Text) (msgId : ID) (data : Text) :
    stream.messages <+: (stream.publish msgId data).1.messages := by
  unfold publish
  split
  · exact List.prefix_rfl
  · exact List.prefix_append _ _

theorem Sound.publish (lawful : codec.Lawful) (sound : stream.Sound codec.toCodec accepted)
    {event : Envelope Work} (issued : codec.Issued event) :
    (stream.publish event.id (codec.bytes event)).1.Sound codec.toCodec accepted ∧
      (stream.publish event.id (codec.bytes event)).2.Sound codec.toCodec
        (stream.publish event.id (codec.bytes event)).1.messages event := by
  have grown := publish_prefix stream event.id (codec.bytes event)
  unfold JetStream.publish at grown ⊢
  split
  · rename_i seq known
    exact ⟨sound, sound.window event.id seq known⟩
  · rename_i unknown
    simp only [unknown] at grown
    refine ⟨⟨?_, ?_, ?_, sound.discarded⟩, ?_⟩
    · intro message member
      rcases List.mem_append.mp member with before | new
      · exact sound.issued message before
      · exact ⟨event, issued, List.mem_singleton.mp new⟩
    · intro id seq known
      dsimp only at known
      by_cases same : id = event.id
      · subst same
        rw [Function.update_self] at known
        cases known
        exact ⟨⟨event.id, codec.bytes event⟩, List.getElem?_concat_length, rfl⟩
      · rw [Function.update_of_ne same] at known
        obtain ⟨message, there, named⟩ := sound.window id seq known
        exact ⟨message, getElem?_grows grown there, named⟩
    · intro seq member
      have taken := (sound.settled seq member).grows grown []
      rwa [List.append_nil] at taken
    · exact ⟨⟨event.id, codec.bytes event⟩, List.mem_concat_self, rfl, lawful.same event issued⟩

theorem Sound.forget (sound : stream.Sound codec.toCodec accepted) (msgId : ID) :
    (stream.forget msgId).Sound codec.toCodec accepted where
  issued := sound.issued
  window := by
    intro id seq known
    simp only [JetStream.forget] at known
    by_cases same : id = msgId
    · subst same
      rw [Function.update_self] at known
      cases known
    · rw [Function.update_of_ne same] at known
      exact sound.window id seq known
  settled := sound.settled
  discarded := sound.discarded

theorem Sound.settle (sound : stream.Sound codec.toCodec accepted) {seq : Nat}
    (taken : Taken codec.toCodec stream.messages accepted seq) :
    (stream.settle seq).Sound codec.toCodec accepted where
  issued := sound.issued
  window := sound.window
  settled := by
    intro other member
    rcases List.mem_append.mp member with before | new
    · exact sound.settled other before
    · rw [List.mem_singleton.mp new]
      exact taken
  discarded := fun other member => List.mem_append_left _ (sound.discarded other member)

/-- Discarding is only for what was settled. -/
theorem Sound.discard (sound : stream.Sound codec.toCodec accepted) (seq : Nat) :
    (stream.discard seq).Sound codec.toCodec accepted := by
  unfold JetStream.discard
  split
  · rename_i settled
    refine ⟨sound.issued, sound.window, sound.settled, ?_⟩
    intro other member
    rcases List.mem_append.mp member with before | new
    · exact sound.discarded other before
    · rw [List.mem_singleton.mp new]
      exact settled
  · exact sound

theorem held_some {seq : Nat} {message : Message Text} (there : stream.held seq = some message) :
    stream.messages[seq]? = some message := by
  unfold held at there
  split at there
  · cases there
  · exact there

end JetStream

/-- A transfer works on a message of the stream, from its decoding on on its event. -/
def Transfer.Sound (codec : Codec Text Work) (messages : List (Message Text)) :
    Transfer Text Work → Prop
  | .received seq data => ∃ message, messages[seq]? = some message ∧ message.data = data
  | .publishing seq event => codec.Issued event ∧ messages[seq]? = some ⟨event.id, codec.bytes event⟩
  | .accepting seq event _ => codec.Issued event ∧ messages[seq]? = some ⟨event.id, codec.bytes event⟩
  | _ => True

/-- A reply is no +TERM, and a +ACK only for what the inbox took. -/
structure Transferring (codec : Codec Text Work) (transfers : Nat → Transfer Text Work)
    (replies : List (Nat × Settlement)) (messages : List (Message Text))
    (accepted : List (Acceptance Text Work)) : Prop where
  transfers : ∀ turn, (transfers turn).Sound codec messages
  replies : ∀ seq settlement, (seq, settlement) ∈ replies → settlement ≠ .term ∧
    (settlement = .ack → Taken codec messages accepted seq)

namespace Transferring

variable {codec : Codec Text Work} {transfers : Nat → Transfer Text Work}
  {replies : List (Nat × Settlement)} {messages more : List (Message Text)}
  {accepted : List (Acceptance Text Work)}

theorem grows (transferring : Transferring codec transfers replies messages accepted)
    (grown : messages <+: more) (rest : List (Acceptance Text Work)) :
    Transferring codec transfers replies more (accepted ++ rest) where
  transfers := by
    intro turn
    have sound := transferring.transfers turn
    cases standing : transfers turn with
    | received seq data =>
      rw [standing] at sound
      obtain ⟨message, there, same⟩ := sound
      exact ⟨message, getElem?_grows grown there, same⟩
    | publishing seq event =>
      rw [standing] at sound
      exact ⟨sound.1, getElem?_grows grown sound.2⟩
    | accepting seq event consumers =>
      rw [standing] at sound
      exact ⟨sound.1, getElem?_grows grown sound.2⟩
    | _ => exact trivial
  replies := by
    intro seq settlement member
    obtain ⟨kept, taken⟩ := transferring.replies seq settlement member
    exact ⟨kept, fun same => (taken same).grows grown rest⟩

theorem move (transferring : Transferring codec transfers replies messages accepted) (turn : Nat)
    {transfer : Transfer Text Work} (sound : transfer.Sound codec messages) :
    Transferring codec (Function.update transfers turn transfer) replies messages accepted where
  transfers := by
    intro other
    by_cases same : other = turn
    · subst same
      rw [Function.update_self]
      exact sound
    · rw [Function.update_of_ne same]
      exact transferring.transfers other
  replies := transferring.replies

theorem reply (transferring : Transferring codec transfers replies messages accepted) (turn : Nat)
    {seq : Nat} {settlement : Settlement} (result : Except Failure Bool) (kept : settlement ≠ .term)
    (taken : settlement = .ack → Taken codec messages accepted seq) :
    Transferring codec (Function.update transfers turn (.replying result))
      (replies ++ [(seq, settlement)]) messages accepted where
  transfers := by
    have replying : (Transfer.replying result : Transfer Text Work).Sound codec messages := trivial
    exact (transferring.move turn replying).transfers
  replies := by
    intro other given member
    rcases List.mem_append.mp member with before | new
    · exact transferring.replies other given before
    · cases List.mem_singleton.mp new
      exact ⟨kept, taken⟩

end Transferring

end N2FNest.Events
