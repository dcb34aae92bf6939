import N2FNest.Events.Custody
import N2FNest.Events.RoundTrip
import N2FNest.Events.SameJson
import N2FNest.Shared.Jsonb

/-! No committed event is lost on its way to the inbox, in any run of writers,
dispatches, transfers, workers, requeues, prunes, crashes and clock advances. -/

namespace N2FNest.Events

open Lib Shared

variable {Text Work : Type}

/-- Where an event is. -/
inductive Kept (codec : Codec Text Work) (state : Pipeline Text Work) (event : Envelope Work) : Prop where
  | queued (row : DeliveryRow ID Text) (found : state.outbox.rows.get event.id = some row)
      (waiting : row.state = .pending ∨ row.state = .dead) (carries : codec.Carries row.body event)
  | streamed (seq : Nat) (message : Message Text) (held : state.stream.held seq = some message)
      (named : message.msgId = event.id) (carries : codec.Carries message.data event)
  | delivered (acceptance : Acceptance Text Work) (member : acceptance ∈ state.accepted)
      (holds : acceptance.Holds codec event.id (codec.bytes event))

/-- A committed event has its row, or the stream got it. -/
def Accounted (codec : Codec Text Work) (outbox : OutboxState Text Work)
    (messages : List (Message Text)) (committed : List (Envelope Work)) : Prop :=
  ∀ event ∈ committed,
    (∃ row, outbox.rows.get event.id = some row ∧ codec.Carries row.body event) ∨
      Streamed codec messages event.id (codec.bytes event)

/-- What was streamed for a text is streamed for every event the text carries. -/
theorem Streamed.carried {codec : WireCodec Text Work} (lawful : codec.Lawful)
    {messages : List (Message Text)} {msgId : ID} {text : Text} {event : Envelope Work}
    (streamed : Streamed codec.toCodec messages msgId text) (carries : codec.Carries text event) :
    Streamed codec.toCodec messages msgId (codec.bytes event) := by
  obtain ⟨message, member, named, same⟩ := streamed
  exact ⟨message, member, named, lawful.trans _ _ _ same carries⟩

/-- An accepted event has a row that carries it. -/
theorem enqueue_carries {codec : WireCodec Text Work} (lawful : codec.Lawful)
    {rows next : OutboxRows Text} {event : Envelope Work} {now : Int} (issued : codec.Issued event)
    (done : enqueue codec.toCodec rows event now = .ok next) :
    ∃ row, next.get event.id = some row ∧ codec.Carries row.body event := by
  simp only [enqueue] at done
  split at done
  · split at done
    · cases done
      exact ⟨_, Table.get_set_same _ _, lawful.same event issued⟩
    · rename_i held found
      split at done
      · rename_i equal
        cases done
        exact ⟨held, found, equal⟩
      · cases done
  · cases done

/-- A step deletes a row or leaves its body. -/
theorem OutboxState.step_bodies (policy : RetryPolicy) (codec : Codec Text Work)
    (outbox : OutboxState Text Work) (label : OutboxLabel Work) {key : ID} {row : DeliveryRow ID Text}
    (held : outbox.rows.get key = some row) :
    (outbox.step policy codec label).rows.get key = none ∨
      ∃ after, (outbox.step policy codec label).rows.get key = some after ∧ after.body = row.body := by
  by_cases queues : ∃ event, label = .enqueue event
  · obtain ⟨event, rfl⟩ := queues
    right
    rw [OutboxState.step, OutboxState.enqueue]
    split
    · exact ⟨row, held, rfl⟩
    · rename_i rows done
      rcases enqueue_inv done with ⟨rfl, -⟩ | ⟨missing, rfl⟩
      · exact ⟨row, held, rfl⟩
      · have other : event.id ≠ key := by
          rintro rfl
          cases missing.symm.trans held
        have kept : (outbox.rows.set ⟨.fresh outbox.now, event.id, codec.bytes event⟩).get key =
            some row := (Table.get_set_other outbox.rows other).trans held
        exact ⟨row, kept, rfl⟩
  · have descends := OutboxState.step_descends policy codec outbox
      fun event same => queues ⟨event, same⟩
    cases found : (outbox.step policy codec label).rows.get key with
    | none => exact .inl rfl
    | some after =>
      obtain ⟨before, stood, body, -⟩ := descends key after found
      rw [held] at stood
      cases stood
      exact .inr ⟨after, rfl, body⟩

namespace Accounted

variable {policy : RetryPolicy} {codec : WireCodec Text Work} {outbox : OutboxState Text Work}
  {messages more : List (Message Text)} {committed : List (Envelope Work)}

theorem grows (accounted : Accounted codec.toCodec outbox messages committed)
    (grown : messages <+: more) : Accounted codec.toCodec outbox more committed :=
  fun event member => (accounted event member).imp_right fun streamed => streamed.grows grown

/-- A row goes only when the stream got what it carried. -/
theorem step (lawful : codec.Lawful) (posted : Posted codec.toCodec outbox messages)
    (accounted : Accounted codec.toCodec outbox messages committed) (label : OutboxLabel Work) :
    Accounted codec.toCodec (outbox.step policy codec.toCodec label) messages committed := by
  intro event member
  rcases accounted event member with ⟨row, found, carries⟩ | streamed
  · rcases OutboxState.step_bodies policy codec.toCodec outbox label found with gone | ⟨after, kept, body⟩
    · have settled := (OutboxState.step_rows policy codec.toCodec outbox label).deleted found gone
      exact .inr ((posted.settled event.id row found settled).carried lawful carries)
    · refine .inl ⟨after, kept, ?_⟩
      rw [body]
      exact carries
  · exact .inr streamed

end Accounted

/-- What holds of every run. -/
structure Custody (codec : Codec Text Work) (state : Pipeline Text Work) : Prop where
  posted : Posted codec state.outbox state.stream.messages
  calling : Calling codec state.outbox state.calls state.stream.messages
  stream : state.stream.Sound codec state.accepted
  transferring : Transferring codec state.transfers state.replies state.stream.messages state.accepted
  accounted : Accounted codec state.outbox state.stream.messages state.committed

namespace Custody

variable {policy : RetryPolicy} {codec : WireCodec Text Work} {state : Pipeline Text Work}

theorem initial (codec : Codec Text Work) (now : Int) :
    Custody codec (Pipeline.initial now : Pipeline Text Work) where
  posted :=
    { rows := by intro key row found; cases found
      leases := by intro token lease holds; cases holds
      leased := by intro token lease row holds; cases holds
      settled := by intro key row found; cases found
      acking := by intro token lease acking; cases acking }
  calling :=
    { unsent := fun _ _ => rfl
      called := by intro token lease call publishing; cases publishing
      sound := by intro token call known; cases known }
  stream :=
    { issued := by intro message member; cases member
      window := by intro id seq known; cases known
      settled := by intro seq member; cases member
      discarded := by intro seq member; cases member }
  transferring :=
    { transfers := fun _ => trivial
      replies := by intro seq settlement member; cases member }
  accounted := by intro event member; cases member

private theorem dispatch (lawful : codec.Lawful) (custody : Custody codec.toCodec state)
    {label : OutboxLabel Work}
    (grounded : Grounded codec.toCodec state.outbox state.stream.messages label) :
    Custody codec.toCodec (state.dispatch policy codec.toCodec label) where
  posted := custody.posted.step lawful grounded
  calling := custody.calling.step label
  stream := custody.stream
  transferring := custody.transferring
  accounted := custody.accounted.step lawful custody.posted label

private theorem enqueue (lawful : codec.Lawful) (custody : Custody codec.toCodec state)
    {event : Envelope Work} (issued : codec.Issued event) :
    Custody codec.toCodec (state.enqueue policy codec.toCodec event) := by
  unfold Pipeline.enqueue
  split
  · exact custody
  · rename_i rows done
    have queued : Custody codec.toCodec (state.dispatch policy codec.toCodec (.enqueue event)) :=
      custody.dispatch lawful issued
    refine ⟨queued.posted, queued.calling, queued.stream, queued.transferring, ?_⟩
    intro other member
    rcases List.mem_append.mp member with before | new
    · exact queued.accounted other before
    · obtain rfl := List.mem_singleton.mp new
      left
      have written : (state.outbox.step policy codec.toCodec (.enqueue other)).rows = rows := by
        simp only [OutboxState.step, OutboxState.enqueue, done]
      obtain ⟨row, found, carries⟩ := enqueue_carries lawful issued done
      exact ⟨row, (congrArg (fun rows => rows.get other.id) written).trans found, carries⟩

private theorem send (custody : Custody codec.toCodec state) (token : ID) :
    Custody codec.toCodec (state.send token) := by
  unfold Pipeline.send
  split
  · rename_i lease publishing
    obtain ⟨-, issued⟩ := custody.posted.leases token lease (by rw [publishing]; rfl)
    refine ⟨custody.posted, ?_, custody.stream, custody.transferring, custody.accounted⟩
    apply custody.calling.update
    · simp [publishing]
    · intro held same
      cases publishing.symm.trans same
      rfl
    · exact issued
    · simp
  · exact custody

private theorem arrive (lawful : codec.Lawful) (custody : Custody codec.toCodec state) (token : ID) :
    Custody codec.toCodec (state.arrive codec.toCodec token) := by
  unfold Pipeline.arrive
  split
  · exact custody
  · rename_i call known
    obtain ⟨issued, -⟩ := custody.calling.sound token call known
    have grown := state.stream.publish_prefix call.event.id (codec.bytes call.event)
    obtain ⟨stream, reply⟩ := custody.stream.publish lawful issued
    refine ⟨custody.posted.grows grown, ?_, stream, ?_, custody.accounted.grows grown⟩
    · exact (custody.calling.grows grown).answered known reply
    · simpa only [List.append_nil] using custody.transferring.grows grown []

private theorem fetch (custody : Custody codec.toCodec state) (token : ID) :
    Custody codec.toCodec (state.fetch token) := by
  unfold Pipeline.fetch
  split
  · rename_i event seq known
    refine ⟨custody.posted, ?_, custody.stream, custody.transferring, custody.accounted⟩
    apply custody.calling.answered known
    intro text same
    obtain ⟨message, held, data⟩ := Option.map_eq_some_iff.mp same
    obtain ⟨-, sound⟩ := custody.calling.sound token _ known
    obtain ⟨original, there, named⟩ := sound _ rfl
    have found := JetStream.held_some held
    rw [there] at found
    cases found
    exact ⟨message, List.mem_of_getElem? there, named, data⟩
  · exact custody

private theorem answer (lawful : codec.Lawful) (custody : Custody codec.toCodec state) (token : ID) :
    Custody codec.toCodec (state.answer policy codec token) := by
  unfold Pipeline.answer
  split
  · rename_i event reply known
    split
    · rename_i receipt given
      apply custody.dispatch lawful
      intro lease publishing acking
      have own : event = lease.event := custody.calling.called token lease _ publishing known
      obtain ⟨-, sound⟩ := custody.calling.sound token _ known
      cases receipt with
      | error problem => cases acking
      | ok receipt =>
        rw [← own]
        exact Broker.receipt_ok lawful (sound reply rfl) given
    · exact custody
  · exact custody

private theorem move (custody : Custody codec.toCodec state) (turn : Nat)
    {transfer : Transfer Text Work} (sound : transfer.Sound codec.toCodec state.stream.messages) :
    Custody codec.toCodec (state.move turn transfer) :=
  ⟨custody.posted, custody.calling, custody.stream, custody.transferring.move turn sound,
    custody.accounted⟩

private theorem reply (custody : Custody codec.toCodec state) (turn seq : Nat)
    (outcome : Settlement × Except Failure Bool) (kept : outcome.1 ≠ .term)
    (taken : outcome.1 = .ack → Taken codec.toCodec state.stream.messages state.accepted seq) :
    Custody codec.toCodec (state.reply turn seq outcome) :=
  ⟨custody.posted, custody.calling, custody.stream,
    custody.transferring.reply turn outcome.2 kept taken, custody.accounted⟩

private theorem next (custody : Custody codec.toCodec state) (turn seq : Nat) :
    Custody codec.toCodec (state.next turn seq) := by
  unfold Pipeline.next
  split
  · split
    · exact custody.move turn trivial
    · rename_i message held
      exact custody.move turn ⟨message, JetStream.held_some held, rfl⟩
  · exact custody

/-- Every message of the stream decodes, to the event it was published for. -/
private theorem decode (lawful : codec.Lawful) (custody : Custody codec.toCodec state) (turn : Nat) :
    Custody codec.toCodec (state.decode codec.toCodec turn) := by
  unfold Pipeline.decode
  split
  · rename_i seq data receiving
    have sound := custody.transferring.transfers turn
    rw [receiving] at sound
    obtain ⟨message, there, rfl⟩ := sound
    obtain ⟨event, issued, rfl⟩ := custody.stream.issued message (List.mem_of_getElem? there)
    rw [lawful.again event issued]
    exact custody.move turn ⟨issued, there⟩
  · exact custody

private theorem publish (custody : Custody codec.toCodec state) (turn process : Nat) :
    Custody codec.toCodec (state.publish turn process) := by
  unfold Pipeline.publish
  split
  · rename_i seq event publishing
    have sound := custody.transferring.transfers turn
    rw [publishing] at sound
    exact custody.move turn sound
  · exact custody

/-- A failed publication is only refused. -/
private theorem refuse (custody : Custody codec.toCodec state) (turn seq : Nat)
    (event : Envelope Work) (error : Failure) :
    Custody codec.toCodec (state.reply turn seq (Broker.settlement event (.error error))) :=
  custody.reply turn seq _ (by simp [Broker.settlement]) (by simp [Broker.settlement])

private theorem settlement_kept (event : Envelope Work) (receipt : Except Failure Receipt) :
    (Broker.settlement event receipt).1 ≠ .term := by
  unfold Broker.settlement
  split
  · simp
  · split <;> simp

private theorem accept (lawful : codec.Lawful) (custody : Custody codec.toCodec state) (turn : Nat)
    (commit : Commit) : Custody codec.toCodec (state.accept codec.toCodec turn commit) := by
  unfold Pipeline.accept
  split
  · rename_i seq event consumers accepting
    have sound := custody.transferring.transfers turn
    rw [accepting] at sound
    obtain ⟨issued, there⟩ := sound
    split
    · exact custody.refuse turn seq event _
    · exact custody.refuse turn seq event _
    · rename_i mailbox receipts _ done
      have holds := accept_holds lawful issued done
      have taken : Taken codec.toCodec state.stream.messages
          (state.accepted ++ [⟨event, consumers, mailbox, receipts⟩]) seq :=
        ⟨_, there, _, List.mem_concat_self, holds⟩
      have transferring := custody.transferring.grows List.prefix_rfl
        [⟨event, consumers, mailbox, receipts⟩]
      refine ⟨custody.posted, custody.calling, custody.stream.accepts _, ?_, custody.accounted⟩
      exact transferring.reply turn _ (settlement_kept event _) fun _ => taken
  · exact custody

private theorem settle (custody : Custody codec.toCodec state) (index : Nat) :
    Custody codec.toCodec (state.settle index) := by
  unfold Pipeline.settle
  split
  · rename_i seq found
    obtain ⟨-, taken⟩ := custody.transferring.replies seq .ack (List.mem_of_getElem? found)
    exact ⟨custody.posted, custody.calling, custody.stream.settle (taken rfl), custody.transferring,
      custody.accounted⟩
  · rename_i seq found
    obtain ⟨kept, -⟩ := custody.transferring.replies seq .term (List.mem_of_getElem? found)
    exact absurd rfl kept
  · exact custody

theorem step (lawful : codec.Lawful) (custody : Custody codec.toCodec state)
    (label : PipelineLabel codec.toCodec) : Custody codec.toCodec (state.step policy codec label) := by
  cases label with
  | enqueue event issued => exact custody.enqueue lawful issued
  | claim token => exact custody.dispatch lawful trivial
  | send token => exact custody.send token
  | arrive token => exact custody.arrive lawful token
  | fetch token => exact custody.fetch token
  | answer token => exact custody.answer lawful token
  | fail token error =>
    apply custody.dispatch lawful
    intro lease publishing acking
    cases acking
  | finish token draw => exact custody.dispatch lawful trivial
  | crash token => exact custody.dispatch lawful trivial
  | requeue eventId => exact custody.dispatch lawful trivial
  | prune retentionMs limit scan => exact custody.dispatch lawful trivial
  | tick elapsed => exact custody.dispatch lawful trivial
  | forget msgId =>
    exact ⟨custody.posted, custody.calling, custody.stream.forget msgId, custody.transferring,
      custody.accounted⟩
  | discard seq =>
    have same : (state.stream.discard seq).messages = state.stream.messages := by
      unfold JetStream.discard
      split <;> rfl
    refine ⟨?_, ?_, custody.stream.discard seq, ?_, ?_⟩ <;>
      simp only [Pipeline.step, same]
    · exact custody.posted
    · exact custody.calling
    · exact custody.transferring
    · exact custody.accounted
  | subscribe process consumer =>
    rw [Pipeline.step]
    split
    · exact ⟨custody.posted, custody.calling, custody.stream, custody.transferring, custody.accounted⟩
    · exact custody
  | unsubscribe process consumer =>
    exact ⟨custody.posted, custody.calling, custody.stream, custody.transferring, custody.accounted⟩
  | restart process =>
    exact ⟨custody.posted, custody.calling, custody.stream, custody.transferring, custody.accounted⟩
  | next turn seq => exact custody.next turn seq
  | decode turn => exact custody.decode lawful turn
  | publish turn process => exact custody.publish turn process
  | accept turn commit => exact custody.accept lawful turn commit
  | settle index => exact custody.settle index
  | confirm turn =>
    rw [Pipeline.step]
    unfold Pipeline.confirm
    split
    · exact custody.move turn trivial
    · exact custody
  | halt turn error => exact custody.move turn trivial
  | inbox label =>
    exact ⟨custody.posted, custody.calling, custody.stream, custody.transferring, custody.accounted⟩

theorem run (lawful : codec.Lawful) (policy : RetryPolicy) (now : Int)
    (labels : List (PipelineLabel codec.toCodec)) :
    Custody codec.toCodec (Lib.run (Pipeline.step policy codec) (.initial now) labels) :=
  run_invariant (Custody codec.toCodec) (fun _ label custody => custody.step lawful label)
    (.initial codec.toCodec now) labels

/-- What the invariant says of a committed event. -/
theorem kept (lawful : codec.Lawful) (custody : Custody codec.toCodec state) {event : Envelope Work}
    (member : event ∈ state.committed) : Kept codec.toCodec state event := by
  have streamed : Streamed codec.toCodec state.stream.messages event.id (codec.bytes event) →
      Kept codec.toCodec state event := by
    rintro ⟨message, present, named, same⟩
    obtain ⟨seq, there⟩ := List.mem_iff_getElem?.mp present
    by_cases gone : seq ∈ state.stream.discarded
    · obtain ⟨other, found, acceptance, accepted, ⟨row, stored, equal⟩, receipts⟩ :=
        custody.stream.settled seq (custody.stream.discarded seq gone)
      rw [there] at found
      cases found
      rw [named] at stored receipts
      exact .delivered acceptance accepted ⟨⟨row, stored, lawful.trans _ _ _ equal same⟩, receipts⟩
    · exact .streamed seq message ((if_neg gone).trans there) named same
  rcases custody.accounted event member with ⟨row, found, carries⟩ | sent
  · cases standing : row.state with
    | pending => exact .queued row found (.inl standing) carries
    | dead => exact .queued row found (.inr standing) carries
    | settled =>
      exact streamed ((custody.posted.settled event.id row found standing).carried lawful carries)
  · exact streamed sent

end Custody

/-- What was committed stays on record. -/
theorem Pipeline.step_committed (policy : RetryPolicy) (codec : WireCodec Text Work)
    (state : Pipeline Text Work) (label : PipelineLabel codec.toCodec) :
    state.committed <+: (state.step policy codec label).committed := by
  cases label with
  | enqueue event issued =>
    rw [step]
    unfold Pipeline.enqueue
    split
    · exact List.prefix_rfl
    · exact List.prefix_append _ _
  | send token => rw [step]; unfold send; split <;> exact List.prefix_rfl
  | arrive token => rw [step]; unfold arrive; split <;> exact List.prefix_rfl
  | fetch token => rw [step]; unfold fetch; split <;> exact List.prefix_rfl
  | answer token =>
    rw [step]
    unfold answer
    split
    · split <;> exact List.prefix_rfl
    · exact List.prefix_rfl
  | subscribe process consumer => rw [step]; split <;> exact List.prefix_rfl
  | next turn seq =>
    rw [step]
    unfold Pipeline.next
    split
    · split <;> exact List.prefix_rfl
    · exact List.prefix_rfl
  | decode turn =>
    rw [step]
    unfold Pipeline.decode
    split
    · split <;> exact List.prefix_rfl
    · exact List.prefix_rfl
  | publish turn process => rw [step]; unfold Pipeline.publish; split <;> exact List.prefix_rfl
  | accept turn commit =>
    rw [step]
    unfold Pipeline.accept
    split
    · split <;> exact List.prefix_rfl
    · exact List.prefix_rfl
  | settle index => rw [step]; unfold settle; split <;> exact List.prefix_rfl
  | confirm turn => rw [step]; unfold confirm; split <;> exact List.prefix_rfl
  | _ => exact List.prefix_rfl

theorem Pipeline.run_committed (policy : RetryPolicy) (codec : WireCodec Text Work)
    {state : Pipeline Text Work} (labels : List (PipelineLabel codec.toCodec)) {event : Envelope Work}
    (member : event ∈ state.committed) :
    event ∈ (run (Pipeline.step policy codec) state labels).committed :=
  run_invariant (fun state => event ∈ state.committed)
    (fun state label before => (step_committed policy codec state label).subset before) member labels

open Json Provenance

/-- The work of an envelope, with the bytes that carry the envelope. -/
structure Carried where
  work : WorkContext
  raw : List UInt8

def WireEnvelope.enveloped (event : WireEnvelope) : Envelope Carried where
  id := event.id
  type := event.type
  occurredAtMs := event.occurredAtMs
  work := ⟨event.work, event.raw⟩
  payload := event.payload.toOption.getD []
  subject := event.subject
  tenant := event.tenant

/-- The comparison of two texts' JSON. The texts compared are all written by
`JSON.stringify`, so their numbers are equal for `jsonb` and for the publisher alike. -/
def sameText (left right : List UInt8) : Option Bool :=
  match jsonOf left, jsonOf right with
  | some left, some right => some (sameJson left right)
  | _, _ => none

/-- `octet_length(envelope) <= 65536 AND jsonb_typeof(envelope::jsonb) = 'object'`. -/
def admittedText (raw : List UInt8) : Bool :=
  raw.length ≤ 65536 && match jsonOf raw with
    | some (.object fields) => storable (.object fields)
    | _ => false

def wireCodec : WireCodec (List UInt8) Carried where
  bytes := fun event => event.work.raw
  decode := fun raw => (WireEnvelope.decode raw).map WireEnvelope.enveloped
  admitted := admittedText
  sameJsonb := fun left right => sameText left right == some true
  deepEqual := sameText

private theorem wire_issued {event : Envelope Carried} (issued : wireCodec.Issued event) :
    ∃ raw held, WireEnvelope.decode raw = .ok held ∧ event = held.enveloped := by
  obtain ⟨raw, decoded⟩ := issued
  cases read : WireEnvelope.decode raw with
  | error problem => simp [wireCodec, read, Except.map] at decoded
  | ok held =>
    simp only [wireCodec, read, Except.map, Except.ok.injEq] at decoded
    exact ⟨raw, held, read, decoded.symm⟩

private theorem sameText_iff {left right : List UInt8} : sameText left right = some true ↔
    ∃ first second, jsonOf left = some first ∧ jsonOf right = some second ∧
      sameJson first second = true := by
  unfold sameText
  cases jsonOf left <;> cases jsonOf right <;> simp

theorem wireCodec_lawful : wireCodec.Lawful where
  again := by
    intro event issued
    obtain ⟨raw, held, decoded, rfl⟩ := wire_issued issued
    obtain ⟨-, again, -⟩ := decode_again decoded
    exact congrArg (Except.map WireEnvelope.enveloped) again
  same := by
    intro event issued
    obtain ⟨raw, held, decoded, rfl⟩ := wire_issued issued
    obtain ⟨-, fields, written, tidy, -⟩ := decode_written decoded
    apply beq_iff_eq.mpr
    exact sameText_iff.mpr ⟨_, _, written, written, sameJson_refl _ tidy⟩
  trans := by
    intro first second third left right
    obtain ⟨one, two, read, reads, equal⟩ := sameText_iff.mp (beq_iff_eq.mp left)
    obtain ⟨other, three, again, last, equals⟩ := sameText_iff.mp (beq_iff_eq.mp right)
    rw [reads] at again
    cases again
    apply beq_iff_eq.mpr
    exact sameText_iff.mpr ⟨_, _, read, last, sameJson_trans _ _ _ equal equals⟩
  deep := fun first second equal => beq_iff_eq.mpr equal

/-- No event of a committed writer is lost on its way to the inbox: in every later state
its row waits in the outbox, or JetStream holds it, or the inbox took it with a receipt for
every consumer subscribed then. No message of the stream is ever terminated. -/
theorem no_event_lost (policy : RetryPolicy) (now : Int)
    (earlier later : List (PipelineLabel wireCodec.toCodec)) :
    (∀ event ∈ (run (Pipeline.step policy wireCodec) (.initial now) earlier).committed,
      Kept wireCodec.toCodec
        (run (Pipeline.step policy wireCodec) (.initial now) (earlier ++ later)) event) ∧
    ∀ reply ∈ (run (Pipeline.step policy wireCodec) (.initial now) (earlier ++ later)).replies,
      reply.2 ≠ .term := by
  have custody := Custody.run wireCodec_lawful policy now (earlier ++ later)
  refine ⟨?_, fun reply member => (custody.transferring.replies reply.1 reply.2 member).1⟩
  intro event member
  refine custody.kept wireCodec_lawful ?_
  rw [run_append]
  exact Pipeline.run_committed policy wireCodec later member

private def uploadWork : WorkContext where
  snapshot :=
    { workId := ID.numbered 1, correlationId := ID.numbered 1, correlationSource := .local
      causation := none, origin := some .request, operation := ⟨js "documents.upload", rfl⟩
      attribution := ⟨some ⟨.user, some (js "ada"), rfl⟩, none, some (js "acme"), rfl⟩
      depth := some 0, replay := none }
  valid := rfl

private def uploadFields : JsObject :=
  createFields (ID.numbered 2).text (js "document.uploaded.v1") (.ofNat 1000) uploadWork
    (.object [(js "title", .string (js "Notes"))]) none none

/-- The whole way, after which neither the outbox nor the stream has the event. -/
private def uploadSteps (token : ID) : List (PipelineLabel wireCodec.toCodec) :=
  [.claim token, .send token, .arrive token, .answer token, .finish token ⟨0, by decide⟩,
    .tick 1, .prune 0 1 fun _ => true, .subscribe 0 (js "audit"), .next 0 0, .decode 0,
    .publish 0 0, .accept 0 .answered, .settle 0, .discard 0]

theorem uploaded_event_kept : ∃ event issued,
    event ∈ (run (Pipeline.step DEFAULT_RETRY wireCodec) (.initial 0)
      [.enqueue event issued]).committed ∧
    Kept wireCodec.toCodec (run (Pipeline.step DEFAULT_RETRY wireCodec) (.initial 0)
      ([.enqueue event issued] ++ uploadSteps (ID.numbered 3))) event := by
  have size : (bytesOf uploadFields).length ≤ 65536 := by decide +kernel
  have decodes : (decodeFields (cleanFields uploadFields)).toOption.any (fun event =>
      storable (.object (cleanFields (event.normalized (cleanFields uploadFields))))) = true := by
    decide +kernel
  cases decoded : decodeFields (cleanFields uploadFields) with
  | error problem =>
    rw [decoded] at decodes
    cases decodes
  | ok event =>
    have takes : storable (.object (cleanFields (event.normalized (cleanFields uploadFields)))) =
        true := by
      rw [decoded] at decodes
      exact decodes
    have parts := decodeFields_ok.mp decoded
    have made := create_ok.mpr ⟨size, parts⟩
    have issued : wireCodec.Issued event.enveloped :=
      ⟨_, congrArg (Except.map WireEnvelope.enveloped) made⟩
    have unique : ((cleanFields uploadFields).map Prod.fst).Nodup := by decide +kernel
    obtain ⟨written, -⟩ := parts.written unique fun field member =>
      (cleanFields_clean _ field member).1
    have admitted : wireCodec.admitted event.raw = true := by
      show admittedText event.raw = true
      rw [admittedText, decide_eq_true parts.size, written]
      exact takes
    have member : event.enveloped ∈ (run (Pipeline.step DEFAULT_RETRY wireCodec) (.initial 0)
        [.enqueue event.enveloped issued]).committed := by
      have queued : enqueue wireCodec.toCodec Table.empty event.enveloped 0 =
          .ok (Table.empty.set ⟨.fresh 0, event.id, event.raw⟩) := if_pos admitted
      have committed : (Pipeline.enqueue DEFAULT_RETRY wireCodec.toCodec (.initial 0)
          event.enveloped).committed = [event.enveloped] := by
        simp only [Pipeline.enqueue, Pipeline.initial, OutboxState.initial, queued]
        rfl
      show event.enveloped ∈ (Pipeline.enqueue DEFAULT_RETRY wireCodec.toCodec (.initial 0)
        event.enveloped).committed
      rw [committed]
      exact List.mem_singleton_self _
    exact ⟨event.enveloped, issued, member, (no_event_lost DEFAULT_RETRY 0 _ _).1 _ member⟩

end N2FNest.Events
