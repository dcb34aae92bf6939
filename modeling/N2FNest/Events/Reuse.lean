import N2FNest.Events.Passage
import N2FNest.Events.Refusal

/-! When an event id is reused, for the process-local inbox, for the tables of
PostgreSQL and for JetStream's publisher. They compare the bytes, the `jsonb` and the
parsed values of two envelopes. -/

namespace N2FNest.Events

open Lib Shared Json Provenance

/-- One of each store. -/
structure Stores where
  memory : InMemoryInbox Carried
  outbox : OutboxRows (List UInt8)
  mailbox : MailboxRows (List UInt8)
  receipts : MailboxReceipts
  stream : JetStream (List UInt8)

def idReused : Failure := conflict "id_reused"

namespace Stores

/-- Every store got the event, and the stream still has it in its duplicate window. -/
structure Holds (stores : Stores) (event : WireEnvelope) : Prop where
  memory : stores.memory.events.get event.id = some event.enveloped
  outbox : ∃ row, stores.outbox.get event.id = some row ∧ row.body = event.raw
  mailbox : ∃ row, stores.mailbox.get event.id = some row ∧ row.envelope = event.raw
  stream : ∃ seq message, stores.stream.window event.id = some seq ∧
    stores.stream.held seq = some message ∧ message.data = event.raw

/-- A whole `Broker.publish`, with the second request that a duplicate takes. -/
def publish (stores : Stores) (event : WireEnvelope) : Option (Except Failure Receipt) :=
  match (stores.stream.publish event.id event.raw).2 with
  | .duplicate seq => Broker.receipt wireCodec event.enveloped
    (.original ((stores.stream.held seq).map fun message => message.data))
  | reply => Broker.receipt wireCodec event.enveloped reply

/-- `InMemoryInbox.accept` reports the id as reused. -/
def MemoryRefuses (stores : Stores) (event : WireEnvelope) (consumers : List JsString)
    (clock : JsString → JsNumber) : Prop :=
  (stores.memory.accept wireCodec.bytes event.enveloped consumers clock).1 = .error idReused

def OutboxRefuses (stores : Stores) (event : WireEnvelope) (now : Int) : Prop :=
  enqueue wireCodec.toCodec stores.outbox event.enveloped now = .error idReused

def MailboxRefuses (stores : Stores) (event : WireEnvelope) (consumers : List JsString)
    (now : Int) : Prop :=
  Mailbox.accept wireCodec.toCodec stores.mailbox stores.receipts event.enveloped consumers now =
    .error idReused

def StreamRefuses (stores : Stores) (event : WireEnvelope) : Prop :=
  stores.publish event = some (.error idReused)

/-- The inbox in memory reports a reused id exactly when each of the others does. -/
structure Agree (stores : Stores) (event : WireEnvelope) (consumers : List JsString)
    (clock : JsString → JsNumber) (now : Int) : Prop where
  outbox : stores.MemoryRefuses event consumers clock ↔ stores.OutboxRefuses event now
  mailbox : stores.MemoryRefuses event consumers clock ↔ stores.MailboxRefuses event consumers now
  stream : stores.MemoryRefuses event consumers clock ↔ stores.StreamRefuses event

end Stores

private theorem openReceipts_not_reused {inbox : InMemoryInbox Carried} {eventId : ID}
    {clock : JsString → JsNumber} {consumers : List JsString} :
    (InMemoryInbox.openReceipts eventId clock consumers inbox).1 ≠ .error idReused := by
  intro reused
  by_cases valid : ∀ consumer ∈ consumers, isConsumer consumer = true
  · rw [InMemoryInbox.openReceipts_ok valid] at reused
    cases reused
  · push Not at valid
    obtain ⟨consumer, named, invalid⟩ := valid
    rw [InMemoryInbox.openReceipts_invalid named (by simpa using invalid)] at reused
    exact absurd (Except.error.inj reused) (by decide)

section Held

variable {stores : Stores} {first second : WireEnvelope}

theorem Stores.Holds.memory_refuses (held : stores.Holds first) (same : first.id = second.id)
    (consumers : List JsString) (clock : JsString → JsNumber) :
    stores.MemoryRefuses second consumers clock ↔ first.raw ≠ second.raw := by
  have reuses : stores.memory.reuses wireCodec.bytes second.enveloped =
      decide (first.raw ≠ second.raw) := by
    unfold InMemoryInbox.reuses
    rw [show second.enveloped.id = first.id from same.symm, held.memory]
    rfl
  unfold Stores.MemoryRefuses
  by_cases bytes : first.raw = second.raw
  · rw [InMemoryInbox.accept_opening (by rw [reuses]; simpa using bytes)]
    exact ⟨fun reused => absurd reused openReceipts_not_reused, fun other => absurd bytes other⟩
  · rw [InMemoryInbox.accept_reused (by rw [reuses]; simpa using bytes)]
    exact ⟨fun _ => bytes, fun _ => rfl⟩

/-- What the tables make of a second envelope. -/
private theorem table_refuses {α : Type} (done : α) {event other : WireEnvelope} :
    (if admittedText event.raw then
        if wireCodec.sameJsonb other.raw event.raw then Except.ok done else .error (conflict "id_reused")
      else .error databaseFailed) = .error idReused ↔
      admittedText event.raw = true ∧ sameText other.raw event.raw ≠ some true := by
  have distinct : databaseFailed ≠ idReused := by decide
  by_cases admitted : admittedText event.raw = true
  · by_cases equal : sameText other.raw event.raw = some true
    · simp [admitted, wireCodec, equal]
    · simp [admitted, wireCodec, equal, idReused]
  · simp [admitted, distinct]

theorem Stores.Holds.outbox_refuses (held : stores.Holds first) (same : first.id = second.id)
    (now : Int) :
    stores.OutboxRefuses second now ↔
      admittedText second.raw = true ∧ sameText first.raw second.raw ≠ some true := by
  obtain ⟨row, found, body⟩ := held.outbox
  rw [← table_refuses stores.outbox]
  unfold Stores.OutboxRefuses enqueue
  rw [show second.enveloped.id = first.id from same.symm, found, ← body]
  rfl

theorem Stores.Holds.mailbox_refuses (held : stores.Holds first) (same : first.id = second.id)
    (consumers : List JsString) (now : Int) :
    stores.MailboxRefuses second consumers now ↔
      consumers.all isConsumer = true ∧ admittedText second.raw = true ∧
        sameText first.raw second.raw ≠ some true := by
  obtain ⟨row, found, body⟩ := held.mailbox
  have insert_refuses : Mailbox.insert wireCodec.toCodec stores.mailbox second.enveloped =
      .error idReused ↔ admittedText second.raw = true ∧ sameText first.raw second.raw ≠ some true := by
    rw [← table_refuses stores.mailbox]
    unfold Mailbox.insert
    rw [show second.enveloped.id = first.id from same.symm, found, ← body]
    rfl
  rw [← insert_refuses]
  unfold Stores.MailboxRefuses Mailbox.accept
  by_cases valid : consumers.all isConsumer = true
  · rw [if_pos valid]
    cases Mailbox.insert wireCodec.toCodec stores.mailbox second.enveloped with
    | error problem => simp [valid, bind, Except.bind]
    | ok stored => simp [bind, Except.bind, pure, Except.pure]
  · have distinct : invalidConsumer ≠ idReused := by decide
    simp [valid, distinct, throw, throwThe, MonadExceptOf.throw]

theorem Stores.Holds.stream_refuses (held : stores.Holds first) (same : first.id = second.id) :
    stores.StreamRefuses second ↔ sameText first.raw second.raw = some false := by
  obtain ⟨seq, message, known, stored, data⟩ := held.stream
  have duplicate : (stores.stream.publish second.id second.raw).2 = .duplicate seq := by
    rw [JetStream.publish, ← same, known]
  have answered : stores.publish second =
      Broker.receipt wireCodec second.enveloped (.original (some first.raw)) := by
    rw [Stores.publish, duplicate, ← data]
    simp only [stored, Option.map_some]
  have compared : wireCodec.deepEqual first.raw (wireCodec.bytes second.enveloped) =
      sameText first.raw second.raw := rfl
  unfold Stores.StreamRefuses
  rw [answered, Broker.receipt, compared]
  cases sameText first.raw second.raw with
  | none =>
    have distinct : jetStreamUnavailable ≠ idReused := by decide
    simp [distinct]
  | some equal => cases equal <;> simp [idReused]

end Held

/-- Texts of decoded envelopes are JSON, and the same text is the same JSON. -/
private theorem sameText_decoded {raw other : List UInt8} {first second : WireEnvelope}
    (decoded : WireEnvelope.decode raw = .ok first) (offered : WireEnvelope.decode other = .ok second) :
    sameText first.raw second.raw ≠ none ∧
      (first.raw = second.raw → sameText first.raw second.raw = some true) := by
  obtain ⟨-, fields, written, tidy, -⟩ := decode_written decoded
  obtain ⟨-, others, spelled, -⟩ := decode_written offered
  constructor
  · simp [sameText, written, spelled]
  · intro bytes
    rw [← bytes, sameText, written]
    exact congrArg some (sameJson_refl _ tidy)

/-- With the first envelope stored, the stores agree on the second exactly where both have the
same bytes, or differ as JSON while PostgreSQL can take the second and every consumer's name. -/
theorem reused_alike_iff {stores : Stores} {raw other : List UInt8} {first second : WireEnvelope}
    (decoded : WireEnvelope.decode raw = .ok first)
    (offered : WireEnvelope.decode other = .ok second) (same : first.id = second.id)
    (held : stores.Holds first) (consumers : List JsString) (clock : JsString → JsNumber)
    (now : Int) :
    stores.Agree second consumers clock now ↔
      first.raw = second.raw ∨ (sameText first.raw second.raw = some false ∧
        admittedText second.raw = true ∧ consumers.all isConsumer = true) := by
  obtain ⟨compared, identical⟩ := sameText_decoded decoded offered
  have outbox := held.outbox_refuses same now
  have mailbox := held.mailbox_refuses same consumers now
  have memory := held.memory_refuses same consumers clock
  have stream := held.stream_refuses same
  constructor
  · intro agree
    by_cases bytes : first.raw = second.raw
    · exact .inl bytes
    · have refused := memory.mpr bytes
      obtain ⟨valid, admitted, -⟩ := mailbox.mp (agree.mailbox.mp refused)
      exact .inr ⟨stream.mp (agree.stream.mp refused), admitted, valid⟩
  · rintro (bytes | ⟨different, admitted, valid⟩)
    · have equal := identical bytes
      have taken : ¬ stores.MemoryRefuses second consumers clock := fun refused =>
        memory.mp refused bytes
      refine ⟨iff_of_false taken ?_, iff_of_false taken ?_, iff_of_false taken ?_⟩
      · exact fun refused => (outbox.mp refused).2 equal
      · exact fun refused => (mailbox.mp refused).2.2 equal
      · intro refused
        cases equal.symm.trans (stream.mp refused)
    · have bytes : first.raw ≠ second.raw := fun bytes => by cases different.symm.trans (identical bytes)
      have refused := memory.mpr bytes
      have other : sameText first.raw second.raw ≠ some true := by simp [different]
      exact ⟨iff_of_true refused (outbox.mpr ⟨admitted, other⟩),
        iff_of_true refused (mailbox.mpr ⟨valid, admitted, other⟩),
        iff_of_true refused (stream.mpr different)⟩

private def countWork : WorkContext where
  snapshot :=
    { workId := ID.numbered 1, correlationId := ID.numbered 1, correlationSource := .local
      causation := none, origin := some .request, operation := ⟨js "counts.record", rfl⟩
      attribution := ⟨some ⟨.user, some (js "lin"), rfl⟩, none, none, rfl⟩
      depth := some 0, replay := none }
  valid := rfl

private def countFields (payload : JsObject) : JsObject :=
  createFields (ID.numbered 2).text (js "count.recorded.v1") (.ofNat 1000) countWork
    (.object payload) none none

/-- The envelope of a payload. -/
private def counted (payload : JsObject) : Except Failure WireEnvelope :=
  WireEnvelope.create (ID.numbered 2).text (js "count.recorded.v1") (.ofNat 1000) countWork
    (.object payload) none none

private def forth : JsObject := [(js "a", .number (.ofNat 1)), (js "b", .number (.ofNat 2))]

private def back : JsObject := [(js "b", .number (.ofNat 2)), (js "a", .number (.ofNat 1))]

private def more : JsObject := [(js "a", .number (.ofNat 1)), (js "b", .number (.ofNat 3))]

/-- What evaluating two envelopes tells: their bytes differ, their ids are the same, and how
the values of their texts compare. -/
private def pairChecks (payload other : JsObject) (equal : Bool) : Bool :=
  match decodeFields (cleanFields (countFields payload)), decodeFields (cleanFields (countFields other)) with
  | .ok first, .ok second =>
    first.raw ≠ second.raw && first.id = second.id &&
      storable (.object (cleanFields (second.normalized (cleanFields (countFields other))))) &&
      sameJson (.object (cleanFields (first.normalized (cleanFields (countFields payload)))))
        (.object (cleanFields (second.normalized (cleanFields (countFields other))))) == equal
  | _, _ => false

private theorem counted_written {payload : JsObject} {event : WireEnvelope}
    (size : (bytesOf (countFields payload)).length ≤ 65536)
    (unique : ((cleanFields (countFields payload)).map Prod.fst).Nodup)
    (decoded : decodeFields (cleanFields (countFields payload)) = .ok event) :
    counted payload = .ok event ∧
      jsonOf event.raw = some (.object (cleanFields (event.normalized
        (cleanFields (countFields payload))))) ∧ event.raw.length ≤ 65536 := by
  have parts := decodeFields_ok.mp decoded
  obtain ⟨written, -⟩ := parts.written unique fun field member =>
    (cleanFields_clean _ field member).1
  exact ⟨create_ok.mpr ⟨size, parts⟩, written, parts.size⟩

private theorem counted_pair (payload other : JsObject) (equal : Bool)
    (sizes : (bytesOf (countFields payload)).length ≤ 65536 ∧
      (bytesOf (countFields other)).length ≤ 65536)
    (unique : ((cleanFields (countFields payload)).map Prod.fst).Nodup ∧
      ((cleanFields (countFields other)).map Prod.fst).Nodup)
    (checks : pairChecks payload other equal = true) :
    ∃ first second, counted payload = .ok first ∧ counted other = .ok second ∧
      first.raw ≠ second.raw ∧ first.id = second.id ∧ admittedText second.raw = true ∧
      sameText first.raw second.raw = some equal := by
  unfold pairChecks at checks
  cases decoded : decodeFields (cleanFields (countFields payload)) with
  | error problem => simp [decoded] at checks
  | ok first =>
    cases offered : decodeFields (cleanFields (countFields other)) with
    | error problem => simp [decoded, offered] at checks
    | ok second =>
      simp only [decoded, offered, Bool.and_eq_true, decide_eq_true_eq, beq_iff_eq] at checks
      obtain ⟨⟨⟨bytes, same⟩, taken⟩, compared⟩ := checks
      obtain ⟨made, written, -⟩ := counted_written sizes.1 unique.1 decoded
      obtain ⟨makes, spelled, size⟩ := counted_written sizes.2 unique.2 offered
      refine ⟨first, second, made, makes, bytes, same, ?_, ?_⟩
      · rw [admittedText, decide_eq_true size, spelled]
        exact taken
      · rw [sameText, written, spelled]
        exact congrArg some compared

/-- Stores that got one event. -/
private def stored (event : WireEnvelope) : Stores where
  memory := { (InMemoryInbox.initial : InMemoryInbox Carried) with events := Table.empty.set event.enveloped }
  outbox := Table.empty.set ⟨.fresh 0, event.id, event.raw⟩
  mailbox := Table.empty.set ⟨event.id, event.raw⟩
  receipts := Table.empty
  stream := (JetStream.empty.publish event.id event.raw).1

private theorem stored_holds (event : WireEnvelope) : (stored event).Holds event where
  memory := Table.get_set_same Table.empty event.enveloped
  outbox := ⟨_, Table.get_set_same Table.empty _, rfl⟩
  mailbox := ⟨_, Table.get_set_same Table.empty _, rfl⟩
  stream := ⟨0, ⟨event.id, event.raw⟩, by simp [stored, JetStream.publish, JetStream.empty], rfl, rfl⟩

/-- One JSON value with its payload's keys in another order: only the inbox in memory
refuses it. -/
theorem reordered_payload_refused : ∃ (first second : WireEnvelope) (stores : Stores),
    counted forth = .ok first ∧ counted back = .ok second ∧ first.id = second.id ∧
    sameText first.raw second.raw = some true ∧ stores.Holds first ∧
    stores.MemoryRefuses second [js "audit"] (fun _ => .finite 0) ∧
    ¬ stores.OutboxRefuses second 0 ∧ ¬ stores.MailboxRefuses second [js "audit"] 0 ∧
    ¬ stores.StreamRefuses second := by
  obtain ⟨first, second, made, makes, bytes, same, -, equal⟩ :=
    counted_pair forth back true (by decide +kernel) (by decide +kernel) (by decide +kernel)
  have held := stored_holds first
  refine ⟨first, second, stored first, made, makes, same, equal, held, ?_, ?_, ?_, ?_⟩
  · exact (held.memory_refuses same _ _).mpr bytes
  · exact fun refused => ((held.outbox_refuses same _).mp refused).2 equal
  · exact fun refused => ((held.mailbox_refuses same _ _).mp refused).2.2 equal
  · intro refused
    cases equal.symm.trans ((held.stream_refuses same).mp refused)

/-- Another value under the id is refused by all of them. -/
theorem changed_payload_refused : ∃ (first second : WireEnvelope) (stores : Stores),
    counted forth = .ok first ∧ counted more = .ok second ∧
    stores.MemoryRefuses second [js "audit"] (fun _ => .finite 0) ∧
    stores.OutboxRefuses second 0 ∧ stores.MailboxRefuses second [js "audit"] 0 ∧
    stores.StreamRefuses second := by
  obtain ⟨first, second, made, makes, bytes, same, admitted, different⟩ :=
    counted_pair forth more false (by decide +kernel) (by decide +kernel) (by decide +kernel)
  have held := stored_holds first
  have agree := (reused_alike_iff made makes same held [js "audit"] (fun _ => .finite 0) 0).mpr
    (.inr ⟨different, admitted, by decide⟩)
  have refused := (held.memory_refuses same [js "audit"] fun _ => .finite 0).mpr bytes
  exact ⟨first, second, stored first, made, makes, refused, agree.outbox.mp refused,
    agree.mailbox.mp refused, agree.stream.mp refused⟩

end N2FNest.Events
