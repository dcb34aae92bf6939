import N2FNest.Events.InboxLedger

/-! What a refused `accept` leaves in the process-local inbox. The durable inbox
checks every name before its transaction; this one checks a name when it comes to
open that consumer's receipt. -/

namespace N2FNest.Events

open Lib Shared

variable {Bytes Work : Type}

namespace InMemoryInbox

variable {inbox : InMemoryInbox Work}

/-- The same events byte for byte, the same receipts and the same next sequence. -/
structure Unchanged (bytes : Envelope Work → Bytes) (before after : InMemoryInbox Work) : Prop where
  events : ∀ id, (after.events.get id).map bytes = (before.events.get id).map bytes
  receipts : after.receipts = before.receipts
  sequence : after.sequence = before.sequence

/-- Other bytes are stored under the event's id. -/
def reuses [DecidableEq Bytes] (bytes : Envelope Work → Bytes) (inbox : InMemoryInbox Work)
    (event : Envelope Work) : Bool :=
  (inbox.events.get event.id).any fun existing => bytes existing ≠ bytes event

/-- The event is stored, and every consumer named before the first invalid name
has its receipt already. -/
def Settled (bytes : Envelope Work → Bytes) (inbox : InMemoryInbox Work) (event : Envelope Work)
    (consumers : List JsString) : Prop :=
  (inbox.events.get event.id).map bytes = some (bytes event) ∧
    ∀ consumer ∈ consumers.takeWhile isConsumer, inbox.find consumer event.id ≠ none

private theorem withReceipts_held {consumer : JsString} {eventId : ID} {receipt : InboxReceipt}
    (held : inbox.find consumer eventId = some receipt) :
    inbox.withReceipts consumer (inbox.receiptsFor consumer) = inbox := by
  unfold find receiptsFor at held
  unfold withReceipts receiptsFor
  cases present : inbox.receipts.get consumer with
  | none => simp [present] at held
  | some entry =>
    have named := Table.key_of_get present
    subst named
    simp only [Table.set_present present]

/-- Consumers that have their receipts gain nothing. -/
private theorem openReceipts_held {eventId : ID} {clock : JsString → JsNumber}
    {consumers : List JsString}
    (held : ∀ consumer ∈ consumers.takeWhile isConsumer, inbox.find consumer eventId ≠ none) :
    (openReceipts eventId clock consumers inbox).2 = inbox := by
  induction consumers with
  | nil => rfl
  | cons consumer rest ih =>
    unfold openReceipts
    split
    · rename_i valid
      rw [List.takeWhile_cons, if_pos valid, List.forall_mem_cons] at held
      obtain ⟨receipt, found⟩ := Option.ne_none_iff_exists'.mp held.1
      rw [openReceipt_held found, withReceipts_held found]
      exact ih held.2
    · rfl

/-- Every consumer named before the first invalid name ends with a receipt. -/
private theorem openReceipts_valid (inbox : InMemoryInbox Work) (eventId : ID)
    (clock : JsString → JsNumber) {consumers : List JsString} {consumer : JsString}
    (named : consumer ∈ consumers.takeWhile isConsumer) :
    (openReceipts eventId clock consumers inbox).2.find consumer eventId ≠ none := by
  induction consumers generalizing inbox with
  | nil => cases named
  | cons head rest ih =>
    by_cases valid : isConsumer head = true
    · rw [List.takeWhile_cons, if_pos valid] at named
      rw [openReceipts, if_pos valid]
      rcases List.mem_cons.mp named with same | later
      · subst same
        have opened : (inbox.openReceipt eventId consumer (clock consumer)).find consumer eventId
            ≠ none := by
          rw [find_openReceipt]
          cases held : inbox.find consumer eventId <;> simp
        obtain ⟨receipt, found⟩ := Option.ne_none_iff_exists'.mp opened
        rw [find_openReceipts_old found]
        simp
      · exact ih _ later
    · rw [List.takeWhile_cons, if_neg valid] at named
      cases named

theorem openReceipts_ok {eventId : ID} {clock : JsString → JsNumber}
    {consumers : List JsString} (valid : ∀ consumer ∈ consumers, isConsumer consumer = true) :
    (openReceipts eventId clock consumers inbox).1 = .ok () := by
  induction consumers generalizing inbox with
  | nil => rfl
  | cons consumer rest ih =>
    rw [List.forall_mem_cons] at valid
    rw [openReceipts, if_pos valid.1]
    exact ih valid.2

theorem openReceipts_invalid {eventId : ID} {clock : JsString → JsNumber}
    {consumers : List JsString} {consumer : JsString} (named : consumer ∈ consumers)
    (invalid : isConsumer consumer = false) :
    (openReceipts eventId clock consumers inbox).1 = .error invalidConsumer := by
  induction consumers generalizing inbox with
  | nil => cases named
  | cons head rest ih =>
    unfold openReceipts
    split
    · rename_i valid
      rcases List.mem_cons.mp named with same | later
      · rw [← same, invalid] at valid
        cases valid
      · exact ih later
    · rfl

section Accept

variable [DecidableEq Bytes] {bytes : Envelope Work → Bytes} {event : Envelope Work}
  {consumers : List JsString} {clock : JsString → JsNumber}

theorem accept_reused (reused : inbox.reuses bytes event = true) :
    inbox.accept bytes event consumers clock = (.error (conflict "id_reused"), inbox) :=
  if_pos reused

theorem accept_opening (fresh : inbox.reuses bytes event = false) :
    inbox.accept bytes event consumers clock =
      openReceipts event.id clock consumers { inbox with events := inbox.events.set event } :=
  if_neg (ne_true_of_eq_false fresh)

/-- Under an event that is stored, consumers with receipts leave the inbox as it was. -/
private theorem accept_settled (fresh : inbox.reuses bytes event = false)
    (settled : inbox.Settled bytes event consumers) :
    inbox.Unchanged bytes (inbox.accept bytes event consumers clock).2 := by
  have same : (inbox.accept bytes event consumers clock).2 =
      { inbox with events := inbox.events.set event } := by
    rw [accept_opening fresh]
    exact openReceipts_held settled.2
  rw [same]
  refine ⟨fun id => ?_, rfl, rfl⟩
  show ((inbox.events.set event).get id).map bytes = _
  rw [Table.get_set]
  split
  · rename_i here
    rw [← here, settled.1]
    rfl
  · rfl

/-- An unchanged inbox had the event and every receipt `accept` came to. -/
private theorem settled_of_unchanged (fresh : inbox.reuses bytes event = false)
    (unchanged : inbox.Unchanged bytes (inbox.accept bytes event consumers clock).2) :
    inbox.Settled bytes event consumers := by
  rw [accept_opening fresh] at unchanged
  constructor
  · rw [← unchanged.events event.id, events_openReceipts, Table.get_set_same]
    rfl
  · intro consumer named
    have opened := openReceipts_valid { inbox with events := inbox.events.set event } event.id
      clock named
    unfold find receiptsFor at opened ⊢
    rw [unchanged.receipts] at opened
    exact opened

/-- A refused `accept` changes nothing exactly where the id is reused, no name is
invalid, or what comes before the first invalid name was all done already. -/
theorem refused_accept_unchanged_iff (bytes : Envelope Work → Bytes) (inbox : InMemoryInbox Work)
    (event : Envelope Work) (consumers : List JsString) (clock : JsString → JsNumber) :
    (∀ error, (inbox.accept bytes event consumers clock).1 = .error error →
        inbox.Unchanged bytes (inbox.accept bytes event consumers clock).2) ↔
      inbox.reuses bytes event = true ∨ (∀ consumer ∈ consumers, isConsumer consumer = true) ∨
        inbox.Settled bytes event consumers := by
  cases reused : inbox.reuses bytes event with
  | true =>
    refine ⟨fun _ => .inl rfl, fun _ error _ => ?_⟩
    rw [accept_reused reused]
    exact ⟨fun _ => rfl, rfl, rfl⟩
  | false =>
    constructor
    · intro unchanged
      by_cases valid : ∀ consumer ∈ consumers, isConsumer consumer = true
      · exact .inr (.inl valid)
      · push Not at valid
        obtain ⟨consumer, named, invalid⟩ := valid
        have refused : (inbox.accept bytes event consumers clock).1 = .error invalidConsumer := by
          rw [accept_opening reused]
          exact openReceipts_invalid named (by simpa using invalid)
        exact .inr (.inr (settled_of_unchanged reused (unchanged _ refused)))
    · rintro (wrong | valid | settled) error refused
      · cases wrong
      · rw [accept_opening reused, openReceipts_ok valid] at refused
        cases refused
      · exact accept_settled reused settled

/-- The event is recorded and the name before the empty one has a delivery. -/
theorem refused_accept_opens_receipt :
    let event : Envelope Unit := ⟨.numbered 1, js "job.created.v1", 0, (), [], none, none⟩
    let accepted := initial.accept (fun event : Envelope Unit => event.type) event
      [js "jobs", js ""] fun _ => .finite 5
    accepted.1 = .error invalidConsumer ∧ accepted.2.events.get event.id = some event ∧
      accepted.2.find (js "jobs") event.id = some ⟨.numbered 1, .pending, 0, .finite 5, false, 0⟩ ∧
      ¬ initial.Unchanged (fun event : Envelope Unit => event.type) accepted.2 := by
  intro event accepted
  have refused : accepted.1 = .error invalidConsumer := by rfl
  have stored : accepted.2.events.get event.id = some event := by rfl
  have opened : accepted.2.find (js "jobs") event.id =
      some ⟨.numbered 1, .pending, 0, .finite 5, false, 0⟩ := by decide
  refine ⟨refused, stored, opened, fun unchanged => ?_⟩
  have missing := unchanged.events event.id
  rw [stored] at missing
  cases missing

end Accept

end InMemoryInbox

end N2FNest.Events
