import N2FNest.Events.Refusal

/-! Publishing to the process-local bus. A writer publishes its events one by one and stops
at the first that is refused; between two of them the bus goes on delivering. -/

namespace N2FNest.Events

open Lib Shared

variable {Bytes Work : Type}

/-- A name `subscribe` took. -/
abbrev Consumer := {name : JsString // isConsumer name = true}

def canceled : Failure := ⟨.canceled, "event publication canceled", none⟩

def InboxLabel.accepts : InboxLabel Work → Bool
  | .accept _ _ _ => true
  | _ => false

/-- What one call of `publish` meets: whether the signal is aborted by then, who is subscribed,
the readings of the clock, and what the bus does until the publisher goes on. -/
structure Publication (Work : Type) where
  aborted : Bool
  consumers : List Consumer
  clock : JsString → JsNumber
  meanwhile : List (InboxLabel Work)
  quiet : ∀ label ∈ meanwhile, label.accepts = false

namespace InboxState

variable [DecidableEq Bytes] (bytes : Envelope Work → Bytes) (policy : RetryPolicy)

/-- `EventDelivery.publish`. -/
def publish (state : InboxState Work) (event : Envelope Work) (publication : Publication Work) :
    Except Failure Unit × InboxState Work :=
  if publication.aborted then (.error canceled, state)
  else
    let consumers := publication.consumers.map Subtype.val
    ((state.inbox.accept bytes event consumers publication.clock).1,
      state.step bytes policy (.accept event consumers publication.clock))

/-- The loop over a writer's events. -/
def publishAll : List (Envelope Work) → (Nat → Publication Work) → InboxState Work →
    Except Failure Unit × InboxState Work
  | [], _, state => (.ok (), state)
  | event :: rest, publications, state =>
    let published := state.publish bytes policy event (publications 0)
    let after := (publications 0).meanwhile.foldl (step bytes policy) published.2
    match published.1 with
    | .error error => (.error error, after)
    | .ok () => publishAll rest (fun index => publications (index + 1)) after

end InboxState

/-- The bytes accepted under an id. -/
def accepted (bytes : Envelope Work → Bytes) (events : EventLog Work) (id : ID) : Option Bytes :=
  (events.get id).map bytes

/-- A publication is refused where the signal is aborted, or where other bytes are there under
the event's id once the earlier events are stored. -/
def Refused [DecidableEq Bytes] (bytes : Envelope Work → Bytes) (stored : EventLog Work)
    (events : List (Envelope Work)) (publications : Nat → Publication Work) (index : Nat) : Prop :=
  ∃ event, events[index]? = some event ∧ ((publications index).aborted = true ∨
    ∃ held, accepted bytes ((events.take index).foldl Table.set stored) event.id = some held ∧
      held ≠ bytes event)

/-- Every event before the first one that is refused is there already. -/
def Repeats [DecidableEq Bytes] (bytes : Envelope Work → Bytes) (stored : EventLog Work)
    (events : List (Envelope Work)) (publications : Nat → Publication Work) : Prop :=
  ∀ index, Refused bytes stored events publications index →
    (∀ earlier < index, ¬ Refused bytes stored events publications earlier) →
    ∀ event ∈ events.take index, stored.get event.id ≠ none

namespace InboxState

variable [DecidableEq Bytes] {bytes : Envelope Work → Bytes} {policy : RetryPolicy}

/-- Only `accept` stores an event. -/
theorem events_step {state : InboxState Work} {label : InboxLabel Work} (quiet : label.accepts = false) :
    (state.step bytes policy label).inbox.events = state.inbox.events := by
  cases label with
  | accept event consumers clock => cases quiet
  | claim consumer now =>
    have kept : (state.inbox.claim consumer now).2.events = state.inbox.events := by
      unfold InMemoryInbox.claim
      split
      · simp only
        split <;> rfl
      · rfl
    simp only [step]
    split
    · rename_i claimed
      rw [claimed] at kept
      exact kept
    · rename_i claimed
      rw [claimed] at kept
      exact kept
  | finish call result now draw =>
    simp only [step]
    split
    · unfold InMemoryInbox.finish
      split <;> rfl
    · rfl
  | requeue consumer eventId clock =>
    simp only [step, InMemoryInbox.requeue]
    split <;> rfl

private theorem events_meanwhile (bytes : Envelope Work → Bytes) (policy : RetryPolicy)
    {labels : List (InboxLabel Work)} (state : InboxState Work)
    (quiet : ∀ label ∈ labels, label.accepts = false) :
    (labels.foldl (step bytes policy) state).inbox.events = state.inbox.events := by
  induction labels generalizing state with
  | nil => rfl
  | cons label labels ih =>
    obtain ⟨first, rest⟩ := List.forall_mem_cons.mp quiet
    rw [List.foldl_cons, ih _ rest, events_step first]

/-- A publication stores its event, or is refused and leaves the events as they are. -/
theorem publish_cases (bytes : Envelope Work → Bytes) (policy : RetryPolicy) (state : InboxState Work)
    (event : Envelope Work) (publication : Publication Work) :
    let published := state.publish bytes policy event publication
    ((publication.aborted = true ∨ state.inbox.reuses bytes event = true) ∧
      (∃ error, published.1 = .error error) ∧ published.2.inbox.events = state.inbox.events) ∨
    (publication.aborted = false ∧ state.inbox.reuses bytes event = false ∧ published.1 = .ok () ∧
      published.2.inbox.events = state.inbox.events.set event) := by
  intro published
  have names : ∀ consumer ∈ publication.consumers.map Subtype.val, isConsumer consumer = true :=
    List.forall_mem_map.mpr fun consumer _ => consumer.property
  cases aborted : publication.aborted with
  | true =>
    left
    have refused : published = (.error canceled, state) := by simp only [published, publish, aborted, if_true]
    rw [refused]
    exact ⟨.inl rfl, ⟨_, rfl⟩, rfl⟩
  | false =>
    have called : published =
        ((state.inbox.accept bytes event (publication.consumers.map Subtype.val) publication.clock).1,
          state.step bytes policy
            (.accept event (publication.consumers.map Subtype.val) publication.clock)) := by
      simp only [published, publish, aborted, Bool.false_eq_true, if_false]
    rw [called]
    cases reused : state.inbox.reuses bytes event with
    | true =>
      left
      simp only [step, InMemoryInbox.accept_reused reused]
      exact ⟨.inr trivial, ⟨_, rfl⟩, trivial⟩
    | false =>
      right
      simp only [step, InMemoryInbox.accept_opening reused, InMemoryInbox.events_openReceipts]
      exact ⟨trivial, trivial, InMemoryInbox.openReceipts_ok names, trivial⟩

end InboxState

section Refused

variable [DecidableEq Bytes] {bytes : Envelope Work → Bytes} {policy : RetryPolicy}
  {stored : EventLog Work} {event : Envelope Work} {rest : List (Envelope Work)}
  {publications : Nat → Publication Work}

theorem refused_zero : Refused bytes stored (event :: rest) publications 0 ↔
    (publications 0).aborted = true ∨
      ∃ held, accepted bytes stored event.id = some held ∧ held ≠ bytes event := by
  simp [Refused]

private theorem reuses_iff {inbox : InMemoryInbox Work} : inbox.reuses bytes event = true ↔
    ∃ held, accepted bytes inbox.events event.id = some held ∧ held ≠ bytes event := by
  unfold InMemoryInbox.reuses accepted
  cases inbox.events.get event.id <;> simp

/-- A first event that is refused decides alone. -/
private theorem repeats_refused (refused : Refused bytes stored (event :: rest) publications 0) :
    Repeats bytes stored (event :: rest) publications := by
  intro index _ first other member
  cases index with
  | zero => cases member
  | succ index => exact absurd refused (first 0 (Nat.succ_pos index))

private theorem repeats_cons (passed : ¬ Refused bytes stored (event :: rest) publications 0) :
    Repeats bytes stored (event :: rest) publications ↔
      ∀ index, Refused bytes (stored.set event) rest (fun index => publications (index + 1)) index →
        (∀ earlier < index,
          ¬ Refused bytes (stored.set event) rest (fun index => publications (index + 1)) earlier) →
        stored.get event.id ≠ none ∧ ∀ other ∈ rest.take index, stored.get other.id ≠ none := by
  constructor
  · intro repeats index refused first
    refine List.forall_mem_cons.mp (repeats (index + 1) refused fun earlier before => ?_)
    cases earlier with
    | zero => exact passed
    | succ earlier => exact first earlier (Nat.lt_of_succ_lt_succ before)
  · intro repeats index refused first
    cases index with
    | zero => exact absurd refused passed
    | succ index =>
      refine List.forall_mem_cons.mpr (repeats index refused fun earlier before => ?_)
      exact first (earlier + 1) (Nat.succ_lt_succ before)

omit [DecidableEq Bytes] in
/-- An event that is stored already under its bytes adds nothing. -/
private theorem accepted_set_held (held : accepted bytes stored event.id = some (bytes event)) (id : ID) :
    accepted bytes (stored.set event) id = accepted bytes stored id := by
  unfold accepted at held ⊢
  rw [Table.get_set]
  split
  · rename_i same
    rw [← same, held]
    rfl
  · rfl

private theorem get_set_ne_none {id : ID} (present : stored.get event.id ≠ none) :
    (stored.set event).get id ≠ none ↔ stored.get id ≠ none := by
  rw [Table.get_set]
  split
  · rename_i same
    simp [← same, present]
  · rfl

namespace InboxState

/-- The first event is refused and the loop stops, or it is stored and the loop goes on. -/
private theorem publishAll_cons (bytes : Envelope Work → Bytes) (policy : RetryPolicy)
    (state : InboxState Work) (event : Envelope Work) (rest : List (Envelope Work))
    (publications : Nat → Publication Work) :
    let outcome := state.publishAll bytes policy (event :: rest) publications
    (Refused bytes state.inbox.events (event :: rest) publications 0 ∧
      (∃ error, outcome.1 = .error error) ∧ outcome.2.inbox.events = state.inbox.events) ∨
    (¬ Refused bytes state.inbox.events (event :: rest) publications 0 ∧
      ∃ after : InboxState Work, after.inbox.events = state.inbox.events.set event ∧
        outcome = after.publishAll bytes policy rest fun index => publications (index + 1)) := by
  intro outcome
  have kept := events_meanwhile bytes policy
    (state.publish bytes policy event (publications 0)).2 (publications 0).quiet
  rw [refused_zero, ← reuses_iff]
  rcases publish_cases bytes policy state event (publications 0) with
    ⟨cause, ⟨error, failed⟩, same⟩ | ⟨live, fresh, succeeded, stores⟩
  · left
    refine ⟨cause, ⟨error, ?_⟩, ?_⟩
    · simp only [outcome, publishAll, failed]
    · simp only [outcome, publishAll, failed]
      rw [kept, same]
  · right
    refine ⟨by simp [live, fresh], _, kept.trans stores, ?_⟩
    simp only [outcome, publishAll, succeeded]

private theorem publishAll_error_iff (bytes : Envelope Work → Bytes) (policy : RetryPolicy)
    (state : InboxState Work) (events : List (Envelope Work))
    (publications : Nat → Publication Work) :
    (∃ error, (state.publishAll bytes policy events publications).1 = .error error) ↔
      ∃ index, Refused bytes state.inbox.events events publications index := by
  induction events generalizing state publications with
  | nil => simp [publishAll, Refused]
  | cons event rest ih =>
    rcases publishAll_cons bytes policy state event rest publications with
      ⟨refused, failed, -⟩ | ⟨passed, after, stores, goes⟩
    · exact ⟨fun _ => ⟨0, refused⟩, fun _ => failed⟩
    · rw [goes, ih after, stores]
      constructor
      · rintro ⟨index, refused⟩
        exact ⟨index + 1, refused⟩
      · rintro ⟨index, refused⟩
        cases index with
        | zero => exact absurd refused passed
        | succ index => exact ⟨index, refused⟩

private theorem publishAll_keeps (state : InboxState Work) (events : List (Envelope Work))
    (publications : Nat → Publication Work) {id : ID} (present : state.inbox.events.get id ≠ none) :
    (state.publishAll bytes policy events publications).2.inbox.events.get id ≠ none := by
  induction events generalizing state publications with
  | nil => exact present
  | cons event rest ih =>
    rcases publishAll_cons bytes policy state event rest publications with
      ⟨-, -, same⟩ | ⟨-, after, stores, goes⟩
    · rw [same]
      exact present
    · rw [goes]
      apply ih
      rw [stores, Table.get_set]
      split
      · simp
      · exact present

/-- A failed loop leaves the accepted events as they were exactly where every event before the
first refused one was there already. -/
theorem publishAll_unchanged_iff (bytes : Envelope Work → Bytes) (policy : RetryPolicy)
    (state : InboxState Work) (events : List (Envelope Work))
    (publications : Nat → Publication Work) :
    ((∃ error, (state.publishAll bytes policy events publications).1 = .error error) →
      ∀ id, accepted bytes (state.publishAll bytes policy events publications).2.inbox.events id =
        accepted bytes state.inbox.events id) ↔
      Repeats bytes state.inbox.events events publications := by
  induction events generalizing state publications with
  | nil =>
    refine ⟨fun _ index refused => ?_, fun _ _ _ => rfl⟩
    obtain ⟨event, impossible, -⟩ := refused
    cases impossible
  | cons event rest ih =>
    rcases publishAll_cons bytes policy state event rest publications with
      ⟨refused, -, same⟩ | ⟨passed, after, stores, goes⟩
    · refine ⟨fun _ => repeats_refused refused, fun _ _ id => ?_⟩
      rw [same]
    · rw [goes, repeats_cons passed]
      by_cases present : state.inbox.events.get event.id = none
      · -- the event is new, so the rest must not fail
        have added : after.inbox.events.get event.id ≠ none := by
          rw [stores, Table.get_set_same]
          simp
        constructor
        · intro unchanged index refused _
          exfalso
          have failed := (publishAll_error_iff bytes policy after rest _).mpr ⟨index, stores ▸ refused⟩
          have lost := unchanged failed event.id
          rw [accepted, accepted, present, Option.map_none, Option.map_eq_none_iff] at lost
          exact publishAll_keeps after rest _ added lost
        · intro repeats failed
          exfalso
          obtain ⟨index, refused⟩ := (publishAll_error_iff bytes policy after rest _).mp failed
          rw [stores] at refused
          classical
          have least := Nat.find_spec ⟨index, refused⟩
          exact (repeats _ least fun earlier before => Nat.find_min ⟨index, refused⟩ before).1 present
      · -- the event was there under the same bytes
        have held : accepted bytes state.inbox.events event.id = some (bytes event) := by
          obtain ⟨other, found⟩ := Option.ne_none_iff_exists'.mp present
          rw [accepted, found, Option.map_some]
          by_contra differs
          refine passed (refused_zero.mpr (.inr ⟨bytes other, by rw [accepted, found]; rfl, ?_⟩))
          exact fun same => differs (congrArg some same)
        have known := ih after fun index => publications (index + 1)
        simp only [Repeats, stores, accepted_set_held held, get_set_ne_none present] at known
        rw [known]
        simp only [ne_eq, present, not_false_eq_true, true_and]

end InboxState

end Refused

end N2FNest.Events
