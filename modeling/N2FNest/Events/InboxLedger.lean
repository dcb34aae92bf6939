import N2FNest.Events.InMemoryInbox

/-! What the process-local inbox keeps to in every interleaving of its calls. -/

namespace N2FNest.Events

open Lib Shared

variable {Bytes Work : Type}

namespace InMemoryInbox

variable {inbox : InMemoryInbox Work}

@[simp] theorem receiptsFor_with (consumer other : JsString) (receipts : InboxReceipts) :
    (inbox.withReceipts consumer receipts).receiptsFor other =
      if consumer = other then receipts else inbox.receiptsFor other := by
  unfold receiptsFor withReceipts
  rw [Table.get_set]
  by_cases same : consumer = other
  · rw [if_pos same, if_pos same]
  · rw [if_neg same, if_neg same]

theorem find_with (consumer other : JsString) (receipts : InboxReceipts) (eventId : ID) :
    (inbox.withReceipts consumer receipts).find other eventId =
      if consumer = other then receipts.get eventId else inbox.find other eventId := by
  unfold find
  rw [receiptsFor_with]
  split <;> rfl

/-- Opening a map that holds nothing new changes no receipt. -/
theorem find_with_same (consumer other : JsString) (eventId : ID) :
    (inbox.withReceipts consumer (inbox.receiptsFor consumer)).find other eventId =
      inbox.find other eventId := by
  rw [find_with]
  split
  · rename_i same
    rw [← same, find]
  · rfl

/-- Writing one receipt back leaves every other receipt alone. -/
theorem find_set (consumer other : JsString) (receipt : InboxReceipt) (eventId : ID) :
    (inbox.withReceipts consumer ((inbox.receiptsFor consumer).set receipt)).find other eventId =
      if (consumer, receipt.eventId) = (other, eventId) then some receipt
      else inbox.find other eventId := by
  rw [find_with, Table.get_set]
  by_cases named : consumer = other
  · subst named
    by_cases same : receipt.eventId = eventId
    · rw [if_pos rfl, if_pos same, if_pos (by rw [same])]
    · rw [if_pos rfl, if_neg same, if_neg (by simp [same])]
      rfl
  · rw [if_neg named, if_neg (by simp [named])]

theorem eventId_of_find {consumer : JsString} {eventId : ID} {receipt : InboxReceipt}
    (found : inbox.find consumer eventId = some receipt) : receipt.eventId = eventId :=
  Table.key_of_get found

theorem openReceipt_held {consumer : JsString} {eventId : ID} {receipt : InboxReceipt}
    (held : inbox.find consumer eventId = some receipt) (now : JsNumber) :
    inbox.openReceipt eventId consumer now =
      inbox.withReceipts consumer (inbox.receiptsFor consumer) := by
  unfold find at held
  simp only [openReceipt, held]

theorem openReceipt_missing {consumer : JsString} {eventId : ID}
    (missing : inbox.find consumer eventId = none) (now : JsNumber) :
    inbox.openReceipt eventId consumer now =
      { inbox.withReceipts consumer ((inbox.receiptsFor consumer).set
          ⟨eventId, .pending, 0, now, false, inbox.sequence⟩) with
        sequence := inbox.sequence + 1 } := by
  unfold find at missing
  simp only [openReceipt, missing]

/-- `accept` opens a receipt where there is none and touches no other. -/
theorem find_openReceipt (eventId other : ID) (consumer sought : JsString) (now : JsNumber) :
    (inbox.openReceipt eventId consumer now).find sought other =
      if (consumer, eventId) = (sought, other) ∧ inbox.find consumer eventId = none then
        some ⟨eventId, .pending, 0, now, false, inbox.sequence⟩
      else inbox.find sought other := by
  cases held : inbox.find consumer eventId with
  | some receipt => rw [openReceipt_held held, find_with_same, if_neg (by simp)]
  | none =>
    rw [openReceipt_missing held]
    show (inbox.withReceipts consumer _).find sought other = _
    rw [find_set]
    by_cases same : (consumer, eventId) = (sought, other)
    · rw [if_pos same, if_pos ⟨same, rfl⟩]
    · rw [if_neg same, if_neg (fun both => same both.1)]

theorem events_openReceipt (eventId : ID) (consumer : JsString) (now : JsNumber) :
    (inbox.openReceipt eventId consumer now).events = inbox.events := by
  cases held : inbox.find consumer eventId with
  | some receipt =>
    rw [openReceipt_held held]
    rfl
  | none =>
    rw [openReceipt_missing held]
    rfl

theorem receiptsFor_openReceipt (eventId : ID) {consumer sought : JsString} (now : JsNumber)
    (other : consumer ≠ sought) :
    (inbox.openReceipt eventId consumer now).receiptsFor sought = inbox.receiptsFor sought := by
  cases held : inbox.find consumer eventId with
  | some receipt => rw [openReceipt_held held, receiptsFor_with, if_neg other]
  | none =>
    rw [openReceipt_missing held]
    show (inbox.withReceipts consumer _).receiptsFor sought = _
    rw [receiptsFor_with, if_neg other]

theorem events_openReceipts (eventId : ID) (clock : JsString → JsNumber) (consumers : List JsString)
    (inbox : InMemoryInbox Work) :
    (openReceipts eventId clock consumers inbox).2.events = inbox.events := by
  induction consumers generalizing inbox with
  | nil => rfl
  | cons consumer rest ih =>
    unfold openReceipts
    split
    · rw [ih, events_openReceipt]
    · rfl

/-- A receipt after the loop of `accept` was there before it or is fresh. -/
theorem find_openReceipts {eventId other : ID} {clock : JsString → JsNumber}
    {consumers : List JsString} {sought : JsString} {receipt : InboxReceipt}
    (found : (openReceipts eventId clock consumers inbox).2.find sought other = some receipt) :
    inbox.find sought other = some receipt ∨
      (inbox.find sought other = none ∧ sought ∈ consumers ∧ other = eventId ∧
        receipt.state = .pending ∧ receipt.attempts = 0 ∧ receipt.leased = false) := by
  induction consumers generalizing inbox with
  | nil => exact .inl found
  | cons consumer rest ih =>
    unfold openReceipts at found
    split at found
    · rcases ih found with before | ⟨missing, member, same, fresh⟩
      · rw [find_openReceipt] at before
        split at before
        · rename_i opening
          obtain ⟨same, missing⟩ := opening
          cases same
          cases before
          exact .inr ⟨missing, List.mem_cons_self, rfl, rfl, rfl, rfl⟩
        · exact .inl before
      · rw [find_openReceipt] at missing
        split at missing
        · cases missing
        · exact .inr ⟨missing, List.mem_cons_of_mem consumer member, same, fresh⟩
    · exact .inl found

/-- The loop of `accept` keeps every receipt there is. -/
theorem find_openReceipts_old {eventId other : ID} {clock : JsString → JsNumber}
    {consumers : List JsString} {sought : JsString} {receipt : InboxReceipt}
    (held : inbox.find sought other = some receipt) :
    (openReceipts eventId clock consumers inbox).2.find sought other = some receipt := by
  induction consumers generalizing inbox with
  | nil => exact held
  | cons consumer rest ih =>
    unfold openReceipts
    split
    · apply ih
      rw [find_openReceipt, if_neg]
      · exact held
      · rintro ⟨same, missing⟩
        cases same
        rw [held] at missing
        cases missing
    · exact held

/-- Where the loop of `accept` ends well, every consumer it named has a receipt. -/
theorem openReceipts_complete {eventId : ID} {clock : JsString → JsNumber}
    {consumers : List JsString} {consumer : JsString}
    (accepted : (openReceipts eventId clock consumers inbox).1 = .ok ()) (named : consumer ∈ consumers) :
    (openReceipts eventId clock consumers inbox).2.find consumer eventId ≠ none := by
  induction consumers generalizing inbox with
  | nil => cases named
  | cons head rest ih =>
    unfold openReceipts at accepted ⊢
    split at accepted
    · rename_i valid
      rw [if_pos valid]
      rcases List.mem_cons.mp named with same | later
      · subst same
        have opened : ∃ receipt, (inbox.openReceipt eventId consumer (clock consumer)).find consumer
            eventId = some receipt := by
          rw [find_openReceipt]
          cases held : inbox.find consumer eventId with
          | none => exact ⟨_, if_pos ⟨rfl, rfl⟩⟩
          | some receipt => exact ⟨receipt, if_neg (by simp)⟩
        obtain ⟨receipt, opened⟩ := opened
        rw [find_openReceipts_old opened]
        simp
      · exact ih accepted later
    · cases accepted

theorem receiptsFor_openReceipts (eventId : ID) (clock : JsString → JsNumber)
    {consumers : List JsString} {sought : JsString} (other : sought ∉ consumers)
    (inbox : InMemoryInbox Work) :
    (openReceipts eventId clock consumers inbox).2.receiptsFor sought = inbox.receiptsFor sought := by
  induction consumers generalizing inbox with
  | nil => rfl
  | cons consumer rest ih =>
    rw [List.mem_cons, not_or] at other
    unfold openReceipts
    split
    · rw [ih other.2, receiptsFor_openReceipt eventId _ (Ne.symm other.1)]
    · rfl

private theorem consider_some {now : JsNumber} {next : Option InboxReceipt}
    {receipt chosen : InboxReceipt} (found : consider now next receipt = some chosen) :
    next = some chosen ∨ (receipt = chosen ∧ receipt.state = .pending ∧ receipt.leased = false) := by
  unfold consider at found
  by_cases skipped : (receipt.state ≠ .pending || receipt.leased || now.below receipt.availableAt) = true
  · rw [if_pos skipped] at found
    exact .inl found
  · rw [if_neg skipped] at found
    have eligible : receipt.state = .pending ∧ receipt.leased = false := by
      simp only [Bool.or_eq_true, not_or, decide_eq_true_eq, Bool.not_eq_true, ne_eq,
        not_not] at skipped
      exact skipped.1
    cases next with
    | none => exact .inr ⟨Option.some.inj found, eligible⟩
    | some held =>
      dsimp only at found
      split at found
      · exact .inr ⟨Option.some.inj found, eligible⟩
      · exact .inl found

/-- The scan picks a pending receipt of the map that no call holds. -/
theorem nextDue_some {receipts : InboxReceipts} {now : JsNumber} {chosen : InboxReceipt}
    (found : nextDue receipts now = some chosen) :
    chosen ∈ receipts.rows ∧ chosen.state = .pending ∧ chosen.leased = false := by
  unfold nextDue at found
  have scan : ∀ (rows : List InboxReceipt) (next : Option InboxReceipt),
      rows.foldl (consider now) next = some chosen →
        next = some chosen ∨ (chosen ∈ rows ∧ chosen.state = .pending ∧ chosen.leased = false) := by
    intro rows
    induction rows with
    | nil => exact fun next same => .inl same
    | cons head rest ih =>
      intro next picked
      rcases ih _ picked with here | ⟨member, eligible⟩
      · rcases consider_some here with before | ⟨same, eligible⟩
        · exact .inl before
        · subst same
          exact .inr ⟨List.mem_cons_self, eligible⟩
      · exact .inr ⟨List.mem_cons_of_mem head member, eligible⟩
  rcases scan receipts.rows none found with impossible | chosen
  · cases impossible
  · exact chosen

/-- A claim either finds nothing due, or takes a pending receipt that no call holds. -/
theorem claim_cases (inbox : InMemoryInbox Work) (consumer : JsString) (now : JsNumber) :
    ((∀ handling, (inbox.claim consumer now).1 ≠ .ok (some handling)) ∧
      ((inbox.claim consumer now).2 = inbox ∨
        (inbox.claim consumer now).2 = inbox.withReceipts consumer (inbox.receiptsFor consumer))) ∨
    ∃ receipt, inbox.find consumer receipt.eventId = some receipt ∧ receipt.state = .pending ∧
      receipt.leased = false ∧
      inbox.claim consumer now =
        (.ok (some ⟨consumer, receipt.eventId, inbox.events.get receipt.eventId, receipt.attempts + 1⟩),
          inbox.withReceipts consumer ((inbox.receiptsFor consumer).set (lease receipt))) := by
  by_cases valid : isConsumer consumer = true
  · cases due : nextDue (inbox.receiptsFor consumer) now with
    | none =>
      left
      have nothing : inbox.claim consumer now =
          (.ok none, inbox.withReceipts consumer (inbox.receiptsFor consumer)) := by
        simp only [claim, if_pos valid, due]
      rw [nothing]
      exact ⟨fun handling same => (by cases same), .inr rfl⟩
    | some receipt =>
      right
      obtain ⟨member, pending, free⟩ := nextDue_some due
      refine ⟨receipt, Table.get_of_mem member, pending, free, ?_⟩
      simp only [claim, if_pos valid, due]
      rfl
  · left
    have refused : inbox.claim consumer now = (.error invalidConsumer, inbox) := by
      simp only [claim, if_neg valid]
    rw [refused]
    exact ⟨fun handling same => (by cases same), .inl rfl⟩

theorem settle_eventId (policy : RetryPolicy) (attempt : Nat) (error : Option JsString) (now : JsNumber)
    (draw : Draw) (receipt : InboxReceipt) :
    (settle policy attempt error now draw receipt).eventId = receipt.eventId := by
  cases error <;> rfl

theorem find_finish (policy : RetryPolicy) {handling : Handling Work} {receipt : InboxReceipt}
    (held : inbox.find handling.consumer handling.eventId = some receipt) (result : HandlerResult)
    (now : JsNumber) (draw : Draw) (other : JsString) (eventId : ID) :
    (inbox.finish policy handling result now draw).find other eventId =
      if handling.key = (other, eventId) then
        some (settle policy handling.attempt result.error now draw receipt)
      else inbox.find other eventId := by
  simp only [finish, held]
  rw [find_set, settle_eventId, eventId_of_find held]
  rfl

theorem find_requeue (inbox : InMemoryInbox Work) (consumer other : JsString) (eventId : Option JsString) (clock : ID → JsNumber)
    (sought : ID) :
    (inbox.requeue consumer eventId clock).2.find other sought =
      if isConsumer consumer = true ∧ consumer = other then
        (inbox.find other sought).map (revive eventId clock)
      else inbox.find other sought := by
  unfold requeue
  by_cases valid : isConsumer consumer = true
  · rw [if_pos valid]
    show (inbox.withReceipts consumer _).find other sought = _
    rw [find_with, Table.get_modify]
    by_cases same : consumer = other
    · subst same
      rw [if_pos rfl, if_pos ⟨valid, rfl⟩]
      rfl
    · rw [if_neg same, if_neg (fun both => same both.2)]
  · rw [if_neg valid, if_neg (fun both => valid both.1)]

theorem mem_requeued {consumer other : JsString} {eventId : Option JsString} {sought : ID} :
    (other, sought) ∈ inbox.requeued consumer eventId ↔
      isConsumer consumer = true ∧ consumer = other ∧
        ∃ receipt, inbox.find other sought = some receipt ∧ requeues eventId receipt = true := by
  unfold requeued
  by_cases valid : isConsumer consumer = true
  · rw [if_pos valid, List.mem_map]
    constructor
    · rintro ⟨receipt, member, same⟩
      obtain ⟨member, dead⟩ := List.mem_filter.mp member
      cases same
      exact ⟨valid, rfl, receipt, Table.get_of_mem member, dead⟩
    · rintro ⟨-, rfl, receipt, found, dead⟩
      refine ⟨receipt, List.mem_filter.mpr ⟨Table.mem_of_get found, dead⟩, ?_⟩
      rw [eventId_of_find found]
  · rw [if_neg valid]
    constructor
    · intro member
      cases member
    · exact fun both => absurd both.1 valid

section Accept

variable [DecidableEq Bytes] {bytes : Envelope Work → Bytes} {event : Envelope Work}
  {consumers : List JsString} {clock : JsString → JsNumber}

/-- An id under which other bytes are held is refused, and the call changes nothing. -/
theorem accept_cases (bytes : Envelope Work → Bytes) (inbox : InMemoryInbox Work)
    (event : Envelope Work) (consumers : List JsString) (clock : JsString → JsNumber) :
    inbox.accept bytes event consumers clock = (.error (conflict "id_reused"), inbox) ∨
    inbox.accept bytes event consumers clock =
      openReceipts event.id clock consumers { inbox with events := inbox.events.set event } := by
  unfold accept
  split
  · exact .inl rfl
  · exact .inr rfl

theorem find_accept {sought : JsString} {other : ID} {receipt : InboxReceipt}
    (found : (inbox.accept bytes event consumers clock).2.find sought other = some receipt) :
    inbox.find sought other = some receipt ∨
      (inbox.find sought other = none ∧ sought ∈ consumers ∧ other = event.id ∧
        receipt.state = .pending ∧ receipt.attempts = 0 ∧ receipt.leased = false) := by
  rcases accept_cases bytes inbox event consumers clock with refused | opening
  · rw [refused] at found
    exact .inl found
  · rw [opening] at found
    have opened := find_openReceipts found
    exact opened

theorem find_accept_old {sought : JsString} {other : ID} {receipt : InboxReceipt}
    (held : inbox.find sought other = some receipt) :
    (inbox.accept bytes event consumers clock).2.find sought other = some receipt := by
  rcases accept_cases bytes inbox event consumers clock with refused | opening
  · rw [refused]
    exact held
  · rw [opening]
    apply find_openReceipts_old
    exact held

theorem events_accept {other : ID} (stored : inbox.events.get other ≠ none) :
    (inbox.accept bytes event consumers clock).2.events.get other ≠ none := by
  rcases accept_cases bytes inbox event consumers clock with refused | opening
  · rw [refused]
    exact stored
  · rw [opening, events_openReceipts, Table.get_set]
    split
    · simp
    · exact stored

/-- A receipt is opened only for an event that was stored first. -/
theorem events_accept_new {sought : JsString} {receipt : InboxReceipt}
    (missing : inbox.find sought event.id = none)
    (found : (inbox.accept bytes event consumers clock).2.find sought event.id = some receipt) :
    (inbox.accept bytes event consumers clock).2.events.get event.id ≠ none := by
  rcases accept_cases bytes inbox event consumers clock with refused | opening
  · rw [refused] at found
    rw [missing] at found
    cases found
  · rw [opening, events_openReceipts, Table.get_set_same]
    simp

end Accept

theorem mem_opened {before after : InMemoryInbox Work} {eventId other : ID}
    {consumers : List JsString} {sought : JsString} :
    (sought, other) ∈ before.opened after eventId consumers ↔
      sought ∈ consumers ∧ other = eventId ∧ before.find sought eventId = none ∧
        after.find sought eventId ≠ none := by
  simp only [opened, List.mem_map, List.mem_filter, Bool.and_eq_true, Option.isNone_iff_eq_none,
    Option.isSome_iff_ne_none, Prod.mk.injEq]
  constructor
  · rintro ⟨consumer, ⟨named, missing, present⟩, rfl, rfl⟩
    exact ⟨named, rfl, missing, present⟩
  · rintro ⟨named, rfl, missing, present⟩
    exact ⟨sought, ⟨named, missing, present⟩, rfl, rfl⟩

end InMemoryInbox

theorem LedgerEntry.record_queued (key : JsString × ID) (keys : List (JsString × ID))
    (tries : List (Option JsString)) :
    (keys.map .queued).foldl (LedgerEntry.record key) tries = if key ∈ keys then [] else tries := by
  induction keys generalizing tries with
  | nil => rfl
  | cons head rest ih =>
    rw [List.map_cons, List.foldl_cons, ih, LedgerEntry.record]
    by_cases later : key ∈ rest
    · rw [if_pos later, if_pos (List.mem_cons_of_mem head later)]
    · by_cases here : head = key
      · rw [if_neg later, if_pos here, if_pos (by simp [here])]
      · rw [if_neg later, if_neg here, if_neg (by simp [later, Ne.symm here])]

/-- How a receipt stands with respect to the handlers called for it since it last
entered the queue. -/
structure Stands (policy : RetryPolicy) (receipt : InboxReceipt) (tries : List (Option JsString)) :
    Prop where
  bound : receipt.attempts ≤ policy.maxAttempts
  leased : receipt.leased = true → receipt.state = .pending ∧ tries.length + 1 = receipt.attempts
  waiting : receipt.state = .pending → receipt.leased = false →
    receipt.attempts < policy.maxAttempts ∧ tries.length = receipt.attempts
  failed : receipt.state ≠ .processed → none ∉ tries
  processed : receipt.state = .processed → tries.getLast? = some none
  dead : receipt.state = .dead → tries.length = policy.maxAttempts

theorem Stands.fresh {policy : RetryPolicy} (positive : 1 ≤ policy.maxAttempts) {receipt : InboxReceipt}
    (pending : receipt.state = .pending) (none : receipt.attempts = 0) (free : receipt.leased = false) :
    Stands policy receipt [] where
  bound := by omega
  leased := by simp [free]
  waiting := fun _ _ => ⟨by omega, none.symm⟩
  failed := fun _ => List.not_mem_nil
  processed := by simp [pending]
  dead := by simp [pending]

theorem Stands.lease {policy : RetryPolicy} {receipt : InboxReceipt} {tries : List (Option JsString)}
    (stands : Stands policy receipt tries) (pending : receipt.state = .pending)
    (free : receipt.leased = false) : Stands policy (InMemoryInbox.lease receipt) tries := by
  obtain ⟨room, counted⟩ := stands.waiting pending free
  exact {
    bound := room
    leased := fun _ => ⟨pending, congrArg (· + 1) counted⟩
    waiting := fun _ impossible => by cases impossible
    failed := stands.failed
    processed := stands.processed
    dead := stands.dead }

/-- The finishing half turns a leased receipt into what its handler's outcome says. -/
theorem Stands.settle {policy : RetryPolicy} {receipt : InboxReceipt} {tries : List (Option JsString)}
    (stands : Stands policy receipt tries) (leased : receipt.leased = true) (error : Option JsString)
    (now : JsNumber) (draw : Draw) :
    Stands policy (InMemoryInbox.settle policy receipt.attempts error now draw receipt)
      (tries ++ [error]) := by
  obtain ⟨pending, counted⟩ := stands.leased leased
  have bound := stands.bound
  have length : (tries ++ [error]).length = receipt.attempts := by
    rw [List.length_append, List.length_singleton, counted]
  cases error with
  | none => exact {
      bound := bound
      leased := fun impossible => by cases impossible
      waiting := fun impossible => by cases impossible
      failed := fun impossible => absurd rfl impossible
      processed := fun _ => List.getLast?_concat
      dead := fun impossible => by cases impossible }
  | some error =>
    have failed : none ∉ tries ++ [some error] := by
      have before : none ∉ tries := stands.failed (by simp [pending])
      simp [before]
    by_cases spent : policy.maxAttempts ≤ receipt.attempts
    · have dead : (InMemoryInbox.settle policy receipt.attempts (some error) now draw receipt).state =
          .dead := by
        simp [InMemoryInbox.settle, exhausted, spent]
      exact {
        bound := bound
        leased := fun impossible => by cases impossible
        waiting := by simp [dead]
        failed := fun _ => failed
        processed := by simp [dead]
        dead := fun _ => length.trans (Nat.le_antisymm bound spent) }
    · have again : (InMemoryInbox.settle policy receipt.attempts (some error) now draw receipt).state =
          .pending := by
        simp [InMemoryInbox.settle, exhausted, spent]
      exact {
        bound := bound
        leased := fun impossible => by cases impossible
        waiting := fun _ _ => ⟨Nat.lt_of_not_le spent, length⟩
        failed := fun _ => failed
        processed := by simp [again]
        dead := by simp [again] }

namespace InboxState

/-- What every reachable state satisfies. -/
structure Ledger (policy : RetryPolicy) (state : InboxState Work) : Prop where
  stands : ∀ consumer eventId receipt, state.inbox.find consumer eventId = some receipt →
    Stands policy receipt (state.tries (consumer, eventId))
  stored : ∀ consumer eventId receipt, state.inbox.find consumer eventId = some receipt →
    state.inbox.events.get eventId ≠ none
  once : (state.running.map Handling.key).Nodup
  held : ∀ handling ∈ state.running, ∃ receipt,
    state.inbox.find handling.consumer handling.eventId = some receipt ∧ receipt.leased = true ∧
      receipt.attempts = handling.attempt
  given : ∀ handling ∈ state.running, handling.event ≠ none

theorem initial_ledger (policy : RetryPolicy) : (initial : InboxState Work).Ledger policy where
  stands := fun consumer eventId receipt found => by cases found
  stored := fun consumer eventId receipt found => by cases found
  once := List.nodup_nil
  held := fun handling member => by cases member
  given := fun handling member => by cases member

variable {policy : RetryPolicy} {state : InboxState Work}

theorem tries_queued (state : InboxState Work) (inbox : InMemoryInbox Work)
    (running : List (Handling Work)) (keys : List (JsString × ID)) (key : JsString × ID) :
    tries ⟨inbox, running, state.log ++ keys.map .queued⟩ key =
      if key ∈ keys then [] else state.tries key := by
  unfold tries
  rw [List.foldl_append, LedgerEntry.record_queued]

theorem tries_attempted (state : InboxState Work) (inbox : InMemoryInbox Work)
    (running : List (Handling Work)) (attempted key : JsString × ID) (error : Option JsString) :
    tries ⟨inbox, running, state.log ++ [.attempted attempted error]⟩ key =
      if attempted = key then state.tries key ++ [error] else state.tries key := by
  unfold tries
  rw [List.foldl_append]
  rfl

variable [DecidableEq Bytes] (bytes : Envelope Work → Bytes)

theorem Ledger.accept (ledger : state.Ledger policy) (positive : 1 ≤ policy.maxAttempts)
    (event : Envelope Work) (consumers : List JsString) (clock : JsString → JsNumber) :
    (state.step bytes policy (.accept event consumers clock)).Ledger policy where
  stands := by
    intro consumer eventId receipt found
    rw [step, tries_queued]
    rcases InMemoryInbox.find_accept found with before | ⟨missing, named, same, pending, none, free⟩
    · rw [if_neg]
      · exact ledger.stands consumer eventId receipt before
      · rw [InMemoryInbox.mem_opened]
        rintro ⟨-, rfl, missing, -⟩
        rw [before] at missing
        cases missing
    · subst same
      rw [if_pos]
      · exact Stands.fresh positive pending none free
      · rw [InMemoryInbox.mem_opened]
        refine ⟨named, rfl, missing, ?_⟩
        intro absent
        exact Option.some_ne_none receipt (found.symm.trans absent)
  stored := by
    intro consumer eventId receipt found
    rcases InMemoryInbox.find_accept found with before | ⟨missing, -, same, -⟩
    · exact InMemoryInbox.events_accept (ledger.stored consumer eventId receipt before)
    · subst same
      exact InMemoryInbox.events_accept_new missing found
  once := ledger.once
  held := by
    intro handling member
    obtain ⟨receipt, found, leased, same⟩ := ledger.held handling member
    exact ⟨receipt, InMemoryInbox.find_accept_old found, leased, same⟩
  given := ledger.given

/-- An inbox that shows the same receipts and events keeps the ledger. -/
theorem Ledger.shows (ledger : state.Ledger policy) {inbox : InMemoryInbox Work}
    (same : ∀ sought eventId, inbox.find sought eventId = state.inbox.find sought eventId)
    (events : inbox.events = state.inbox.events) :
    Ledger policy { state with inbox := inbox } where
  stands := fun sought eventId receipt found =>
    ledger.stands sought eventId receipt ((same sought eventId).symm.trans found)
  stored := by
    intro sought eventId receipt found
    show inbox.events.get eventId ≠ none
    rw [events]
    exact ledger.stored sought eventId receipt ((same sought eventId).symm.trans found)
  once := ledger.once
  held := by
    intro handling member
    obtain ⟨receipt, found, leased⟩ := ledger.held handling member
    exact ⟨receipt, (same _ _).trans found, leased⟩
  given := ledger.given

/-- A free receipt is leased to a new call. -/
theorem Ledger.lease (ledger : state.Ledger policy) {consumer : JsString} {receipt : InboxReceipt}
    (found : state.inbox.find consumer receipt.eventId = some receipt)
    (pending : receipt.state = .pending) (free : receipt.leased = false) :
    Ledger policy ⟨state.inbox.withReceipts consumer
        ((state.inbox.receiptsFor consumer).set (InMemoryInbox.lease receipt)),
      state.running ++ [⟨consumer, receipt.eventId, state.inbox.events.get receipt.eventId,
        receipt.attempts + 1⟩], state.log⟩ := by
  have others : ∀ handling ∈ state.running, handling.key ≠ (consumer, receipt.eventId) := by
    intro handling member same
    obtain ⟨held, present, leased, -⟩ := ledger.held handling member
    obtain ⟨consumers, ids⟩ := Prod.mk.inj same
    rw [consumers, ids, found] at present
    cases present
    rw [free] at leased
    cases leased
  have lookup : ∀ sought eventId, (state.inbox.withReceipts consumer
      ((state.inbox.receiptsFor consumer).set (InMemoryInbox.lease receipt))).find sought eventId =
        if (consumer, receipt.eventId) = (sought, eventId) then some (InMemoryInbox.lease receipt)
        else state.inbox.find sought eventId :=
    fun sought eventId => InMemoryInbox.find_set consumer sought (InMemoryInbox.lease receipt) eventId
  exact {
    stands := by
      intro sought eventId other present
      show Stands policy other (state.tries (sought, eventId))
      rw [lookup] at present
      split at present
      · rename_i same
        cases same
        cases present
        exact (ledger.stands _ _ receipt found).lease pending free
      · exact ledger.stands sought eventId other present
    stored := by
      intro sought eventId other present
      show state.inbox.events.get eventId ≠ none
      rw [lookup] at present
      split at present
      · rename_i same
        cases same
        exact ledger.stored _ _ receipt found
      · exact ledger.stored sought eventId other present
    once := by
      show ((state.running ++ [_]).map Handling.key).Nodup
      rw [List.map_append, List.map_singleton, List.nodup_append]
      refine ⟨ledger.once, List.nodup_singleton _, ?_⟩
      intro key member other single same
      obtain ⟨handling, running, rfl⟩ := List.mem_map.mp member
      rw [List.mem_singleton] at single
      exact others handling running (same.trans single)
    held := by
      intro handling member
      rcases List.mem_append.mp member with before | fresh
      · obtain ⟨held, present, leased, same⟩ := ledger.held handling before
        refine ⟨held, ?_, leased, same⟩
        rw [lookup, if_neg (fun equal => others handling before equal.symm)]
        exact present
      · rw [List.mem_singleton] at fresh
        subst fresh
        refine ⟨InMemoryInbox.lease receipt, ?_, rfl, rfl⟩
        rw [lookup, if_pos rfl]
    given := by
      intro handling member
      rcases List.mem_append.mp member with before | fresh
      · exact ledger.given handling before
      · rw [List.mem_singleton] at fresh
        subst fresh
        exact ledger.stored _ _ receipt found }

theorem Ledger.claim (ledger : state.Ledger policy) (consumer : JsString) (now : JsNumber) :
    (state.step bytes policy (.claim consumer now)).Ledger policy := by
  rcases InMemoryInbox.claim_cases state.inbox consumer now with
    ⟨nothing, unchanged⟩ | ⟨receipt, found, pending, free, taken⟩
  · have stepped : state.step bytes policy (.claim consumer now) =
        { state with inbox := (state.inbox.claim consumer now).2 } := by
      simp only [step]
    rw [stepped]
    rcases unchanged with kept | kept
    · exact ledger.shows (fun _ _ => by rw [kept]) (by rw [kept])
    · exact ledger.shows (fun _ _ => by rw [kept, InMemoryInbox.find_with_same]) (by rw [kept]; rfl)
  · have stepped : state.step bytes policy (.claim consumer now) =
        ⟨state.inbox.withReceipts consumer
            ((state.inbox.receiptsFor consumer).set (InMemoryInbox.lease receipt)),
          state.running ++ [⟨consumer, receipt.eventId, state.inbox.events.get receipt.eventId,
            receipt.attempts + 1⟩], state.log⟩ := by
      simp only [step, taken]
    rw [stepped]
    exact ledger.lease found pending free

theorem Ledger.finish (ledger : state.Ledger policy) (call : Nat) (result : HandlerResult)
    (now : JsNumber) (draw : Draw) :
    (state.step bytes policy (.finish call result now draw)).Ledger policy := by
  cases running : state.running[call]? with
  | none =>
    have stepped : state.step bytes policy (.finish call result now draw) = state := by
      simp only [step, running]
    rw [stepped]
    exact ledger
  | some handling =>
    have stepped : state.step bytes policy (.finish call result now draw) =
        ⟨state.inbox.finish policy handling result now draw, state.running.eraseIdx call,
          state.log ++ [.attempted handling.key result.error]⟩ := by
      simp only [step, running]
    obtain ⟨within, here⟩ := List.getElem?_eq_some_iff.mp running
    have member : handling ∈ state.running := List.mem_of_getElem? running
    obtain ⟨receipt, found, leased, attempt⟩ := ledger.held handling member
    have lookup := InMemoryInbox.find_finish policy found result now draw
    have split : (handling :: state.running.eraseIdx call).Perm state.running := by
      rw [← here]
      exact List.getElem_cons_eraseIdx_perm within
    have once : ((handling :: state.running.eraseIdx call).map Handling.key).Nodup :=
      (split.map Handling.key).nodup_iff.mpr ledger.once
    rw [List.map_cons, List.nodup_cons] at once
    have before : ∀ other ∈ state.running.eraseIdx call, other ∈ state.running :=
      fun other left => split.subset (List.mem_cons_of_mem handling left)
    rw [stepped]
    exact {
      stands := by
        intro consumer eventId other present
        rw [tries_attempted]
        replace present := (lookup consumer eventId).symm.trans present
        split at present
        · rename_i same
          cases present
          rw [if_pos same, ← same, ← attempt]
          exact (ledger.stands handling.consumer handling.eventId receipt found).settle leased
            result.error now draw
        · rename_i other
          rw [if_neg other]
          exact ledger.stands consumer eventId _ present
      stored := by
        intro consumer eventId other present
        have events : (state.inbox.finish policy handling result now draw).events =
            state.inbox.events := by
          simp only [InMemoryInbox.finish, found]
          rfl
        show (state.inbox.finish policy handling result now draw).events.get eventId ≠ none
        rw [events]
        replace present := (lookup consumer eventId).symm.trans present
        split at present
        · rename_i same
          obtain ⟨-, ids⟩ := Prod.mk.inj same
          rw [← ids]
          exact ledger.stored handling.consumer handling.eventId receipt found
        · exact ledger.stored consumer eventId other present
      once := once.2
      held := by
        intro other left
        obtain ⟨held, present, still, same⟩ := ledger.held other (before other left)
        refine ⟨held, ?_, still, same⟩
        have apart : handling.key ≠ (other.consumer, other.eventId) :=
          fun equal => once.1 (List.mem_map.mpr ⟨other, left, equal.symm⟩)
        rw [lookup, if_neg apart]
        exact present
      given := fun other left => ledger.given other (before other left) }

theorem revive_live {eventId : Option JsString} {receipt : InboxReceipt} (clock : ID → JsNumber)
    (live : receipt.state ≠ .dead) : InMemoryInbox.revive eventId clock receipt = receipt := by
  have kept : ¬ InMemoryInbox.requeues eventId receipt = true := by
    simp [InMemoryInbox.requeues, live]
  rw [InMemoryInbox.revive, if_neg kept]

theorem Ledger.requeue (ledger : state.Ledger policy) (positive : 1 ≤ policy.maxAttempts)
    (consumer : JsString) (eventId : Option JsString) (clock : ID → JsNumber) :
    (state.step bytes policy (.requeue consumer eventId clock)).Ledger policy := by
  have lookup := InMemoryInbox.find_requeue state.inbox consumer
  have back : ∀ sought other receipt,
      (state.inbox.requeue consumer eventId clock).2.find sought other = some receipt →
        ∃ before, state.inbox.find sought other = some before ∧
          (((sought, other) ∈ state.inbox.requeued consumer eventId ∧
            InMemoryInbox.requeues eventId before = true ∧
            receipt = { before with
              state := .pending, attempts := 0, availableAt := clock before.eventId }) ∨
          ((sought, other) ∉ state.inbox.requeued consumer eventId ∧ receipt = before)) := by
    intro sought other receipt found
    rw [lookup] at found
    split at found
    · rename_i named
      obtain ⟨before, present, revived⟩ := Option.map_eq_some_iff.mp found
      refine ⟨before, present, ?_⟩
      by_cases dead : InMemoryInbox.requeues eventId before = true
      · refine .inl ⟨?_, dead, ?_⟩
        · exact InMemoryInbox.mem_requeued.mpr ⟨named.1, named.2, before, present, dead⟩
        · rw [← revived, InMemoryInbox.revive, if_pos dead]
      · refine .inr ⟨?_, ?_⟩
        · rw [InMemoryInbox.mem_requeued]
          rintro ⟨-, -, same, again, chosen⟩
          rw [present] at again
          cases again
          exact dead chosen
        · rw [← revived, InMemoryInbox.revive, if_neg dead]
    · rename_i unnamed
      refine ⟨receipt, found, .inr ⟨?_, rfl⟩⟩
      rw [InMemoryInbox.mem_requeued]
      rintro ⟨valid, named, -⟩
      exact unnamed ⟨valid, named⟩
  exact {
    stands := by
      intro sought other receipt found
      rw [step, tries_queued]
      obtain ⟨before, present, ⟨queued, dead, same⟩ | ⟨left, same⟩⟩ := back sought other receipt found
      · have stands := ledger.stands sought other before present
        have unleased : before.leased = false := by
          by_contra leased
          have pending := (stands.leased (Bool.eq_true_of_not_eq_false leased)).1
          simp [InMemoryInbox.requeues, pending] at dead
        subst same
        rw [if_pos queued]
        exact Stands.fresh positive rfl rfl unleased
      · subst same
        rw [if_neg left]
        exact ledger.stands sought other receipt present
    stored := by
      intro sought other receipt found
      have events : (state.inbox.requeue consumer eventId clock).2.events = state.inbox.events := by
        unfold InMemoryInbox.requeue
        split <;> rfl
      obtain ⟨before, present, -⟩ := back sought other receipt found
      show (state.inbox.requeue consumer eventId clock).2.events.get other ≠ none
      rw [events]
      exact ledger.stored sought other before present
    once := ledger.once
    held := by
      intro handling member
      obtain ⟨receipt, found, leased, same⟩ := ledger.held handling member
      refine ⟨receipt, ?_, leased, same⟩
      show (state.inbox.requeue consumer eventId clock).2.find _ _ = _
      rw [lookup, found]
      have pending := ((ledger.stands _ _ receipt found).leased leased).1
      rw [Option.map_some, revive_live clock (by simp [pending])]
      split <;> rfl
    given := ledger.given }

theorem Ledger.step (ledger : state.Ledger policy) (positive : 1 ≤ policy.maxAttempts)
    (label : InboxLabel Work) : (state.step bytes policy label).Ledger policy := by
  cases label with
  | accept event consumers clock => exact ledger.accept bytes positive event consumers clock
  | claim consumer now => exact ledger.claim bytes consumer now
  | finish call result now draw => exact ledger.finish bytes call result now draw
  | requeue consumer eventId clock => exact ledger.requeue bytes positive consumer eventId clock

theorem reachable_ledger (positive : 1 ≤ policy.maxAttempts) (labels : List (InboxLabel Work)) :
    (run (InboxState.step bytes policy) .initial labels).Ledger policy :=
  run_invariant (Ledger policy) (fun _ label ledger => ledger.step bytes positive label)
    (initial_ledger policy) labels

/-- A receipt that is not pending changes only when it is put back in the queue. -/
theorem Ledger.settled_kept (ledger : state.Ledger policy) {consumer : JsString} {eventId : ID}
    {receipt : InboxReceipt} (found : state.inbox.find consumer eventId = some receipt)
    (settled : receipt.state ≠ .pending) (label : InboxLabel Work) :
    (state.step bytes policy label).inbox.find consumer eventId = some receipt ∨
      ∃ id clock, label = .requeue consumer id clock ∧ InMemoryInbox.requeues id receipt = true := by
  cases label with
  | accept event consumers clock => exact .inl (InMemoryInbox.find_accept_old found)
  | claim other now =>
    left
    rcases InMemoryInbox.claim_cases state.inbox other now with
      ⟨nothing, unchanged⟩ | ⟨taken, present, pending, -, claimed⟩
    · have stepped : (state.step bytes policy (.claim other now)).inbox =
          (state.inbox.claim other now).2 := by
        simp only [InboxState.step]
      rw [stepped]
      rcases unchanged with kept | kept
      · rw [kept, found]
      · rw [kept, InMemoryInbox.find_with_same, found]
    · simp only [InboxState.step, claimed]
      rw [InMemoryInbox.find_set, if_neg]
      · exact found
      · intro same
        obtain ⟨consumers, ids⟩ := Prod.mk.inj same
        have ids : taken.eventId = eventId := ids
        rw [consumers, ids, found] at present
        cases present
        exact settled pending
  | finish call result now draw =>
    left
    cases running : state.running[call]? with
    | none =>
      simp only [InboxState.step, running]
      exact found
    | some handling =>
      obtain ⟨held, present, leased, -⟩ := ledger.held handling (List.mem_of_getElem? running)
      simp only [InboxState.step, running]
      rw [InMemoryInbox.find_finish policy present, if_neg]
      · exact found
      · intro same
        obtain ⟨consumers, ids⟩ := Prod.mk.inj same
        have pending := ((ledger.stands _ _ held present).leased leased).1
        rw [consumers, ids, found] at present
        cases present
        exact settled pending
  | requeue other id clock =>
    show (state.inbox.requeue other id clock).2.find consumer eventId = some receipt ∨ _
    rw [InMemoryInbox.find_requeue, found, Option.map_some, InMemoryInbox.revive]
    by_cases chosen : InMemoryInbox.requeues id receipt = true
    · by_cases named : other = consumer
      · subst named
        exact .inr ⟨id, clock, rfl, chosen⟩
      · left
        rw [if_neg (fun both => named both.2)]
    · left
      rw [if_neg chosen]
      split <;> rfl

/-- A processed receipt never changes again. -/
theorem Ledger.processed_kept (ledger : state.Ledger policy) (positive : 1 ≤ policy.maxAttempts)
    {consumer : JsString} {eventId : ID} {receipt : InboxReceipt}
    (found : state.inbox.find consumer eventId = some receipt) (processed : receipt.state = .processed)
    (later : List (InboxLabel Work)) :
    (run (InboxState.step bytes policy) state later).inbox.find consumer eventId = some receipt := by
  have kept : ∀ (next : InboxState Work) (label : InboxLabel Work),
      next.Ledger policy ∧ next.inbox.find consumer eventId = some receipt →
        (next.step bytes policy label).Ledger policy ∧
          (next.step bytes policy label).inbox.find consumer eventId = some receipt := by
    rintro next label ⟨ledger, found⟩
    refine ⟨ledger.step bytes positive label, ?_⟩
    rcases ledger.settled_kept bytes found (by simp [processed]) label with same | requeued
    · exact same
    · obtain ⟨id, clock, -, dead⟩ := requeued
      simp [InMemoryInbox.requeues, processed] at dead
  exact (run_invariant _ kept ⟨ledger, found⟩ later).2

/-- A step touches the maps of the consumers it is for, and no other. -/
theorem receiptsFor_step (state : InboxState Work) (label : InboxLabel Work) {consumer : JsString}
    (other : consumer ∉ state.concerns label) :
    (state.step bytes policy label).inbox.receiptsFor consumer = state.inbox.receiptsFor consumer := by
  cases label with
  | accept event consumers clock =>
    have unnamed : consumer ∉ consumers := other
    show (state.inbox.accept bytes event consumers clock).2.receiptsFor consumer = _
    rcases InMemoryInbox.accept_cases bytes state.inbox event consumers clock with refused | opening
    · rw [refused]
    · rw [opening, InMemoryInbox.receiptsFor_openReceipts event.id clock unnamed]
      rfl
  | claim named now =>
    have apart : named ≠ consumer := fun same => other (by simp [concerns, same])
    rcases InMemoryInbox.claim_cases state.inbox named now with
      ⟨nothing, unchanged⟩ | ⟨taken, -, -, -, claimed⟩
    · have stepped : (state.step bytes policy (.claim named now)).inbox =
          (state.inbox.claim named now).2 := by
        simp only [step]
      rw [stepped]
      rcases unchanged with kept | kept
      · rw [kept]
      · rw [kept, InMemoryInbox.receiptsFor_with, if_neg apart]
    · simp only [step, claimed]
      rw [InMemoryInbox.receiptsFor_with, if_neg apart]
  | finish call result now draw =>
    cases running : state.running[call]? with
    | none => simp only [step, running]
    | some handling =>
      have apart : handling.consumer ≠ consumer :=
        fun same => other (by simp [concerns, running, same])
      simp only [step, running]
      unfold InMemoryInbox.finish
      split
      · rw [InMemoryInbox.receiptsFor_with, if_neg apart]
      · rfl
  | requeue named eventId clock =>
    have apart : named ≠ consumer := fun same => other (by simp [concerns, same])
    show (state.inbox.requeue named eventId clock).2.receiptsFor consumer = _
    unfold InMemoryInbox.requeue
    split
    · show (state.inbox.withReceipts named _).receiptsFor consumer = _
      rw [InMemoryInbox.receiptsFor_with, if_neg apart]
    · rfl

end InboxState

/-- A successful `accept` leaves every consumer it names with one receipt for the event. -/
theorem InMemoryInbox.accept_complete [DecidableEq Bytes] (bytes : Envelope Work → Bytes)
    (inbox : InMemoryInbox Work) (event : Envelope Work) (consumers : List JsString)
    (clock : JsString → JsNumber) (accepted : (inbox.accept bytes event consumers clock).1 = .ok ())
    {consumer : JsString} (named : consumer ∈ consumers) :
    (((inbox.accept bytes event consumers clock).2.receiptsFor consumer).rows.map
      InboxReceipt.eventId).count event.id = 1 := by
  have present : (inbox.accept bytes event consumers clock).2.find consumer event.id ≠ none := by
    rcases accept_cases bytes inbox event consumers clock with refused | opening
    · rw [refused] at accepted
      cases accepted
    · rw [opening] at accepted ⊢
      exact openReceipts_complete accepted named
  generalize (inbox.accept bytes event consumers clock).2 = after at present ⊢
  cases found : after.find consumer event.id with
  | none => exact absurd found present
  | some receipt =>
    apply List.count_eq_one_of_mem (after.receiptsFor consumer).unique
    exact List.mem_map.mpr ⟨receipt, Table.mem_of_get found, Table.key_of_get found⟩

/-- In every interleaving of accepts, claims, finishes and requeues the inbox is a
ledger: one handler at a time for each receipt, attempts within the policy, outcomes
that say what the handlers did and that only a requeue takes back. -/
theorem in_memory_inbox_ledger [DecidableEq Bytes] (bytes : Envelope Work → Bytes)
    (policy : RetryPolicy) (positive : 1 ≤ policy.maxAttempts) (labels : List (InboxLabel Work)) :
    let step := InboxState.step bytes policy
    let state := run step .initial labels
    (state.running.map Handling.key).Nodup ∧
    (∀ consumer eventId receipt, state.inbox.find consumer eventId = some receipt →
      let tries := state.tries (consumer, eventId)
      (receipt.leased = true → receipt.state = .pending) ∧
      receipt.attempts ≤ policy.maxAttempts ∧
      (receipt.state = .pending → receipt.leased = false → receipt.attempts < policy.maxAttempts) ∧
      (receipt.state = .processed → tries.getLast? = some none ∧
        ∀ later, (run step state later).inbox.find consumer eventId = some receipt) ∧
      (receipt.state = .dead → tries.length = policy.maxAttempts ∧ none ∉ tries ∧
        ∀ label, (step state label).inbox.find consumer eventId ≠ some receipt →
          ∃ id clock, label = .requeue consumer id clock)) ∧
    (∀ label consumer, consumer ∉ state.concerns label →
      (step state label).inbox.receiptsFor consumer = state.inbox.receiptsFor consumer) ∧
    (∀ event consumers clock, (state.inbox.accept bytes event consumers clock).1 = .ok () →
      ∀ consumer ∈ consumers,
        (((step state (.accept event consumers clock)).inbox.receiptsFor consumer).rows.map
          InboxReceipt.eventId).count event.id = 1) := by
  intro step state
  have ledger : state.Ledger policy := InboxState.reachable_ledger bytes positive labels
  refine ⟨ledger.once, ?_, ?_, ?_⟩
  · intro consumer eventId receipt found tries
    have stands := ledger.stands consumer eventId receipt found
    refine ⟨fun leased => (stands.leased leased).1, stands.bound,
      fun pending free => (stands.waiting pending free).1, ?_, ?_⟩
    · intro processed
      exact ⟨stands.processed processed, ledger.processed_kept bytes positive found processed⟩
    · intro dead
      refine ⟨stands.dead dead, stands.failed (by simp [dead]), ?_⟩
      intro label changed
      rcases ledger.settled_kept bytes found (by simp [dead]) label with same | requeued
      · exact absurd same changed
      · obtain ⟨id, clock, same, -⟩ := requeued
        exact ⟨id, clock, same⟩
  · intro label consumer other
    exact InboxState.receiptsFor_step bytes state label other
  · intro event consumers clock accepted consumer named
    exact InMemoryInbox.accept_complete bytes state.inbox event consumers clock accepted named

/-- One attempt is all this policy gives: a handler that throws leaves a dead receipt. -/
theorem in_memory_inbox_ledger_one_attempt :
    let policy : RetryPolicy := ⟨1, 500, 1000⟩
    let step := InboxState.step (fun event : Envelope Unit => event.id) policy
    let state := run step .initial
      [.accept ⟨.numbered 1, ⟨[]⟩, 0, (), [], none, none⟩ [⟨[0x61]⟩] (fun _ => .finite 5),
        .claim ⟨[0x61]⟩ (.finite 5), .finish 0 .threw .nan ⟨0, by decide⟩]
    ∃ receipt, state.inbox.find ⟨[0x61]⟩ (.numbered 1) = some receipt ∧ receipt.state = .dead ∧
      (state.tries (⟨[0x61]⟩, .numbered 1)).length = policy.maxAttempts := by
  intro policy step state
  have ledger := in_memory_inbox_ledger (fun event : Envelope Unit => event.id) policy (by decide)
    [.accept ⟨.numbered 1, ⟨[]⟩, 0, (), [], none, none⟩ [⟨[0x61]⟩] (fun _ => .finite 5),
      .claim ⟨[0x61]⟩ (.finite 5), .finish 0 .threw .nan ⟨0, by decide⟩]
  have found : state.inbox.find ⟨[0x61]⟩ (.numbered 1) =
      some ⟨.numbered 1, .dead, 1, .nan, false, 0⟩ := by
    decide
  exact ⟨_, found, rfl, ((ledger.2.1 _ _ _ found).2.2.2.2 rfl).1⟩

end N2FNest.Events
