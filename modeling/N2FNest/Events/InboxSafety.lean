import N2FNest.Events.Mailbox

/-! Inbox delivery is per consumer and loses nothing. A worker may finish after its
lease ran out, so what protects a receipt is only that its lease names the
worker's token. -/

namespace N2FNest.Events

open Lib Shared

variable {Text Work : Type}

/-- The consumer a worker works for. -/
def Worker.consumers : Worker Work → List JsString
  | .handling consumer _ _ => [consumer]
  | .finishing consumer _ _ _ => [consumer]
  | _ => []

/-- The consumers a step is performed for; pruning is for no one in particular. -/
def MailboxLabel.consumers (state : MailboxState Text Work) :
    MailboxLabel Work → Option (List JsString)
  | .accept _ consumers => some consumers
  | .claim _ consumer => some [consumer]
  | .handle token _ => some (state.workers token).consumers
  | .finish token _ => some (state.workers token).consumers
  | .crash token => some (state.workers token).consumers
  | .requeue consumer _ => some [consumer]
  | .prune _ _ _ => none
  | .tick _ => some []

namespace Mailbox

/-- Opening receipts leaves the existing ones alone and adds those asked for. -/
theorem get_opened (eventId : ID) (now : Int) (consumers : List JsString) (receipts : MailboxReceipts)
    (key : ID × JsString) :
    (consumers.foldl (openReceipt eventId now) receipts).get key = receipts.get key ∨
      receipts.get key = none ∧ key.1 = eventId ∧ key.2 ∈ consumers ∧
        (consumers.foldl (openReceipt eventId now) receipts).get key = some ⟨.fresh now, key, ()⟩ := by
  induction consumers generalizing receipts with
  | nil => exact .inl rfl
  | cons consumer rest ih =>
    have opened : (openReceipt eventId now receipts consumer).get key = receipts.get key ∨
        receipts.get key = none ∧ key = (eventId, consumer) ∧
          (openReceipt eventId now receipts consumer).get key = some ⟨.fresh now, key, ()⟩ := by
      unfold openReceipt
      split
      · exact .inl rfl
      · rename_i missing
        by_cases same : (eventId, consumer) = key
        · subst same
          exact .inr ⟨missing, rfl, by simp⟩
        · exact .inl (Table.get_set_other receipts same)
    rw [List.foldl_cons]
    rcases ih (openReceipt eventId now receipts consumer) with later | ⟨missing, event, member, later⟩
    · rcases opened with same | ⟨missing, named, fresh⟩
      · exact .inl (later.trans same)
      · refine .inr ⟨missing, congrArg Prod.fst named, ?_, later.trans fresh⟩
        rw [named]
        exact List.mem_cons_self
    · rcases opened with same | ⟨_, _, fresh⟩
      · exact .inr ⟨same.symm.trans missing, event, List.mem_cons_of_mem consumer member, later⟩
      · rw [fresh] at missing
        cases missing

/-- Every consumer asked for has a receipt afterwards. -/
theorem opened_present (eventId : ID) (now : Int) (consumers : List JsString)
    (receipts : MailboxReceipts) {consumer : JsString} (member : consumer ∈ consumers) :
    (consumers.foldl (openReceipt eventId now) receipts).get (eventId, consumer) ≠ none := by
  induction consumers generalizing receipts with
  | nil => cases member
  | cons first rest ih =>
    rw [List.foldl_cons]
    rcases List.mem_cons.mp member with same | later
    · subst same
      have here : (openReceipt eventId now receipts consumer).get (eventId, consumer) ≠ none := by
        unfold openReceipt
        split
        · rename_i held found
          simp [found]
        · simp
      rcases get_opened eventId now rest (openReceipt eventId now receipts consumer)
        (eventId, consumer) with kept | ⟨_, _, _, fresh⟩
      · rwa [kept]
      · simp [fresh]
    · exact ih _ later

theorem accept_inv {codec : Codec Text Work} {mailbox mailbox' : MailboxRows Text}
    {receipts receipts' : MailboxReceipts} {event : Envelope Work} {consumers : List JsString}
    {now : Int} (done : accept codec mailbox receipts event consumers now = .ok (mailbox', receipts')) :
    insert codec mailbox event = .ok mailbox' ∧
      receipts' = consumers.foldl (openReceipt event.id now) receipts := by
  unfold accept at done
  split at done
  · obtain ⟨stored, inserted, rest⟩ := bind_ok done
    cases pure_eq_ok.mp rest
    exact ⟨inserted, rfl⟩
  · simp at done

theorem requeue_inv {receipts receipts' : MailboxReceipts} {consumer : JsString} {eventId : Option ID}
    {now : Int} {count : Nat} (done : requeue receipts consumer eventId now = .ok (receipts', count)) :
    Events.requeue receipts (fun key => key.2 = consumer && eventId.all (key.1 = ·)) now =
      .ok (receipts', count) := by
  unfold requeue at done
  split at done
  · exact done
  · cases done

/-- Inserting an envelope removes none. -/
theorem insert_present {codec : Codec Text Work} {mailbox next : MailboxRows Text}
    {event : Envelope Work} (done : insert codec mailbox event = .ok next) {id : ID}
    (present : mailbox.get id ≠ none) : next.get id ≠ none := by
  simp only [insert] at done
  split at done
  · split at done
    · cases done
      rw [Table.get_set]
      split
      · simp
      · exact present
    · split at done
      · cases done
        exact present
      · cases done
  · cases done

/-- An event is pruned only when none of its receipts holds on to it. -/
theorem prunable_settled {mailbox : MailboxRows Text} {receipts : MailboxReceipts} {retentionMs : Int}
    {limit : Nat} {scan : ID → Bool} {now : Int} {id : ID}
    (gone : id ∈ prunable mailbox receipts retentionMs limit scan now)
    {row : DeliveryRow (ID × JsString) Unit} (member : row ∈ receipts.rows) (named : row.key.1 = id) :
    row.state = .settled := by
  obtain ⟨stored, taken, same⟩ := List.mem_map.mp gone
  have eligible := (List.mem_filter.mp (List.mem_of_mem_take taken)).2
  by_contra unsettled
  have held : (receipts.rows.any fun row => row.key.1 = stored.eventId &&
      retains retentionMs now row.toDeliveryColumns) = true := by
    rw [List.any_eq_true]
    refine ⟨row, member, ?_⟩
    simp [named, same, retains, unsettled]
  rw [held] at eligible
  simp at eligible

end Mailbox

namespace MailboxState

variable {policy : RetryPolicy} {codec : Codec Text Work} {state : MailboxState Text Work}

/-- What a step can do to one receipt. -/
inductive Touches (state next : MailboxState Text Work) (key : ID × JsString) :
    MailboxLabel Work → Prop where
  | spared (same : next.receipts.get key = state.receipts.get key) : Touches state next key label
  | opened (missing : state.receipts.get key = none)
      (fresh : next.receipts.get key = some ⟨.fresh state.now, key, ()⟩)
      (asked : key.1 = event.id ∧ key.2 ∈ consumers) : Touches state next key (.accept event consumers)
  | claimed (held : state.receipts.get key = some before) (pending : before.state = .pending)
      (found : next.receipts.get key = some after) (unsettled : after.state ≠ .settled)
      (own : key.2 = consumer) : Touches state next key (.claim token consumer)
  | finished (finishing : state.workers token = .finishing key.2 event attempt error)
      (named : key.1 = event.id) (held : state.receipts.get key = some before)
      (pending : before.state = .pending) (leased : before.lease = some token)
      (found : next.receipts.get key = some after) (settles : after.state = .settled → error = none) :
      Touches state next key (.finish token draw)
  | requeued (held : state.receipts.get key = some before) (dead : before.state = .dead)
      (found : next.receipts.get key = some after) (pending : after.state = .pending)
      (own : key.2 = consumer) : Touches state next key (.requeue consumer eventId)
  | pruned (held : state.receipts.get key = some before) (settled : before.state = .settled)
      (gone : next.receipts.get key = none) (event : next.mailbox.get key.1 = none) :
      Touches state next key (.prune retentionMs limit scan)

private theorem claim_touches (token : ID) (consumer : JsString) (key : ID × JsString) :
    Touches state (state.claim policy codec token consumer) key (.claim token consumer) := by
  unfold MailboxState.claim
  split
  · split
    · split
      · exact .spared rfl
      · rename_i claimed receipts done
        have claiming := claim_inv done
        by_cases spared : ∀ row, state.receipts.get key = some row → key.2 = consumer →
            row.state ≠ .pending
        · apply Touches.spared
          apply claiming.spares
          intro row found selected
          exact spared row found (by simpa [Mailbox.queue] using selected)
        · push Not at spared
          obtain ⟨row, found, own, pending⟩ := spared
          have present : receipts.get key ≠ none := by
            intro gone
            rw [(claiming.retained.present key).mp gone] at found
            cases found
          cases after : receipts.get key with
          | none => exact absurd after present
          | some next =>
            refine .claimed found pending after ?_ own
            intro settled
            obtain ⟨before, held, also⟩ := claiming.retained.settled key next after settled
            rw [found] at held
            cases held
            rw [pending] at also
            cases also
    · exact .spared rfl
  · exact .spared rfl

private theorem finish_touches (token : ID) (draw : Draw) (key : ID × JsString) :
    Touches state (state.finish policy token draw) key (.finish token draw) := by
  unfold MailboxState.finish
  split
  · rename_i consumer event attempt error finishing
    split
    · exact .spared rfl
    · rename_i receipts done
      obtain ⟨row, holder, written⟩ := finish_inv done
      by_cases same : key = (event.id, consumer)
      · subst same
        have named : row.key = (event.id, consumer) := Table.key_of_get holder.found
        have found : receipts.get (event.id, consumer) = some { row with
            toDeliveryColumns := row.finish (outcome policy attempt error) error
              (delayMs policy attempt draw error) state.now } := by
          rw [written, get_rewrite, holder.found]
          simp [named]
        refine .finished finishing rfl holder.found holder.pending holder.lease found ?_
        · intro settled
          cases error with
          | none => rfl
          | some text =>
            simp only [DeliveryColumns.finish, outcome] at settled
            split at settled <;> cases settled
      · exact .spared (finish_spares done fun _ _ also => absurd also same)
  · exact .spared rfl

private theorem requeue_touches (consumer : JsString) (eventId : Option ID) (key : ID × JsString) :
    Touches state (state.requeue consumer eventId) key (.requeue consumer eventId) := by
  unfold MailboxState.requeue
  split
  · exact .spared rfl
  · rename_i receipts count done
    have done := Mailbox.requeue_inv done
    have written := (update_inv done).1
    cases found : state.receipts.get key with
    | none =>
      refine .spared ?_
      rw [found]
      exact ((requeue_retained done).present key).mpr found
    | some row =>
      have named : row.key = key := Table.key_of_get found
      by_cases taken : (key.2 = consumer ∧ eventId.all (key.1 = ·) = true) ∧ row.state = .dead
      · have pending : receipts.get key =
            some { row with toDeliveryColumns := row.requeue state.now } := by
          rw [written, get_rewrite, found]
          simp [named, taken.1.1, taken.1.2, taken.2]
        exact .requeued found taken.2 pending rfl taken.1.1
      · refine .spared (requeue_spares done ?_)
        intro other held selected dead
        rw [found] at held
        cases held
        exact taken ⟨by simpa using selected, dead⟩

private theorem prune_touches (retentionMs : Int) (limit : Nat) (scan : ID → Bool)
    (key : ID × JsString) :
    Touches state (state.prune retentionMs limit scan) key (.prune retentionMs limit scan) := by
  cases found : state.receipts.get key with
  | none =>
    refine .spared ?_
    simp [MailboxState.prune, Table.get_keep, found]
  | some row =>
    have named : row.key = key := Table.key_of_get found
    by_cases gone : key.1 ∈ Mailbox.prunable state.mailbox state.receipts retentionMs limit scan state.now
    · refine .pruned found (Mailbox.prunable_settled gone (Table.mem_of_get found)
        (congrArg Prod.fst named)) ?_ ?_
      · simp [MailboxState.prune, Table.get_keep, found, named, gone]
      · cases stored : state.mailbox.get key.1 with
        | none => simp [MailboxState.prune, Table.get_keep, stored]
        | some held =>
          have same : held.eventId = key.1 := Table.key_of_get stored
          simp [MailboxState.prune, Table.get_keep, stored, same, gone]
    · refine .spared ?_
      simp [MailboxState.prune, Table.get_keep, found, named, gone]

theorem step_touches (policy : RetryPolicy) (codec : Codec Text Work) (state : MailboxState Text Work)
    (label : MailboxLabel Work) (key : ID × JsString) :
    Touches state (state.step policy codec label) key label := by
  cases label with
  | accept event consumers =>
    simp only [step, MailboxState.accept]
    split
    · exact .spared rfl
    · rename_i mailbox receipts done
      obtain ⟨_, opened⟩ := Mailbox.accept_inv done
      subst opened
      rcases Mailbox.get_opened event.id state.now consumers state.receipts key with
        same | ⟨missing, named, member, fresh⟩
      · exact .spared same
      · exact .opened missing fresh ⟨named, member⟩
  | claim token consumer => exact claim_touches token consumer key
  | handle token result =>
    simp only [step, MailboxState.handle]
    split <;> exact .spared rfl
  | finish token draw => exact finish_touches token draw key
  | crash token => exact .spared rfl
  | requeue consumer eventId => exact requeue_touches consumer eventId key
  | prune retentionMs limit scan => exact prune_touches retentionMs limit scan key
  | tick elapsed => exact .spared rfl

/-- A worker comes to finish without an error only when its handler returns ok. -/
private theorem step_finishing (label : MailboxLabel Work) {token : ID} {consumer : JsString}
    {event : Envelope Work} {attempt : Nat}
    (before : state.workers token ≠ .finishing consumer event attempt none)
    (after : (state.step policy codec label).workers token = .finishing consumer event attempt none) :
    label = .handle token (.ok ()) ∧ state.workers token = .handling consumer event attempt := by
  have moved : ∀ other worker, worker ≠ .finishing consumer event attempt none →
      Function.update state.workers other worker token ≠ .finishing consumer event attempt none := by
    intro other worker apart
    by_cases same : token = other
    · subst same
      rwa [Function.update_self]
    · rwa [Function.update_of_ne same]
  cases label with
  | accept event consumers =>
    simp only [step, MailboxState.accept] at after
    split at after <;> exact absurd after before
  | claim other consumer =>
    simp only [step, MailboxState.claim] at after
    split at after
    · split at after
      · split at after
        · exact absurd after (moved _ _ (by simp))
        · rename_i claimed receipts done
          refine absurd after (moved _ _ ?_)
          cases claimed <;> simp [Worker.claimed]
      · exact absurd after (moved _ _ (by simp))
    · exact absurd after before
  | handle other result =>
    simp only [step, MailboxState.handle] at after
    split at after
    · rename_i handling
      by_cases same : token = other
      · subst same
        simp only [move, Function.update_self] at after
        cases result with
        | error error => simp at after
        | ok done =>
          simp only [Worker.finishing.injEq] at after
          obtain ⟨rfl, rfl, rfl, _⟩ := after
          exact ⟨rfl, handling⟩
      · simp only [move, Function.update_of_ne same] at after
        exact absurd after before
    · exact absurd after before
  | finish other draw =>
    simp only [step, MailboxState.finish] at after
    split at after
    · split at after <;> exact absurd after (moved _ _ (by simp))
    · exact absurd after before
  | crash other => exact absurd after (moved _ _ (by simp))
  | requeue consumer eventId =>
    simp only [step, MailboxState.requeue] at after
    split at after <;> exact absurd after before
  | prune retentionMs limit scan => exact absurd after before
  | tick elapsed => exact absurd after before

/-- A settled receipt stays as it is for as long as its event is kept. -/
private theorem settled_step {key : ID × JsString} {row : DeliveryRow (ID × JsString) Unit}
    (found : state.receipts.get key = some row) (settled : row.state = .settled)
    (label : MailboxLabel Work) (kept : (state.step policy codec label).mailbox.get key.1 ≠ none) :
    (state.step policy codec label).receipts.get key = some row := by
  cases step_touches policy codec state label key with
  | spared same => rw [same, found]
  | opened missing => rw [found] at missing; cases missing
  | claimed held pending =>
    rw [found] at held
    cases held
    rw [settled] at pending
    cases pending
  | finished _ _ held pending =>
    rw [found] at held
    cases held
    rw [settled] at pending
    cases pending
  | requeued held dead =>
    rw [found] at held
    cases held
    rw [settled] at dead
    cases dead
  | pruned _ _ _ gone => exact absurd gone kept

private theorem settled_run {key : ID × JsString} {row : DeliveryRow (ID × JsString) Unit}
    (settled : row.state = .settled) (later : List (MailboxLabel Work))
    (found : state.receipts.get key = some row)
    (kept : ∀ visited, visited <+: later →
      (run (step policy codec) state visited).mailbox.get key.1 ≠ none) :
    (run (step policy codec) state later).receipts.get key = some row := by
  induction later generalizing state with
  | nil => exact found
  | cons label rest ih =>
    apply ih
    · exact settled_step found settled label
        (kept [label] (List.cons_prefix_cons.mpr ⟨rfl, List.nil_prefix⟩))
    · intro visited start
      exact kept (label :: visited) (List.cons_prefix_cons.mpr ⟨rfl, start⟩)

end MailboxState

/-- The handler of a consumer returned ok for an event, on the attempt its worker
claimed, at some point of the run. -/
def Handled (policy : RetryPolicy) (codec : Codec Text Work) (now : Int)
    (labels : List (MailboxLabel Work)) (token : ID) (consumer : JsString) (event : Envelope Work)
    (attempt : Nat) : Prop :=
  ∃ earlier later, labels = earlier ++ .handle token (.ok ()) :: later ∧
    (run (MailboxState.step policy codec) (.initial now) earlier).workers token =
      .handling consumer event attempt

private theorem Handled.extend {policy : RetryPolicy} {codec : Codec Text Work} {now : Int}
    {labels : List (MailboxLabel Work)} {token : ID} {consumer : JsString} {event : Envelope Work}
    {attempt : Nat} (handled : Handled policy codec now labels token consumer event attempt)
    (later : List (MailboxLabel Work)) :
    Handled policy codec now (labels ++ later) token consumer event attempt := by
  obtain ⟨earlier, rest, same, handling⟩ := handled
  refine ⟨earlier, rest ++ later, ?_, handling⟩
  rw [same, List.append_assoc, List.cons_append]

/-- Inbox safety of a run: of the state it ends in, of every step from there, and
of every continuation. -/
structure InboxSafety (policy : RetryPolicy) (codec : Codec Text Work) (now : Int)
    (labels : List (MailboxLabel Work)) (state : MailboxState Text Work) : Prop where
  /-- A step performed for some consumers changes no other consumer's receipt. -/
  isolated : ∀ label consumers, label.consumers state = some consumers →
    ∀ key : ID × JsString, key.2 ∉ consumers →
      (state.step policy codec label).receipts.get key = state.receipts.get key
  /-- A receipt becomes processed only by the finish of the worker its lease names,
  after the consumer's handler returned ok for that event. -/
  processed : ∀ label key row, (state.step policy codec label).receipts.get key = some row →
    row.state = .settled →
    (∃ before, state.receipts.get key = some before ∧ before.state = .settled) ∨
      ∃ token draw event attempt before, label = .finish token draw ∧ key.1 = event.id ∧
        state.receipts.get key = some before ∧ before.lease = some token ∧
        state.workers token = .finishing key.2 event attempt none ∧
        Handled policy codec now labels token key.2 event attempt
  /-- A finish whose token the receipt no longer names changes nothing and reports
  the lease lost, as long as its delay can be sent. -/
  lost : ∀ token draw consumer event attempt error,
    state.workers token = .finishing consumer event attempt error →
    (∀ row, state.receipts.get (event.id, consumer) = some row →
      row.lease = some token → row.state ≠ .pending) →
    (state.step policy codec (.finish token draw)).receipts = state.receipts ∧
      (state.step policy codec (.finish token draw)).mailbox = state.mailbox ∧
      (error = none ∨ policy.Sendable →
        (state.step policy codec (.finish token draw)).workers token =
          .returned (.error (conflict "lease_lost")))
  /-- Processed is final while the event is kept: the receipt stays as it is and no
  claim returns it. -/
  final : ∀ key row later, state.receipts.get key = some row → row.state = .settled →
    (∀ visited, visited <+: later →
      (run (MailboxState.step policy codec) state visited).mailbox.get key.1 ≠ none) →
    let afterwards := run (MailboxState.step policy codec) state later
    afterwards.receipts.get key = some row ∧
      ∀ token consumer event attempt receipts,
        Mailbox.claim policy codec afterwards.mailbox afterwards.receipts consumer token
          afterwards.now ≠ .ok (.leased key event attempt, receipts)
  /-- An event is removed only when all its receipts are processed. -/
  removed : ∀ label id, state.mailbox.get id ≠ none →
    (state.step policy codec label).mailbox.get id = none →
    ∀ row ∈ state.receipts.rows, row.key.1 = id → row.state = .settled
  /-- Accepting an event opens a receipt for each of its consumers. -/
  accepted : ∀ event consumers mailbox receipts,
    Mailbox.accept codec state.mailbox state.receipts event consumers state.now =
      .ok (mailbox, receipts) →
    ∀ consumer ∈ consumers, ∃ row,
      (state.step policy codec (.accept event consumers)).receipts.get (event.id, consumer) = some row
  /-- A receipt that is gone later was processed before that, and then the handler
  had succeeded. -/
  delivered : ∀ key row later, state.receipts.get key = some row →
    (run (MailboxState.step policy codec) state later).receipts.get key = none →
    ∃ token event attempt, key.1 = event.id ∧
      Handled policy codec now (labels ++ later) token key.2 event attempt

namespace InboxSafety

variable {policy : RetryPolicy} {codec : Codec Text Work} {now : Int}
  {labels : List (MailboxLabel Work)} {state : MailboxState Text Work}

private theorem handled_of_finishing {token : ID} {consumer : JsString} {event : Envelope Work}
    {attempt : Nat}
    (finishing : (run (MailboxState.step policy codec) (.initial now) labels).workers token =
      .finishing consumer event attempt none) :
    Handled policy codec now labels token consumer event attempt := by
  obtain ⟨earlier, label, later, same, before, after⟩ := run_turn
    (fun state : MailboxState Text Work => state.workers token = .finishing consumer event attempt none)
    (by simp [MailboxState.initial]) finishing
  obtain ⟨label_eq, handling⟩ := MailboxState.step_finishing label before after
  exact ⟨earlier, later, label_eq ▸ same, handling⟩

private theorem processed_of (labels : List (MailboxLabel Work)) (label : MailboxLabel Work)
    (key : ID × JsString) (row : DeliveryRow (ID × JsString) Unit)
    (found : ((run (MailboxState.step policy codec) (.initial now) labels).step policy codec
      label).receipts.get key = some row) (settled : row.state = .settled) :
    let state := run (MailboxState.step policy codec) (.initial now) labels
    (∃ before, state.receipts.get key = some before ∧ before.state = .settled) ∨
      ∃ token draw event attempt before, label = .finish token draw ∧ key.1 = event.id ∧
        state.receipts.get key = some before ∧ before.lease = some token ∧
        state.workers token = .finishing key.2 event attempt none ∧
        Handled policy codec now labels token key.2 event attempt := by
  intro state
  cases MailboxState.step_touches policy codec state label key with
  | spared same => exact .inl ⟨row, same.symm.trans found, settled⟩
  | opened _ fresh =>
    rw [fresh] at found
    cases found
    cases settled
  | claimed _ _ after unsettled =>
    rw [after] at found
    cases found
    exact absurd settled unsettled
  | finished finishing named held _ leased after settles =>
    rw [after] at found
    cases found
    rw [settles settled] at finishing
    exact .inr ⟨_, _, _, _, _, rfl, named, held, leased, finishing, handled_of_finishing finishing⟩
  | requeued _ _ after pending =>
    rw [after] at found
    cases found
    rw [settled] at pending
    cases pending
  | pruned _ _ gone =>
    rw [gone] at found
    cases found

/-- Every processed receipt was handled. -/
private theorem handled_of_settled (labels : List (MailboxLabel Work)) {key : ID × JsString}
    {row : DeliveryRow (ID × JsString) Unit}
    (found : (run (MailboxState.step policy codec) (.initial now) labels).receipts.get key = some row)
    (settled : row.state = .settled) :
    ∃ token event attempt, key.1 = event.id ∧
      Handled policy codec now labels token key.2 event attempt := by
  obtain ⟨earlier, label, later, same, before, row', found', settled'⟩ := run_turn
    (fun state : MailboxState Text Work => ∃ row, state.receipts.get key = some row ∧
      row.state = .settled) (by simp [MailboxState.initial]) ⟨row, found, settled⟩
  rcases processed_of earlier label key row' found' settled' with
    already | ⟨token, _, event, attempt, _, _, named, _, _, _, handled⟩
  · exact absurd already before
  · refine ⟨token, event, attempt, named, ?_⟩
    rw [same]
    exact handled.extend (label :: later)

private theorem isolated_of {label : MailboxLabel Work} {consumers : List JsString}
    (serves : label.consumers state = some consumers) {key : ID × JsString}
    (other : key.2 ∉ consumers) :
    (state.step policy codec label).receipts.get key = state.receipts.get key := by
  cases MailboxState.step_touches policy codec state label key with
  | spared same => exact same
  | opened _ _ asked =>
    cases serves
    exact absurd asked.2 other
  | claimed _ _ _ _ own =>
    cases serves
    exact absurd (List.mem_singleton.mpr own) other
  | finished finishing =>
    simp only [MailboxLabel.consumers, finishing, Worker.consumers, Option.some.injEq] at serves
    rw [← serves] at other
    exact absurd (List.mem_singleton.mpr rfl) other
  | requeued _ _ _ _ own =>
    cases serves
    exact absurd (List.mem_singleton.mpr own) other
  | pruned => cases serves

private theorem lost_of {token : ID} {draw : Draw} {consumer : JsString} {event : Envelope Work}
    {attempt : Nat} {error : Option JsString}
    (finishing : state.workers token = .finishing consumer event attempt error)
    (stranger : ∀ row, state.receipts.get (event.id, consumer) = some row →
      row.lease = some token → row.state ≠ .pending) :
    (state.step policy codec (.finish token draw)).receipts = state.receipts ∧
      (state.step policy codec (.finish token draw)).mailbox = state.mailbox ∧
      (error = none ∨ policy.Sendable →
        (state.step policy codec (.finish token draw)).workers token =
          .returned (.error (conflict "lease_lost"))) := by
  have refused : Mailbox.finish policy state.receipts consumer event.id token attempt error draw
      state.now = .error (if fitsInteger (delayMs policy attempt draw error) then
        conflict "lease_lost" else databaseFailed) := by
    apply finish_lost
    intro row holder
    exact stranger row holder.found holder.lease holder.pending
  simp only [MailboxState.step, MailboxState.finish, finishing, refused]
  refine ⟨rfl, rfl, ?_⟩
  intro sendable
  simp [MailboxState.move, delayMs_fits sendable]

private theorem removed_of {label : MailboxLabel Work} {id : ID} (present : state.mailbox.get id ≠ none)
    (gone : (state.step policy codec label).mailbox.get id = none) :
    ∀ row ∈ state.receipts.rows, row.key.1 = id → row.state = .settled := by
  cases label with
  | accept event consumers =>
    simp only [MailboxState.step, MailboxState.accept] at gone
    split at gone
    · exact absurd gone present
    · rename_i done
      exact absurd gone (Mailbox.insert_present (Mailbox.accept_inv done).1 present)
  | claim token consumer =>
    simp only [MailboxState.step, MailboxState.claim] at gone
    split at gone
    · split at gone
      · split at gone <;> exact absurd gone present
      · exact absurd gone present
    · exact absurd gone present
  | handle token result =>
    simp only [MailboxState.step, MailboxState.handle] at gone
    split at gone <;> exact absurd gone present
  | finish token draw =>
    simp only [MailboxState.step, MailboxState.finish] at gone
    split at gone
    · split at gone <;> exact absurd gone present
    · exact absurd gone present
  | crash token => exact absurd gone present
  | requeue consumer eventId =>
    simp only [MailboxState.step, MailboxState.requeue] at gone
    split at gone <;> exact absurd gone present
  | prune retentionMs limit scan =>
    intro row member named
    cases stored : state.mailbox.get id with
    | none => exact absurd stored present
    | some held =>
      have same : held.eventId = id := Table.key_of_get stored
      have pruned : id ∈ Mailbox.prunable state.mailbox state.receipts retentionMs limit scan
          state.now := by
        by_contra kept
        simp [MailboxState.step, MailboxState.prune, Table.get_keep, stored, same, kept] at gone
      exact Mailbox.prunable_settled pruned member named
  | tick elapsed => exact absurd gone present

/-- A receipt goes only once it is settled. -/
private theorem gone_settled {label : MailboxLabel Work} {key : ID × JsString}
    (present : ¬ state.receipts.get key = none)
    (gone : (state.step policy codec label).receipts.get key = none) :
    ∃ row, state.receipts.get key = some row ∧ row.state = .settled := by
  cases MailboxState.step_touches policy codec state label key with
  | spared same => exact absurd (same.symm.trans gone) present
  | opened _ fresh => rw [fresh] at gone; cases gone
  | claimed _ _ found => rw [found] at gone; cases gone
  | finished _ _ _ _ _ found => rw [found] at gone; cases gone
  | requeued _ _ found => rw [found] at gone; cases gone
  | pruned held settled => exact ⟨_, held, settled⟩

private theorem claim_unsettled {mailbox : MailboxRows Text} {receipts next : MailboxReceipts}
    {consumer : JsString} {token : ID} {key : ID × JsString} {event : Envelope Work} {attempt : Nat}
    (done : Mailbox.claim policy codec mailbox receipts consumer token now =
      .ok (.leased key event attempt, next)) {row : DeliveryRow (ID × JsString) Unit}
    (found : receipts.get key = some row) : row.state ≠ .settled := by
  cases claim_inv done with
  | leased claimed _ present _ _ due =>
    have held : receipts.get claimed.key = some claimed := Table.get_of_mem present
    rw [found] at held
    cases held
    rw [(claimable_pending due).1]
    decide

end InboxSafety

/-- Inbox delivery is per consumer and loses nothing, in every run. -/
theorem inbox_safety (policy : RetryPolicy) (codec : Codec Text Work) (now : Int)
    (labels : List (MailboxLabel Work)) :
    InboxSafety policy codec now labels (run (MailboxState.step policy codec) (.initial now) labels) where
  isolated := fun _ _ serves _ other => InboxSafety.isolated_of serves other
  processed := InboxSafety.processed_of labels
  lost := fun _ _ _ _ _ _ finishing stranger => InboxSafety.lost_of finishing stranger
  final := by
    intro key row later found settled kept
    have stays := MailboxState.settled_run settled later found kept
    refine ⟨stays, ?_⟩
    intro token consumer event attempt receipts done
    exact InboxSafety.claim_unsettled done stays settled
  removed := fun _ _ present gone => InboxSafety.removed_of present gone
  accepted := by
    intro event consumers mailbox receipts done consumer member
    have opened := Mailbox.opened_present event.id
      (run (MailboxState.step policy codec) (.initial now) labels).now consumers
      (run (MailboxState.step policy codec) (.initial now) labels).receipts member
    simp only [MailboxState.step, MailboxState.accept, done]
    rw [(Mailbox.accept_inv done).2]
    exact Option.ne_none_iff_exists'.mp opened
  delivered := by
    intro key row later found gone
    obtain ⟨earlier, label, rest, same, present, left⟩ := run_turn
      (fun state : MailboxState Text Work => state.receipts.get key = none) (by simp [found]) gone
    obtain ⟨settledRow, held, settled⟩ := InboxSafety.gone_settled present left
    rw [← run_append] at held
    obtain ⟨token, event, attempt, named, handled⟩ :=
      InboxSafety.handled_of_settled (labels ++ earlier) held settled
    refine ⟨token, event, attempt, named, ?_⟩
    rw [same, ← List.append_assoc]
    exact handled.extend (label :: rest)

end N2FNest.Events
