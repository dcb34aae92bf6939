import N2FNest.HttpClient.Calls

/-! What every run of the client keeps: at most 64 exchanges in progress, each call sent at most
once and not after `close`, and nothing on the wire but what the checks let through. -/

namespace N2FNest.HttpClient

open Lib Shared Telemetry

variable {host : UrlHost} {client : Client} {labels : List ClientLabel}

/-- A request as its call's checks let it through. -/
structure Allowed (host : UrlHost) (client : Client) (request : Request) (sent : Sent) : Prop where
  wellFormed : request.wellFormed client.maxRequest = true
  resolved : host.resolve request.path client.base = some sent.target
  origin : sent.target.origin = client.base.origin
  method : sent.method = request.method
  body : sent.body = request.body
  traced : ∃ trace : Option TraceRef, request.trace = trace.map some ∧
    sent.headers = headers client trace request.body

theorem prepare_ok {closed aborted : Bool} {active : Nat} {request : Request} {sent : Sent}
    (prepared : prepare host client closed active aborted request = .ok sent) :
    closed = false ∧ active < 64 ∧ aborted = false ∧ Allowed host client request sent := by
  unfold prepare at prepared
  split at prepared
  · cases prepared
  rename_i unclosed
  split at prepared
  · cases prepared
  rename_i room
  split at prepared
  · cases prepared
  rename_i wanted
  split at prepared
  · cases prepared
  rename_i wellFormed
  refine ⟨Bool.eq_false_of_not_eq_true unclosed, Nat.lt_of_not_le room,
    Bool.eq_false_of_not_eq_true wanted, ?_⟩
  have wellFormed := Bool.eq_true_of_not_eq_false wellFormed
  split at prepared
  · cases prepared
  rename_i target resolved
  split at prepared
  · cases prepared
  rename_i origin
  have origin := not_not.mp origin
  split at prepared
  · cases prepared
  · rename_i ref traced
    cases prepared
    exact ⟨wellFormed, resolved, origin, rfl, rfl, some ref, traced, rfl⟩
  · rename_i untraced
    cases prepared
    exact ⟨wellFormed, resolved, origin, rfl, rfl, none, untraced, rfl⟩

/-- What is sent is what the checks of its call made of the request, when the call was made. -/
def Came (host : UrlHost) (client : Client) (labels : List ClientLabel) (entry : Nat × Sent) : Prop :=
  ∃ before request rest, labels = before ++ .call entry.1 request false false :: rest ∧
    (after host client before).calls entry.1 = none ∧
    prepare host client (after host client before).closed (after host client before).active.length
      false request = .ok entry.2

theorem Came.concat {entry : Nat × Sent} (came : Came host client labels entry) (label : ClientLabel) :
    Came host client (labels ++ [label]) entry := by
  obtain ⟨before, request, rest, rfl, first, prepared⟩ := came
  exact ⟨before, request, rest ++ [label], by rw [List.append_assoc, List.cons_append], first, prepared⟩

/-- An exchange of the call is in progress. -/
def ClientState.Working (state : ClientState) (id : Nat) : Prop :=
  ∃ exchange, state.calls id = some (.active exchange)

structure Kept (host : UrlHost) (client : Client) (labels : List ClientLabel) (state : ClientState) :
    Prop where
  few : state.active.length ≤ 64
  distinct : state.active.Nodup
  works : ∀ id, id ∈ state.active ↔ state.Working id
  closed : state.closed = true ↔ .close ∈ labels
  once : (state.sent.map Prod.fst).Nodup
  called : ∀ entry ∈ state.sent, state.calls entry.1 ≠ none
  came : ∀ entry ∈ state.sent, Came host client labels entry

/-- A step that sends nothing keeps what was sent. -/
private theorem Kept.quiet {state next : ClientState} (kept : Kept host client labels state)
    {label : ClientLabel} (few : next.active.length ≤ 64) (distinct : next.active.Nodup)
    (works : ∀ id, id ∈ next.active ↔ next.Working id)
    (closed : next.closed = true ↔ state.closed = true ∨ label = .close)
    (sent : next.sent = state.sent) (grows : ∀ id, state.calls id ≠ none → next.calls id ≠ none) :
    Kept host client (labels ++ [label]) next where
  few := few
  distinct := distinct
  works := works
  closed := by rw [closed, kept.closed, List.mem_append, List.mem_singleton, eq_comm (a := label)]
  once := by rw [sent]; exact kept.once
  called entry member := by
    rw [sent] at member
    exact grows _ (kept.called entry member)
  came entry member := by
    rw [sent] at member
    exact (kept.came entry member).concat label

private theorem Kept.still {state : ClientState} (kept : Kept host client labels state)
    {label : ClientLabel} (other : label ≠ .close) : Kept host client (labels ++ [label]) state :=
  kept.quiet kept.few kept.distinct kept.works (by simp [other]) rfl fun _ called => called

theorem working_put {state : ClientState} {id : Nat} {call : Call} (other : Nat) :
    (state.put id call).Working other ↔
      if other = id then ∃ exchange, call = .active exchange else state.Working other := by
  unfold ClientState.Working ClientState.put
  by_cases same : other = id
  · subst same
    simp
  · simp [same]

theorem put_called {state : ClientState} {id : Nat} {call : Call} (other : Nat)
    (called : state.calls other ≠ none) : (state.put id call).calls other ≠ none := by
  unfold ClientState.put
  by_cases same : other = id
  · subst same
    simp
  · simpa [Function.update_of_ne same] using called

theorem Kept.call {state : ClientState} (kept : Kept host client labels state)
    (reached : after host client labels = state) {id : Nat} (fresh : state.calls id = none)
    (request : Request) (aborted refused : Bool) :
    Kept host client (labels ++ [.call id request aborted refused])
      (state.call host client id request aborted refused) := by
  have idle : id ∉ state.active := by
    intro member
    obtain ⟨exchange, held⟩ := (kept.works id).mp member
    rw [fresh] at held
    cases held
  have unsent : id ∉ state.sent.map Prod.fst := by
    intro member
    obtain ⟨entry, earlier, rfl⟩ := List.mem_map.mp member
    exact kept.called entry earlier fresh
  unfold ClientState.call
  split
  · refine kept.quiet kept.few kept.distinct (fun other => ?_) (by simp [ClientState.put]) rfl
      fun other => put_called other
    rw [working_put]
    by_cases same : other = id
    · subst same
      rw [if_pos rfl]
      refine iff_of_false idle ?_
      rintro ⟨exchange, made⟩
      cases made
    · rw [if_neg same]
      exact kept.works other
  · rename_i sent prepared
    obtain ⟨-, room, unaborted, -⟩ := prepare_ok prepared
    have sends : ∀ entry ∈ (if refused then state.sent else state.sent ++ [(id, sent)]),
        entry ∈ state.sent ∨ refused = false ∧ entry = (id, sent) := by
      intro entry member
      cases refused with
      | true => exact .inl member
      | false =>
        rcases List.mem_append.mp member with earlier | made
        · exact .inl earlier
        · exact .inr ⟨rfl, List.mem_singleton.mp made⟩
    refine ⟨?_, ?_, fun other => ?_, ?_, ?_, fun entry member => ?_, fun entry member => ?_⟩
    · show (state.active ++ [id]).length ≤ 64
      rw [List.length_append, List.length_singleton]
      exact room
    · show (state.active ++ [id]).Nodup
      rw [← List.concat_eq_append]
      exact kept.distinct.concat idle
    · show other ∈ state.active ++ [id] ↔
        (state.put id (.active (ClientState.opened refused))).Working other
      rw [working_put, List.mem_append, List.mem_singleton, kept.works]
      by_cases same : other = id
      · rw [if_pos same]
        exact iff_of_true (.inr same) ⟨_, rfl⟩
      · rw [if_neg same, or_iff_left same]
    · show state.closed = true ↔ _
      rw [kept.closed, List.mem_append, List.mem_singleton]
      simp
    · cases refused with
      | true => exact kept.once
      | false =>
        show ((state.sent ++ [(id, sent)]).map Prod.fst).Nodup
        rw [List.map_append, List.map_singleton, ← List.concat_eq_append]
        exact kept.once.concat unsent
    · show (state.put id (.active (ClientState.opened refused))).calls entry.1 ≠ none
      rcases sends entry member with earlier | ⟨-, rfl⟩
      · exact put_called _ (kept.called entry earlier)
      · simp [ClientState.put]
    · rcases sends entry member with earlier | ⟨rfl, rfl⟩
      · exact (kept.came entry earlier).concat _
      · rw [unaborted] at prepared ⊢
        exact ⟨labels, request, [], rfl, reached ▸ fresh, reached ▸ prepared⟩

theorem Kept.happen {state : ClientState} (kept : Kept host client labels state) (id : Nat)
    (event : Event) : Kept host client (labels ++ [.event id event]) (state.happen client id event) := by
  unfold ClientState.happen
  split
  · rename_i exchange running
    refine kept.quiet kept.few kept.distinct (fun other => ?_) (by simp [ClientState.put]) rfl
      fun other => put_called other
    rw [working_put]
    by_cases same : other = id
    · rw [if_pos same, same]
      exact iff_of_true ((kept.works id).mpr ⟨exchange, running⟩) ⟨_, rfl⟩
    · rw [if_neg same]
      exact kept.works other
  · exact kept.still (by simp)

theorem Kept.settle {state : ClientState} (kept : Kept host client labels state) (id : Nat) :
    Kept host client (labels ++ [.settle id]) (state.settle id) := by
  unfold ClientState.settle
  split
  · refine kept.quiet ((List.length_erase_le).trans kept.few) (kept.distinct.erase id)
      (fun other => ?_) (by simp [ClientState.put]) rfl fun other => put_called other
    rename_i answer running
    show other ∈ state.active.erase id ↔ (state.put id (.returned answer)).Working other
    rw [working_put, kept.distinct.mem_erase_iff, kept.works]
    by_cases same : other = id
    · rw [if_pos same]
      refine iff_of_false (fun both => both.1 same) ?_
      rintro ⟨exchange, made⟩
      cases made
    · rw [if_neg same, and_iff_right same]
  · exact kept.still (by simp)

theorem working_close {state : ClientState} (id : Nat) :
    (state.close client).Working id ↔ state.Working id := by
  simp only [ClientState.Working, ClientState.close]
  cases held : state.calls id with
  | none => simp
  | some call => cases call <;> simp

theorem Kept.close {state : ClientState} (kept : Kept host client labels state) :
    Kept host client (labels ++ [.close]) (state.close client) := by
  refine kept.quiet kept.few kept.distinct (fun other => ?_) (by simp [ClientState.close]) rfl
    fun other called => ?_
  · rw [working_close]
    exact kept.works other
  · simpa [ClientState.close] using called

theorem kept_run (labels : List ClientLabel) :
    Kept host client labels (after host client labels) := by
  induction labels using List.reverseRecOn with
  | nil =>
    refine ⟨Nat.zero_le _, List.nodup_nil, fun id => iff_of_false List.not_mem_nil ?_, ?_,
      List.nodup_nil, ?_, ?_⟩
    · rintro ⟨exchange, held⟩
      cases held
    · exact iff_of_false Bool.false_ne_true List.not_mem_nil
    · intro entry member
      cases member
    · intro entry member
      cases member
  | append_singleton labels label ih =>
    rw [after, run_append, run_cons, run_nil]
    have kept : Kept host client labels (after host client labels) := ih
    cases label with
    | call id request aborted refused =>
      simp only [ClientState.step]
      split
      · rename_i fresh
        exact kept.call rfl fresh request aborted refused
      · exact kept.still (by simp)
    | event id event => exact kept.happen id event
    | settle id => exact kept.settle id
    | close => exact kept.close

/-- An exchange that is open has received no more than it may. -/
theorem Open.small {maxResponse : Nat} {events : List Event} (undecided : Open maxResponse events) :
    (received events).flatten.length ≤ maxResponse := by
  induction events using List.reverseRecOn with
  | nil => exact Nat.zero_le _
  | append_singleton events event ih =>
    have before : Open maxResponse events := by
      intro first other rest same
      refine undecided first other (rest ++ [event]) ?_
      rw [same, List.append_assoc, List.cons_append]
    have last : decision maxResponse events event = none := undecided events event [] rfl
    rw [received_concat, List.flatten_append, List.length_append]
    cases begun : (started events).isSome with
    | false => simpa using ih before
    | true =>
      rw [if_pos rfl]
      cases event with
      | data chunk =>
        simp only [Event.chunk?, Option.toList_some, List.flatten_singleton]
        by_contra large
        rw [decision, if_pos ⟨begun, Nat.lt_of_not_le large⟩] at last
        cases last
      | _ => simpa [Event.chunk?] using ih before

/-- A response that is returned is complete, of a status of HTTP, and no longer than allowed. -/
theorem Decided.response {maxResponse : Nat} {events : List Event} {response : Response}
    (decided : Decided maxResponse events (.ok response)) :
    200 ≤ response.status ∧ response.status ≤ 599 ∧ response.body.length ≤ maxResponse := by
  obtain ⟨before, event, after, -, made, undecided⟩ := decided
  have small : (received before).flatten.length ≤ maxResponse := Open.small undecided
  cases event with
  | ended complete =>
    obtain ⟨⟨status, contentType⟩, -, same⟩ := Option.map_eq_some_iff.mp made
    simp only [answerOf] at same
    split at same
    · cases same
    · rename_i sound
      cases same
      obtain ⟨low, rest⟩ := not_or.mp sound
      exact ⟨Nat.le_of_not_lt low, Nat.le_of_not_lt (not_or.mp rest).1, small⟩
  | data chunk =>
    simp only [decision] at made
    split at made <;> cases made
  | failed => cases made
  | _ => cases made

theorem Answers.response {id : Nat} {response : Response}
    (answers : Answers host client labels id (.ok response)) :
    200 ≤ response.status ∧ response.status ≤ 599 ∧ response.body.length ≤ client.maxResponse := by
  obtain ⟨before, request, aborted, refused, rest, -, -, comes⟩ := answers
  split at comes
  · cases comes
  · split at comes
    · cases comes
    · exact comes.response

theorem happen_active {state : ClientState} {id : Nat} {exchange : Exchange}
    (held : state.calls id = some (.active exchange)) (event : Event) :
    (state.happen client id event).calls id = some (.active (exchange.step client.maxResponse event)) := by
  rw [ClientState.happen, held]
  exact Function.update_self _ _ _

theorem settle_answered {state : ClientState} {id : Nat} {exchange : Exchange}
    {answer : Except Failure Response} (held : state.calls id = some (.active exchange))
    (answered : exchange.answer = some answer) :
    (state.settle id).calls id = some (.returned answer) := by
  cases exchange with
  | mk timedOut aborted head chunks size made =>
    cases answered
    rw [ClientState.settle, held]
    exact Function.update_self _ _ _

/-- Whatever happens to the calls of a client and in whatever order, at most 64 of them have an
exchange in progress; what a call returns is decided by its own checks and its own exchange, a
returned response is complete and within its bounds, and an exchange in progress is ended by its
timer and the error that follows. -/
theorem calls_answered (host : UrlHost) (client : Client) (labels : List ClientLabel) :
    let state := run (ClientState.step host client) .initial labels
    state.active.length ≤ 64 ∧ state.active.Nodup ∧ (∀ id, id ∈ state.active ↔ state.Working id) ∧
    (∀ id answer, state.calls id = some (.returned answer) → Answers host client labels id answer) ∧
    (∀ id response, state.calls id = some (.returned (.ok response)) →
      200 ≤ response.status ∧ response.status ≤ 599 ∧ response.body.length ≤ client.maxResponse) ∧
    ∀ id, state.Working id → ∃ answer,
      (run (ClientState.step host client) state
        [.event id .timer, .event id .failed, .settle id]).calls id = some (.returned answer) := by
  intro state
  have kept : Kept host client labels state := kept_run labels
  have answers : ∀ id answer, state.calls id = some (.returned answer) →
      Answers host client labels id answer := by
    intro id answer returned
    have stands : Stands host client labels id (state.calls id) := stands_run labels id
    rw [returned] at stands
    exact stands
  refine ⟨kept.few, kept.distinct, kept.works, answers, ?_, ?_⟩
  · exact fun id response returned => (answers id _ returned).response
  · rintro id ⟨exchange, held⟩
    have late : (state.happen client id .timer).calls id = _ := happen_active held .timer
    have failed : ((state.happen client id .timer).happen client id .failed).calls id = _ :=
      happen_active late .failed
    obtain ⟨answer, answered⟩ : ∃ answer, ((exchange.step client.maxResponse .timer).step
        client.maxResponse .failed).answer = some answer := by
      simp only [Exchange.step, Exchange.resolve]
      cases exchange.answer with
      | none => exact ⟨_, rfl⟩
      | some answer => exact ⟨answer, rfl⟩
    exact ⟨answer, settle_answered failed answered⟩

end N2FNest.HttpClient
