import Mathlib.Data.List.TakeWhile
import N2FNest.HttpClient.Client

/-! What a call of the client comes to, whatever the other calls do: the first event that decides
its own exchange decides its answer. -/

namespace N2FNest.HttpClient

open Lib Shared Telemetry

def Event.head? : Event → Option (Nat × JsString)
  | .head status contentType => some (status, contentType)
  | _ => none

/-- The start of the response. -/
def started (events : List Event) : Option (Nat × JsString) := events.findSome? Event.head?

def Event.chunk? : Event → Option (List UInt8)
  | .data chunk => some chunk
  | _ => none

def Event.isHead : Event → Bool
  | .head _ _ => true
  | _ => false

/-- The chunks that came after it. -/
def received (events : List Event) : List (List UInt8) :=
  (events.dropWhile fun event => !event.isHead).filterMap Event.chunk?

def Event.isTimer : Event → Bool
  | .timer => true
  | _ => false

def Event.isAbort : Event → Bool
  | .abort | .timer => true
  | _ => false

/-- What an event decides after those before it. -/
def decision (maxResponse : Nat) (before : List Event) : Event → Option (Except Failure Response)
  | .failed => some (.error (failedWith (before.any Event.isTimer) (before.any Event.isAbort)))
  | .data chunk =>
    if (started before).isSome ∧ maxResponse < (received before).flatten.length + chunk.length then
      some (.error (fail .unavailable "response_too_large"))
    else none
  | .ended complete => (started before).map fun (status, contentType) =>
      answerOf status contentType (received before).flatten complete
  | _ => none

/-- The first event that decides anything decides the answer. -/
def Decided (maxResponse : Nat) (events : List Event) (answer : Except Failure Response) : Prop :=
  ∃ before event after, events = before ++ event :: after ∧
    decision maxResponse before event = some answer ∧
    ∀ first other rest, before = first ++ other :: rest → decision maxResponse first other = none

/-- Nothing is decided yet. -/
def Open (maxResponse : Nat) (events : List Event) : Prop :=
  ∀ first other rest, events = first ++ other :: rest → decision maxResponse first other = none

theorem started_concat (events : List Event) (event : Event) : started (events ++ [event]) =
    (started events).or event.head? := by
  unfold started
  rw [List.findSome?_append, List.findSome?_singleton]

theorem started_isSome_iff (events : List Event) :
    (started events).isSome = events.any Event.isHead := by
  induction events with
  | nil => rfl
  | cons event rest ih =>
    cases event with
    | head status contentType => rfl
    | _ => exact ih

/-- Chunks count from the start of the response on. -/
theorem received_concat (events : List Event) (event : Event) : received (events ++ [event]) =
    received events ++ if (started events).isSome then event.chunk?.toList else [] := by
  unfold received
  rw [started_isSome_iff]
  cases begun : events.any Event.isHead with
  | true =>
    obtain ⟨head, member, isHead⟩ := List.any_eq_true.mp begun
    have some : events.dropWhile (fun event => !event.isHead) ≠ [] := by
      intro none
      have all := List.dropWhile_eq_nil_iff.mp none head member
      rw [isHead] at all
      cases all
    rw [List.dropWhile_append, if_neg (by simpa using some), List.filterMap_append, if_pos rfl]
    cases event <;> rfl
  | false =>
    have none : ∀ other ∈ events, (!other.isHead) = true := by
      intro other member
      simpa using List.any_eq_false.mp begun other member
    rw [List.dropWhile_eq_nil_iff.mpr none, List.dropWhile_append_of_pos none]
    cases event <;> rfl

/-- An open exchange as what came so far leaves it. -/
def summarize (events : List Event) : Exchange where
  timedOut := events.any Event.isTimer
  aborted := events.any Event.isAbort
  head := started events
  chunks := received events
  size := (received events).flatten.length
  answer := none

/-- An exchange is open, or its answer is decided. -/
def Follows (maxResponse : Nat) (events : List Event) (exchange : Exchange) : Prop :=
  exchange = summarize events ∧ Open maxResponse events ∨
    ∃ answer, exchange.answer = some answer ∧ Decided maxResponse events answer

theorem Open.concat {maxResponse : Nat} {events : List Event} {event : Event}
    (undecided : Open maxResponse events) (last : decision maxResponse events event = none) :
    Open maxResponse (events ++ [event]) := by
  intro first other rest same
  rcases List.eq_nil_or_concat rest with rfl | ⟨before, final, rfl⟩
  · obtain ⟨rfl, tail⟩ := List.append_inj' same rfl
    obtain ⟨rfl, -⟩ := List.cons.inj tail
    exact last
  · rw [List.concat_eq_append, ← List.cons_append, ← List.append_assoc] at same
    obtain ⟨rfl, -⟩ := List.append_inj' same rfl
    exact undecided first other before rfl

theorem Decided.concat {maxResponse : Nat} {events : List Event} {answer : Except Failure Response}
    (decided : Decided maxResponse events answer) (event : Event) :
    Decided maxResponse (events ++ [event]) answer := by
  obtain ⟨before, decisive, after, rfl, made, undecided⟩ := decided
  exact ⟨before, decisive, after ++ [event], by rw [List.append_assoc, List.cons_append], made, undecided⟩

theorem Exchange.answer_step {maxResponse : Nat} {exchange : Exchange} {answer : Except Failure Response}
    (answered : exchange.answer = some answer) (event : Event) :
    (exchange.step maxResponse event).answer = some answer := by
  cases event with
  | data chunk =>
    simp only [Exchange.step]
    split
    · split
      · simp [Exchange.resolve, answered]
      · exact answered
    · exact answered
  | ended complete =>
    simp only [Exchange.step]
    split
    · simp [Exchange.resolve, answered]
    · exact answered
  | failed => simp [Exchange.step, Exchange.resolve, answered]
  | _ => exact answered

theorem summarize_decide {maxResponse : Nat} {events : List Event} {event : Event}
    {answer : Except Failure Response} (made : decision maxResponse events event = some answer) :
    ((summarize events).step maxResponse event).answer = some answer := by
  cases event with
  | failed =>
    cases made
    rfl
  | data chunk =>
    simp only [decision] at made
    split at made
    · rename_i large
      cases made
      rw [List.length_flatten] at large
      simp [Exchange.step, summarize, Exchange.resolve, large.1, large.2]
    · cases made
  | ended complete =>
    obtain ⟨⟨status, contentType⟩, begun, rfl⟩ := Option.map_eq_some_iff.mp made
    simp only [Exchange.step, summarize, begun]
    rfl
  | _ => cases made

theorem summarize_wait {maxResponse : Nat} {events : List Event} {event : Event}
    (undecided : decision maxResponse events event = none) :
    (summarize events).step maxResponse event = summarize (events ++ [event]) := by
  unfold summarize
  rw [List.any_append, List.any_append, started_concat, received_concat]
  cases event with
  | failed => cases undecided
  | data chunk =>
    simp only [Exchange.step]
    cases begun : (started events).isSome with
    | true =>
      have small : ¬ maxResponse < (received events).flatten.length + chunk.length := by
        intro large
        rw [decision, if_pos ⟨begun, large⟩] at undecided
        cases undecided
      obtain ⟨head, same⟩ := Option.isSome_iff_exists.mp begun
      rw [if_pos rfl, if_neg small, same]
      simp [Event.isTimer, Event.isAbort, Event.chunk?]
    | false =>
      have nothing : started events = none := by simpa using begun
      rw [nothing]
      simp [Event.isTimer, Event.isAbort, Event.head?]
  | ended complete =>
    have nothing : started events = none := by simpa [decision] using undecided
    simp [Exchange.step, nothing, Event.isTimer, Event.isAbort, Event.head?]
  | head status contentType =>
    simp [Exchange.step, Event.isTimer, Event.isAbort, Event.chunk?, Event.head?]
  | _ => simp [Exchange.step, Event.isTimer, Event.isAbort, Event.chunk?, Event.head?]

theorem Follows.step {maxResponse : Nat} {events : List Event} {exchange : Exchange}
    (follows : Follows maxResponse events exchange) (event : Event) :
    Follows maxResponse (events ++ [event]) (exchange.step maxResponse event) := by
  rcases follows with ⟨rfl, undecided⟩ | ⟨answer, answered, decided⟩
  · cases made : decision maxResponse events event with
    | none => exact .inl ⟨summarize_wait made, undecided.concat made⟩
    | some answer => exact .inr ⟨answer, summarize_decide made, events, event, [], rfl, made, undecided⟩
  · exact .inr ⟨answer, Exchange.answer_step answered event, decided.concat event⟩

end N2FNest.HttpClient
