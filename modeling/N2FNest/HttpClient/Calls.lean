import Mathlib.Data.List.Induction
import N2FNest.HttpClient.Exchanges

/-! Any number of calls of one client, in any order of what happens to them: at most 64 at a time,
each answered by its own checks and its own exchange, and nothing sent once it is closed. -/

namespace N2FNest.HttpClient

open Lib Shared Telemetry

variable {host : UrlHost} {client : Client} {labels : List ClientLabel} {id : Nat}

/-- What a label is to a call's exchange. -/
def ClientLabel.own? (id : Nat) : ClientLabel → Option Event
  | .event other happened => if other = id then some happened else none
  | .close => some .abort
  | _ => none

def own (id : Nat) (labels : List ClientLabel) : List Event := labels.filterMap (ClientLabel.own? id)

/-- The state after some labels. -/
abbrev after (host : UrlHost) (client : Client) (labels : List ClientLabel) : ClientState :=
  run (ClientState.step host client) .initial labels

/-- What a call came to: a refusal by its checks or by the runtime, or what its exchange decided. -/
def Answers (host : UrlHost) (client : Client) (labels : List ClientLabel) (id : Nat)
    (answer : Except Failure Response) : Prop :=
  ∃ before request aborted refused rest, labels = before ++ .call id request aborted refused :: rest ∧
    (after host client before).calls id = none ∧
    match prepare host client (after host client before).closed (after host client before).active.length
      aborted request with
    | .error error => answer = .error error
    | .ok _ =>
      if refused then answer = .error (fail .invalid "request")
      else Decided client.maxResponse (own id rest) answer

/-- An exchange in progress, from the call that began it. -/
def Runs (host : UrlHost) (client : Client) (labels : List ClientLabel) (id : Nat)
    (exchange : Exchange) : Prop :=
  ∃ before request aborted refused rest sent,
    labels = before ++ .call id request aborted refused :: rest ∧
    (after host client before).calls id = none ∧
    prepare host client (after host client before).closed (after host client before).active.length
      aborted request = .ok sent ∧
    if refused then exchange.answer = some (.error (fail .invalid "request"))
    else Follows client.maxResponse (own id rest) exchange

/-- Where a call stands. -/
def Stands (host : UrlHost) (client : Client) (labels : List ClientLabel) (id : Nat) :
    Option Call → Prop
  | none => True
  | some (.active exchange) => Runs host client labels id exchange
  | some (.returned answer) => Answers host client labels id answer

theorem own_concat (labels : List ClientLabel) (label : ClientLabel) :
    own id (labels ++ [label]) = own id labels ++ (label.own? id).toList := by
  unfold own
  rw [List.filterMap_append]
  cases seen : label.own? id with
  | none => rw [List.filterMap_cons_none seen]; rfl
  | some event => rw [List.filterMap_cons_some seen]; rfl

/-- An answer stays one. -/
theorem Answers.concat {answer : Except Failure Response}
    (answers : Answers host client labels id answer) (label : ClientLabel) :
    Answers host client (labels ++ [label]) id answer := by
  obtain ⟨before, request, aborted, refused, rest, rfl, fresh, comes⟩ := answers
  refine ⟨before, request, aborted, refused, rest ++ [label], ?_, fresh, ?_⟩
  · rw [List.append_assoc, List.cons_append]
  · split at comes
    · exact comes
    · split at comes
      · rename_i runtime
        rw [if_pos runtime]
        exact comes
      · rename_i runtime
        rw [if_neg runtime, own_concat]
        cases label.own? id with
        | none => rwa [Option.toList_none, List.append_nil]
        | some event => exact comes.concat event

theorem Runs.concat {exchange : Exchange} (runs : Runs host client labels id exchange)
    {label : ClientLabel} (apart : label.own? id = none) :
    Runs host client (labels ++ [label]) id exchange := by
  obtain ⟨before, request, aborted, refused, rest, sent, rfl, fresh, prepared, follows⟩ := runs
  refine ⟨before, request, aborted, refused, rest ++ [label], sent, ?_, fresh, prepared, ?_⟩
  · rw [List.append_assoc, List.cons_append]
  · rw [own_concat, apart, Option.toList_none, List.append_nil]
    exact follows

theorem Runs.step {exchange : Exchange} (runs : Runs host client labels id exchange)
    {label : ClientLabel} {event : Event} (happens : label.own? id = some event) :
    Runs host client (labels ++ [label]) id (exchange.step client.maxResponse event) := by
  obtain ⟨before, request, aborted, refused, rest, sent, rfl, fresh, prepared, follows⟩ := runs
  refine ⟨before, request, aborted, refused, rest ++ [label], sent, ?_, fresh, prepared, ?_⟩
  · rw [List.append_assoc, List.cons_append]
  · split at follows
    · rename_i runtime
      rw [if_pos runtime]
      exact Exchange.answer_step follows event
    · rename_i runtime
      rw [if_neg runtime, own_concat, happens]
      exact follows.step event

/-- An exchange that is answered is what the call comes to. -/
theorem Runs.answers {exchange : Exchange} {answer : Except Failure Response}
    (runs : Runs host client labels id exchange) (answered : exchange.answer = some answer) :
    Answers host client labels id answer := by
  obtain ⟨before, request, aborted, refused, rest, sent, same, fresh, prepared, follows⟩ := runs
  refine ⟨before, request, aborted, refused, rest, same, fresh, ?_⟩
  rw [prepared]
  dsimp only
  split at follows
  · rename_i runtime
    rw [if_pos runtime]
    exact Option.some.inj (answered.symm.trans follows)
  · rename_i runtime
    rw [if_neg runtime]
    rcases follows with ⟨rfl, -⟩ | ⟨other, made, decided⟩
    · cases answered
    · rw [Option.some.inj (answered.symm.trans made)]
      exact decided

theorem Stands.concat {call : Option Call} (stands : Stands host client labels id call)
    {label : ClientLabel} (apart : label.own? id = none) :
    Stands host client (labels ++ [label]) id call := by
  cases call with
  | none => trivial
  | some call =>
    cases call with
    | active exchange => exact Runs.concat stands apart
    | returned answer => exact Answers.concat stands label

theorem stands_call (fresh : (after host client labels).calls id = none) (request : Request)
    (aborted refused : Bool) :
    Stands host client (labels ++ [.call id request aborted refused]) id
      (((after host client labels).call host client id request aborted refused).calls id) := by
  unfold ClientState.call
  split
  · rename_i error prepared
    simp only [ClientState.put, Function.update_self]
    refine ⟨labels, request, aborted, refused, [], rfl, fresh, ?_⟩
    rw [prepared]
  · rename_i sent prepared
    simp only [ClientState.put, Function.update_self]
    refine ⟨labels, request, aborted, refused, [], sent, rfl, fresh, prepared, ?_⟩
    unfold ClientState.opened
    split
    · rfl
    · left
      refine ⟨rfl, ?_⟩
      intro first other rest same
      exact absurd same (by simp [own])

/-- Every call stands where its own checks and its own events have brought it. -/
theorem stands_run (labels : List ClientLabel) (id : Nat) :
    Stands host client labels id ((after host client labels).calls id) := by
  induction labels using List.reverseRecOn with
  | nil => trivial
  | append_singleton labels label ih =>
    rw [after, run_append, run_cons, run_nil]
    have ih : Stands host client labels id ((after host client labels).calls id) := ih
    cases label with
    | call other request aborted refused =>
      simp only [ClientState.step]
      split
      · rename_i fresh
        by_cases same : id = other
        · subst same
          exact stands_call fresh request aborted refused
        · have kept : ((after host client labels).call host client other request aborted refused).calls id =
              (after host client labels).calls id := by
            unfold ClientState.call
            split <;> exact Function.update_of_ne same _ _
          rw [kept]
          exact ih.concat rfl
      · exact ih.concat rfl
    | event other event =>
      simp only [ClientState.step, ClientState.happen]
      by_cases same : id = other
      · subst same
        have own : ClientLabel.own? id (.event id event) = some event := if_pos rfl
        split
        · rename_i exchange running
          rw [running] at ih
          simp only [ClientState.put, Function.update_self]
          exact Runs.step ih own
        · rename_i settled
          cases held : (after host client labels).calls id with
          | none => trivial
          | some call =>
            cases call with
            | active exchange => exact absurd held (settled exchange)
            | returned answer =>
              rw [held] at ih
              exact Answers.concat ih _
      · have apart : ClientLabel.own? id (.event other event) = none := if_neg (Ne.symm same)
        split
        · simp only [ClientState.put, Function.update_of_ne same]
          exact ih.concat apart
        · exact ih.concat apart
    | settle other =>
      simp only [ClientState.step, ClientState.settle]
      split
      · rename_i timedOut aborted head chunks size answer running
        by_cases same : id = other
        · subst same
          rw [running] at ih
          simp only [ClientState.put, Function.update_self]
          exact (Runs.answers ih rfl).concat _
        · simp only [ClientState.put, Function.update_of_ne same]
          exact ih.concat rfl
      · exact ih.concat rfl
    | close =>
      simp only [ClientState.step, ClientState.close]
      cases held : (after host client labels).calls id with
      | none => trivial
      | some call =>
        rw [held] at ih
        cases call with
        | active exchange => exact Runs.step ih rfl
        | returned answer => exact Answers.concat ih _

end N2FNest.HttpClient
