import Mathlib.Data.List.Induction
import N2FNest.Lib.Script

/-! What the calls of a run have done. The steps of all of them are one log, and a call stands
where its own steps in it have taken its program. -/

namespace N2FNest.Lib

variable {World Client Request Input Event Op : Type} {Answer : Op → Type} {Value : Type}

/-- From one script to another by answers to its operations. -/
inductive Script.Reaches : Script Op Answer Value → List ((op : Op) × Answer op) →
    Script Op Answer Value → Prop
  | here (script : Script Op Answer Value) : Script.Reaches script [] script
  | step {op : Op} {next : Answer op → Script Op Answer Value} {answer : Answer op}
      {answers : List ((op : Op) × Answer op)} {last : Script Op Answer Value}
      (onward : Script.Reaches (next answer) answers last) :
      Script.Reaches (.await op next) (⟨op, answer⟩ :: answers) last

theorem Script.Reaches.concat {script : Script Op Answer Value} {op : Op}
    {next : Answer op → Script Op Answer Value} {answers : List ((op : Op) × Answer op)}
    (reaches : script.Reaches answers (.await op next)) (answer : Answer op) :
    script.Reaches (answers ++ [⟨op, answer⟩]) (next answer) := by
  generalize last : Script.await op next = script' at reaches
  induction reaches with
  | here script =>
    subst last
    exact .step (.here _)
  | step onward ih => exact .step (ih last)

theorem Script.Confined.reaches {permitted : Op → Prop} {script last : Script Op Answer Value}
    {answers : List ((op : Op) × Answer op)} (reaches : script.Reaches answers last)
    (confined : script.Confined permitted fun _ => Eq) : last.Confined permitted fun _ => Eq := by
  induction reaches with
  | here script => exact confined
  | step onward ih => exact ih (confined.2 _ _ rfl).2

/-- An operation performed for a call. -/
structure Performed (Client Input : Type) {Op : Type} (Answer : Op → Type) where
  client : Client
  input : Input
  op : Op
  answer : Answer op

def Performed.reply (performed : Performed Client Input Answer) : (op : Op) × Answer op :=
  ⟨performed.op, performed.answer⟩

variable [DecidableEq Client]

def Service.record (service : Service World Client Request Input Event Op Answer Value)
    (pool : Pool World Client Op Answer Value) :
    PoolLabel Client Request Input Event → Option (Performed Client Input Answer)
  | .turn client input => match pool.calls client with
    | some (.await op _) => some ⟨client, input, op, (service.perform pool.world op input).1⟩
    | _ => none
  | _ => none

def Service.log (service : Service World Client Request Input Event Op Answer Value)
    (pool : Pool World Client Op Answer Value) :
    List (PoolLabel Client Request Input Event) → List (Performed Client Input Answer)
  | [] => []
  | label :: rest => (service.record pool label).toList ++ service.log (service.step pool label) rest

/-- The answers of one call, in order. -/
def repliesTo (client : Client) (log : List (Performed Client Input Answer)) :
    List ((op : Op) × Answer op) :=
  (log.filter fun performed => performed.client = client).map Performed.reply

variable {service : Service World Client Request Input Event Op Answer Value}
  {pool : Pool World Client Op Answer Value}

theorem Service.log_concat (labels : List (PoolLabel Client Request Input Event))
    (label : PoolLabel Client Request Input Event) :
    service.log pool (labels ++ [label]) = service.log pool labels ++
      (service.record (run service.step pool labels) label).toList := by
  induction labels generalizing pool with
  | nil =>
    rw [List.nil_append, Service.log, Service.log, Service.log, List.append_nil, run_nil,
      List.nil_append]
  | cons first rest ih =>
    rw [List.cons_append, Service.log, ih, Service.log, run_cons, List.append_assoc]

theorem Service.length_log_le (labels : List (PoolLabel Client Request Input Event)) :
    (service.log pool labels).length ≤ labels.length := by
  induction labels generalizing pool with
  | nil => exact Nat.le_refl 0
  | cons label rest ih =>
    rw [Service.log, List.length_append, List.length_cons, Nat.add_comm]
    apply Nat.add_le_add ih
    cases service.record pool label with
    | none => exact Nat.zero_le 1
    | some performed => exact Nat.le_refl 1

omit [DecidableEq Client] in
theorem Service.record_inv {label : PoolLabel Client Request Input Event}
    {performed : Performed Client Input Answer} [DecidableEq Client]
    (recorded : service.record pool label = some performed) : ∃ next,
      label = .turn performed.client performed.input ∧
      pool.calls performed.client = some (.await performed.op next) ∧
      performed.answer = (service.perform pool.world performed.op performed.input).1 := by
  cases label with
  | turn caller input =>
    simp only [Service.record] at recorded
    split at recorded
    · rename_i op next waiting
      cases recorded
      exact ⟨next, rfl, waiting, rfl⟩
    · cases recorded
  | _ => cases recorded

/-- But for events the world changes by what is recorded. -/
theorem Service.step_world {label : PoolLabel Client Request Input Event}
    (quiet : ∀ event, label ≠ .event event) : (service.step pool label).world =
      match service.record pool label with
      | none => pool.world
      | some performed => (service.perform pool.world performed.op performed.input).2 := by
  cases label with
  | event event => exact absurd rfl (quiet event)
  | call client request =>
    simp only [Service.step, Service.record]
    split <;> rfl
  | turn client input =>
    cases waiting : pool.calls client with
    | none => simp only [Service.step, Service.record, waiting]
    | some held =>
      cases held with
      | done value => simp only [Service.step, Service.record, waiting]
      | await op next => simp only [Service.step, Service.record, waiting]

theorem Service.step_other {client caller : Client} {input : Input} (other : client ≠ caller) :
    (service.step pool (.turn caller input)).calls client = pool.calls client := by
  simp only [Service.step]
  split
  · exact Function.update_of_ne other _ _
  · rfl

theorem Service.repliesTo_other {client caller : Client} {input : Input} (other : client ≠ caller) :
    repliesTo client (service.record pool (.turn caller input)).toList = [] := by
  cases recorded : service.record pool (.turn caller input) with
  | none => rfl
  | some performed =>
    obtain ⟨next, same, -, -⟩ := Service.record_inv recorded
    cases same
    simp [repliesTo, Ne.symm other]

/-- What is recorded is what the step does, and nothing else is done to a call in progress. -/
theorem Service.step_record (label : PoolLabel Client Request Input Event) (client : Client)
    {script : Script Op Answer Value}
    (running : (service.step pool label).calls client = some script) :
    (pool.calls client = some script ∧
        repliesTo client (service.record pool label).toList = []) ∨
      (∃ op next answer, pool.calls client = some (.await op next) ∧ script = next answer ∧
        repliesTo client (service.record pool label).toList = [⟨op, answer⟩]) ∨
      ∃ request, pool.calls client = none ∧ label = .call client request ∧
        script = service.program client request := by
  cases label with
  | event event => exact .inl ⟨running, rfl⟩
  | call caller request =>
    simp only [Service.step] at running
    split at running
    · rename_i idle
      have running : Function.update pool.calls caller (some (service.program caller request)) client =
        some script := running
      by_cases same : client = caller
      · subst same
        rw [Function.update_self] at running
        exact .inr (.inr ⟨request, idle, rfl, (Option.some.inj running).symm⟩)
      · rw [Function.update_of_ne same] at running
        exact .inl ⟨running, rfl⟩
    · exact .inl ⟨running, rfl⟩
  | turn caller input =>
    by_cases other : client = caller
    · subst other
      cases waiting : pool.calls client with
      | none =>
        simp only [Service.step, Service.record, waiting] at running ⊢
        cases running
      | some held =>
        cases held with
        | done value =>
          simp only [Service.step, Service.record, waiting] at running ⊢
          exact .inl ⟨running, rfl⟩
        | await op next =>
          simp only [Service.step, Service.record, waiting] at running ⊢
          rw [Function.update_self] at running
          refine .inr (.inl ⟨op, next, _, rfl, (Option.some.inj running).symm, ?_⟩)
          simp [repliesTo, Performed.reply]
    · refine .inl ⟨?_, Service.repliesTo_other other⟩
      rw [← Service.step_other other]
      exact running

theorem repliesTo_append (client : Client) (log rest : List (Performed Client Input Answer)) :
    repliesTo client (log ++ rest) = repliesTo client log ++ repliesTo client rest := by
  rw [repliesTo, List.filter_append, List.map_append]
  rfl

theorem Service.step_idle {label : PoolLabel Client Request Input Event} {client : Client}
    (idle : (service.step pool label).calls client = none) :
    pool.calls client = none ∧ repliesTo client (service.record pool label).toList = [] := by
  cases label with
  | event event => exact ⟨idle, rfl⟩
  | call caller request =>
    simp only [Service.step] at idle
    split at idle
    · by_cases same : client = caller
      · subst same
        simp at idle
      · exact ⟨by simpa [Function.update_of_ne same] using idle, rfl⟩
    · exact ⟨idle, rfl⟩
  | turn caller input =>
    by_cases other : client = caller
    · subst other
      cases waiting : pool.calls client with
      | none =>
        simp only [Service.record, waiting]
        exact ⟨trivial, rfl⟩
      | some held =>
        cases held with
        | done value =>
          simp only [Service.step, waiting] at idle
          cases idle
        | await op next =>
          simp only [Service.step, waiting, Function.update_self] at idle
          cases idle
    · refine ⟨?_, Service.repliesTo_other other⟩
      rw [← Service.step_other other]
      exact idle

/-- A call that has not been made has no steps. -/
theorem repliesTo_of_idle (labels : List (PoolLabel Client Request Input Event)) {client : Client}
    (idle : (run service.step pool labels).calls client = none) :
    repliesTo client (service.log pool labels) = [] := by
  induction labels using List.reverseRecOn with
  | nil => rfl
  | append_singleton labels label ih =>
    rw [run_append] at idle
    obtain ⟨before, nothing⟩ := Service.step_idle idle
    rw [Service.log_concat, repliesTo_append, nothing, ih before]
    rfl

/-- A call stands where its own answers have taken its program. -/
theorem reaches_run (fresh : ∀ client, pool.calls client = none)
    (labels : List (PoolLabel Client Request Input Event)) (client : Client)
    {script : Script Op Answer Value}
    (running : (run service.step pool labels).calls client = some script) :
    ∃ request, asked labels client = some request ∧
      (service.program client request).Reaches (repliesTo client (service.log pool labels)) script := by
  induction labels using List.reverseRecOn generalizing script with
  | nil =>
    rw [run_nil, fresh client] at running
    cases running
  | append_singleton labels label ih =>
    rw [run_append] at running
    rw [Service.log_concat, repliesTo_append]
    rcases Service.step_record label client running with
      ⟨before, nothing⟩ | ⟨op, next, answer, before, rfl, own⟩ | ⟨request, idle, rfl, rfl⟩
    · obtain ⟨request, known, reaches⟩ := ih before
      rw [nothing, List.append_nil]
      exact ⟨request, asked_concat_some known label, reaches⟩
    · obtain ⟨request, known, reaches⟩ := ih before
      rw [own]
      exact ⟨request, asked_concat_some known label, reaches.concat answer⟩
    · refine ⟨request, ?_, ?_⟩
      · have unknown := asked_of_idle labels idle
        unfold asked at *
        rw [List.findSome?_append, unknown]
        simp
      · rw [repliesTo_of_idle labels idle]
        exact .here _

end N2FNest.Lib
