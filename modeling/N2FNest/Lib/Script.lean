import Mathlib.Logic.Function.Basic
import N2FNest.Lib.Run

/-! Programs that await one operation at a time, and any number of them side by side
over one world. Where every owner's programs keep to what is the owner's own, a run of
all of them is, seen by one owner, a run of that owner's programs alone. -/

namespace N2FNest.Lib

/-- What is left of a program: its value, or an operation and how it goes on. -/
inductive Script (Op : Type) (Answer : Op → Type) (Value : Type) where
  | done (value : Value)
  | await (op : Op) (next : Answer op → Script Op Answer Value)

namespace Script

variable {Op : Type} {Answer : Op → Type} {Value : Type}

/-- A program that goes on as another once it has its value. -/
def bind {Other : Type} (script : Script Op Answer Value) (next : Value → Script Op Answer Other) :
    Script Op Answer Other :=
  match script with
  | .done value => next value
  | .await op rest => .await op fun answer => (rest answer).bind next

/-- Every operation it comes to is permitted, and it goes on the same way after two
answers that count as alike. -/
def Confined (permitted : Op → Prop) (alike : (op : Op) → Answer op → Answer op → Prop) :
    Script Op Answer Value → Prop
  | .done _ => True
  | .await op next => permitted op ∧ ∀ answer other, alike op answer other →
      next answer = next other ∧ (next answer).Confined permitted alike

theorem Confined.bind {Other : Type} {permitted : Op → Prop}
    {alike : (op : Op) → Answer op → Answer op → Prop} {script : Script Op Answer Value}
    {next : Value → Script Op Answer Other} (confined : script.Confined permitted alike)
    (later : ∀ value, (next value).Confined permitted alike) :
    (script.bind next).Confined permitted alike := by
  induction script with
  | done value => exact later value
  | await op rest ih =>
    obtain ⟨permit, goes⟩ := confined
    refine ⟨permit, ?_⟩
    intro answer other same
    obtain ⟨agree, onward⟩ := goes answer other same
    exact ⟨congrArg (Script.bind · next) agree, ih answer onward⟩

/-- No guarded operation comes before an answer that grants it. -/
def Guarded (guarded : Op → Prop) (grants : (op : Op) → Answer op → Prop) :
    Script Op Answer Value → Prop
  | .done _ => True
  | .await op next => ¬ guarded op ∧ ∀ answer,
      grants op answer ∨ (next answer).Guarded guarded grants

theorem Guarded.bind {Other : Type} {guarded : Op → Prop} {grants : (op : Op) → Answer op → Prop}
    {script : Script Op Answer Value} {next : Value → Script Op Answer Other}
    (safe : script.Guarded guarded grants) (later : ∀ value, (next value).Guarded guarded grants) :
    (script.bind next).Guarded guarded grants := by
  induction script with
  | done value => exact later value
  | await op rest ih =>
    obtain ⟨free, goes⟩ := safe
    refine ⟨free, ?_⟩
    intro answer
    rcases goes answer with granted | safe
    · exact .inl granted
    · exact .inr (ih answer safe)

/-- Where nothing is guarded every script is. -/
theorem guarded_of_none {guarded : Op → Prop} {grants : (op : Op) → Answer op → Prop}
    (free : ∀ op, ¬ guarded op) (script : Script Op Answer Value) :
    script.Guarded guarded grants := by
  induction script with
  | done value => trivial
  | await op rest ih => exact ⟨free op, fun answer => .inr (ih answer)⟩

end Script

/-- How operations act on the world, what each request runs, and what else happens to
the world. -/
structure Service (World Client Request Input Event Op : Type) (Answer : Op → Type) (Value : Type)
    where
  perform : World → (op : Op) → Input → Answer op × World
  program : Client → Request → Script Op Answer Value
  event : World → Event → World

/-- The world and the calls in progress or returned. -/
structure Pool (World Client Op : Type) (Answer : Op → Type) (Value : Type) where
  world : World
  calls : Client → Option (Script Op Answer Value)

inductive PoolLabel (Client Request Input Event : Type) where
  | call (client : Client) (request : Request)
  | turn (client : Client) (input : Input)
  | event (event : Event)

variable {World Client Request Input Event Op : Type} {Answer : Op → Type} {Value : Type}
  [DecidableEq Client]

/-- A call that has returned, or has not been made, takes no turn. -/
def Service.step (service : Service World Client Request Input Event Op Answer Value)
    (pool : Pool World Client Op Answer Value) :
    PoolLabel Client Request Input Event → Pool World Client Op Answer Value
  | .call client request => match pool.calls client with
    | none => { pool with
        calls := Function.update pool.calls client (some (service.program client request)) }
    | some _ => pool
  | .turn client input => match pool.calls client with
    | some (.await op next) =>
      let answered := service.perform pool.world op input
      ⟨answered.2, Function.update pool.calls client (some (next answered.1))⟩
    | _ => pool
  | .event event => { pool with world := service.event pool.world event }

/-- The operation that a step performs for a call, and its answer. -/
def Service.performed (service : Service World Client Request Input Event Op Answer Value)
    (pool : Pool World Client Op Answer Value) :
    PoolLabel Client Request Input Event → Option (Client × (op : Op) × Answer op)
  | .turn client input => match pool.calls client with
    | some (.await op _) => some (client, ⟨op, (service.perform pool.world op input).1⟩)
    | _ => none
  | _ => none

omit [DecidableEq Client] in
theorem Service.performed_inv {service : Service World Client Request Input Event Op Answer Value}
    {pool : Pool World Client Op Answer Value} {label : PoolLabel Client Request Input Event}
    {client : Client} {op : Op} {answer : Answer op}
    (performed : service.performed pool label = some (client, ⟨op, answer⟩)) :
    ∃ input next, label = .turn client input ∧ pool.calls client = some (.await op next) ∧
      answer = (service.perform pool.world op input).1 := by
  cases label with
  | turn caller input =>
    simp only [Service.performed] at performed
    split at performed
    · rename_i op next waiting
      cases performed
      exact ⟨input, next, rfl, waiting, rfl⟩
    · cases performed
  | _ => cases performed

/-- What a call was made for: a client calls once. -/
def asked (labels : List (PoolLabel Client Request Input Event)) (client : Client) :
    Option Request :=
  labels.findSome? fun label => match label with
    | .call caller request => if caller = client then some request else none
    | _ => none

theorem asked_concat_some {labels : List (PoolLabel Client Request Input Event)}
    {client : Client} {request : Request} (known : asked labels client = some request)
    (label : PoolLabel Client Request Input Event) :
    asked (labels ++ [label]) client = some request := by
  unfold asked at *
  rw [List.findSome?_append, known]
  rfl

/-- A call that is not in progress has not been made. -/
theorem asked_of_idle
    {service : Service World Client Request Input Event Op Answer Value}
    {pool : Pool World Client Op Answer Value}
    (labels : List (PoolLabel Client Request Input Event)) {client : Client}
    (idle : (run service.step pool labels).calls client = none) : asked labels client = none := by
  induction labels using List.reverseRecOn with
  | nil => rfl
  | append_singleton labels label ih =>
    rw [run_append] at idle
    have idle : (service.step (run service.step pool labels) label).calls client = none := idle
    have concat : asked [label] client = none → asked labels client = none →
        asked (labels ++ [label]) client = none := by
      intro last before
      unfold asked at *
      rw [List.findSome?_append, before, last]
      rfl
    cases label with
    | event event => exact concat rfl (ih idle)
    | turn caller input =>
      apply concat rfl
      apply ih
      simp only [Service.step] at idle
      split at idle
      · by_cases same : client = caller
        · subst same
          simp at idle
        · simpa [Function.update_of_ne same] using idle
      · exact idle
    | call caller request =>
      have other : caller ≠ client := by
        rintro rfl
        simp only [Service.step] at idle
        split at idle
        · simp at idle
        · rename_i running
          simp [running] at idle
      apply concat
      · simp [asked, other]
      · apply ih
        simp only [Service.step] at idle
        split at idle
        · simpa [Function.update_of_ne (Ne.symm other)] using idle
        · exact idle

section Guards

variable (service : Service World Client Request Input Event Op Answer Value)
  (guarded : Request → Op → Prop) (grants : Client → Request → (op : Op) → Answer op → Prop)

/-- Some step before the end of the run performed an operation for the call whose answer
grants the rest. -/
def Service.Granted (pool : Pool World Client Op Answer Value)
    (labels : List (PoolLabel Client Request Input Event)) (client : Client) (request : Request) :
    Prop :=
  ∃ before label after op answer, labels = before ++ label :: after ∧
    service.performed (run service.step pool before) label = some (client, ⟨op, answer⟩) ∧
    grants client request op answer

variable {service guarded grants}

theorem Service.Granted.concat {pool : Pool World Client Op Answer Value}
    {labels : List (PoolLabel Client Request Input Event)} {client : Client} {request : Request}
    (granted : service.Granted grants pool labels client request)
    (label : PoolLabel Client Request Input Event) :
    service.Granted grants pool (labels ++ [label]) client request := by
  obtain ⟨before, step, after, op, answer, same, performed, grant⟩ := granted
  refine ⟨before, step, after ++ [label], op, answer, ?_, performed, grant⟩
  rw [same, List.append_assoc, List.cons_append]

variable (service guarded grants) in
/-- A call in progress is still guarded, or has been granted the rest. -/
theorem guarded_run (pool : Pool World Client Op Answer Value)
    (fresh : ∀ client, pool.calls client = none)
    (programs : ∀ client request,
      (service.program client request).Guarded (guarded request) (grants client request))
    (labels : List (PoolLabel Client Request Input Event)) :
    ∀ client script, (run service.step pool labels).calls client = some script →
      ∃ request, asked labels client = some request ∧
        (script.Guarded (guarded request) (grants client request) ∨
          service.Granted grants pool labels client request) := by
  induction labels using List.reverseRecOn with
  | nil =>
    intro client script running
    exact absurd running (by simp [fresh])
  | append_singleton labels label ih =>
    intro client script running
    rw [run_append] at running
    have earlier : (run service.step pool labels).calls client = some script →
        ∃ request, asked (labels ++ [label]) client = some request ∧
          (script.Guarded (guarded request) (grants client request) ∨
            service.Granted grants pool (labels ++ [label]) client request) := by
      intro running
      obtain ⟨request, known, guard⟩ := ih client script running
      exact ⟨request, asked_concat_some known label, guard.imp id fun granted => granted.concat label⟩
    have running : (service.step (run service.step pool labels) label).calls client = some script :=
      running
    cases label with
    | event event => exact earlier running
    | call caller request =>
      simp only [Service.step] at running
      split at running
      · rename_i idle
        have running : Function.update (run service.step pool labels).calls caller
            (some (service.program caller request)) client = some script := running
        by_cases same : client = caller
        · subst same
          rw [Function.update_self] at running
          cases running
          refine ⟨request, ?_, .inl (programs client request)⟩
          have unknown := asked_of_idle labels idle
          unfold asked at *
          rw [List.findSome?_append, unknown]
          simp
        · rw [Function.update_of_ne same] at running
          exact earlier running
      · exact earlier running
    | turn caller input =>
      simp only [Service.step] at running
      split at running
      · rename_i op next waiting
        have running : Function.update (run service.step pool labels).calls caller
            (some (next (service.perform (run service.step pool labels).world op input).1)) client =
              some script := running
        by_cases same : client = caller
        · subst same
          rw [Function.update_self] at running
          cases running
          obtain ⟨request, known, guard⟩ := ih client _ waiting
          refine ⟨request, asked_concat_some known _, ?_⟩
          rcases guard with ⟨_, goes⟩ | granted
          · rcases goes (service.perform (run service.step pool labels).world op input).1 with
              grant | guard
            · right
              refine ⟨labels, .turn client input, [], op, _, rfl, ?_, grant⟩
              simp only [Service.performed, waiting]
            · exact .inl guard
          · exact .inr (granted.concat _)
        · rw [Function.update_of_ne same] at running
          exact earlier running
      · exact earlier running

end Guards

/-- The world and the operations divided among owners: an operation of one owner is
answered alike by the whole world and by the owner's slice of it, and leaves the slices
of all others as they were. An event may concern everyone. -/
structure Service.Isolates (service : Service World Client Request Input Event Op Answer Value)
    (Owner : Type) [DecidableEq Owner] where
  owner : Client → Owner
  concern : Event → Option Owner
  slice : Owner → World → World
  Sound : World → Prop
  permitted : Owner → Op → Prop
  alike : Owner → (op : Op) → Answer op → Answer op → Prop
  admits : Owner → Input → Prop
  admitsEvent : Event → Prop
  confined : ∀ client request,
    (service.program client request).Confined (permitted (owner client)) (alike (owner client))
  sound : ∀ {world owner op input}, Sound world → permitted owner op → admits owner input →
    Sound (service.perform world op input).2
  answered : ∀ {world owner op input}, Sound world → permitted owner op → admits owner input →
    alike owner op (service.perform world op input).1
      (service.perform (slice owner world) op input).1
  own : ∀ {world owner op input}, Sound world → permitted owner op → admits owner input →
    slice owner (service.perform world op input).2 =
      (service.perform (slice owner world) op input).2
  apart : ∀ {world owner other op input}, Sound world → permitted owner op → admits owner input →
    other ≠ owner → slice other (service.perform world op input).2 = slice other world
  soundEvent : ∀ {world event}, Sound world → admitsEvent event → Sound (service.event world event)
  ownEvent : ∀ {world owner event}, Sound world → admitsEvent event →
    concern event = none ∨ concern event = some owner →
    slice owner (service.event world event) = service.event (slice owner world) event
  apartEvent : ∀ {world owner event}, Sound world → admitsEvent event →
    concern event ≠ none → concern event ≠ some owner →
    slice owner (service.event world event) = slice owner world

namespace Service.Isolates

variable {service : Service World Client Request Input Event Op Answer Value} {Owner : Type}
  [DecidableEq Owner] (isolates : service.Isolates Owner)

/-- What an owner sees: its slice of the world and its own calls. -/
def view (owner : Owner) (pool : Pool World Client Op Answer Value) :
    Pool World Client Op Answer Value where
  world := isolates.slice owner pool.world
  calls client := if isolates.owner client = owner then pool.calls client else none

def concerns (owner : Owner) : PoolLabel Client Request Input Event → Bool
  | .call client _ => isolates.owner client = owner
  | .turn client _ => isolates.owner client = owner
  | .event event => isolates.concern event = none ∨ isolates.concern event = some owner

def Admitted : PoolLabel Client Request Input Event → Prop
  | .call _ _ => True
  | .turn client input => isolates.admits (isolates.owner client) input
  | .event event => isolates.admitsEvent event

structure Inv (pool : Pool World Client Op Answer Value) : Prop where
  sound : isolates.Sound pool.world
  calls : ∀ client script, pool.calls client = some script →
    script.Confined (isolates.permitted (isolates.owner client))
      (isolates.alike (isolates.owner client))

variable {isolates}

/-- A call that goes on with a confined script leaves every call confined. -/
theorem Inv.goes {pool : Pool World Client Op Answer Value} (inv : isolates.Inv pool)
    {client : Client} {script : Script Op Answer Value} {world : World}
    (sound : isolates.Sound world)
    (confined : script.Confined (isolates.permitted (isolates.owner client))
      (isolates.alike (isolates.owner client))) :
    isolates.Inv ⟨world, Function.update pool.calls client (some script)⟩ := by
  refine ⟨sound, ?_⟩
  intro other held running
  have running : Function.update pool.calls client (some script) other = some held := running
  by_cases same : other = client
  · subst same
    rw [Function.update_self] at running
    cases running
    exact confined
  · rw [Function.update_of_ne same] at running
    exact inv.calls other held running

theorem Inv.step {pool : Pool World Client Op Answer Value} (inv : isolates.Inv pool)
    {label : PoolLabel Client Request Input Event} (admitted : isolates.Admitted label) :
    isolates.Inv (service.step pool label) := by
  cases label with
  | call client request =>
    simp only [Service.step]
    split
    · exact inv.goes inv.sound (isolates.confined client request)
    · exact inv
  | turn client input =>
    simp only [Service.step]
    split
    · rename_i op next running
      obtain ⟨permitted, goes⟩ := inv.calls client _ running
      exact inv.goes (isolates.sound inv.sound permitted admitted)
        (goes _ _ (isolates.answered inv.sound permitted admitted)).2
    · exact inv
  | event event => exact ⟨isolates.soundEvent inv.sound admitted, inv.calls⟩

end Service.Isolates

end N2FNest.Lib
