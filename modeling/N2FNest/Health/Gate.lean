import N2FNest.Lib.Run
import N2FNest.Shared.Failure

/-! Readiness. A call of `ready` runs the gate's checks one after another and gives up
after its budget; the checks go on until they settle, and until then no other call runs
them. The code runs without interruption up to an await, so a step ends at one. -/

namespace N2FNest.Health

open Lib Shared

/-- `#state`. -/
inductive Stage where
  | starting | serving | draining
  deriving DecidableEq, Repr

/-- How an awaited check settles. -/
inductive Outcome where
  | ok
  | err (error : Failure)
  | threw
  deriving DecidableEq

/-- The promise `work`: it awaits a check or is settled. -/
inductive Work where
  | checking (index : Nat)
  | settled (healthy : Bool)
  deriving DecidableEq

/-- A call of `ready`: whether its `controller` and the signal of its caller are aborted,
which of `work` and `stopped` settled first, and what it answered. -/
structure Probe where
  work : Work
  stopped : Bool
  aborted : Bool
  raced : Option Bool
  answer : Option Bool
  deriving DecidableEq

namespace Probe

/-- The call returned at its first test. -/
def refused : Probe := ⟨.settled false, false, false, some false, some false⟩

/-- The call awaits the check of `index`, and nothing has stopped it. -/
def awaiting (index : Nat) : Probe := ⟨.checking index, false, false, none, none⟩

def Working (probe : Probe) : Prop := ∃ index, probe.work = .checking index

end Probe

structure Gate where
  state : Stage
  busy : Bool
  probes : Nat → Option Probe

inductive GateLabel where
  | start
  | drain
  | ready (call : Nat) (aborted : Bool)
  | settle (call : Nat) (outcome : Outcome)
  | stop (call : Nat)
  | abort (call : Nat)
  | resume (call : Nat)
  deriving DecidableEq

namespace Gate

def initial : Gate := ⟨.starting, false, fun _ => none⟩

def put (gate : Gate) (call : Nat) (probe : Probe) : Gate :=
  { gate with probes := Function.update gate.probes call (some probe) }

/-- Only a gate that is starting starts. -/
def start (gate : Gate) : Bool × Gate :=
  match gate.state with
  | .starting => (true, { gate with state := .serving })
  | _ => (false, gate)

def drain (gate : Gate) : Gate := { gate with state := .draining }

/-- `work` ends: it clears `#busy` and settles, which decides the race unless `stopped`
was first. -/
def finish (gate : Gate) (call : Nat) (probe : Probe) (healthy : Bool) : Gate :=
  put { gate with busy := false } call
    { probe with work := .settled healthy, raced := probe.raced.or (some healthy) }

/-- The loop of `work` from its test before the check of `index` up to its next await. -/
def loop (checks : Nat) (gate : Gate) (call : Nat) (probe : Probe) (index : Nat) : Gate :=
  if index < checks then
    if probe.stopped then gate.finish call probe false
    else gate.put call { probe with work := .checking index }
  else gate.finish call probe true

/-- `ready` up to its first await. Every call has its own number. -/
def ready (checks : Nat) (gate : Gate) (call : Nat) (aborted : Bool) : Gate :=
  match gate.probes call with
  | some _ => gate
  | none =>
    if gate.state ≠ .serving ∨ gate.busy = true ∨ aborted = true then gate.put call .refused
    else loop checks { gate with busy := true } call (.awaiting 0) 0

/-- The check a call awaits settles. -/
def settle (checks : Nat) (gate : Gate) (call : Nat) (outcome : Outcome) : Gate :=
  match gate.probes call with
  | none => gate
  | some probe => match probe.work, outcome with
    | .checking index, .ok => loop checks gate call probe (index + 1)
    | .checking _, _ => gate.finish call probe false
    | .settled _, _ => gate

/-- `stop`; the timer and the listener are gone once the call has answered. -/
def stop (gate : Gate) (call : Nat) : Gate :=
  match gate.probes call with
  | none => gate
  | some probe =>
    if probe.answer = none then
      gate.put call { probe with stopped := true, raced := probe.raced.or (some false) }
    else gate

/-- The caller's signal is aborted, which its listener turns into `stop`. -/
def abort (gate : Gate) (call : Nat) : Gate :=
  match gate.probes call with
  | none => gate
  | some probe =>
    if probe.answer = none then
      gate.put call
        { probe with aborted := true, stopped := true, raced := probe.raced.or (some false) }
    else gate

/-- The call goes on after the race. -/
def resume (gate : Gate) (call : Nat) : Gate :=
  match gate.probes call with
  | none => gate
  | some probe => match probe.raced, probe.answer with
    | some first, none =>
      gate.put call
        { probe with answer := some (first && gate.state = .serving && !probe.aborted) }
    | _, _ => gate

/-- A gate of so many checks. -/
def step (checks : Nat) (gate : Gate) : GateLabel → Gate
  | .start => gate.start.2
  | .drain => gate.drain
  | .ready call aborted => gate.ready checks call aborted
  | .settle call outcome => gate.settle checks call outcome
  | .stop call => gate.stop call
  | .abort call => gate.abort call
  | .resume call => gate.resume call

/-- What `ready` answered. -/
def answered (gate : Gate) (call : Nat) : Option Bool := (gate.probes call).bind Probe.answer

end Gate

namespace Gate

variable {checks : Nat} {gate : Gate} {call : Nat} {probe : Probe}

@[simp] theorem put_state : (gate.put call probe).state = gate.state := rfl

@[simp] theorem put_busy : (gate.put call probe).busy = gate.busy := rfl

@[simp] theorem put_same : (gate.put call probe).probes call = some probe := by
  simp [put]

theorem put_other {other : Nat} (apart : other ≠ call) :
    (gate.put call probe).probes other = gate.probes other := by
  simp [put, apart]

@[simp] theorem finish_state {healthy : Bool} :
    (gate.finish call probe healthy).state = gate.state := rfl

@[simp] theorem loop_state {index : Nat} : (loop checks gate call probe index).state = gate.state := by
  unfold loop
  split
  · split <;> rfl
  · rfl

theorem loop_other {index other : Nat} (apart : other ≠ call) :
    (loop checks gate call probe index).probes other = gate.probes other := by
  unfold loop finish
  split
  · split <;> exact put_other apart
  · exact put_other apart

/-- Only `start` and `drain` move the gate. -/
theorem step_state (label : GateLabel) (start : label ≠ .start) (drain : label ≠ .drain) :
    (gate.step checks label).state = gate.state := by
  cases label with
  | start => exact absurd rfl start
  | drain => exact absurd rfl drain
  | ready call aborted =>
    simp only [step, ready]
    split
    · rfl
    · split
      · rfl
      · rw [loop_state]
  | settle call outcome =>
    simp only [step, settle]
    split
    · rfl
    · split <;> simp
  | stop call =>
    simp only [step, stop]
    split
    · rfl
    · split <;> rfl
  | abort call =>
    simp only [step, abort]
    split
    · rfl
    · split <;> rfl
  | resume call =>
    simp only [step, resume]
    split
    · rfl
    · split <;> rfl

/-- A gate serves from its start to the first drain. -/
theorem serving_iff (checks : Nat) (labels : List GateLabel) : (run (step checks) initial labels).state = .serving ↔
    .start ∈ labels ∧ .drain ∉ labels := by
  have stage : (run (step checks) initial labels).state =
      if .drain ∈ labels then .draining else if .start ∈ labels then .serving else .starting := by
    induction labels using List.reverseRecOn with
    | nil => rfl
    | append_singleton labels label ih =>
      rw [run_append, run_cons, run_nil]
      by_cases starts : label = .start
      · subst starts
        by_cases drained : GateLabel.drain ∈ labels
        · simp [step, start, ih, drained]
        · by_cases started : GateLabel.start ∈ labels <;> simp [step, start, ih, drained, started]
      · by_cases drains : label = .drain
        · subst drains
          simp [step, drain]
        · rw [step_state label starts drains, ih]
          simp [Ne.symm starts, Ne.symm drains]
  rw [stage]
  by_cases drained : GateLabel.drain ∈ labels <;> by_cases started : GateLabel.start ∈ labels <;>
    simp [drained, started]

end Gate

/-- The call a label is about. -/
def GateLabel.call? : GateLabel → Option Nat
  | .start | .drain => none
  | .ready call _ | .settle call _ | .stop call | .abort call | .resume call => some call

namespace Gate

variable {checks : Nat} {gate : Gate} {call : Nat}

theorem step_other {label : GateLabel} (apart : label.call? ≠ some call) :
    (gate.step checks label).probes call = gate.probes call := by
  cases label with
  | start =>
    simp only [step, start]
    split <;> rfl
  | drain => rfl
  | ready other aborted =>
    have distinct : call ≠ other := fun same => apart (congrArg some same.symm)
    simp only [step, ready]
    split
    · rfl
    · split
      · exact put_other distinct
      · exact loop_other distinct
  | settle other outcome =>
    have distinct : call ≠ other := fun same => apart (congrArg some same.symm)
    simp only [step, settle]
    split
    · rfl
    · split
      · exact loop_other distinct
      · exact put_other distinct
      · rfl
  | stop other =>
    have distinct : call ≠ other := fun same => apart (congrArg some same.symm)
    simp only [step, stop]
    split
    · rfl
    · split
      · exact put_other distinct
      · rfl
  | abort other =>
    have distinct : call ≠ other := fun same => apart (congrArg some same.symm)
    simp only [step, abort]
    split
    · rfl
    · split
      · exact put_other distinct
      · rfl
  | resume other =>
    have distinct : call ≠ other := fun same => apart (congrArg some same.symm)
    simp only [step, resume]
    split
    · rfl
    · split
      · exact put_other distinct
      · rfl

/-- A number is new until its call is made. -/
theorem unused {labels : List GateLabel} (new : ∀ aborted, .ready call aborted ∉ labels) :
    (run (step checks) initial labels).probes call = none := by
  induction labels using List.reverseRecOn with
  | nil => rfl
  | append_singleton labels label ih =>
    have before := ih fun aborted member => new aborted (List.mem_append_left _ member)
    rw [run_append, run_cons, run_nil]
    by_cases mine : label.call? = some call
    · cases label with
      | start => cases mine
      | drain => cases mine
      | ready other aborted =>
        cases Option.some.inj mine
        exact absurd (List.mem_append_right labels List.mem_cons_self) (new aborted)
      | settle other outcome =>
        cases Option.some.inj mine
        simp only [step, settle, before]
      | stop other =>
        cases Option.some.inj mine
        simp only [step, stop, before]
      | abort other =>
        cases Option.some.inj mine
        simp only [step, abort, before]
      | resume other =>
        cases Option.some.inj mine
        simp only [step, resume, before]
    · rw [step_other mine, before]

/-- The call is running the checks. -/
def Works (gate : Gate) (call : Nat) : Prop := ∃ probe, gate.probes call = some probe ∧ probe.Working

/-- `#busy` tells whether a call is running the checks, and it is one call. -/
structure Occupied (gate : Gate) (worker : Option Nat) : Prop where
  busy : gate.busy = worker.isSome
  works : ∀ call, gate.Works call ↔ worker = some call

/-- A call that runs no checks before and after leaves the gate occupied as it was. -/
private theorem Occupied.put {worker : Option Nat} (occupied : gate.Occupied worker) {probe : Probe}
    (same : probe.Working ↔ gate.Works call) : (gate.put call probe).Occupied worker where
  busy := occupied.busy
  works other := by
    rw [← occupied.works other]
    by_cases mine : other = call
    · subst mine
      simp only [Works, put_same, Option.some.injEq, exists_eq_left']
      exact same
    · simp only [Works, put_other mine]

/-- When the one call that runs the checks ends, none does. -/
private theorem finish_occupied (alone : ∀ other, other ≠ call → ¬ gate.Works other) (probe : Probe)
    (healthy : Bool) : (gate.finish call probe healthy).Occupied none where
  busy := rfl
  works other := by
    refine iff_of_false ?_ (by rintro ⟨⟩)
    rintro ⟨held, found, index, working⟩
    by_cases mine : other = call
    · subst mine
      rw [finish, put_same] at found
      cases found
      cases working
    · rw [finish, put_other mine] at found
      exact alone other mine ⟨held, found, index, working⟩

/-- The one call that runs the checks goes on to the next of them or ends. -/
private theorem loop_occupied (alone : ∀ other, other ≠ call → ¬ gate.Works other)
    (busy : gate.busy = true) (probe : Probe) (index : Nat) :
    ∃ worker, (loop checks gate call probe index).Occupied worker := by
  unfold loop
  split
  · split
    · exact ⟨none, finish_occupied alone probe false⟩
    · refine ⟨some call, busy, fun other => ?_⟩
      by_cases mine : other = call
      · subst mine
        simp [Works, Probe.Working]
      · have idle := alone other mine
        simp only [Works, put_other mine]
        exact iff_of_false idle fun same => mine (Option.some.inj same).symm
  · exact ⟨none, finish_occupied alone probe true⟩

private theorem Occupied.step {worker : Option Nat} (occupied : gate.Occupied worker)
    (label : GateLabel) : ∃ worker, (gate.step checks label).Occupied worker := by
  cases label with
  | start =>
    simp only [Gate.step, start]
    split <;> exact ⟨worker, occupied.busy, occupied.works⟩
  | drain => exact ⟨worker, occupied.busy, occupied.works⟩
  | ready call aborted =>
    simp only [Gate.step, ready]
    split
    · exact ⟨worker, occupied⟩
    · rename_i unused
      split
      · have idle : ¬ Probe.refused.Working := by
          rintro ⟨_, checking⟩
          cases checking
        refine ⟨worker, occupied.put (iff_of_false idle ?_)⟩
        rintro ⟨probe, found, _⟩
        rw [unused] at found
        cases found
      · rename_i admitted
        have idle : worker = none := by
          have busy := occupied.busy
          cases worker with
          | none => rfl
          | some other => exact absurd (.inr (.inl busy)) admitted
        apply loop_occupied _ rfl
        intro other _ works
        have taken := (occupied.works other).mp works
        rw [idle] at taken
        cases taken
  | settle call outcome =>
    simp only [Gate.step, settle]
    split
    · exact ⟨worker, occupied⟩
    · rename_i probe found
      have goes : ∀ index, probe.work = .checking index → worker = some call := by
        intro index working
        exact (occupied.works call).mp ⟨probe, found, index, working⟩
      have alone : worker = some call → ∀ other, other ≠ call → ¬ gate.Works other := by
        intro mine other apart works
        have taken := (occupied.works other).mp works
        rw [mine] at taken
        exact apart (Option.some.inj taken).symm
      split
      · rename_i index working
        have mine := goes index working
        apply loop_occupied (alone mine)
        rw [occupied.busy, mine]
        rfl
      · rename_i index working _
        exact ⟨none, finish_occupied (alone (goes index working)) probe false⟩
      · exact ⟨worker, occupied⟩
  | stop call =>
    simp only [Gate.step, stop]
    split
    · exact ⟨worker, occupied⟩
    · rename_i probe found
      split
      · refine ⟨worker, occupied.put ?_⟩
        simp [Works, found, Probe.Working]
      · exact ⟨worker, occupied⟩
  | abort call =>
    simp only [Gate.step, abort]
    split
    · exact ⟨worker, occupied⟩
    · rename_i probe found
      split
      · refine ⟨worker, occupied.put ?_⟩
        simp [Works, found, Probe.Working]
      · exact ⟨worker, occupied⟩
  | resume call =>
    simp only [Gate.step, resume]
    split
    · exact ⟨worker, occupied⟩
    · rename_i probe found
      split
      · refine ⟨worker, occupied.put ?_⟩
        simp [Works, found, Probe.Working]
      · exact ⟨worker, occupied⟩

theorem occupied (checks : Nat) (labels : List GateLabel) :
    ∃ worker, (run (Gate.step checks) initial labels).Occupied worker := by
  refine run_invariant (fun gate : Gate => ∃ worker, gate.Occupied worker) ?_ ?_ labels
  · rintro gate label ⟨worker, holds⟩
    exact holds.step label
  · refine ⟨none, rfl, fun call => iff_of_false ?_ (by rintro ⟨⟩)⟩
    rintro ⟨probe, found, _⟩
    cases found

/-- The checks never overlap: at most one call runs them at a time. -/
theorem works_alone {labels : List GateLabel} {call other : Nat}
    (one : (run (Gate.step checks) initial labels).Works call)
    (also : (run (Gate.step checks) initial labels).Works other) : call = other := by
  obtain ⟨worker, holds⟩ := occupied checks labels
  have first := (holds.works call).mp one
  exact Option.some.inj (first.symm.trans ((holds.works other).mp also))

theorem idle_iff (labels : List GateLabel) : (run (Gate.step checks) initial labels).busy = false ↔
    ∀ call, ¬ (run (Gate.step checks) initial labels).Works call := by
  obtain ⟨worker, holds⟩ := occupied checks labels
  rw [holds.busy]
  cases worker with
  | none =>
    refine iff_of_true rfl fun call works => ?_
    cases (holds.works call).mp works
  | some call => exact iff_of_false (by rintro ⟨⟩) fun idle => idle call ((holds.works call).mpr rfl)

end Gate

end N2FNest.Health
