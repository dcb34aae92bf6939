import N2FNest.Health.Ready

/-! The end of a process. The first signal drains the gate, waits for routing to move away
and closes the application; a signal whose listener is gone ends the process at once. -/

namespace N2FNest.Health

open Lib

inductive Signal where
  | SIGTERM | SIGINT
  deriving DecidableEq, Repr

/-- `drainAndClose` up to its next await. `exited none` is the end by a signal. -/
inductive Phase where
  | serving
  | sleeping (wakesAt : Nat)
  | closing
  | exited (code : Option Nat)
  deriving DecidableEq, Repr

/-- The gate, the clock, the listeners of `process.once`, `stopping`, and the times at which
`app.close` was called. -/
structure Process where
  gate : Gate
  now : Nat
  armed : Signal → Bool
  stopping : Bool
  phase : Phase
  closes : List Nat

inductive ProcessLabel where
  | gate (label : GateLabel)
  | tick (milliseconds : Nat)
  | signal (signal : Signal)
  | woke
  | closed (succeeded : Bool)
  deriving DecidableEq

namespace Process

def initial : Process := ⟨.initial, 0, fun _ => true, false, .serving, []⟩

/-- `drainAndClose` after its sleep. -/
def close (process : Process) : Process :=
  { process with phase := .closing, closes := process.closes ++ [process.now] }

/-- `drainAndClose` up to its first await. -/
def drainAndClose (drainMs : Nat) (process : Process) : Process :=
  let process := { process with gate := process.gate.drain }
  if 0 < drainMs then { process with phase := .sleeping (process.now + drainMs) }
  else process.close

/-- The listener of `closeOnSignals`. -/
def stop (drainMs : Nat) (process : Process) : Process :=
  if process.stopping then process
  else drainAndClose drainMs { process with stopping := true }

/-- `once` takes a listener away before it calls it. -/
def receive (drainMs : Nat) (process : Process) (signal : Signal) : Process :=
  if process.armed signal then
    stop drainMs { process with armed := Function.update process.armed signal false }
  else { process with phase := .exited none }

def wake (process : Process) : Process :=
  match process.phase with
  | .sleeping wakesAt => if wakesAt ≤ process.now then process.close else process
  | _ => process

/-- `process.exit` after `app.close` settled. -/
def exit (process : Process) (succeeded : Bool) : Process :=
  match process.phase with
  | .closing => { process with phase := .exited (some (if succeeded then 0 else 1)) }
  | _ => process

def step (checks drainMs : Nat) (process : Process) (label : ProcessLabel) : Process :=
  match process.phase with
  | .exited _ => process
  | _ => match label with
    | .gate label => { process with gate := process.gate.step checks label }
    | .tick milliseconds => { process with now := process.now + milliseconds }
    | .signal signal => process.receive drainMs signal
    | .woke => process.wake
    | .closed succeeded => process.exit succeeded

variable {checks drainMs : Nat} {process : Process}

theorem step_exited {code : Option Nat} (ended : process.phase = .exited code) (label : ProcessLabel) :
    process.step checks drainMs label = process := by
  unfold step
  rw [ended]

theorem step_live (live : ∀ code, process.phase ≠ .exited code) (label : ProcessLabel) :
    process.step checks drainMs label = match label with
      | .gate label => { process with gate := process.gate.step checks label }
      | .tick milliseconds => { process with now := process.now + milliseconds }
      | .signal signal => process.receive drainMs signal
      | .woke => process.wake
      | .closed succeeded => process.exit succeeded := by
  unfold step
  split
  · rename_i code ended
    exact absurd ended (live code)
  · rfl

/-- How far the shutdown has come that began at a time, and when it closed the application. -/
inductive Stopping (drainMs began : Nat) : Phase → List Nat → Prop where
  | sleeping : Stopping drainMs began (.sleeping (began + drainMs)) []
  | closing {time : Nat} (drained : began + drainMs ≤ time) : Stopping drainMs began .closing [time]
  | exited {time code : Nat} (drained : began + drainMs ≤ time) :
    Stopping drainMs began (.exited (some code)) [time]
  | killed {closes : List Nat} (once : closes.length ≤ 1)
    (drained : ∀ time ∈ closes, began + drainMs ≤ time) :
    Stopping drainMs began (.exited none) closes

/-- The steps before the first signal. -/
def FirstSignal (labels before : List ProcessLabel) : Prop :=
  ∃ signal after, labels = before ++ .signal signal :: after ∧ ∀ other, .signal other ∉ before

/-- A process that has had no signal serves; any other is on its way out with its gate
draining, from the time of the first signal on. -/
inductive Orderly (checks drainMs : Nat) (labels : List ProcessLabel) (process : Process) : Prop where
  | serving (unsignaled : ∀ signal, .signal signal ∉ labels) (armed : ∀ signal, process.armed signal = true)
      (running : process.stopping = false) (phase : process.phase = .serving)
      (unclosed : process.closes = [])
  | stopping (before : List ProcessLabel) (first : FirstSignal labels before)
      (since : (run (step checks drainMs) initial before).now ≤ process.now)
      (stopping : process.stopping = true) (draining : process.gate.state = .draining)
      (stage : Stopping drainMs (run (step checks drainMs) initial before).now process.phase
        process.closes)

theorem FirstSignal.append {labels before : List ProcessLabel} (first : FirstSignal labels before)
    (label : ProcessLabel) : FirstSignal (labels ++ [label]) before := by
  obtain ⟨signal, after, rfl, none⟩ := first
  exact ⟨signal, after ++ [label], by simp, none⟩

theorem FirstSignal.here {labels : List ProcessLabel} {signal : Signal}
    (none : ∀ other, .signal other ∉ labels) : FirstSignal (labels ++ [.signal signal]) labels :=
  ⟨signal, [], rfl, none⟩

private theorem Stopping.wake {began : Nat} (stage : Stopping drainMs began process.phase process.closes) :
    Stopping drainMs began process.wake.phase process.wake.closes := by
  unfold Process.wake
  split
  · rename_i wakesAt phase
    rw [phase] at stage
    split
    · rename_i late
      cases closes : process.closes with
      | nil =>
        rw [closes] at stage
        cases stage
        simp only [close, closes, List.nil_append]
        exact .closing late
      | cons time rest =>
        rw [closes] at stage
        cases stage
    · rw [phase]
      exact stage
  · exact stage

private theorem Stopping.exit {began : Nat} (stage : Stopping drainMs began process.phase process.closes)
    (succeeded : Bool) :
    Stopping drainMs began (process.exit succeeded).phase (process.exit succeeded).closes := by
  unfold Process.exit
  split
  · rename_i phase
    rw [phase] at stage
    generalize process.closes = closes at stage
    cases stage with
    | closing drained => exact .exited drained
  · exact stage

private theorem Stopping.killed_of {began : Nat} {phase : Phase} {closes : List Nat}
    (stage : Stopping drainMs began phase closes) : Stopping drainMs began (.exited none) closes := by
  cases stage with
  | sleeping => exact .killed (Nat.zero_le 1) nofun
  | closing drained => exact .killed (Nat.le_refl 1) (List.forall_mem_singleton.mpr drained)
  | exited drained => exact .killed (Nat.le_refl 1) (List.forall_mem_singleton.mpr drained)
  | killed once drained => exact .killed once drained

/-- The first signal begins the shutdown. -/
private theorem stopping_begins (drainMs : Nat) (process : Process) (running : process.stopping = false)
    (unclosed : process.closes = []) : process.now ≤ (process.stop drainMs).now ∧
      (process.stop drainMs).stopping = true ∧ (process.stop drainMs).gate.state = .draining ∧
      Stopping drainMs process.now (process.stop drainMs).phase (process.stop drainMs).closes := by
  unfold stop drainAndClose
  simp only [running, Bool.false_eq_true, if_false]
  split
  · rw [unclosed]
    exact ⟨Nat.le_refl _, rfl, rfl, .sleeping⟩
  · rename_i immediate
    simp only [close, unclosed, List.nil_append]
    exact ⟨Nat.le_refl _, trivial, rfl, .closing (by omega)⟩

theorem Orderly.step {labels : List ProcessLabel}
    (orderly : Orderly checks drainMs labels (run (Process.step checks drainMs) initial labels))
    (label : ProcessLabel) : Orderly checks drainMs (labels ++ [label])
      (run (Process.step checks drainMs) initial (labels ++ [label])) := by
  rw [run_append, run_cons, run_nil]
  cases orderly with
  | serving unsignaled armed running phase unclosed =>
    have live : ∀ code, (run (Process.step checks drainMs) initial labels).phase ≠ .exited code := by
      intro code ended
      rw [phase] at ended
      cases ended
    rw [step_live live]
    have still : (∀ signal, label ≠ .signal signal) → ∀ signal, .signal signal ∉ labels ++ [label] := by
      intro other signal member
      rcases List.mem_append.mp member with earlier | last
      · exact unsignaled signal earlier
      · exact other signal (List.mem_singleton.mp last).symm
    cases label with
    | gate label => exact .serving (still nofun) armed running phase unclosed
    | tick milliseconds => exact .serving (still nofun) armed running phase unclosed
    | woke =>
      apply Orderly.serving (still nofun)
      all_goals simp only [wake, phase, armed, running, unclosed, implies_true]
    | closed succeeded =>
      apply Orderly.serving (still nofun)
      all_goals simp only [Process.exit, phase, armed, running, unclosed, implies_true]
    | signal signal =>
      simp only [receive, armed signal, if_true]
      obtain ⟨now, stopping, draining, stage⟩ := stopping_begins drainMs
        { run (Process.step checks drainMs) initial labels with
          armed := Function.update (run (Process.step checks drainMs) initial labels).armed signal false }
        running unclosed
      exact .stopping labels (.here unsignaled) now stopping draining stage
  | stopping before first since stopping draining stage =>
    by_cases ended : ∃ code, (run (Process.step checks drainMs) initial labels).phase = .exited code
    · obtain ⟨code, ended⟩ := ended
      rw [step_exited ended]
      exact .stopping before (first.append label) since stopping draining stage
    · rw [step_live fun code same => ended ⟨code, same⟩]
      cases label with
      | gate label =>
        exact .stopping before (first.append _) since stopping (Gate.step_draining draining label) stage
      | tick milliseconds =>
        exact .stopping before (first.append _) (Nat.le_add_right_of_le since) stopping draining stage
      | woke =>
        apply Orderly.stopping before (first.append _) _ _ _ stage.wake
        all_goals
          unfold Process.wake
          split
          · split <;> assumption
          · assumption
      | closed succeeded =>
        apply Orderly.stopping before (first.append _) _ _ _ (stage.exit succeeded)
        all_goals
          unfold Process.exit
          split <;> assumption
      | signal signal =>
        dsimp only
        unfold receive
        split
        · unfold stop
          split
          · exact .stopping before (first.append _) since stopping draining stage
          · rename_i running
            exact absurd stopping running
        · exact .stopping before (first.append _) since stopping draining stage.killed_of

theorem orderly (labels : List ProcessLabel) :
    Orderly checks drainMs labels (run (step checks drainMs) initial labels) := by
  induction labels using List.reverseRecOn with
  | nil => exact .serving nofun (fun _ => rfl) rfl rfl rfl
  | append_singleton labels label ih => exact ih.step label

/-- What the gate answers once it drains, it had answered before. -/
private theorem answered_before {labels : List ProcessLabel} {call : Nat}
    (draining : process.gate.state = .draining)
    (after : (run (Process.step checks drainMs) process labels).gate.answered call = some true) :
    process.gate.answered call = some true := by
  have kept : (run (Process.step checks drainMs) process labels).gate.state = .draining ∧
      ((run (Process.step checks drainMs) process labels).gate.answered call = some true →
        process.gate.answered call = some true) := by
    refine run_invariant (fun state : Process => state.gate.state = .draining ∧
      (state.gate.answered call = some true → process.gate.answered call = some true)) ?_
      ⟨draining, id⟩ labels
    rintro state label ⟨drains, earlier⟩
    by_cases ended : ∃ code, state.phase = .exited code
    · obtain ⟨code, ended⟩ := ended
      rw [step_exited ended]
      exact ⟨drains, earlier⟩
    · rw [step_live fun code same => ended ⟨code, same⟩]
      cases label with
      | gate label =>
        exact ⟨Gate.step_draining drains label, fun now => earlier (Gate.draining_answered drains label now)⟩
      | tick milliseconds => exact ⟨drains, earlier⟩
      | woke =>
        dsimp only
        unfold wake
        split
        · split <;> exact ⟨drains, earlier⟩
        · exact ⟨drains, earlier⟩
      | closed succeeded =>
        dsimp only
        unfold Process.exit
        split <;> exact ⟨drains, earlier⟩
      | signal signal =>
        dsimp only
        unfold receive stop drainAndClose
        split
        · split
          · exact ⟨drains, earlier⟩
          · dsimp only
            split <;> exact ⟨rfl, earlier⟩
        · exact ⟨drains, earlier⟩
  exact kept.2 after

/-- A signal leaves the gate draining or ends the process. -/
private theorem signaled (checks drainMs : Nat) (labels : List ProcessLabel) (signal : Signal) :
    let before := run (step checks drainMs) initial labels
    let after := before.step checks drainMs (.signal signal)
    after.gate.probes = before.gate.probes ∧
      (after.gate.state = .draining ∨ ∃ code, after.phase = .exited code) := by
  intro before after
  by_cases ended : ∃ code, before.phase = .exited code
  · obtain ⟨code, ended⟩ := ended
    have same : after = before := step_exited ended _
    rw [same]
    exact ⟨rfl, .inr ⟨code, ended⟩⟩
  · have stepped : after = before.receive drainMs signal := step_live (fun code same => ended ⟨code, same⟩) _
    rw [stepped]
    unfold receive stop drainAndClose
    split
    · split
      · rename_i stopping
        have stood : Orderly checks drainMs labels before := orderly labels
        cases stood with
        | serving _ _ running =>
          rw [running] at stopping
          cases stopping
        | stopping _ _ _ _ draining => exact ⟨rfl, .inl draining⟩
      · dsimp only
        split <;> exact ⟨rfl, .inl rfl⟩
    · exact ⟨rfl, .inr ⟨none, rfl⟩⟩

private theorem run_exited {code : Option Nat} (ended : process.phase = .exited code)
    (labels : List ProcessLabel) : run (step checks drainMs) process labels = process := by
  induction labels with
  | nil => rfl
  | cons label rest ih => rw [run_cons, step_exited ended, ih]

/-- After a signal no probe comes to be answered ready. -/
private theorem unready (checks drainMs : Nat) {before after : List ProcessLabel} {signal : Signal}
    {call : Nat} (ready : (run (step checks drainMs) .initial
      (before ++ .signal signal :: after)).gate.answered call = some true) :
    (run (step checks drainMs) .initial before).gate.answered call = some true := by
  have told : ∀ gate : Gate, gate.probes = (run (step checks drainMs) .initial before).gate.probes →
      gate.answered call = some true →
      (run (step checks drainMs) .initial before).gate.answered call = some true := by
    intro gate alike answer
    rwa [Gate.answered, alike] at answer
  obtain ⟨probes, draining | ⟨code, ended⟩⟩ := signaled checks drainMs before signal
  · rw [run_append, run_cons] at ready
    exact told _ probes (answered_before draining ready)
  · rw [run_append, run_cons, run_exited ended] at ready
    exact told _ probes ready

/-- From any stage before the exit the shutdown can be brought to its end. -/
private theorem completes (checks : Nat) {began : Nat} (since : began ≤ process.now)
    (stage : Stopping drainMs began process.phase process.closes)
    (live : ∀ code, process.phase ≠ .exited code) (succeeded : Bool) :
    (run (step checks drainMs) process [.tick drainMs, .woke, .closed succeeded]).phase =
      .exited (some (if succeeded then 0 else 1)) := by
  rw [run_cons, step_live live]
  cases phase : process.phase with
  | serving =>
    rw [phase] at stage
    cases stage
  | sleeping wakesAt =>
    have due : wakesAt ≤ process.now + drainMs := by
      rw [phase] at stage
      generalize process.closes = closes at stage
      cases stage
      omega
    simp [step, wake, due, close, Process.exit]
  | closing => simp [step, wake, Process.exit]
  | exited code => exact absurd phase (live code)

/-- From serving the first signal brings the shutdown to its end. -/
private theorem completes_serving (checks drainMs : Nat) (running : process.stopping = false)
    (armed : ∀ signal, process.armed signal = true) (phase : process.phase = .serving)
    (unclosed : process.closes = []) (signal : Signal) (succeeded : Bool) :
    (run (step checks drainMs) process
      [.signal signal, .tick drainMs, .woke, .closed succeeded]).phase =
      .exited (some (if succeeded then 0 else 1)) := by
  have live : ∀ code, process.phase ≠ .exited code := by
    intro code ended
    rw [phase] at ended
    cases ended
  have stops : process.receive drainMs signal =
      stop drainMs { process with armed := Function.update process.armed signal false } :=
    if_pos (armed signal)
  obtain ⟨since, -, -, stage⟩ := stopping_begins drainMs
    { process with armed := Function.update process.armed signal false } running unclosed
  rw [run_cons, step_live live]
  dsimp only
  rw [stops]
  refine completes checks since stage (fun code => ?_) succeeded
  unfold stop drainAndClose
  simp only [running, Bool.false_eq_true, if_false]
  split <;> simp [close]

end Process

/-- A process closes its application at most once, after the first signal and the time it
leaves for routing, and answers no probe that it is ready once a signal came; it exits with a
code only after it closed, and until it exits it can always go on to that end: on its way out
by itself, and from serving with a signal. -/
theorem shutdown_in_order (checks drainMs : Nat) (labels : List ProcessLabel) :
    let process := run (Process.step checks drainMs) .initial labels
    process.closes.length ≤ 1 ∧
    (∀ time ∈ process.closes, ∃ before, Process.FirstSignal labels before ∧
      (run (Process.step checks drainMs) .initial before).now + drainMs ≤ time) ∧
    (∀ code, process.phase = .exited (some code) → process.closes ≠ []) ∧
    (∀ before signal after call, labels = before ++ .signal signal :: after →
      process.gate.answered call = some true →
      (run (Process.step checks drainMs) .initial before).gate.answered call = some true) ∧
    (process.stopping = true → (∀ code, process.phase ≠ .exited code) → ∀ succeeded,
      (run (Process.step checks drainMs) process [.tick drainMs, .woke, .closed succeeded]).phase =
        .exited (some (if succeeded then 0 else 1))) ∧
    (process.stopping = false → ∀ signal succeeded,
      (run (Process.step checks drainMs) process
        [.signal signal, .tick drainMs, .woke, .closed succeeded]).phase =
        .exited (some (if succeeded then 0 else 1))) := by
  intro process
  have unready : ∀ before signal after call, labels = before ++ .signal signal :: after →
      process.gate.answered call = some true →
      (run (Process.step checks drainMs) .initial before).gate.answered call = some true := by
    intro before signal after call same ready
    have ready : (run (Process.step checks drainMs) .initial labels).gate.answered call = some true :=
      ready
    rw [same] at ready
    exact Process.unready checks drainMs ready
  have orderly : Process.Orderly checks drainMs labels process := Process.orderly labels
  cases orderly with
  | serving _ armed running phase unclosed =>
    have finish := fun _ : process.stopping = false =>
      Process.completes_serving checks drainMs running armed phase unclosed
    rw [unclosed, phase]
    refine ⟨Nat.zero_le 1, ?_, ?_, unready, fun stopping => ?_, finish⟩
    · intro time closed
      cases closed
    · intro code ended
      cases ended
    · rw [running] at stopping
      cases stopping
  | stopping before first since stopping draining stage =>
    have finish := fun live => Process.completes checks since stage live
    refine ⟨?_, ?_, ?_, unready, fun _ live => finish live, fun running => ?_⟩
    · generalize process.phase = phase, process.closes = closes at stage
      cases stage with
      | sleeping => exact Nat.zero_le 1
      | closing | exited => exact Nat.le_refl 1
      | killed once => exact once
    · intro time member
      refine ⟨before, first, ?_⟩
      generalize process.phase = phase, process.closes = closes at stage member
      cases stage with
      | sleeping => cases member
      | closing drained | exited drained => exact List.mem_singleton.mp member ▸ drained
      | killed _ drained => exact drained time member
    · intro code ended
      rw [ended] at stage
      generalize process.closes = closes at stage
      cases stage
      exact List.cons_ne_nil _ _
    · rw [stopping] at running
      cases running

end N2FNest.Health
