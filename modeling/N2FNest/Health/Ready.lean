import N2FNest.Health.Gate

/-! How a call of `ready` comes to its answer, told by the steps around it alone. -/

namespace N2FNest.Health

open Lib

/-- How the checks a call awaits settle, in order. -/
def outcomes (call : Nat) (labels : List GateLabel) : List Outcome :=
  labels.filterMap fun
    | .settle other outcome => if other = call then some outcome else none
    | _ => none

/-- So many checks of the call settle well, one after another, before its time is up. -/
def InTime (call checks : Nat) (labels : List GateLabel) : Prop :=
  ∃ early late, labels = early ++ late ∧ .stop call ∉ early ∧
    outcomes call early = List.replicate checks .ok

namespace InTime

variable {call checks : Nat} {label : GateLabel} {rest : List GateLabel}

theorem zero (labels : List GateLabel) : InTime call 0 labels := ⟨[], labels, rfl, nofun, rfl⟩

theorem not_nil : ¬ InTime call (checks + 1) [] := by
  rintro ⟨early, late, same, _, settled⟩
  obtain ⟨rfl, -⟩ := List.append_eq_nil_iff.mp same.symm
  cases settled

/-- The first of the checks that are left has settled with the label, or the label
settles none. -/
private theorem cons (more : InTime call (checks + 1) (label :: rest)) : label ≠ .stop call ∧
    (label = .settle call .ok ∧ InTime call checks rest ∨
      (∀ outcome, label ≠ .settle call outcome) ∧ InTime call (checks + 1) rest) := by
  obtain ⟨early, late, same, timely, settled⟩ := more
  cases early with
  | nil => cases settled
  | cons head tail =>
    obtain ⟨rfl, rfl⟩ := List.cons.inj same
    refine ⟨fun stops => timely (stops ▸ List.mem_cons_self), ?_⟩
    have later : .stop call ∉ tail := fun member => timely (List.mem_cons_of_mem label member)
    by_cases mine : ∃ outcome, label = .settle call outcome
    · obtain ⟨outcome, rfl⟩ := mine
      have split : outcomes call (.settle call outcome :: tail) = outcome :: outcomes call tail := by
        simp [outcomes]
      rw [split, List.replicate_succ] at settled
      have first := List.head_eq_of_cons_eq settled
      subst first
      exact .inl ⟨rfl, tail, late, rfl, later, List.tail_eq_of_cons_eq settled⟩
    · have skipped : outcomes call (label :: tail) = outcomes call tail := by
        cases label with
        | settle other outcome =>
          have apart : other ≠ call := fun same => mine ⟨outcome, same ▸ rfl⟩
          simp [outcomes, apart]
        | _ => rfl
      rw [skipped] at settled
      exact .inr ⟨fun outcome same => mine ⟨outcome, same⟩, tail, late, rfl, later, settled⟩

theorem not_stop : ¬ InTime call (checks + 1) (.stop call :: rest) :=
  fun more => (cons more).1 rfl

theorem settle_iff {outcome : Outcome} : InTime call (checks + 1) (.settle call outcome :: rest) ↔
    outcome = .ok ∧ InTime call checks rest := by
  constructor
  · intro more
    rcases (cons more).2 with ⟨same, less⟩ | ⟨apart, _⟩
    · cases same
      exact ⟨rfl, less⟩
    · exact absurd rfl (apart outcome)
  · rintro ⟨rfl, early, late, rfl, timely, settled⟩
    refine ⟨.settle call .ok :: early, late, rfl, ?_, ?_⟩
    · simpa using timely
    · rw [List.replicate_succ, ← settled]
      simp [outcomes]

theorem skip_iff (stops : label ≠ .stop call) (settles : ∀ outcome, label ≠ .settle call outcome) :
    InTime call checks (label :: rest) ↔ InTime call checks rest := by
  cases checks with
  | zero => exact iff_of_true (zero _) (zero _)
  | succ checks =>
    constructor
    · intro more
      rcases (cons more).2 with ⟨same, _⟩ | ⟨_, same⟩
      · exact absurd same (settles .ok)
      · exact same
    · rintro ⟨early, late, rfl, timely, settled⟩
      refine ⟨label :: early, late, rfl, ?_, ?_⟩
      · rw [List.mem_cons, not_or]
        exact ⟨Ne.symm stops, timely⟩
      · rw [← settled]
        cases label with
        | settle other outcome =>
          have apart : other ≠ call := fun same => settles outcome (same ▸ rfl)
          simp [outcomes, apart]
        | _ => rfl

end InTime

namespace Gate

variable {checks : Nat} {gate : Gate} {call : Nat}

/-- The call would answer true now. -/
def Passing (gate : Gate) (call : Nat) : Prop :=
  gate.state = .serving ∧ ∃ probe, gate.probes call = some probe ∧
    probe.raced = some true ∧ probe.aborted = false ∧ probe.answer = none

/-- The call will not answer true. -/
def Lost (gate : Gate) (call : Nat) : Prop :=
  gate.state = .draining ∨ ∃ probe, gate.probes call = some probe ∧
    (probe.aborted = true ∨ probe.raced = some false)

theorem Lost.not_passing (lost : gate.Lost call) : ¬ gate.Passing call := by
  rintro ⟨serving, probe, found, won, listening, _⟩
  rcases lost with draining | ⟨other, also, missed⟩
  · rw [serving] at draining
    cases draining
  · cases Option.some.inj (found.symm.trans also)
    rcases missed with gone | second
    · rw [listening] at gone
      cases gone
    · rw [won] at second
      cases second

private theorem lost_put {probe : Probe} (missed : probe.aborted = true ∨ probe.raced = some false) :
    (gate.put call probe).Lost call :=
  .inr ⟨probe, put_same, missed⟩

private theorem lost_loop {probe : Probe} (missed : probe.aborted = true ∨ probe.raced = some false)
    (index : Nat) : (loop checks gate call probe index).Lost call := by
  have ended : ∀ healthy, (gate.finish call probe healthy).Lost call := by
    intro healthy
    exact lost_put (missed.imp id fun second => by rw [second]; rfl)
  unfold loop
  split
  · split
    · exact ended false
    · exact lost_put missed
  · exact ended true

theorem step_draining (draining : gate.state = .draining) (label : GateLabel) :
    (gate.step checks label).state = .draining := by
  by_cases starts : label = .start
  · subst starts
    simp only [Gate.step, start, draining]
  · by_cases drains : label = .drain
    · subst drains
      rfl
    · rw [step_state label starts drains, draining]

private theorem Lost.step (lost : gate.Lost call) (label : GateLabel) :
    (gate.step checks label).Lost call := by
  rcases lost with draining | ⟨probe, found, missed⟩
  · exact .inl (step_draining draining label)
  · by_cases mine : label.call? = some call
    · cases label with
      | start => cases mine
      | drain => cases mine
      | ready other aborted =>
        cases Option.some.inj mine
        simp only [Gate.step, ready, found]
        exact .inr ⟨probe, found, missed⟩
      | settle other outcome =>
        cases Option.some.inj mine
        simp only [Gate.step, settle, found]
        split
        · exact lost_loop missed _
        · exact lost_put (missed.imp id fun second => by rw [second]; rfl)
        · exact .inr ⟨probe, found, missed⟩
      | stop other =>
        cases Option.some.inj mine
        simp only [Gate.step, stop, found]
        split
        · exact lost_put (missed.imp id fun second => by rw [second]; rfl)
        · exact .inr ⟨probe, found, missed⟩
      | abort other =>
        cases Option.some.inj mine
        simp only [Gate.step, abort, found]
        split
        · exact lost_put (.inl rfl)
        · exact .inr ⟨probe, found, missed⟩
      | resume other =>
        cases Option.some.inj mine
        simp only [Gate.step, resume, found]
        split
        · exact lost_put missed
        · exact .inr ⟨probe, found, missed⟩
    · exact .inr ⟨probe, (step_other mine).trans found, missed⟩

private theorem Lost.run (lost : gate.Lost call) (labels : List GateLabel) :
    (run (Gate.step checks) gate labels).Lost call :=
  run_invariant (fun gate : Gate => gate.Lost call) (fun _ label lost => lost.step label) lost labels

/-- Once its checks have passed, a call loses only to a drain or to its own signal. -/
private theorem Passing.step (passing : gate.Passing call) {label : GateLabel}
    (waits : label ≠ .resume call) (drains : label ≠ .drain) (aborts : label ≠ .abort call) :
    (gate.step checks label).Passing call := by
  obtain ⟨serving, probe, found, won, listening, unanswered⟩ := passing
  have state : (gate.step checks label).state = .serving := by
    by_cases starts : label = .start
    · subst starts
      simp only [Gate.step, start, serving]
    · rw [step_state label starts drains, serving]
  refine ⟨state, ?_⟩
  by_cases mine : label.call? = some call
  · cases label with
    | start => cases mine
    | drain => cases mine
    | ready other aborted =>
      cases Option.some.inj mine
      simp only [Gate.step, ready, found]
      exact ⟨probe, rfl, won, listening, unanswered⟩
    | settle other outcome =>
      cases Option.some.inj mine
      simp only [Gate.step, settle, found]
      split
      · unfold loop finish
        split
        · split <;> exact ⟨_, put_same, by simp [won], listening, unanswered⟩
        · exact ⟨_, put_same, by simp [won], listening, unanswered⟩
      · exact ⟨_, put_same, by simp [won], listening, unanswered⟩
      · exact ⟨probe, found, won, listening, unanswered⟩
    | stop other =>
      cases Option.some.inj mine
      simp only [Gate.step, stop, found, unanswered, if_true]
      exact ⟨_, put_same, by simp [won], listening, rfl⟩
    | abort other =>
      cases Option.some.inj mine
      exact absurd rfl aborts
    | resume other =>
      cases Option.some.inj mine
      exact absurd rfl waits
  · exact ⟨probe, (step_other mine).trans found, won, listening, unanswered⟩

private theorem passing_iff (passing : gate.Passing call) {labels : List GateLabel}
    (waits : .resume call ∉ labels) : (run (Gate.step checks) gate labels).Passing call ↔
      .drain ∉ labels ∧ .abort call ∉ labels := by
  induction labels generalizing gate with
  | nil => exact iff_of_true passing ⟨nofun, nofun⟩
  | cons label rest ih =>
    have waiting : label ≠ .resume call := fun same => waits (same ▸ List.mem_cons_self)
    have later : .resume call ∉ rest := fun member => waits (List.mem_cons_of_mem label member)
    rw [run_cons]
    by_cases drains : label = .drain
    · subst drains
      have lost : (gate.step checks .drain).Lost call := .inl rfl
      exact iff_of_false (lost.run rest).not_passing fun both => both.1 List.mem_cons_self
    · by_cases aborts : label = .abort call
      · subst aborts
        obtain ⟨_, probe, found, _, _, unanswered⟩ := passing
        have lost : (gate.step checks (.abort call)).Lost call := by
          simp only [Gate.step, abort, found, unanswered, if_true]
          exact lost_put (.inl rfl)
        exact iff_of_false (lost.run rest).not_passing fun both => both.2 List.mem_cons_self
      · rw [ih (passing.step waiting drains aborts) later]
        simp [Ne.symm drains, Ne.symm aborts]

/-- With `left + 1` checks to go, a call passes exactly when nothing stops it and they settle
well in time. -/
private theorem awaiting_iff {left index : Nat} (counted : index + (left + 1) = checks)
    (serving : gate.state = .serving) (awaits : gate.probes call = some (.awaiting index))
    {labels : List GateLabel} (waits : .resume call ∉ labels) :
    (run (Gate.step checks) gate labels).Passing call ↔
      .drain ∉ labels ∧ .abort call ∉ labels ∧ InTime call (left + 1) labels := by
  induction labels generalizing gate left index with
  | nil =>
    refine iff_of_false ?_ fun all => InTime.not_nil all.2.2
    rintro ⟨_, probe, found, won, _⟩
    rw [run_nil, awaits] at found
    cases found
    cases won
  | cons label rest ih =>
    have later : .resume call ∉ rest := fun member => waits (List.mem_cons_of_mem label member)
    have lose : (gate.step checks label).Lost call → (¬ (.drain ∉ label :: rest ∧
        .abort call ∉ label :: rest ∧ InTime call (left + 1) (label :: rest))) →
        ((run (Gate.step checks) (gate.step checks label) rest).Passing call ↔
          .drain ∉ label :: rest ∧ .abort call ∉ label :: rest ∧
            InTime call (left + 1) (label :: rest)) :=
      fun lost missed => iff_of_false (lost.run rest).not_passing missed
    rw [run_cons]
    by_cases drains : label = .drain
    · subst drains
      exact lose (.inl rfl) fun all => all.1 List.mem_cons_self
    by_cases aborts : label = .abort call
    · subst aborts
      apply lose _ fun all => all.2.1 List.mem_cons_self
      simp only [Gate.step, abort, awaits]
      exact lost_put (.inl rfl)
    by_cases stops : label = .stop call
    · subst stops
      apply lose _ fun all => InTime.not_stop all.2.2
      simp only [Gate.step, stop, awaits]
      exact lost_put (.inr rfl)
    by_cases settles : ∃ outcome, label = .settle call outcome
    · obtain ⟨outcome, rfl⟩ := settles
      by_cases well : outcome = .ok
      · subst well
        have stepped : gate.step checks (.settle call .ok) =
            loop checks gate call (.awaiting index) (index + 1) := by
          simp only [Gate.step, settle, awaits]
          rfl
        rw [stepped]
        cases left with
        | zero =>
          have passing : (loop checks gate call (.awaiting index) (index + 1)).Passing call := by
            unfold loop
            rw [if_neg (by omega)]
            exact ⟨serving, _, put_same, rfl, rfl, rfl⟩
          rw [passing_iff passing later]
          simp [InTime.settle_iff, InTime.zero]
        | succ left =>
          have goes : loop checks gate call (.awaiting index) (index + 1) =
              gate.put call (.awaiting (index + 1)) := by
            unfold loop
            rw [if_pos (by omega)]
            rfl
          have stands : (gate.put call (.awaiting (index + 1))).probes call =
              some (.awaiting (index + 1)) := put_same
          have state : (gate.put call (.awaiting (index + 1))).state = .serving := serving
          have fewer : index + 1 + (left + 1) = checks := by omega
          rw [goes, ih fewer state stands later]
          simp [InTime.settle_iff]
      · apply lose _ fun all => well (InTime.settle_iff.mp all.2.2).1
        have stepped : gate.step checks (.settle call outcome) =
            gate.finish call (.awaiting index) false := by
          simp only [Gate.step, settle, awaits]
          cases outcome with
          | ok => exact absurd rfl well
          | err error => rfl
          | threw => rfl
        rw [stepped]
        exact lost_put (.inr rfl)
    · have skip : InTime call (left + 1) (label :: rest) ↔ InTime call (left + 1) rest :=
        InTime.skip_iff stops fun outcome same => settles ⟨outcome, same⟩
      have state : (gate.step checks label).state = .serving := by
        by_cases starts : label = .start
        · subst starts
          simp only [Gate.step, start, serving]
        · rw [step_state label starts drains, serving]
      have still : (gate.step checks label).probes call = some (.awaiting index) := by
        by_cases mine : label.call? = some call
        · cases label with
          | ready other aborted =>
            cases Option.some.inj mine
            simp only [Gate.step, ready, awaits]
          | settle other outcome =>
            cases Option.some.inj mine
            exact absurd ⟨outcome, rfl⟩ settles
          | resume other =>
            cases Option.some.inj mine
            exact absurd List.mem_cons_self waits
          | stop other =>
            cases Option.some.inj mine
            exact absurd rfl stops
          | abort other =>
            cases Option.some.inj mine
            exact absurd rfl aborts
          | start => cases mine
          | drain => cases mine
        · rw [step_other mine, awaits]
      rw [ih counted state still later, skip]
      simp [Ne.symm drains, Ne.symm aborts]

theorem loop_answered {probe : Probe} {index : Nat} :
    (loop checks gate call probe index).answered call = probe.answer := by
  unfold loop finish
  split
  · split <;> simp [answered]
  · simp [answered]

/-- Only the end of a call answers true. -/
private theorem answered_step {label : GateLabel} (waits : label ≠ .resume call)
    (before : gate.answered call ≠ some true) : (gate.step checks label).answered call ≠ some true := by
  by_cases mine : label.call? = some call
  · cases found : gate.probes call with
    | none =>
      cases label with
      | start => cases mine
      | drain => cases mine
      | ready other aborted =>
        cases Option.some.inj mine
        simp only [Gate.step, ready, found]
        split
        · simp [answered, Probe.refused]
        · rw [loop_answered]
          rintro ⟨⟩
      | settle other outcome =>
        cases Option.some.inj mine
        simpa only [Gate.step, settle, found] using before
      | stop other =>
        cases Option.some.inj mine
        simpa only [Gate.step, stop, found] using before
      | abort other =>
        cases Option.some.inj mine
        simpa only [Gate.step, abort, found] using before
      | resume other =>
        cases Option.some.inj mine
        exact absurd rfl waits
    | some probe =>
      have earlier : probe.answer ≠ some true := by simpa [answered, found] using before
      cases label with
      | start => cases mine
      | drain => cases mine
      | ready other aborted =>
        cases Option.some.inj mine
        simpa only [Gate.step, ready, found] using before
      | settle other outcome =>
        cases Option.some.inj mine
        simp only [Gate.step, settle, found]
        split
        · rw [loop_answered]
          exact earlier
        · simpa [answered, finish] using earlier
        · exact before
      | stop other =>
        cases Option.some.inj mine
        simp only [Gate.step, stop, found]
        split
        · simpa [answered] using earlier
        · exact before
      | abort other =>
        cases Option.some.inj mine
        simp only [Gate.step, abort, found]
        split
        · simpa [answered] using earlier
        · exact before
      | resume other =>
        cases Option.some.inj mine
        exact absurd rfl waits
  · rw [answered, step_other mine]
    exact before

private theorem answered_run (before : gate.answered call ≠ some true) {labels : List GateLabel}
    (waits : .resume call ∉ labels) : (run (Gate.step checks) gate labels).answered call ≠ some true := by
  induction labels generalizing gate with
  | nil => exact before
  | cons label rest ih =>
    have waiting : label ≠ .resume call := fun same => waits (same ▸ List.mem_cons_self)
    exact ih (answered_step waiting before) fun member => waits (List.mem_cons_of_mem label member)

theorem answered_resume (before : gate.answered call ≠ some true) :
    (gate.resume call).answered call = some true ↔ gate.Passing call := by
  cases found : gate.probes call with
  | none =>
    have missing : ¬ gate.Passing call := by
      rintro ⟨_, probe, present, _⟩
      rw [found] at present
      cases present
    refine iff_of_false ?_ missing
    simpa only [resume, found] using before
  | some probe =>
    have earlier : probe.answer ≠ some true := by simpa [answered, found] using before
    simp only [resume, found, Passing, Option.some.injEq, exists_eq_left']
    cases won : probe.raced with
    | none =>
      refine iff_of_false before ?_
      rintro ⟨_, second, _⟩
      cases second
    | some first =>
      cases given : probe.answer with
      | none => cases first <;> cases probe.aborted <;> simp [answered]
      | some answer =>
        refine iff_of_false before ?_
        rintro ⟨_, _, _, unanswered⟩
        cases unanswered

/-- A gate that drains answers true to nobody. -/
theorem draining_answered (draining : gate.state = .draining) (label : GateLabel)
    (after : (gate.step checks label).answered call = some true) : gate.answered call = some true := by
  by_contra before
  by_cases resumes : label = .resume call
  · subst resumes
    have passing := (answered_resume before).mp after
    exact Lost.not_passing (.inl draining) passing
  · exact answered_step resumes before after

end Gate

/-- A call of `ready` answers true exactly when it was made of a gate that serves, with no other
call running the checks, its own checks all settled well before its time was up, and
nothing drained the gate or aborted the call before its answer. -/
theorem ready_exactly {checks : Nat} {before between : List GateLabel} {call : Nat} {aborted : Bool}
    (new : ∀ flag, .ready call flag ∉ before) (waits : .resume call ∉ between) :
    (run (Gate.step checks) Gate.initial
        (before ++ .ready call aborted :: (between ++ [.resume call]))).answered call = some true ↔
      .start ∈ before ∧ .drain ∉ before ++ between ∧
        (∀ other, ¬ (run (Gate.step checks) Gate.initial before).Works other) ∧
        aborted = false ∧ .abort call ∉ between ∧ InTime call checks between := by
  have unused : (run (Gate.step checks) Gate.initial before).probes call = none := Gate.unused new
  rw [← Gate.idle_iff before, List.mem_append, not_or, run_append, run_cons, run_append, run_cons,
    run_nil]
  have serves := Gate.serving_iff checks before
  generalize run (Gate.step checks) Gate.initial before = gate at unused serves ⊢
  have made : (gate.step checks (.ready call aborted)).answered call ≠ some true := by
    simp only [Gate.step, Gate.ready, unused]
    split
    · simp [Gate.answered, Probe.refused]
    · rw [Gate.loop_answered]
      rintro ⟨⟩
  show (Gate.resume _ call).answered call = some true ↔ _
  rw [Gate.answered_resume (Gate.answered_run made waits)]
  by_cases admitted : gate.state = .serving ∧ gate.busy = false ∧ aborted = false
  · obtain ⟨serving, idle, listening⟩ := admitted
    obtain ⟨started, undrained⟩ := serves.mp serving
    have goes : gate.step checks (.ready call aborted) =
        Gate.loop checks { gate with busy := true } call (.awaiting 0) 0 := by
      simp only [Gate.step, Gate.ready, unused]
      exact if_neg (by simp [serving, idle, listening])
    have now : (run (Gate.step checks) (gate.step checks (.ready call aborted)) between).Passing call ↔
        .drain ∉ between ∧ .abort call ∉ between ∧ InTime call checks between := by
      rw [goes]
      cases checks with
      | zero =>
        have passing : (Gate.loop 0 { gate with busy := true } call (.awaiting 0) 0).Passing call :=
          ⟨serving, _, Gate.put_same, rfl, rfl, rfl⟩
        rw [Gate.passing_iff passing waits]
        simp [InTime.zero]
      | succ left =>
        have awaits : (Gate.loop (left + 1) { gate with busy := true } call (.awaiting 0) 0).probes call =
            some (.awaiting 0) := Gate.put_same
        have state : (Gate.loop (left + 1) { gate with busy := true } call (.awaiting 0) 0).state =
            .serving := serving
        exact Gate.awaiting_iff (Nat.zero_add _) state awaits waits
    rw [now]
    simp only [started, undrained, idle, listening]
    tauto
  · have lost : (gate.step checks (.ready call aborted)).Lost call := by
      simp only [Gate.step, Gate.ready, unused]
      rw [if_pos]
      · exact .inr ⟨_, Gate.put_same, .inr rfl⟩
      · by_contra all
        simp only [not_or, Bool.not_eq_true, ne_eq, not_not] at all
        exact admitted all
    refine iff_of_false (Gate.Lost.run lost between).not_passing ?_
    rintro ⟨started, ⟨undrained, _⟩, idle, listening, _⟩
    exact admitted ⟨serves.mpr ⟨started, undrained⟩, idle, listening⟩

/-- Two checks settle well, and a second call made while they run is refused. -/
theorem overlapping_call_refused :
    let labels : List GateLabel := [.start, .ready 0 false, .settle 0 .ok, .ready 1 false,
      .settle 1 .ok, .settle 0 .ok, .resume 0, .resume 1]
    (run (Gate.step 2) Gate.initial labels).answered 1 = some false ∧
      (run (Gate.step 2) Gate.initial (labels.take 7)).answered 0 = some true := by
  refine ⟨rfl, ?_⟩
  have between : .resume 0 ∉ [GateLabel.settle 0 .ok, .ready 1 false, .settle 1 .ok, .settle 0 .ok] := by
    decide
  have new : ∀ flag, .ready 0 flag ∉ [GateLabel.start] := by decide
  refine (ready_exactly new between).mpr ⟨by decide, by decide, ?_, rfl, by decide, ?_⟩
  · rintro other ⟨probe, found, _⟩
    cases found
  · exact ⟨_, [], (List.append_nil _).symm, by decide, rfl⟩

end N2FNest.Health
