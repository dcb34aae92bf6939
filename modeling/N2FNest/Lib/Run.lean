import Mathlib.Data.List.Infix

/-! Runs of a deterministic labelled system. Nondeterminism lives in the labels,
so a run is a list of labels and quantifying over runs quantifies over every
interleaving. -/

namespace N2FNest.Lib

universe u v

variable {State : Type u} {Label : Type v} (step : State → Label → State)

/-- The state after a sequence of steps. -/
def run (state : State) (labels : List Label) : State := labels.foldl step state

/-- Every step of the run is taken from a state that admits it. -/
def Along (admits : State → Label → Prop) : State → List Label → Prop
  | _, [] => True
  | state, label :: rest => admits state label ∧ Along admits (step state label) rest

instance Along.decidable (admits : State → Label → Prop)
    [decide : ∀ state label, Decidable (admits state label)] :
    ∀ state labels, Decidable (Along step admits state labels)
  | _, [] => .isTrue trivial
  | state, label :: rest =>
    have : Decidable (Along step admits (step state label) rest) :=
      Along.decidable admits (step state label) rest
    inferInstanceAs (Decidable (_ ∧ _))

@[simp] theorem run_nil (state : State) : run step state [] = state := rfl

@[simp] theorem run_cons (state : State) (label : Label) (rest : List Label) :
    run step state (label :: rest) = run step (step state label) rest := rfl

theorem run_append (state : State) (first second : List Label) :
    run step state (first ++ second) = run step (run step state first) second :=
  List.foldl_append

variable {step}

/-- What holds initially and is kept by every admitted step holds after every
run of admitted steps. -/
theorem Along.invariant {admits : State → Label → Prop} {Inv : State → Prop}
    (keeps : ∀ state label, Inv state → admits state label → Inv (step state label))
    {state : State} {labels : List Label} (holds : Inv state)
    (along : Along step admits state labels) : Inv (run step state labels) := by
  induction labels generalizing state with
  | nil => exact holds
  | cons label rest ih => exact ih (keeps state label holds along.1) along.2

theorem Along.mono {admits weaker : State → Label → Prop}
    (implies : ∀ state label, admits state label → weaker state label) {state : State}
    {labels : List Label} (along : Along step admits state labels) : Along step weaker state labels := by
  induction labels generalizing state with
  | nil => trivial
  | cons label rest ih => exact ⟨implies state label along.1, ih along.2⟩

/-- The same for what holds of the labels taken so far and the state they lead to. -/
theorem Along.history {admits : State → Label → Prop} {Inv : List Label → State → Prop}
    (keeps : ∀ taken state label, Inv taken state → admits state label →
      Inv (taken ++ [label]) (step state label))
    {state : State} {labels : List Label} (holds : Inv [] state)
    (along : Along step admits state labels) : Inv labels (run step state labels) := by
  suffices every : ∀ taken, Inv taken state → Inv (taken ++ labels) (run step state labels) from
    every [] holds
  clear holds
  induction labels generalizing state with
  | nil =>
    intro taken holds
    rw [List.append_nil]
    exact holds
  | cons label rest ih =>
    intro taken holds
    have next := ih along.2 (taken ++ [label]) (keeps taken state label holds along.1)
    rwa [List.append_assoc] at next

/-- What holds of the empty sequence, and of every one that starts with the first step, holds of
every beginning. -/
theorem forall_prefix_cons {Holds : List Label → Prop} {label : Label} {rest : List Label}
    (none : Holds []) (some : ∀ taken, taken <+: rest → Holds (label :: taken)) :
    ∀ taken, taken <+: label :: rest → Holds taken := by
  intro taken early
  cases taken with
  | nil => exact none
  | cons head tail =>
    obtain ⟨rfl, shorter⟩ := List.cons_prefix_cons.mp early
    exact some tail shorter

theorem run_invariant (Inv : State → Prop)
    (keeps : ∀ state label, Inv state → Inv (step state label))
    {state : State} (holds : Inv state) (labels : List Label) : Inv (run step state labels) := by
  induction labels generalizing state with
  | nil => exact holds
  | cons label rest ih => exact ih (keeps state label holds)

/-- What a run brings about, one of its steps brings about. -/
theorem run_turn (Holds : State → Prop) {state : State} {labels : List Label}
    (before : ¬ Holds state) (after : Holds (run step state labels)) :
    ∃ earlier label later, labels = earlier ++ label :: later ∧
      ¬ Holds (run step state earlier) ∧ Holds (step (run step state earlier) label) := by
  induction labels generalizing state with
  | nil => exact absurd after before
  | cons label rest ih =>
    by_cases here : Holds (step state label)
    · exact ⟨[], label, rest, rfl, before, here⟩
    · obtain ⟨earlier, turning, later, same, still, turned⟩ := ih here after
      refine ⟨label :: earlier, turning, later, ?_, still, turned⟩
      rw [same]
      rfl

/-- Where a step keeps a property exactly when it is admitted, a run meets the
property in every state it visits exactly when each of its steps is admitted. -/
theorem along_iff_visited {admits : State → Label → Prop} {Inv : State → Prop}
    (precise : ∀ state label, Inv state → (admits state label ↔ Inv (step state label)))
    {state : State} (holds : Inv state) (labels : List Label) :
    Along step admits state labels ↔ ∀ visited, visited <+: labels → Inv (run step state visited) := by
  induction labels generalizing state with
  | nil =>
    refine ⟨fun _ visited prefixed => ?_, fun _ => trivial⟩
    rw [List.prefix_nil.mp prefixed]
    exact holds
  | cons label rest ih =>
    constructor
    · rintro ⟨first, later⟩ visited prefixed
      have next := (precise state label holds).mp first
      cases visited with
      | nil => exact holds
      | cons head tail =>
        obtain ⟨same, shorter⟩ := List.cons_prefix_cons.mp prefixed
        subst same
        exact (ih next).mp later tail shorter
    · intro always
      have next : Inv (step state label) :=
        always [label] (List.cons_prefix_cons.mpr ⟨rfl, List.nil_prefix⟩)
      refine ⟨(precise state label holds).mpr next, (ih next).mpr ?_⟩
      intro visited prefixed
      exact always (label :: visited) (List.cons_prefix_cons.mpr ⟨rfl, prefixed⟩)

end N2FNest.Lib
