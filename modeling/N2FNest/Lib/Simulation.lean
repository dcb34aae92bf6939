/-! Two machines that answer alike. The relation between them may speak of the inputs
still to come, so that what is assumed of a whole run is used up step by step. -/

namespace N2FNest.Lib

universe u v w x

variable {State : Type u} {Other : Type v} {Label : Type w} {Output : Type x}

/-- What a machine answers to a sequence of inputs. -/
def outputs (step : State → Label → State × Output) : State → List Label → List Output
  | _, [] => []
  | state, label :: rest => (step state label).2 :: outputs step (step state label).1 rest

/-- Related machines answer a step alike and stay related, so they answer alike for ever. -/
theorem outputs_eq {step : State → Label → State × Output} {other : Other → Label → Other × Output}
    {related : State → Other → List Label → Prop}
    (keeps : ∀ first second label rest, related first second (label :: rest) →
      (step first label).2 = (other second label).2 ∧
        related (step first label).1 (other second label).1 rest)
    {first : State} {second : Other} {labels : List Label} (start : related first second labels) :
    outputs step first labels = outputs other second labels := by
  induction labels generalizing first second with
  | nil => rfl
  | cons label rest ih =>
    obtain ⟨same, later⟩ := keeps first second label rest start
    rw [outputs, outputs, same, ih later]

end N2FNest.Lib
