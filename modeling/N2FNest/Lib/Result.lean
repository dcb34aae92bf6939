/-! Peeling a fallible computation apart: a successful sequence succeeded at
each of its steps, and passed each of its checks. -/

namespace N2FNest.Lib

universe u v w

variable {ε : Type u} {α β : Type v}

theorem bind_ok {first : Except ε α} {next : α → Except ε β} {result : β}
    (success : first >>= next = .ok result) : ∃ value, first = .ok value ∧ next value = .ok result := by
  cases first with
  | error _ => cases success
  | ok value => exact ⟨value, rfl, success⟩

@[simp] theorem throw_ne_ok {error : ε} {value : α} : (throw error : Except ε α) ≠ .ok value := by
  simp [throw, throwThe, MonadExceptOf.throw]

@[simp] theorem pure_eq_ok {value result : α} :
    (pure value : Except ε α) = .ok result ↔ value = result := by
  simp [pure, Except.pure]

@[simp] theorem ok_bind {value : α} {next : α → Except ε β} :
    (Except.ok value >>= next : Except ε β) = next value := rfl

theorem mapError_ok {δ : Type w} {first : Except ε α} {rename : ε → δ} {result : α}
    (success : first.mapError rename = .ok result) : first = .ok result := by
  cases first with
  | error _ => cases success
  | ok value => exact congrArg Except.ok (Except.ok.inj success)

theorem map_ok {first : Except ε α} {change : α → β} {result : β}
    (success : first.map change = .ok result) : ∃ value, first = .ok value ∧ change value = result := by
  cases first with
  | error _ => cases success
  | ok value => exact ⟨value, rfl, Except.ok.inj success⟩

theorem map_error {first : Except ε α} {change : α → β} {error : ε}
    (failed : first.map change = .error error) : first = .error error := by
  cases first with
  | error _ => exact congrArg Except.error (Except.error.inj failed)
  | ok _ => cases failed

/-- Each input of a loop that succeeded has its output, and each output its input. -/
theorem mapM_ok {read : α → Except ε β} {inputs : List α} {outputs : List β}
    (success : inputs.mapM read = .ok outputs) :
    (∀ input ∈ inputs, ∃ output ∈ outputs, read input = .ok output) ∧
      ∀ output ∈ outputs, ∃ input ∈ inputs, read input = .ok output := by
  induction inputs generalizing outputs with
  | nil =>
    rw [List.mapM_nil, pure_eq_ok] at success
    subst success
    exact ⟨List.forall_mem_nil _, List.forall_mem_nil _⟩
  | cons input inputs ih =>
    rw [List.mapM_cons] at success
    obtain ⟨output, first, success⟩ := bind_ok success
    obtain ⟨others, later, success⟩ := bind_ok success
    rw [pure_eq_ok] at success
    subst success
    obtain ⟨forward, backward⟩ := ih later
    constructor
    · refine List.forall_mem_cons.mpr ⟨⟨output, List.mem_cons_self, first⟩, fun other member => ?_⟩
      obtain ⟨found, present, same⟩ := forward other member
      exact ⟨found, List.mem_cons_of_mem output present, same⟩
    · refine List.forall_mem_cons.mpr ⟨⟨input, List.mem_cons_self, first⟩, fun other member => ?_⟩
      obtain ⟨found, present, same⟩ := backward other member
      exact ⟨found, List.mem_cons_of_mem input present, same⟩

/-- A check that keeps its proof was passed by every success behind it. -/
theorem check_ok {condition : Prop} [Decidable condition] {next : condition → Except ε α} {error : ε}
    {result : α} : (if holds : condition then next holds else .error error) = .ok result ↔
      ∃ holds, next holds = .ok result := by
  by_cases holds : condition <;> simp [holds]

theorem refuse_ok {condition : Prop} [Decidable condition] {next : Except ε α} {error : ε}
    {result : α} : (if condition then .error error else next) = .ok result ↔
      ¬ condition ∧ next = .ok result := by
  by_cases holds : condition <;> simp [holds]

theorem refuse_error {condition : Prop} [Decidable condition] {next : Except ε α} {error refusal : ε} :
    (if condition then .error refusal else next) = .error error ↔
      condition ∧ refusal = error ∨ ¬ condition ∧ next = .error error := by
  by_cases holds : condition <;> simp [holds]

end N2FNest.Lib
