import N2FNest.Lib.Script

/-! Programs side by side over one world, each proved alone. A program is proved for
every move the others may make between two of its operations; where every operation
keeps to such moves, what was proved holds of each call in any run of all of them. -/

namespace N2FNest.Lib

variable {World Client Request Input Event Op : Type} {Answer : Op → Type} {Value : Type}

/-- What holds of the world throughout, the operations that programs keep to, what the
outside has to offer for them, and what they and events may do to the world. -/
structure Service.Conduct (service : Service World Client Request Input Event Op Answer Value) where
  Inv : World → Prop
  rely : World → World → Prop
  permits : Op → Prop
  admits : World → Op → Input → Prop
  admitsEvent : World → Event → Prop
  refl : ∀ world, rely world world
  trans : ∀ {first second third}, rely first second → rely second third → rely first third
  keeps : ∀ {world op input}, Inv world → permits op → admits world op input →
    Inv (service.perform world op input).2 ∧ rely world (service.perform world op input).2
  keepsEvent : ∀ {world event}, Inv world → admitsEvent world event →
    Inv (service.event world event) ∧ rely world (service.event world event)

variable {service : Service World Client Request Input Event Op Answer Value}

/-- From a world on, and after the operations so far, a program keeps to what is permitted
and comes to an end as it should, whatever the others do meanwhile. -/
def Script.Leads (conduct : service.Conduct) {Given : Type} (ends : World → Given → List Op → Prop) :
    Script Op Answer Given → World → List Op → Prop
  | .done value, world, taken => ends world value taken
  | .await op next, world, taken => conduct.permits op ∧ ∀ later input, conduct.Inv later →
      conduct.rely world later → conduct.admits later op input →
      (next (service.perform later op input).1).Leads conduct ends
        (service.perform later op input).2 (taken ++ [op])

namespace Script.Leads

variable {conduct : service.Conduct} {Given Other : Type} {ends : World → Given → List Op → Prop}
  {script : Script Op Answer Given} {world : World} {taken : List Op}

/-- Moves of the others add up, where they do not undo an end. -/
theorem later {after : World} (stable : ∀ world after value taken, conduct.rely world after →
      ends world value taken → ends after value taken)
    (leads : script.Leads conduct ends world taken) (moved : conduct.rely world after) :
    script.Leads conduct ends after taken := by
  cases script with
  | done value => exact stable world after value taken moved leads
  | await op next =>
    obtain ⟨permitted, goes⟩ := leads
    refine ⟨permitted, ?_⟩
    intro last input sound onward admitted
    exact goes last input sound (conduct.trans moved onward) admitted

/-- A program that goes on as another once it has its value. -/
theorem bind {last : World → Other → List Op → Prop} {next : Given → Script Op Answer Other}
    (leads : script.Leads conduct ends world taken)
    (onward : ∀ world value taken, ends world value taken →
      (next value).Leads conduct last world taken) :
    (script.bind next).Leads conduct last world taken := by
  induction script generalizing world taken with
  | done value => exact onward world value taken leads
  | await op rest ih =>
    obtain ⟨permitted, goes⟩ := leads
    refine ⟨permitted, ?_⟩
    intro later input sound moved admitted
    exact ih _ (goes later input sound moved admitted)

theorem weaken {weaker : World → Given → List Op → Prop}
    (leads : script.Leads conduct ends world taken)
    (implies : ∀ world value taken, ends world value taken → weaker world value taken) :
    script.Leads conduct weaker world taken := by
  induction script generalizing world taken with
  | done value => exact implies world value taken leads
  | await op rest ih =>
    obtain ⟨permitted, goes⟩ := leads
    refine ⟨permitted, ?_⟩
    intro later input sound moved admitted
    exact ih _ (goes later input sound moved admitted)

end Script.Leads

/-- A program kept to some operations ends as any of them leaves what was taken so far. -/
theorem Script.Confined.leads {conduct : service.Conduct} {Given : Type} {kept : List Op → Prop}
    {permitted : Op → Prop} {script : Script Op Answer Given}
    (confined : script.Confined permitted fun _ => Eq) (permits : ∀ op, permitted op → conduct.permits op)
    (keeps : ∀ op taken, permitted op → kept taken → kept (taken ++ [op])) {world : World}
    {taken : List Op} (begins : kept taken) :
    script.Leads conduct (fun _ _ taken => kept taken) world taken := by
  induction script generalizing world taken with
  | done value => exact begins
  | await op rest ih =>
    obtain ⟨allowed, goes⟩ := confined
    refine ⟨permits op allowed, ?_⟩
    intro later input _ _ _
    exact ih _ (goes _ _ rfl).2 (keeps op taken allowed begins)

variable [DecidableEq Client]

/-- The operations of a call so far. -/
def Service.taken (service : Service World Client Request Input Event Op Answer Value)
    (pool : Pool World Client Op Answer Value) (client : Client) :
    List (PoolLabel Client Request Input Event) → List Op
  | [] => []
  | label :: rest =>
    (match service.performed pool label with
      | some (caller, ⟨op, _⟩) => if caller = client then [op] else []
      | none => []) ++ service.taken (service.step pool label) client rest

private theorem taken_concat (pool : Pool World Client Op Answer Value) (client : Client)
    (labels : List (PoolLabel Client Request Input Event))
    (label : PoolLabel Client Request Input Event) :
    service.taken pool client (labels ++ [label]) = service.taken pool client labels ++
      match service.performed (run service.step pool labels) label with
      | some (caller, ⟨op, _⟩) => if caller = client then [op] else []
      | none => [] := by
  induction labels generalizing pool with
  | nil =>
    rw [List.nil_append, Service.taken, Service.taken, Service.taken, List.append_nil, run_nil,
      List.nil_append]
  | cons first rest ih =>
    rw [List.cons_append, Service.taken, ih, Service.taken, run_cons, List.append_assoc]

private theorem idle_before {pool : Pool World Client Op Answer Value}
    {label : PoolLabel Client Request Input Event} {client : Client}
    (idle : (service.step pool label).calls client = none) : pool.calls client = none := by
  cases label with
  | event event => exact idle
  | call caller request =>
    simp only [Service.step] at idle
    split at idle
    · by_cases same : client = caller
      · subst same
        simp at idle
      · simpa [Function.update_of_ne same] using idle
    · exact idle
  | turn caller input =>
    simp only [Service.step] at idle
    split at idle
    · by_cases same : client = caller
      · subst same
        simp at idle
      · simpa [Function.update_of_ne same] using idle
    · exact idle

private theorem turn_idle {pool : Pool World Client Op Answer Value} {client : Client} {input : Input}
    (nothing : service.performed pool (.turn client input) = none) :
    service.step pool (.turn client input) = pool := by
  simp only [Service.performed] at nothing
  simp only [Service.step]
  split at nothing
  · cases nothing
  · rfl

/-- A call that has not been made has taken no operation. -/
private theorem taken_of_idle {start : Pool World Client Op Answer Value} {client : Client}
    (labels : List (PoolLabel Client Request Input Event))
    (idle : (run service.step start labels).calls client = none) :
    service.taken start client labels = [] := by
  induction labels using List.reverseRecOn with
  | nil => rfl
  | append_singleton labels label ih =>
    rw [run_append] at idle
    have before : (run service.step start labels).calls client = none := idle_before idle
    rw [taken_concat, ih before, List.nil_append]
    cases performed : service.performed (run service.step start labels) label with
    | none => rfl
    | some step =>
      obtain ⟨caller, op, answer⟩ := step
      obtain ⟨input, next, -, waiting, -⟩ := Service.performed_inv performed
      have other : caller ≠ client := by
        rintro rfl
        rw [before] at waiting
        cases waiting
      exact if_neg other

namespace Service.Conduct

variable (conduct : service.Conduct)

def Admitted (pool : Pool World Client Op Answer Value) :
    PoolLabel Client Request Input Event → Prop
  | .call _ _ => True
  | .turn client input => ∀ op next, pool.calls client = some (.await op next) →
      conduct.admits pool.world op input
  | .event event => conduct.admitsEvent pool.world event

variable (ends : Client → Request → World → Value → List Op → Prop)

/-- What is known of every call after the steps so far. -/
structure Known (start : Pool World Client Op Answer Value)
    (labels : List (PoolLabel Client Request Input Event)) (pool : Pool World Client Op Answer Value) :
    Prop where
  reached : pool = run service.step start labels
  sound : conduct.Inv pool.world
  calls : ∀ client script, pool.calls client = some script → ∃ request,
    asked labels client = some request ∧
      script.Leads conduct (ends client request) pool.world (service.taken start client labels)

variable {conduct ends} {start pool : Pool World Client Op Answer Value}
  {labels : List (PoolLabel Client Request Input Event)}
  (programs : ∀ client request world, conduct.Inv world →
    (service.program client request).Leads conduct (ends client request) world [])
  (stable : ∀ client request world after value taken, conduct.rely world after →
    ends client request world value taken → ends client request after value taken)
include programs stable

theorem Known.step (known : conduct.Known ends start labels pool)
    {label : PoolLabel Client Request Input Event}
    (admitted : conduct.Admitted pool label) :
    conduct.Known ends start (labels ++ [label]) (service.step pool label) := by
  have reached : service.step pool label = run service.step start (labels ++ [label]) := by
    rw [run_append, known.reached]
    rfl
  -- a call that the step leaves alone goes on from the world that the step left
  have others : ∀ client script, pool.calls client = some script →
      conduct.rely pool.world (service.step pool label).world →
      (match service.performed pool label with
        | some (caller, ⟨op, _⟩) => if caller = client then [op] else []
        | none => []) = [] →
      ∃ request, asked (labels ++ [label]) client = some request ∧
        script.Leads conduct (ends client request) (service.step pool label).world
          (service.taken start client (labels ++ [label])) := by
    intro client script running moved nothing
    obtain ⟨request, called, leads⟩ := known.calls client script running
    refine ⟨request, asked_concat_some called label, ?_⟩
    rw [taken_concat, ← known.reached, nothing, List.append_nil]
    exact leads.later (stable client request) moved
  cases label with
  | event event =>
    obtain ⟨sound, moved⟩ := conduct.keepsEvent known.sound admitted
    exact ⟨reached, sound, fun client script running => others client script running moved rfl⟩
  | call caller request =>
    have world : (service.step pool (.call caller request)).world = pool.world := by
      simp only [Service.step]
      split <;> rfl
    have still : conduct.rely pool.world (service.step pool (.call caller request)).world := by
      rw [world]
      exact conduct.refl pool.world
    refine ⟨reached, by rw [world]; exact known.sound, ?_⟩
    intro client script running
    by_cases same : client = caller
    · subst same
      cases before : pool.calls client with
      | some held =>
        have kept : service.step pool (.call client request) = pool := by
          simp only [Service.step, before]
        rw [kept] at running
        exact others client script running still rfl
      | none =>
        have opened : script = service.program client request := by
          simp only [Service.step, before] at running
          rw [Function.update_self] at running
          exact (Option.some.inj running).symm
        have idle : (run service.step start labels).calls client = none := known.reached ▸ before
        have unknown := asked_of_idle labels idle
        refine ⟨request, ?_, ?_⟩
        · unfold asked at *
          rw [List.findSome?_append, unknown]
          simp
        · rw [taken_concat, taken_of_idle labels idle, opened, world]
          exact programs client request pool.world known.sound
    · have kept : (service.step pool (.call caller request)).calls client = pool.calls client := by
        simp only [Service.step]
        split
        · exact Function.update_of_ne same _ _
        · rfl
      exact others client script (kept ▸ running) still rfl
  | turn caller input =>
    cases performed : service.performed pool (.turn caller input) with
    | none =>
      have kept := turn_idle performed
      refine ⟨reached, by rw [kept]; exact known.sound, ?_⟩
      intro client script running
      refine others client script (kept ▸ running) (by rw [kept]; exact conduct.refl _) ?_
      rw [performed]
    | some done =>
      obtain ⟨turning, op, answer⟩ := done
      obtain ⟨given, next, same, before, answered⟩ := Service.performed_inv performed
      cases same
      obtain ⟨request, called, permitted, goes⟩ := known.calls caller _ before
      obtain ⟨sound, moved⟩ := conduct.keeps known.sound permitted (admitted op next before)
      have after : service.step pool (.turn caller input) =
          ⟨(service.perform pool.world op input).2, Function.update pool.calls caller
            (some (next (service.perform pool.world op input).1))⟩ := by
        simp only [Service.step, before]
      refine ⟨reached, by rw [after]; exact sound, ?_⟩
      intro client script running
      by_cases same : client = caller
      · subst same
        rw [after] at running
        have opened := running.symm.trans (Function.update_self _ _ _)
        cases Option.some.inj opened
        refine ⟨request, asked_concat_some called _, ?_⟩
        rw [taken_concat, ← known.reached, performed, after]
        simp only [if_true]
        exact goes pool.world input known.sound (conduct.refl _) (admitted op next before)
      · have kept : (service.step pool (.turn caller input)).calls client = pool.calls client := by
          rw [after]
          exact Function.update_of_ne same _ _
        refine others client script (kept ▸ running) (by rw [after]; exact moved) ?_
        rw [performed]
        exact if_neg (Ne.symm same)

end Service.Conduct

end N2FNest.Lib
