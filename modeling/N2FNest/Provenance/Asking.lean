import N2FNest.Provenance.Factory

/-! When a call of the factory asks for an identifier, and which answers it refuses. -/

namespace N2FNest.Provenance

open Lib Shared

/-- What an operation hands to `#emit`. -/
structure Emission where
  work : DraftWork
  executor : Actor
  attempt : Nat
  previousAttempt : Option ID
  forbidden : List ID

/-- A call that returns by itself, or asks the generator once and goes on with its answer. -/
inductive Asking where
  | done (result : Except Failure Scope)
  | ask (resume : Except Failure JsString → Except Failure Scope)

def Asking.answer (newId : Except Failure JsString) : Asking → Except Failure Scope
  | .done result => result
  | .ask resume => resume newId

namespace Emission

/-- The snapshot `#emit` restores, the defaults filled in. -/
def completed (emission : Emission) (milliseconds : Nat) (scopeId : ID) : ScopeSnapshot where
  work := emission.work.fill scopeId
  scopeId := scopeId
  startedAt := timeClip milliseconds
  executor := emission.executor
  attempt := emission.attempt
  previousAttempt := emission.previousAttempt

/-- The end of `#emit`, from the generator's answer on. -/
def finish (emission : Emission) (milliseconds : Nat) : Except Failure JsString → Except Failure Scope
  | .error error => .error error
  | .ok text => match validID? text with
    | none => .error generatedError
    | some scopeId =>
      if scopeId ∈ emission.forbidden then .error generatedError
      else (restoreScope (emission.completed milliseconds scopeId)).mapError fun _ => generatedError

/-- `#emit` up to the call of `newId`. -/
def asking (now : JsDate) (emission : Emission) : Asking :=
  if !namedActor emission.executor then .done (.error (invalid "invalid_actor"))
  else if emission.attempt < 1 ∨ MAX_UINT32 < emission.attempt then
    .done (.error (invalid "invalid_attempt"))
  else match validateWork emission.work true with
  | some error => .done (.error error)
  | none => match normalizedTime now with
  | none => .done (.error (invalid "invalid_time"))
  | some milliseconds => .ask (emission.finish milliseconds)

def run (effects : Effects) (emission : Emission) : Except Failure Scope :=
  emit effects emission.work emission.executor emission.attempt emission.previousAttempt
    emission.forbidden

/-- Asking and going on with the answer is `#emit`. -/
theorem answer_asking (effects : Effects) (emission : Emission) :
    (emission.asking effects.now).answer effects.newId = emission.run effects := by
  unfold asking run emit
  split
  · rfl
  split
  · rfl
  cases validateWork emission.work true with
  | some error => rfl
  | none =>
    cases normalizedTime effects.now with
    | none => rfl
    | some milliseconds => cases effects.newId <;> rfl

end Emission

/-- A count of attempts; any other number is refused as 0 is. -/
def attemptCount : JsNumber → Nat
  | .finite value => if value.den = 1 then value.num.toNat else 0
  | _ => 0

/-- The operations of the factory. -/
inductive Call where
  | opening (spec : RootSpec)
  | enter (spec : RootSpec) (hints : IncomingHints)
  | child (parent : Scope) (spec : StepSpec)
  | execute (work : WorkContext) (executor : Actor) (attempt : JsNumber)
  | retry (previous : Scope) (executor : Actor)
  | replay (spec : ReplaySpec)

namespace Call

def run (effects : Effects) : Call → Except Failure Scope
  | .opening spec => openScope effects spec
  | .enter spec hints => Provenance.enter effects spec (inspectIncoming hints)
  | .child parent spec => Provenance.child effects parent spec
  | .execute work executor attempt => Provenance.execute effects work ⟨executor, attemptCount attempt⟩
  | .retry previous executor => Provenance.retry effects previous executor
  | .replay spec => Provenance.replay effects spec

/-- What each operation emits, where it gets that far. -/
def emission : Call → Except Failure Emission
  | .opening spec => (rootWork spec).map fun work => ⟨work, spec.executor, 1, none, []⟩
  | .enter spec hints => (rootWork spec).map fun work =>
    let incoming := inspectIncoming hints
    ⟨if incoming.decision = .continued then
        { work with
          correlationId := incoming.correlation
          correlationSource := .external
          causation := incoming.cause
          origin := none
          depth := none }
      else work, spec.executor, 1, none, []⟩
  | .child parent spec => (childWork parent spec.workId spec.operation spec.cause).map fun work =>
    ⟨work, spec.executor, 1, none,
      if spec.workId.isNone then [parent.scopeId, parent.work.snapshot.workId] else [parent.scopeId]⟩
  | .execute work executor attempt =>
    .ok ⟨work.snapshot.draft, executor, attemptCount attempt, none, []⟩
  | .retry previous executor =>
    if previous.attempt = MAX_UINT32 then .error (invalid "attempt_exhausted")
    else .ok ⟨previous.work.snapshot.draft, executor, previous.attempt + 1, some previous.scopeId,
      [previous.scopeId]⟩
  | .replay spec =>
    if spec.source.kind = .work ∧ spec.workId = some spec.source.id then
      .error (invalid "invalid_work")
    else .ok
      ⟨{ workId := spec.workId, correlationId := none, correlationSource := .local, causation := none,
         origin := some .replay, operation := spec.operation, attribution := spec.attribution,
         depth := some 0, replay := some ⟨spec.runId, spec.source⟩ },
       spec.executor, 1, none, if spec.source.kind = .scope then [spec.source.id] else []⟩

def asking (now : JsDate) (call : Call) : Asking :=
  match call.emission with
  | .error error => .done (.error error)
  | .ok emission => emission.asking now

theorem answer_asking (effects : Effects) (call : Call) :
    (call.asking effects.now).answer effects.newId = call.run effects := by
  have emitted : (call.asking effects.now).answer effects.newId =
      call.emission >>= fun emission => emission.run effects := by
    unfold asking
    cases call.emission with
    | error error => rfl
    | ok emission => exact emission.answer_asking effects
  rw [emitted]
  cases call with
  | opening spec =>
    simp only [emission, run, openScope]
    cases rootWork spec <;> rfl
  | enter spec hints =>
    simp only [emission, run, Provenance.enter]
    cases rootWork spec <;> rfl
  | child parent spec =>
    simp only [emission, run, Provenance.child]
    cases childWork parent spec.workId spec.operation spec.cause <;> rfl
  | execute work executor attempt => rfl
  | retry previous executor =>
    simp only [emission, run, Provenance.retry]
    split <;> rfl
  | replay spec =>
    simp only [emission, run, Provenance.replay]
    split <;> rfl

/-- The scopes the new one comes after. -/
def follows : Call → List ID
  | .child parent _ => [parent.scopeId]
  | .retry previous _ => [previous.scopeId]
  | .replay spec => if spec.source.kind = .scope then [spec.source.id] else []
  | _ => []

def parentWork : Call → List ID
  | .child parent _ => [parent.work.snapshot.workId]
  | _ => []

/-- A generated text that is no identifier, or the identifier of something the new scope or
its work must differ from. -/
def Collides (call : Call) (work : DraftWork) (text : JsString) : Prop :=
  text.isCanonicalId = false ∨
  (∃ cause ∈ work.causation, cause.kind = .scope ∧ cause.id.text = text) ∨
  (∃ scopeId ∈ call.follows, scopeId.text = text) ∨
  work.workId = none ∧
    ((∃ workId ∈ call.parentWork, workId.text = text) ∨
      (∃ cause ∈ work.causation, cause.kind = .work ∧ cause.id.text = text) ∨
      ∃ replay ∈ work.replay, replay.source.kind = .work ∧ replay.source.id.text = text)

end Call

/-- A reference to the generated name is refused where the draft left its own name open. -/
private theorem namesWork_fill {work : DraftWork} {reference : Reference}
    (other : reference.namesWork work.workId = false) (scopeId : ID) :
    reference.namesWork (work.fill scopeId).draft.workId = false ↔
      ¬ (work.workId = none ∧ reference.kind = .work ∧ reference.id = scopeId) := by
  cases named : work.workId with
  | none => simp [Reference.namesWork, WorkOf.fill, WorkOf.draft, named]
  | some workId =>
    rw [named] at other
    simpa [WorkOf.fill, WorkOf.draft, named] using other

/-- A filled draft can break no check but those that compare the work's name. -/
theorem validateWork_fill {work : DraftWork} (drafted : validateWork work true = none) (scopeId : ID) :
    validateWork (work.fill scopeId).draft false = none ↔
      ¬ (work.workId = none ∧
        ((∃ cause ∈ work.causation, cause.kind = .work ∧ cause.id = scopeId) ∨
          ∃ replay ∈ work.replay, replay.source.kind = .work ∧ replay.source.id = scopeId)) := by
  obtain ⟨fits, -⟩ := validateWork_eq_none.mp drafted
  have closed : (work.fill scopeId).draft.isClosed = true := by
    simp [DraftWork.isClosed, WorkOf.draft, Option.any_map]
  have replayed : (work.fill scopeId).draft.replay.isSome = work.replay.isSome := by
    simp [WorkOf.fill, WorkOf.draft]
  have deep : depthFits (work.fill scopeId).draft = true := fits.deep
  constructor
  · intro filled
    obtain ⟨filled, -⟩ := validateWork_eq_none.mp filled
    rintro ⟨unnamed, ⟨cause, caused, same⟩ | ⟨replay, replayed, same⟩⟩
    · have clash := filled.caused
      have earlier := fits.caused
      rw [Option.mem_def.mp caused, Option.any_some] at earlier
      have here : (work.fill scopeId).draft.causation = some cause := caused
      rw [here, Option.any_some, namesWork_fill earlier scopeId] at clash
      exact clash ⟨unnamed, same⟩
    · have clash := filled.sourced
      have earlier := fits.sourced
      rw [Option.mem_def.mp replayed, Option.any_some] at earlier
      simp only [WorkOf.fill, WorkOf.draft, Option.mem_def.mp replayed, Option.map_some,
        Option.any_some] at clash
      exact (namesWork_fill earlier scopeId).mp clash ⟨unnamed, same⟩
  · intro apart
    refine validateWork_eq_none.mpr ⟨⟨?_, ?_, deep, ?_⟩, .inr closed⟩
    · rw [replayed]
      exact fits.replayed
    · have earlier := fits.caused
      cases caused : work.causation with
      | none => simp [WorkOf.fill, WorkOf.draft, caused]
      | some cause =>
        rw [caused, Option.any_some] at earlier
        have here : (work.fill scopeId).draft.causation = some cause := caused
        rw [here, Option.any_some, namesWork_fill earlier scopeId]
        rintro ⟨unnamed, same⟩
        exact apart ⟨unnamed, .inl ⟨cause, caused, same⟩⟩
    · have earlier := fits.sourced
      cases replayed : work.replay with
      | none => simp [WorkOf.fill, WorkOf.draft, replayed]
      | some replay =>
        rw [replayed, Option.any_some] at earlier
        have other : replay.source.namesWork (work.fill scopeId).draft.workId = false := by
          rw [namesWork_fill earlier scopeId]
          rintro ⟨unnamed, same⟩
          exact apart ⟨unnamed, .inr ⟨replay, replayed, same⟩⟩
        simpa [WorkOf.fill, WorkOf.draft, replayed] using other

theorem validID?_eq_some {text : JsString} {id : ID} : validID? text = some id ↔ id.text = text := by
  unfold validID?
  constructor
  · intro recognised
    split at recognised
    · rw [← Option.some.inj recognised]
    · cases recognised
  · rintro rfl
    exact dif_pos id.canonical

private theorem validID?_eq_none {text : JsString} : validID? text = none ↔ text.isCanonicalId = false := by
  unfold validID?
  split
  · rename_i canonical
    simp [canonical]
  · rename_i other
    simp [Bool.eq_false_iff.mpr other]

theorem validateWork_invalid {work : DraftWork} {defaults : Bool} {error : Failure}
    (refused : validateWork work defaults = some error) : ∃ code, error = invalid code := by
  unfold validateWork at refused
  split_ifs at refused <;> exact ⟨_, (Option.some.inj refused).symm⟩

namespace Emission

/-- What is checked before the generator is asked. -/
structure Fits (emission : Emission) (now : JsDate) : Prop where
  drafted : validateWork emission.work true = none
  named : namedActor emission.executor = true
  counted : 1 ≤ emission.attempt ∧ emission.attempt ≤ MAX_UINT32
  timed : (normalizedTime now).isSome = true

/-- An earlier attempt is forbidden as an identifier, and comes before this one. -/
def Follows (emission : Emission) : Prop :=
  ∀ previous, emission.previousAttempt = some previous →
    previous ∈ emission.forbidden ∧ emission.attempt ≠ 1

/-- The answers an emission refuses. -/
def Refuses (emission : Emission) (text : JsString) : Prop :=
  text.isCanonicalId = false ∨
  (∃ id ∈ emission.forbidden, id.text = text) ∨
  (∃ cause ∈ emission.work.causation, cause.kind = .scope ∧ cause.id.text = text) ∨
  emission.work.workId = none ∧
    ((∃ cause ∈ emission.work.causation, cause.kind = .work ∧ cause.id.text = text) ∨
      ∃ replay ∈ emission.work.replay, replay.source.kind = .work ∧ replay.source.id.text = text)

theorem asking_ask {emission : Emission} {now : JsDate} {resume : Except Failure JsString → Except Failure Scope}
    (asks : emission.asking now = .ask resume) : emission.Fits now ∧
      ∃ milliseconds, milliseconds ≤ MAX_TIME ∧ resume = emission.finish milliseconds := by
  unfold asking at asks
  split at asks
  · cases asks
  rename_i named
  split at asks
  · cases asks
  rename_i counted
  split at asks
  · cases asks
  rename_i drafted
  split at asks
  · cases asks
  rename_i milliseconds timed
  refine ⟨⟨drafted, by simpa using named, by omega, by rw [timed]; rfl⟩, milliseconds, ?_, ?_⟩
  · exact (normalizedTime_eq_some.mp timed).1
  · exact (Asking.ask.inj asks).symm

theorem asking_done {emission : Emission} {now : JsDate} {result : Except Failure Scope}
    (returned : emission.asking now = .done result) : ∃ code, result = .error (invalid code) := by
  unfold asking at returned
  split at returned
  · exact ⟨_, (Asking.done.inj returned).symm⟩
  split at returned
  · exact ⟨_, (Asking.done.inj returned).symm⟩
  split at returned
  · rename_i error refused
    obtain ⟨code, rfl⟩ := validateWork_invalid refused
    exact ⟨code, (Asking.done.inj returned).symm⟩
  split at returned
  · exact ⟨_, (Asking.done.inj returned).symm⟩
  · cases returned

private theorem validateScope_emitted {emission : Emission} {now : JsDate} {scopeId : ID}
    (fits : emission.Fits now) (follows : emission.Follows) (allowed : scopeId ∉ emission.forbidden) :
    validateScope (emission.work.fill scopeId) scopeId emission.executor emission.attempt
        emission.previousAttempt = none ↔
      ¬ ∃ cause ∈ emission.work.causation, cause.kind = .scope ∧ cause.id = scopeId := by
  have counted : ¬ (emission.attempt < 1 ∨ MAX_UINT32 < emission.attempt) := by
    have := fits.counted
    omega
  have earlier : (emission.previousAttempt.any fun previous =>
      previous = scopeId || emission.attempt = 1) = false := by
    cases before : emission.previousAttempt with
    | none => rfl
    | some previous =>
      obtain ⟨forbidden, later⟩ := follows previous before
      have other : previous ≠ scopeId := fun same => allowed (same ▸ forbidden)
      simp [other, later]
  have causation : (emission.work.fill scopeId).causation = emission.work.causation := rfl
  simp only [validateScope, fits.named, Bool.not_true, counted, earlier, causation]
  cases emission.work.causation with
  | none => simp
  | some cause => simp

private theorem restoreScope_completed (emission : Emission) {milliseconds : Nat} (scopeId : ID)
    (timed : milliseconds ≤ MAX_TIME) :
    (∃ scope, restoreScope (emission.completed milliseconds scopeId) = .ok scope) ↔
      validateWork (emission.work.fill scopeId).draft false = none ∧
        validateScope (emission.work.fill scopeId) scopeId emission.executor emission.attempt
          emission.previousAttempt = none := by
  constructor
  · rintro ⟨scope, restored⟩
    have same := restoreScope_eq_ok.mp restored
    obtain ⟨work, named, -, executor, attempt, previous⟩ := ScopeSnapshot.mk.inj same
    have valid := scope.valid
    rw [work, named, executor, attempt, previous] at valid
    exact ⟨work ▸ scope.work.valid, valid⟩
  · rintro ⟨worked, valid⟩
    refine ⟨⟨⟨emission.work.fill scopeId, worked⟩, scopeId, milliseconds, emission.executor,
      emission.attempt, emission.previousAttempt, valid, timed⟩, restoreScope_eq_ok.mpr rfl⟩

/-- The answer decides: it is refused, or the scope gets it as its identifier. -/
theorem finish_ok {emission : Emission} {now : JsDate} {milliseconds : Nat} (fits : emission.Fits now)
    (follows : emission.Follows) (timed : milliseconds ≤ MAX_TIME) (text : JsString) :
    (emission.Refuses text ∧ emission.finish milliseconds (.ok text) = .error generatedError) ∨
      (¬ emission.Refuses text ∧
        ∃ scope, emission.finish milliseconds (.ok text) = .ok scope ∧ scope.scopeId.text = text) := by
  cases recognised : validID? text with
  | none =>
    left
    refine ⟨.inl (validID?_eq_none.mp recognised), ?_⟩
    simp only [finish, recognised]
  | some scopeId =>
    have named := validID?_eq_some.mp recognised
    subst named
    have canonical : scopeId.text.isCanonicalId = true := scopeId.canonical
    have same : ∀ id : ID, id.text = scopeId.text ↔ id = scopeId := fun id =>
      ⟨fun equal => by cases id; cases scopeId; cases equal; rfl, fun equal => equal ▸ rfl⟩
    simp only [Refuses, canonical, same, finish, recognised]
    by_cases forbidden : scopeId ∈ emission.forbidden
    · left
      exact ⟨.inr (.inl ⟨scopeId, forbidden, rfl⟩), if_pos forbidden⟩
    · rw [if_neg forbidden]
      have restored := restoreScope_completed emission scopeId timed
      rw [validateWork_fill fits.drafted, validateScope_emitted fits follows forbidden] at restored
      have unlisted : ¬ ∃ id ∈ emission.forbidden, id = scopeId := by
        rintro ⟨id, listed, same⟩
        exact forbidden (same ▸ listed)
      cases outcome : restoreScope (emission.completed milliseconds scopeId) with
      | error error =>
        left
        refine ⟨?_, rfl⟩
        by_contra clear
        simp only [not_or] at clear
        have succeeded := restored.mpr ⟨clear.2.2.2, clear.2.2.1⟩
        rw [outcome] at succeeded
        obtain ⟨scope, impossible⟩ := succeeded
        cases impossible
      | ok scope =>
        right
        obtain ⟨worked, apart⟩ := restored.mp ⟨scope, outcome⟩
        refine ⟨?_, scope, rfl, ?_⟩
        · simp only [not_or]
          exact ⟨Bool.noConfusion, unlisted, apart, worked⟩
        · have snapshot := restoreScope_eq_ok.mp outcome
          have named : scope.scopeId = scopeId := congrArg ScopeSnapshot.scopeId snapshot
          rw [named]

end Emission

namespace Call

/-- What an emission forbids is what its call comes after. -/
private theorem emission_forbids {call : Call} {emission : Emission} (emits : call.emission = .ok emission) :
    ∀ id, id ∈ emission.forbidden ↔
      id ∈ call.follows ∨ emission.work.workId = none ∧ id ∈ call.parentWork := by
  intro id
  cases call with
  | opening spec =>
    obtain ⟨work, -, rfl⟩ := map_ok emits
    simp [follows, parentWork]
  | enter spec hints =>
    obtain ⟨work, -, rfl⟩ := map_ok emits
    simp [follows, parentWork]
  | child parent spec =>
    obtain ⟨work, derived, rfl⟩ := map_ok emits
    rw [childWork_ok derived]
    cases named : spec.workId <;> simp [follows, parentWork, childDraft]
  | execute work executor attempt =>
    cases emits
    simp [follows, parentWork]
  | retry previous executor =>
    obtain ⟨-, emits⟩ := refuse_ok.mp emits
    cases emits
    simp [follows, parentWork]
  | replay spec =>
    obtain ⟨-, emits⟩ := refuse_ok.mp emits
    cases emits
    simp [follows, parentWork]

/-- Only a retry has an earlier attempt, whose count is at least 1. -/
private theorem emission_follows {call : Call} {emission : Emission} (emits : call.emission = .ok emission) :
    emission.Follows := by
  intro before present
  cases call with
  | opening spec =>
    obtain ⟨work, -, rfl⟩ := map_ok emits
    cases present
  | enter spec hints =>
    obtain ⟨work, -, rfl⟩ := map_ok emits
    cases present
  | child parent spec =>
    obtain ⟨work, -, rfl⟩ := map_ok emits
    cases present
  | execute work executor attempt =>
    cases emits
    cases present
  | retry previous executor =>
    obtain ⟨-, emits⟩ := refuse_ok.mp emits
    cases emits
    cases present
    refine ⟨List.mem_singleton.mpr rfl, ?_⟩
    have counted := previous.attempt_pos
    simp only
    omega
  | replay spec =>
    obtain ⟨-, emits⟩ := refuse_ok.mp emits
    cases emits
    cases present

private theorem refuses_iff {call : Call} {emission : Emission} (emits : call.emission = .ok emission)
    (text : JsString) : emission.Refuses text ↔ call.Collides emission.work text := by
  have listed : (∃ id ∈ emission.forbidden, id.text = text) ↔
      (∃ scopeId ∈ call.follows, scopeId.text = text) ∨
        emission.work.workId = none ∧ ∃ workId ∈ call.parentWork, workId.text = text := by
    simp only [emission_forbids emits, or_and_right, exists_or, and_assoc, exists_and_left]
  unfold Emission.Refuses Collides
  rw [listed]
  simp only [and_or_left, or_assoc, or_left_comm]

private theorem emission_invalid {call : Call} {error : Failure} (stopped : call.emission = .error error) :
    ∃ code, error = invalid code := by
  have rooted : ∀ spec, rootWork spec = .error error → ∃ code, error = invalid code := by
    intro spec refused
    rcases refuse_error.mp refused with ⟨-, rfl⟩ | ⟨-, impossible⟩
    · exact ⟨_, rfl⟩
    · cases impossible
  cases call with
  | opening spec => exact rooted spec (map_error stopped)
  | enter spec hints => exact rooted spec (map_error stopped)
  | child parent spec =>
    rcases refuse_error.mp (map_error stopped) with ⟨-, rfl⟩ | ⟨-, derived⟩
    · exact ⟨_, rfl⟩
    rcases refuse_error.mp derived with ⟨-, rfl⟩ | ⟨-, checked⟩
    · exact ⟨_, rfl⟩
    split at checked
    · rename_i refusal refused
      rw [← Except.error.inj checked]
      exact validateWork_invalid refused
    · cases checked
  | execute work executor attempt => cases stopped
  | retry previous executor =>
    rcases refuse_error.mp stopped with ⟨-, rfl⟩ | ⟨-, impossible⟩
    · exact ⟨_, rfl⟩
    · cases impossible
  | replay spec =>
    rcases refuse_error.mp stopped with ⟨-, rfl⟩ | ⟨-, impossible⟩
    · exact ⟨_, rfl⟩
    · cases impossible

/-- A call asks for an identifier only once its work, its executor, its attempt and the time
have passed, and reports a generated identifier exactly where the answer is none or collides
with one the new scope has to differ from; any other answer becomes the scope's. -/
theorem generated_id_fault (call : Call) (now : JsDate) :
    (∀ newId, call.run ⟨now, newId⟩ = (call.asking now).answer newId) ∧
    (∀ result, call.asking now = .done result → ∃ code, result = .error (invalid code)) ∧
    (∀ resume, call.asking now = .ask resume →
      ∃ emission, call.emission = .ok emission ∧ emission.Fits now ∧
        (∀ error, resume (.error error) = .error error) ∧
        ∀ text, (resume (.ok text) = .error generatedError ↔ call.Collides emission.work text) ∧
          (¬ call.Collides emission.work text →
            ∃ scope, resume (.ok text) = .ok scope ∧ scope.scopeId.text = text)) := by
  refine ⟨fun newId => (call.answer_asking ⟨now, newId⟩).symm, ?_, ?_⟩
  · intro result returned
    unfold asking at returned
    split at returned
    · rename_i error stopped
      rw [← Asking.done.inj returned]
      obtain ⟨code, rfl⟩ := emission_invalid stopped
      exact ⟨code, rfl⟩
    · exact Emission.asking_done returned
  · intro resume asks
    unfold asking at asks
    split at asks
    · cases asks
    rename_i emission emits
    obtain ⟨fits, milliseconds, timed, rfl⟩ := Emission.asking_ask asks
    refine ⟨emission, emits, fits, fun error => rfl, fun text => ?_⟩
    rw [← refuses_iff emits text]
    rcases Emission.finish_ok fits (emission_follows emits) timed text with
      ⟨refused, fault⟩ | ⟨clear, scope, succeeded, named⟩
    · exact ⟨⟨fun _ => refused, fun _ => fault⟩, fun clear => absurd refused clear⟩
    · refine ⟨⟨fun fault => ?_, fun refused => absurd refused clear⟩, fun _ => ⟨scope, succeeded, named⟩⟩
      rw [succeeded] at fault
      cases fault

private def clerk : Actor := ⟨.service, some (js "clerk"), rfl⟩

private def nightly : RootSpec where
  workId := none
  origin := .schedule
  operation := ⟨js "documents.sweep", rfl⟩
  attribution := ⟨some clerk, none, none, rfl⟩
  executor := clerk

theorem nightly_asks : ∃ resume, (Call.opening nightly).asking (some 0) = .ask resume ∧
    resume (.ok (js "nightly")) = .error generatedError ∧
    ∃ scope, (Call.opening nightly).run ⟨some 0, .ok (ID.numbered 3).text⟩ = .ok scope ∧
      scope.scopeId.text = (ID.numbered 3).text := by
  obtain ⟨runs, -, asked⟩ := generated_id_fault (.opening nightly) (some 0)
  obtain ⟨emission, emits, fits, -, answers⟩ := asked _ rfl
  have emitted := Except.ok.inj emits
  have clear : ¬ (Call.opening nightly).Collides emission.work (ID.numbered 3).text := by
    have canonical := (ID.numbered 3).canonical
    rw [← emitted]
    simp [Collides, canonical, follows, parentWork]
  refine ⟨_, rfl, (answers (js "nightly")).1.mpr (.inl rfl), ?_⟩
  rw [runs]
  exact (answers _).2 clear

end Call

end N2FNest.Provenance
