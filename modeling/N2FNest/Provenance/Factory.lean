import N2FNest.Provenance.Work

/-! Scopes of execution, what an incoming request may continue, and the factory
that opens scopes and derives them from one another. -/

namespace N2FNest.Provenance

open Lib Shared

def MAX_TIME : Nat := 281474976710655

/-- The milliseconds of a date a scope may start at. -/
def normalizedTime : JsDate → Option Nat
  | some time => if 0 ≤ time ∧ time ≤ MAX_TIME then some time.toNat else none
  | none => none

theorem normalizedTime_eq_some {time : JsDate} {milliseconds : Nat} :
    normalizedTime time = some milliseconds ↔
      milliseconds ≤ MAX_TIME ∧ time = some (milliseconds : Int) := by
  cases time with
  | none => simp [normalizedTime]
  | some time =>
    simp only [normalizedTime, Option.ite_none_right_eq_some, Option.some.injEq]
    omega

structure ScopeSnapshot where
  work : WorkSnapshot
  scopeId : ID
  startedAt : JsDate
  executor : Actor
  attempt : Nat
  previousAttempt : Option ID
  deriving DecidableEq

/-- The checks of a scope between those of its work and of its time. -/
def validateScope (work : WorkSnapshot) (scopeId : ID) (executor : Actor) (attempt : Nat)
    (previousAttempt : Option ID) : Option Failure :=
  if !namedActor executor then some (invalid "invalid_actor")
  else if attempt < 1 ∨ MAX_UINT32 < attempt then some (invalid "invalid_attempt")
  else if previousAttempt.any fun previous => previous = scopeId || attempt = 1 then
    some (invalid "invalid_scope")
  else if work.causation.any fun cause => cause.kind = .scope && cause.id = scopeId then
    some (invalid "invalid_scope")
  else none

/-- A validated scope. -/
structure Scope where
  work : WorkContext
  scopeId : ID
  started : Nat
  executor : Actor
  attempt : Nat
  previousAttempt : Option ID
  valid : validateScope work.snapshot scopeId executor attempt previousAttempt = none
  timed : started ≤ MAX_TIME
  deriving DecidableEq

theorem Scope.attempt_pos (scope : Scope) : 1 ≤ scope.attempt := by
  have valid := scope.valid
  unfold validateScope at valid
  split_ifs at valid
  omega

def Scope.snapshot (scope : Scope) : ScopeSnapshot where
  work := scope.work.snapshot
  scopeId := scope.scopeId
  startedAt := timeClip scope.started
  executor := scope.executor
  attempt := scope.attempt
  previousAttempt := scope.previousAttempt

def restoreScope (snapshot : ScopeSnapshot) : Except Failure Scope :=
  match restored : restoreWork snapshot.work with
  | .error error => .error error
  | .ok work =>
    match valid : validateScope snapshot.work snapshot.scopeId snapshot.executor snapshot.attempt
        snapshot.previousAttempt with
    | some error => .error error
    | none =>
      match timed : normalizedTime snapshot.startedAt with
      | none => .error (invalid "invalid_time")
      | some started => .ok
        { work, scopeId := snapshot.scopeId, started, executor := snapshot.executor,
          attempt := snapshot.attempt, previousAttempt := snapshot.previousAttempt,
          valid := restoreWork_eq_ok.mp restored ▸ valid,
          timed := (normalizedTime_eq_some.mp timed).1 }

theorem timeClip_started (scope : Scope) : timeClip scope.started = some (scope.started : Int) := by
  have bound := scope.timed
  unfold MAX_TIME at bound
  exact if_pos (by omega)

/-- Restoring a snapshot gives it back, and whatever is restored is the snapshot. -/
theorem restoreScope_eq_ok {snapshot : ScopeSnapshot} {scope : Scope} :
    restoreScope snapshot = .ok scope ↔ scope.snapshot = snapshot := by
  constructor
  · intro succeeded
    unfold restoreScope at succeeded
    split at succeeded
    · cases succeeded
    · rename_i work restored
      split at succeeded
      · cases succeeded
      · split at succeeded
        · cases succeeded
        · rename_i started timed
          cases succeeded
          obtain ⟨bound, same⟩ := normalizedTime_eq_some.mp timed
          have clipped : timeClip started = snapshot.startedAt := by
            rw [same]
            unfold MAX_TIME at bound
            exact if_pos (by omega)
          rw [Scope.snapshot, clipped, restoreWork_eq_ok.mp restored]
  · rintro rfl
    unfold restoreScope
    split
    · rename_i error refused
      exact absurd ((restoreWork_snapshot scope.work).symm.trans refused) (by simp)
    · rename_i work restored
      cases Except.ok.inj ((restoreWork_snapshot scope.work).symm.trans restored)
      split
      · rename_i error refused
        exact absurd (scope.valid.symm.trans refused) (by simp)
      · split
        · rename_i refused
          have accepted := normalizedTime_eq_some.mpr ⟨scope.timed, timeClip_started scope⟩
          exact absurd (accepted.symm.trans refused) (by simp)
        · rename_i started timed
          have accepted := normalizedTime_eq_some.mpr ⟨scope.timed, timeClip_started scope⟩
          cases Option.some.inj (accepted.symm.trans timed)
          rfl

structure IncomingHints where
  correlation : Option JsString
  causation : Option (JsString × JsString)

inductive Disposition where
  | fresh | continued | restarted
  deriving DecidableEq

inductive IssueField where
  | correlation | causation
  deriving DecidableEq

inductive IssueReason where
  | invalidId | invalidKind | missingCorrelation
  deriving DecidableEq

structure Issue where
  field : IssueField
  reason : IssueReason
  deriving DecidableEq

structure IncomingResult where
  decision : Disposition
  correlation : Option ID
  cause : Option Reference
  issues : List Issue

/-- The cause a hint names, or what is wrong with it. -/
def inspectCausation (correlation : Option ID) (kind id : JsString) : Except IssueReason Reference :=
  match ReferenceKind.ofText? kind with
  | none => .error .invalidKind
  | some kind => match parse (.string id) with
    | .error _ => .error .invalidId
    | .ok id => if correlation.isNone then .error .missingCorrelation else .ok ⟨kind, id⟩

def inspectIncoming (hints : IncomingHints) : IncomingResult :=
  if hints.correlation.isNone && hints.causation.isNone then ⟨.fresh, none, none, []⟩
  else
    let correlation := hints.correlation.bind fun text => (parse (.string text)).toOption
    let unread := if hints.correlation.isSome && correlation.isNone then
      [⟨.correlation, .invalidId⟩] else []
    let decision := if correlation.isSome then .continued else .restarted
    match hints.causation with
    | none => ⟨decision, correlation, none, unread⟩
    | some (kind, id) => match inspectCausation correlation kind id with
      | .ok cause => ⟨decision, correlation, some cause, unread⟩
      | .error reason => ⟨decision, correlation, none, unread ++ [⟨.causation, reason⟩]⟩

/-- Exactly what is continued has a correlation, and nothing else a cause. -/
theorem inspectIncoming_continued (hints : IncomingHints) :
    let incoming := inspectIncoming hints
    (incoming.decision = .continued ↔ incoming.correlation.isSome = true) ∧
      (incoming.cause.isSome = true → incoming.decision = .continued) := by
  unfold inspectIncoming
  split
  · simp
  · cases read : hints.correlation.bind fun text => (parse (.string text)).toOption with
    | none =>
      cases hints.causation with
      | none => simp
      | some hint =>
        obtain ⟨kind, id⟩ := hint
        cases inspected : inspectCausation none kind id with
        | error reason => simp [inspected]
        | ok cause =>
          unfold inspectCausation at inspected
          split at inspected
          · cases inspected
          · split at inspected <;> cases inspected
    | some correlation =>
      cases hints.causation with
      | none => simp
      | some hint =>
        obtain ⟨kind, id⟩ := hint
        cases inspected : inspectCausation (some correlation) kind id <;> simp [inspected]

structure RootSpec where
  workId : Option ID
  origin : Origin
  operation : Operation
  attribution : Attribution
  executor : Actor

structure StepSpec where
  workId : Option ID
  operation : Operation
  executor : Actor
  cause : Option Reference

structure WorkSpec where
  workId : ID
  operation : Operation
  cause : Option Reference

structure ExecutionSpec where
  executor : Actor
  attempt : Nat

structure ReplaySpec where
  source : Reference
  runId : Option ID
  workId : Option ID
  operation : Operation
  attribution : Attribution
  executor : Actor

/-- What the clock and the generator answer to one emission. -/
structure Effects where
  now : JsDate
  newId : Except Failure JsString

def generatedError : Failure :=
  failure .internal "invalid generated provenance ID" "provenance.invalid_generated_id"

/-- `validID`, with the identifier it recognises. -/
def validID? (text : JsString) : Option ID :=
  if canonical : text.isCanonicalId = true then some ⟨text, canonical⟩ else none

def rootWork (spec : RootSpec) : Except Failure DraftWork :=
  if spec.origin = .replay then .error (invalid "invalid_origin")
  else .ok
    { workId := spec.workId, correlationId := none, correlationSource := .local, causation := none,
      origin := some spec.origin, operation := spec.operation, attribution := spec.attribution,
      depth := some 0, replay := none }

/-- The parent's work under another name, one deeper, and caused by the parent unless
another cause is given. -/
def childDraft (parent : Scope) (workId : Option ID) (operation : Operation)
    (cause : Option Reference) : DraftWork :=
  { parent.work.snapshot.draft with
    workId := workId
    operation := operation
    depth := parent.work.snapshot.depth.map (· + 1)
    causation := some (cause.getD ⟨.scope, parent.scopeId⟩) }

def childWork (parent : Scope) (workId : Option ID) (operation : Operation)
    (cause : Option Reference) : Except Failure DraftWork :=
  if workId = some parent.work.snapshot.workId then .error (invalid "invalid_work")
  else if parent.work.snapshot.depth = some MAX_UINT32 then .error (invalid "depth_exhausted")
  else match validateWork (childDraft parent workId operation cause) true with
    | some error => .error error
    | none => .ok (childDraft parent workId operation cause)

/-- The draft of named work leaves nothing open, so filling it only changes its type. -/
def prepare (parent : Scope) (spec : WorkSpec) : Except Failure WorkContext := do
  let work ← childWork parent (some spec.workId) spec.operation spec.cause
  restoreWork (work.fill spec.workId)

def emit (effects : Effects) (work : DraftWork) (executor : Actor) (attempt : Nat)
    (previousAttempt : Option ID) (forbidden : List ID) : Except Failure Scope :=
  if !namedActor executor then .error (invalid "invalid_actor")
  else if attempt < 1 ∨ MAX_UINT32 < attempt then .error (invalid "invalid_attempt")
  else match validateWork work true with
  | some error => .error error
  | none => match normalizedTime effects.now with
  | none => .error (invalid "invalid_time")
  | some milliseconds => match effects.newId with
  | .error error => .error error
  | .ok text => match validID? text with
  | none => .error generatedError
  | some scopeId =>
    if scopeId ∈ forbidden then .error generatedError
    else (restoreScope
      { work := work.fill scopeId, scopeId, startedAt := timeClip milliseconds, executor, attempt,
        previousAttempt }).mapError fun _ => generatedError

def openScope (effects : Effects) (spec : RootSpec) : Except Failure Scope := do
  emit effects (← rootWork spec) spec.executor 1 none []

def child (effects : Effects) (parent : Scope) (spec : StepSpec) : Except Failure Scope := do
  let work ← childWork parent spec.workId spec.operation spec.cause
  let forbidden := if spec.workId.isNone then [parent.scopeId, parent.work.snapshot.workId]
    else [parent.scopeId]
  emit effects work spec.executor 1 none forbidden

def execute (effects : Effects) (work : WorkContext) (spec : ExecutionSpec) : Except Failure Scope :=
  emit effects work.snapshot.draft spec.executor spec.attempt none []

def retry (effects : Effects) (previous : Scope) (executor : Actor) : Except Failure Scope :=
  if previous.attempt = MAX_UINT32 then .error (invalid "attempt_exhausted")
  else emit effects previous.work.snapshot.draft executor (previous.attempt + 1)
    (some previous.scopeId) [previous.scopeId]

def replay (effects : Effects) (spec : ReplaySpec) : Except Failure Scope :=
  if spec.source.kind = .work ∧ spec.workId = some spec.source.id then
    .error (invalid "invalid_work")
  else emit effects
    { workId := spec.workId, correlationId := none, correlationSource := .local, causation := none,
      origin := some .replay, operation := spec.operation, attribution := spec.attribution,
      depth := some 0, replay := some ⟨spec.runId, spec.source⟩ }
    spec.executor 1 none (if spec.source.kind = .scope then [spec.source.id] else [])

def enter (effects : Effects) (spec : RootSpec) (incoming : IncomingResult) :
    Except Failure Scope := do
  let work ← rootWork spec
  let work := if incoming.decision = .continued then
      { work with
        correlationId := incoming.correlation
        correlationSource := .external
        causation := incoming.cause
        origin := none
        depth := none }
    else work
  emit effects work spec.executor 1 none []

/-- An emitted scope is the draft with its own identifier for what was open. -/
theorem emit_ok {effects : Effects} {work : DraftWork} {executor : Actor} {attempt : Nat}
    {previousAttempt : Option ID} {forbidden : List ID} {scope : Scope}
    (emitted : emit effects work executor attempt previousAttempt forbidden = .ok scope) :
    scope.work.snapshot = work.fill scope.scopeId ∧ scope.attempt = attempt ∧
      scope.previousAttempt = previousAttempt ∧ scope.scopeId ∉ forbidden := by
  unfold emit at emitted
  split at emitted
  · cases emitted
  obtain ⟨_, emitted⟩ := refuse_ok.mp emitted
  split at emitted
  · cases emitted
  split at emitted
  · cases emitted
  split at emitted
  · cases emitted
  split at emitted
  · cases emitted
  obtain ⟨allowed, emitted⟩ := refuse_ok.mp emitted
  have snapshot := restoreScope_eq_ok.mp (mapError_ok emitted)
  have identified := congrArg ScopeSnapshot.scopeId snapshot
  have worked := congrArg ScopeSnapshot.work snapshot
  have attempted := congrArg ScopeSnapshot.attempt snapshot
  have followed := congrArg ScopeSnapshot.previousAttempt snapshot
  simp only [Scope.snapshot] at identified worked attempted followed
  rw [identified]
  exact ⟨worked, attempted, followed, allowed⟩

theorem childWork_ok {parent : Scope} {workId : Option ID} {operation : Operation}
    {cause : Option Reference} {work : DraftWork}
    (derived : childWork parent workId operation cause = .ok work) :
    work = childDraft parent workId operation cause := by
  unfold childWork at derived
  obtain ⟨_, derived⟩ := refuse_ok.mp derived
  obtain ⟨_, derived⟩ := refuse_ok.mp derived
  split at derived
  · cases derived
  · exact (Except.ok.inj derived).symm

theorem execute_ok {effects : Effects} {work : WorkContext} {spec : ExecutionSpec} {scope : Scope}
    (executed : execute effects work spec = .ok scope) : scope.work = work := by
  obtain ⟨same, -⟩ := emit_ok executed
  rw [WorkOf.fill_draft] at same
  exact WorkContext.eq_of_snapshot same

/-- A retry is the same work again, one attempt later. -/
theorem retry_ok {effects : Effects} {previous scope : Scope} {executor : Actor}
    (retried : retry effects previous executor = .ok scope) :
    scope.work = previous.work ∧ scope.attempt = previous.attempt + 1 ∧
      scope.previousAttempt = some previous.scopeId := by
  obtain ⟨_, emitted⟩ := refuse_ok.mp retried
  obtain ⟨same, attempted, followed, -⟩ := emit_ok emitted
  rw [WorkOf.fill_draft] at same
  exact ⟨WorkContext.eq_of_snapshot same, attempted, followed⟩

end N2FNest.Provenance
