import N2FNest.Provenance.Factory

/-! Every scope of a tree keeps the lineage of its root, and is deeper by the
steps that lead to it. -/

namespace N2FNest.Provenance

open Lib Shared

/-- What a tree of scopes shares. -/
structure Lineage where
  correlationId : ID
  correlationSource : CorrelationSource
  attribution : Attribution
  origin : Option Origin
  replay : Option ReplayInfo
  deriving DecidableEq

def Scope.lineage (scope : Scope) : Lineage where
  correlationId := scope.work.snapshot.correlationId
  correlationSource := scope.work.snapshot.correlationSource
  attribution := scope.work.snapshot.attribution
  origin := scope.work.snapshot.origin
  replay := scope.work.snapshot.replay

/-- The scopes a tree starts from. -/
inductive Rooted : Scope → Prop where
  | opened {effects : Effects} {spec : RootSpec} {root : Scope}
      (success : openScope effects spec = .ok root) : Rooted root
  | replayed {effects : Effects} {spec : ReplaySpec} {root : Scope}
      (success : replay effects spec = .ok root) : Rooted root
  | entered {effects : Effects} {spec : RootSpec} {hints : IncomingHints} {root : Scope}
      (success : enter effects spec (inspectIncoming hints) = .ok root) : Rooted root

/-- The scopes of a tree, with the child and prepare steps on the path to each. -/
inductive Grown (root : Scope) : Scope → Nat → Prop where
  | root (rooted : Rooted root) : Grown root root 0
  | child {parent scope : Scope} {steps : Nat} {effects : Effects} {spec : StepSpec}
      (earlier : Grown root parent steps) (success : child effects parent spec = .ok scope) :
      Grown root scope (steps + 1)
  | prepared {parent scope : Scope} {steps : Nat} {effects : Effects} {spec : WorkSpec}
      {work : WorkContext} {execution : ExecutionSpec} (earlier : Grown root parent steps)
      (success : prepare parent spec = .ok work)
      (executed : execute effects work execution = .ok scope) : Grown root scope (steps + 1)
  | retried {previous scope : Scope} {steps : Nat} {effects : Effects} {executor : Actor}
      (earlier : Grown root previous steps) (success : retry effects previous executor = .ok scope) :
      Grown root scope steps

/-- What a draft of child work leaves open is its own name alone. -/
theorem fill_childDraft (parent : Scope) (workId : Option ID) (operation : Operation)
    (cause : Option Reference) (scopeId : ID) :
    (childDraft parent workId operation cause).fill scopeId =
      { parent.work.snapshot with
        workId := workId.getD scopeId
        operation := operation
        depth := parent.work.snapshot.depth.map (· + 1)
        causation := some (cause.getD ⟨.scope, parent.scopeId⟩) } := by
  have kept := WorkOf.fill_draft parent.work.snapshot scopeId
  have replay := congrArg WorkOf.replay kept
  unfold childDraft WorkOf.fill at *
  simp only at replay ⊢
  rw [replay]
  rfl

theorem child_ok {effects : Effects} {parent scope : Scope} {spec : StepSpec}
    (success : child effects parent spec = .ok scope) :
    scope.lineage = parent.lineage ∧
      scope.work.snapshot.depth = parent.work.snapshot.depth.map (· + 1) ∧
      scope.work.snapshot.causation = some (spec.cause.getD ⟨.scope, parent.scopeId⟩) := by
  obtain ⟨work, derived, emitted⟩ := bind_ok success
  rw [childWork_ok derived] at emitted
  obtain ⟨same, -⟩ := emit_ok emitted
  rw [fill_childDraft] at same
  rw [Scope.lineage, same]
  exact ⟨rfl, rfl, rfl⟩

theorem prepare_ok {parent : Scope} {spec : WorkSpec} {work : WorkContext}
    (success : prepare parent spec = .ok work) :
    work.snapshot = { parent.work.snapshot with
      workId := spec.workId
      operation := spec.operation
      depth := parent.work.snapshot.depth.map (· + 1)
      causation := some (spec.cause.getD ⟨.scope, parent.scopeId⟩) } := by
  obtain ⟨draft, derived, restored⟩ := bind_ok success
  rw [restoreWork_eq_ok.mp restored, childWork_ok derived, fill_childDraft]
  rfl

theorem prepared_ok {effects : Effects} {parent scope : Scope} {spec : WorkSpec} {work : WorkContext}
    {execution : ExecutionSpec} (success : prepare parent spec = .ok work)
    (executed : execute effects work execution = .ok scope) :
    scope.lineage = parent.lineage ∧
      scope.work.snapshot.depth = parent.work.snapshot.depth.map (· + 1) ∧
      scope.work.snapshot.causation = some (spec.cause.getD ⟨.scope, parent.scopeId⟩) := by
  rw [Scope.lineage, execute_ok executed, prepare_ok success]
  exact ⟨rfl, rfl, rfl⟩

private theorem deeper {depth : Option Nat} {steps : Nat} :
    (depth.map (· + steps)).map (· + 1) = depth.map (· + (steps + 1)) := by
  cases depth <;> rfl

theorem Grown.lineage_depth {root scope : Scope} {steps : Nat} (grown : Grown root scope steps) :
    scope.lineage = root.lineage ∧
      scope.work.snapshot.depth = root.work.snapshot.depth.map (· + steps) := by
  induction grown with
  | root rooted =>
    refine ⟨rfl, ?_⟩
    cases root.work.snapshot.depth <;> rfl
  | child earlier success ih =>
    obtain ⟨lineage, depth, -⟩ := child_ok success
    rw [lineage, depth, ih.1, ih.2, deeper]
    exact ⟨rfl, rfl⟩
  | prepared earlier success executed ih =>
    obtain ⟨lineage, depth, -⟩ := prepared_ok success executed
    rw [lineage, depth, ih.1, ih.2, deeper]
    exact ⟨rfl, rfl⟩
  | retried earlier success ih =>
    obtain ⟨same, -⟩ := retry_ok success
    rw [Scope.lineage, same]
    exact ih

/-- Whatever grows a tree, each of its scopes has the lineage of the root and the depth of
its path, is the cause of its children and the earlier attempt of its retries, and is
restored from its snapshot. -/
theorem grown_keeps_lineage {root scope : Scope} {steps : Nat} (grown : Grown root scope steps) :
    scope.lineage = root.lineage ∧
      scope.work.snapshot.depth = root.work.snapshot.depth.map (· + steps) ∧
      (∀ effects spec next, child effects scope spec = .ok next → spec.cause = none →
        next.work.snapshot.causation = some ⟨.scope, scope.scopeId⟩) ∧
      (∀ spec work effects execution next, prepare scope spec = .ok work →
        execute effects work execution = .ok next → spec.cause = none →
        next.work.snapshot.causation = some ⟨.scope, scope.scopeId⟩) ∧
      (∀ effects executor next, retry effects scope executor = .ok next →
        next.work.snapshot = scope.work.snapshot ∧ next.attempt = scope.attempt + 1 ∧
          next.previousAttempt = some scope.scopeId) ∧
      restoreScope scope.snapshot = .ok scope ∧
      restoreWork scope.work.snapshot = .ok scope.work := by
  obtain ⟨lineage, depth⟩ := grown.lineage_depth
  refine ⟨lineage, depth, ?_, ?_, ?_, restoreScope_eq_ok.mpr rfl, restoreWork_snapshot scope.work⟩
  · intro effects spec next success uncaused
    obtain ⟨-, -, caused⟩ := child_ok success
    rw [caused, uncaused]
    rfl
  · intro spec work effects execution next success executed uncaused
    obtain ⟨-, -, caused⟩ := prepared_ok success executed
    rw [caused, uncaused]
    rfl
  · intro effects executor next success
    obtain ⟨same, attempt, previous⟩ := retry_ok success
    rw [same]
    exact ⟨rfl, attempt, previous⟩

private def answering (number : Nat) : Effects := ⟨some 0, .ok (ID.numbered number).text⟩

private def worker : Actor := ⟨.service, some (js "worker"), by decide⟩

private def importing : Operation := ⟨js "documents.import", by decide⟩

private def startup : RootSpec where
  workId := none
  origin := .startup
  operation := importing
  attribution := ⟨some worker, none, none, by decide⟩
  executor := worker

private def succeeds (result : Except Failure Scope) (ok : result.toOption.isSome = true) :
    {scope : Scope // result = .ok scope} :=
  match result, ok with
  | .ok scope, _ => ⟨scope, rfl⟩

theorem child_of_startup : ∃ root scope, openScope (answering 0) startup = .ok root ∧
    child (answering 1) root ⟨none, importing, worker, none⟩ = .ok scope ∧
    scope.lineage = root.lineage ∧ scope.work.snapshot.depth = some 1 ∧
    restoreScope scope.snapshot = .ok scope := by
  let root := succeeds (openScope (answering 0) startup) (by decide)
  let scope := succeeds (child (answering 1) root.val ⟨none, importing, worker, none⟩) (by decide)
  have grown : Grown root.val scope.val 1 := .child (.root (.opened root.property)) scope.property
  obtain ⟨lineage, depth, -, -, -, restored, -⟩ := grown_keeps_lineage grown
  exact ⟨root, scope, root.property, scope.property, lineage, depth, restored⟩

end N2FNest.Provenance
