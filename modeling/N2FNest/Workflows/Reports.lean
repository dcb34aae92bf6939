import N2FNest.Documents.Outcome
import N2FNest.Workflows.JobEvents

/-! A waiting document is a register of reports. It keeps the report of the
highest attempt, and among reports of one attempt the last one to arrive; the
code's document refines this register delivery by delivery. -/

namespace N2FNest.Workflows

open Documents Events Jobs Lib Shared

/-- What one outcome says about its run. -/
inductive Report where
  | retrying (attempt : Nat)
  | succeeded (attempt : Nat)
  | failed (attempt : Nat) (code : JsString)
  deriving DecidableEq

namespace Report

def attempt : Report → Nat
  | .retrying attempt => attempt
  | .succeeded attempt => attempt
  | .failed attempt _ => attempt

def isRetrying : Report → Bool
  | .retrying _ => true
  | _ => false

def status : Report → DocumentStatus
  | .retrying _ => .processing
  | .succeeded _ => .processed
  | .failed _ _ => .processingFailed

def code : Report → Option JsString
  | .failed _ code => some code
  | _ => none

/-- The report a document keeps when another arrives. -/
def newer (kept new : Report) : Report :=
  match kept, new with
  | .succeeded _, _ => kept
  | .failed held _, .failed attempt _ => if attempt ≤ held then kept else new
  | _, _ => if new.attempt < kept.attempt then kept else new

def latest (kept : Report) (reports : List Report) : Report := reports.foldl newer kept

/-- Where the code checks a failure code, a report carries an accepted one. -/
def Accepted : Report → Prop
  | .failed _ code => code.isToken 127 = true
  | _ => True

theorem newer_final {kept : Report} (final : kept.status = .processed) (new : Report) :
    kept.newer new = kept := by
  cases kept with
  | succeeded attempt => rfl
  | retrying attempt => cases final
  | failed attempt code => cases final

theorem newer_older {kept new : Report} (older : new.attempt < kept.attempt) :
    kept.newer new = kept := by
  unfold newer
  split
  · rfl
  · exact if_pos (Nat.le_of_lt older)
  · exact if_pos older

theorem newer_repeated {kept new : Report} (failed : kept.status = .processingFailed)
    (again : new.status = .processingFailed) (same : new.attempt = kept.attempt) :
    kept.newer new = kept := by
  cases kept with
  | failed held reason => cases new with
    | failed attempt code => exact if_pos (Nat.le_of_eq same)
    | retrying attempt => cases again
    | succeeded attempt => cases again
  | retrying held => cases failed
  | succeeded held => cases failed

theorem newer_moves {kept new : Report} (pending : kept.status ≠ .processed)
    (current : kept.attempt ≤ new.attempt)
    (fresh : ¬ (kept.status = .processingFailed ∧ new.status = .processingFailed ∧
      new.attempt = kept.attempt)) : kept.newer new = new := by
  unfold newer
  split
  · exact absurd rfl pending
  · refine if_neg ?_
    intro bound
    exact fresh ⟨rfl, rfl, Nat.le_antisymm bound current⟩
  · exact if_neg (Nat.not_lt.mpr current)

theorem newer_mem (kept new : Report) : kept.newer new = kept ∨ kept.newer new = new := by
  unfold newer
  split
  · exact .inl rfl
  · exact ite_eq_or_eq ..
  · exact ite_eq_or_eq ..

theorem latest_append (kept : Report) (reports : List Report) (new : Report) :
    kept.latest (reports ++ [new]) = (kept.latest reports).newer new := List.foldl_append

/-- The register only ever holds what it was given. -/
theorem latest_mem (kept : Report) (reports : List Report) :
    kept.latest reports ∈ kept :: reports := by
  induction reports using List.reverseRecOn with
  | nil => exact List.mem_cons_self
  | append_singleton reports new ih =>
    rw [latest_append]
    rcases newer_mem (kept.latest reports) new with same | same <;> rw [same]
    · exact List.mem_append_left [new] ih
    · exact List.mem_append_right (kept :: reports) List.mem_cons_self

/-- A report that beats all others and is never displaced is the one that stays,
whenever it arrives. -/
theorem latest_top {kept top : Report} {reports : List Report} (delivered : top ∈ reports)
    (wins : ∀ report ∈ kept :: reports, report.newer top = top)
    (stays : ∀ report ∈ reports, top.newer report = top) : kept.latest reports = top := by
  induction reports using List.reverseRecOn with
  | nil => cases delivered
  | append_singleton reports new ih =>
    rw [latest_append]
    rcases List.mem_append.mp delivered with earlier | now
    · rw [ih earlier (fun report member => wins report (List.mem_append_left [new] member))
        (fun report member => stays report (List.mem_append_left [new] member))]
      exact stays new (List.mem_append_right reports List.mem_cons_self)
    · cases List.mem_singleton.mp now
      exact wins _ (List.mem_append_left [top] (latest_mem kept reports))

/-- An arriving report at least as new as the kept one decides the attempt, and
whether a retry is under way. -/
theorem newer_decides {kept new : Report} (pending : kept.status ≠ .processed)
    (current : kept.attempt ≤ new.attempt) :
    (kept.newer new).attempt = new.attempt ∧ (kept.newer new).isRetrying = new.isRetrying := by
  by_cases repeated : kept.status = .processingFailed ∧ new.status = .processingFailed ∧
      new.attempt = kept.attempt
  · rw [newer_repeated repeated.1 repeated.2.1 repeated.2.2]
    refine ⟨repeated.2.2.symm, ?_⟩
    obtain ⟨held, failed, _⟩ := repeated
    cases kept <;> cases new <;> simp_all [status, isRetrying]
  · rw [newer_moves pending current repeated]
    exact ⟨rfl, rfl⟩

end Report

def JobOutcome.report (outcome : JobOutcome) : Report :=
  match outcome.action with
  | .retry => .retrying outcome.attempt
  | .complete => .succeeded outcome.attempt
  | .fail code => .failed outcome.attempt code

/-- The document shows a report of run `run`. A processed document is final, so
its attempt no longer matters. -/
structure Shows (document : Document) (run : ID) (report : Report) : Prop where
  run : document.processingRun = some run
  status : document.status = report.status
  code : document.processingFailureCode = report.code
  attempt : document.status ≠ .processed → document.processingAttempt = report.attempt

/-- A document that has just begun waiting on a run shows the run's start. -/
theorem shows_begun {document : Document} {run : ID} (status : document.status = .processing)
    (waiting : document.processingRun = some run) (fresh : document.processingAttempt = 0) :
    Shows document run (.retrying 0) where
  run := waiting
  status := status
  code := by
    have shape := document.valid.lifecycle
    simp only [DocumentState.Lifecycle, status] at shape
    exact shape.2
  attempt := fun _ => fresh

variable {document : Document} {run : ID} {kept : Report}

/-- Two reports a document shows agree, unless the run has succeeded. -/
theorem Shows.unique {other : Report} (shown : Shows document run kept)
    (also : Shows document run other) (pending : kept.status ≠ .processed) : kept = other := by
  have statuses : kept.status = other.status := shown.status.symm.trans also.status
  have codes : kept.code = other.code := shown.code.symm.trans also.code
  have live : document.status ≠ .processed := fun same => pending (shown.status.symm.trans same)
  have attempts : kept.attempt = other.attempt :=
    (shown.attempt live).symm.trans (also.attempt live)
  cases kept <;> cases other <;> simp_all [Report.status, Report.attempt, Report.code]

private theorem Shows.stale_iff (shown : Shows document run kept) (attempt : Nat) :
    document.isStale run attempt = true ↔
      kept.status = .processed ∨ attempt < kept.attempt := by
  have same : document.sameRun run = true := by simp [Document.sameRun, shown.run]
  by_cases finished : kept.status = .processed
  · simp [Document.isStale, shown.status, finished]
  · have held := shown.attempt (fun same => finished (shown.status.symm.trans same))
    have statuses : kept.status = .processing ∨ kept.status = .processingFailed := by
      cases kept <;> simp [Report.status] at finished ⊢
    rcases statuses with status | status <;>
      simp [Document.isStale, same, shown.status, status, held]

private theorem settles_shows {next : Document} {time : Int} (report : Report)
    (settled : document.Settles run report.attempt time report.status report.code next) :
    Shows next run report := by
  unfold Document.Settles at settled
  have fields : next.processingRun = some run ∧ next.status = report.status ∧
      next.processingFailureCode = report.code ∧ next.processingAttempt = report.attempt := by
    rw [settled]
    exact ⟨rfl, rfl, rfl, rfl⟩
  exact ⟨fields.1, fields.2.1, fields.2.2.1, fun _ => fields.2.2.2⟩

theorem JobOutcome.report_attempt (outcome : JobOutcome) :
    outcome.report.attempt = outcome.attempt := by
  unfold JobOutcome.report
  cases outcome.action <;> rfl

/-- What one delivery does to a document showing `kept`: the code accepts the
outcome, the document shows the newer report, and it is the same document when
the report it showed is kept. -/
def Delivers (document : Document) (run : ID) (kept report : Report)
    (result : Except DocumentFailure Document) : Prop :=
  ∃ next, result = .ok next ∧ Shows next run (kept.newer report) ∧
    (kept.newer report = kept → next = document)

private theorem Shows.delivers_unchanged {report : Report} (shown : Shows document run kept)
    (unchanged : kept.newer report = kept) : Delivers document run kept report (.ok document) := by
  refine ⟨document, rfl, ?_, fun _ => rfl⟩
  rw [unchanged]
  exact shown

private theorem delivers_settled {report : Report} {next : Document} (time : Int)
    (moved : kept.newer report = report) (differs : report ≠ kept)
    (settled : document.Settles run report.attempt time report.status report.code next) :
    Delivers document run kept report (.ok next) := by
  refine ⟨next, rfl, ?_, fun same => absurd (moved.symm.trans same) differs⟩
  rw [moved]
  exact settles_shows report settled

private theorem Shows.delivers_retry (shown : Shows document run kept) {outcome : JobOutcome}
    (action : outcome.action = .retry) (named : outcome.processing.run = run)
    (read : outcome.processing.attempt.safeNat? = some outcome.attempt)
    (fresh : ¬ document.isStale run outcome.attempt = true) (pending : kept.status ≠ .processed)
    (current : kept.attempt ≤ outcome.attempt) (time : Int) :
    Delivers document run kept outcome.report
      (document.applyProcessingOutcome (some time) outcome.processing) := by
  have held := shown.attempt (fun same => pending (shown.status.symm.trans same))
  have report : outcome.report = .retrying outcome.attempt := by simp [JobOutcome.report, action]
  obtain ⟨next, done, settled⟩ := Document.apply_retrying time read
    (named.symm ▸ fresh) (by simp [JobOutcome.processing, action])
  have moved : kept.newer outcome.report = outcome.report :=
    Report.newer_moves pending (by rwa [outcome.report_attempt])
      (fun both => by rw [report] at both; cases both.2.1)
  rw [done]
  rw [named] at settled
  split at settled
  · rename_i repeated
    subst settled
    refine shown.delivers_unchanged ?_
    rw [moved, report, repeated.2, held]
    have processing : kept.status = .processing := shown.status.symm.trans repeated.1
    cases kept with
    | retrying attempt => rfl
    | succeeded attempt => cases processing
    | failed attempt code => cases processing
  · rename_i different
    refine delivers_settled time moved ?_ (by rw [report]; exact settled)
    intro same
    rw [report] at same
    exact different ⟨by rw [shown.status, ← same]; rfl, by rw [held, ← same]; rfl⟩

private theorem Shows.delivers_fail (shown : Shows document run kept) {outcome : JobOutcome}
    {code : JsString} (action : outcome.action = .fail code) (named : outcome.processing.run = run)
    (read : outcome.processing.attempt.safeNat? = some outcome.attempt)
    (accepted : code.isToken 127 = true)
    (fresh : ¬ document.isStale run outcome.attempt = true) (pending : kept.status ≠ .processed)
    (current : kept.attempt ≤ outcome.attempt) (time : Int) :
    Delivers document run kept outcome.report
      (document.applyProcessingOutcome (some time) outcome.processing) := by
  have held := shown.attempt (fun same => pending (shown.status.symm.trans same))
  have report : outcome.report = .failed outcome.attempt code := by simp [JobOutcome.report, action]
  obtain ⟨next, done, settled⟩ := Document.apply_failed time read (named.symm ▸ fresh)
    (by simp [JobOutcome.processing, action]) (by simp [JobOutcome.processing, action]) accepted
  rw [done]
  rw [named] at settled
  split at settled
  · rename_i repeated
    subst settled
    refine shown.delivers_unchanged (Report.newer_repeated (shown.status.symm.trans repeated.1) ?_ ?_)
    · rw [report]
      rfl
    · rw [outcome.report_attempt, repeated.2, held]
  · rename_i different
    have moved : kept.newer outcome.report = outcome.report := by
      refine Report.newer_moves pending (by rwa [outcome.report_attempt]) ?_
      rintro ⟨failed, _, same⟩
      rw [outcome.report_attempt] at same
      exact different ⟨shown.status.trans failed, same.trans held.symm⟩
    refine delivers_settled time moved ?_ (by rw [report]; exact settled)
    intro same
    rw [report] at same
    exact different ⟨by rw [shown.status, ← same]; rfl, by rw [held, ← same]; rfl⟩

/-- The code's document refines the register of reports. -/
theorem apply_report (shown : Shows document run kept) (outcome : JobOutcome)
    (named : outcome.jobId = run) (safe : outcome.attempt ≤ 9007199254740991)
    (accepted : outcome.report.Accepted) (time : Int) :
    Delivers document run kept outcome.report
      (document.applyProcessingOutcome (some time) outcome.processing) := by
  have read : outcome.processing.attempt.safeNat? = some outcome.attempt :=
    JsNumber.safeNat?_ofNat safe
  have named : outcome.processing.run = run := named
  by_cases stale : document.isStale run outcome.attempt = true
  · rw [Document.apply_stale time read (named.symm ▸ stale)]
    refine shown.delivers_unchanged ?_
    rcases (shown.stale_iff outcome.attempt).mp stale with final | older
    · exact Report.newer_final final _
    · exact Report.newer_older (by rwa [outcome.report_attempt])
  · obtain ⟨pending, current⟩ :=
      not_or.mp (fun both => stale ((shown.stale_iff outcome.attempt).mpr both))
    have current := Nat.le_of_not_lt current
    cases action : outcome.action with
    | retry => exact shown.delivers_retry action named read stale pending current time
    | complete =>
      have report : outcome.report = .succeeded outcome.attempt := by
        simp [JobOutcome.report, action]
      obtain ⟨next, done, settled⟩ := Document.apply_succeeded time read
        (named.symm ▸ stale) (by simp [JobOutcome.processing, action])
      rw [named] at settled
      rw [done]
      refine delivers_settled time ?_ ?_ (by rw [report]; exact settled)
      · exact Report.newer_moves pending (by rwa [outcome.report_attempt])
          (fun both => by rw [report] at both; cases both.2.1)
      · intro same
        rw [← same, report] at pending
        exact pending rfl
    | fail code =>
      have reason : code.isToken 127 = true := by
        simpa [JobOutcome.report, action, Report.Accepted] using accepted
      exact shown.delivers_fail action named read reason stale pending current time

end N2FNest.Workflows
