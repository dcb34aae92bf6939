import N2FNest.Workflows.Deliveries

/-! A document settles with the job it waits on. Attempts order the reports of
one job; only a retry shares its attempt with the failure before it and the
cancellation after it, and there the order of arrival decides. -/

namespace N2FNest.Workflows

open Documents Events Jobs Lib Shared

variable {Work : Type}

/-- The register holds the success of a succeeded job once it has arrived. -/
private theorem latest_succeeded {job : JobState} {reports : List Report}
    (fits : ∀ report ∈ reports, Fits job report)
    (delivered : Report.succeeded job.attempts ∈ reports) :
    (Report.retrying 0).latest reports = .succeeded job.attempts := by
  refine Report.latest_top delivered ?_ (fun report _ => Report.newer_final rfl report)
  intro report member
  rcases List.mem_cons.mp member with start | member
  · subst start
    exact Report.newer_moves (by simp [Report.status]) (Nat.zero_le _) (by simp [Report.status])
  · have fit := fits report member
    by_cases done : report.status = .processed
    · cases report with
      | succeeded attempt => rw [fit.1]; rfl
      | retrying attempt => cases done
      | failed attempt code => cases done
    · exact Report.newer_moves done fit.attempt_le (by simp [Report.status])

/-- The register holds the last failure of an exhausted job once it has arrived. -/
private theorem latest_exhausted {job : JobState} {code : JsString} {reports : List Report}
    (finished : job.status = .failed) (exhausted : job.attempts = job.maxAttempts)
    (reason : job.failureCode = some code) (fits : ∀ report ∈ reports, Fits job report)
    (delivered : Report.failed job.attempts code ∈ reports) :
    (Report.retrying 0).latest reports = .failed job.attempts code := by
  have pending : ∀ report ∈ reports, report.status ≠ .processed := by
    intro report member done
    cases report with
    | succeeded attempt => simpa [finished] using (fits _ member).2
    | retrying attempt => cases done
    | failed attempt code => cases done
  refine Report.latest_top delivered ?_ ?_
  · intro report member
    rcases List.mem_cons.mp member with start | member
    · subst start
      exact Report.newer_moves (by simp [Report.status]) (Nat.zero_le _) (by simp [Report.status])
    · have fit := fits report member
      by_cases repeated : report.status = .processingFailed ∧ job.attempts = report.attempt
      · cases report with
        | failed attempt other =>
          have same : attempt = job.attempts := repeated.2.symm
          have codes := (fit.2.2 same).2.2 finished
          rw [reason] at codes
          cases codes
          rw [same]
          exact Report.newer_repeated rfl rfl rfl
        | retrying attempt => cases repeated.1
        | succeeded attempt => cases repeated.1
      · exact Report.newer_moves (pending report member) fit.attempt_le
          (fun both => repeated ⟨both.1, both.2.2⟩)
  · intro report member
    have fit := fits report member
    cases report with
    | succeeded attempt => exact absurd rfl (pending _ member)
    | retrying attempt => exact Report.newer_older (exhausted ▸ fit.2.1)
    | failed attempt other =>
      rcases Nat.lt_or_eq_of_le fit.attempt_le with older | same
      · exact Report.newer_older older
      · exact Report.newer_repeated rfl rfl same

/-- The event of a job's last transition. -/
private theorem history_last {first job : Job} {events : List (Envelope Work)}
    (history : History first job events) (moved : job.status ≠ first.status) :
    ∃ event ∈ events, ∃ command context time before, event = Command.event command context time job ∧
      Kept before job ∧ Advances before job command.action := by
  cases history with
  | created => exact absurd rfl moved
  | step before command time done context =>
    obtain ⟨kept, advanced⟩ := Command.apply_inv done
    exact ⟨_, List.mem_append_right _ List.mem_cons_self, command, context, time, _, rfl, kept,
      advanced⟩

/-- A finished job has emitted the report of how it finished. -/
private theorem closing_report {first job : Job} {events : List (Envelope Work)} {documentId : ID}
    (history : History first job events) (queued : first.status = .queued)
    (target : documentOf job.toJobState = some documentId) :
    (job.status = .succeeded → ∃ event ∈ events, reportOf event = some (.succeeded job.attempts)) ∧
      (job.status = .failed ∨ job.status = .canceled → ∃ event ∈ events, reportOf event =
        some (.failed job.attempts (job.failureCode.getD (js "job.canceled")))) := by
  constructor
  · intro finished
    obtain ⟨event, member, command, context, time, before, same, kept, advanced⟩ :=
      history_last history (by simp [finished, queued])
    refine ⟨event, member, ?_⟩
    rw [Tells.reportOf_eq target command context time (SameJob.refl job) same]
    generalize command.action = action at advanced ⊢
    cases advanced <;> simp_all [reported]
  · intro finished
    obtain ⟨event, member, command, context, time, before, same, kept, advanced⟩ :=
      history_last history (by rcases finished with status | status <;> simp [status, queued])
    refine ⟨event, member, ?_⟩
    rw [Tells.reportOf_eq target command context time (SameJob.refl job) same]
    generalize command.action = action at advanced ⊢
    cases advanced <;> simp_all [reported]

/-- The deliveries of one job's events: any order, any repetitions, at any
valid times, and every event at least once. -/
structure Complete (events : List (Envelope Work)) (deliveries : List (Envelope Work × Int)) :
    Prop where
  emitted : ∀ delivery ∈ deliveries, delivery.1 ∈ events
  delivered : ∀ event ∈ events, ∃ delivery ∈ deliveries, delivery.1 = event

theorem Complete.of_perm {events order : List (Envelope Work)} (same : order.Perm events)
    (time : Int) : Complete events (order.map (·, time)) where
  emitted := by
    intro delivery member
    obtain ⟨event, present, rfl⟩ := List.mem_map.mp member
    exact same.mem_iff.mp present
  delivered := by
    intro event member
    exact ⟨(event, time), List.mem_map.mpr ⟨event, same.mem_iff.mpr member, rfl⟩, rfl⟩

private theorem Complete.reports {job : Job} {events : List (Envelope Work)}
    {deliveries : List (Envelope Work × Int)} (complete : Complete events deliveries)
    (tells : ∀ event ∈ events, Tells job event) :
    (∀ report ∈ (deliveries.map Prod.fst).filterMap reportOf, Fits job.toJobState report) ∧
      ∀ event ∈ events, ∀ report, reportOf event = some report →
        report ∈ (deliveries.map Prod.fst).filterMap reportOf := by
  constructor
  · intro report member
    obtain ⟨event, delivered, told⟩ := List.mem_filterMap.mp member
    obtain ⟨delivery, found, same⟩ := List.mem_map.mp delivered
    exact (tells event (same ▸ complete.emitted delivery found)).reportOf_fits told
  · intro event member report told
    obtain ⟨delivery, found, same⟩ := complete.delivered event member
    exact List.mem_filterMap.mpr ⟨event, List.mem_map.mpr ⟨delivery, found, same⟩, told⟩

/-- A document waiting on a run that has not reported yet. -/
structure Begun (document : Document) (run : ID) : Prop where
  status : document.status = .processing
  run : document.processingRun = some run
  attempt : document.processingAttempt = 0

def sampleJob : ID := ⟨js "0190a0b0-c0d0-7000-8000-000000000001", by decide⟩

def sampleTenant : ID := ⟨js "0190a0b0-c0d0-7000-8000-000000000002", by decide⟩

def sampleDocument : ID := ⟨js "0190a0b0-c0d0-7000-8000-000000000003", by decide⟩

def sampleInput (subject : JsValue) : CreateJobInput where
  id := sampleJob
  organizationId := sampleTenant
  kind := .string DOCUMENT_PROCESSING_JOB_KIND
  subject := subject
  maxAttempts := .number (.ofNat 2)
  createdAt := some 0

def documentReference : JsValue :=
  .object [(js "type", .string (js "document")), (js "id", .string sampleDocument.text)]

def sampleContext : EventContext Unit := ⟨sampleTenant, ()⟩

def sampleCommand (action : Action) : Command :=
  .transition action sampleTenant (.string (js "parse.failed"))

def begunDocument : Document where
  id := sampleDocument
  organizationId := sampleTenant
  name := js "invoice"
  storageKey := none
  status := .processing
  processingFailureCode := none
  processingRun := some sampleJob
  processingAttempt := 0
  createdAt := 0
  updatedAt := 0
  archivedAt := none
  version := 2
  valid := ⟨by unfold Documents.Normal; decide, by simp, by simp, by decide, by decide, ⟨rfl, rfl⟩⟩

private theorem begun_sample : Begun begunDocument sampleJob := ⟨rfl, rfl, rfl⟩

/-- A document settles with the job that succeeded or used up its attempts. -/
theorem processing_settles {input : CreateJobInput} {first final : Job} {documentId : ID}
    {events : List (Envelope Work)} (created : Job.create input = .ok first)
    (history : History first final events)
    (target : documentOf first.toJobState = some documentId)
    (finished : final.status = .succeeded ∨
      final.status = .failed ∧ final.attempts = final.maxAttempts)
    {document : Document} (begun : Begun document first.id)
    {deliveries : List (Envelope Work × Int)} (complete : Complete events deliveries) :
    ∃ settled,
      applyJobEvents document (deliveries.map fun each => (each.1, some each.2)) = .ok settled ∧
      (final.status = .succeeded → settled.status = .processed) ∧
      (final.status = .failed → settled.status = .processingFailed ∧
        final.failureCode ≠ none ∧ settled.processingFailureCode = final.failureCode) := by
  have kept := history.kept
  have tells := history_tells history
  have target := (documentOf_same kept.sameJob).trans target
  obtain ⟨fits, arrives⟩ := complete.reports tells
  obtain ⟨success, failure⟩ := closing_report history (Job.create_inv created).2.2.2.1 target
  have start := shows_begun begun.status (kept.id.symm ▸ begun.run) begun.attempt
  obtain ⟨settled, done, shown⟩ := deliveries_shown deliveries start
    (fun delivery member => tells _ (complete.emitted delivery member))
  refine ⟨settled, done, ?_, ?_⟩
  · intro succeeded
    obtain ⟨event, member, told⟩ := success succeeded
    rw [shown.status, latest_succeeded fits (arrives event member _ told)]
    rfl
  · intro failed
    have exhausted : final.attempts = final.maxAttempts := by
      rcases finished with succeeded | both
      · rw [failed] at succeeded
        cases succeeded
      · exact both.2
    have shape := final.valid.lifecycle
    simp only [JobState.Lifecycle, failed] at shape
    obtain ⟨code, reason⟩ := Option.ne_none_iff_exists'.mp shape.2.2
    obtain ⟨event, member, told⟩ := failure (.inl failed)
    rw [reason, Option.getD_some] at told
    have last := latest_exhausted failed exhausted reason fits (arrives event member _ told)
    rw [shown.status, shown.code, last]
    exact ⟨rfl, shape.2.2, reason.symm⟩

/-- A job that fails once and then succeeds, its events delivered backwards. -/
theorem processing_settles_backwards : ∃ (first final : Job) (events : List (Envelope Unit))
    (settled : Document),
    createAndPerform sampleContext (sampleInput documentReference) [(sampleCommand .start, 1),
      (sampleCommand .fail, 2), (sampleCommand .retry, 3), (sampleCommand .start, 4),
      (sampleCommand .complete, 5)] = .ok (first, final, events) ∧
    applyJobEvents begunDocument ((events.reverse.map (·, 9)).map
      fun each => (each.1, some each.2)) = .ok settled ∧ settled.status = .processed := by
  have performed : createAndPerform sampleContext (sampleInput documentReference)
    [(sampleCommand .start, 1), (sampleCommand .fail, 2), (sampleCommand .retry, 3),
      (sampleCommand .start, 4), (sampleCommand .complete, 5)] = .ok (_, _, _) := rfl
  obtain ⟨created, history⟩ := createAndPerform_history performed
  obtain ⟨settled, done, processed, _⟩ := processing_settles created history rfl (.inl rfl)
    (begun_sample) (Complete.of_perm (List.reverse_perm _) 9)
  exact ⟨_, _, _, settled, performed, done, processed rfl⟩

/-- A job of the workflow's kind need not have a document as its subject. Such a
job is none of the workflow's business, and a document on it is never settled. -/
theorem unsubjected_run_stays_processing : ∃ (first final : Job) (events : List (Envelope Unit))
    (settled : Document),
    createAndPerform sampleContext (sampleInput .null) [(sampleCommand .start, 1),
      (sampleCommand .complete, 2)] = .ok (first, final, events) ∧
    Job.create (sampleInput .null) = .ok first ∧ History first final events ∧
    first.kind = DOCUMENT_PROCESSING_JOB_KIND ∧ final.status = .succeeded ∧
    Begun begunDocument first.id ∧ Complete events (events.reverse.map (·, 9)) ∧
    applyJobEvents begunDocument ((events.reverse.map (·, 9)).map
      fun each => (each.1, some each.2)) = .ok settled ∧ settled.status = .processing := by
  have performed : createAndPerform sampleContext (sampleInput .null) [(sampleCommand .start, 1),
      (sampleCommand .complete, 2)] = .ok (_, _, _) := rfl
  obtain ⟨created, history⟩ := createAndPerform_history performed
  exact ⟨_, _, _, _, performed, created, history, rfl, rfl, begun_sample, Complete.of_perm (List.reverse_perm _) 9,
    rfl, rfl⟩

/-- The attempt number an event carries. -/
def attemptsOf (event : Envelope Work) : Option Nat :=
  match event.payload.read (js "attempts") with
  | .number value => value.safeNat?
  | _ => none

/-- An event that says how an attempt ended or that it is tried again. -/
def isOutcome (event : Envelope Work) : Bool := event.type != JobEventType.started.name

/-- The last of the given events that says something about this attempt. -/
def lastOn (attempt : Nat) (events : List (Envelope Work)) : Option (Envelope Work) :=
  (events.filter fun event => isOutcome event && attemptsOf event == some attempt).getLast?

/-- How an event of a document's job reads, without decoding it. -/
private theorem Tells.reads {job : Job} {event : Envelope Work} {documentId : ID}
    (tells : Tells job event) (target : documentOf job.toJobState = some documentId) :
    (isOutcome event = false ∧ reportOf event = none) ∨
      (isOutcome event = true ∧ ∃ report, reportOf event = some report ∧
        Fits job.toJobState report ∧ attemptsOf event = some report.attempt ∧
        (report.isRetrying = true ↔ event.type = JobEventType.retried.name)) := by
  obtain ⟨command, context, time, past, same, kept, fits⟩ := tells.emitted
  have told := Tells.reportOf_eq target command context time kept same
  have number : attemptsOf event = some past.attempts := by
    rw [same]
    simp only [attemptsOf, Command.event, jobEvent, command.read_attempts]
    exact JsNumber.safeNat?_ofNat
      (Nat.le_trans past.valid.attempts (Nat.le_trans past.valid.budget.2 (by decide)))
  have named : event.type = command.action.eventType.name := by rw [same]; rfl
  unfold isOutcome
  rw [told, number, named]
  generalize command.action = action at fits ⊢
  have other : ∀ report : Report, report.isRetrying = false → action.eventType ≠ .retried →
      (report.isRetrying = true ↔ action.eventType.name = JobEventType.retried.name) := by
    intro report settled different
    exact iff_of_false (by simp [settled]) (fun names => different (JobEventType.name_inj names))
  cases action with
  | start => exact .inl ⟨rfl, rfl⟩
  | complete => exact .inr ⟨rfl, _, rfl, fits _ rfl, rfl, other _ rfl (by decide)⟩
  | fail => exact .inr ⟨rfl, _, rfl, fits _ rfl, rfl, other _ rfl (by decide)⟩
  | retry => exact .inr ⟨rfl, _, rfl, fits _ rfl, rfl, iff_of_true rfl rfl⟩
  | cancel => exact .inr ⟨rfl, _, rfl, fits _ rfl, rfl, other _ rfl (by decide)⟩

/-- Once the newest attempt has been reported on, the last such event decides
whether the register still waits. -/
private theorem latest_lastOn {job : Job} {documentId : ID} {last : Envelope Work}
    (target : documentOf job.toJobState = some documentId) (unfinished : job.status ≠ .succeeded)
    (start : Fits job.toJobState (.retrying 0))
    (events : List (Envelope Work)) (tells : ∀ event ∈ events, Tells job event)
    (found : lastOn job.attempts events = some last) :
    let kept := (Report.retrying 0).latest (events.filterMap reportOf)
    kept.attempt = job.attempts ∧
      (kept.isRetrying = true ↔ last.type = JobEventType.retried.name) := by
  induction events using List.reverseRecOn with
  | nil => cases found
  | append_singleton events event ih =>
    have earlier := fun each member => tells each (List.mem_append_left [event] member)
    have held := latest_fits start earlier
    simp only [lastOn, List.filter_append, List.filterMap_append] at found ⊢
    rcases (tells event (List.mem_append_right events List.mem_cons_self)).reads target with
      ⟨skipped, told⟩ | ⟨counted, report, told, fits, number, retries⟩
    · simp only [skipped, told, List.filter_cons, List.filterMap_cons, List.filter_nil,
        List.filterMap_nil, Bool.false_and, Bool.false_eq_true, if_false, List.append_nil] at found ⊢
      exact ih earlier found
    · by_cases current : report.attempt = job.attempts
      · have same : last = event := by
          simpa [counted, number, current, eq_comm] using found
        subst same
        have moved := Report.newer_decides (held.unfinished unfinished) (current ▸ held.attempt_le)
        simp only [told, List.filterMap_cons, List.filterMap_nil, Report.latest_append]
        exact ⟨moved.1.trans current, by rw [moved.2]; exact retries⟩
      · have before : lastOn job.attempts events = some last := by
          simpa [lastOn, counted, number, current] using found
        obtain ⟨attempt, waits⟩ := ih earlier before
        have older : report.attempt < job.attempts :=
          Nat.lt_of_le_of_ne fits.attempt_le current
        simp only [told, List.filterMap_cons, List.filterMap_nil, Report.latest_append]
        rw [Report.newer_older (attempt.symm ▸ older)]
        exact ⟨attempt, waits⟩

/-- The events of a job that is not a document's tell a document nothing. -/
private theorem Tells.silent {job : Job} {event : Envelope Work} (tells : Tells job event)
    (untargeted : documentOf job.toJobState = none) : reportOf event = none := by
  obtain ⟨outcome?, decoded, about⟩ := tells.decodes
  unfold reportOf
  rw [decoded]
  cases outcome? with
  | none => rfl
  | some outcome =>
    have target := (about outcome rfl).2.2.1
    rw [untargeted] at target
    cases target

private theorem filterMap_silent {job : Job} {events : List (Envelope Work)}
    (tells : ∀ event ∈ events, Tells job event) (untargeted : documentOf job.toJobState = none) :
    events.filterMap reportOf = [] :=
  List.filterMap_eq_nil_iff.mpr fun event member => (tells event member).silent untargeted

private theorem Report.failed_iff {report : Report} (pending : report.status ≠ .processed) :
    report.status = .processingFailed ↔ ¬ report.isRetrying = true := by
  cases report with
  | retrying attempt => simp [Report.status, Report.isRetrying]
  | succeeded attempt => exact absurd rfl pending
  | failed attempt code => simp [Report.status, Report.isRetrying]

/-- A canceled job settles its document exactly when the job is the document's
and the last delivered event on its final attempt is not a retry. -/
theorem canceled_settles_iff {input : CreateJobInput} {first final : Job}
    {events : List (Envelope Work)} (created : Job.create input = .ok first)
    (history : History first final events) (canceled : final.status = .canceled)
    {document : Document} (begun : Begun document first.id)
    {deliveries : List (Envelope Work × Int)} (complete : Complete events deliveries) :
    ∃ settled,
      applyJobEvents document (deliveries.map fun each => (each.1, some each.2)) = .ok settled ∧
      (settled.status = .processingFailed ↔ documentOf first.toJobState ≠ none ∧
        ∀ last, lastOn final.attempts (deliveries.map Prod.fst) = some last →
          last.type ≠ JobEventType.retried.name) := by
  have kept := history.kept
  have tells : ∀ event ∈ deliveries.map Prod.fst, Tells final event := by
    intro event member
    obtain ⟨delivery, found, same⟩ := List.mem_map.mp member
    exact history_tells history event (same ▸ complete.emitted delivery found)
  have start := shows_begun begun.status (kept.id.symm ▸ begun.run) begun.attempt
  obtain ⟨settled, done, shown⟩ := deliveries_shown deliveries start
    (fun delivery member => tells _ (List.mem_map_of_mem member))
  refine ⟨settled, done, ?_⟩
  rw [shown.status, ← documentOf_same kept.sameJob]
  cases target : documentOf final.toJobState with
  | none => simp [filterMap_silent tells target, Report.latest, Report.status]
  | some documentId =>
    obtain ⟨fits, arrives⟩ := complete.reports (history_tells history)
    obtain ⟨_, failure⟩ := closing_report history (Job.create_inv created).2.2.2.1 target
    obtain ⟨event, member, told⟩ := failure (.inr canceled)
    obtain ⟨delivery, delivered, same⟩ := complete.delivered event member
    have present : event ∈ deliveries.map Prod.fst := List.mem_map.mpr ⟨delivery, delivered, same⟩
    obtain ⟨last, found⟩ : ∃ last, lastOn final.attempts (deliveries.map Prod.fst) = some last := by
      rcases (tells event present).reads target with ⟨_, skipped⟩ | ⟨counted, report, also, _, number, _⟩
      · rw [told] at skipped
        cases skipped
      · rw [told] at also
        cases also
        refine List.getLast?_isSome.mpr ?_ |> Option.isSome_iff_exists.mp
        exact List.ne_nil_of_mem (List.mem_filter.mpr ⟨present, by simp [counted, number, Report.attempt]⟩)
    have held := latest_fits (history_fits_start created history) tells
    have unfinished : final.status ≠ .succeeded := by simp [canceled]
    obtain ⟨_, waits⟩ := latest_lastOn target unfinished
      (history_fits_start created history) _ tells found
    rw [Report.failed_iff (held.unfinished unfinished), waits, found]
    simp

/-- A job canceled while it waits to be retried, its events delivered in order. -/
theorem canceled_settles_in_order : ∃ (first final : Job) (events : List (Envelope Unit))
    (settled : Document),
    createAndPerform sampleContext (sampleInput documentReference) [(sampleCommand .start, 1),
      (sampleCommand .fail, 2), (sampleCommand .retry, 3), (sampleCommand .cancel, 4)] =
        .ok (first, final, events) ∧
    applyJobEvents begunDocument ((events.map (·, 9)).map fun each => (each.1, some each.2)) =
      .ok settled ∧ settled.status = .processingFailed := by
  have performed : createAndPerform sampleContext (sampleInput documentReference)
    [(sampleCommand .start, 1), (sampleCommand .fail, 2), (sampleCommand .retry, 3),
      (sampleCommand .cancel, 4)] = .ok (_, _, _) := rfl
  obtain ⟨created, history⟩ := createAndPerform_history performed
  obtain ⟨settled, done, precise⟩ := canceled_settles_iff created history rfl begun_sample
    (Complete.of_perm (List.Perm.refl _) 9)
  refine ⟨_, _, _, settled, performed, done, precise.mpr ⟨by simp [documentOf], ?_⟩⟩
  intro last found
  obtain rfl : _ = last := Option.some.inj found
  decide

/-- The same job with its last two events swapped: the late retry revives the
document, which then waits on the canceled job for good. -/
theorem late_retry_revives : ∃ (first final : Job) (events : List (Envelope Unit))
    (settled : Document),
    createAndPerform sampleContext (sampleInput documentReference) [(sampleCommand .start, 1),
      (sampleCommand .fail, 2), (sampleCommand .retry, 3), (sampleCommand .cancel, 4)] =
        .ok (first, final, events) ∧
    Job.create (sampleInput documentReference) = .ok first ∧ History first final events ∧
    first.kind = DOCUMENT_PROCESSING_JOB_KIND ∧ final.status = .canceled ∧
    Begun begunDocument first.id ∧
    Complete events ((events.take 2 ++ (events.drop 2).reverse).map (·, 9)) ∧
    applyJobEvents begunDocument (((events.take 2 ++ (events.drop 2).reverse).map (·, 9)).map
      fun each => (each.1, some each.2)) = .ok settled ∧ settled.status = .processing := by
  have performed : createAndPerform sampleContext (sampleInput documentReference)
    [(sampleCommand .start, 1), (sampleCommand .fail, 2), (sampleCommand .retry, 3),
      (sampleCommand .cancel, 4)] = .ok (_, _, _) := rfl
  obtain ⟨created, history⟩ := createAndPerform_history performed
  exact ⟨_, _, _, _, performed, created, history, rfl, rfl, begun_sample,
    Complete.of_perm (((List.reverse_perm _).append_left _).trans (by rw [List.take_append_drop])) 9,
    rfl, rfl⟩

/-- The last of the given events that is an outcome at all. -/
def lastOutcome (events : List (Envelope Work)) : Option (Envelope Work) :=
  (events.filter isOutcome).getLast?

private theorem reported_attempt {action : Action} {job : JobState} {report : Report}
    (told : reported action job = some report) : report.attempt = job.attempts := by
  cases action <;> cases told <;> rfl

/-- Delivered in order, the last outcome is what the register holds, and no
report before it is newer. -/
private theorem latest_in_order {input : CreateJobInput} {first job : Job} {documentId : ID}
    {events : List (Envelope Work)} {last : Envelope Work} (created : Job.create input = .ok first)
    (history : History first job events) (target : documentOf job.toJobState = some documentId)
    (found : lastOutcome events = some last) :
    let kept := (Report.retrying 0).latest (events.filterMap reportOf)
    attemptsOf last = some kept.attempt ∧
      (kept.isRetrying = true ↔ last.type = JobEventType.retried.name) ∧
      ∀ report ∈ events.filterMap reportOf, report.attempt ≤ kept.attempt := by
  induction history with
  | created => cases found
  | @step job events next earlier command time done context ih =>
    obtain ⟨kept, moved⟩ := Command.apply_inv done
    have now := tells_emitted context time kept moved
    have held := latest_fits (history_fits_start created earlier) (history_tells earlier)
    simp only [lastOutcome, List.filter_append, List.filterMap_append] at found ⊢
    rcases now.reads target with ⟨skipped, told⟩ | ⟨counted, report, told, fits, number, retries⟩
    · simp only [skipped, told, List.filter_cons, List.filterMap_cons, List.filter_nil,
        List.filterMap_nil, Bool.false_eq_true, if_false, List.append_nil] at found ⊢
      exact ih ((documentOf_same kept.sameJob).symm.trans target) found
    · have same : last = command.event context time next := by
        simpa [counted, eq_comm] using found
      have current : report.attempt = next.attempts := by
        rw [Tells.reportOf_eq target command context time (SameJob.refl next) rfl] at told
        exact reported_attempt told
      have bound : ∀ each ∈ events.filterMap reportOf ++ [report], each.attempt ≤ report.attempt := by
        intro each member
        rw [current]
        rcases List.mem_append.mp member with before | after
        · obtain ⟨event, present, heard⟩ := List.mem_filterMap.mp before
          exact (((history_tells earlier) event present).advance kept moved).reportOf_fits heard
            |>.attempt_le
        · cases List.mem_singleton.mp after
          exact fits.attempt_le
      have decided := Report.newer_decides (held.pending moved)
        (current ▸ Nat.le_trans held.attempt_le moved.attempts_le)
      simp only [told, List.filterMap_cons, List.filterMap_nil, Report.latest_append, same]
      rw [decided.1, decided.2]
      exact ⟨number, retries, bound⟩

/-- A report the register has seen before leaves it alone exactly when it does
not contradict the one it holds. -/
private theorem newer_eq_iff {job : JobState} {kept new : Report} (held : Fits job kept)
    (fits : Fits job new) (seen : new.attempt ≤ kept.attempt) :
    kept.newer new = kept ↔ (new.attempt = kept.attempt → new.isRetrying = kept.isRetrying) := by
  rcases Nat.lt_or_eq_of_le seen with older | same
  · exact iff_of_true (Report.newer_older older) (fun same => absurd same (Nat.ne_of_lt older))
  · by_cases final : kept.status = .processed
    · refine iff_of_true (Report.newer_final final new) (fun _ => ?_)
      cases kept with
      | succeeded attempt =>
        have success := (fits.succeeded_iff (same.trans held.1)).mpr held.2
        cases new <;> simp_all [Report.status, Report.isRetrying]
      | retrying attempt => cases final
      | failed attempt code => cases final
    · have unfinished : new.status ≠ .processed := by
        intro done
        cases new with
        | succeeded attempt =>
          exact final ((held.succeeded_iff (same.symm.trans fits.1)).mpr fits.2)
        | retrying attempt => cases done
        | failed attempt code => cases done
      simp only [same, forall_const]
      cases kept <;> cases new <;>
        simp_all [Report.status, Report.isRetrying, Report.newer, Report.attempt]

/-- Whether one more delivery changes a document is decided on the register. -/
private theorem redelivered_iff {job : Job} {event : Envelope Work} {document : Document}
    {kept report : Report} (tells : Tells job event) (shown : Shows document job.id kept)
    (told : reportOf event = some report) (time : Int) :
    applyJobEvent document event (some time) = .ok document ↔ kept.newer report = kept := by
  obtain ⟨next, done, shows', unchanged⟩ := tells.delivered shown time
  simp only [told, Option.toList, Report.latest, List.foldl_cons, List.foldl_nil] at shows' unchanged
  rw [done]
  constructor
  · intro same
    cases same
    by_cases final : kept.status = .processed
    · exact Report.newer_final final report
    · exact (shown.unique shows' final).symm
  · intro same
    rw [unchanged same]

/-- Delivering an earlier event again leaves the document alone exactly when the
event is no outcome for it, or does not take the other side, retry or end, of
the last outcome on the same attempt. -/
theorem redelivery_unchanged_iff {input : CreateJobInput} {first final : Job}
    {events : List (Envelope Work)} (created : Job.create input = .ok first)
    (history : History first final events) {document : Document}
    (begun : Begun document first.id) {deliveries : List (Envelope Work × Int)}
    (ordered : deliveries.map Prod.fst <+: events) {event : Envelope Work}
    (again : event ∈ deliveries.map Prod.fst) (time : Int) :
    ∃ reached,
      applyJobEvents document (deliveries.map fun each => (each.1, some each.2)) = .ok reached ∧
      (applyJobEvent reached event (some time) = .ok reached ↔
        documentOf first.toJobState = none ∨ isOutcome event = false ∨
          ∀ last, lastOutcome (deliveries.map Prod.fst) = some last →
            attemptsOf event = attemptsOf last →
            (event.type = JobEventType.retried.name ↔ last.type = JobEventType.retried.name)) := by
  obtain ⟨past, reachedBy⟩ := history.truncate ordered
  have kept := reachedBy.kept
  have tells := history_tells reachedBy
  have start := shows_begun begun.status (kept.id.symm ▸ begun.run) begun.attempt
  obtain ⟨reached, done, shown⟩ := deliveries_shown deliveries start
    (fun delivery member => tells _ (List.mem_map_of_mem member))
  refine ⟨reached, done, ?_⟩
  have harmless : reportOf event = none → applyJobEvent reached event (some time) = .ok reached := by
    intro silent
    obtain ⟨next, same, _, unchanged⟩ := (tells event again).delivered shown time
    rw [silent] at unchanged
    rw [same, unchanged rfl]
  rw [← documentOf_same kept.sameJob]
  cases target : documentOf past.toJobState with
  | none => exact iff_of_true (harmless ((tells event again).silent target)) (.inl rfl)
  | some documentId =>
    rcases (tells event again).reads target with ⟨skipped, silent⟩ | ⟨counted, report, told, fits, number, retries⟩
    · exact iff_of_true (harmless silent) (.inr (.inl skipped))
    · obtain ⟨last, found⟩ : ∃ last, lastOutcome (deliveries.map Prod.fst) = some last :=
        Option.isSome_iff_exists.mp (List.getLast?_isSome.mpr
          (List.ne_nil_of_mem (List.mem_filter.mpr ⟨again, counted⟩)))
      obtain ⟨attempt, waits, newest⟩ := latest_in_order created reachedBy target found
      have held := latest_fits (history_fits_start created reachedBy) tells
      have seen := newest report (List.mem_filterMap.mpr ⟨event, again, told⟩)
      rw [redelivered_iff (tells event again) shown told, newer_eq_iff held fits seen, found, number,
        ← retries]
      rw [Bool.eq_iff_iff]
      simp only [counted, Option.some.injEq, forall_eq', attempt, ← waits, reduceCtorEq, false_or]

private theorem once_ordered (events : List (Envelope Work)) (time : Int) :
    (events.map (·, time)).map Prod.fst <+: events := by
  simp [Function.comp_def]

private theorem once_mem {events : List (Envelope Work)} {event : Envelope Work} (time : Int)
    (present : event ∈ events) : event ∈ (events.map (·, time)).map Prod.fst := by
  simpa using present

/-- A retried job, with its retry delivered a second time. -/
theorem redelivered_retry_unchanged : ∃ (first final : Job) (events : List (Envelope Unit))
    (again : Envelope Unit) (reached : Document),
    createAndPerform sampleContext (sampleInput documentReference) [(sampleCommand .start, 1),
      (sampleCommand .fail, 2), (sampleCommand .retry, 3)] = .ok (first, final, events) ∧
    events.getLast? = some again ∧
    applyJobEvents begunDocument ((events.map (·, 9)).map fun each => (each.1, some each.2)) =
      .ok reached ∧ applyJobEvent reached again (some 10) = .ok reached := by
  have performed : createAndPerform sampleContext (sampleInput documentReference)
    [(sampleCommand .start, 1), (sampleCommand .fail, 2), (sampleCommand .retry, 3)] =
      .ok (_, _, _) := rfl
  obtain ⟨created, history⟩ := createAndPerform_history performed
  obtain ⟨reached, done, precise⟩ := redelivery_unchanged_iff created history begun_sample
    (once_ordered _ 9) (once_mem 9 (List.mem_of_getLast? rfl)) 10
  refine ⟨_, _, _, _, reached, performed, rfl, done, precise.mpr (.inr (.inr ?_))⟩
  intro last found
  obtain rfl : _ = last := Option.some.inj found
  intro _
  rfl

/-- The failure before that retry, delivered a second time, fails the document
again while its job is queued. -/
theorem redelivered_failure_changes : ∃ (first final : Job) (events : List (Envelope Unit))
    (again : Envelope Unit) (reached changed : Document),
    createAndPerform sampleContext (sampleInput documentReference) [(sampleCommand .start, 1),
      (sampleCommand .fail, 2), (sampleCommand .retry, 3)] = .ok (first, final, events) ∧
    Job.create (sampleInput documentReference) = .ok first ∧ History first final events ∧
    Begun begunDocument first.id ∧ again ∈ events ∧
    applyJobEvents begunDocument ((events.map (·, 9)).map fun each => (each.1, some each.2)) =
      .ok reached ∧
    applyJobEvent reached again (some 10) = .ok changed ∧
    reached.status = .processing ∧ changed.status = .processingFailed := by
  have performed : createAndPerform sampleContext (sampleInput documentReference)
    [(sampleCommand .start, 1), (sampleCommand .fail, 2), (sampleCommand .retry, 3)] =
      .ok (_, _, _) := rfl
  obtain ⟨created, history⟩ := createAndPerform_history performed
  exact ⟨_, _, _, _, _, _, performed, created, history, begun_sample,
    List.mem_cons_of_mem _ List.mem_cons_self, rfl, rfl, rfl, rfl⟩

end N2FNest.Workflows
