import N2FNest.Workflows.Reports

/-! What the events of one job tell the document waiting on it, in any order and
however often they arrive. -/

namespace N2FNest.Workflows

open Documents Events Jobs Lib Shared

variable {Work : Type}

/-- The report a transition of a document's job stands for. -/
def reported (action : Action) (job : JobState) : Option Report :=
  match action with
  | .start => none
  | .complete => some (.succeeded job.attempts)
  | .fail => some (.failed job.attempts (job.failureCode.getD (js "job.canceled")))
  | .retry => some (.retrying job.attempts)
  | .cancel => some (.failed job.attempts (job.failureCode.getD (js "job.canceled")))

def reportOf (event : Envelope Work) : Option Report :=
  match decodeJobEvent event with
  | .ok (some outcome) => some outcome.report
  | _ => none

/-- A report that agrees with the job as it stands now. -/
def Fits (job : JobState) : Report → Prop
  | .retrying attempt => attempt ≤ job.attempts ∧ attempt < job.maxAttempts ∧
      (attempt = job.attempts → job.status = .queued ∨ job.status = .canceled)
  | .succeeded attempt => attempt = job.attempts ∧ job.status = .succeeded
  | .failed attempt code => attempt ≤ job.attempts ∧ code.isToken 127 = true ∧
      (attempt = job.attempts → job.status ≠ .running ∧ job.status ≠ .succeeded ∧
        (job.status = .failed → job.failureCode = some code))

theorem Fits.attempt_le {job : JobState} {report : Report} (fits : Fits job report) :
    report.attempt ≤ job.attempts := by
  cases report with
  | retrying attempt => exact fits.1
  | succeeded attempt => exact Nat.le_of_eq fits.1
  | failed attempt code => exact fits.1

theorem Fits.accepted {job : JobState} {report : Report} (fits : Fits job report) :
    report.Accepted := by
  cases report with
  | retrying attempt => trivial
  | succeeded attempt => trivial
  | failed attempt code => exact fits.2.1

theorem Fits.succeeded_iff {job : JobState} {report : Report} (fits : Fits job report)
    (current : report.attempt = job.attempts) :
    report.status = .processed ↔ job.status = .succeeded := by
  cases report with
  | retrying attempt =>
    rcases fits.2.2 current with status | status <;> simp [Report.status, status]
  | succeeded attempt => simp [Report.status, fits.2]
  | failed attempt code => simp [Report.status, (fits.2.2 current).2.1]

theorem Fits.unfinished {job : JobState} {report : Report} (fits : Fits job report)
    (live : job.status ≠ .succeeded) : report.status ≠ .processed := by
  cases report with
  | retrying attempt => simp [Report.status]
  | failed attempt code => simp [Report.status]
  | succeeded attempt => exact absurd fits.2 live

theorem Fits.pending {job next : Job} {action : Action} {report : Report}
    (fits : Fits job.toJobState report) (moved : Advances job next action) :
    report.status ≠ .processed := by
  refine fits.unfinished ?_
  cases moved with
  | cancel live => exact live.1
  | _ => simp [*]

/-- Reports of earlier transitions keep fitting while the job moves on. -/
theorem Fits.advance {job next : Job} {action : Action} {report : Report}
    (fits : Fits job.toJobState report) (kept : Kept job next) (moved : Advances job next action) :
    Fits next.toJobState report := by
  have pending := fits.pending moved
  have grows := moved.attempts_le
  cases report with
  | retrying attempt =>
    obtain ⟨bound, left, open?⟩ := fits
    refine ⟨Nat.le_trans bound grows, by rw [kept.maxAttempts]; exact left, ?_⟩
    intro same
    cases moved with
    | start _ _ _ attempts => omega
    | cancel _ _ status attempts => exact .inr status
    | complete running _ attempts => simp_all
    | fail running _ _ _ _ attempts => simp_all
    | retry failed _ _ attempts => simp_all
  | succeeded attempt => exact absurd rfl pending
  | failed attempt code =>
    obtain ⟨bound, accepted, reason⟩ := fits
    refine ⟨Nat.le_trans bound grows, accepted, ?_⟩
    intro same
    cases moved with
    | start _ _ _ attempts => omega
    | cancel _ _ status attempts => simp [status]
    | complete running _ attempts => simp_all
    | fail running _ _ _ _ attempts => simp_all
    | retry failed _ status attempts => simp [status]

private theorem fits_canceled {job : Job} {code : Option JsString} (status : job.status = .canceled)
    (absent : code = none) :
    Fits job.toJobState (.failed job.attempts (code.getD (js "job.canceled"))) := by
  rw [absent]
  exact ⟨Nat.le_refl _, by decide, fun _ => by simp [status]⟩

/-- The report of a transition fits the job it leads to. -/
theorem fits_reported {job next : Job} {action : Action} {report : Report} (kept : Kept job next)
    (moved : Advances job next action) (told : reported action next.toJobState = some report) :
    Fits next.toJobState report := by
  cases moved with
  | start => cases told
  | complete _ status =>
    cases told
    exact ⟨rfl, status⟩
  | fail _ code accepted reason status =>
    simp only [reported, reason, Option.getD_some, Option.some.injEq] at told
    subst told
    exact ⟨Nat.le_refl _, accepted, fun _ => by simp [status, reason]⟩
  | retry _ left status attempts =>
    cases told
    refine ⟨Nat.le_refl _, ?_, fun _ => .inl status⟩
    rw [attempts, kept.maxAttempts]
    exact left
  | cancel _ absent status =>
    cases told
    exact fits_canceled status absent

theorem documentOf_same {job next : Job} (same : SameJob job next) :
    documentOf next.toJobState = documentOf job.toJobState := by
  simp only [documentOf, same.kind, same.subject]

/-- The outcome a decoded event carries reads as the transition's report. -/
theorem outcomeOf_report {action : Action} {job : JobState} {documentId : ID}
    (target : documentOf job = some documentId) :
    (outcomeOf action job).map JobOutcome.report = reported action job := by
  unfold outcomeOf
  rw [target]
  cases action <;> rfl

theorem outcomeOf_parts {action : Action} {job : JobState} {outcome : JobOutcome}
    (found : outcomeOf action job = some outcome) :
    outcome.jobId = job.id ∧ outcome.organizationId = job.organizationId ∧
      documentOf job = some outcome.documentId ∧ outcome.attempt = job.attempts := by
  unfold outcomeOf at found
  split at found
  · rename_i target
    cases found
    exact ⟨rfl, rfl, target, rfl⟩
  · cases found

/-- An event some transition of this job emitted, as the job stands now. -/
structure Tells (job : Job) (event : Envelope Work) : Prop where
  emitted : ∃ command context time past, event = Command.event command context time past ∧
    SameJob past job ∧
    ∀ report, reported command.action past.toJobState = some report → Fits job.toJobState report

theorem Tells.advance {job next : Job} {action : Action} {event : Envelope Work}
    (tells : Tells job event) (kept : Kept job next) (moved : Advances job next action) :
    Tells next event := by
  obtain ⟨command, context, time, past, same, earlier, fits⟩ := tells.emitted
  exact ⟨command, context, time, past, same, earlier.trans kept.sameJob,
    fun report told => (fits report told).advance kept moved⟩

theorem Tells.saved {job : Job} {event : Envelope Work} (tells : Tells job event) :
    Tells job.saved event := by
  obtain ⟨command, context, time, past, same, earlier, fits⟩ := tells.emitted
  refine ⟨command, context, time, past, same, earlier.trans job.saved_same, ?_⟩
  intro report told
  have fit := fits report told
  cases report <;> exact fit

theorem tells_emitted {job next : Job} {command : Command} (context : EventContext Work) (time : Int)
    (kept : Kept job next) (moved : Advances job next command.action) :
    Tells next (command.event context time next) :=
  ⟨command, context, time, next, rfl, SameJob.refl next, fun _ told => fits_reported kept moved told⟩

theorem history_tells {first job : Job} {events : List (Envelope Work)}
    (history : History first job events) : ∀ event ∈ events, Tells job event := by
  induction history with
  | created => simp
  | step _ command time done context ih =>
    obtain ⟨kept, moved⟩ := Command.apply_inv done
    intro event member
    rcases List.mem_append.mp member with earlier | now
    · exact (ih event earlier).advance kept moved
    · cases List.mem_singleton.mp now
      exact tells_emitted context time kept moved

/-- The start of a job's first run fits the job ever after. -/
theorem history_fits_start {input : CreateJobInput} {first job : Job} {events : List (Envelope Work)}
    (created : Job.create input = .ok first) (history : History first job events) :
    Fits job.toJobState (.retrying 0) := by
  induction history with
  | created =>
    obtain ⟨_, _, _, queued, none, _⟩ := Job.create_inv created
    exact ⟨Nat.zero_le _, first.valid.budget.1, fun _ => .inl queued⟩
  | step _ _ _ done _ ih => exact ih.advance (Command.apply_inv done).1 (Command.apply_inv done).2

/-- What decoding an event of a job gives: nothing or an outcome of that job. -/
theorem Tells.decodes {job : Job} {event : Envelope Work} (tells : Tells job event) :
    ∃ outcome?, decodeJobEvent event = .ok outcome? ∧ ∀ outcome, outcome? = some outcome →
      outcome.jobId = job.id ∧ outcome.organizationId = job.organizationId ∧
        documentOf job.toJobState = some outcome.documentId ∧
        outcome.attempt ≤ 9007199254740991 ∧ Fits job.toJobState outcome.report := by
  obtain ⟨command, context, time, past, same, kept, fits⟩ := tells.emitted
  subst same
  refine ⟨_, decode_event command context time past, ?_⟩
  intro outcome found
  obtain ⟨named, organization, target, attempt⟩ := outcomeOf_parts found
  refine ⟨named.trans kept.id.symm, organization.trans kept.organizationId.symm,
    (documentOf_same kept).trans target, ?_, fits _ ?_⟩
  · rw [attempt]
    exact Nat.le_trans past.valid.attempts (Nat.le_trans past.valid.budget.2 (by decide))
  · rw [← outcomeOf_report target, found]
    rfl

theorem Tells.reportOf_eq {job : Job} {event : Envelope Work} {documentId : ID}
    (target : documentOf job.toJobState = some documentId) (command : Command)
    (context : EventContext Work) (time : Int) {past : Job} (kept : SameJob past job)
    (same : event = command.event context time past) :
    reportOf event = reported command.action past.toJobState := by
  rw [same, reportOf, decode_event, ← outcomeOf_report ((documentOf_same kept).symm.trans target)]
  cases outcomeOf command.action past.toJobState <;> rfl

theorem Tells.reportOf_fits {job : Job} {event : Envelope Work} {report : Report}
    (tells : Tells job event) (told : reportOf event = some report) : Fits job.toJobState report := by
  obtain ⟨outcome?, decoded, about⟩ := tells.decodes
  unfold reportOf at told
  rw [decoded] at told
  cases outcome? with
  | none => cases told
  | some outcome =>
    cases told
    exact (about outcome rfl).2.2.2.2

/-- Whatever of a job's events has arrived, the register fits the job. -/
theorem latest_fits {job : Job} {kept : Report} {events : List (Envelope Work)}
    (start : Fits job.toJobState kept) (tells : ∀ event ∈ events, Tells job event) :
    Fits job.toJobState (kept.latest (events.filterMap reportOf)) := by
  rcases List.mem_cons.mp (Report.latest_mem kept (events.filterMap reportOf)) with same | member
  · rwa [same]
  · obtain ⟨event, present, told⟩ := List.mem_filterMap.mp member
    exact (tells event present).reportOf_fits told

/-- The document shows what `kept` and the given reports leave, and has not
changed unless the report has. -/
def Delivered (document : Document) (run : ID) (kept : Report) (reports : List Report)
    (result : Except Failure Document) : Prop :=
  ∃ next, result = .ok next ∧ Shows next run (kept.latest reports) ∧
    (kept.latest reports = kept → next = document)

theorem Tells.delivered {job : Job} {event : Envelope Work} {document : Document} {kept : Report}
    (tells : Tells job event) (shown : Shows document job.id kept) (time : Int) :
    Delivered document job.id kept (reportOf event).toList
      (applyJobEvent document event (some time)) := by
  obtain ⟨outcome?, decoded, about⟩ := tells.decodes
  unfold Delivered applyJobEvent reportOf
  rw [decoded]
  cases outcome? with
  | none => exact ⟨document, rfl, shown, fun _ => rfl⟩
  | some outcome =>
    obtain ⟨named, _, _, safe, fits⟩ := about outcome rfl
    obtain ⟨next, done, shows', unchanged⟩ := apply_report shown outcome named safe fits.accepted time
    refine ⟨next, ?_, shows', unchanged⟩
    simp only [ok_bind, done]
    rfl

/-- Any sequence of events of the job is accepted, whatever its order and
repetitions. -/
theorem deliveries_shown {job : Job} {document : Document} {kept : Report}
    (deliveries : List (Envelope Work × Int)) (shown : Shows document job.id kept)
    (tells : ∀ delivery ∈ deliveries, Tells job delivery.1) :
    ∃ next, applyJobEvents document (deliveries.map fun each => (each.1, some each.2)) = .ok next ∧
      Shows next job.id (kept.latest ((deliveries.map Prod.fst).filterMap reportOf)) := by
  induction deliveries generalizing document kept with
  | nil => exact ⟨document, rfl, shown⟩
  | cons delivery rest ih =>
    obtain ⟨event, time⟩ := delivery
    obtain ⟨between, done, shows', _⟩ :=
      (tells (event, time) List.mem_cons_self).delivered shown time
    obtain ⟨next, finished, settled⟩ :=
      ih shows' (fun each member => tells each (List.mem_cons_of_mem _ member))
    refine ⟨next, ?_, ?_⟩
    · simp only [List.map_cons, applyJobEvents, done, ok_bind, finished]
    · cases told : reportOf event <;> simpa [told, List.filterMap_cons, Report.latest] using settled

end N2FNest.Workflows
