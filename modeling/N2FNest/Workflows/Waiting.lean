import N2FNest.Workflows.Deliveries
import N2FNest.Workflows.Requests

/-! No document waits for ever. A document on a finished job has either settled
or still has a closing event of that job to come, unless a begin step came too
late or a retry overtook the job's end. -/

namespace N2FNest.Workflows

open Documents Events Jobs Lib Shared

variable {Work : Type}

/-- The document a delivery leaves in the store. -/
def receive (event : Envelope Work) (time : Int) (document : Document) : Document :=
  match decodeJobEvent event with
  | .ok (some outcome) =>
    processed outcome.organizationId outcome.documentId
      (fun document => document.applyProcessingOutcome (some time) outcome.processing) document
  | _ => document

theorem get_handle (documents : DocumentStore) (event : Envelope Work) (time : Int) (id : ID) :
    ((handle documents event time).toOption.getD documents).get id =
      (documents.get id).map (receive event time) := by
  unfold handle
  cases decoded : decodeJobEvent event with
  | error failure =>
    have same : receive event time = fun document => document := by
      funext document
      simp [receive, decoded]
    simp [same, bind, Except.bind, Except.toOption]
  | ok outcome? =>
    cases outcome? with
    | none =>
      have same : receive event time = fun document => document := by
        funext document
        simp [receive, decoded]
      simp [same, pure, Except.pure, Except.toOption]
    | some outcome =>
      have same : receive event time = processed outcome.organizationId outcome.documentId
          (fun document => document.applyProcessingOutcome (some time) outcome.processing) := by
        funext document
        simp [receive, decoded]
      rw [same]
      exact get_processDocument documents _ _
        (fun document changed done => (Document.apply_same time done).1) id

theorem receive_same (event : Envelope Work) (time : Int) (document : Document) :
    (receive event time document).id = document.id ∧
      (receive event time document).organizationId = document.organizationId := by
  unfold receive processed
  split
  · split
    · split
      · rename_i changed done
        have same := Document.apply_same time done
        split
        · exact ⟨rfl, rfl⟩
        · exact same
      · exact ⟨rfl, rfl⟩
    · exact ⟨rfl, rfl⟩
  · exact ⟨rfl, rfl⟩

private theorem receive_stale {event : Envelope Work} {outcome : JobOutcome} {document : Document}
    (decoded : decodeJobEvent event = .ok (some outcome)) (safe : outcome.attempt ≤ 9007199254740991)
    (stale : document.isStale outcome.jobId outcome.attempt = true) (time : Int) :
    receive event time document = document := by
  have read : outcome.processing.attempt.safeNat? = some outcome.attempt :=
    JsNumber.safeNat?_ofNat safe
  have unchanged : document.applyProcessingOutcome (some time) outcome.processing = .ok document :=
    Document.apply_stale time read stale
  simp [receive, decoded, processed, unchanged]

private theorem Shows.saved {document : Document} {run : ID} {report : Report}
    (shown : Shows document run report) : Shows document.saved run report :=
  ⟨shown.run, shown.status, shown.code, shown.attempt⟩

/-- A document on a run that has reported shows a report of it. -/
private theorem shows_of_run {document : Document} {run : ID}
    (waiting : document.processingRun = some run)
    (live : document.status = .processing ∨ document.status = .processingFailed ∨
      document.status = .processed) : ∃ report, Shows document run report := by
  have shape := document.valid.lifecycle
  unfold DocumentState.Lifecycle at shape
  rcases live with status | status | status <;> simp only [status] at shape
  · exact ⟨.retrying document.processingAttempt, waiting, status, shape.2, fun _ => rfl⟩
  · obtain ⟨code, reason⟩ := Option.ne_none_iff_exists'.mp shape.2
    exact ⟨.failed document.processingAttempt code, waiting, status, reason, fun _ => rfl⟩
  · exact ⟨.succeeded document.processingAttempt, waiting, status, shape.2, fun _ => rfl⟩

/-- A document on its job's run receives the job's reports as a register does. -/
private theorem receive_shows {job : Job} {event : Envelope Work} {document : Document}
    {kept : Report} (tells : Tells job event) (shown : Shows document job.id kept)
    (target : documentOf job.toJobState = some document.id)
    (organization : job.organizationId = document.organizationId) (time : Int) :
    Shows (receive event time document) job.id (kept.latest (reportOf event).toList) := by
  obtain ⟨outcome?, decoded, about⟩ := tells.decodes
  unfold receive reportOf
  rw [decoded]
  cases outcome? with
  | none => exact shown
  | some outcome =>
    obtain ⟨named, owner, addressed, safe, fits⟩ := about outcome rfl
    have same : outcome.documentId = document.id := Option.some.inj (addressed.symm.trans target)
    obtain ⟨next, done, shows', unchanged⟩ := apply_report shown outcome named safe fits.accepted time
    simp only [processed, same, owner, organization, and_self, if_true, done]
    split
    · rename_i identical
      rw [identical] at shows'
      exact shows'
    · exact shows'.saved

/-- An event that ends the job's last attempt. -/
def Closes (job : Job) (event : Envelope Work) : Prop :=
  ∃ outcome, decodeJobEvent event = .ok (some outcome) ∧ outcome.jobId = job.id ∧
    outcome.attempt = job.attempts ∧ outcome.action ≠ .retry

/-- A closing event of the job that has not been delivered. -/
def Outstanding (posted : List (Posted Work)) (job : Job) : Prop :=
  ∃ post ∈ posted, post.delivered = false ∧ Closes job post.event

/-- The document no longer waits on this finished job. -/
def Settled (document : Document) (job : Job) : Prop :=
  document.status ≠ .processing ∧
    (document.status = .processingFailed → document.processingAttempt = job.attempts)

/-- A document and the job it is on. -/
structure Follows (posted : List (Posted Work)) (document : Document) (job : Job) : Prop where
  target : documentOf job.toJobState = some document.id
  organization : job.organizationId = document.organizationId
  attempt : document.status ≠ .processed → document.processingAttempt ≤ job.attempts
  settled : job.isOpen = false → Settled document job ∨ Outstanding posted job

structure Protocol.Sound (state : Protocol Work) : Prop where
  waiting : ∀ id document, state.documents.get id = some document →
    ∀ run, document.processingRun = some run →
      ∃ job, state.jobs.get run = some job ∧ Follows state.posted document job
  unbegun : ∀ id document, state.documents.get id = some document →
    document.processingRun = none → document.status = .active
  submitted : ∀ request organizationId documentId jobId,
    state.requests request = .submitted organizationId documentId jobId →
      ∃ job, state.jobs.get jobId = some job ∧ documentOf job.toJobState = some documentId ∧
        job.organizationId = organizationId
  posted : ∀ post ∈ state.posted, decodeJobEvent post.event = .ok none ∨
    ∃ id job, state.jobs.get id = some job ∧ Tells job post.event

private theorem closes_reads {job : Job} {event : Envelope Work} (closes : Closes job event) :
    ∃ report, reportOf event = some report ∧ report.attempt = job.attempts ∧
      report.isRetrying = false := by
  obtain ⟨outcome, decoded, _, attempt, action⟩ := closes
  refine ⟨outcome.report, by simp [reportOf, decoded], ?_, ?_⟩
  · rw [outcome.report_attempt, attempt]
  · cases kind : outcome.action with
    | retry => exact absurd kind action
    | complete => simp [JobOutcome.report, kind, Report.isRetrying]
    | fail code => simp [JobOutcome.report, kind, Report.isRetrying]

private theorem settled_of_shows {document : Document} {job : Job} {report : Report}
    (shown : Shows document job.id report) (ended : report.isRetrying = false)
    (last : report.status ≠ .processed → report.attempt = job.attempts) : Settled document job := by
  constructor
  · rw [shown.status]
    cases report <;> simp_all [Report.status, Report.isRetrying]
  · intro failed
    have pending : document.status ≠ .processed := by simp [failed]
    rw [shown.attempt pending]
    exact last (shown.status ▸ pending)

/-- Receiving a closing event settles the document. -/
private theorem receive_closing {job : Job} {event : Envelope Work} {document : Document}
    {kept : Report} (tells : Tells job event) (shown : Shows document job.id kept)
    (target : documentOf job.toJobState = some document.id)
    (organization : job.organizationId = document.organizationId)
    (bound : document.status ≠ .processed → document.processingAttempt ≤ job.attempts)
    (closes : Closes job event) (time : Int) : Settled (receive event time document) job := by
  obtain ⟨report, told, attempt, ended⟩ := closes_reads closes
  have received := receive_shows tells shown target organization time
  simp only [told, Option.toList, Report.latest, List.foldl_cons, List.foldl_nil] at received
  by_cases final : kept.status = .processed
  · rw [Report.newer_final final] at received
    refine settled_of_shows received ?_ (fun pending => absurd final pending)
    cases kept <;> simp_all [Report.status, Report.isRetrying]
  · have pending : document.status ≠ .processed := by
      rw [shown.status]
      exact final
    have current : kept.attempt ≤ report.attempt := by
      rw [attempt, ← shown.attempt pending]
      exact bound pending
    obtain ⟨attempts, retrying⟩ := Report.newer_decides final current
    exact settled_of_shows received (retrying.trans ended) (fun _ => attempts.trans attempt)

/-- A settled document stays settled, unless a retry of the job's last attempt
arrives. -/
private theorem receive_settled {job : Job} {event : Envelope Work} {document : Document}
    {kept : Report} (tells : Tells job event) (shown : Shows document job.id kept)
    (target : documentOf job.toJobState = some document.id)
    (organization : job.organizationId = document.organizationId) (settled : Settled document job)
    (calm : ∀ report, reportOf event = some report → document.status = .processingFailed →
      report.attempt = job.attempts → report.isRetrying = false) (time : Int) :
    Settled (receive event time document) job := by
  have received := receive_shows tells shown target organization time
  have ended : kept.isRetrying = false := by
    have waits := settled.1
    rw [shown.status] at waits
    cases kept <;> simp_all [Report.status, Report.isRetrying]
  have last : kept.status ≠ .processed → kept.attempt = job.attempts := by
    intro pending
    have live : document.status ≠ .processed := by
      rw [shown.status]
      exact pending
    rw [← shown.attempt live]
    apply settled.2
    rw [shown.status]
    cases kept <;> simp_all [Report.status, Report.isRetrying]
  cases told : reportOf event with
  | none =>
    simp only [told, Option.toList, Report.latest, List.foldl_nil] at received
    exact settled_of_shows received ended last
  | some report =>
    simp only [told, Option.toList, Report.latest, List.foldl_cons, List.foldl_nil] at received
    by_cases final : kept.status = .processed
    · rw [Report.newer_final final] at received
      exact settled_of_shows received ended last
    · rcases Nat.lt_or_eq_of_le (tells.reportOf_fits told).attempt_le with older | same
      · rw [Report.newer_older (by rw [last final]; exact older)] at received
        exact settled_of_shows received ended last
      · have failed : document.status = .processingFailed := by
          rw [shown.status]
          cases kept <;> simp_all [Report.status, Report.isRetrying]
        obtain ⟨attempts, retrying⟩ := Report.newer_decides final (Nat.le_of_eq ((last final).trans same.symm))
        exact settled_of_shows received (retrying.trans (calm report told failed same))
          (fun _ => attempts.trans same)

private theorem Follows.mono {posted more : List (Posted Work)} {document : Document} {job : Job}
    (follows : Follows posted document job) (grows : ∀ post ∈ posted, post ∈ more) :
    Follows more document job where
  target := follows.target
  organization := follows.organization
  attempt := follows.attempt
  settled := by
    intro closed
    rcases follows.settled closed with settled | ⟨post, member, pending⟩
    · exact .inl settled
    · exact .inr ⟨post, grows post member, pending⟩

private theorem mem_post_of_mem (state : Protocol Work) (events : List (Envelope Work)) :
    ∀ post ∈ state.posted, post ∈ state.post events :=
  fun _ member => List.mem_append_left _ member

/-- The event of a transition that finishes a document's job closes it. -/
private theorem closes_emitted {job next : Job} {command : Command} {documentId : ID}
    (context : EventContext Work) (time : Int) (moved : Advances job next command.action)
    (closed : next.isOpen = false) (target : documentOf next.toJobState = some documentId) :
    Closes next.saved (command.event context time next) := by
  have shut : ¬ next.isOpen = true := by simp [closed]
  rw [JobState.isOpen_iff] at shut
  have ends : ∃ ending, outcomeAction command.action next.toJobState = some ending ∧
      ending ≠ .retry := by
    generalize command.action = action at moved
    cases moved with
    | start _ _ status => exact absurd (.inr (.inl status)) shut
    | retry _ _ status => exact absurd (.inl status) shut
    | complete => exact ⟨_, rfl, by simp⟩
    | fail => exact ⟨_, rfl, by simp⟩
    | cancel => exact ⟨_, rfl, by simp⟩
  obtain ⟨ending, same, different⟩ := ends
  refine ⟨⟨next.organizationId, documentId, next.id, next.attempts, ending⟩, ?_, rfl, rfl, different⟩
  rw [decode_event, outcomeOf, same, target]

/-- A job moves on and posts its event; everything about other jobs stays. -/
private theorem Protocol.Sound.advance {state : Protocol Work} (sound : state.Sound) {id : ID}
    {job next : Job} {command : Command} {time : Int} (found : state.jobs.get id = some job)
    (done : command.apply job (some time) = .ok next) (context : EventContext Work) :
    Sound { state with
      jobs := state.jobs.set next.saved
      posted := state.post [command.event context time next] } := by
  obtain ⟨kept, moved⟩ := Command.apply_inv done
  have same : SameJob job next.saved := kept.sameJob.trans next.saved_same
  have named : job.id = id := JobStore.id_of_get found
  have grows := mem_post_of_mem state [command.event context time next]
  have held : ∀ other stored, state.jobs.get other = some stored →
      (state.jobs.set next.saved).get other = some (if other = id then next.saved else stored) := by
    intro other stored present
    rw [Table.get_set]
    by_cases here : other = id
    · rw [if_pos here, if_pos (by rw [here, ← named]; exact same.id)]
    · rw [if_neg here, if_neg (fun also => here (by rw [← also, ← named]; exact same.id)), present]
  have emitted : (⟨command.event context time next, false⟩ : Posted Work) ∈
      state.post [command.event context time next] :=
    List.mem_append_right _ List.mem_cons_self
  refine ⟨?_, sound.unbegun, ?_, ?_⟩
  · intro key document present run waiting
    obtain ⟨stored, there, follows⟩ := sound.waiting key document present run waiting
    refine ⟨_, held run stored there, ?_⟩
    by_cases here : run = id
    · have current : stored = job := Option.some.inj ((here ▸ there).symm.trans found)
      subst current
      rw [if_pos here]
      have target := (documentOf_same same).trans follows.target
      refine ⟨target, same.organizationId.trans follows.organization, ?_, ?_⟩
      · exact fun pending => Nat.le_trans (follows.attempt pending) moved.attempts_le
      · intro closed
        exact .inr ⟨_, emitted, rfl, closes_emitted context time moved closed target⟩
    · rw [if_neg here]
      exact follows.mono grows
  · intro request organizationId documentId jobId asked
    obtain ⟨stored, there, target, organization⟩ :=
      sound.submitted request organizationId documentId jobId asked
    refine ⟨_, held jobId stored there, ?_⟩
    by_cases here : jobId = id
    · have current : stored = job := Option.some.inj ((here ▸ there).symm.trans found)
      subst current
      rw [if_pos here]
      exact ⟨(documentOf_same same).trans target, same.organizationId.trans organization⟩
    · rw [if_neg here]
      exact ⟨target, organization⟩
  · intro post member
    rcases List.mem_append.mp member with earlier | now
    · rcases sound.posted post earlier with silent | ⟨other, stored, there, tells⟩
      · exact .inl silent
      · refine .inr ⟨other, _, held other stored there, ?_⟩
        by_cases here : other = id
        · have current : stored = job := Option.some.inj ((here ▸ there).symm.trans found)
          subst current
          rw [if_pos here]
          exact (tells.advance kept moved).saved
        · rw [if_neg here]
          exact tells
    · cases List.mem_singleton.mp now
      refine .inr ⟨id, next.saved, ?_, (tells_emitted context time kept moved).saved⟩
      have there := held id job found
      rwa [if_pos rfl] at there

/-- A request changes its stage. -/
private theorem Protocol.Sound.request {state : Protocol Work} (sound : state.Sound) (request : Nat)
    {stage : Stage}
    (named : ∀ organizationId documentId jobId, stage = .submitted organizationId documentId jobId →
      ∃ job, state.jobs.get jobId = some job ∧ documentOf job.toJobState = some documentId ∧
        job.organizationId = organizationId) :
    Sound { state with requests := Function.update state.requests request stage } := by
  refine ⟨sound.waiting, sound.unbegun, ?_, sound.posted⟩
  intro other organizationId documentId jobId asked
  by_cases same : other = request
  · subst same
    simp only [Function.update_self] at asked
    exact named organizationId documentId jobId asked
  · simp only [Function.update_of_ne same] at asked
    exact sound.submitted other organizationId documentId jobId asked

private theorem decode_submitted (context : EventContext Work) (time : Int) (job : Job)
    (payload : JsObject) : decodeJobEvent (jobEvent context .submitted time job payload) = .ok none := by
  rfl

/-- A new job joins and posts its submission, which no document acts on. -/
private theorem Protocol.Sound.join {state : Protocol Work} (sound : state.Sound) {job : Job}
    (fresh : state.jobs.get job.id = none) (context : EventContext Work) (time : Int)
    (payload : JsObject) :
    Sound { state with
      jobs := state.jobs.set job.saved
      posted := state.post [jobEvent context .submitted time job payload] } := by
  have held : ∀ other stored, state.jobs.get other = some stored →
      (state.jobs.set job.saved).get other = some stored := by
    intro other stored present
    refine (Table.get_set_other state.jobs ?_).trans present
    intro same
    have named : job.id = other := same
    rw [named, present] at fresh
    cases fresh
  refine ⟨?_, sound.unbegun, ?_, ?_⟩
  · intro key document present run waiting
    obtain ⟨stored, there, follows⟩ := sound.waiting key document present run waiting
    exact ⟨stored, held run stored there, follows.mono (mem_post_of_mem state _)⟩
  · intro request organizationId documentId jobId asked
    obtain ⟨stored, there, about⟩ := sound.submitted request organizationId documentId jobId asked
    exact ⟨stored, held jobId stored there, about⟩
  · intro post member
    rcases List.mem_append.mp member with earlier | now
    · rcases sound.posted post earlier with silent | ⟨other, stored, there, tells⟩
      · exact .inl silent
      · exact .inr ⟨other, stored, held other stored there, tells⟩
    · cases List.mem_singleton.mp now
      exact .inl (decode_submitted context time job payload)

/-- One document changes, and follows the job it is then on. -/
private theorem Protocol.Sound.replace {state : Protocol Work} (sound : state.Sound)
    {next : Document} {run : ID} {job : Job} (waiting : next.processingRun = some run)
    (present : state.jobs.get run = some job) (follows : Follows state.posted next job) :
    Sound { state with documents := state.documents.set next } := by
  refine ⟨?_, ?_, sound.submitted, sound.posted⟩
  · intro key stored there other on
    rcases Table.get_set_cases there with new | old
    · subst new
      cases waiting.symm.trans on
      exact ⟨job, present, follows⟩
    · exact sound.waiting key stored old other on
  · intro key stored there idle
    rcases Table.get_set_cases there with new | old
    · subst new
      cases waiting.symm.trans idle
    · exact sound.unbegun key stored old idle

private theorem Protocol.Sound.upload {state : Protocol Work} (sound : state.Sound)
    (input : CreateDocumentInput) : (state.upload input).Sound := by
  unfold Protocol.upload
  split
  · rename_i document created absent
    obtain ⟨idle, unstarted⟩ := Document.create_inv created
    refine ⟨?_, ?_, sound.submitted, sound.posted⟩
    · intro key stored present run waiting
      rcases Table.get_set_cases present with new | old
      · subst new
        have none : document.processingRun = some run := waiting
        rw [unstarted] at none
        cases none
      · exact sound.waiting key stored old run waiting
    · intro key stored present idle'
      rcases Table.get_set_cases present with new | old
      · subst new
        exact idle
      · exact sound.unbegun key stored old idle'
  · exact sound

private theorem documentOf_submitted {job : Job} {documentId : ID}
    (kind : job.kind = DOCUMENT_PROCESSING_JOB_KIND)
    (about : job.subject = some ⟨js "document", documentId⟩) :
    documentOf job.toJobState = some documentId := by
  simp [documentOf, kind, about]

private theorem Protocol.Sound.submit [DecidableEq Work] {state : Protocol Work}
    (sound : state.Sound) (request : Nat) (jobId : ID) (context : EventContext Work) (time : Int) :
    (state.submit request jobId context time).Sound := by
  unfold Protocol.submit
  split
  · rename_i organizationId documentId maxAttempts asked
    split
    · rename_i submitted jobs events done
      obtain ⟨job, named, organization, kind, about, outcome⟩ := submitWorkflowJob_inv done
      have target := documentOf_submitted kind about
      rcases outcome with ⟨member, same, none⟩ | ⟨retried, member, again, same, one⟩ | ⟨fresh, same, one⟩
      · subst same none
        have posted : state.post [] = state.posted := by simp [Protocol.post]
        rw [posted]
        refine sound.request request ?_
        intro _ _ _ stage
        cases stage
        exact ⟨job, named ▸ Table.get_of_mem member, target, organization⟩
      · subst same one
        have moved := sound.advance (Table.get_of_mem member) again context
        refine moved.request request ?_
        intro _ _ _ stage
        cases stage
        have kept := (Command.apply_inv again).1.sameJob.trans retried.saved_same
        refine ⟨retried.saved, ?_, (documentOf_same kept).trans target,
          kept.organizationId.trans organization⟩
        rw [named, ← kept.id]
        exact Table.get_set_same state.jobs retried.saved
      · subst same one
        have joined := sound.join fresh context time (SubmitWorkflowJob.payload job)
        refine joined.request request ?_
        intro _ _ _ stage
        cases stage
        refine ⟨job.saved, ?_, target, organization⟩
        rw [named]
        exact Table.get_set_same state.jobs job.saved
    · refine sound.request request ?_
      intro _ _ _ stage
      cases stage
  · exact sound

private theorem Protocol.Sound.transition [DecidableEq Work] {state : Protocol Work}
    (sound : state.Sound) (jobId : ID) (command : Command) (context : EventContext Work) (time : Int) :
    (state.transition jobId command context time).Sound := by
  unfold Protocol.transition
  split
  · exact sound
  · rename_i job found
    split
    · exact sound
    · rename_i next done
      dsimp only
      split
      · rename_i jobs committed
        rw [(JobStore.commit_inv committed).1]
        exact sound.advance found done context
      · exact sound

private theorem Protocol.Sound.check {state : Protocol Work} (sound : state.Sound) (request : Nat)
    (organizationId documentId : ID) (maxAttempts : JsValue) :
    (state.check request organizationId documentId maxAttempts).Sound := by
  unfold Protocol.check
  split
  · refine sound.request request ?_
    intro _ _ _ stage
    cases stage
  · exact sound

/-- Two steps can leave a document waiting for nothing. A document must not start
to wait on a job that has finished meanwhile, unless an event that ends the job's
last attempt is still to be delivered; and once every event that ends a
finished job's last attempt has been delivered, the failed document must not
receive the retry of that attempt. -/
def Protocol.Careful (state : Protocol Work) : ProtocolLabel Work → Prop
  | .beginProcessing request time => ∀ organizationId documentId jobId document job,
      state.requests request = .submitted organizationId documentId jobId →
      state.documents.get documentId = some document →
      document.organizationId = organizationId → document.Begins time jobId →
      state.jobs.get jobId = some job → job.isOpen = true ∨ Outstanding state.posted job
  | .deliver index _ => ∀ post outcome document job, state.posted[index]? = some post →
      decodeJobEvent post.event = .ok (some outcome) → outcome.action = .retry →
      state.documents.get outcome.documentId = some document →
      document.processingRun = some outcome.jobId → document.status = .processingFailed →
      state.jobs.get outcome.jobId = some job → job.isOpen = false →
      outcome.attempt = job.attempts → Outstanding state.posted job
  | _ => True

private theorem Protocol.Sound.begin {state : Protocol Work} (sound : state.Sound) (request : Nat)
    (time : Int) (careful : state.Careful (.beginProcessing request time)) :
    (state.beginProcessing request time).Sound := by
  unfold Protocol.beginProcessing
  split
  · rename_i organizationId documentId jobId asked
    have ended : ∀ other : Protocol Work, other.Sound →
        Sound { other with requests := Function.update other.requests request .idle } := by
      intro other sound
      refine sound.request request ?_
      intro _ _ _ stage
      cases stage
    dsimp only
    split
    · rename_i documents done
      obtain ⟨document, changed, found, organization, moved, same⟩ := processDocument_inv done
      rcases Document.beginProcessing_inv time moved with ⟨unchanged, _⟩ | ⟨begins, next⟩
      · rw [if_pos unchanged] at same
        subst same
        exact ended state sound
      · obtain ⟨job, submitted, target, owner⟩ := sound.submitted _ _ _ _ asked
        have opened := careful _ _ _ document job asked found organization begins submitted
        have differs : changed ≠ document := by
          intro identical
          rw [identical] at next
          exact begins.2.2.2 ⟨by rw [next], by rw [next]⟩
        rw [if_neg differs] at same
        subst same
        have fields : changed.id = document.id ∧ changed.organizationId = document.organizationId ∧
            changed.processingRun = some jobId ∧ changed.processingAttempt = 0 := by
          rw [next]
          exact ⟨rfl, rfl, rfl, rfl⟩
        obtain ⟨named, owned, on, attempt⟩ := fields
        refine ended { state with documents := state.documents.set changed.saved }
          (sound.replace on submitted ⟨?_, ?_, ?_, fun closed => ?_⟩)
        · exact target.trans (congrArg some ((named.trans (DocumentStore.id_of_get found)).symm))
        · exact owner.trans (owned.trans organization).symm
        · exact fun _ => (Nat.le_of_eq attempt).trans (Nat.zero_le _)
        · rcases opened with live | outstanding
          · rw [live] at closed
            cases closed
          · exact .inr outstanding
    · exact ended state sound
  · exact sound

section Deliver

variable {state : Protocol Work} {index : Nat} {post : Posted Work} {document : Document} {job : Job}

private theorem Outstanding.deliver (outstanding : Outstanding state.posted job)
    (present : state.posted[index]? = some post) (open? : ¬ Closes job post.event) :
    Outstanding (state.posted.set index { post with delivered := true }) job := by
  obtain ⟨other, member, pending, closes⟩ := outstanding
  refine ⟨other, ?_, pending, closes⟩
  obtain ⟨position, there⟩ := List.mem_iff_getElem?.mp member
  refine List.mem_iff_getElem?.mpr ⟨position, ?_⟩
  rw [List.getElem?_set_ne, there]
  intro same
  subst same
  cases present.symm.trans there
  exact open? closes

/-- A delivery the document has no use for leaves it as it is. -/
private theorem receive_unmoved (sound : state.Sound) (present : state.posted[index]? = some post)
    (stale : ∀ outcome, decodeJobEvent post.event = .ok (some outcome) →
      document.isStale outcome.jobId outcome.attempt = true) (time : Int) :
    receive post.event time document = document := by
  rcases sound.posted post (List.mem_of_getElem? present) with silent | ⟨id, teller, _, tells⟩
  · simp [receive, silent]
  · obtain ⟨outcome?, decoded, about⟩ := tells.decodes
    cases outcome? with
    | none => simp [receive, decoded]
    | some outcome =>
      exact receive_stale decoded (about outcome rfl).2.2.2.1 (stale outcome decoded) time

/-- A delivery about the document's own job, while the document is on it. -/
private theorem Follows.receive (follows : Follows state.posted document job)
    (tells : Tells job post.event) (present : state.posted[index]? = some post) {kept : Report}
    (shown : Shows document job.id kept) (found : state.documents.get document.id = some document)
    (stored : state.jobs.get job.id = some job) {time : Int}
    (careful : state.Careful (.deliver index time)) :
    Follows (state.posted.set index { post with delivered := true })
      (receive post.event time document) job := by
  obtain ⟨named, owned⟩ := receive_same post.event time document
  have received := receive_shows tells shown follows.target follows.organization time
  refine ⟨by rw [named, follows.target], by rw [owned, follows.organization], ?_, ?_⟩
  · intro pending
    rw [received.attempt pending]
    rcases List.mem_cons.mp (Report.latest_mem kept (reportOf post.event).toList) with same | new
    · have live : document.status ≠ .processed := by
        rw [shown.status, ← same, ← received.status]
        exact pending
      rw [same, ← shown.attempt live]
      exact follows.attempt live
    · exact (tells.reportOf_fits (Option.mem_toList.mp new)).attempt_le
  · intro closed
    by_cases closes : Closes job post.event
    · exact .inl (receive_closing tells shown follows.target follows.organization follows.attempt
        closes time)
    · rcases follows.settled closed with settled | outstanding
      · by_cases calm : ∀ report, reportOf post.event = some report →
            document.status = .processingFailed → report.attempt = job.attempts →
            report.isRetrying = false
        · exact .inl (receive_settled tells shown follows.target follows.organization settled calm
            time)
        · push Not at calm
          obtain ⟨report, told, failed, current, retrying⟩ := calm
          obtain ⟨outcome?, decoded, about⟩ := tells.decodes
          cases outcome? with
          | none => simp [reportOf, decoded] at told
          | some outcome =>
            have same : outcome.report = report := by simpa [reportOf, decoded] using told
            subst same
            obtain ⟨jobNamed, _, target, _⟩ := about outcome rfl
            have addressed : outcome.documentId = document.id :=
              Option.some.inj (target.symm.trans follows.target)
            have action : outcome.action = .retry := by
              cases kind : outcome.action <;>
                simp [JobOutcome.report, kind, Report.isRetrying] at retrying ⊢
            have outstanding := careful post outcome document job present decoded action
              (addressed ▸ found) (jobNamed ▸ shown.run) failed (jobNamed ▸ stored) closed
              (by rw [← outcome.report_attempt, current])
            exact .inr (outstanding.deliver present closes)
      · exact .inr (outstanding.deliver present closes)

/-- A document the delivery did not touch follows its job still, unless the
delivery was the one outstanding. -/
private theorem Follows.unmoved (follows : Follows state.posted document job)
    (present : state.posted[index]? = some post)
    (harmless : Closes job post.event → Settled document job) :
    Follows (state.posted.set index { post with delivered := true }) document job := by
  refine ⟨follows.target, follows.organization, follows.attempt, fun closed => ?_⟩
  by_cases closes : Closes job post.event
  · exact .inl (harmless closes)
  · rcases follows.settled closed with settled | outstanding
    · exact .inl settled
    · exact .inr (outstanding.deliver present closes)

/-- What a delivery leaves of a document: as it was while on no run, and else
following the job it is on. -/
private theorem Protocol.Sound.received (sound : state.Sound)
    (present : state.posted[index]? = some post) {time : Int}
    (careful : state.Careful (.deliver index time))
    (found : state.documents.get document.id = some document) :
    (document.processingRun = none ∧ receive post.event time document = document) ∨
      ∃ run job, (receive post.event time document).processingRun = some run ∧
        state.jobs.get run = some job ∧
        Follows (state.posted.set index { post with delivered := true })
          (receive post.event time document) job := by
  cases on : document.processingRun with
  | none =>
    have idle := sound.unbegun _ document found on
    refine .inl ⟨rfl, receive_unmoved sound present ?_ time⟩
    intro outcome _
    simp [Document.isStale, idle]
  | some held =>
    right
    obtain ⟨job, stored, follows⟩ := sound.waiting _ document found held on
    have named := JobStore.id_of_get stored
    have unmoved : receive post.event time document = document →
        (Closes job post.event → Settled document job) →
        ∃ run job, (receive post.event time document).processingRun = some run ∧
          state.jobs.get run = some job ∧
          Follows (state.posted.set index { post with delivered := true })
            (receive post.event time document) job := by
      intro same harmless
      rw [same]
      exact ⟨held, job, on, stored, follows.unmoved present harmless⟩
    by_cases mine : ∃ outcome, decodeJobEvent post.event = .ok (some outcome) ∧ outcome.jobId = held
    · by_cases live : document.status = .processing ∨ document.status = .processingFailed ∨
          document.status = .processed
      · obtain ⟨outcome, decoded, about⟩ := mine
        have tells : Tells job post.event := by
          rcases sound.posted post (List.mem_of_getElem? present) with silent | ⟨id, teller, there, tells⟩
          · cases decoded.symm.trans silent
          · obtain ⟨outcome?, also, reads⟩ := tells.decodes
            cases decoded.symm.trans also
            have key : id = held := by
              rw [← about, (reads outcome rfl).1, JobStore.id_of_get there]
            rw [key, stored] at there
            cases there
            exact tells
        obtain ⟨kept, shown⟩ := shows_of_run (named.symm ▸ on) live
        have after := follows.receive tells present shown found (named.symm ▸ stored) careful
        exact ⟨job.id, job, (receive_shows tells shown follows.target follows.organization time).run,
          named.symm ▸ stored, after⟩
      · obtain ⟨unprocessing, unfailed, _⟩ : document.status ≠ .processing ∧
            document.status ≠ .processingFailed ∧ document.status ≠ .processed := by
          simpa [not_or] using live
        refine unmoved (receive_unmoved sound present ?_ time)
          (fun _ => ⟨unprocessing, fun failed => absurd failed unfailed⟩)
        intro outcome _
        cases status : document.status <;> simp_all [Document.isStale]
    · refine unmoved (receive_unmoved sound present ?_ time) ?_
      · intro outcome decoded
        have other : ¬ held = outcome.jobId := fun same => mine ⟨outcome, decoded, same.symm⟩
        simp [Document.isStale, Document.sameRun, on, other]
      · rintro ⟨outcome, decoded, same, _⟩
        exact absurd ⟨outcome, decoded, same.trans named⟩ mine

private theorem Protocol.Sound.deliver (sound : state.Sound) {time : Int}
    (careful : state.Careful (.deliver index time)) : (state.deliver index time).Sound := by
  unfold Protocol.deliver
  split
  · exact sound
  · rename_i post present
    have before : ∀ id document, ((handle state.documents post.event time).toOption.getD
        state.documents).get id = some document →
        ∃ earlier, state.documents.get earlier.id = some earlier ∧
          document = receive post.event time earlier := by
      intro id document found
      rw [get_handle] at found
      obtain ⟨earlier, stored, same⟩ := Option.map_eq_some_iff.mp found
      have named := DocumentStore.id_of_get stored
      exact ⟨earlier, named.symm ▸ stored, same.symm⟩
    refine ⟨?_, ?_, sound.submitted, ?_⟩
    · intro id document found run waiting
      obtain ⟨earlier, stored, same⟩ := before id document found
      subst same
      rcases sound.received present careful stored with ⟨none, same⟩ | ⟨on, job, there, held, follows⟩
      · rw [same, none] at waiting
        cases waiting
      · cases there.symm.trans waiting
        exact ⟨job, held, follows⟩
    · intro id document found idle
      obtain ⟨earlier, stored, same⟩ := before id document found
      subst same
      rcases sound.received present careful stored with ⟨none, same⟩ | ⟨on, job, there, _⟩
      · rw [same]
        exact sound.unbegun _ earlier stored none
      · cases there.symm.trans idle
    · intro other member
      rcases List.mem_or_eq_of_mem_set member with kept | same
      · exact sound.posted other kept
      · subst same
        exact sound.posted post (List.mem_of_getElem? present)

end Deliver

variable [DecidableEq Work]

private theorem Protocol.Sound.step {state : Protocol Work} (sound : state.Sound)
    {label : ProtocolLabel Work} (careful : state.Careful label) : (state.step label).Sound := by
  cases label with
  | upload input => exact sound.upload input
  | check request organizationId documentId maxAttempts =>
    exact sound.check request organizationId documentId maxAttempts
  | submit request jobId context time => exact sound.submit request jobId context time
  | beginProcessing request time => exact sound.begin request time careful
  | transition jobId command context time => exact sound.transition jobId command context time
  | deliver index time => exact sound.deliver careful

omit [DecidableEq Work] in
private theorem Protocol.sound_initial : (initial : Protocol Work).Sound := by
  constructor <;> simp [initial]

/-- No request is between its submit and its begin, and every event has been
delivered. -/
structure Protocol.Quiescent (state : Protocol Work) : Prop where
  requests : ∀ request organizationId documentId jobId,
    state.requests request ≠ .submitted organizationId documentId jobId
  posted : ∀ post ∈ state.posted, post.delivered = true

/-- In a quiescent state of a careful run, a processing document waits on an open
job. -/
theorem no_document_stranded (labels : List (ProtocolLabel Work))
    (along : Along Protocol.step Protocol.Careful Protocol.initial labels)
    (quiescent : (run Protocol.step Protocol.initial labels).Quiescent) {id : ID}
    {document : Document}
    (found : (run Protocol.step Protocol.initial labels).documents.get id = some document)
    (processing : document.status = .processing) {jobId : ID}
    (waiting : document.processingRun = some jobId) :
    ∃ job, (run Protocol.step Protocol.initial labels).jobs.get jobId = some job ∧
      job.isOpen = true := by
  have sound : (run Protocol.step Protocol.initial labels).Sound :=
    along.invariant (fun _ _ sound careful => sound.step careful) Protocol.sound_initial
  obtain ⟨job, stored, follows⟩ := sound.waiting id document found jobId waiting
  refine ⟨job, stored, ?_⟩
  cases opened : job.isOpen with
  | true => rfl
  | false =>
    rcases follows.settled opened with settled | ⟨post, member, pending, _⟩
    · exact absurd processing settled.1
    · rw [quiescent.posted post member] at pending
      cases pending

/-- A document is uploaded and a request for it checks and submits. -/
def requested : List (ProtocolLabel Unit) :=
  [.upload {
      id := ID.numbered 1
      organizationId := ID.numbered 0
      name := .string (js "invoice")
      storageKey := .undefined
      createdAt := some 0 },
    .check 0 (ID.numbered 0) (ID.numbered 1) .undefined,
    .submit 0 (ID.numbered 2) ⟨ID.numbered 3, ()⟩ 1]

private theorem requests_idle {requests : Nat → Stage} {checked submitted : Stage}
    (same : requests = Function.update (Function.update (Function.update (fun _ => .idle) 0 checked)
      0 submitted) 0 .idle) : ∀ request organizationId documentId jobId,
    requests request ≠ .submitted organizationId documentId jobId := by
  intro request organizationId documentId jobId
  rw [same]
  by_cases first : request = 0 <;> simp [first]

/-- The request begins at once and its submission is delivered. -/
theorem begun_document_waits : ∃ document job,
    let state := run Protocol.step Protocol.initial
      (requested ++ [.beginProcessing 0 2, .deliver 0 3])
    state.documents.get (ID.numbered 1) = some document ∧ document.status = .processing ∧
      document.processingRun = some (ID.numbered 2) ∧
      state.jobs.get (ID.numbered 2) = some job ∧ job.isOpen = true := by
  have along : Along Protocol.step Protocol.Careful Protocol.initial
      (requested ++ [.beginProcessing 0 2, .deliver 0 3]) := by
    refine ⟨trivial, trivial, trivial, ?_, ?_, trivial⟩
    · intro organizationId documentId jobId document job asked _ _ _ stored
      cases asked
      cases stored
      exact .inl rfl
    · intro post outcome document job present decoded
      cases present
      cases decoded
  have quiescent : (run Protocol.step Protocol.initial
      (requested ++ [.beginProcessing 0 2, .deliver 0 3])).Quiescent := by
    constructor
    · exact requests_idle rfl
    · intro post member
      cases List.mem_singleton.mp member
      rfl
  have found : (run Protocol.step Protocol.initial
      (requested ++ [.beginProcessing 0 2, .deliver 0 3])).documents.get (ID.numbered 1) = some _ := rfl
  obtain ⟨job, stored, opened⟩ := no_document_stranded _ along quiescent found rfl rfl
  exact ⟨_, job, found, rfl, rfl, stored, opened⟩

/-- The job finishes, and all its events are delivered, before the request
begins. -/
theorem late_begin_strands : ∃ document job,
    let state := run Protocol.step Protocol.initial (requested ++
      [.transition (ID.numbered 2) (.transition .start (ID.numbered 9) .undefined) ⟨ID.numbered 4, ()⟩ 2,
        .transition (ID.numbered 2) (.transition .complete (ID.numbered 9) .undefined)
          ⟨ID.numbered 5, ()⟩ 3,
        .deliver 0 4, .deliver 1 4, .deliver 2 4, .beginProcessing 0 5])
    state.Quiescent ∧ state.documents.get (ID.numbered 1) = some document ∧
      document.status = .processing ∧ document.processingRun = some (ID.numbered 2) ∧
      state.jobs.get (ID.numbered 2) = some job ∧ job.isOpen = false := by
  refine ⟨_, _, ⟨?_, ?_⟩, rfl, rfl, rfl, rfl, rfl⟩
  · exact requests_idle rfl
  · decide

end N2FNest.Workflows
