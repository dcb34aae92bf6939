import N2FNest.Documents.Transitions
import N2FNest.Tenancy.Requests

/-! Every request keeps to one organization: it names that organization in each operation,
commits only the organization's own rows and events, and answers a row of another
organization as it answers none. -/

namespace N2FNest.Tenancy

open Documents Events Jobs Lib Organizations Pagination Shared

variable {Work Value : Type} (owner : ID → ID) (organizationId : ID)

/-- An operation that keeps to an organization; `owner` says which organization an
identifier belongs to. -/
def Permitted : Op Work → Prop
  | .now | .newId | .childWork _ _ | .envelope _ | .findDocument _ | .findJob _ => True
  | .findAccess _ named => named = organizationId
  | .listDocuments named _ => named = organizationId
  | .findOpenJob named _ _ => named = organizationId
  | .listJobs named _ => named = organizationId
  | .commitDocument input => input.row.organizationId = organizationId ∧
      owner input.row.id = organizationId ∧ input.event.tenant = some organizationId ∧
      owner input.event.id = organizationId
  | .commitJob input => input.row.organizationId = organizationId ∧
      owner input.row.id = organizationId ∧ input.event.tenant = some organizationId ∧
      owner input.event.id = organizationId

/-- A row of another organization is found in the whole table, and none in the slice. -/
def AlikeRow {Row : Type} (id organization : Row → ID) (answer other : Except Failure (Option Row)) :
    Prop :=
  answer = other ∧
      (∀ row, answer = .ok (some row) → organization row = organizationId →
        owner (id row) = organizationId) ∨
    ∃ row, answer = .ok (some row) ∧ organization row ≠ organizationId ∧ other = .ok none

/-- The answers the whole workspace and the organization's slice can give. -/
def Alike : (op : Op Work) → op.Answer → op.Answer → Prop
  | .newId, answer, other => answer = other ∧ ∀ id, answer = .ok id → owner id = organizationId
  | .findDocument _, answer, other =>
    AlikeRow owner organizationId (fun row => row.id) (fun row => row.organizationId) answer other
  | .findJob _, answer, other =>
    AlikeRow owner organizationId (fun row => row.id) (fun row => row.organizationId) answer other
  | .findOpenJob _ _ _, answer, other => answer = other ∧ ∀ job, answer = .ok (some job) →
      job.organizationId = organizationId ∧ owner job.id = organizationId
  | .now, answer, other => answer = other
  | .childWork _ _, answer, other => answer = other
  | .envelope _, answer, other => answer = other
  | .findAccess _ _, answer, other => answer = other
  | .listDocuments _ _, answer, other => answer = other
  | .commitDocument _, answer, other => answer = other
  | .listJobs _ _, answer, other => answer = other
  | .commitJob _, answer, other => answer = other

abbrev Confined (program : Program Work Value) : Prop :=
  Script.Confined (Permitted owner organizationId) (Alike owner organizationId) program

variable {owner organizationId}

theorem confined_refuse {error : Failure} :
    Confined owner organizationId (refuse error : Program Work Value) := trivial

theorem confined_orReport {Given : Type} {report : Failure → Failure}
    {next : Given → Program Work Value} {answer : Except Failure Given}
    (later : ∀ given, answer = .ok given → Confined owner organizationId (next given)) :
    Confined owner organizationId (orReport report next answer) := by
  cases answer with
  | ok given => exact later given rfl
  | error error => exact confined_refuse

/-- An operation whose answers are alike only where they are the same. -/
theorem confined_await {op : Op Work} {next : op.Answer → Program Work Value}
    (permitted : Permitted owner organizationId op)
    (same : ∀ answer other, Alike owner organizationId op answer other → answer = other)
    (later : ∀ answer, Alike owner organizationId op answer answer →
      Confined owner organizationId (next answer)) :
    Confined owner organizationId (.await op next) := by
  refine ⟨permitted, ?_⟩
  intro answer other alike
  obtain rfl := same answer other alike
  exact ⟨rfl, later answer alike⟩

theorem confined_newId {report : Failure → Failure} {next : ID → Program Work Value}
    (later : ∀ id, owner id = organizationId → Confined owner organizationId (next id)) :
    Confined owner organizationId (.await .newId (orReport report next)) := by
  apply confined_await
  · trivial
  · intro _ _ alike
    exact alike.1
  · intro answer alike
    apply confined_orReport
    intro id drawn
    exact later id (alike.2 id drawn)

theorem confined_now {next : Int → Program Work Value}
    (later : ∀ time, Confined owner organizationId (next time)) :
    Confined owner organizationId (.await .now next) := by
  apply confined_await
  · trivial
  · intro _ _ same
    exact same
  · intro time _
    exact later time

theorem confined_envelope {event : Envelope Work} {report : Failure → Failure}
    {next : Unit → Program Work Value}
    (later : ∀ checked, Confined owner organizationId (next checked)) :
    Confined owner organizationId (.await (.envelope event) (orReport report next)) := by
  apply confined_await
  · trivial
  · intro _ _ same
    exact same
  · intro answer _
    apply confined_orReport
    intro checked _
    exact later checked

theorem confined_childWork {parent : Work} {operation : String} {report : Failure → Failure}
    {next : Work → Program Work Value}
    (later : ∀ work, Confined owner organizationId (next work)) :
    Confined owner organizationId (.await (.childWork parent operation) (orReport report next)) := by
  apply confined_await
  · trivial
  · intro _ _ same
    exact same
  · intro answer _
    apply confined_orReport
    intro work _
    exact later work

theorem confined_andThen {Given : Type} {program : Program Work Given}
    {next : Given → Program Work Value} (confined : Confined owner organizationId program)
    (later : ∀ given, Confined owner organizationId (next given)) :
    Confined owner organizationId (program.andThen next) := by
  apply confined.bind
  intro result
  apply confined_orReport
  intro given _
  exact later given

/-- The check of the organization makes a row of another one look like no row. -/
theorem confined_ownRow {Row : Type} {id organization : Row → ID} {missing : Failure}
    {report : Failure → Failure} {next : Row → Program Work Value}
    {answer other : Except Failure (Option Row)}
    (alike : AlikeRow owner organizationId id organization answer other)
    (later : ∀ row, organization row = organizationId → owner (id row) = organizationId →
      Confined owner organizationId (next row)) :
    orReport report (ownRow organization organizationId missing next) answer =
        orReport report (ownRow organization organizationId missing next) other ∧
      Confined owner organizationId
        (orReport report (ownRow organization organizationId missing next) answer) := by
  rcases alike with ⟨rfl, owned⟩ | ⟨row, rfl, foreign, rfl⟩
  · refine ⟨rfl, ?_⟩
    apply confined_orReport
    intro found answered
    cases found with
    | none => exact confined_refuse
    | some row =>
      unfold ownRow
      dsimp only
      split
      · exact confined_refuse
      · rename_i mine
        have mine := not_not.mp mine
        exact later row mine (owned row answered mine)
  · have refused : ownRow organization organizationId missing next (some row) = refuse missing :=
      if_pos foreign
    refine ⟨refused, ?_⟩
    rw [orReport, refused]
    exact confined_refuse

theorem confined_findDocument {documentId : ID} {next : Document → Program Work Value}
    (later : ∀ document, document.organizationId = organizationId →
      owner document.id = organizationId → Confined owner organizationId (next document)) :
    Confined owner organizationId (.await (.findDocument documentId)
      (orReport documentDependency (ownDocument organizationId next))) := by
  refine ⟨trivial, ?_⟩
  intro answer other alike
  exact confined_ownRow alike later

theorem confined_commitWithEvent {mode : CommitMode} {document : Document} {type : String}
    {time : Int} {work : Work} {payload : JsObject} {result : Value}
    (organization : document.organizationId = organizationId)
    (owned : owner document.id = organizationId) :
    Confined owner organizationId
      (commitWithEvent mode document type time work payload result) := by
  apply confined_newId
  intro eventId drawn
  apply confined_envelope
  intro _
  apply confined_await
  · exact ⟨organization, owned, congrArg some organization, drawn⟩
  · intro _ _ same
    exact same
  · intro committed _
    apply confined_orReport
    intro _ _
    trivial

/-- Every request first asks for access to the organization. -/
theorem confined_findAccess {sessionToken : JsString} {report : Failure → Failure}
    {next : Option OrganizationAccess → Program Work Value}
    (later : ∀ access, Confined owner organizationId (next access)) :
    Confined owner organizationId
      (.await (.findAccess sessionToken organizationId) (orReport report next)) := by
  apply confined_await
  · rfl
  · intro _ _ same
    exact same
  · intro answer _
    apply confined_orReport
    intro access _
    exact later access

theorem confined_createDocument (operation : String) (sessionToken : JsString)
    (name storageKey : JsValue) (work : Work) : Confined owner organizationId
      (createDocument operation sessionToken organizationId name storageKey work) := by
  unfold createDocument
  split
  · exact confined_refuse
  · apply confined_findAccess
    intro access
    cases access with
    | none => exact confined_refuse
    | some access =>
      apply confined_now
      intro createdAt
      apply confined_newId
      intro documentId drawn
      split
      · exact confined_refuse
      · rename_i document created
        obtain ⟨named, organization, _⟩ := Document.create_names created
        exact confined_commitWithEvent organization (named ▸ drawn)

theorem confined_getDocument (sessionToken : JsString) (documentId : ID) :
    Confined owner organizationId
      (getDocument sessionToken organizationId documentId : Program Work Document) := by
  apply confined_findAccess
  intro access
  cases access with
  | none => exact confined_refuse
  | some access =>
    apply confined_findDocument
    intro document _ _
    trivial

theorem confined_listDocuments (host : JsString → Option Moment) (sessionToken : JsString)
    (limit cursor : Option JsString) : Confined owner organizationId
      (listDocuments host sessionToken organizationId limit cursor : Program Work _) := by
  simp only [listDocuments]
  split
  · exact confined_refuse
  · apply confined_findAccess
    intro access
    cases access with
    | none => exact confined_refuse
    | some access =>
      apply confined_await
      · rfl
      · intro _ _ same
        exact same
      · intro answer _
        apply confined_orReport
        intro _ _
        trivial

theorem confined_archiveDocument (operation : String) (sessionToken : JsString) (documentId : ID)
    (work : Work) : Confined owner organizationId
      (archiveDocument operation sessionToken organizationId documentId work) := by
  simp only [archiveDocument]
  split
  · exact confined_refuse
  · apply confined_findAccess
    intro access
    cases access with
    | none => exact confined_refuse
    | some access =>
      dsimp only
      split
      · exact confined_refuse
      · apply confined_findDocument
        intro current mine owned
        apply confined_now
        intro archivedAt
        split
        · exact confined_refuse
        · rename_i archived done
          have same := Document.archive_same done
          exact confined_commitWithEvent (same.organizationId.trans mine) (same.id ▸ owned)

theorem confined_checkDocumentProcessable (documentId : ID) : Confined owner organizationId
    (checkDocumentProcessable organizationId documentId : Program Work Unit) := by
  apply confined_findDocument
  intro document _ _
  split
  · exact confined_refuse
  · split
    · exact confined_refuse
    · trivial

theorem Processing.transition_same {action : Processing} {document next : Document} {time : Int}
    {run : ID} {attempt : Option JsNumber} {failureCode : JsValue}
    (done : action.transition document time run attempt failureCode = .ok next) :
    SameDocument document next := by
  cases action with
  | begin =>
    have begun : document.beginProcessing (some time) run = .ok next := done
    exact Document.beginProcessing_same begun
  | retry | complete | fail =>
    have applied : document.applyProcessingOutcome (some time)
        ⟨run, attempt.getD (.ofNat 0), _, failureCode⟩ = .ok next := done
    exact Document.applyProcessingOutcome_same applied

theorem confined_processDocument (action : Processing) (operation : String) (documentId run : ID)
    (attempt : Option JsNumber) (failureCode : JsValue) (work : Work) :
    Confined owner organizationId
      (processDocument action operation organizationId documentId run attempt failureCode work) := by
  unfold processDocument
  split
  · exact confined_refuse
  · apply confined_findDocument
    intro current mine owned
    apply confined_now
    intro time
    split
    · exact confined_refuse
    · rename_i changed done
      have same := Processing.transition_same done
      split
      · trivial
      · exact confined_commitWithEvent (same.organizationId.trans mine) (same.id ▸ owned)

theorem confined_commitJobWithEvent {mode : CommitMode} {job : Job} {type : JobEventType}
    {time : Int} {work : Work} {payload : JsObject} {failed : Failure → Program Work Value}
    {result : Value} (organization : job.organizationId = organizationId)
    (owned : owner job.id = organizationId)
    (reported : ∀ error, Confined owner organizationId (failed error)) :
    Confined owner organizationId
      (commitJobWithEvent mode job type time work payload failed result) := by
  apply confined_newId
  intro eventId drawn
  apply confined_envelope
  intro _
  apply confined_await
  · exact ⟨organization, owned, congrArg some organization, drawn⟩
  · intro _ _ same
    exact same
  · intro committed _
    cases committed with
    | ok _ => trivial
    | error error => exact reported error

theorem confined_submitJob (operation : String) (sessionToken : JsString)
    (kind maxAttempts : JsValue) (work : Work) : Confined owner organizationId
      (submitJob operation sessionToken organizationId kind maxAttempts work) := by
  simp only [submitJob]
  split
  · exact confined_refuse
  · apply confined_findAccess
    intro access
    cases access with
    | none => exact confined_refuse
    | some access =>
      dsimp only
      split
      · exact confined_refuse
      · apply confined_now
        intro createdAt
        apply confined_newId
        intro jobId drawn
        split
        · exact confined_refuse
        · rename_i job created
          obtain ⟨named, organization, _⟩ := Job.create_inv created
          exact confined_commitJobWithEvent organization (named ▸ drawn) fun _ => confined_refuse

theorem confined_listJobs (host : JsString → Option Moment) (sessionToken : JsString)
    (limit cursor : Option JsString) : Confined owner organizationId
      (listJobs host sessionToken organizationId limit cursor : Program Work _) := by
  simp only [listJobs]
  split
  · exact confined_refuse
  · apply confined_findAccess
    intro access
    cases access with
    | none => exact confined_refuse
    | some access =>
      apply confined_await
      · rfl
      · intro _ _ same
        exact same
      · intro answer _
        apply confined_orReport
        intro _ _
        trivial

theorem confined_transitionJob (action : Action) (operation : String) (sessionToken : JsString)
    (jobId : ID) (failureCode : JsValue) (work : Work) : Confined owner organizationId
      (transitionJob action operation sessionToken organizationId jobId failureCode work) := by
  simp only [transitionJob]
  split
  · exact confined_refuse
  · apply confined_findAccess
    intro access
    cases access with
    | none => exact confined_refuse
    | some access =>
      dsimp only
      split
      · exact confined_refuse
      · refine ⟨trivial, ?_⟩
        intro answer other alike
        refine confined_ownRow alike ?_
        intro current mine owned
        apply confined_now
        intro time
        split
        · exact confined_refuse
        · rename_i changed done
          have kept := (transition_inv done).1
          exact confined_commitJobWithEvent (kept.organizationId.trans mine) (kept.id ▸ owned)
            fun _ => confined_refuse

theorem confined_reuse {job : Job} (mine : job.organizationId = organizationId)
    (owned : owner job.id = organizationId) (work : Work) :
    Confined owner organizationId (reuse job work) := by
  unfold reuse
  split
  · trivial
  · apply confined_now
    intro time
    split
    · exact confined_refuse
    · rename_i retried done
      have kept := (Job.retry_inv done).1
      exact confined_commitJobWithEvent (kept.organizationId.trans mine) (kept.id ▸ owned)
        fun _ => confined_refuse

theorem confined_findOpenJob {kind : JsString} {subject : JobSubject} {report : Failure → Failure}
    {next : Option Job → Program Work Value} (missing : Confined owner organizationId (next none))
    (found : ∀ job, job.organizationId = organizationId → owner job.id = organizationId →
      Confined owner organizationId (next (some job))) :
    Confined owner organizationId
      (.await (.findOpenJob organizationId kind subject) (orReport report next)) := by
  apply confined_await
  · rfl
  · intro _ _ alike
    exact alike.1
  · intro answer alike
    apply confined_orReport
    intro held answered
    cases held with
    | none => exact missing
    | some job =>
      obtain ⟨mine, owned⟩ := alike.2 job answered
      exact found job mine owned

theorem confined_submitWorkflowJob (operation : String) (kind : JsString) (subject : JobSubject)
    (maxAttempts : JsValue) (work : Work) : Confined owner organizationId
      (submitWorkflowJob operation organizationId kind subject maxAttempts work) := by
  unfold submitWorkflowJob
  split
  · exact confined_refuse
  · apply confined_findOpenJob
    · apply confined_now
      intro createdAt
      apply confined_newId
      intro jobId drawn
      split
      · exact confined_refuse
      · rename_i job created
        obtain ⟨named, organization, _⟩ := Job.create_inv created
        apply confined_commitJobWithEvent organization (named ▸ drawn)
        intro error
        dsimp only
        split
        · apply confined_findOpenJob
          · exact confined_refuse
          · intro winner mine owned
            exact confined_reuse mine owned work
        · exact confined_refuse
    · intro job mine owned
      exact confined_reuse mine owned work

theorem confined_requestDocumentProcessing (operation : String) (sessionToken : JsString)
    (documentId : ID) (maxAttempts : JsValue) (work : Work) : Confined owner organizationId
      (requestDocumentProcessing operation sessionToken organizationId documentId maxAttempts
        work) := by
  unfold requestDocumentProcessing
  split
  · exact confined_refuse
  · apply confined_findAccess
    intro access
    cases access with
    | none => exact confined_refuse
    | some access =>
      dsimp only
      split
      · exact confined_refuse
      · apply confined_andThen (confined_checkDocumentProcessable documentId)
        intro _
        apply confined_childWork
        intro jobWork
        apply confined_andThen (confined_submitWorkflowJob _ _ _ _ _)
        intro submitted
        apply confined_childWork
        intro beginWork
        apply confined_andThen (confined_processDocument _ _ _ _ _ _ _)
        intro begun
        trivial

/-- Whatever is asked on an organization keeps to it. -/
theorem confined_program (host : JsString → Option Moment) (request : Request Work) :
    Confined owner organizationId (program host organizationId request) := by
  cases request with
  | createDocument => exact confined_andThen (confined_createDocument _ _ _ _ _) fun _ => trivial
  | getDocument => exact confined_andThen (confined_getDocument _ _) fun _ => trivial
  | listDocuments => exact confined_andThen (confined_listDocuments _ _ _ _) fun _ => trivial
  | archiveDocument => exact confined_andThen (confined_archiveDocument _ _ _ _) fun _ => trivial
  | submitJob => exact confined_andThen (confined_submitJob _ _ _ _ _) fun _ => trivial
  | listJobs => exact confined_andThen (confined_listJobs _ _ _ _) fun _ => trivial
  | transitionJob => exact confined_andThen (confined_transitionJob _ _ _ _ _ _) fun _ => trivial
  | requestDocumentProcessing =>
    exact confined_andThen (confined_requestDocumentProcessing _ _ _ _ _) fun _ => trivial
  | processOutcome => exact confined_andThen (confined_processDocument _ _ _ _ _ _ _) fun _ => trivial

end N2FNest.Tenancy
