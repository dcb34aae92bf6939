import N2FNest.Tenancy.Isolation

/-! Authorization. A call does nothing for its caller before it has found the caller's
membership, and nothing an owner or admin is needed for where the role is another. -/

namespace N2FNest.Tenancy

open Documents Events Jobs Lib Organizations Pagination Shared

variable {Work Value : Type}

/-- The session a request is made with. -/
def Request.session : Request Work → Option JsString
  | .createDocument _ sessionToken _ _ _ => some sessionToken
  | .getDocument sessionToken _ => some sessionToken
  | .listDocuments sessionToken _ _ => some sessionToken
  | .archiveDocument _ sessionToken _ _ => some sessionToken
  | .submitJob _ sessionToken _ _ _ => some sessionToken
  | .listJobs sessionToken _ _ => some sessionToken
  | .transitionJob _ _ sessionToken _ _ _ => some sessionToken
  | .requestDocumentProcessing _ sessionToken _ _ _ => some sessionToken
  | .processOutcome _ _ _ _ _ _ _ => none

/-- What only owners and admins may ask. -/
def Request.administrative : Request Work → Bool
  | .archiveDocument .. | .submitJob .. | .transitionJob .. | .requestDocumentProcessing .. => true
  | _ => false

/-- The operations that wait for access, of a request made with a session. -/
def Guarded (request : Request Work) : Op Work → Prop
  | .findAccess _ _ => False
  | _ => request.session ≠ none

/-- The answer that lets a call go on. -/
def Grants (client : Client) (request : Request Work) : (op : Op Work) → op.Answer → Prop
  | .findAccess sessionToken organizationId, answer => request.session = some sessionToken ∧
      organizationId = client.organizationId ∧ ∃ access, answer = .ok (some access) ∧
        (request.administrative = true → access.administers = true)
  | _, _ => False

/-- A program that starts by asking for access, and stops unless it is granted. -/
theorem guarded_findAccess {client : Client} {request : Request Work} {sessionToken : JsString}
    {report : Failure → Failure} {next : Option OrganizationAccess → Program Work Value}
    (session : request.session = some sessionToken)
    (missing : Script.Guarded (Guarded request) (Grants client request) (next none))
    (refused : ∀ access, request.administrative = true → access.administers = false →
      Script.Guarded (Guarded request) (Grants client request) (next (some access))) :
    Script.Guarded (Guarded request) (Grants client request)
      (.await (.findAccess sessionToken client.organizationId) (orReport report next)) := by
  refine ⟨id, ?_⟩
  intro answer
  cases answer with
  | error error => exact .inr trivial
  | ok found =>
    cases found with
    | none => exact .inr missing
    | some access =>
      by_cases granted : request.administrative = true → access.administers = true
      · exact .inl ⟨session, rfl, access, rfl, granted⟩
      · obtain ⟨administrative, refusal⟩ := Classical.not_imp.mp granted
        exact .inr (refused access administrative (by simpa using refusal))

theorem guarded_reply {client : Client} {request : Request Work} {program : Program Work Value}
    {wrap : Value → Reply}
    (guarded : Script.Guarded (Guarded request) (Grants client request) program) :
    Script.Guarded (Guarded request) (Grants client request) (program.reply wrap) := by
  apply Script.Guarded.bind guarded
  intro result
  cases result <;> trivial

/-- A request that members may make is answered for them, one for others only for these. -/
theorem guarded_refused {client : Client} {request : Request Work} {access : OrganizationAccess}
    {error : Failure} {next : Program Work Value} (refused : access.administers = false) :
    Script.Guarded (Guarded request) (Grants client request)
      (if access.administers = false then refuse error else next) := by
  rw [if_pos refused]
  trivial

/-- Every request with a session waits for access. -/
theorem guarded_program (host : JsString → Option Moment) (client : Client)
    (request : Request Work) : Script.Guarded (Guarded request) (Grants client request)
      (program host client.organizationId request) := by
  cases request with
  | createDocument operation sessionToken name storageKey work =>
    apply guarded_reply
    unfold createDocument
    split
    · trivial
    · apply guarded_findAccess rfl
      · trivial
      · exact fun _ administrative => by cases administrative
  | getDocument sessionToken documentId =>
    apply guarded_reply
    apply guarded_findAccess rfl
    · trivial
    · exact fun _ administrative => by cases administrative
  | listDocuments sessionToken limit cursor =>
    apply guarded_reply
    simp only [listDocuments]
    split
    · trivial
    · apply guarded_findAccess rfl
      · trivial
      · exact fun _ administrative => by cases administrative
  | archiveDocument operation sessionToken documentId work =>
    apply guarded_reply
    simp only [archiveDocument]
    split
    · trivial
    · apply guarded_findAccess rfl
      · trivial
      · exact fun access _ refused => guarded_refused refused
  | submitJob operation sessionToken kind maxAttempts work =>
    apply guarded_reply
    simp only [submitJob]
    split
    · trivial
    · apply guarded_findAccess rfl
      · trivial
      · exact fun access _ refused => guarded_refused refused
  | listJobs sessionToken limit cursor =>
    apply guarded_reply
    simp only [listJobs]
    split
    · trivial
    · apply guarded_findAccess rfl
      · trivial
      · exact fun _ administrative => by cases administrative
  | transitionJob action operation sessionToken jobId failureCode work =>
    apply guarded_reply
    simp only [transitionJob]
    split
    · trivial
    · apply guarded_findAccess rfl
      · trivial
      · exact fun access _ refused => guarded_refused refused
  | requestDocumentProcessing operation sessionToken documentId maxAttempts work =>
    apply guarded_reply
    unfold requestDocumentProcessing
    split
    · trivial
    · apply guarded_findAccess rfl
      · trivial
      · exact fun access _ refused => guarded_refused refused
  | processOutcome action operation documentId run attempt failureCode work =>
    apply Script.guarded_of_none
    intro op
    cases op <;> simp [Guarded, Request.session]

variable [DecidableEq Work]

/-- Before the end of a run the call found, in one of its own steps, an active membership
of its caller in the active organization it is made on; for a request of owners and
admins, as one of them. -/
def AuthorizedIn (host : JsString → Option Moment) (workspace : Workspace Work)
    (labels : List (Label Work)) (client : Client) (request : Request Work) : Prop :=
  ∃ before step after sessionToken identityId organization membership,
    labels = before ++ step :: after ∧ request.session = some sessionToken ∧
    let found := run (service host).step (idle workspace) before
    (service host).performed found step = some (client,
      ⟨.findAccess sessionToken client.organizationId,
        .ok (some ⟨client.organizationId, identityId, membership.role⟩)⟩) ∧
    found.world.sessions sessionToken = .ok identityId ∧
    found.world.organizations.get client.organizationId = some organization ∧
    organization.status = .active ∧
    found.world.memberships.get (client.organizationId, identityId) = some membership ∧
    membership.status = .active ∧
    (request.administrative = true → membership.role = .owner ∨ membership.role = .admin)

/-- In every run, whatever a call made with a session awaits besides access itself, it
awaits only after it was authorized. -/
theorem authorized_first (host : JsString → Option Moment) (workspace : Workspace Work)
    (labels : List (Label Work)) (label : Label Work) {client : Client} {op : Op Work}
    {answer : op.Answer} {request : Request Work}
    (performed : (service host).performed (run (service host).step (idle workspace) labels) label =
      some (client, ⟨op, answer⟩))
    (made : asked labels client = some request) (guarded : Guarded request op) :
    AuthorizedIn host workspace labels client request := by
  obtain ⟨_, _, _, waiting, _⟩ := Service.performed_inv performed
  obtain ⟨known, same, guard⟩ := guarded_run (service host) Guarded Grants (idle workspace)
    (fun _ => rfl) (fun client request => guarded_program host client request) labels client _ waiting
  cases made.symm.trans same
  rcases guard with ⟨free, _⟩ | ⟨before, step, after, operation, granted, labels, found, grant⟩
  · exact absurd guarded free
  · cases operation with
    | findAccess sessionToken organizationId =>
      obtain ⟨session, rfl, access, answered, role⟩ := grant
      subst answered
      obtain ⟨input, _, _, _, answer⟩ := Service.performed_inv found
      obtain ⟨identityId, organization, membership, signedIn, held, active, member, standing, same⟩ :=
        findAccess_inv (orFault_ok answer.symm)
      subst same
      refine ⟨before, step, after, sessionToken, identityId, organization, membership, labels,
        session, found, signedIn, held, active, member, standing, ?_⟩
      intro administrative
      simpa [OrganizationAccess.administers] using role administrative
    | _ => exact grant.elim

private def readsClock (client : Client) :
    Option (Client × (operation : Op Unit) × operation.Answer) → Bool
  | some (caller, ⟨.now, _⟩) => caller = client
  | _ => false

private theorem reads_clock {client : Client}
    {performed : Option (Client × (operation : Op Unit) × operation.Answer)}
    (reads : readsClock client performed = true) :
    ∃ time : Int, performed = some (client, ⟨.now, time⟩) := by
  unfold readsClock at reads
  split at reads
  · rename_i caller time
    cases of_decide_eq_true reads
    exact ⟨time, rfl⟩
  · cases reads

/-- Organization 1's owner is authorized before the call reads the clock. -/
theorem interleaved_authorized : AuthorizedIn (fun _ => none) neighbours (interleaved.take 4)
    ⟨ID.numbered 1, 0⟩
    (.createDocument "document.create" (js "one") (.string (js "Plan")) .undefined ()) := by
  let label : Label Unit :=
    .turn ⟨ID.numbered 1, 0⟩ ⟨5, .ok (ID.numbered 5), .ok (), .ok (), none⟩
  let reached := run (service fun _ => none).step (idle neighbours) (interleaved.take 4)
  have reads : readsClock ⟨ID.numbered 1, 0⟩ ((service fun _ => none).performed reached label) = true := by
    decide +kernel
  obtain ⟨time, performed⟩ := reads_clock reads
  refine authorized_first (fun _ => none) neighbours (interleaved.take 4) label performed (by rfl) ?_
  intro read
  cases read

end N2FNest.Tenancy
