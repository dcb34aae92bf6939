import N2FNest.Identities.Growth

/-! What a request without a session discloses. Whatever accounts there are and whatever
other requests do meanwhile, its answer and its calls of the password codec follow from the
request. -/

namespace N2FNest.Identities

open Events Lib Shared

variable {Work : Type} [DecidableEq Work]

/-- A call of `PasswordHasher` or `PasswordVerifier`. What it costs is the codec's own: the
first decoy of a process derives two keys, and a hash it cannot read none. -/
def AccountOp.asksCodec : AccountOp Work → Bool
  | .hashPassword _ | .verifyPassword _ _ | .verifyDecoy _ => true
  | _ => false

/-- How often a call asked the password codec, and the one address it mailed. -/
structure Spends (count : Nat) (address : Except Failure JsString) (taken : List (AccountOp Work)) :
    Prop where
  asked : taken.countP AccountOp.asksCodec = count
  mailed : ∀ mail, .send mail ∈ taken → address = .ok mail.address

omit [DecidableEq Work] in
theorem Spends.concat {count : Nat} {address : Except Failure JsString}
    {taken : List (AccountOp Work)} (spends : Spends count address taken) {op : AccountOp Work}
    {more : Nat} (costs : (if op.asksCodec then 1 else 0) = more)
    (mailed : ∀ mail, op = .send mail → address = .ok mail.address) :
    Spends (count + more) address (taken ++ [op]) := by
  constructor
  · rw [List.countP_append, spends.asked, List.countP_singleton, costs]
  · intro mail member
    rcases List.mem_append.mp member with before | last
    · exact spends.mailed mail before
    · exact mailed mail (List.mem_singleton.mp last).symm

omit [DecidableEq Work] in
theorem Spends.quiet {count : Nat} {address : Except Failure JsString}
    {taken : List (AccountOp Work)} (spends : Spends count address taken) {op : AccountOp Work}
    (free : op.asksCodec = false) (mailed : ∀ mail, op = .send mail → address = .ok mail.address) :
    Spends count address (taken ++ [op]) := by
  have costs : (if op.asksCodec then 1 else 0) = 0 := by
    rw [free]
    rfl
  exact spends.concat costs mailed

omit [DecidableEq Work] in
theorem Spends.ask {count : Nat} {address : Except Failure JsString}
    {taken : List (AccountOp Work)} (spends : Spends count address taken) {op : AccountOp Work}
    (asks : op.asksCodec = true) (mailed : ∀ mail, op = .send mail → address = .ok mail.address) :
    Spends (count + 1) address (taken ++ [op]) := by
  have costs : (if op.asksCodec then 1 else 0) = 1 := by
    rw [asks]
    rfl
  exact spends.concat costs mailed

section Programs

variable {host : Host} {settles : host.Settles} {expiry : Int → Except Failure JsDate} {Client : Type}
  {start directory : Directory Work} {taken : List (AccountOp Work)} {count : Nat}
  {address : Except Failure JsString} {Value : Type} {report : Failure → Failure}
  {ends : Directory Work → Except Failure Value → List (AccountOp Work) → Prop}

/-- A program from a directory on, among any others. -/
abbrev Goes (settles : host.Settles) (expiry : Int → Except Failure JsDate) (Client : Type)
    (start : Directory Work) (ends : Directory Work → Except Failure Value → List (AccountOp Work) → Prop)
    (program : AccountProgram Work Value) (directory : Directory Work)
    (taken : List (AccountOp Work)) : Prop :=
  program.Leads (accountConduct settles expiry Client start) ends directory taken

/-- An operation whose answer is a value, and goes on with it. -/
private theorem answered {Given : Type} {result : Except Failure Given}
    {next : Given → AccountProgram Work Value} (given : result.isOk = true)
    (onward : ∀ value, result = .ok value →
      Goes settles expiry Client start ends (next value) directory taken) :
    Goes settles expiry Client start ends (AccountProgram.orReport report next result) directory taken := by
  cases result with
  | ok value => exact onward value rfl
  | error error => cases given

/-- What the checks of the request alone come to, and the calls of the password codec behind them. -/
def signUpOutcome (toLowerCase : JsString → JsString) (email : JsValue) (password : JsString) :
    Except Failure Unit × Nat :=
  if password.length = 0 then (.error emptyPassword, 0)
  else match validatePassword password with
    | .error error => (.error (dependencyFailure error), 0)
    | .ok () => match normalizeEmail toLowerCase email with
      | .error error => (.error error, 0)
      | .ok address =>
        (if address.asColumn = none then .error (dependencyFailure databaseFailed) else .ok (), 1)

/-- What a request that only mails comes to, and the calls of the password codec behind it. -/
def AsExpected (outcome : Except Failure Unit × Nat) (address : Except Failure JsString)
    (result : Except Failure MailedResult) (taken : List (AccountOp Work)) : Prop :=
  result.map (fun _ => ()) = outcome.1 ∧ Spends outcome.2 address taken

omit [DecidableEq Work] in
private theorem accepted (outcome : Except Failure Unit × Nat) {result : Except Failure MailedResult}
    (good : outcome.1 = .ok ())
    (mailed : (∃ mailed, result = .ok mailed) ∧ Spends outcome.2 address taken) :
    AsExpected outcome address result taken := by
  obtain ⟨⟨mailed, rfl⟩, spends⟩ := mailed
  exact ⟨good.symm, spends⟩

/-- What the checks of the address alone come to. -/
def mailOutcome (toLowerCase : JsString → JsString) (email : JsValue) : Except Failure Unit × Nat :=
  match normalizeEmail toLowerCase email with
  | .error error => (.error error, 0)
  | .ok address => (if address.asColumn = none then .error (dependencyFailure databaseFailed) else .ok (), 0)

/-- A stored credential, as an address finds it with its identity. -/
structure Directory.Holds (directory : Directory Work) (address : JsString)
    (record : CredentialAuthenticationRecord) (row : CredentialRow) : Prop where
  email : address.asColumn = some row.email
  member : row ∈ directory.credentials.rows
  passwordHash : row.passwordHash = record.passwordHash
  active : row.status = .active
  identity : directory.identities.get row.identityId = some record.identity.toIdentityState

/-- Neither a call of the password codec nor mail, and nothing registered. -/
def AccountOp.Quiet : AccountOp Work → Prop
  | .hashPassword _ | .verifyPassword _ _ | .verifyDecoy _ | .commitRegistration _ | .send _ => False
  | _ => True

abbrev Quietly (program : AccountProgram Work Value) : Prop :=
  program.Confined AccountOp.Quiet fun _ => Eq

theorem Quietly.goes {program : AccountProgram Work Value} (quietly : Quietly program)
    (spends : Spends count address taken) :
    Goes settles expiry Client start (fun _ _ taken => Spends count address taken) program directory
      taken := by
  refine Script.Confined.leads quietly ?_ ?_ spends
  · intro op quiet
    cases op with
    | commitRegistration input => cases quiet
    | _ => trivial
  · intro op taken quiet spends
    cases op with
    | hashPassword _ | verifyPassword _ _ | verifyDecoy _ | commitRegistration _ | send _ => cases quiet
    | _ => exact spends.quiet rfl nofun

/-- What a login comes to whose password is not the one of an active account, and the password
work behind it. -/
def loginOutcome (toLowerCase : JsString → JsString) (email : JsValue) (password : JsString) :
    Failure × Nat :=
  if PASSWORD_MAX_LENGTH < password.length then (invalidCredentials, 0)
  else match normalizeEmail toLowerCase email with
    | .error _ => (invalidCredentials, 0)
    | .ok address =>
      if address.asColumn = none then (dependencyFailure databaseFailed, 0) else (invalidCredentials, 1)

omit [DecidableEq Work] in
/-- The credential of an active identity is no new one. -/
theorem Directory.Holds.old {later : Directory Work} {email : JsString}
    {record : CredentialAuthenticationRecord} {row : CredentialRow} (holds : later.Holds email record row)
    (sound : start.Sound host) (grows : start.Grows later) (active : record.identity.status = .active) :
    row ∈ start.credentials.rows ∧ ∃ identity,
      start.identities.get row.identityId = some identity ∧ identity.status = .active := by
  rcases grows.pending row holds.member with old | ⟨identity, found, pending⟩
  · obtain ⟨identity, found⟩ := sound.owned row old
    have kept := grows.kept _ _ found
    rw [holds.identity] at kept
    refine ⟨old, identity, found, ?_⟩
    rw [← Option.some.inj kept]
    exact active
  · rw [holds.identity] at found
    rw [← Option.some.inj found] at pending
    rw [show record.identity.toIdentityState.status = record.identity.status from rfl, active] at pending
    cases pending

end Programs

def AccountRequest.email : AccountRequest Work → JsValue
  | .register email _ _ | .resend email _ | .reset email _ | .login email _ _ => email

/-- The answer to anyone who asks, and the calls of the password codec behind it. -/
def AccountRequest.outcome (toLowerCase : JsString → JsString) :
    AccountRequest Work → Except Failure AccountAnswer × Nat
  | .register email password _ =>
    let outcome := signUpOutcome toLowerCase email password
    (outcome.1.map fun _ => .accepted, outcome.2)
  | .resend email _ | .reset email _ =>
    let outcome := mailOutcome toLowerCase email
    (outcome.1.map fun _ => .accepted, outcome.2)
  | .login email password _ =>
    let outcome := loginOutcome toLowerCase email password
    (.error outcome.1, outcome.2)

private def login (email : String) : AccountRequest Unit :=
  .login (.string (js email)) (js "wrong horse") ()

end N2FNest.Identities
