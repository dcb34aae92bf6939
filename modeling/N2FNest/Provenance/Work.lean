import N2FNest.Lib.Result
import N2FNest.Shared.Identifier

/-! Who acts for whom, what caused what, and the work context they describe.
Values the program brands at run time are valid by their type here. -/

namespace N2FNest.Provenance

open Lib Shared

def invalid (code : String) : Failure :=
  failure .invalid "invalid provenance" ("provenance." ++ code)

private def isLetter (unit : UInt16) : Bool :=
  (0x41 ≤ unit && unit ≤ 0x5A) || (0x61 ≤ unit && unit ≤ 0x7A)

private def isDigit (unit : UInt16) : Bool := 0x30 ≤ unit && unit ≤ 0x39

/-- One to 128 letters, digits, dots, underscores, colons, slashes and dashes. -/
def identityValid (text : JsString) : Bool :=
  1 ≤ text.length && text.length ≤ 128 && text.units.all fun unit =>
    isLetter unit || isDigit unit || unit == 0x2E || unit == 0x5F || unit == 0x3A || unit == 0x2F ||
      unit == 0x2D

/-- `/^[a-z][a-z0-9_.:-]{0,127}$/`. -/
def validOperation (text : JsString) : Bool :=
  match text.units with
  | [] => false
  | first :: rest => (0x61 ≤ first && first ≤ 0x7A) && rest.length ≤ 127 && rest.all fun unit =>
      (0x61 ≤ unit && unit ≤ 0x7A) || isDigit unit || unit == 0x5F || unit == 0x2E || unit == 0x3A ||
        unit == 0x2D

private theorem isLetter_ascii {unit : UInt16} (letter : isLetter unit = true) :
    0 < unit.toNat ∧ unit.toNat < 0x80 := by
  simp only [isLetter, Bool.or_eq_true, Bool.and_eq_true, decide_eq_true_eq,
    UInt16.le_iff_toNat_le, UInt16.reduceToNat] at letter
  omega

private theorem isDigit_ascii {unit : UInt16} (digit : isDigit unit = true) :
    0 < unit.toNat ∧ unit.toNat < 0x80 := by
  simp only [isDigit, Bool.and_eq_true, decide_eq_true_eq, UInt16.le_iff_toNat_le,
    UInt16.reduceToNat] at digit
  omega

/-- A valid identity is written in printable ASCII. -/
theorem identityValid_ascii {text : JsString} (valid : identityValid text = true) :
    ∀ unit ∈ text.units, 0 < unit.toNat ∧ unit.toNat < 0x80 := by
  simp only [identityValid, Bool.and_eq_true, List.all_eq_true] at valid
  intro unit member
  have accepted := valid.2 unit member
  simp only [Bool.or_eq_true, beq_iff_eq] at accepted
  rcases accepted with (((((letter | digit) | rfl) | rfl) | rfl) | rfl) | rfl
  · exact isLetter_ascii letter
  · exact isDigit_ascii digit
  all_goals decide

theorem validOperation_ascii {text : JsString} (valid : validOperation text = true) :
    ∀ unit ∈ text.units, 0 < unit.toNat ∧ unit.toNat < 0x80 := by
  unfold validOperation at valid
  split at valid
  · cases valid
  · rename_i first rest same
    simp only [Bool.and_eq_true, decide_eq_true_eq, List.all_eq_true] at valid
    obtain ⟨⟨⟨low, high⟩, -⟩, others⟩ := valid
    have letter : isLetter first = true := by simp [isLetter, low, high]
    rw [same]
    refine List.forall_mem_cons.mpr ⟨isLetter_ascii letter, fun unit member => ?_⟩
    have accepted := others unit member
    simp only [Bool.or_eq_true, Bool.and_eq_true, decide_eq_true_eq, beq_iff_eq] at accepted
    rcases accepted with ((((letter | digit) | rfl) | rfl) | rfl) | rfl
    · exact isLetter_ascii (by simp [isLetter, letter])
    · exact isDigit_ascii digit
    all_goals decide

inductive ActorKind where
  | anonymous | user | service | system
  deriving DecidableEq

def ActorKind.text : ActorKind → JsString
  | .anonymous => js "anonymous"
  | .user => js "user"
  | .service => js "service"
  | .system => js "system"

def ActorKind.ofText? (text : JsString) : Option ActorKind :=
  [.anonymous, .user, .service, .system].find? (·.text = text)

@[simp] theorem ActorKind.ofText?_text (kind : ActorKind) : ofText? kind.text = some kind := by
  cases kind <;> decide

/-- Every actor but the anonymous one has an identity. -/
def identityFits : ActorKind → Option JsString → Bool
  | .anonymous, identity => identity.isNone
  | _, identity => identity.any identityValid

structure Actor where
  kind : ActorKind
  identity : Option JsString
  valid : identityFits kind identity = true
  deriving DecidableEq

def anonymous : Actor := ⟨.anonymous, none, rfl⟩

def actor (kind identity : JsString) : Except Failure Actor :=
  match ActorKind.ofText? kind with
  | none => .error (invalid "invalid_actor")
  | some .anonymous =>
    if identity = js "" then .ok anonymous else .error (invalid "invalid_actor")
  | some kind =>
    if valid : identityFits kind (some identity) = true then .ok ⟨kind, some identity, valid⟩
    else .error (invalid "invalid_actor")

/-- An actor is made again from its own parts, an absent identity being an empty one. -/
theorem actor_parts (value : Actor) :
    actor value.kind.text (value.identity.getD (js "")) = .ok value := by
  obtain ⟨kind, identity, valid⟩ := value
  rw [actor, ActorKind.ofText?_text]
  cases identity with
  | none =>
    cases kind with
    | anonymous => rfl
    | _ => cases valid
  | some text =>
    cases kind with
    | anonymous => cases valid
    | _ => exact dif_pos valid

def namedActor (actor : Actor) : Bool := actor.kind ≠ .anonymous

/-- Who may act for whom: both are named and not the same. -/
def attributionFits (initiator onBehalfOf : Option Actor) (tenant : Option JsString) : Bool :=
  (onBehalfOf.all fun other => initiator.any fun first =>
    namedActor first && namedActor other &&
      !(first.kind = other.kind && first.identity = other.identity)) &&
    tenant.all identityValid

structure Attribution where
  initiator : Option Actor
  onBehalfOf : Option Actor
  tenant : Option JsString
  valid : attributionFits initiator onBehalfOf tenant = true
  deriving DecidableEq

def attribution (initiator onBehalfOf : Option Actor) (tenant : Option JsString) :
    Except Failure Attribution :=
  if valid : attributionFits initiator onBehalfOf tenant = true then
    .ok ⟨initiator, onBehalfOf, tenant, valid⟩
  else .error (invalid "invalid_attribution")

@[simp] theorem attribution_parts (value : Attribution) :
    attribution value.initiator value.onBehalfOf value.tenant = .ok value := dif_pos value.valid

inductive ReferenceKind where
  | scope | work | event
  deriving DecidableEq

def ReferenceKind.text : ReferenceKind → JsString
  | .scope => js "scope"
  | .work => js "work"
  | .event => js "event"

def ReferenceKind.ofText? (text : JsString) : Option ReferenceKind :=
  [.scope, .work, .event].find? (·.text = text)

@[simp] theorem ReferenceKind.ofText?_text (kind : ReferenceKind) :
    ofText? kind.text = some kind := by
  cases kind <;> decide

structure Reference where
  kind : ReferenceKind
  id : ID
  deriving DecidableEq

def reference (kind : JsString) (id : ID) : Except Failure Reference :=
  match ReferenceKind.ofText? kind with
  | some kind => .ok ⟨kind, id⟩
  | none => .error (invalid "invalid_reference")

@[simp] theorem reference_text (value : Reference) :
    reference value.kind.text value.id = .ok value := by
  rw [reference, ReferenceKind.ofText?_text]

@[ext] structure Operation where
  text : JsString
  valid : validOperation text = true
  deriving DecidableEq

def operation (text : JsString) : Except Failure Operation :=
  if valid : validOperation text = true then .ok ⟨text, valid⟩
  else .error (invalid "invalid_operation")

@[simp] theorem operation_text (value : Operation) : operation value.text = .ok value :=
  dif_pos value.valid

inductive Origin where
  | request | message | schedule | replay | backfill | startup
  deriving DecidableEq

def Origin.text : Origin → JsString
  | .request => js "request"
  | .message => js "message"
  | .schedule => js "schedule"
  | .replay => js "replay"
  | .backfill => js "backfill"
  | .startup => js "startup"

/-- `validOrigin`, with the origin it recognises. -/
def Origin.ofText? (text : JsString) : Option Origin :=
  [.request, .message, .schedule, .replay, .backfill, .startup].find? (·.text = text)

@[simp] theorem Origin.ofText?_text (origin : Origin) : ofText? origin.text = some origin := by
  cases origin <;> decide

inductive CorrelationSource where
  | «local» | external
  deriving DecidableEq

def CorrelationSource.text : CorrelationSource → JsString
  | .local => js "local"
  | .external => js "external"

def CorrelationSource.ofText? (text : JsString) : Option CorrelationSource :=
  [.local, .external].find? (·.text = text)

@[simp] theorem CorrelationSource.ofText?_text (source : CorrelationSource) :
    ofText? source.text = some source := by
  cases source <;> decide

structure ReplayOf (Id : Type) where
  runId : Id
  source : Reference
  deriving DecidableEq

/-- A work context over its own identifiers, which a draft may leave open. -/
@[ext] structure WorkOf (Id : Type) where
  workId : Id
  correlationId : Id
  correlationSource : CorrelationSource
  causation : Option Reference
  origin : Option Origin
  operation : Operation
  attribution : Attribution
  depth : Option Nat
  replay : Option (ReplayOf Id)
  deriving DecidableEq

abbrev ReplayInfo := ReplayOf ID

abbrev WorkSnapshot := WorkOf ID

abbrev DraftWork := WorkOf (Option ID)

/-- A snapshot leaves nothing open. -/
def WorkOf.draft (work : WorkSnapshot) : DraftWork :=
  { work with
    workId := some work.workId
    correlationId := some work.correlationId
    replay := work.replay.map fun replay => ⟨some replay.runId, replay.source⟩ }

/-- The defaults for what a draft leaves open. -/
def WorkOf.fill (work : DraftWork) (scopeId : ID) : WorkSnapshot :=
  { work with
    workId := work.workId.getD scopeId
    correlationId := work.correlationId.getD scopeId
    replay := work.replay.map fun replay => ⟨replay.runId.getD scopeId, replay.source⟩ }

@[simp] theorem WorkOf.fill_draft (work : WorkSnapshot) (scopeId : ID) :
    work.draft.fill scopeId = work := by
  obtain ⟨workId, correlationId, source, causation, origin, operation, attribution, depth, replay⟩ :=
    work
  cases replay <;> rfl

def MAX_UINT32 : Nat := 4294967295

/-- A reference to the work itself. -/
def Reference.namesWork (reference : Reference) (workId : Option ID) : Bool :=
  reference.kind = .work && some reference.id = workId

/-- A local root has depth 0 and no cause, and every deeper work has one. -/
def depthFits (work : DraftWork) : Bool :=
  work.depth.all fun depth => depth ≤ MAX_UINT32 &&
    !(work.correlationSource = .local && depth = 0 && work.causation.isSome) &&
    !(0 < depth && work.causation.isNone)

/-- The checks the types leave over, in the order of the program. -/
def validateWork (work : DraftWork) (defaults : Bool) : Option Failure :=
  if (work.workId.isNone || work.correlationId.isNone) && !defaults then
    some (invalid "invalid_work")
  else if work.replay.isSome ≠ (work.origin = some .replay) then some (invalid "invalid_origin")
  else if work.causation.any (·.namesWork work.workId) then some (invalid "invalid_work")
  else if !depthFits work then some (invalid "invalid_depth")
  else if work.replay.any (·.runId.isNone) && !defaults then some (invalid "invalid_reference")
  else if work.replay.any (·.source.namesWork work.workId) then some (invalid "invalid_work")
  else none

/-- What the checks leave of a work context. -/
structure WorkFits (work : DraftWork) : Prop where
  replayed : work.replay.isSome = true ↔ work.origin = some .replay
  caused : work.causation.any (·.namesWork work.workId) = false
  deep : depthFits work = true
  sourced : work.replay.any (·.source.namesWork work.workId) = false

/-- Nothing is left open, or the defaults are allowed. -/
def DraftWork.isClosed (work : DraftWork) : Bool :=
  work.workId.isSome && work.correlationId.isSome && !work.replay.any (·.runId.isNone)

theorem validateWork_eq_none {work : DraftWork} {defaults : Bool} :
    validateWork work defaults = none ↔ WorkFits work ∧ (defaults = true ∨ work.isClosed = true) := by
  constructor
  · intro passed
    unfold validateWork at passed
    split_ifs at passed with unnamed origin cause depth unrun source
    refine ⟨⟨by simpa using origin, Bool.eq_false_iff.mpr cause, by simpa using depth,
      Bool.eq_false_iff.mpr source⟩, ?_⟩
    cases defaults with
    | true => exact .inl rfl
    | false =>
      right
      simp only [Bool.not_false, Bool.and_true, Bool.or_eq_true, not_or, Bool.not_eq_true,
        Option.isNone_eq_false_iff] at unnamed unrun
      rw [DraftWork.isClosed, unnamed.1, unnamed.2, unrun]
      rfl
  · rintro ⟨⟨origin, cause, depth, source⟩, closed⟩
    have named : ((work.workId.isNone || work.correlationId.isNone) && !defaults) = false := by
      rcases closed with rfl | closed
      · exact Bool.and_false _
      · simp only [DraftWork.isClosed, Bool.and_eq_true, Option.isSome_iff_ne_none] at closed
        simp [closed]
    have ran : (work.replay.any (·.runId.isNone) && !defaults) = false := by
      rcases closed with rfl | closed
      · exact Bool.and_false _
      · obtain ⟨-, closed⟩ := Bool.and_eq_true_iff.mp closed
        rw [Bool.not_eq_true'] at closed
        rw [closed, Bool.false_and]
    simp [validateWork, named, origin, cause, depth, ran, source]

/-- Validated work. -/
structure WorkContext where
  snapshot : WorkSnapshot
  valid : validateWork snapshot.draft false = none
  deriving DecidableEq

def restoreWork (work : WorkSnapshot) : Except Failure WorkContext :=
  match valid : validateWork work.draft false with
  | some error => .error error
  | none => .ok ⟨work, valid⟩

/-- Restoring a snapshot gives it back, and whatever is restored is the snapshot. -/
theorem restoreWork_eq_ok {work : WorkSnapshot} {context : WorkContext} :
    restoreWork work = .ok context ↔ context.snapshot = work := by
  unfold restoreWork
  constructor
  · intro restored
    split at restored
    · cases restored
    · cases restored
      rfl
  · rintro rfl
    split
    · rename_i error refused
      rw [context.valid] at refused
      cases refused
    · rfl

@[simp] theorem restoreWork_snapshot (context : WorkContext) :
    restoreWork context.snapshot = .ok context := restoreWork_eq_ok.mpr rfl

theorem WorkContext.depth_le (context : WorkContext) {depth : Nat}
    (known : context.snapshot.depth = some depth) : depth ≤ MAX_UINT32 := by
  have fits := (validateWork_eq_none.mp context.valid).1.deep
  have same : context.snapshot.draft.depth = some depth := known
  rw [depthFits, same, Option.all_some, Bool.and_assoc] at fits
  exact of_decide_eq_true (Bool.and_eq_true_iff.mp fits).1

theorem WorkContext.eq_of_snapshot {left right : WorkContext}
    (same : left.snapshot = right.snapshot) : left = right := by
  obtain ⟨work, valid⟩ := left
  cases same
  rfl

end N2FNest.Provenance
