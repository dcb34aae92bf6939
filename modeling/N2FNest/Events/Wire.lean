import N2FNest.Events.Envelope
import N2FNest.Provenance.Encoding

/-! Event envelopes as bytes: their JSON, the work they carry, and the check that
an event was made for the work that writes it. -/

namespace N2FNest.Events

open Lib Shared Json Provenance

def invalidEnvelope : Failure := failure .invalid "invalid event envelope" "events.invalid"

def asObject : JsValue → Except Failure JsObject
  | .object fields => .ok fields
  | _ => .error invalidEnvelope

def asString : JsValue → Except Failure JsString
  | .string text => .ok text
  | _ => .error invalidEnvelope

/-- `value == null`. -/
def isNullish : JsValue → Bool
  | .undefined => true
  | .null => true
  | _ => false

/-- `keys(value, allowed)`. -/
def checkKeys (fields : JsObject) (allowed : List JsString) : Except Failure Unit :=
  if fields.any fun field => field.1 ∉ allowed then .error invalidEnvelope else .ok ()

/-- The identity of a parsed actor, an absent one being empty. -/
def identityIn (value : JsValue) : Except Failure JsString :=
  if isNullish value then .ok (js "") else asString value

def tenantIn (value : JsValue) : Except Failure (Option JsString) :=
  if isNullish value then .ok none else (asString value).map some

def actorIn (value : JsValue) : Except Failure (Option Actor) :=
  if isNullish value then .ok none
  else do
    let input ← asObject value
    checkKeys input actorNames
    let kind ← asString (input.read (js "kind"))
    let identity ← identityIn (input.read (js "identity"))
    let actor ← actor kind identity
    return some actor

def referenceIn (value : JsValue) : Except Failure (Option Reference) :=
  if isNullish value then .ok none
  else do
    let input ← asObject value
    checkKeys input referenceNames
    let kind ← asString (input.read (js "kind"))
    let id ← asString (input.read (js "id"))
    let reference ← reference kind (← parse (.string id))
    return some reference

def attributionIn (input : JsObject) : Except Failure Attribution := do
  let initiator ← actorIn (input.read (js "initiator"))
  let onBehalfOf ← actorIn (input.read (js "on_behalf_of"))
  let tenant ← tenantIn (input.read (js "tenant"))
  attribution initiator onBehalfOf tenant

/-- A depth that is no natural number is refused with the other checks of the work. -/
def depthIn (value : JsValue) : Except Failure (Option Nat) :=
  if isNullish value then .ok none
  else match value with
    | .number number => match number.safeNat? with
      | some depth => .ok (some depth)
      | none => .error (Provenance.invalid "invalid_depth")
    | _ => .error (Provenance.invalid "invalid_depth")

/-- A text that is no origin is refused with the other checks of the work. -/
def originIn (value : JsValue) : Except Failure (Option Origin) :=
  if isNullish value then .ok none
  else do
    let text ← asString value
    match Origin.ofText? text with
    | some origin => .ok (some origin)
    | none => .error (Provenance.invalid "invalid_origin")

def correlationSourceIn (value : JsValue) : Except Failure CorrelationSource := do
  let text ← asString value
  match CorrelationSource.ofText? text with
  | some source => .ok source
  | none => .error (Provenance.invalid "invalid_work")

def replayIn (value : JsValue) : Except Failure (Option ReplayInfo) :=
  if isNullish value then .ok none
  else do
    let input ← asObject value
    checkKeys input replayNames
    let runId ← asString (input.read (js "run_id"))
    let runId ← parse (.string runId)
    match ← referenceIn (input.read (js "source")) with
    | some source => .ok (some ⟨runId, source⟩)
    | none => .error (Provenance.invalid "invalid_reference")

def workIn (value : JsValue) : Except Failure WorkContext := do
  let input ← asObject value
  let attributed ← asObject (input.read (js "attribution"))
  checkKeys input workNames
  checkKeys attributed attributionNames
  let replay ← replayIn (input.read (js "replay"))
  let workId ← parse (.string (← asString (input.read (js "work_id"))))
  let correlationId ← parse (.string (← asString (input.read (js "correlation_id"))))
  let correlationSource ← correlationSourceIn (input.read (js "correlation_source"))
  let operation ← operation (← asString (input.read (js "operation")))
  let attribution ← attributionIn attributed
  let causation ← referenceIn (input.read (js "causation"))
  let origin ← originIn (input.read (js "origin"))
  let depth ← depthIn (input.read (js "depth"))
  restoreWork
    { workId, correlationId, correlationSource, causation, origin, operation, attribution, depth,
      replay }

def workOut (work : WorkContext) : JsValue := .object (workFields work.snapshot)

private theorem isNullish_object (fields : JsObject) : isNullish (.object fields) = false := rfl

theorem checkKeys_ok {fields : JsObject} {names : List JsString} (named : Named fields names) :
    checkKeys fields names = .ok () := by
  refine if_neg fun unknown => ?_
  obtain ⟨field, member, other⟩ := List.any_eq_true.mp unknown
  exact of_decide_eq_true other (named field.1 (List.mem_map_of_mem member))

theorem actorIn_spelled {value : JsValue} {item : Option Actor}
    (spelled : SpellsOptional SpellsActor value item) : actorIn value = .ok item := by
  cases item with
  | none =>
    rw [show value = .undefined from spelled]
    rfl
  | some item =>
    obtain ⟨fields, rfl, kind, identity, named⟩ := spelled
    have read : identityIn (JsObject.read fields (js "identity")) =
        .ok (item.identity.getD (js "")) := by
      rw [identity]
      cases item.identity <;> rfl
    simp only [actorIn, isNullish_object, Bool.false_eq_true, if_false, asObject, checkKeys_ok named,
      kind, asString, ok_bind]
    rw [read, ok_bind, actor_parts]
    rfl

theorem referenceIn_spelled {value : JsValue} {item : Option Reference}
    (spelled : SpellsOptional SpellsReference value item) : referenceIn value = .ok item := by
  cases item with
  | none =>
    rw [show value = .undefined from spelled]
    rfl
  | some item =>
    obtain ⟨fields, rfl, kind, id, named⟩ := spelled
    simp only [referenceIn, isNullish_object, Bool.false_eq_true, if_false, asObject,
      checkKeys_ok named, kind, id, asString, ok_bind, parse_text, reference_text]
    rfl

theorem attributionIn_spelled {fields : JsObject} {item : Attribution}
    (spelled : SpellsAttribution fields item) : attributionIn fields = .ok item := by
  have tenant : tenantIn (fields.read (js "tenant")) = .ok item.tenant := by
    rw [spelled.tenant]
    cases item.tenant <;> rfl
  simp only [attributionIn, actorIn_spelled spelled.initiator, actorIn_spelled spelled.onBehalfOf,
    tenant, ok_bind]
  exact attribution_parts item

theorem replayIn_spelled {value : JsValue} {item : Option ReplayInfo}
    (spelled : SpellsOptional SpellsReplay value item) : replayIn value = .ok item := by
  cases item with
  | none =>
    rw [show value = .undefined from spelled]
    rfl
  | some item =>
    obtain ⟨fields, rfl, runId, source, named⟩ := spelled
    have caused : referenceIn (JsObject.read fields (js "source")) = .ok (some item.source) :=
      referenceIn_spelled source
    simp only [replayIn, isNullish_object, Bool.false_eq_true, if_false, asObject,
      checkKeys_ok named, runId, asString, ok_bind, parse_text, caused]

/-- Whatever spells work is read as that work. -/
theorem workIn_spelled {fields : JsObject} {work : WorkContext}
    (spelled : SpellsWork fields work.snapshot) : workIn (.object fields) = .ok work := by
  obtain ⟨attributed, attribution, spelledAttribution⟩ := spelled.attribution
  have source : correlationSourceIn (.string work.snapshot.correlationSource.text) =
      .ok work.snapshot.correlationSource := by
    simp only [correlationSourceIn, asString, ok_bind, CorrelationSource.ofText?_text]
  have origin : originIn (fields.read (js "origin")) = .ok work.snapshot.origin := by
    rw [spelled.origin]
    cases work.snapshot.origin with
    | none => rfl
    | some origin =>
      have named := Origin.ofText?_text origin
      simp only [originIn, orUndefined, isNullish, Bool.false_eq_true, if_false, asString, ok_bind, named]
  have depth : depthIn (fields.read (js "depth")) = .ok work.snapshot.depth := by
    rw [spelled.depth]
    cases known : work.snapshot.depth with
    | none => rfl
    | some depth =>
      have bound := work.depth_le known
      unfold MAX_UINT32 at bound
      have safe := JsNumber.safeNat?_ofNat (show depth ≤ 9007199254740991 by omega)
      simp only [depthIn, orUndefined, isNullish, Bool.false_eq_true, if_false, safe]
  simp only [workIn, asObject, ok_bind, attribution, checkKeys_ok spelled.named,
    checkKeys_ok spelledAttribution.named, replayIn_spelled spelled.replay, spelled.workId,
    spelled.correlationId, spelled.correlationSource, spelled.operation, asString, parse_text, source,
    operation_text, attributionIn_spelled spelledAttribution, referenceIn_spelled spelled.causation,
    origin, depth]
  exact restoreWork_snapshot work

/-- Work that was written is read as itself. -/
theorem workIn_workOut (work : WorkContext) : workIn (clean (workOut work)) = .ok work := by
  obtain ⟨object, spelled⟩ := keep_carries.work work
  rw [show clean (workOut work) = .object (cleanFields (workFields work.snapshot)) from object]
  exact workIn_spelled spelled

/-- The class `[a-z0-9_.-]`. -/
private def isTypeUnit (unit : UInt16) : Bool :=
  (0x61 ≤ unit && unit ≤ 0x7A) || Decimal.isDigit unit || unit == 0x5F || unit == 0x2E || unit == 0x2D

/-- `/^[a-z0-9_.-]{1,120}\.v[1-9][0-9]{0,5}$/`: the version is the last run of digits. -/
def isEventType (text : JsString) : Bool :=
  let version := (text.units.reverse.takeWhile Decimal.isDigit).reverse
  match text.units.reverse.dropWhile Decimal.isDigit with
  | 0x76 :: 0x2E :: name =>
    (1 ≤ version.length && version.length ≤ 6 && version.head? ≠ some 0x30) &&
      (1 ≤ name.length && name.length ≤ 120 && name.all isTypeUnit)
  | _ => false

private theorem isTypeUnit_ascii {unit : UInt16} (accepted : isTypeUnit unit = true) :
    0 < unit.toNat ∧ unit.toNat < 0x80 := by
  simp only [isTypeUnit, Decimal.isDigit, Bool.or_eq_true, Bool.and_eq_true, decide_eq_true_eq,
    beq_iff_eq, UInt16.le_iff_toNat_le, ← UInt16.toNat_inj, UInt16.reduceToNat] at accepted
  omega

/-- An event type is written in printable ASCII. -/
theorem isEventType_ascii {text : JsString} (valid : isEventType text = true) :
    ∀ unit ∈ text.units, 0 < unit.toNat ∧ unit.toNat < 0x80 := by
  intro unit member
  rw [← List.mem_reverse, ← List.takeWhile_append_dropWhile (p := Decimal.isDigit) (l := text.units.reverse)]
    at member
  rcases List.mem_append.mp member with digit | behind
  · have accepted := List.all_eq_true.mp List.all_takeWhile unit digit
    exact isTypeUnit_ascii (by simp [isTypeUnit, accepted])
  · unfold isEventType at valid
    dsimp only at valid
    split at valid
    · rename_i name same
      simp only [Bool.and_eq_true, List.all_eq_true] at valid
      rw [same] at behind
      rcases List.mem_cons.mp behind with rfl | behind
      · decide
      · rcases List.mem_cons.mp behind with rfl | behind
        · decide
        · exact isTypeUnit_ascii (valid.2.2 unit behind)
    · cases valid

def EventSubject.fields (subject : EventSubject) : JsObject :=
  [(js "kind", .string subject.kind), (js "id", .string subject.id.text)]

def subjectIn (value : JsValue) : Except Failure (Option EventSubject) :=
  match value with
  | .undefined => .ok none
  | value => do
    let input ← asObject value
    checkKeys input referenceNames
    let kind ← asString (input.read (js "kind"))
    if !kind.isToken 63 then .error invalidEnvelope
    else do
      let id ← asString (input.read (js "id"))
      let id ← parse (.string id)
      return some ⟨kind, id⟩

def tenantIdIn (value : JsValue) : Except Failure (Option ID) :=
  match value with
  | .undefined => .ok none
  | value => do
    let text ← asString value
    let id ← parse (.string text)
    return some id

/-- A decoded envelope with its normalized bytes. -/
structure WireEnvelope where
  id : ID
  raw : List UInt8
  work : WorkContext
  type : JsString
  occurredAtMs : Nat
  subject : Option EventSubject
  tenant : Option ID
  deriving DecidableEq

def requiredNames : List JsString :=
  [js "v", js "id", js "type", js "occurred_at_ms", js "work", js "payload"]

def hasOwn (fields : JsObject) (name : JsString) : Bool := fields.any fun field => field.1 = name

def expectedKeys (input : JsObject) : Nat :=
  6 + (if hasOwn input (js "subject") then 1 else 0) + (if hasOwn input (js "tenant") then 1 else 0)

/-- The type and the time of an event, where the checks of its envelope pass. -/
def header? (input : JsObject) : Option (JsString × Nat) :=
  if input.length = expectedKeys input && requiredNames.all (hasOwn input) then
    match input.read (js "v"), input.read (js "type"), input.read (js "occurred_at_ms") with
    | .number v, .string type, .number occurredAtMs =>
      match occurredAtMs.safeNat? with
      | some time =>
        if v = .ofNat 1 && type.length ≤ 128 && isEventType type && time ≤ 253402300799999 then
          some (type, time)
        else none
      | none => none
    | _, _, _ => none
  else none

/-- `Buffer.from(JSON.stringify(fields))`. -/
def bytesOf (fields : JsObject) : List UInt8 := JsString.toUtf8 ⟨write (clean (.object fields))⟩

/-- What an envelope writes again, its subject and its tenant where they are present. -/
def normalFields (id : ID) (work : WorkContext) (subject : Option EventSubject)
    (tenant : Option ID) : JsObject :=
  [(js "id", .string id.text), (js "work", workOut work)] ++
    (subject.map fun subject => (js "subject", .object subject.fields)).toList ++
    (tenant.map fun tenant => (js "tenant", .string tenant.text)).toList

def decodeFields (input : JsObject) : Except Failure WireEnvelope :=
  match header? input with
  | none => .error invalidEnvelope
  | some (type, occurredAtMs) => do
    let _ ← asObject (input.read (js "payload"))
    let id ← parse (.string (← asString (input.read (js "id"))))
    let work ← workIn (input.read (js "work"))
    let subject ← subjectIn (input.read (js "subject"))
    let tenant ← tenantIdIn (input.read (js "tenant"))
    let raw := bytesOf (spread input (normalFields id work subject tenant))
    if 65536 < raw.length then .error invalidEnvelope
    else return { id, raw, work, type, occurredAtMs, subject, tenant }

/-- The value of UTF-8 bytes of JSON. -/
def jsonOf (raw : List UInt8) : Option JsValue := (decodeUtf8 raw).bind Json.parse

/-- The object of a new envelope, its subject and its tenant where they are given. -/
def createFields (id type : JsString) (occurredAtMs : JsNumber) (work : WorkContext)
    (payload : JsValue) (subject : Option (JsString × JsString)) (tenant : Option JsString) :
    JsObject :=
  [(js "v", .number (.ofNat 1)), (js "id", .string id), (js "type", .string type),
    (js "occurred_at_ms", .number occurredAtMs), (js "work", workOut work),
    (js "payload", payload)] ++
    (subject.map fun subject =>
      (js "subject", .object [(js "kind", .string subject.1), (js "id", .string subject.2)])).toList ++
    (tenant.map fun tenant => (js "tenant", .string tenant)).toList

namespace WireEnvelope

def decode (raw : List UInt8) : Except Failure WireEnvelope :=
  if 65536 < raw.length then .error invalidEnvelope
  else match jsonOf raw with
    | some (.object input) => (decodeFields input).mapError fun _ => invalidEnvelope
    | _ => .error invalidEnvelope

def payload (event : WireEnvelope) : Except Failure JsObject :=
  match jsonOf event.raw with
  | some (.object input) => asObject (JsObject.read input (js "payload"))
  | _ => .error invalidEnvelope

/-- The arguments are as their callers pass them, checked by the decoding alone. -/
def create (id type : JsString) (occurredAtMs : JsNumber) (work : WorkContext) (payload : JsValue)
    (subject : Option (JsString × JsString)) (tenant : Option JsString) :
    Except Failure WireEnvelope :=
  decode (bytesOf (createFields id type occurredAtMs work payload subject tenant))

end WireEnvelope

/-- `null` for an absent value. -/
def orNull {α : Type} (encode : α → JsValue) : Option α → JsValue
  | none => .null
  | some value => encode value

def comparableAttribution (attribution : Attribution) : JsObject :=
  [(js "initiator", orNull (fun actor => .object actor.fields) attribution.initiator),
    (js "onBehalfOf", orNull (fun actor => .object actor.fields) attribution.onBehalfOf),
    (js "tenant", orNull .string attribution.tenant)]

def comparableReplay (replay : ReplayInfo) : JsObject :=
  [(js "runId", .string replay.runId.text), (js "source", .object replay.source.fields)]

/-- The snapshot `comparable` writes; every field is there, absent ones as `null`. -/
def comparableFields (work : WorkSnapshot) : JsObject :=
  [(js "workId", .string work.workId.text),
    (js "correlationId", .string work.correlationId.text),
    (js "correlationSource", .string work.correlationSource.text),
    (js "operation", .string work.operation.text),
    (js "attribution", .object (comparableAttribution work.attribution)),
    (js "causation", orNull (fun reference => .object reference.fields) work.causation),
    (js "origin", orNull (fun origin => .string origin.text) work.origin),
    (js "depth", orNull (fun depth => .number (.ofNat depth)) work.depth),
    (js "replay", orNull (fun replay => .object (comparableReplay replay)) work.replay)]

def comparable (work : WorkContext) : List UInt16 :=
  write (clean (.object (comparableFields work.snapshot)))

namespace WireEnvelope

/-- A writer may persist only an event created for its current work scope. -/
def assertEventWork (event : WireEnvelope) (work : WorkContext) : Except Failure Unit :=
  if comparable event.work = comparable work then .ok () else .error provenanceMismatch

end WireEnvelope

end N2FNest.Events
