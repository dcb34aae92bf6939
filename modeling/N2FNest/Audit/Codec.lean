import N2FNest.Provenance.Encoding
import N2FNest.Shared.Jsonb

/-! The audit log's own reader of stored work, and that it reads back what the
column gives of encoded work. -/

namespace N2FNest.Audit

open Lib Shared Json Provenance

def invalid : Failure :=
  failure .internal "stored audit provenance is invalid" "audit.persistence_invalid"

def object : JsValue → Option JsObject
  | .object fields => some fields
  | _ => none

def text : JsValue → Option JsString
  | .string text => some text
  | _ => none

/-- `value === undefined || value === null`. -/
def isMissing : JsValue → Bool
  | .undefined => true
  | .null => true
  | _ => false

def storedId (value : JsValue) : Except Failure ID :=
  match text value with
  | none => .error invalid
  | some candidate => parse (.string candidate)

def actorFrom (value : JsValue) : Except Failure (Option Actor) :=
  if isMissing value then .ok none
  else match object value with
    | none => .error invalid
    | some input =>
      match text (input.read (js "kind")), text (input.read (js "identity")) with
      | some kind, identity =>
        if kind = js "anonymous" then .ok (some anonymous)
        else match identity with
          | some identity =>
            if kind = js "" then .error invalid else (actor kind identity).map some
          | none => .error invalid
      | none, _ => .error invalid

def referenceFrom (value : JsValue) : Except Failure (Option Reference) :=
  if isMissing value then .ok none
  else match object value with
    | none => .error invalid
    | some input =>
      match text (input.read (js "kind")), storedId (input.read (js "id")) with
      | some kind, .ok id => if kind = js "" then .error invalid else (reference kind id).map some
      | _, _ => .error invalid

/-- `JSON.stringify(encodeWork(work))`. -/
def encodeWork (work : WorkSnapshot) : JsString := ⟨write (clean (.object (workFields work)))⟩

/-- A source that is none is refused with the other checks of the work. -/
def sourceFrom (value : JsValue) : Except Failure CorrelationSource :=
  match text value with
  | none => .error invalid
  | some source =>
    if source = js "" then .error invalid
    else match CorrelationSource.ofText? source with
      | some source => .ok source
      | none => .error (Provenance.invalid "invalid_work")

def operationFrom (value : JsValue) : Except Failure Operation :=
  match text value with
  | none => .error invalid
  | some value => if value = js "" then .error invalid else (operation value).mapError fun _ => invalid

/-- A value that is no origin is refused with the other checks of the work. -/
def originFrom : JsValue → Except Failure (Option Origin)
  | .undefined => .ok none
  | .string text =>
    match Origin.ofText? text with
    | some origin => .ok (some origin)
    | none => .error (Provenance.invalid "invalid_origin")
  | _ => .error (Provenance.invalid "invalid_origin")

/-- A depth that is no natural number is refused with the other checks of the work. -/
def depthFrom : JsValue → Except Failure (Option Nat)
  | .undefined => .ok none
  | .number number =>
    match number.safeNat? with
    | some depth => .ok (some depth)
    | none => .error (Provenance.invalid "invalid_depth")
  | _ => .error (Provenance.invalid "invalid_depth")

def tenantFrom (value : JsValue) : Option JsString := if isMissing value then none else text value

def replayFrom (value : JsValue) : Except Failure (Option ReplayInfo) :=
  if isMissing value then .ok none
  else match object value with
    | none => .error invalid
    | some input =>
      match storedId (input.read (js "run_id")), referenceFrom (input.read (js "source")) with
      | .ok runId, .ok (some source) => .ok (some ⟨runId, source⟩)
      | _, _ => .error invalid

def decodeWork (value : JsValue) : Except Failure WorkContext :=
  match object value with
  | none => .error invalid
  | some input =>
    match object (input.read (js "attribution")) with
    | none => .error invalid
    | some rawAttribution => do
      let workId ← (storedId (input.read (js "work_id"))).mapError fun _ => invalid
      let correlationId ← (storedId (input.read (js "correlation_id"))).mapError fun _ => invalid
      let initiator ← (actorFrom (rawAttribution.read (js "initiator"))).mapError fun _ => invalid
      let onBehalfOf ← (actorFrom (rawAttribution.read (js "on_behalf_of"))).mapError fun _ => invalid
      let causation ← (referenceFrom (input.read (js "causation"))).mapError fun _ => invalid
      let operation ← operationFrom (input.read (js "operation"))
      let attribution ← (attribution initiator onBehalfOf
        (tenantFrom (rawAttribution.read (js "tenant")))).mapError fun _ => invalid
      let replay ← replayFrom (input.read (js "replay"))
      let correlationSource ← sourceFrom (input.read (js "correlation_source"))
      let origin ← originFrom (input.read (js "origin"))
      let depth ← depthFrom (input.read (js "depth"))
      restoreWork
        { workId, correlationId, correlationSource, causation, origin, operation, attribution, depth,
          replay }

theorem storedId_text (id : ID) : storedId (.string id.text) = .ok id := parse_text id

theorem actorFrom_spelled {value : JsValue} {item : Option Actor}
    (spelled : SpellsOptional SpellsActor value item) : actorFrom value = .ok item := by
  cases item with
  | none =>
    rw [show value = .undefined from spelled]
    rfl
  | some item =>
    obtain ⟨fields, rfl, kind, identity, -⟩ := spelled
    have parts := actor_parts item
    obtain ⟨sort, known, valid⟩ := item
    have read : actorFrom (.object fields) = match text (orUndefined .string known) with
        | some identity =>
          if sort.text = js "anonymous" then .ok (some anonymous)
          else if sort.text = js "" then .error invalid
          else (actor sort.text identity).map some
        | none => if sort.text = js "anonymous" then .ok (some anonymous) else .error invalid := by
      simp only [actorFrom, isMissing, Bool.false_eq_true, if_false, object, kind, identity, text]
      cases known <;> rfl
    rw [read]
    cases known with
    | none =>
      cases sort with
      | anonymous => rfl
      | _ => cases valid
    | some identity =>
      cases sort with
      | anonymous => cases valid
      | _ =>
        have made := parts
        simp only [Option.getD_some] at made
        simp only [orUndefined, text, made]
        rfl

theorem referenceFrom_spelled {value : JsValue} {item : Option Reference}
    (spelled : SpellsOptional SpellsReference value item) : referenceFrom value = .ok item := by
  cases item with
  | none =>
    rw [show value = .undefined from spelled]
    rfl
  | some item =>
    obtain ⟨fields, rfl, kind, id, -⟩ := spelled
    have filled : item.kind.text ≠ js "" := by cases item.kind <;> decide
    simp only [referenceFrom, isMissing, Bool.false_eq_true, if_false, object, kind, id, text,
      storedId_text, if_neg filled, reference_text]
    rfl

theorem replayFrom_spelled {value : JsValue} {item : Option ReplayInfo}
    (spelled : SpellsOptional SpellsReplay value item) : replayFrom value = .ok item := by
  cases item with
  | none =>
    rw [show value = .undefined from spelled]
    rfl
  | some item =>
    obtain ⟨fields, rfl, runId, source, -⟩ := spelled
    have caused : referenceFrom (JsObject.read fields (js "source")) = .ok (some item.source) :=
      referenceFrom_spelled source
    simp only [replayFrom, isMissing, Bool.false_eq_true, if_false, object, runId, storedId_text, caused]

theorem operationFrom_text (operation : Operation) :
    operationFrom (.string operation.text) = .ok operation := by
  have filled : operation.text ≠ js "" := by
    intro empty
    have valid := operation.valid
    rw [empty] at valid
    cases valid
  simp only [operationFrom, text, if_neg filled, operation_text]
  rfl

theorem sourceFrom_text (source : CorrelationSource) :
    sourceFrom (.string source.text) = .ok source := by
  have filled : source.text ≠ js "" := by cases source <;> decide
  simp only [sourceFrom, text, if_neg filled, CorrelationSource.ofText?_text]

theorem originFrom_spelled (item : Option Origin) :
    originFrom (orUndefined (fun origin => .string origin.text) item) = .ok item := by
  cases item with
  | none => rfl
  | some origin => simp only [orUndefined, originFrom, Origin.ofText?_text]

/-- Whatever spells work is read as that work. -/
theorem decodeWork_spelled {fields : JsObject} {work : WorkContext}
    (spelled : SpellsWork fields work.snapshot) : decodeWork (.object fields) = .ok work := by
  obtain ⟨attributed, attribution, spelledAttribution⟩ := spelled.attribution
  have tenant : tenantFrom (JsObject.read attributed (js "tenant")) = work.snapshot.attribution.tenant := by
    rw [spelledAttribution.tenant]
    cases work.snapshot.attribution.tenant <;> rfl
  have depth : depthFrom (fields.read (js "depth")) = .ok work.snapshot.depth := by
    rw [spelled.depth]
    cases known : work.snapshot.depth with
    | none => rfl
    | some depth =>
      have bound := work.depth_le known
      unfold MAX_UINT32 at bound
      have safe := JsNumber.safeNat?_ofNat (show depth ≤ 9007199254740991 by omega)
      simp only [depthFrom, orUndefined, safe]
  simp only [decodeWork, object, attribution, spelled.workId, spelled.correlationId, storedId_text,
    actorFrom_spelled spelledAttribution.initiator, actorFrom_spelled spelledAttribution.onBehalfOf,
    referenceFrom_spelled spelled.causation, spelled.operation, operationFrom_text, tenant,
    attribution_parts, replayFrom_spelled spelled.replay, spelled.correlationSource, sourceFrom_text,
    spelled.origin, originFrom_spelled, depth, Except.mapError, ok_bind]
  exact restoreWork_snapshot work

/-- A `jsonb` column keeps texts, small numbers and what is read of objects. -/
theorem jsonb_carries : Carries (fun value => arrange (keep value)) stored where
  undefined := rfl
  string _ := rfl
  number value bound := by
    unfold MAX_UINT32 at bound
    have kept : keep (.number (.ofNat value)) = .number (.ofNat value) := clean_ofNat (by omega)
    rw [kept]
    rfl
  object fields unique texts := by
    have kept : keep (.object fields) = .object (cleanFields fields) := clean_object unique texts
    rw [kept]
    rfl
  read _ unique := read_stored unique
  names := stored_names

/-- An object under texts that are storable names. -/
private theorem storable_object {fields : JsObject} (names : List JsString)
    (same : fields.map Prod.fst = names) (unique : names.Nodup)
    (letters : ∀ name ∈ names, (name.units.any fun unit => !Decimal.isDigit unit) = true)
    (named : ∀ name ∈ names, storableText name = true)
    (taken : ∀ field ∈ fields, storable (keep field.2) = true) :
    storable (keep (.object fields)) = true := by
  subst same
  exact (Json.storable_object unique (fun name member => index?_eq_none (letters name member)) named).mpr
    taken

private theorem storable_optional {α : Type} {encode : α → JsValue} (item : Option α)
    (taken : ∀ value, item = some value → storable (keep (encode value)) = true) :
    storable (keep (orUndefined encode item)) = true := by
  cases item with
  | none => rfl
  | some value => exact taken value rfl

theorem storable_id (id : ID) : storable (keep (.string id.text)) = true := by
  have range := id.units.2
  refine storableText_ascii fun unit member => ?_
  have bounds := range unit member
  omega

private theorem storable_actor (actor : Actor) : storable (keep (.object actor.fields)) = true := by
  refine storable_object actorNames rfl (by decide) (by decide) (by decide) ?_
  refine List.forall_mem_cons.mpr ⟨?_, List.forall_mem_singleton.mpr ?_⟩
  · cases actor.kind <;> decide
  · refine storable_optional actor.identity fun identity known => ?_
    have valid := actor.valid
    rw [known] at valid
    have accepted : identityValid identity = true := by
      cases kind : actor.kind with
      | anonymous =>
        rw [kind] at valid
        cases valid
      | _ =>
        rw [kind] at valid
        exact valid
    exact storableText_ascii (identityValid_ascii accepted)

private theorem storable_reference (reference : Reference) :
    storable (keep (.object reference.fields)) = true := by
  refine storable_object referenceNames rfl (by decide) (by decide) (by decide) ?_
  refine List.forall_mem_cons.mpr ⟨?_, List.forall_mem_singleton.mpr (storable_id reference.id)⟩
  cases reference.kind <;> decide

private theorem storable_attribution (attribution : Attribution) :
    storable (keep (.object attribution.fields)) = true := by
  refine storable_object attributionNames rfl (by decide) (by decide) (by decide) ?_
  refine List.forall_mem_cons.mpr ⟨?_, List.forall_mem_cons.mpr ⟨?_, List.forall_mem_singleton.mpr ?_⟩⟩
  · exact storable_optional attribution.initiator fun actor _ => storable_actor actor
  · exact storable_optional attribution.onBehalfOf fun actor _ => storable_actor actor
  · refine storable_optional attribution.tenant fun tenant known => ?_
    have valid := attribution.valid
    rw [known] at valid
    exact storableText_ascii (identityValid_ascii (Bool.and_eq_true_iff.mp valid).2)

private theorem storable_replay (replay : ReplayInfo) :
    storable (keep (.object replay.fields)) = true := by
  refine storable_object replayNames rfl (by decide) (by decide) (by decide) ?_
  refine List.forall_mem_cons.mpr ⟨storable_id replay.runId, List.forall_mem_singleton.mpr ?_⟩
  exact storable_reference replay.source

/-- Every work can be stored. -/
theorem storable_work (work : WorkSnapshot) : storable (keep (.object (workFields work))) = true := by
  refine storable_object workNames rfl (by decide) (by decide) (by decide) ?_
  simp only [workFields, List.forall_mem_cons]
  refine ⟨storable_id _, storable_id _, ?_, ?_, storable_attribution _, ?_, ?_, ?_, ?_, by simp⟩
  · cases work.correlationSource <;> decide
  · exact storableText_ascii (validOperation_ascii work.operation.valid)
  · exact storable_optional work.causation fun reference _ => storable_reference reference
  · refine storable_optional work.origin fun origin _ => ?_
    cases origin <;> decide
  · exact storable_optional work.depth fun depth _ => storable_number depth
  · exact storable_optional work.replay fun replay _ => storable_replay replay

/-- Work goes through the column unchanged. -/
theorem decodeWork_stored (work : WorkContext) : ∃ value, jsonb (encodeWork work.snapshot) = some value ∧
    decodeWork value = .ok work := by
  have names : (workFields work.snapshot).map Prod.fst = workNames := rfl
  have unique : ((workFields work.snapshot).map Prod.fst).Nodup := by rw [names]; decide
  have texts : ∀ name ∈ (workFields work.snapshot).map Prod.fst, index? name = none := by
    have letters : ∀ name ∈ workNames,
        (name.units.any fun unit => !Decimal.isDigit unit) = true := by decide
    exact fun name member => index?_eq_none (letters name member)
  have taken := storable_work work.snapshot
  obtain ⟨object, -, -⟩ := keep_carries.found (workFields work.snapshot) workNames rfl (by decide)
    (by decide)
  rw [object] at taken
  exact ⟨_, jsonb_write unique texts taken, decodeWork_spelled (jsonb_carries.work work).2⟩

end N2FNest.Audit
