import N2FNest.Provenance.Work
import N2FNest.Shared.Stringify

/-! Work as a JSON object, as events and the audit log encode it, and what a
reader relies on when the object comes back. -/

namespace N2FNest.Provenance

open Lib Shared Json

variable {α : Type}

/-- `value ?? undefined`: a field of an absent value is not written. -/
def orUndefined (encode : α → JsValue) : Option α → JsValue
  | none => .undefined
  | some value => encode value

def Actor.fields (actor : Actor) : JsObject :=
  [(js "kind", .string actor.kind.text), (js "identity", orUndefined .string actor.identity)]

def Reference.fields (reference : Reference) : JsObject :=
  [(js "kind", .string reference.kind.text), (js "id", .string reference.id.text)]

def Attribution.fields (attribution : Attribution) : JsObject :=
  [(js "initiator", orUndefined (fun actor => .object actor.fields) attribution.initiator),
    (js "on_behalf_of", orUndefined (fun actor => .object actor.fields) attribution.onBehalfOf),
    (js "tenant", orUndefined .string attribution.tenant)]

def ReplayOf.fields (replay : ReplayInfo) : JsObject :=
  [(js "run_id", .string replay.runId.text), (js "source", .object replay.source.fields)]

/-- The object of `workOut` and of `encodeWork`. -/
def workFields (work : WorkSnapshot) : JsObject :=
  [(js "work_id", .string work.workId.text),
    (js "correlation_id", .string work.correlationId.text),
    (js "correlation_source", .string work.correlationSource.text),
    (js "operation", .string work.operation.text),
    (js "attribution", .object work.attribution.fields),
    (js "causation", orUndefined (fun reference => .object reference.fields) work.causation),
    (js "origin", orUndefined (fun origin => .string origin.text) work.origin),
    (js "depth", orUndefined (fun depth => .number (.ofNat depth)) work.depth),
    (js "replay", orUndefined (fun replay => .object replay.fields) work.replay)]

def actorNames : List JsString := [js "kind", js "identity"]

def referenceNames : List JsString := [js "kind", js "id"]

def attributionNames : List JsString := [js "initiator", js "on_behalf_of", js "tenant"]

def replayNames : List JsString := [js "run_id", js "source"]

def workNames : List JsString :=
  [js "work_id", js "correlation_id", js "correlation_source", js "operation", js "attribution",
    js "causation", js "origin", js "depth", js "replay"]

def Named (fields : JsObject) (names : List JsString) : Prop :=
  ∀ name ∈ fields.map Prod.fst, name ∈ names

structure SpellsActor (fields : JsObject) (actor : Actor) : Prop where
  kind : fields.read (js "kind") = .string actor.kind.text
  identity : fields.read (js "identity") = orUndefined .string actor.identity
  named : Named fields actorNames

structure SpellsReference (fields : JsObject) (reference : Reference) : Prop where
  kind : fields.read (js "kind") = .string reference.kind.text
  id : fields.read (js "id") = .string reference.id.text
  named : Named fields referenceNames

/-- An absent value is spelled by no field, another one by an object. -/
def SpellsOptional (spells : JsObject → α → Prop) (value : JsValue) : Option α → Prop
  | none => value = .undefined
  | some item => ∃ fields, value = .object fields ∧ spells fields item

structure SpellsAttribution (fields : JsObject) (attribution : Attribution) : Prop where
  initiator : SpellsOptional SpellsActor (fields.read (js "initiator")) attribution.initiator
  onBehalfOf : SpellsOptional SpellsActor (fields.read (js "on_behalf_of")) attribution.onBehalfOf
  tenant : fields.read (js "tenant") = orUndefined .string attribution.tenant
  named : Named fields attributionNames

structure SpellsReplay (fields : JsObject) (replay : ReplayInfo) : Prop where
  runId : fields.read (js "run_id") = .string replay.runId.text
  source : ∃ source, fields.read (js "source") = .object source ∧ SpellsReference source replay.source
  named : Named fields replayNames

structure SpellsWork (fields : JsObject) (work : WorkSnapshot) : Prop where
  workId : fields.read (js "work_id") = .string work.workId.text
  correlationId : fields.read (js "correlation_id") = .string work.correlationId.text
  correlationSource : fields.read (js "correlation_source") = .string work.correlationSource.text
  operation : fields.read (js "operation") = .string work.operation.text
  attribution : ∃ spelled, fields.read (js "attribution") = .object spelled ∧
    SpellsAttribution spelled work.attribution
  causation : SpellsOptional SpellsReference (fields.read (js "causation")) work.causation
  origin : fields.read (js "origin") = orUndefined (fun origin => .string origin.text) work.origin
  depth : fields.read (js "depth") = orUndefined (fun depth => .number (.ofNat depth)) work.depth
  replay : SpellsOptional SpellsReplay (fields.read (js "replay")) work.replay
  named : Named fields workNames

/-- How a value goes through a store: texts and small numbers stay, and objects are read alike. -/
structure Carries (carry : JsValue → JsValue) (inside : JsObject → JsObject) : Prop where
  undefined : carry .undefined = .undefined
  string : ∀ text, carry (.string text) = .string text
  number : ∀ value ≤ MAX_UINT32, carry (.number (.ofNat value)) = .number (.ofNat value)
  object : ∀ fields : JsObject, (fields.map Prod.fst).Nodup →
    (∀ name ∈ fields.map Prod.fst, index? name = none) → carry (.object fields) = .object (inside fields)
  read : ∀ fields : JsObject, (fields.map Prod.fst).Nodup →
    ∀ name, (inside fields).read name = carry (fields.read name)
  names : ∀ fields : JsObject, (inside fields).map Prod.fst ⊆ fields.map Prod.fst

namespace Carries

variable {carry : JsValue → JsValue} {inside : JsObject → JsObject} (carries : Carries carry inside)

include carries

theorem orUndefined_string (text : Option JsString) :
    carry (orUndefined .string text) = orUndefined .string text := by
  cases text with
  | none => exact carries.undefined
  | some text => exact carries.string text

/-- What is found of an object under names that are no numbers. -/
theorem found (fields : JsObject) (names : List JsString) (same : fields.map Prod.fst = names)
    (unique : names.Nodup)
    (letters : ∀ name ∈ names, (name.units.any fun unit => !Decimal.isDigit unit) = true) :
    carry (.object fields) = .object (inside fields) ∧
      (∀ name, (inside fields).read name = carry (fields.read name)) ∧ Named (inside fields) names := by
  subst same
  have texts := fun name member => index?_eq_none (letters name member)
  refine ⟨carries.object fields unique texts, carries.read fields unique, ?_⟩
  exact fun name member => carries.names fields member

theorem actor (actor : Actor) :
    carry (.object actor.fields) = .object (inside actor.fields) ∧
      SpellsActor (inside actor.fields) actor := by
  obtain ⟨object, read, named⟩ := carries.found actor.fields actorNames rfl (by decide) (by decide)
  refine ⟨object, ?_, ?_, named⟩
  · rw [read]
    exact carries.string _
  · rw [read]
    exact carries.orUndefined_string actor.identity

theorem reference (reference : Reference) :
    carry (.object reference.fields) = .object (inside reference.fields) ∧
      SpellsReference (inside reference.fields) reference := by
  obtain ⟨object, read, named⟩ :=
    carries.found reference.fields referenceNames rfl (by decide) (by decide)
  refine ⟨object, ?_, ?_, named⟩
  · rw [read]
    exact carries.string _
  · rw [read]
    exact carries.string _

/-- An optional object, where a present one is spelled. -/
theorem spellsOptional {fields : α → JsObject} {spells : JsObject → α → Prop} (item : Option α)
    (present : ∀ item, carry (.object (fields item)) = .object (inside (fields item)) ∧
      spells (inside (fields item)) item) :
    SpellsOptional spells (carry (orUndefined (fun item => .object (fields item)) item)) item := by
  cases item with
  | none => exact carries.undefined
  | some item =>
    obtain ⟨object, spelled⟩ := present item
    exact ⟨inside (fields item), object, spelled⟩

theorem attribution (attribution : Attribution) :
    carry (.object attribution.fields) = .object (inside attribution.fields) ∧
      SpellsAttribution (inside attribution.fields) attribution := by
  obtain ⟨object, read, named⟩ :=
    carries.found attribution.fields attributionNames rfl (by decide) (by decide)
  refine ⟨object, ?_, ?_, ?_, named⟩
  · rw [read]
    exact carries.spellsOptional attribution.initiator carries.actor
  · rw [read]
    exact carries.spellsOptional attribution.onBehalfOf carries.actor
  · rw [read]
    exact carries.orUndefined_string attribution.tenant

theorem replay (replay : ReplayInfo) :
    carry (.object replay.fields) = .object (inside replay.fields) ∧
      SpellsReplay (inside replay.fields) replay := by
  obtain ⟨object, read, named⟩ :=
    carries.found replay.fields replayNames rfl (by decide) (by decide)
  obtain ⟨source, spelled⟩ := carries.reference replay.source
  refine ⟨object, ?_, ⟨inside replay.source.fields, ?_, spelled⟩, named⟩
  · rw [read]
    exact carries.string _
  · rw [read]
    exact source

/-- Work is spelled by what is carried of its encoding. -/
theorem work (context : WorkContext) :
    carry (.object (workFields context.snapshot)) = .object (inside (workFields context.snapshot)) ∧
      SpellsWork (inside (workFields context.snapshot)) context.snapshot := by
  obtain ⟨object, read, named⟩ :=
    carries.found (workFields context.snapshot) workNames rfl (by decide) (by decide)
  obtain ⟨attributed, spelled⟩ := carries.attribution context.snapshot.attribution
  refine ⟨object, ?_, ?_, ?_, ?_, ⟨inside context.snapshot.attribution.fields, ?_, spelled⟩, ?_, ?_, ?_,
    ?_, named⟩
  · rw [read]
    exact carries.string _
  · rw [read]
    exact carries.string _
  · rw [read]
    exact carries.string _
  · rw [read]
    exact carries.string _
  · rw [read]
    exact attributed
  · rw [read]
    exact carries.spellsOptional context.snapshot.causation carries.reference
  · rw [read]
    show carry (orUndefined _ context.snapshot.origin) = _
    cases context.snapshot.origin with
    | none => exact carries.undefined
    | some origin => exact carries.string origin.text
  · rw [read]
    show carry (orUndefined _ context.snapshot.depth) = _
    cases depth : context.snapshot.depth with
    | none => exact carries.undefined
    | some value => exact carries.number value (context.depth_le depth)
  · rw [read]
    exact carries.spellsOptional context.snapshot.replay carries.replay

end Carries

/-- What JSON keeps of an object. -/
theorem keep_carries : Carries keep cleanFields where
  undefined := rfl
  string _ := rfl
  number value bound := by
    unfold MAX_UINT32 at bound
    exact clean_ofNat (by omega)
  object _ unique texts := clean_object unique texts
  read _ unique := read_cleanFields unique
  names fields := (cleanFields_names fields).subset

end N2FNest.Provenance
