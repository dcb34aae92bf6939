import N2FNest.Events.Wire

/-! Envelopes go through their bytes unchanged, and their work is that of the writer
who created them. -/

namespace N2FNest.Events

open Lib Shared Json Provenance

theorem hasOwn_iff {fields : JsObject} {name : JsString} :
    hasOwn fields name = true ↔ name ∈ fields.map Prod.fst := by
  rw [hasOwn, List.any_eq_true, List.mem_map]
  constructor
  · rintro ⟨field, member, same⟩
    exact ⟨field, member, of_decide_eq_true same⟩
  · rintro ⟨field, member, same⟩
    exact ⟨field, member, decide_eq_true same⟩

private theorem read_defined {fields : JsObject} {name : JsString}
    (defined : ∀ field ∈ fields, isUndefined field.2 = false) :
    name ∈ fields.map Prod.fst ↔ fields.read name ≠ .undefined := by
  induction fields with
  | nil => simp [JsObject.read]
  | cons field rest ih =>
    obtain ⟨other, value⟩ := field
    obtain ⟨here, later⟩ := List.forall_mem_cons.mp defined
    rw [read_cons, List.map_cons, List.mem_cons]
    by_cases same : name = other
    · have present : value ≠ .undefined := by
        rintro rfl
        cases here
      simp [same, present]
    · simp [same, ih later]

def envelopeNames : List JsString := requiredNames ++ [js "subject", js "tenant"]

/-- What the checks of the header found. -/
structure Headed (input : JsObject) (type : JsString) (time : Nat) : Prop where
  count : input.length = expectedKeys input
  required : ∀ name ∈ requiredNames, hasOwn input name = true
  version : input.read (js "v") = .number (.ofNat 1)
  named : input.read (js "type") = .string type
  timed : input.read (js "occurred_at_ms") = .number (.ofNat time)
  fits : (type.length ≤ 128 && isEventType type && time ≤ 253402300799999) = true

theorem header?_some {input : JsObject} {type : JsString} {time : Nat} :
    header? input = some (type, time) ↔ Headed input type time := by
  constructor
  · intro found
    unfold header? at found
    split at found
    · rename_i names
      obtain ⟨count, required⟩ := Bool.and_eq_true_iff.mp names
      split at found
      · rename_i v stated occurredAtMs version named timed
        split at found
        · rename_i time safe
          split at found
          · rename_i fits
            obtain ⟨rfl, rfl⟩ := Prod.mk.inj (Option.some.inj found)
            simp only [Bool.and_eq_true, decide_eq_true_eq] at fits
            obtain ⟨⟨⟨one, short⟩, matched⟩, late⟩ := fits
            refine ⟨of_decide_eq_true count, List.all_eq_true.mp required, ?_, named, ?_, ?_⟩
            · rw [version, one]
            · rw [timed, (JsNumber.safeNat?_some safe).1]
            · simp [short, matched, late]
          · cases found
        · cases found
      · cases found
    · cases found
  · intro headed
    have fits := headed.fits
    simp only [Bool.and_eq_true, decide_eq_true_eq] at fits
    obtain ⟨⟨short, matched⟩, late⟩ := fits
    have safe := JsNumber.safeNat?_ofNat (show time ≤ 9007199254740991 by omega)
    have required : requiredNames.all (hasOwn input) = true := List.all_eq_true.mpr headed.required
    unfold header?
    simp only [decide_eq_true headed.count, required, headed.version, headed.named, headed.timed,
      safe, short, matched, late, Bool.and_self, decide_true, if_true]

/-- An envelope has no names but its own. -/
theorem Headed.names {input : JsObject} {type : JsString} {time : Nat}
    (headed : Headed input type time) :
    ∀ name ∈ input.map Prod.fst, name ∈ envelopeNames := by
  let here := fun name => if hasOwn input name then [name] else []
  have one : ∀ name, here name = [name] ∧ hasOwn input name = true ∨ here name = [] := by
    intro name
    by_cases own : hasOwn input name = true
    · exact .inl ⟨if_pos own, own⟩
    · exact .inr (if_neg own)
  have length : ∀ name, (here name).length = if hasOwn input name then 1 else 0 := by
    intro name
    show (if hasOwn input name then [name] else []).length = _
    split <;> rfl
  have present : ∀ name, here name ⊆ input.map Prod.fst := by
    intro name other member
    rcases one name with ⟨same, own⟩ | gone
    · rw [same, List.mem_singleton] at member
      exact member ▸ hasOwn_iff.mp own
    · rw [gone] at member
      cases member
  have part : ∀ name, here name ⊆ [name] := by
    intro name
    rcases one name with ⟨same, -⟩ | gone
    · exact same ▸ List.Subset.refl _
    · rw [gone]
      exact List.nil_subset _
  let names := requiredNames ++ (here (js "subject") ++ here (js "tenant"))
  have distinct : names.Nodup := by
    show (requiredNames ++ (here (js "subject") ++ here (js "tenant"))).Nodup
    rcases one (js "subject") with ⟨subject, -⟩ | subject <;>
      rcases one (js "tenant") with ⟨tenant, -⟩ | tenant <;> rw [subject, tenant] <;> decide
  have inside : names ⊆ input.map Prod.fst := by
    refine List.append_subset.mpr ⟨fun name member => hasOwn_iff.mp (headed.required name member), ?_⟩
    exact List.append_subset.mpr ⟨present _, present _⟩
  have size : (input.map Prod.fst).length ≤ names.length := by
    have required : requiredNames.length = 6 := rfl
    rw [List.length_map, headed.count, expectedKeys, List.length_append, List.length_append, length,
      length, required]
    omega
  have same := (distinct.subperm inside).perm_of_length_le size
  intro name member
  rcases List.mem_append.mp (same.mem_iff.mpr member) with required | extra
  · exact List.mem_append_left _ required
  · apply List.mem_append_right
    rcases List.mem_append.mp extra with subject | tenant
    · exact List.mem_cons.mpr (.inl (List.mem_singleton.mp (part _ subject)))
    · exact List.mem_cons_of_mem _ (part _ tenant)

private theorem envelopeNames_texts : ∀ name ∈ envelopeNames, index? name = none := by
  have letters : ∀ name ∈ envelopeNames,
      (name.units.any fun unit => !Decimal.isDigit unit) = true := by decide
  exact fun name member => index?_eq_none (letters name member)

/-- The object whose bytes a decoded envelope keeps. -/
def WireEnvelope.normalized (event : WireEnvelope) (input : JsObject) : JsObject :=
  spread input (normalFields event.id event.work event.subject event.tenant)

structure Decoded (input : JsObject) (event : WireEnvelope) : Prop where
  headed : Headed input event.type event.occurredAtMs
  payload : ∃ payload, input.read (js "payload") = .object payload
  id : ∃ text, input.read (js "id") = .string text ∧ parse (.string text) = .ok event.id
  work : workIn (input.read (js "work")) = .ok event.work
  subject : subjectIn (input.read (js "subject")) = .ok event.subject
  tenant : tenantIdIn (input.read (js "tenant")) = .ok event.tenant
  raw : event.raw = bytesOf (event.normalized input)
  size : event.raw.length ≤ 65536

theorem asObject_ok {value : JsValue} {fields : JsObject} :
    asObject value = .ok fields ↔ value = .object fields := by
  cases value <;> simp [asObject]

private theorem asString_ok {value : JsValue} {text : JsString} :
    asString value = .ok text ↔ value = .string text := by
  cases value <;> simp [asString]

theorem decodeFields_ok {input : JsObject} {event : WireEnvelope} :
    decodeFields input = .ok event ↔ Decoded input event := by
  unfold decodeFields
  constructor
  · intro decoded
    split at decoded
    · cases decoded
    · rename_i type time found
      obtain ⟨payload, present, decoded⟩ := bind_ok decoded
      obtain ⟨text, spelled, decoded⟩ := bind_ok decoded
      obtain ⟨id, parsed, decoded⟩ := bind_ok decoded
      obtain ⟨work, worked, decoded⟩ := bind_ok decoded
      obtain ⟨subject, subjected, decoded⟩ := bind_ok decoded
      obtain ⟨tenant, owned, decoded⟩ := bind_ok decoded
      dsimp only at decoded
      split at decoded
      · cases decoded
      · rename_i size
        cases decoded
        exact ⟨header?_some.mp found, ⟨payload, asObject_ok.mp present⟩,
          ⟨text, asString_ok.mp spelled, parsed⟩, worked, subjected, owned, rfl, not_lt.mp size⟩
  · rintro ⟨headed, ⟨payload, present⟩, ⟨text, spelled, parsed⟩, worked, subjected, owned, same, size⟩
    obtain ⟨id, raw, work, type, time, subject, tenant⟩ := event
    dsimp only at headed parsed worked subjected owned size
    have same : raw = bytesOf (spread input (normalFields id work subject tenant)) := same
    subst same
    simp only [header?_some.mpr headed, present, asObject, spelled, asString, ok_bind, parsed, worked,
      subjected, owned, if_neg (not_lt.mpr size)]
    rfl

/-- The object read from the bytes of an object. -/
theorem jsonOf_bytesOf {fields : JsObject} (unique : (fields.map Prod.fst).Nodup)
    (texts : ∀ name ∈ fields.map Prod.fst, index? name = none) :
    jsonOf (bytesOf fields) = some (.object (cleanFields fields)) := by
  have tidy := clean_tidy (.object fields)
  rw [jsonOf, bytesOf]
  rw [clean_object unique texts] at tidy ⊢
  rw [decodeUtf8_write tidy]
  exact parse_write tidy

theorem subjectIn_ok {value : JsValue} {subject : Option EventSubject}
    (read : subjectIn value = .ok subject) :
    subject = none ∧ value = .undefined ∨
      ∃ item, subject = some item ∧ value ≠ .undefined ∧ item.kind.isToken 63 = true := by
  unfold subjectIn at read
  split at read
  · cases read
    exact .inl ⟨rfl, rfl⟩
  · rename_i defined
    obtain ⟨input, -, read⟩ := bind_ok read
    obtain ⟨-, -, read⟩ := bind_ok read
    obtain ⟨kind, -, read⟩ := bind_ok read
    split at read
    · cases read
    · rename_i token
      obtain ⟨id, -, read⟩ := bind_ok read
      obtain ⟨id, -, read⟩ := bind_ok read
      cases read
      exact .inr ⟨⟨kind, id⟩, rfl, defined, by simpa using token⟩

/-- A written subject is read as itself. -/
theorem subjectIn_written {subject : EventSubject} (token : subject.kind.isToken 63 = true) :
    subjectIn (keep (.object subject.fields)) = .ok (some subject) := by
  obtain ⟨object, read, named⟩ :=
    keep_carries.found subject.fields referenceNames rfl (by decide) (by decide)
  have kind : (cleanFields subject.fields).read (js "kind") = .string subject.kind := read _
  have id : (cleanFields subject.fields).read (js "id") = .string subject.id.text := read _
  rw [object]
  simp only [subjectIn, asObject, ok_bind, checkKeys_ok named, kind, id, asString, token, Bool.not_true,
    Bool.false_eq_true, if_false, parse_text]
  rfl

theorem tenantIdIn_ok {value : JsValue} {tenant : Option ID}
    (read : tenantIdIn value = .ok tenant) :
    tenant = none ∧ value = .undefined ∨ ∃ item, tenant = some item ∧ value ≠ .undefined := by
  unfold tenantIdIn at read
  split at read
  · cases read
    exact .inl ⟨rfl, rfl⟩
  · rename_i defined
    obtain ⟨text, -, read⟩ := bind_ok read
    obtain ⟨id, -, read⟩ := bind_ok read
    cases read
    exact .inr ⟨id, rfl, defined⟩

theorem normalFields_names (id : ID) (work : WorkContext) (subject : Option EventSubject)
    (tenant : Option ID) :
    (normalFields id work subject tenant).map Prod.fst = [js "id", js "work"] ++
      (if subject.isSome then [js "subject"] else []) ++
      (if tenant.isSome then [js "tenant"] else []) := by
  cases subject <;> cases tenant <;> rfl

private theorem normalFields_nodup (id : ID) (work : WorkContext) (subject : Option EventSubject)
    (tenant : Option ID) : ((normalFields id work subject tenant).map Prod.fst).Nodup := by
  rw [normalFields_names]
  generalize subject.isSome = about
  generalize tenant.isSome = owned
  revert about owned
  decide

private theorem normalFields_optional (id : ID) (work : WorkContext) (subject : Option EventSubject)
    (tenant : Option ID) :
    (js "subject" ∈ (normalFields id work subject tenant).map Prod.fst ↔ subject.isSome = true) ∧
      (js "tenant" ∈ (normalFields id work subject tenant).map Prod.fst ↔ tenant.isSome = true) := by
  rw [normalFields_names]
  generalize subject.isSome = about
  generalize tenant.isSome = owned
  revert about owned
  decide

private theorem normalFields_defined (id : ID) (work : WorkContext) (subject : Option EventSubject)
    (tenant : Option ID) :
    ∀ field ∈ normalFields id work subject tenant, isUndefined field.2 = false := by
  cases subject <;> cases tenant <;> simp [normalFields, isUndefined, workOut]

theorem WireEnvelope.normalized_read (event : WireEnvelope) (input : JsObject) (name : JsString) :
    (event.normalized input).read name =
      if name ∈ (normalFields event.id event.work event.subject event.tenant).map Prod.fst then
        (normalFields event.id event.work event.subject event.tenant).read name
      else input.read name :=
  read_spread input (normalFields_nodup _ _ _ _) name

private theorem normalized_defined {input : JsObject} (event : WireEnvelope)
    (defined : ∀ field ∈ input, isUndefined field.2 = false) :
    ∀ field ∈ event.normalized input, isUndefined field.2 = false := by
  intro field member
  rcases spread_member member with early | late
  · exact defined field early
  · exact normalFields_defined _ _ _ _ field late

section Normalized

variable {input : JsObject} {event : WireEnvelope} (decoded : Decoded input event)
variable (unique : (input.map Prod.fst).Nodup)
variable (defined : ∀ field ∈ input, isUndefined field.2 = false)

include decoded defined

private theorem normalFields_inside :
    (normalFields event.id event.work event.subject event.tenant).map Prod.fst ⊆ input.map Prod.fst := by
  rw [normalFields_names]
  have required := fun name member => hasOwn_iff.mp (decoded.headed.required name member)
  refine List.append_subset.mpr ⟨List.append_subset.mpr ⟨?_, ?_⟩, ?_⟩
  · refine List.cons_subset.mpr ⟨required _ (by decide), ?_⟩
    exact List.cons_subset.mpr ⟨required _ (by decide), List.nil_subset _⟩
  · rcases subjectIn_ok decoded.subject with ⟨same, -⟩ | ⟨item, same, present, -⟩
    · simp [same]
    · rw [same]
      exact List.cons_subset.mpr ⟨(read_defined defined).mpr present, List.nil_subset _⟩
  · rcases tenantIdIn_ok decoded.tenant with ⟨same, -⟩ | ⟨item, same, present⟩
    · simp [same]
    · rw [same]
      exact List.cons_subset.mpr ⟨(read_defined defined).mpr present, List.nil_subset _⟩

theorem normalized_names : (event.normalized input).map Prod.fst = input.map Prod.fst :=
  spread_names (normalFields_inside decoded defined)

/-- The object that the bytes of a decoded envelope give. -/
private theorem renewed_names :
    (cleanFields (event.normalized input)).map Prod.fst = input.map Prod.fst :=
  (cleanFields_defined (normalized_defined event defined)).trans (normalized_names decoded defined)

include unique

theorem renewed_read (name : JsString) :
    (cleanFields (event.normalized input)).read name =
      keep (if name ∈ (normalFields event.id event.work event.subject event.tenant).map Prod.fst then
        (normalFields event.id event.work event.subject event.tenant).read name
        else input.read name) := by
  have distinct := (normalized_names decoded defined).symm ▸ unique
  rw [read_cleanFields distinct, event.normalized_read]

theorem renewed_kept {name : JsString}
    (other : name ∉ [js "id", js "work", js "subject", js "tenant"]) :
    (cleanFields (event.normalized input)).read name = keep (input.read name) := by
  rw [renewed_read decoded unique defined, if_neg]
  intro member
  refine other (?_ : name ∈ [js "id", js "work", js "subject", js "tenant"])
  rw [normalFields_names] at member
  generalize event.subject.isSome = about at member
  generalize event.tenant.isSome = owned at member
  cases about <;> cases owned <;> simp_all

/-- What is written again is the object itself. -/
private theorem renewed_renewed :
    cleanFields (event.normalized (cleanFields (event.normalized input))) =
      cleanFields (event.normalized input) := by
  have names := renewed_names decoded defined
  have read := renewed_read decoded unique defined
  have kept : ∀ field ∈ cleanFields (event.normalized input), isUndefined field.2 = false :=
    fun field member => (cleanFields_clean _ field member).1
  have inside := normalFields_inside decoded defined
  rw [← names] at inside unique
  have again : (event.normalized (cleanFields (event.normalized input))).map Prod.fst =
      (cleanFields (event.normalized input)).map Prod.fst := spread_names inside
  have twice := (cleanFields_defined (normalized_defined event kept)).trans again
  refine fields_ext twice (twice ▸ unique) fun name _ => ?_
  have outer := read_spread (cleanFields (event.normalized input))
    (normalFields_nodup event.id event.work event.subject event.tenant) name
  rw [read_cleanFields (again.symm ▸ unique)]
  refine (congrArg keep outer).trans ?_
  rw [read name]
  split
  · rfl
  · exact keep_keep _

/-- The object that the bytes give decodes to the same envelope. -/
theorem Decoded.renewed : Decoded (cleanFields (event.normalized input)) event := by
  have names := renewed_names decoded defined
  have read := renewed_read decoded unique defined
  have own : ∀ name, hasOwn (cleanFields (event.normalized input)) name = hasOwn input name := by
    intro name
    rw [Bool.eq_iff_iff, hasOwn_iff, hasOwn_iff, names]
  have count : (cleanFields (event.normalized input)).length = input.length := by
    have lengths := congrArg List.length names
    rwa [List.length_map, List.length_map] at lengths
  obtain ⟨payload, present⟩ := decoded.payload
  refine
    { headed :=
        { count := by rw [count, decoded.headed.count, expectedKeys, expectedKeys, own, own]
          required := fun name member => (own name).trans (decoded.headed.required name member)
          version := ?_
          named := ?_
          timed := ?_
          fits := decoded.headed.fits }
      payload := ⟨ordered (merge (cleanFields payload)), ?_⟩
      id := ⟨event.id.text, ?_, parse_text event.id⟩
      work := ?_
      subject := ?_
      tenant := ?_
      raw := ?_
      size := decoded.size }
  · rw [renewed_kept decoded unique defined (by decide), decoded.headed.version]
    exact clean_ofNat (by decide)
  · rw [renewed_kept decoded unique defined (by decide), decoded.headed.named]
    rfl
  · have fits := decoded.headed.fits
    rw [Bool.and_eq_true, decide_eq_true_eq] at fits
    rw [renewed_kept decoded unique defined (by decide), decoded.headed.timed]
    exact clean_ofNat (by have late := fits.2; omega)
  · rw [renewed_kept decoded unique defined (by decide), present]
    rfl
  · rw [read, if_pos (by rw [normalFields_names]; simp)]
    rfl
  · rw [read, if_pos (by rw [normalFields_names]; simp)]
    exact workIn_workOut event.work
  · rw [read]
    rcases subjectIn_ok decoded.subject with ⟨same, absent⟩ | ⟨item, same, -, token⟩
    · rw [if_neg (by simp [(normalFields_optional _ _ _ _).1, same]), absent, same]
      rfl
    · rw [if_pos (by simp [(normalFields_optional _ _ _ _).1, same]), same]
      exact subjectIn_written token
  · rw [read]
    rcases tenantIdIn_ok decoded.tenant with ⟨same, absent⟩ | ⟨item, same, -⟩
    · rw [if_neg (by simp [(normalFields_optional _ _ _ _).2, same]), absent, same]
      rfl
    · rw [if_pos (by simp [(normalFields_optional _ _ _ _).2, same]), same]
      have written : (normalFields event.id event.work event.subject (some item)).read (js "tenant") =
          .string item.text := by
        cases event.subject <;> rfl
      rw [written]
      show tenantIdIn (.string item.text) = _
      simp only [tenantIdIn, asString, ok_bind, parse_text]
      rfl
  · have texts : ∀ name ∈ input.map Prod.fst, index? name = none :=
      fun name member => envelopeNames_texts name (decoded.headed.names name member)
    have inner := normalized_names decoded defined
    have inside := normalFields_inside decoded defined
    have outer : (event.normalized (cleanFields (event.normalized input))).map Prod.fst =
        input.map Prod.fst := (spread_names (names.symm ▸ inside)).trans names
    have first := clean_object (inner.symm ▸ unique) (inner.symm ▸ texts)
    have second := clean_object (outer.symm ▸ unique) (outer.symm ▸ texts)
    rw [decoded.raw, bytesOf, bytesOf, first, second, renewed_renewed decoded unique defined]

end Normalized

theorem decode_ok {raw : List UInt8} {event : WireEnvelope} :
    WireEnvelope.decode raw = .ok event ↔
      raw.length ≤ 65536 ∧ ∃ input, jsonOf raw = some (.object input) ∧ Decoded input event := by
  unfold WireEnvelope.decode
  constructor
  · intro decoded
    split at decoded
    · cases decoded
    · rename_i size
      split at decoded
      · rename_i input read
        exact ⟨not_lt.mp size, input, read, decodeFields_ok.mp (mapError_ok decoded)⟩
      · cases decoded
  · rintro ⟨size, input, read, decoded⟩
    simp only [if_neg (not_lt.mpr size), read, decodeFields_ok.mpr decoded]
    rfl

/-- The object that the bytes of a decoded envelope spell. -/
theorem Decoded.written {input : JsObject} {event : WireEnvelope} (decoded : Decoded input event)
    (unique : (input.map Prod.fst).Nodup) (defined : ∀ field ∈ input, isUndefined field.2 = false) :
    jsonOf event.raw = some (.object (cleanFields (event.normalized input))) ∧
      Tidy (.object (cleanFields (event.normalized input))) := by
  have names := normalized_names decoded defined
  have texts : ∀ name ∈ input.map Prod.fst, index? name = none :=
    fun name member => envelopeNames_texts name (decoded.headed.names name member)
  have tidy := clean_tidy (.object (event.normalized input))
  rw [clean_object (names.symm ▸ unique) (names.symm ▸ texts)] at tidy
  refine ⟨?_, tidy⟩
  rw [decoded.raw]
  exact jsonOf_bytesOf (names.symm ▸ unique) (names.symm ▸ texts)

/-- The object an envelope was decoded from. -/
theorem decode_input {raw : List UInt8} {event : WireEnvelope}
    (decoded : WireEnvelope.decode raw = .ok event) : ∃ input, Decoded input event ∧
      (input.map Prod.fst).Nodup ∧ ∀ field ∈ input, isUndefined field.2 = false := by
  obtain ⟨-, input, read, decoded⟩ := decode_ok.mp decoded
  obtain ⟨text, -, parsed⟩ := Option.bind_eq_some_iff.mp read
  exact ⟨input, decoded, parse_object parsed⟩

/-- The bytes of a decoded envelope spell an object that decodes to the envelope itself. -/
theorem decode_written {raw : List UInt8} {event : WireEnvelope}
    (decoded : WireEnvelope.decode raw = .ok event) : event.raw.length ≤ 65536 ∧
      ∃ fields, jsonOf event.raw = some (.object fields) ∧ Tidy (.object fields) ∧
        Decoded fields event := by
  obtain ⟨input, decoded, unique, defined⟩ := decode_input decoded
  obtain ⟨written, tidy⟩ := decoded.written unique defined
  exact ⟨decoded.size, _, written, tidy, decoded.renewed unique defined⟩

/-- The bytes of a decoded envelope are short, decode to the envelope itself and hold its payload. -/
theorem decode_again {raw : List UInt8} {event : WireEnvelope}
    (decoded : WireEnvelope.decode raw = .ok event) :
    event.raw.length ≤ 65536 ∧ WireEnvelope.decode event.raw = .ok event ∧
      ∃ payload, event.payload = .ok payload := by
  obtain ⟨size, fields, written, -, renewed⟩ := decode_written decoded
  obtain ⟨payload, present⟩ := renewed.payload
  refine ⟨size, decode_ok.mpr ⟨size, fields, written, renewed⟩, payload, ?_⟩
  rw [WireEnvelope.payload, written]
  exact asObject_ok.mpr present

/-- What the checks of a decoded envelope found. -/
theorem decode_checks {raw : List UInt8} {event : WireEnvelope}
    (decoded : WireEnvelope.decode raw = .ok event) :
    isEventType event.type = true ∧ event.occurredAtMs ≤ 253402300799999 ∧
      event.subject.all (fun subject => subject.kind.isToken 63) = true := by
  obtain ⟨-, input, -, decoded⟩ := decode_ok.mp decoded
  have fits := decoded.headed.fits
  simp only [Bool.and_eq_true, decide_eq_true_eq] at fits
  refine ⟨fits.1.2, fits.2, ?_⟩
  rcases subjectIn_ok decoded.subject with ⟨same, -⟩ | ⟨item, same, -, token⟩
  · rw [same]
    rfl
  · rw [same]
    exact token

private theorem createFields_names (id type : JsString) (occurredAtMs : JsNumber) (work : WorkContext)
    (payload : JsValue) (subject : Option (JsString × JsString)) (tenant : Option JsString) :
    (createFields id type occurredAtMs work payload subject tenant).map Prod.fst =
      requiredNames ++ (if subject.isSome then [js "subject"] else []) ++
        (if tenant.isSome then [js "tenant"] else []) := by
  cases subject <;> cases tenant <;> rfl

theorem createFields_plain (id type : JsString) (occurredAtMs : JsNumber) (work : WorkContext)
    (payload : JsValue) (subject : Option (JsString × JsString)) (tenant : Option JsString) :
    let names := (createFields id type occurredAtMs work payload subject tenant).map Prod.fst
    names.Nodup ∧ ∀ name ∈ names, index? name = none := by
  have letters : ∀ about owned : Bool, (requiredNames ++ (if about then [js "subject"] else []) ++
      (if owned then [js "tenant"] else [])).Nodup ∧
      ∀ name ∈ requiredNames ++ (if about then [js "subject"] else []) ++
        (if owned then [js "tenant"] else []),
        (name.units.any fun unit => !Decimal.isDigit unit) = true := by decide
  obtain ⟨unique, texts⟩ := letters subject.isSome tenant.isSome
  rw [createFields_names]
  exact ⟨unique, fun name member => index?_eq_none (texts name member)⟩

section Created

variable {id type : JsString} {occurredAtMs : JsNumber} {work : WorkContext} {payload : JsValue}
variable {subject : Option (JsString × JsString)} {tenant : Option JsString} {event : WireEnvelope}

theorem create_ok :
    WireEnvelope.create id type occurredAtMs work payload subject tenant = .ok event ↔
      (bytesOf (createFields id type occurredAtMs work payload subject tenant)).length ≤ 65536 ∧
        Decoded (cleanFields (createFields id type occurredAtMs work payload subject tenant)) event := by
  obtain ⟨unique, texts⟩ := createFields_plain id type occurredAtMs work payload subject tenant
  rw [WireEnvelope.create, decode_ok, jsonOf_bytesOf unique texts]
  simp

/-- Fields of few enough bytes that decode make an event. -/
theorem create_of_decodes
    (size : (bytesOf (createFields id type occurredAtMs work payload subject tenant)).length ≤ 65536)
    (decodes : (decodeFields (cleanFields
      (createFields id type occurredAtMs work payload subject tenant))).toOption.isSome = true) :
    ∃ event, WireEnvelope.create id type occurredAtMs work payload subject tenant = .ok event := by
  cases decoded : decodeFields (cleanFields
      (createFields id type occurredAtMs work payload subject tenant)) with
  | error problem =>
    rw [decoded] at decodes
    cases decodes
  | ok event => exact ⟨event, create_ok.mpr ⟨size, decodeFields_ok.mp decoded⟩⟩

/-- A created envelope carries the work it was created for. -/
theorem create_work
    (created : WireEnvelope.create id type occurredAtMs work payload subject tenant = .ok event) :
    event.work = work := by
  obtain ⟨unique, -⟩ := createFields_plain id type occurredAtMs work payload subject tenant
  have worked := (create_ok.mp created).2.work
  rw [read_cleanFields unique] at worked
  have held : (createFields id type occurredAtMs work payload subject tenant).read (js "work") =
      workOut work := rfl
  rw [held] at worked
  exact (Except.ok.inj ((workIn_workOut work).symm.trans worked)).symm

end Created

private theorem actorIn_orNull (item : Option Actor) :
    actorIn (keep (orNull (fun actor => .object actor.fields) item)) = .ok item := by
  cases item with
  | none => rfl
  | some item =>
    obtain ⟨object, spelled⟩ := keep_carries.actor item
    exact actorIn_spelled ⟨_, object, spelled⟩

private theorem referenceIn_orNull (item : Option Reference) :
    referenceIn (keep (orNull (fun reference => .object reference.fields) item)) = .ok item := by
  cases item with
  | none => rfl
  | some item =>
    obtain ⟨object, spelled⟩ := keep_carries.reference item
    exact referenceIn_spelled ⟨_, object, spelled⟩

private theorem originIn_orNull (item : Option Origin) :
    originIn (keep (orNull (fun origin => .string origin.text) item)) = .ok item := by
  cases item with
  | none => rfl
  | some item => cases item <;> rfl

private theorem tenantIn_orNull (item : Option JsString) :
    tenantIn (keep (orNull .string item)) = .ok item := by
  cases item <;> rfl

private theorem depthIn_orNull {item : Option Nat} (small : ∀ depth, item = some depth → depth ≤ MAX_UINT32) :
    depthIn (keep (orNull (fun depth => .number (.ofNat depth)) item)) = .ok item := by
  cases item with
  | none => rfl
  | some depth =>
    have bound := small depth rfl
    unfold MAX_UINT32 at bound
    have kept : keep (orNull (fun depth => .number (.ofNat depth)) (some depth)) =
        .number (.ofNat depth) := clean_ofNat (by omega)
    have safe := JsNumber.safeNat?_ofNat (show depth ≤ 9007199254740991 by omega)
    rw [kept]
    simp only [depthIn, isNullish, Bool.false_eq_true, if_false, safe]

/-- What gives back both of two values tells them apart. -/
private theorem inj_of_read {α : Type} {encode : α → JsValue} {read : JsValue → Except Failure α}
    (back : ∀ item, read (keep (encode item)) = .ok item) {left right : α}
    (same : keep (encode left) = keep (encode right)) : left = right := by
  have reads := back left
  rw [same, back right] at reads
  exact (Except.ok.inj reads).symm

/-- Equal objects of the same names are read alike. -/
private theorem keep_inj {left right : JsObject} (names : List JsString)
    (first : left.map Prod.fst = names) (second : right.map Prod.fst = names) (unique : names.Nodup)
    (letters : ∀ name ∈ names, (name.units.any fun unit => !Decimal.isDigit unit) = true)
    (same : keep (.object left) = keep (.object right)) (name : JsString) :
    keep (left.read name) = keep (right.read name) := by
  obtain ⟨object, read, -⟩ := keep_carries.found left names first unique letters
  obtain ⟨otherObject, otherRead, -⟩ := keep_carries.found right names second unique letters
  rw [object, otherObject] at same
  rw [← read, ← otherRead, JsValue.object.inj same]

private theorem attribution_inj {left right : Attribution}
    (same : keep (.object (comparableAttribution left)) = keep (.object (comparableAttribution right))) :
    left = right := by
  have reads := keep_inj [js "initiator", js "onBehalfOf", js "tenant"] rfl rfl (by decide) (by decide)
    same
  have initiator := inj_of_read actorIn_orNull (reads (js "initiator"))
  have onBehalfOf := inj_of_read actorIn_orNull (reads (js "onBehalfOf"))
  have tenant := inj_of_read tenantIn_orNull (reads (js "tenant"))
  obtain ⟨first, other, owner, valid⟩ := left
  obtain rfl : first = right.initiator := initiator
  obtain rfl : other = right.onBehalfOf := onBehalfOf
  obtain rfl : owner = right.tenant := tenant
  rfl

private theorem replay_inj {left right : Option ReplayInfo}
    (same : keep (orNull (fun replay => .object (comparableReplay replay)) left) =
      keep (orNull (fun replay => .object (comparableReplay replay)) right)) : left = right := by
  cases left with
  | none =>
    cases right with
    | none => rfl
    | some right => cases same
  | some left =>
    cases right with
    | none => cases same
    | some right =>
      have reads := keep_inj [js "runId", js "source"] rfl rfl (by decide) (by decide) same
      have runId := ID.eq_of_text (JsValue.string.inj (reads (js "runId")))
      have source : some left.source = some right.source :=
        inj_of_read referenceIn_orNull (reads (js "source"))
      obtain ⟨run, cause⟩ := left
      obtain rfl : run = right.runId := runId
      obtain rfl : cause = right.source := Option.some.inj source
      rfl

/-- Work is known by the text it is compared by. -/
theorem comparable_inj {left right : WorkContext} (same : comparable left = comparable right) :
    left.snapshot = right.snapshot := by
  have values := congrArg (fun units => Json.parse ⟨units⟩) same
  simp only [comparable, parse_write (clean_tidy _), Option.some.injEq] at values
  have reads := keep_inj
    [js "workId", js "correlationId", js "correlationSource", js "operation", js "attribution",
      js "causation", js "origin", js "depth", js "replay"] rfl rfl (by decide) (by decide) values
  have workId := ID.eq_of_text (JsValue.string.inj (reads (js "workId")))
  have correlationId := ID.eq_of_text (JsValue.string.inj (reads (js "correlationId")))
  have source : left.snapshot.correlationSource = right.snapshot.correlationSource := by
    have texts := congrArg CorrelationSource.ofText?
      (JsValue.string.inj (reads (js "correlationSource")))
    simpa using texts
  have operation : left.snapshot.operation = right.snapshot.operation :=
    Operation.ext (JsValue.string.inj (reads (js "operation")))
  have attribution := attribution_inj (reads (js "attribution"))
  have causation := inj_of_read referenceIn_orNull (reads (js "causation"))
  have origin := inj_of_read originIn_orNull (reads (js "origin"))
  have depth : left.snapshot.depth = right.snapshot.depth := by
    have first := depthIn_orNull fun depth known => left.depth_le known
    have second := depthIn_orNull fun depth known => right.depth_le known
    have read : keep (orNull _ left.snapshot.depth) = keep (orNull _ right.snapshot.depth) :=
      reads (js "depth")
    rw [read, second] at first
    exact (Except.ok.inj first).symm
  have replay := replay_inj (reads (js "replay"))
  exact WorkOf.ext workId correlationId source causation origin operation attribution depth replay

/-- The envelope as writers hold it. -/
def WireEnvelope.held (event : WireEnvelope) (payload : JsObject) : Envelope WorkContext where
  id := event.id
  type := event.type
  occurredAtMs := event.occurredAtMs
  work := event.work
  payload := payload
  subject := event.subject
  tenant := event.tenant

/-- Comparing texts is comparing works. -/
theorem assertEventWork_held (event : WireEnvelope) (payload : JsObject) (work : WorkContext) :
    event.assertEventWork work = Events.assertEventWork (event.held payload) work := by
  unfold WireEnvelope.assertEventWork Events.assertEventWork
  have same : comparable event.work = comparable work ↔ (event.held payload).work = work := by
    constructor
    · exact fun texts => WorkContext.eq_of_snapshot (comparable_inj texts)
    · exact fun works => congrArg comparable works
  simp only [same]

/-- Envelopes go through their bytes, and their work is the work they were created for. -/
theorem envelope_keeps_work :
    (∀ raw event, WireEnvelope.decode raw = .ok event →
      event.raw.length ≤ 65536 ∧ WireEnvelope.decode event.raw = .ok event ∧
        ∃ payload, event.payload = .ok payload) ∧
    ∀ id type occurredAtMs work payload subject tenant event,
      WireEnvelope.create id type occurredAtMs work payload subject tenant = .ok event →
      (event.raw.length ≤ 65536 ∧ WireEnvelope.decode event.raw = .ok event ∧
        ∃ payload, event.payload = .ok payload) ∧
      event.work.snapshot = work.snapshot ∧ event.assertEventWork work = .ok () ∧
      ∀ other : WorkContext, other.snapshot ≠ work.snapshot →
        event.assertEventWork other = .error provenanceMismatch := by
  refine ⟨fun raw event decoded => decode_again decoded, ?_⟩
  intro id type occurredAtMs work payload subject tenant event created
  have carried := create_work created
  refine ⟨decode_again created, congrArg WorkContext.snapshot carried, ?_, ?_⟩
  · rw [assertEventWork_held event [] work]
    exact if_pos carried
  · intro other different
    rw [assertEventWork_held event [] other]
    refine if_neg fun same => different ?_
    have same : event.work = other := same
    rw [← same, carried]

private def importing (workId : ID) : WorkContext where
  snapshot :=
    { workId, correlationId := ID.numbered 1, correlationSource := .local, causation := none
      origin := some .startup, operation := ⟨js "documents.import", rfl⟩
      attribution := ⟨some ⟨.service, some (js "worker"), rfl⟩, none, none, rfl⟩
      depth := some 0, replay := none }
  valid := rfl

private def createdFields : JsObject :=
  createFields (ID.numbered 2).text (js "document.created.v1") (.ofNat 1000)
    (importing (ID.numbered 1)) (.object [(js "title", .string (js "Notes"))])
    (some (js "document", (ID.numbered 3).text)) none

theorem created_at_startup : ∃ event,
    WireEnvelope.create (ID.numbered 2).text (js "document.created.v1") (.ofNat 1000)
      (importing (ID.numbered 1)) (.object [(js "title", .string (js "Notes"))])
      (some (js "document", (ID.numbered 3).text)) none = .ok event ∧
    WireEnvelope.decode event.raw = .ok event ∧
    event.assertEventWork (importing (ID.numbered 4)) = .error provenanceMismatch := by
  have size : (bytesOf createdFields).length ≤ 65536 := by decide +kernel
  have decodes : (decodeFields (cleanFields createdFields)).toOption.isSome = true := by decide +kernel
  obtain ⟨event, made⟩ := create_of_decodes size decodes
  obtain ⟨⟨-, again, -⟩, -, -, others⟩ := envelope_keeps_work.2 _ _ _ _ _ _ _ event made
  exact ⟨event, made, again, others _ (by decide)⟩

end N2FNest.Events
