import N2FNest.Lib.Hex
import N2FNest.Shared.Failure
import N2FNest.Shared.Value

/-! Trace references, and the `traceparent` header they travel in. -/

namespace N2FNest.Telemetry

open Lib Shared

/-- Lower-case hexadecimal digits, not all of them zero. -/
def valid (value : JsString) (length : Nat) : Bool :=
  value.length == length && value.units.all Hex.isDigit && value.units.any (· != 0x30)

/-- What `traceRef` makes: no other reference reaches `snapshot`. -/
structure TraceRef where
  traceId : JsString
  spanId : JsString
  sampled : Bool
  trace : valid traceId 32 = true
  span : valid spanId 16 = true
  deriving DecidableEq

def invalidContext : Failure :=
  failure .invalid "invalid telemetry context" "telemetry.invalid_context"

def invalidTraceparent : Failure :=
  failure .invalid "invalid traceparent" "telemetry.invalid_traceparent"

def traceRef : (traceId spanId sampled : JsValue) → Except Failure TraceRef
  | .string traceId, .string spanId, .bool sampled =>
    if checked : valid traceId 32 = true ∧ valid spanId 16 = true then
      .ok ⟨traceId, spanId, sampled, checked.1, checked.2⟩
    else .error invalidContext
  | _, _, _ => .error invalidContext

/-- The groups of `/^00-([0-9a-f]{32})-([0-9a-f]{16})-([0-9a-f]{2})$/`. -/
def traceparentGroups (value : JsString) : Option (JsString × JsString × JsString) :=
  let trace := (value.units.drop 3).take 32
  let span := (value.units.drop 36).take 16
  let flags := value.units.drop 53
  if value.units = 0x30 :: 0x30 :: 0x2D :: (trace ++ 0x2D :: (span ++ 0x2D :: flags)) ∧
      trace.length = 32 ∧ span.length = 16 ∧ flags.length = 2 ∧
      (trace ++ span ++ flags).all Hex.isDigit = true then
    some (⟨trace⟩, ⟨span⟩, ⟨flags⟩)
  else none

def parseTraceparent : JsValue → Except Failure TraceRef
  | .string value => match traceparentGroups value with
    | none => .error invalidTraceparent
    | some (trace, span, flags) =>
      match traceRef (.string trace) (.string span) (.bool (Hex.natural flags.units % 2 = 1)) with
      | .ok ref => .ok ref
      | .error _ => .error invalidTraceparent
  | _ => .error invalidTraceparent

def withFlags (ref : TraceRef) (flags : JsString) : JsString :=
  ⟨0x30 :: 0x30 :: 0x2D :: (ref.traceId.units ++ 0x2D :: (ref.spanId.units ++ 0x2D :: flags.units))⟩

def formatTraceparent (ref : TraceRef) : JsString :=
  withFlags ref (js (if ref.sampled then "01" else "00"))

theorem valid_iff {value : JsString} {length : Nat} : valid value length = true ↔
    value.units.length = length ∧ (∀ unit ∈ value.units, Hex.isDigit unit = true) ∧
      ∃ unit ∈ value.units, unit ≠ 0x30 := by
  simp [valid, JsString.length, and_assoc]

/-- The groups of a text are the three parts it consists of. -/
theorem traceparentGroups_eq_some {value trace span flags : JsString} :
    traceparentGroups value = some (trace, span, flags) ↔
      value.units = 0x30 :: 0x30 :: 0x2D :: (trace.units ++ 0x2D :: (span.units ++ 0x2D :: flags.units)) ∧
        trace.units.length = 32 ∧ span.units.length = 16 ∧ flags.units.length = 2 ∧
        ∀ unit ∈ trace.units ++ span.units ++ flags.units, Hex.isDigit unit = true := by
  constructor
  · intro read
    unfold traceparentGroups at read
    dsimp only at read
    split at read
    · rename_i parts
      cases read
      simpa only [List.all_eq_true] using parts
    · cases read
  · rintro ⟨whole, traceLength, spanLength, flagsLength, digits⟩
    have first : (value.units.drop 3).take 32 = trace.units := by
      rw [whole]
      exact List.take_left' traceLength
    have second : value.units.drop 36 = span.units ++ 0x2D :: flags.units := by
      rw [whole]
      show (trace.units ++ 0x2D :: (span.units ++ 0x2D :: flags.units)).drop 33 = _
      rw [show 33 = trace.units.length + 1 by rw [traceLength], List.drop_length_add_append]
      rfl
    have third : value.units.drop 53 = flags.units := by
      rw [show value.units.drop 53 = (value.units.drop 36).drop 17 by rw [List.drop_drop], second,
        show 17 = span.units.length + 1 by rw [spanLength], List.drop_length_add_append]
      rfl
    unfold traceparentGroups
    dsimp only
    rw [first, third, second, List.take_left' spanLength]
    exact if_pos ⟨whole, traceLength, spanLength, flagsLength, List.all_eq_true.mpr digits⟩

/-- A header is accepted as the reference whose parts it has, with any flags beside the
sampled one. -/
theorem parseTraceparent_iff {value : JsString} {ref : TraceRef} :
    parseTraceparent (.string value) = .ok ref ↔ ∃ flags : JsString, value = withFlags ref flags ∧
      flags.units.length = 2 ∧ (∀ unit ∈ flags.units, Hex.isDigit unit = true) ∧
      ref.sampled = decide (Hex.natural flags.units % 2 = 1) := by
  constructor
  · intro accepted
    rw [parseTraceparent] at accepted
    split at accepted
    · cases accepted
    · rename_i trace span flags groups
      obtain ⟨whole, -, -, two, digits⟩ := traceparentGroups_eq_some.mp groups
      split at accepted
      · rename_i ref made
        cases accepted
        unfold traceRef at made
        dsimp only at made
        split at made
        · cases made
          refine ⟨flags, ?_, two, ?_, rfl⟩
          · rw [withFlags, ← whole]
          · exact fun unit member => digits unit (List.mem_append_right _ member)
        · cases made
      · cases accepted
  · rintro ⟨flags, rfl, two, digits, sampled⟩
    obtain ⟨traceLength, traceDigits, -⟩ := valid_iff.mp ref.trace
    obtain ⟨spanLength, spanDigits, -⟩ := valid_iff.mp ref.span
    have groups : traceparentGroups (withFlags ref flags) = some (ref.traceId, ref.spanId, flags) := by
      refine traceparentGroups_eq_some.mpr ⟨rfl, traceLength, spanLength, two, ?_⟩
      exact List.forall_mem_append.mpr ⟨List.forall_mem_append.mpr ⟨traceDigits, spanDigits⟩, digits⟩
    rw [parseTraceparent, groups]
    dsimp only
    rw [← sampled, traceRef, dif_pos ⟨ref.trace, ref.span⟩]

/-- The header reads back as the reference it was written from. -/
theorem parse_format (ref : TraceRef) :
    parseTraceparent (.string (formatTraceparent ref)) = .ok ref := by
  refine parseTraceparent_iff.mpr ⟨_, rfl, ?_, ?_, ?_⟩
  · cases ref.sampled <;> rfl
  · cases ref.sampled <;> exact List.all_eq_true.mp rfl
  · cases ref.sampled <;> rfl

end N2FNest.Telemetry
