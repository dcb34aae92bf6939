import N2FNest.Logger.Console

/-! The logger over its delivery. A call projects its record and hands the line over in
one uninterrupted step; what the sink does is interleaved with the calls. -/

namespace N2FNest.Logger

open Lib Shared

/-- What `create` settles from a `Config` in the console format. -/
structure Console where
  level : Level
  color : Bool
  service : JsString
  capacity : Nat
  maxBytes : Nat
  canFlush : Bool

def Console.output (console : Console) : Output :=
  ⟨console.capacity, console.maxBytes, false, console.canFlush⟩

/-- A `Logger`, which is what is bound to it. -/
structure Bound where
  fields : JsObject
  scope : Option JsObject
  error : Option JsObject
  bad : Bool
  trace : Option JsObject

/-- What is bound by `with`, `withScope`, `withTrace` and `withError`; the last three bind a
projection. -/
inductive Binding where
  | fields (fields : FieldProperties)
  | scope (projected : JsObject)
  | trace (projected : JsObject)
  | error (projected : Option JsObject)

namespace Bound

def root : Bound := ⟨[], none, none, false, none⟩

/-- Fields that cannot be taken spoil the logger. -/
def bind (bound : Bound) : Binding → Bound
  | .fields fields => match fields.snapshot with
    | some taken => { bound with fields := Json.spread bound.fields taken }
    | none => { bound with bad := true }
  | .scope projected => { bound with scope := some projected }
  | .trace projected => { bound with trace := some projected }
  | .error projected => { bound with error := projected }

/-- The logger that a chain of bindings leads to. -/
def of (bindings : List Binding) : Bound := bindings.foldl bind root

end Bound

/-- A call of one of the four methods of a logger; `time` is what the clock says. -/
structure LogCall where
  bindings : List Binding
  level : Level
  message : JsString
  extra : FieldProperties
  time : JsDate

/-- The record of a call, `none` where building it throws. -/
def LogCall.record? (service : JsString) (call : LogCall) : Option LogRecord :=
  let logger := Bound.of call.bindings
  if logger.bad then none
  else do
    let milliseconds ← Provenance.normalizedTime call.time
    let taken ← call.extra.snapshot
    return ⟨milliseconds, call.level, call.message, service, Json.spread logger.fields taken,
      logger.scope, logger.error, logger.trace⟩

/-- The delivery, with the records whose lines it accepted. -/
structure LogState where
  delivery : DeliveryState
  records : List LogRecord

inductive LogLabel where
  | log (call : LogCall)
  | close (timeoutMs : JsNumber)
  | writeSettled (pump : Nat) (completion : Completion)
  | flushSettled (completion : Completion)

namespace LogState

def initial : LogState := ⟨.initial, []⟩

def fail (state : LogState) : LogState :=
  { state with delivery := { state.delivery with
      counts := { state.delivery.counts with failed := state.delivery.counts.failed + 1 } } }

/-- `output.write` of a record's line. -/
def write (console : Console) (state : LogState) (record : LogRecord) : LogState :=
  let line := record.consoleLine console.color
  { delivery := state.delivery.write console.output line
    records :=
      if state.delivery.refuses console.output line then state.records else state.records ++ [record] }

/-- `emit`. -/
def emit (console : Console) (state : LogState) (call : LogCall) : LogState :=
  if call.level.rank < console.level.rank then state
  else if state.delivery.closed then { state with delivery := state.delivery.drop }
  else match call.record? console.service with
    | some record => state.write console record
    | none => state.fail

def step (console : Console) (state : LogState) : LogLabel → LogState
  | .log call => state.emit console call
  | .close timeoutMs =>
    { state with delivery := state.delivery.step console.output (.close timeoutMs) }
  | .writeSettled pump completion =>
    { state with delivery := state.delivery.step console.output (.writeSettled pump completion) }
  | .flushSettled completion =>
    { state with delivery := state.delivery.step console.output (.flushSettled completion) }

variable {console : Console} {state : LogState}

end LogState

namespace DeliveryState

variable {output : Output} {state : DeliveryState}

/-- A line is taken unless it is refused. -/
theorem write_taken (line : JsString) : (state.write output line).taken =
    if state.refuses output line then state.taken else state.taken ++ [line] := by
  unfold write
  split
  · rfl
  · split
    · rfl
    · exact loop_taken

/-- Only a write takes a line. -/
theorem step_taken {label : DeliveryLabel} (other : ∀ line, label ≠ .write line) :
    (state.step output label).taken = state.taken := by
  cases label with
  | write line => exact absurd rfl (other line)
  | close timeoutMs =>
    simp only [step, close, flush]
    split
    · split
      · rfl
      · dsimp only [Except.toOption, Option.getD_some]
        split
        · rfl
        · split <;> rfl
    · rfl
  | writeSettled pump completion =>
    simp only [step, writeSettled]
    split
    · rw [loop_taken]
      cases completion <;> rfl
    · rfl
  | flushSettled completion =>
    simp only [step, flushSettled]
    split <;> rfl

end DeliveryState

namespace LogState

/-- The delivery holds the lines of the records, in order. -/
structure Faithful (console : Console) (state : LogState) : Prop where
  orderly : state.delivery.Orderly console.output
  lines : state.delivery.taken = state.records.map fun record => record.consoleLine console.color
  served : ∀ record ∈ state.records, record.service = console.service

theorem LogCall.record?_service {service : JsString} {call : LogCall} {record : LogRecord}
    (built : call.record? service = some record) : record.service = service := by
  unfold LogCall.record? at built
  dsimp only at built
  split at built
  · cases built
  · obtain ⟨_, _, built⟩ := Option.bind_eq_some_iff.mp built
    obtain ⟨_, _, built⟩ := Option.bind_eq_some_iff.mp built
    cases Option.some.inj built
    rfl

theorem Faithful.step {console : Console} {state : LogState} (faithful : state.Faithful console)
    (label : LogLabel) : (state.step console label).Faithful console := by
  have delivered : ∀ label : DeliveryLabel, (∀ line, label ≠ .write line) →
      Faithful console { state with delivery := state.delivery.step console.output label } := by
    intro label other
    exact ⟨faithful.orderly.step label, (DeliveryState.step_taken other).trans faithful.lines,
      faithful.served⟩
  cases label with
  | close timeoutMs => exact delivered _ nofun
  | writeSettled pump completion => exact delivered _ nofun
  | flushSettled completion => exact delivered _ nofun
  | log call =>
    simp only [LogState.step, emit]
    split
    · exact faithful
    · split
      · exact ⟨{ faithful.orderly with }, faithful.lines, faithful.served⟩
      · split
        · rename_i record built
          refine ⟨faithful.orderly.write _, ?_, ?_⟩
          · simp only [write, DeliveryState.write_taken]
            split
            · exact faithful.lines
            · rw [faithful.lines, List.map_append]
              rfl
          · intro other member
            simp only [write] at member
            split at member
            · exact faithful.served other member
            · rcases List.mem_append.mp member with earlier | last
              · exact faithful.served other earlier
              · rw [List.mem_singleton.mp last]
                exact LogCall.record?_service built
        · exact ⟨{ faithful.orderly with }, faithful.lines, faithful.served⟩

theorem faithful (console : Console) (labels : List LogLabel) :
    (run (LogState.step console) initial labels).Faithful console :=
  run_invariant (Faithful console) (fun _ label holds => holds.step label)
    ⟨DeliveryState.initial_orderly console.output, rfl, List.forall_mem_nil _⟩ labels

end LogState

/-- The record of a call that its level lets through. -/
def LogLabel.record? (console : Console) : LogLabel → Option LogRecord
  | .log call => if call.level.rank < console.level.rank then none else call.record? console.service
  | _ => none

/-- The secrets in a call forgotten. -/
def Binding.conceal : Binding → Binding
  | .fields given => .fields given.conceal
  | binding => binding

def LogLabel.conceal : LogLabel → LogLabel
  | .log call => .log { call with
      bindings := call.bindings.map Binding.conceal
      extra := call.extra.conceal }
  | label => label

namespace LogState

variable {console : Console} {state : LogState}

/-- A step appends the record of its own call or none. -/
private theorem step_records (console : Console) (state : LogState) (label : LogLabel) : (state.step console label).records = state.records ∨
    ∃ record, label.record? console = some record ∧
      (state.step console label).records = state.records ++ [record] := by
  cases label with
  | close timeoutMs => exact .inl rfl
  | writeSettled pump completion => exact .inl rfl
  | flushSettled completion => exact .inl rfl
  | log call =>
    simp only [step, emit, LogLabel.record?]
    split
    · exact .inl rfl
    · split
      · exact .inl rfl
      · split
        · rename_i record built
          by_cases refused : state.delivery.refuses console.output (record.consoleLine console.color) = true
          · exact .inl (if_pos refused)
          · exact .inr ⟨record, built, if_neg refused⟩
        · exact .inl rfl

theorem records_sublist (labels : List LogLabel) :
    (run (step console) initial labels).records.Sublist
      (labels.filterMap (LogLabel.record? console)) := by
  induction labels using List.reverseRecOn with
  | nil => exact List.Sublist.refl []
  | append_singleton labels label ih =>
    rw [run_append, run_cons, run_nil, List.filterMap_append]
    rcases step_records console (run (step console) initial labels) label with
      same | ⟨record, built, grown⟩
    · rw [same]
      exact ih.trans (List.sublist_append_left _ _)
    · rw [grown, List.filterMap_cons_some built]
      exact ih.append (List.Sublist.refl _)

private theorem bind_conceal (bound : Bound) (binding : Binding) :
    bound.bind binding.conceal = bound.bind binding := by
  cases binding with
  | fields given => simp only [Bound.bind, Binding.conceal, FieldProperties.snapshot_conceal]
  | scope projected => rfl
  | trace projected => rfl
  | error projected => rfl

private theorem step_conceal (label : LogLabel) :
    state.step console label.conceal = state.step console label := by
  cases label with
  | log call =>
    have bound : Bound.of (call.bindings.map Binding.conceal) = Bound.of call.bindings := by
      unfold Bound.of
      rw [List.foldl_map]
      simp only [bind_conceal]
    simp only [step, LogLabel.conceal, emit, LogCall.record?, bound, FieldProperties.snapshot_conceal]
  | close timeoutMs => rfl
  | writeSettled pump completion => rfl
  | flushSettled completion => rfl

theorem run_conceal (console : Console) (labels : List LogLabel) :
    run (step console) initial (labels.map LogLabel.conceal) = run (step console) initial labels := by
  unfold run
  rw [List.foldl_map]
  simp only [step_conceal]

end LogState

/-- Along every interleaving of calls, closes and completions of the sink, what the sink was
passed reads back, as one text, as the records of the accepted calls in order: no message,
name or field of one can pass for a line, a level or a field of another, or is a control
character. A line has the two escapes of its colour, or none, and what the sink was passed does
not depend on the secrets among the fields. -/
theorem console_reads_back (console : Console) (labels : List LogLabel) :
    let state := run (LogState.step console) .initial labels
    readStream console.color console.service (state.delivery.passed.flatMap JsString.units) =
        some ((state.records.take state.delivery.passed.length).map LogRecord.entry) ∧
      (∀ line ∈ state.delivery.passed, ∀ unit ∈ line.units, unit = 0x0A ∨
        unit = 0x1B ∧ console.color = true ∨ 0x20 ≤ unit ∧ isConsoleControl unit = false) ∧
      (∀ line ∈ state.delivery.passed,
        line.units.count 0x1B = if console.color = true then 2 else 0) ∧
      (state.delivery.writing = [] → state.delivery.passed.length = state.records.length) ∧
      state.records.Sublist (labels.filterMap (LogLabel.record? console)) ∧
      run (LogState.step console) .initial (labels.map LogLabel.conceal) = state := by
  intro state
  have faithful : state.Faithful console := LogState.faithful console labels
  have passed : state.delivery.passed = (state.records.take state.delivery.passed.length).map
      fun record => record.consoleLine console.color := by
    rw [List.map_take, ← faithful.lines, ← faithful.orderly.order, List.take_left]
  have printed : ∀ line ∈ state.delivery.passed, ∃ text, line.units = text ++ [0x0A] ∧
      (∀ unit ∈ text, unit ≠ 0x1B → 0x20 ≤ unit ∧ isConsoleControl unit = false) ∧
      text.count 0x1B = if console.color = true then 2 else 0 := by
    intro line member
    rw [passed] at member
    obtain ⟨record, _, rfl⟩ := List.mem_map.mp member
    exact consoleLine_printable record console.color
  refine ⟨?_, ?_, ?_, ?_, ?_, ?_⟩
  · have served : ∀ record ∈ state.records.take state.delivery.passed.length,
        record.service = console.service :=
      fun record member => faithful.served record (List.mem_of_mem_take member)
    have read := readStream_consoleLines console.color console.service served
    rw [← read]
    conv_lhs => rw [passed]
    rw [List.flatMap_map]
  · intro line member unit inside
    obtain ⟨text, written, printable, escapes⟩ := printed line member
    rw [written] at inside
    rcases List.mem_append.mp inside with early | last
    · by_cases escape : unit = 0x1B
      · subst escape
        refine .inr (.inl ⟨rfl, ?_⟩)
        by_contra plain
        rw [if_neg plain] at escapes
        exact List.count_eq_zero.mp escapes early
      · exact .inr (.inr (printable unit early escape))
    · exact .inl (List.mem_singleton.mp last)
  · intro line member
    obtain ⟨text, written, _, escapes⟩ := printed line member
    have feed : ([0x0A] : List UInt16).count 0x1B = 0 := rfl
    rw [written, List.count_append, escapes, feed, Nat.add_zero]
  · intro idle
    have drained : state.delivery.queue = [] := by
      by_contra queued
      exact faithful.orderly.fed queued idle
    have all := congrArg List.length (faithful.orderly.order.trans faithful.lines)
    rwa [drained, List.append_nil, List.length_map] at all
  · exact LogState.records_sublist labels
  · exact LogState.run_conceal console labels

end N2FNest.Logger
