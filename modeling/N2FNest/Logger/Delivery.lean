import N2FNest.Lib.Run
import N2FNest.Shared.Failure
import N2FNest.Shared.Number
import N2FNest.Shared.Text

/-! Delivery of log lines to a sink. The code runs without interruption up to a
call of the sink, so a step ends at such a call; what the sink does from inside it
(writing or closing again) is a step taken while the call is in progress, and a
sink that throws at once completes before anything else happens. -/

namespace N2FNest.Logger

open Lib Shared

structure Stats where
  accepted : Nat
  written : Nat
  dropped : Nat
  failed : Nat
  deriving DecidableEq, Repr

/-- What a `Delivery` is built from. `canFlush` tells whether the sink has a `flush`. -/
structure Output where
  capacity : Nat
  maxBytes : Nat
  noop : Bool
  canFlush : Bool

/-- How an awaited call of the sink ends. -/
inductive Completion where
  | ok | threw
  deriving DecidableEq, Repr

/-- The fields of a `Delivery`, the calls it awaits (`writing`, `flushing`), and a
record of the calls made so far (`passed`, `flushes`) and of what became of the
lines (`taken`, `failedWrites`). Nothing here keeps two pumps from running at once. -/
structure DeliveryState where
  counts : Stats
  closed : Bool
  queue : List JsString
  running : Bool
  done : Bool
  writing : List JsString
  flushing : Nat
  passed : List JsString
  flushes : Nat
  taken : List JsString
  failedWrites : Nat

namespace DeliveryState

def initial : DeliveryState where
  counts := ⟨0, 0, 0, 0⟩
  closed := false
  queue := []
  running := false
  done := false
  writing := []
  flushing := 0
  passed := []
  flushes := 0
  taken := []
  failedWrites := 0

def drop (state : DeliveryState) : DeliveryState :=
  { state with counts := { state.counts with dropped := state.counts.dropped + 1 } }

def accept (state : DeliveryState) (line : JsString) : DeliveryState :=
  { state with
    counts := { state.counts with accepted := state.counts.accepted + 1 }
    queue := state.queue ++ [line]
    taken := state.taken ++ [line] }

/-- `#flush` up to its call of the sink. -/
def flush (output : Output) (state : DeliveryState) : DeliveryState :=
  if output.noop then { state with done := true }
  else { state with
    flushing := state.flushing + 1
    flushes := state.flushes + if output.canFlush then 1 else 0 }

/-- The loop of `#pump` from its test to the next call of the sink. -/
def loop (output : Output) (state : DeliveryState) : DeliveryState :=
  match state.queue with
  | line :: rest =>
    { state with
      queue := rest
      writing := state.writing ++ [line]
      passed := state.passed ++ [line] }
  | [] =>
    let ended := { state with running := false }
    if state.closed then flush output ended else ended

def pump (output : Output) (state : DeliveryState) : DeliveryState :=
  loop output { state with running := true }

/-- Whether `write` drops the line. -/
def refuses (output : Output) (state : DeliveryState) (line : JsString) : Bool :=
  state.closed || output.maxBytes < line.byteLength ||
    (state.running && output.capacity ≤ state.queue.length)

def write (output : Output) (state : DeliveryState) (line : JsString) : DeliveryState :=
  if state.refuses output line then state.drop
  else if state.running then state.accept line
  else pump output (state.accept line)

def invalidDeadline : Failure :=
  failure .invalid "invalid flush deadline" "logger.invalid_configuration"

/-- `!Number.isFinite(timeoutMs) || timeoutMs < 0`. -/
def isDeadline (timeoutMs : JsNumber) : Bool :=
  timeoutMs.isFinite && JsNumber.atMost (.finite 0) timeoutMs

/-- `close` up to its wait; a wrong deadline is refused and changes nothing. -/
def close (output : Output) (state : DeliveryState) (timeoutMs : JsNumber) :
    Except Failure DeliveryState :=
  if isDeadline timeoutMs then
    if state.closed then .ok state
    else
      let ended := { state with closed := true }
      .ok (if state.running then ended else flush output ended)
  else .error invalidDeadline

def count (state : DeliveryState) : Completion → DeliveryState
  | .ok => { state with counts := { state.counts with written := state.counts.written + 1 } }
  | .threw => { state with
      counts := { state.counts with failed := state.counts.failed + 1 }
      failedWrites := state.failedWrites + 1 }

/-- One of the pumps that await the sink goes on. -/
def writeSettled (output : Output) (state : DeliveryState) (pump : Nat) (completion : Completion) :
    DeliveryState :=
  if pump < state.writing.length then
    loop output { state.count completion with writing := state.writing.eraseIdx pump }
  else state

/-- A flush that awaits the sink goes on; without a `flush` there is nothing to throw. -/
def flushSettled (output : Output) (state : DeliveryState) (completion : Completion) :
    DeliveryState :=
  if 0 < state.flushing then
    let failed := if output.canFlush && completion = .threw then 1 else 0
    { state with
      counts := { state.counts with failed := state.counts.failed + failed }
      flushing := state.flushing - 1
      done := true }
  else state

end DeliveryState

inductive DeliveryLabel where
  | write (line : JsString)
  | close (timeoutMs : JsNumber)
  | writeSettled (pump : Nat) (completion : Completion)
  | flushSettled (completion : Completion)

/-- One step of a delivery: a call of `write` or `close`, or the end of a call of the sink. -/
def DeliveryState.step (output : Output) (state : DeliveryState) : DeliveryLabel → DeliveryState
  | .write line => state.write output line
  | .close timeoutMs => (state.close output timeoutMs).toOption.getD state
  | .writeSettled pump completion => state.writeSettled output pump completion
  | .flushSettled completion => state.flushSettled output completion

namespace DeliveryState

variable {output : Output} {state : DeliveryState}

/-- What every reachable delivery satisfies. -/
structure Orderly (output : Output) (state : DeliveryState) : Prop where
  order : state.passed ++ state.queue = state.taken
  latest : state.writing <:+ state.passed
  running : state.running = true ↔ state.writing ≠ []
  single : state.writing.length ≤ 1
  fed : state.queue ≠ [] → state.writing ≠ []
  bounded : state.queue.length ≤ output.capacity
  counted : state.counts.accepted = state.taken.length
  balance : state.counts.accepted =
    state.counts.written + state.failedWrites + state.queue.length + state.writing.length
  unflushed : state.closed = false → state.flushes = 0
  once : state.flushes ≤ 1
  last : 0 < state.flushes → state.queue = [] ∧ state.writing = []

/-- A pump at the test of its loop: it is the only one and awaits nothing. -/
structure Pumping (output : Output) (state : DeliveryState) : Prop where
  order : state.passed ++ state.queue = state.taken
  running : state.running = true
  idle : state.writing = []
  bounded : state.queue.length ≤ output.capacity + 1
  counted : state.counts.accepted = state.taken.length
  balance : state.counts.accepted =
    state.counts.written + state.failedWrites + state.queue.length
  unflushed : state.flushes = 0

theorem initial_orderly (output : Output) : initial.Orderly output where
  order := rfl
  latest := List.suffix_refl []
  running := by simp [initial]
  single := Nat.zero_le 1
  fed := fun queued => absurd rfl queued
  bounded := Nat.zero_le output.capacity
  counted := rfl
  balance := rfl
  unflushed := fun _ => rfl
  once := Nat.zero_le 1
  last := fun flushed => absurd flushed (Nat.lt_irrefl 0)

theorem Orderly.idle (orderly : state.Orderly output) (stopped : state.running ≠ true) :
    state.writing = [] ∧ state.queue = [] := by
  have idle : state.writing = [] := by
    by_contra busy
    exact stopped (orderly.running.mpr busy)
  refine ⟨idle, ?_⟩
  by_contra queued
  exact orderly.fed queued idle

/-- A flush that follows the last line is the first one. -/
theorem Orderly.flush (orderly : state.Orderly output) (closed : state.closed = true)
    (stopped : state.running ≠ true) (unflushed : state.flushes = 0) :
    (state.flush output).Orderly output := by
  unfold DeliveryState.flush
  split
  · exact { orderly with }
  · refine { orderly with unflushed := ?_, once := ?_, last := fun _ => ?_ }
    · intro opened
      rw [closed] at opened
      cases opened
    · show state.flushes + (if output.canFlush then 1 else 0) ≤ 1
      rw [unflushed]
      split <;> omega
    · exact (orderly.idle stopped).symm

theorem Pumping.loop (pumping : state.Pumping output) : (state.loop output).Orderly output := by
  unfold DeliveryState.loop
  split
  case h_1 line rest queued =>
    have length : state.queue.length = rest.length + 1 := by rw [queued, List.length_cons]
    have bounded := pumping.bounded
    have balance := pumping.balance
    exact {
      order := by
        rw [← pumping.order, queued, List.append_assoc]
        rfl
      latest := by
        rw [pumping.idle]
        exact List.suffix_append state.passed [line]
      running := by simp [pumping.running]
      single := by simp [pumping.idle]
      fed := by simp
      bounded := by
        show rest.length ≤ output.capacity
        omega
      counted := pumping.counted
      balance := by
        show state.counts.accepted = state.counts.written + state.failedWrites + rest.length +
          (state.writing ++ [line]).length
        rw [pumping.idle, List.nil_append, List.length_singleton]
        omega
      unflushed := fun _ => pumping.unflushed
      once := by
        show state.flushes ≤ 1
        rw [pumping.unflushed]
        exact Nat.zero_le 1
      last := by
        intro flushed
        have none : state.flushes = 0 := pumping.unflushed
        exact absurd flushed (by simp [none]) }
  case h_2 drained =>
    have ended : Orderly output { state with running := false } := {
      order := pumping.order
      latest := by
        rw [pumping.idle]
        exact List.nil_suffix
      running := by simp [pumping.idle]
      single := by simp [pumping.idle]
      fed := fun queued => absurd drained queued
      bounded := by simp [drained]
      counted := pumping.counted
      balance := by simpa [pumping.idle] using pumping.balance
      unflushed := fun _ => pumping.unflushed
      once := by
        show state.flushes ≤ 1
        rw [pumping.unflushed]
        exact Nat.zero_le 1
      last := fun _ => ⟨drained, pumping.idle⟩ }
    by_cases closed : state.closed = true
    · rw [if_pos closed]
      exact ended.flush closed (by simp) pumping.unflushed
    · rw [if_neg closed]
      exact ended

/-- A line that finds no pump is the only one queued, and starts the pump. -/
theorem Orderly.pumping (orderly : state.Orderly output) (line : JsString)
    (opened : state.closed = false) (stopped : state.running ≠ true) :
    Pumping output { state.accept line with running := true } := by
  obtain ⟨idle, drained⟩ := orderly.idle stopped
  have balance := orderly.balance
  rw [idle, drained] at balance
  exact {
    order := by
      show state.passed ++ (state.queue ++ [line]) = state.taken ++ [line]
      rw [← List.append_assoc, orderly.order]
    running := rfl
    idle := idle
    bounded := by
      show (state.queue ++ [line]).length ≤ output.capacity + 1
      simp [drained]
    counted := by
      show state.counts.accepted + 1 = (state.taken ++ [line]).length
      rw [List.length_append, orderly.counted, List.length_singleton]
    balance := by
      show state.counts.accepted + 1 =
        state.counts.written + state.failedWrites + (state.queue ++ [line]).length
      rw [drained, List.nil_append, List.length_singleton, balance]
      rfl
    unflushed := orderly.unflushed opened }

theorem refuses_false {line : JsString} (refused : ¬ state.refuses output line = true) :
    state.closed = false ∧ line.byteLength ≤ output.maxBytes ∧
      (state.running = true → state.queue.length < output.capacity) := by
  simpa [refuses, and_assoc] using refused

/-- While a pump runs, an accepted line waits behind the others. -/
theorem Orderly.accept (orderly : state.Orderly output) (line : JsString)
    (opened : state.closed = false) (room : state.queue.length < output.capacity)
    (running : state.running = true) : (state.accept line).Orderly output where
  order := by
    show state.passed ++ (state.queue ++ [line]) = state.taken ++ [line]
    rw [← List.append_assoc, orderly.order]
  latest := orderly.latest
  running := orderly.running
  single := orderly.single
  fed := fun _ => orderly.running.mp running
  bounded := by
    show (state.queue ++ [line]).length ≤ output.capacity
    rw [List.length_append, List.length_singleton]
    exact room
  counted := by
    show state.counts.accepted + 1 = (state.taken ++ [line]).length
    rw [List.length_append, orderly.counted, List.length_singleton]
  balance := by
    show state.counts.accepted + 1 = state.counts.written + state.failedWrites +
      (state.queue ++ [line]).length + state.writing.length
    have balance := orderly.balance
    rw [List.length_append, List.length_singleton]
    omega
  unflushed := orderly.unflushed
  once := orderly.once
  last := by
    intro flushed
    have unflushed : state.flushes = 0 := orderly.unflushed opened
    have flushed : 0 < state.flushes := flushed
    omega

theorem Orderly.write (orderly : state.Orderly output) (line : JsString) :
    (state.write output line).Orderly output := by
  unfold DeliveryState.write
  by_cases refused : state.refuses output line = true
  · rw [if_pos refused]
    exact { orderly with }
  · rw [if_neg refused]
    obtain ⟨opened, -, room⟩ := refuses_false refused
    by_cases running : state.running = true
    · rw [if_pos running]
      exact orderly.accept line opened (room running) running
    · rw [if_neg running]
      exact (orderly.pumping line opened running).loop

theorem Orderly.close (orderly : state.Orderly output) (timeoutMs : JsNumber)
    {closed : DeliveryState} (succeeds : state.close output timeoutMs = .ok closed) :
    closed.Orderly output := by
  unfold DeliveryState.close at succeeds
  split at succeeds
  · by_cases already : state.closed = true
    · rw [if_pos already] at succeeds
      cases succeeds
      exact orderly
    · rw [if_neg already] at succeeds
      have unflushed := orderly.unflushed (Bool.eq_false_of_not_eq_true already)
      have ended : Orderly output { state with closed := true } :=
        { orderly with unflushed := fun _ => unflushed }
      cases succeeds
      by_cases running : state.running = true
      · rw [if_pos running]
        exact ended
      · rw [if_neg running]
        exact ended.flush rfl running unflushed
  · cases succeeds

/-- The line in progress is settled: its pump is back at the test of its loop. -/
theorem Orderly.settled (orderly : state.Orderly output) {pump : Nat} (completion : Completion)
    (waits : pump < state.writing.length) :
    Pumping output { state.count completion with writing := state.writing.eraseIdx pump } := by
  have one : state.writing.length = 1 := Nat.le_antisymm orderly.single (by omega)
  have busy : state.writing ≠ [] := List.ne_nil_of_length_pos (by omega)
  have erased : state.writing.eraseIdx pump = [] := by
    apply List.eq_nil_of_length_eq_zero
    rw [List.length_eraseIdx_of_lt waits, one]
  have unflushed : state.flushes = 0 := by
    by_contra flushed
    exact busy (orderly.last (Nat.pos_of_ne_zero flushed)).2
  have balance := orderly.balance
  have bounded := Nat.le_succ_of_le orderly.bounded
  have running := orderly.running.mpr busy
  cases completion with
  | ok =>
    refine ⟨orderly.order, running, erased, bounded, orderly.counted, ?_, unflushed⟩
    show state.counts.accepted = state.counts.written + 1 + state.failedWrites + state.queue.length
    omega
  | threw =>
    refine ⟨orderly.order, running, erased, bounded, orderly.counted, ?_, unflushed⟩
    show state.counts.accepted =
      state.counts.written + (state.failedWrites + 1) + state.queue.length
    omega

theorem Orderly.step (orderly : state.Orderly output) (label : DeliveryLabel) :
    (state.step output label).Orderly output := by
  cases label with
  | write line => exact orderly.write line
  | close timeoutMs =>
    rw [DeliveryState.step]
    cases closed : state.close output timeoutMs with
    | error refusal => exact orderly
    | ok next => exact orderly.close timeoutMs closed
  | writeSettled pump completion =>
    rw [DeliveryState.step, writeSettled]
    split
    · rename_i waits
      exact (orderly.settled completion waits).loop
    · exact orderly
  | flushSettled completion =>
    rw [DeliveryState.step, flushSettled]
    split
    · exact { orderly with }
    · exact orderly

@[simp] theorem flush_counts : (state.flush output).counts = state.counts := by
  unfold flush
  split <;> rfl

@[simp] theorem flush_taken : (state.flush output).taken = state.taken := by
  unfold flush
  split <;> rfl

@[simp] theorem flush_closed : (state.flush output).closed = state.closed := by
  unfold flush
  split <;> rfl

@[simp] theorem loop_counts : (state.loop output).counts = state.counts := by
  unfold loop
  split
  · rfl
  · split <;> simp

@[simp] theorem loop_taken : (state.loop output).taken = state.taken := by
  unfold loop
  split
  · rfl
  · split <;> simp

@[simp] theorem loop_closed : (state.loop output).closed = state.closed := by
  unfold loop
  split
  · rfl
  · split <;> simp_all

@[simp] theorem count_taken (completion : Completion) :
    (state.count completion).taken = state.taken := by
  cases completion <;> rfl

@[simp] theorem count_closed (completion : Completion) :
    (state.count completion).closed = state.closed := by
  cases completion <;> rfl

/-- A line is either accepted, behind those accepted before it, or dropped. -/
theorem write_counts (output : Output) (state : DeliveryState) (line : JsString) :
    ((state.write output line).taken = state.taken ++ [line] ∧
      (state.write output line).counts =
        { state.counts with accepted := state.counts.accepted + 1 }) ∨
    ((state.write output line).taken = state.taken ∧
      (state.write output line).counts =
        { state.counts with dropped := state.counts.dropped + 1 }) := by
  unfold write
  by_cases refused : state.refuses output line = true
  · right
    rw [if_pos refused]
    exact ⟨rfl, rfl⟩
  · left
    rw [if_neg refused]
    by_cases running : state.running = true
    · rw [if_pos running]
      exact ⟨rfl, rfl⟩
    · rw [if_neg running, pump, loop_taken, loop_counts]
      exact ⟨rfl, rfl⟩

theorem close_closed (output : Output) (state : DeliveryState) {timeoutMs : JsNumber}
    (deadline : isDeadline timeoutMs = true) :
    ∃ closed, state.close output timeoutMs = .ok closed ∧ closed.closed = true ∧
      closed.taken = state.taken := by
  unfold close
  rw [if_pos deadline]
  split
  · rename_i already
    exact ⟨state, rfl, already, rfl⟩
  · refine ⟨_, rfl, ?_⟩
    split <;> simp

/-- A closed delivery stays closed and accepts nothing. -/
theorem step_closed (output : Output) (closed : state.closed = true) (label : DeliveryLabel) :
    (state.step output label).closed = true ∧ (state.step output label).taken = state.taken := by
  cases label with
  | write line =>
    have refused : state.refuses output line = true := by simp [refuses, closed]
    rw [step, write, if_pos refused]
    exact ⟨closed, rfl⟩
  | close timeoutMs =>
    rw [step, close, if_pos closed]
    split <;> exact ⟨closed, rfl⟩
  | writeSettled pump completion =>
    rw [step, writeSettled]
    split <;> simp [closed]
  | flushSettled completion =>
    rw [step, flushSettled]
    split <;> simp [closed]

theorem run_closed (closed : state.closed = true) (later : List DeliveryLabel) :
    (run (step output) state later).taken = state.taken := by
  have kept : ∀ (next : DeliveryState) (label : DeliveryLabel),
      next.closed = true ∧ next.taken = state.taken →
        (next.step output label).closed = true ∧ (next.step output label).taken = state.taken := by
    rintro next label ⟨still, same⟩
    obtain ⟨stays, accepted⟩ := step_closed output still label
    exact ⟨stays, accepted.trans same⟩
  exact (run_invariant _ kept ⟨closed, rfl⟩ later).2

theorem reachable_orderly (output : Output) (labels : List DeliveryLabel) :
    (run (step output) initial labels).Orderly output :=
  run_invariant (Orderly output) (fun _ label orderly => orderly.step label)
    (initial_orderly output) labels

end DeliveryState

/-- Along every interleaving of writes, closes and completions of the sink, the
sink receives the accepted lines in order, one at a time; every line is counted
once, none is accepted after a close, and the one flush comes last. -/
theorem delivery_keeps_lines (output : Output) (labels : List DeliveryLabel) :
    let state := run (DeliveryState.step output) .initial labels
    -- what the sink was passed, then what waits, is what was accepted
    state.passed ++ state.queue = state.taken ∧
    state.writing <:+ state.passed ∧ state.writing.length ≤ 1 ∧
    (state.writing = [] → state.passed = state.taken) ∧
    state.queue.length ≤ output.capacity ∧
    state.counts.accepted = state.taken.length ∧
    state.counts.accepted =
      state.counts.written + state.failedWrites + state.queue.length + state.writing.length ∧
    (∀ line,
      let next := state.step output (.write line)
      (next.taken = state.taken ++ [line] ∧
        next.counts = { state.counts with accepted := state.counts.accepted + 1 }) ∨
      (next.taken = state.taken ∧
        next.counts = { state.counts with dropped := state.counts.dropped + 1 })) ∧
    (∀ timeoutMs later, DeliveryState.isDeadline timeoutMs = true →
      (run (DeliveryState.step output) (state.step output (.close timeoutMs)) later).taken =
        state.taken) ∧
    state.flushes ≤ 1 ∧
    (0 < state.flushes → state.closed = true ∧ state.queue = [] ∧ state.writing = []) := by
  intro state
  have orderly : state.Orderly output := DeliveryState.reachable_orderly output labels
  refine ⟨orderly.order, orderly.latest, orderly.single, ?_, orderly.bounded, orderly.counted,
    orderly.balance, DeliveryState.write_counts output state, ?_, orderly.once, ?_⟩
  · intro idle
    have drained : state.queue = [] := by
      by_contra queued
      exact orderly.fed queued idle
    rw [← orderly.order, drained, List.append_nil]
  · intro timeoutMs later deadline
    obtain ⟨next, succeeds, closed, same⟩ := DeliveryState.close_closed output state deadline
    have stepped : state.step output (.close timeoutMs) = next := by
      rw [DeliveryState.step, succeeds]
      rfl
    rw [stepped, DeliveryState.run_closed closed, same]
  · intro flushed
    refine ⟨?_, orderly.last flushed⟩
    by_contra opened
    have unflushed := orderly.unflushed (Bool.eq_false_of_not_eq_true opened)
    omega

end N2FNest.Logger
