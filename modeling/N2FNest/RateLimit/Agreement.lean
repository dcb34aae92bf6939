import N2FNest.RateLimit.Stores

/-! Both stores decide as a counter over the whole history of calls: what they
forget, no later call falls into. -/

namespace N2FNest.RateLimit

open Lib Shared FixedWindow

/-- What a count is kept for. -/
structure Bucket where
  key : JsString
  rule : Rule
  deriving DecidableEq

def Bucket.width (bucket : Bucket) : Int := bucket.rule.windowMs

theorem Bucket.width_pos (bucket : Bucket) : 0 < bucket.width := by
  have bound := bucket.rule.timed.1
  unfold width
  omega

theorem Bucket.width_le (bucket : Bucket) : bucket.width ≤ MAX_WINDOW_MS := by
  have bound := bucket.rule.timed.2
  unfold width
  omega

/-- A call with a valid rule, a key both stores take as it is, and a time from 1970 on. -/
structure Call where
  bucket : Bucket
  now : Int
  keyed : 1 ≤ bucket.key.length ∧ bucket.key.length ≤ MAX_KEY_LENGTH
  clean : bucket.key.isClean = true
  timed : 0 ≤ now ∧ now ≤ 8640000000000000

def Call.input (call : Call) : RateLimitConsumeInput where
  key := call.bucket.key
  rule := ⟨.ofNat call.bucket.rule.limit, .ofNat call.bucket.rule.windowMs⟩
  now := some call.now

def Call.arrival (call : Call) : Arrival Bucket := ⟨call.bucket, call.now⟩

/-- The decision of a counter over the whole history; `count` includes the call itself. -/
def referenceDecision (arrival : Arrival Bucket) (count : Nat) : RateLimitDecision where
  allowed := count ≤ arrival.bucket.rule.limit
  limit := arrival.bucket.rule.limit
  remaining := max 0 (arrival.bucket.rule.limit - count)
  resetAt := timeClip (start arrival.bucket.width arrival.time + arrival.bucket.width)
  retryAfterMs :=
    if count ≤ arrival.bucket.rule.limit then 0
    else start arrival.bucket.width arrival.time + arrival.bucket.width - arrival.time

/-- A valid rule passes the checks as itself, and only as itself. -/
theorem valid?_eq_some {rule : RateLimitRule} {valid : Rule} : rule.valid? = some valid ↔
    rule = ⟨.ofNat valid.limit, .ofNat valid.windowMs⟩ := by
  constructor
  · intro passed
    obtain ⟨limit, windowMs⟩ := rule
    simp only [RateLimitRule.valid?, Option.bind_eq_bind, Option.bind_eq_some_iff] at passed
    obtain ⟨most, limited, width, timed, bounds⟩ := passed
    split at bounds
    · cases bounds
      rw [(JsNumber.safeNat?_some limited).1, (JsNumber.safeNat?_some timed).1]
    · cases bounds
  · rintro rfl
    obtain ⟨limit, windowMs, limited, timed⟩ := valid
    have limits := limited.2
    have widths := timed.2
    have first : limit ≤ 9007199254740991 := by
      unfold MAX_LIMIT at limits
      omega
    have second : windowMs ≤ 9007199254740991 := by
      unfold MAX_WINDOW_MS at widths
      omega
    simp only [RateLimitRule.valid?, JsNumber.safeNat?_ofNat first, JsNumber.safeNat?_ofNat second,
      Option.bind_eq_bind, Option.bind_some, dif_pos (And.intro limited timed)]

theorem validate_input {clock : JsDate → Option Int} (call : Call)
    (accepted : clock (some call.now) = some call.now) :
    validate clock call.input = .ok (call.bucket.rule, call.now) := by
  obtain ⟨least, most⟩ := call.keyed
  have valid : call.input.rule.valid? = some call.bucket.rule := valid?_eq_some.mpr rfl
  have keyed : ¬(call.input.key.length = 0 ∨ MAX_KEY_LENGTH < call.input.key.length) := by
    show ¬(call.bucket.key.length = 0 ∨ MAX_KEY_LENGTH < call.bucket.key.length)
    omega
  have timed : clock call.input.now = some call.now := accepted
  rw [validate, if_neg keyed, valid, timed]

/-- The rounding of the quotient does not change its floor. -/
theorem windowStart_eq (call : Call) :
    windowStart call.now call.bucket.rule.windowMs = start call.bucket.width call.now := by
  obtain ⟨least, most⟩ := call.timed
  have positive := call.bucket.rule.timed.1
  have narrow := call.bucket.rule.timed.2
  obtain ⟨now, same⟩ := Int.eq_ofNat_of_zero_le least
  unfold MAX_WINDOW_MS at narrow
  have small : now < 2 ^ 53 := by omega
  rw [windowStart, start, Bucket.width, same]
  have quotient := Binary64.floor_round_div (by omega : 0 < call.bucket.rule.windowMs) small
    (by omega)
  rw [Int.cast_natCast, quotient, Int.natCast_ediv]

theorem decision_eq (call : Call) (count : Nat) :
    decision call.bucket.rule call.now (start call.bucket.width call.now) count =
      referenceDecision call.arrival count := by
  have ahead := lt_start_add call.bucket.width_pos call.now
  have reset : max 0 (start call.bucket.width call.now + call.bucket.width - call.now) =
      start call.bucket.width call.now + call.bucket.width - call.now := by
    omega
  rw [decision, referenceDecision, Call.arrival]
  congr 1
  exact ite_congr rfl (fun _ => rfl) (fun _ => reset)

/-- A window a later call falls into has not been over for a day. -/
theorem still_needed {bucket : Bucket} {now later : Int} (reached : now ≤ later) :
    now < start bucket.width later + MAX_WINDOW_MS := by
  have ahead := lt_start_add bucket.width_pos later
  have narrow := bucket.width_le
  omega

/-- The last separator of a text parts it in one way. -/
private theorem separator_inj {left right left' right' : List UInt16} {separator : UInt16}
    (last : separator ∉ right) (last' : separator ∉ right')
    (same : left ++ separator :: right = left' ++ separator :: right') :
    left = left' ∧ right = right' := by
  rcases List.append_eq_append_iff.mp same with ⟨middle, rfl, rest⟩ | ⟨middle, rfl, rest⟩
  · cases middle with
    | nil => exact ⟨(List.append_nil left).symm, (List.cons.inj rest).2⟩
    | cons unit middle =>
      refine absurd ?_ last
      rw [(List.cons.inj rest).2]
      exact List.mem_append_right middle List.mem_cons_self
  · cases middle with
    | nil => exact ⟨List.append_nil left', (List.cons.inj rest).2.symm⟩
    | cons unit middle =>
      refine absurd ?_ last'
      rw [(List.cons.inj rest).2]
      exact List.mem_append_right middle List.mem_cons_self

private theorem colon_not_mem (value : Nat) : (0x3A : UInt16) ∉ Decimal.text value := by
  intro member
  have digit := Decimal.isDigit_text value 0x3A member
  exact absurd digit (by decide)

namespace InMemoryRateLimitStore

/-- The last two colons of a text key are its separators, whatever the key holds. -/
theorem bucketKey_inj {bucket other : Bucket}
    (same : bucketKey bucket.key bucket.rule = bucketKey other.key other.rule) : bucket = other := by
  have units := congrArg JsString.units same
  obtain ⟨front, limits⟩ := separator_inj (colon_not_mem _) (colon_not_mem _) units
  obtain ⟨keys, widths⟩ := separator_inj (colon_not_mem _) (colon_not_mem _) front
  obtain ⟨⟨key⟩, ⟨limit, windowMs, limited, timed⟩⟩ := bucket
  obtain ⟨⟨otherKey⟩, ⟨otherLimit, otherWindow, otherLimited, otherTimed⟩⟩ := other
  cases Decimal.text_inj limits
  cases Decimal.text_inj widths
  cases keys
  rfl

/-- What the map knows of a window. -/
def held (windows : Store) (bucket : Bucket) (first : Int) : Nat :=
  counted windows (bucketKey bucket.key bucket.rule) first

theorem counted_sweep {windows : Store} {key : JsString} {nowMs first : Int}
    (needed : nowMs < first + MAX_WINDOW_MS) :
    counted (sweep nowMs windows) key first = counted windows key first := by
  unfold sweep
  split
  · rw [counted, Table.get_keep, counted]
    cases found : windows.get key with
    | none => rfl
    | some state =>
      rw [Option.filter_some]
      by_cases kept : decide (¬ state.windowStartMs + MAX_WINDOW_MS < nowMs) = true
      · rw [if_pos kept]
      · have other : state.windowStartMs ≠ first := by
          rintro rfl
          refine kept (decide_eq_true ?_)
          omega
        rw [if_neg kept]
        exact (if_neg other).symm
  · rfl

theorem counted_set (windows : Store) (state : WindowState) (key : JsString) (first : Int) :
    counted (windows.set state) key first =
      if state.key = key then if state.windowStartMs = first then state.count else 0
      else counted windows key first := by
  rw [counted, Table.get_set]
  by_cases same : state.key = key
  · rw [if_pos same, if_pos same]
  · rw [if_neg same, if_neg same]
    rfl

theorem consume_eq (windows : Store) (call : Call) :
    consume windows call.input =
      (.ok (referenceDecision call.arrival
        (held windows call.bucket (start call.bucket.width call.now) + 1)),
        sweep call.now (windows.set ⟨bucketKey call.bucket.key call.bucket.rule,
          start call.bucket.width call.now,
          held windows call.bucket (start call.bucket.width call.now) + 1⟩)) := by
  rw [consume, validate_input call rfl]
  simp only [windowStart_eq, decision_eq]
  rfl

/-- What the map knows after a call. -/
theorem held_consume (windows : Store) (call : Call) (bucket : Bucket) {later : Int}
    (reached : call.now ≤ later) :
    held (consume windows call.input).2 bucket (start bucket.width later) =
      if call.bucket = bucket then
        if start call.bucket.width call.now = start bucket.width later then
          held windows bucket (start bucket.width later) + 1
        else 0
      else held windows bucket (start bucket.width later) := by
  rw [consume_eq, held, counted_sweep (still_needed reached), counted_set]
  by_cases same : call.bucket = bucket
  · subst same
    rw [if_pos rfl, if_pos rfl]
    refine ite_congr rfl (fun window => ?_) (fun _ => rfl)
    rw [← window]
  · rw [if_neg same]
    exact if_neg fun key => same (bucketKey_inj key)

/-- A call counts itself and leaves every window still to come as the history has it. -/
theorem consume_call (windows : Store) (history : List (Arrival Bucket)) (time : Int) (call : Call)
    (covers : Covers Bucket.width (held windows) history time) (ordered : time ≤ call.now) :
    (consume windows call.input).1 = .ok (referenceDecision call.arrival
      (count Bucket.width (history ++ [call.arrival]) call.bucket
        (start call.bucket.width call.now))) ∧
    Covers Bucket.width (held (consume windows call.input).2) (history ++ [call.arrival])
      call.now := by
  constructor
  · rw [consume_eq, count_concat, if_pos ⟨rfl, rfl⟩,
      ← covers.counted call.bucket call.now ordered]
  · apply Covers.arrive call.arrival covers ordered
    · have here := held_consume windows call call.bucket (Int.le_refl call.now)
      rw [if_pos rfl, if_pos rfl] at here
      exact here
    · intro bucket later reached other
      rw [held_consume windows call bucket reached]
      by_cases same : call.bucket = bucket
      · -- the window of this key that the call replaces is over
        subst same
        have different : start call.bucket.width call.now ≠ start call.bucket.width later :=
          fun equal => other ⟨rfl, equal⟩
        have future := lt_start call.bucket.width_pos reached different.symm
        rw [if_pos rfl, if_neg different, covers.counted call.bucket later (ordered.trans reached),
          count_future Bucket.width Bucket.width_pos covers.past (ordered.trans_lt future)]
      · rw [if_neg same]

end InMemoryRateLimitStore

namespace PostgresRateLimitStore

def primary (bucket : Bucket) (first : Int) : JsString × Int × Nat × Nat :=
  (bucket.key, first, bucket.rule.windowMs, bucket.rule.limit)

theorem primary_inj {bucket other : Bucket} {first second : Int}
    (same : primary bucket first = primary other second) : bucket = other ∧ first = second := by
  obtain ⟨key, ⟨limit, windowMs, limited, timed⟩⟩ := bucket
  obtain ⟨otherKey, ⟨otherLimit, otherWindow, otherLimited, otherTimed⟩⟩ := other
  cases same
  exact ⟨rfl, rfl⟩

/-- What the table knows of a window. -/
def held (store : Store) (bucket : Bucket) (first : Int) : Nat :=
  counted store.rows (primary bucket first)

theorem counted_cleanUp {rows : Table Row.primary} {operations : Nat} {bucket : Bucket}
    {nowMs first : Int} (needed : nowMs < first + MAX_WINDOW_MS) :
    counted (cleanUp operations nowMs rows) (primary bucket first) =
      counted rows (primary bucket first) := by
  unfold cleanUp
  split
  · rw [counted, Table.get_keep, counted]
    cases found : rows.get (primary bucket first) with
    | none => rfl
    | some row =>
      have window : row.windowStartMs = first :=
        congrArg (fun key => key.2.1) (Table.key_of_get found)
      have kept : decide (¬ row.windowStartMs < nowMs - MAX_WINDOW_MS) = true := by
        rw [window, decide_eq_true_eq]
        omega
      rw [Option.filter_some, if_pos kept]
  · rfl

theorem counted_set (rows : Table Row.primary) (row : Row) (primary : JsString × Int × Nat × Nat) :
    counted (rows.set row) primary =
      if row.primary = primary then row.count else counted rows primary := by
  rw [counted, Table.get_set]
  by_cases same : row.primary = primary
  · rw [if_pos same, if_pos same]
  · rw [if_neg same, if_neg same]
    rfl

/-- Below the range of the column the upsert goes through. -/
theorem upsert_call (rows : Table Row.primary) (call : Call) (first : Int)
    (few : counted rows (primary call.bucket first) < 2147483647) :
    upsert rows call.bucket.key first call.bucket.rule =
      some (counted rows (primary call.bucket first) + 1,
        rows.set ⟨call.bucket.key, first, call.bucket.rule.windowMs, call.bucket.rule.limit,
          counted rows (primary call.bucket first) + 1⟩) := by
  have keyed : 1 ≤ call.bucket.key.charLength ∧ call.bucket.key.charLength ≤ 256 :=
    ⟨JsString.charLength_pos call.keyed.1, (JsString.charLength_le _).trans call.keyed.2⟩
  have storable : Row.storable ⟨call.bucket.key, first, call.bucket.rule.windowMs,
      call.bucket.rule.limit, counted rows (primary call.bucket first) + 1⟩ = true := by
    simp only [Row.storable, Bool.and_eq_true, decide_eq_true_eq]
    exact ⟨⟨⟨⟨keyed, Nat.le_add_left 1 _⟩, call.bucket.rule.limited⟩, call.bucket.rule.timed⟩, few⟩
  simp only [upsert, JsString.asColumn_of_isClean call.clean, Option.bind_eq_bind, Option.bind_some]
  exact if_pos storable

/-- What a call answers and the table knows after it. -/
theorem consume_eq (store : Store) (call : Call)
    (few : held store call.bucket (start call.bucket.width call.now) < 2147483647) :
    consume store call.input =
      (.ok (referenceDecision call.arrival
        (held store call.bucket (start call.bucket.width call.now) + 1)),
        ⟨cleanUp (store.operations + 1) call.now (store.rows.set
          ⟨call.bucket.key, start call.bucket.width call.now, call.bucket.rule.windowMs,
            call.bucket.rule.limit, held store call.bucket (start call.bucket.width call.now) + 1⟩),
          store.operations + 1⟩) := by
  have accepted : clock (some call.now) = some call.now := by
    rw [clock, Option.filter_some, if_pos (decide_eq_true call.timed.1)]
  have key : call.input.key = call.bucket.key := rfl
  rw [consume, validate_input call accepted]
  simp only [windowStart_eq, key, upsert_call store.rows call _ few, decision_eq]
  rfl

/-- What the table knows after a call. -/
theorem held_consume (store : Store) (call : Call)
    (few : held store call.bucket (start call.bucket.width call.now) < 2147483647) (bucket : Bucket)
    {later : Int} (reached : call.now ≤ later) :
    held (consume store call.input).2 bucket (start bucket.width later) =
      if call.bucket = bucket ∧ start call.bucket.width call.now = start bucket.width later then
        held store bucket (start bucket.width later) + 1
      else held store bucket (start bucket.width later) := by
  rw [consume_eq store call few, held, counted_cleanUp (still_needed reached), counted_set]
  by_cases same : call.bucket = bucket ∧
      start call.bucket.width call.now = start bucket.width later
  · obtain ⟨rfl, window⟩ := same
    rw [← window]
    exact (if_pos rfl).trans (if_pos ⟨rfl, rfl⟩).symm
  · rw [if_neg same]
    exact if_neg fun key => same (primary_inj key)

/-- A call counts itself and leaves every window still to come as the history has it. -/
theorem consume_call (store : Store) (history : List (Arrival Bucket)) (time : Int) (call : Call)
    (covers : Covers Bucket.width (held store) history time) (ordered : time ≤ call.now)
    (few : history.length < 2147483647) :
    (consume store call.input).1 = .ok (referenceDecision call.arrival
      (count Bucket.width (history ++ [call.arrival]) call.bucket
        (start call.bucket.width call.now))) ∧
    Covers Bucket.width (held (consume store call.input).2) (history ++ [call.arrival])
      call.now := by
  have known := covers.counted call.bucket call.now ordered
  have small : held store call.bucket (start call.bucket.width call.now) < 2147483647 := by
    rw [known]
    exact (count_le Bucket.width history _ _).trans_lt few
  constructor
  · rw [consume_eq store call small, count_concat, if_pos ⟨rfl, rfl⟩, ← known]
  · apply Covers.arrive call.arrival covers ordered
    · have here := held_consume store call small call.bucket (Int.le_refl call.now)
      rw [if_pos ⟨rfl, rfl⟩] at here
      exact here
    · intro bucket later reached other
      rw [held_consume store call small bucket reached]
      exact if_neg other

end PostgresRateLimitStore

/-- Calls of one store, in order. -/
def serveCalls {Store : Type}
    (consume : Store → RateLimitConsumeInput → Except Failure RateLimitDecision × Store)
    (store : Store) (calls : List Call) : List (Except Failure RateLimitDecision) × Store :=
  serve (fun store call => consume store (Call.input call)) store calls

/-- Whatever is swept and deleted on the way, both stores decide every call as the
counter over the whole history does, and know every window a later call can fall into. -/
theorem stores_count_history (calls : List Call)
    (ordered : calls.Pairwise fun earlier later => earlier.now ≤ later.now)
    (few : calls.length < 2 ^ 31) :
    (serveCalls InMemoryRateLimitStore.consume .empty calls).1 =
      replies Bucket.width (fun arrival total => .ok (referenceDecision arrival total)) []
        (calls.map Call.arrival) ∧
    (serveCalls PostgresRateLimitStore.consume .empty calls).1 =
      replies Bucket.width (fun arrival total => .ok (referenceDecision arrival total)) []
        (calls.map Call.arrival) ∧
    (∀ last, 0 ≤ last → (∀ call ∈ calls, call.now ≤ last) →
      Covers Bucket.width (InMemoryRateLimitStore.held
        (serveCalls InMemoryRateLimitStore.consume .empty calls).2) (calls.map Call.arrival) last ∧
      Covers Bucket.width (PostgresRateLimitStore.held
        (serveCalls PostgresRateLimitStore.consume .empty calls).2) (calls.map Call.arrival) last) ∧
    ∀ bucket other : Bucket, bucket ≠ other →
      InMemoryRateLimitStore.bucketKey bucket.key bucket.rule ≠
        InMemoryRateLimitStore.bucketKey other.key other.rule ∧
      ∀ first second, PostgresRateLimitStore.primary bucket first ≠
        PostgresRateLimitStore.primary other second := by
  have from1970 : ∀ call ∈ calls, 0 ≤ call.arrival.time := fun call _ => call.timed.1
  have memory := serve_eq (fun windows call => InMemoryRateLimitStore.consume windows call.input)
    Call.arrival (fun arrival total => .ok (referenceDecision arrival total))
    InMemoryRateLimitStore.held (2 ^ 31)
    (fun windows history time call covers reached _ =>
      InMemoryRateLimitStore.consume_call windows history time call covers reached)
    .empty [] (Covers.empty Bucket.width 0) ordered from1970 (by rw [List.length_nil]; omega)
  have database := serve_eq (fun store call => PostgresRateLimitStore.consume store call.input)
    Call.arrival (fun arrival total => .ok (referenceDecision arrival total))
    PostgresRateLimitStore.held (2 ^ 31 - 1) PostgresRateLimitStore.consume_call
    .empty [] (Covers.empty Bucket.width 0) ordered from1970 (by rw [List.length_nil]; omega)
  refine ⟨memory.1, database.1, ?_, ?_⟩
  · intro last positive bound
    exact ⟨memory.2 last positive bound, database.2 last positive bound⟩
  · intro bucket other different
    refine ⟨fun same => different (InMemoryRateLimitStore.bucketKey_inj same), ?_⟩
    intro first second same
    exact different (PostgresRateLimitStore.primary_inj same).1

private def onePerMinute : Bucket := ⟨js "login:60000:1", ⟨1, 60000, by decide, by decide⟩⟩

private def at1970 (seconds : Nat) (early : seconds ≤ 3600) : Call where
  bucket := onePerMinute
  now := seconds * 1000
  keyed := by decide
  clean := by decide
  timed := by omega

theorem second_call_waits :
    (serveCalls InMemoryRateLimitStore.consume .empty
      [at1970 30 (by decide), at1970 45 (by decide)]).1 =
        [.ok ⟨true, 1, 0, some 60000, 0⟩, .ok ⟨false, 1, 0, some 60000, 15000⟩] ∧
    (serveCalls PostgresRateLimitStore.consume .empty
      [at1970 30 (by decide), at1970 45 (by decide)]).1 =
        [.ok ⟨true, 1, 0, some 60000, 0⟩, .ok ⟨false, 1, 0, some 60000, 15000⟩] := by
  have counted := stores_count_history [at1970 30 (by decide), at1970 45 (by decide)]
    (by decide) (by decide)
  exact ⟨counted.1, counted.2.1⟩

end N2FNest.RateLimit
