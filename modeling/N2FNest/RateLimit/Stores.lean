import N2FNest.Lib.Decimal
import N2FNest.Lib.FixedWindow
import N2FNest.Lib.Table
import N2FNest.Shared.Failure
import N2FNest.Shared.Number
import N2FNest.Shared.Text

/-! The two stores of the rate limiter: one window per text key in memory, and
rows per window in PostgreSQL. -/

namespace N2FNest.RateLimit

open Lib Shared

structure RateLimitRule where
  limit : JsNumber
  windowMs : JsNumber

structure RateLimitDecision where
  allowed : Bool
  limit : Nat
  remaining : Int
  resetAt : JsDate
  retryAfterMs : Int
  deriving DecidableEq

structure RateLimitConsumeInput where
  key : JsString
  rule : RateLimitRule
  now : JsDate

def MAX_KEY_LENGTH : Nat := 256

def MAX_LIMIT : Nat := 1000000

def MAX_WINDOW_MS : Nat := 86400000

def invalidConfiguration (message : String) : Failure :=
  failure .invalid message "rate_limit.invalid_configuration"

/-- A rule both stores take. -/
structure Rule where
  limit : Nat
  windowMs : Nat
  limited : 1 ≤ limit ∧ limit ≤ MAX_LIMIT
  timed : 1000 ≤ windowMs ∧ windowMs ≤ MAX_WINDOW_MS
  deriving DecidableEq

/-- The checks of a rule, the same in both stores. -/
def RateLimitRule.valid? (rule : RateLimitRule) : Option Rule := do
  let limit ← rule.limit.safeNat?
  let windowMs ← rule.windowMs.safeNat?
  if valid : (1 ≤ limit ∧ limit ≤ MAX_LIMIT) ∧ (1000 ≤ windowMs ∧ windowMs ≤ MAX_WINDOW_MS) then
    some ⟨limit, windowMs, valid.1, valid.2⟩
  else none

/-- The checks that come before a store counts; `clock` is the time it accepts. -/
def validate (clock : JsDate → Option Int) (input : RateLimitConsumeInput) :
    Except Failure (Rule × Int) :=
  if input.key.length = 0 ∨ MAX_KEY_LENGTH < input.key.length then
    .error (invalidConfiguration "rate-limit key is invalid")
  else match input.rule.valid? with
    | none => .error (invalidConfiguration "rate-limit rule is invalid")
    | some rule => match clock input.now with
      | none => .error (invalidConfiguration "rate-limit clock time is invalid")
      | some nowMs => .ok (rule, nowMs)

/-- `Math.floor(nowMs / windowMs) * windowMs`; only the quotient is rounded. -/
def windowStart (nowMs : Int) (windowMs : Nat) : Int :=
  ⌊Binary64.round ((nowMs : ℚ) / windowMs)⌋ * windowMs

def decision (rule : Rule) (nowMs windowStartMs : Int) (count : Nat) : RateLimitDecision where
  allowed := count ≤ rule.limit
  limit := rule.limit
  remaining := max 0 (rule.limit - count : Int)
  resetAt := timeClip (windowStartMs + rule.windowMs)
  retryAfterMs := if count ≤ rule.limit then 0 else max 0 (windowStartMs + rule.windowMs - nowMs)

namespace InMemoryRateLimitStore

structure WindowState where
  key : JsString
  windowStartMs : Int
  count : Nat

/-- The map of windows, each kept under its text key. -/
abbrev Store := Table WindowState.key

/-- `${key}:${windowMs}:${limit}`. -/
def bucketKey (key : JsString) (rule : Rule) : JsString :=
  ⟨key.units ++ 0x3A :: Decimal.text rule.windowMs ++ 0x3A :: Decimal.text rule.limit⟩

/-- The count of a key in the window from `windowStartMs` on, the only one the map may keep. -/
def counted (windows : Store) (key : JsString) (windowStartMs : Int) : Nat :=
  match windows.get key with
  | some previous => if previous.windowStartMs = windowStartMs then previous.count else 0
  | none => 0

def sweep (nowMs : Int) (windows : Store) : Store :=
  if 10000 < windows.rows.length then
    windows.keep fun state => ¬ state.windowStartMs + MAX_WINDOW_MS < nowMs
  else windows

def consume (windows : Store) (input : RateLimitConsumeInput) :
    Except Failure RateLimitDecision × Store :=
  match validate id input with
  | .error error => (.error error, windows)
  | .ok (rule, nowMs) =>
    let windowStartMs := windowStart nowMs rule.windowMs
    let key := bucketKey input.key rule
    let count := counted windows key windowStartMs + 1
    (.ok (decision rule nowMs windowStartMs count),
      sweep nowMs (windows.set ⟨key, windowStartMs, count⟩))

end InMemoryRateLimitStore

namespace PostgresRateLimitStore

structure Row where
  bucketKey : JsString
  windowStartMs : Int
  windowMs : Nat
  ruleLimit : Nat
  count : Nat

/-- The primary key. -/
def Row.primary (row : Row) : JsString × Int × Nat × Nat :=
  (row.bucketKey, row.windowStartMs, row.windowMs, row.ruleLimit)

structure Store where
  rows : Table Row.primary
  operations : Nat

def Store.empty : Store := ⟨.empty, 0⟩

/-- The constraints of the table and the range of its `integer` column. -/
def Row.storable (row : Row) : Bool :=
  (1 ≤ row.bucketKey.charLength && row.bucketKey.charLength ≤ 256) && 1 ≤ row.count &&
    (1 ≤ row.ruleLimit && row.ruleLimit ≤ 1000000) &&
    (1000 ≤ row.windowMs && row.windowMs ≤ 86400000) && row.count ≤ 2147483647

/-- The count of the row under a primary key. -/
def counted (rows : Table Row.primary) (primary : JsString × Int × Nat × Nat) : Nat :=
  match rows.get primary with
  | some row => row.count
  | none => 0

/-- The upsert with the count it returns, `none` where the database refuses it. -/
def upsert (rows : Table Row.primary) (key : JsString) (windowStartMs : Int) (rule : Rule) :
    Option (Nat × Table Row.primary) := do
  let bucketKey ← key.asColumn
  let count := counted rows (bucketKey, windowStartMs, rule.windowMs, rule.limit) + 1
  let row : Row := ⟨bucketKey, windowStartMs, rule.windowMs, rule.limit, count⟩
  if row.storable then some (count, rows.set row) else none

/-- The deletion every thousandth operation makes. -/
def cleanUp (operations : Nat) (nowMs : Int) (rows : Table Row.primary) : Table Row.primary :=
  if operations % 1000 = 0 then rows.keep fun row => ¬ row.windowStartMs < nowMs - MAX_WINDOW_MS
  else rows

/-- A time of its own range is a safe integer. -/
def clock (now : JsDate) : Option Int := now.filter (0 ≤ ·)

def consume (store : Store) (input : RateLimitConsumeInput) :
    Except Failure RateLimitDecision × Store :=
  match validate clock input with
  | .error error => (.error error, store)
  | .ok (rule, nowMs) =>
    let windowStartMs := windowStart nowMs rule.windowMs
    match upsert store.rows input.key windowStartMs rule with
    | none => (.error databaseFailed, store)
    | some (count, rows) =>
      (.ok (decision rule nowMs windowStartMs count),
        ⟨cleanUp (store.operations + 1) nowMs rows, store.operations + 1⟩)

end PostgresRateLimitStore

end N2FNest.RateLimit
