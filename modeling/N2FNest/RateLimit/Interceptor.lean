import N2FNest.Lib.Trace
import N2FNest.RateLimit.Agreement

/-! The interceptor before a rate-limited handler: every policy of the request counts it, one
after the other, until one refuses. -/

namespace N2FNest.RateLimit

open Lib Shared FixedWindow

/-- A policy of a transport. Its rule is one both stores take, and so are its keys: a field
that the client chooses is digested first. -/
structure HttpRateLimitPolicy (Request : Type) where
  name : JsString
  rule : Rule
  key : Request → JsString
  bounded : ∀ request, name.length + 1 + (key request).length ≤ MAX_KEY_LENGTH
  clean : ∀ request, JsString.isClean ⟨name.units ++ 0x3A :: (key request).units⟩ = true

namespace HttpRateLimitPolicy

variable {Request : Type}

/-- `${policy.name}:${policy.key(request)}`, under the policy's rule. -/
def bucket (policy : HttpRateLimitPolicy Request) (request : Request) : Bucket :=
  ⟨⟨policy.name.units ++ 0x3A :: (policy.key request).units⟩, policy.rule⟩

theorem bucket_keyed (policy : HttpRateLimitPolicy Request) (request : Request) :
    1 ≤ (policy.bucket request).key.length ∧ (policy.bucket request).key.length ≤ MAX_KEY_LENGTH := by
  have bounded := policy.bounded request
  simp only [bucket, JsString.length, List.length_append, List.length_cons] at bounded ⊢
  omega

end HttpRateLimitPolicy

/-- The one operation, with the text key and rule of a policy. -/
inductive LimitOp where
  | consume (bucket : Bucket)

@[reducible] def LimitOp.Answer : LimitOp → Type
  | .consume _ => Except Failure RateLimitDecision

structure RateLimitHeaders where
  limit : Nat
  remaining : Int
  reset : Option Int
  retryAfter : Option Int
  deriving DecidableEq

/-- `Math.ceil(milliseconds / 1000)`. -/
def secondsUp (milliseconds : Int) : Int := ⌈Binary64.round ((milliseconds : ℚ) / 1000)⌉

def writeHeaders (decision : RateLimitDecision) : RateLimitHeaders where
  limit := decision.limit
  remaining := decision.remaining
  reset := decision.resetAt.map secondsUp
  retryAfter := if decision.allowed then none else some (max 1 (secondsUp decision.retryAfterMs))

/-- The handler runs, or the request ends in `rate_limit.exceeded` of a policy or in the
store's failure. -/
inductive Intercepted where
  | handled (headers : Option RateLimitHeaders)
  | exceeded (policy : JsString) (headers : RateLimitHeaders)
  | failed (error : Failure)

section Interceptor

variable {Request : Type}

/-- The decision with fewer requests remaining; the earlier one on a tie. -/
def tighter (tightest : Option RateLimitDecision) (current : RateLimitDecision) : RateLimitDecision :=
  match tightest with
  | none => current
  | some held => if current.remaining < held.remaining then current else held

/-- `#consume`, with the tightest decision so far, and what `intercept` makes of it. -/
def consumeEach (request : Request) : List (HttpRateLimitPolicy Request) →
    Option RateLimitDecision → Script LimitOp LimitOp.Answer Intercepted
  | [], tightest => .done (.handled (tightest.map writeHeaders))
  | policy :: rest, tightest => .await (.consume (policy.bucket request)) fun
    | .error error => .done (.failed error)
    | .ok decision =>
      if decision.allowed = false then .done (.exceeded policy.name (writeHeaders decision))
      else consumeEach request rest (some (tighter tightest decision))

/-- `intercept`. A handler without policies is not limited. -/
def intercept (policies : Request → List (HttpRateLimitPolicy Request)) (request : Request) :
    Script LimitOp LimitOp.Answer Intercepted :=
  consumeEach request (policies request) none

end Interceptor

/-- The clock, and a failure of the store: with the request counted or not. -/
structure Turn where
  now : Int
  lost : Option (Failure × Bool)
  timed : 0 ≤ now ∧ now ≤ 8640000000000000

/-- A store that counts as over the whole history, as long as the history is short enough. -/
structure Counter where
  Store : Type
  empty : Store
  consume : Store → RateLimitConsumeInput → Except Failure RateLimitDecision × Store
  held : Store → Bucket → Int → Nat
  most : Nat
  begins : Covers Bucket.width (held empty) [] 0
  counts : ∀ store history time (call : Call), Covers Bucket.width (held store) history time →
    time ≤ call.now → history.length < most →
      (consume store call.input).1 = .ok (referenceDecision call.arrival
        (count Bucket.width (history ++ [call.arrival]) call.bucket
          (start call.bucket.width call.now))) ∧
      Covers Bucket.width (held (consume store call.input).2) (history ++ [call.arrival]) call.now

def inMemoryCounter : Counter where
  Store := InMemoryRateLimitStore.Store
  empty := .empty
  consume := InMemoryRateLimitStore.consume
  held := InMemoryRateLimitStore.held
  most := 2147483647
  begins := Covers.empty Bucket.width 0
  counts windows history time call covers ordered _ :=
    InMemoryRateLimitStore.consume_call windows history time call covers ordered

def postgresCounter : Counter where
  Store := PostgresRateLimitStore.Store
  empty := .empty
  consume := PostgresRateLimitStore.consume
  held := PostgresRateLimitStore.held
  most := 2147483647
  begins := Covers.empty Bucket.width 0
  counts := PostgresRateLimitStore.consume_call

def Counter.perform (counter : Counter) (store : counter.Store) :
    (op : LimitOp) → Turn → op.Answer × counter.Store
  | .consume bucket, turn =>
    let consumed := counter.consume store
      ⟨bucket.key, ⟨.ofNat bucket.rule.limit, .ofNat bucket.rule.windowMs⟩, some turn.now⟩
    match turn.lost with
    | none => consumed
    | some (error, false) => (.error error, store)
    | some (error, true) => (.error error, consumed.2)

/-- Requests to limited handlers, any number at once. -/
def limited {Request : Type} (counter : Counter) (Client : Type)
    (policies : Request → List (HttpRateLimitPolicy Request)) :
    Service counter.Store Client Request Turn Empty LimitOp LimitOp.Answer Intercepted where
  perform := counter.perform
  program _ := intercept policies
  event store _ := store

end N2FNest.RateLimit
