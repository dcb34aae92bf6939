/-! Failure values shared by domains, application services and adapters. -/

namespace N2FNest.Shared

/-- The closed vocabulary of failure categories. -/
inductive Kind where
  | internal | invalid | notFound | conflict | unauthenticated
  | forbidden | rateLimited | unavailable | timeout | canceled
  deriving DecidableEq, Repr

def Kind.name : Kind → String
  | .internal => "internal"
  | .invalid => "invalid"
  | .notFound => "not_found"
  | .conflict => "conflict"
  | .unauthenticated => "unauthenticated"
  | .forbidden => "forbidden"
  | .rateLimited => "rate_limited"
  | .unavailable => "unavailable"
  | .timeout => "timeout"
  | .canceled => "canceled"

/-- A public failure. `type` names the local condition when there is one. -/
structure Failure where
  kind : Kind
  message : String
  type : Option String
  deriving DecidableEq, Repr

def failure (kind : Kind) (message type : String) : Failure := ⟨kind, message, some type⟩

/-- `error.type ?? error.kind`. -/
def Failure.code (error : Failure) : String := error.type.getD error.kind.name

/-- What `map` makes of a statement the database refuses, a unique index apart. -/
def databaseFailed : Failure := failure .internal "database operation failed" "database.failed"

/-- The version of an aggregate no storage has written. -/
def UNSAVED : Nat := 0

/-- The version storage assigns on insert. -/
def FIRST : Nat := 1

/-- Recognise a version that storage could have produced. -/
def isStoredVersion (version : Nat) : Bool := FIRST ≤ version && version ≤ 9007199254740991

end N2FNest.Shared
