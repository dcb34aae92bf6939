import N2FNest.Lib.Table
import N2FNest.Shared.Failure

/-! Version-checked writes, and the reports a bounded context makes of the
failures of its dependencies. -/

namespace N2FNest.Shared

open Lib

universe u v

/-- `UPDATE … SET …, version=version+1 WHERE id=$1 AND … AND version=$n`. When no
row matched, `missingOrStale` asks which of the two it was. The column is a
PostgreSQL `integer`. -/
def updateVersioned {Row : Type u} {Key : Type v} [DecidableEq Key] {key : Row → Key}
    (table : Table key) (id : Key) (version : Row → Nat) (matched : Row → Bool)
    (written : Row → Row) (missing stale : Failure) : Except Failure (Table key) :=
  match table.get id with
  | none => .error missing
  | some stored =>
    if matched stored = false then .error stale
    else if 2147483647 ≤ version stored then .error databaseFailed
    else .ok (table.set (written stored))

/-- An accepted update found its row, matched it and wrote it. -/
theorem updateVersioned_inv {Row : Type u} {Key : Type v} [DecidableEq Key] {key : Row → Key}
    {table next : Table key} {id : Key} {version : Row → Nat} {matched : Row → Bool}
    {written : Row → Row} {missing stale : Failure}
    (done : updateVersioned table id version matched written missing stale = .ok next) :
    ∃ stored, table.get id = some stored ∧ matched stored = true ∧ next = table.set (written stored) := by
  unfold updateVersioned at done
  split at done
  · cases done
  · rename_i stored found
    split at done
    · cases done
    · rename_i match_
      split at done
      · cases done
      · cases done
        exact ⟨stored, found, by simpa using match_, rfl⟩

/-- A failure of a context's own is reported under the kind that `known` lists
its type with. -/
def reportKnown (known : List (Kind × List String)) (error : Failure) : Option Failure := do
  let type ← error.type
  let entry ← known.find? fun entry => type ∈ entry.2
  return failure entry.1 error.message type

/-- Normalize an open adapter failure into the contract of the context `owner`,
whose failure types start with `scope`. -/
def reportDependency (owner scope : String) (known : List (Kind × List String)) (error : Failure) :
    Failure :=
  match reportKnown known error with
  | some reported => reported
  | none =>
    let report (kind : Kind) (message type : String) :=
      failure kind (owner ++ " dependency " ++ message) (scope ++ ".dependency_" ++ type)
    match error.kind with
    | .invalid => report .internal "returned an invalid outcome" "invalid"
    | .notFound => report .notFound "could not find the required record" "not_found"
    | .conflict => report .conflict "rejected the operation as a conflict" "conflict"
    | .unauthenticated => report .unauthenticated "rejected authentication" "unauthenticated"
    | .forbidden => report .forbidden "rejected authorization" "forbidden"
    | .rateLimited => report .rateLimited "is rate limited" "rate_limited"
    | .unavailable => report .unavailable "is unavailable" "unavailable"
    | .timeout => report .timeout "timed out" "timeout"
    | .canceled => report .canceled "operation was canceled" "canceled"
    | .internal => report .internal "failed internally" "internal"

/-- A read or a transaction that the database itself may fail. -/
def orFault {α : Type u} (fault : Option Failure) (result : Except Failure α) : Except Failure α :=
  match fault with
  | some error => .error error
  | none => result

theorem orFault_ok {α : Type u} {fault : Option Failure} {result : Except Failure α} {value : α}
    (done : orFault fault result = .ok value) : result = .ok value := by
  cases fault with
  | none => exact done
  | some error => cases done

end N2FNest.Shared
