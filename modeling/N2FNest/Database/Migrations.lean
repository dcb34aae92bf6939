import N2FNest.Lib.Result
import N2FNest.Lib.Run
import N2FNest.Shared.Failure
import N2FNest.Shared.Number

/-! `Database.migrate`: a list of migrations applied in one transaction under an
advisory lock, and the adoption of a history that was squashed into baselines.
Migration texts are run for their effect on tables other than the ledgers. -/

namespace N2FNest.Database

open Lib Shared

structure Migration where
  version : JsNumber
  sql : JsString
  deriving DecidableEq

structure LegacyHistory where
  ledger : JsString
  versions : JsNumber
  finalChecksum : JsString
  baselineThrough : JsNumber

/-- `Migration & { checksum: string }`, its version checked. -/
structure Entry where
  version : Nat
  sql : JsString
  checksum : JsString

/-- A row of a migration ledger; `version` is a `bigint`. -/
structure LedgerRow where
  version : Int
  checksum : JsString
  deriving DecidableEq

def Entry.row (entry : Entry) : LedgerRow := ⟨entry.version, entry.checksum⟩

/-- The most rows one PostgreSQL table holds: 2^32 − 1 pages of at most 291 tuples. -/
def rowLimit : Nat := 4294967295 * 291

/-- A ledger table in the order of its primary key, as `ORDER BY version` reads it. -/
structure Ledger where
  rows : List LedgerRow
  ascending : rows.Pairwise fun earlier later => earlier.version < later.version
  held : rows.length ≤ rowLimit

def invalid : Failure := failure .invalid "invalid database configuration" "database.config"

def drift : Failure := failure .conflict "migration history differs" "database.migration_drift"

private def conflict : Failure := failure .conflict "database operation failed" "database.conflict"

def legacyRefused : Failure :=
  failure .conflict "database predates the migration baseline" "database.legacy_history"

namespace Ledger

def empty : Ledger := ⟨[], List.Pairwise.nil, Nat.zero_le _⟩

private def below (ledger : Ledger) (row : LedgerRow) : List LedgerRow :=
  ledger.rows.filter fun other => other.version < row.version

private def above (ledger : Ledger) (row : LedgerRow) : List LedgerRow :=
  ledger.rows.filter fun other => row.version < other.version

private theorem ascending_around (ledger : Ledger) (row : LedgerRow) :
    (ledger.below row ++ row :: ledger.above row).Pairwise
      fun earlier later => earlier.version < later.version := by
  refine List.pairwise_append.mpr ⟨ledger.ascending.filter _, ?_, ?_⟩
  · refine List.pairwise_cons.mpr ⟨?_, ledger.ascending.filter _⟩
    intro other member
    simpa using (List.mem_filter.mp member).2
  · intro earlier before later after
    have less : earlier.version < row.version := by simpa using (List.mem_filter.mp before).2
    rcases List.mem_cons.mp after with rfl | after
    · exact less
    · exact less.trans (by simpa using (List.mem_filter.mp after).2)

private theorem length_around (ledger : Ledger) (row : LedgerRow) :
    (ledger.below row ++ row :: ledger.above row).length ≤ ledger.rows.length + 1 := by
  have split := List.length_eq_countP_add_countP (fun other => decide (other.version < row.version))
    (l := ledger.rows)
  have rest : ledger.rows.countP (fun other => decide (row.version < other.version)) ≤
      ledger.rows.countP (fun other => decide ¬decide (other.version < row.version) = true) :=
    List.countP_mono_left fun other _ less => by
      have less : row.version < other.version := by simpa using less
      simpa using less.le
  simp only [below, above, List.length_append, List.length_cons, ← List.countP_eq_length_filter]
  omega

/-- `INSERT INTO …(version,checksum)`: the primary key refuses a version twice. -/
def insert (ledger : Ledger) (row : LedgerRow) : Except Failure Ledger :=
  if ledger.rows.any (fun other => other.version = row.version) then .error conflict
  else if room : ledger.rows.length < rowLimit then
    .ok ⟨ledger.below row ++ row :: ledger.above row, ledger.ascending_around row,
      (ledger.length_around row).trans room⟩
  else .error databaseFailed

/-- The highest row, `ORDER BY version DESC LIMIT 1`. -/
def last (ledger : Ledger) : Option LedgerRow := ledger.rows.getLast?

/-- A version above every recorded one goes to the end. -/
theorem insert_above {ledger after : Ledger} {row : LedgerRow}
    (higher : ∀ other ∈ ledger.rows, other.version < row.version)
    (done : ledger.insert row = .ok after) : after.rows = ledger.rows ++ [row] := by
  unfold insert at done
  split at done
  · cases done
  · split at done
    · cases done
      have all : ledger.below row = ledger.rows := by
        refine List.filter_eq_self.mpr ?_
        intro other member
        simpa using higher other member
      have none : ledger.above row = [] := by
        refine List.filter_eq_nil_iff.mpr ?_
        intro other member
        simpa using (higher other member).le
      simp only [all, none]
    · cases done

theorem last_spec {ledger : Ledger} {row : LedgerRow} : ledger.last = some row ↔
    row ∈ ledger.rows ∧ ∀ other ∈ ledger.rows, other.version ≤ row.version := by
  constructor
  · intro found
    obtain ⟨before, same⟩ := List.getLast?_eq_some_iff.mp found
    have ordered := ledger.ascending
    rw [same, List.pairwise_append] at ordered
    rw [same]
    refine ⟨by simp, ?_⟩
    intro other member
    rcases List.mem_append.mp member with earlier | here
    · exact (ordered.2.2 other earlier row (by simp)).le
    · rw [List.mem_singleton.mp here]
  · rintro ⟨member, highest⟩
    obtain ⟨before, after, same⟩ := List.append_of_mem member
    have ordered := ledger.ascending
    rw [same, List.pairwise_append, List.pairwise_cons] at ordered
    cases after with
    | nil => rw [last, same, List.getLast?_concat]
    | cons next more =>
      have less := ordered.2.1.1 next List.mem_cons_self
      have most := highest next (by simp [same])
      omega

end Ledger

/-- The schema `public` as migrations see it: the ledger tables by name, and the
migration texts executed so far. -/
structure Schema where
  tables : JsString → Option Ledger
  executed : List JsString

def migrationsTable : JsString := js "n2f_migrations"

/-- The statements of one `migrate` call. A version is inserted at most once in it. -/
inductive Statement where
  | begin | statementTimeout | lockTimeout | idleTimeout | advisoryLock | create | select
  | present | history | insert (version : Nat) | drop | migration (version : Nat) | commit

/-- What each statement of a call meets besides what the tables decide: a lost
connection, a timeout, an error in a migration's text. -/
abbrev Faults := Statement → Option Failure

def Faults.send (faults : Faults) (statement : Statement) : Except Failure Unit :=
  match faults statement with
  | some error => .error error
  | none => .ok ()

namespace Schema

/-- The rows of `n2f_migrations`, none when there is no such table. -/
def ledger (schema : Schema) : List LedgerRow :=
  match schema.tables migrationsTable with
  | some ledger => ledger.rows
  | none => []

/-- `CREATE TABLE IF NOT EXISTS public.n2f_migrations`. -/
def create (schema : Schema) : Schema :=
  match schema.tables migrationsTable with
  | some _ => schema
  | none => { schema with tables := Function.update schema.tables migrationsTable (some .empty) }

/-- `INSERT INTO public.n2f_migrations(version,checksum)`. -/
def insert (schema : Schema) (row : LedgerRow) : Except Failure Schema :=
  match schema.tables migrationsTable with
  | none => .error databaseFailed
  | some ledger => do
    let ledger ← ledger.insert row
    return { schema with tables := Function.update schema.tables migrationsTable (some ledger) }

def drop (schema : Schema) (table : JsString) : Schema :=
  { schema with tables := Function.update schema.tables table none }

def execute (schema : Schema) (sql : JsString) : Schema :=
  { schema with executed := schema.executed ++ [sql] }

end Schema

/-- Record entries as applied without running them. -/
def record (faults : Faults) (schema : Schema) : List Entry → Except Failure Schema
  | [] => .ok schema
  | baseline :: rest => do
    faults.send (.insert baseline.version)
    let schema ← schema.insert baseline.row
    record faults schema rest

/-- `Number(history.count) !== versions || Number(history.last) !== versions ||
history.checksum !== finalChecksum`, negated; `Number(null)` is zero. -/
def LegacyHistory.matches (legacy : LegacyHistory) (history : Ledger) : Bool :=
  JsNumber.ofRat history.rows.length = legacy.versions &&
    (match history.last with
      | some row => JsNumber.ofRat row.version
      | none => JsNumber.ofRat 0) = legacy.versions &&
    history.last.map LedgerRow.checksum = some legacy.finalChecksum

def LegacyHistory.covers (legacy : LegacyHistory) (entry : Entry) : Bool :=
  (JsNumber.ofNat entry.version).atMost legacy.baselineThrough

/-- `Database.adopt`. -/
def adopt (faults : Faults) (schema : Schema) (legacy : LegacyHistory) (entries : List Entry) :
    Except Failure (Schema × List LedgerRow) := do
  faults.send .present
  match schema.tables legacy.ledger with
  | none => pure (schema, [])
  | some history =>
    faults.send .history
    if legacy.matches history then
      let baselines := entries.filter legacy.covers
      let schema ← record faults schema baselines
      faults.send .drop
      pure (schema.drop legacy.ledger, baselines.map Entry.row)
    else throw legacyRefused

/-- The loop over `entries.entries()`; `rows` are the recorded ones not yet passed. -/
def apply (faults : Faults) : Schema → List LedgerRow → List Entry → Except Failure Schema
  | schema, _, [] => .ok schema
  | schema, row :: rows, migration :: rest =>
    if row = migration.row then apply faults schema rows rest else .error drift
  | schema, [], migration :: rest => do
    faults.send (.migration migration.version)
    faults.send (.insert migration.version)
    let schema ← (schema.execute migration.sql).insert migration.row
    apply faults schema [] rest

/-- `rows.length === 0 && legacy`. -/
def recorded (faults : Faults) (schema : Schema) (legacy : Option LegacyHistory)
    (entries : List Entry) : Except Failure (Schema × List LedgerRow) :=
  match schema.ledger, legacy with
  | [], some legacy => adopt faults schema legacy entries
  | rows, _ => .ok (schema, rows)

/-- The callback of the transaction. -/
def pending (faults : Faults) (legacy : Option LegacyHistory) (entries : List Entry)
    (schema : Schema) : Except Failure Schema := do
  faults.send .statementTimeout
  faults.send .lockTimeout
  faults.send .idleTimeout
  faults.send .advisoryLock
  faults.send .create
  faults.send .select
  let (schema, rows) ← recorded faults schema.create legacy entries
  if rows.length > entries.length then throw drift else apply faults schema rows entries

/-- One serialised transaction: a failure on the way to its commit leaves what was there. -/
def transaction (faults : Faults) (schema : Schema) (body : Schema → Except Failure Schema) :
    Except Failure Unit × Schema :=
  let outcome := do
    faults.send .begin
    let schema ← body schema
    faults.send .commit
    return schema
  match outcome with
  | .ok schema => (.ok (), schema)
  | .error error => (.error error, schema)

/-- `/^[a-z_][a-z0-9_]*$/`. -/
def isIdentifier (text : JsString) : Bool :=
  match text.units with
  | [] => false
  | first :: rest => start first && rest.all fun unit => start unit || (0x30 ≤ unit && unit ≤ 0x39)
where
  start (unit : UInt16) : Bool := (0x61 ≤ unit && unit ≤ 0x7A) || unit == 0x5F

section Migrate

variable (sha256 : JsString → JsString)

/-- The loop that checks each migration against the one before it. -/
def check : Nat → List Migration → Except Failure (List Entry)
  | _, [] => .ok []
  | previous, migration :: rest =>
    match migration.version.safeNat? with
    | none => .error invalid
    | some version =>
      if version ≤ previous ∨ migration.sql.units = [] then .error invalid
      else do
        let later ← check version rest
        return ⟨version, migration.sql, sha256 migration.sql⟩ :: later

/-- `Database.migrate`. `sha256` is the hexadecimal digest of a text. -/
def migrate (faults : Faults) (schema : Schema) (migrations : List Migration) (budgetMs : JsNumber)
    (legacy : Option LegacyHistory) : Except Failure Unit × Schema :=
  if budgetMs.isInteger = false ∨ (JsNumber.ofNat 1).atMost budgetMs = false then
    (.error invalid, schema)
  else if legacy.any (fun legacy => !isIdentifier legacy.ledger) then (.error invalid, schema)
  else match check sha256 0 migrations with
    | .error error => (.error error, schema)
    | .ok entries => transaction faults schema (pending faults legacy entries)

end Migrate

end N2FNest.Database
