import N2FNest.Database.Migrations
import N2FNest.Lib.Ascending

/-! Every successful `migrate` leaves the ledger equal to its list, and over any
sequence of calls a migration's text is executed at most once. -/

namespace N2FNest.Database

open Lib Shared

/-- Rows and texts that a part of a call adds; tables other than the ledger stay. -/
structure Grows (before after : Schema) (rows : List LedgerRow) (texts : List JsString) : Prop where
  ledger : after.ledger = before.ledger ++ rows
  executed : after.executed = before.executed ++ texts
  others : ∀ name, name ≠ migrationsTable → after.tables name = before.tables name

namespace Grows

variable {first second third : Schema} {rows more : List LedgerRow} {texts later : List JsString}

theorem refl (schema : Schema) : Grows schema schema [] [] :=
  ⟨by simp, by simp, fun _ _ => rfl⟩

theorem trans (left : Grows first second rows texts) (right : Grows second third more later) :
    Grows first third (rows ++ more) (texts ++ later) where
  ledger := by rw [right.ledger, left.ledger, List.append_assoc]
  executed := by rw [right.executed, left.executed, List.append_assoc]
  others name other := (right.others name other).trans (left.others name other)

end Grows

theorem Schema.ledger_of_tables {schema : Schema} {ledger : Ledger}
    (found : schema.tables migrationsTable = some ledger) : schema.ledger = ledger.rows := by
  simp [Schema.ledger, found]

theorem Schema.create_grows (schema : Schema) : Grows schema schema.create [] [] := by
  unfold Schema.create
  split
  · exact .refl schema
  · rename_i missing
    refine ⟨?_, by simp, ?_⟩
    · simp [Schema.ledger, missing, Ledger.empty]
    · intro name other
      simp [other]

theorem Schema.execute_grows (schema : Schema) (sql : JsString) :
    Grows schema (schema.execute sql) [] [sql] :=
  ⟨by simp [Schema.ledger, Schema.execute], rfl, fun _ _ => rfl⟩

theorem Schema.insert_grows {schema after : Schema} {row : LedgerRow}
    (higher : ∀ other ∈ schema.ledger, other.version < row.version)
    (done : schema.insert row = .ok after) : Grows schema after [row] [] := by
  unfold Schema.insert at done
  split at done
  · cases done
  · rename_i ledger found
    obtain ⟨next, inserted, done⟩ := bind_ok done
    cases done
    have same := Schema.ledger_of_tables found
    refine ⟨?_, by simp, ?_⟩
    · rw [same] at higher ⊢
      simp [Schema.ledger, Ledger.insert_above higher inserted]
    · intro name other
      simp [other]

/-- Rows in the order of their versions. -/
def Ascending (rows : List LedgerRow) : Prop :=
  rows.Pairwise fun earlier later => earlier.version < later.version

theorem Schema.ledger_ascending (schema : Schema) : Ascending schema.ledger := by
  unfold Schema.ledger
  split
  · rename_i ledger _
    exact ledger.ascending
  · exact List.Pairwise.nil

private theorem Ascending.higher {rows rest : List LedgerRow} {row : LedgerRow}
    (ordered : Ascending (rows ++ row :: rest)) : ∀ other ∈ rows, other.version < row.version :=
  fun other member =>
    (List.pairwise_append.mp ordered).2.2 other member row List.mem_cons_self

theorem record_grows {faults : Faults} {entries : List Entry} {schema after : Schema}
    (ordered : Ascending (schema.ledger ++ entries.map Entry.row))
    (done : record faults schema entries = .ok after) :
    Grows schema after (entries.map Entry.row) [] := by
  induction entries generalizing schema with
  | nil =>
    cases done
    exact .refl _
  | cons baseline rest ih =>
    obtain ⟨_, _, done⟩ := bind_ok done
    obtain ⟨middle, inserted, done⟩ := bind_ok done
    have grown := Schema.insert_grows ordered.higher inserted
    have later : Ascending (middle.ledger ++ rest.map Entry.row) := by
      simpa [grown.ledger] using ordered
    exact grown.trans (ih later done)

/-- The loop passes the recorded rows only if they are the first entries. -/
theorem apply_known {faults : Faults} {entries : List Entry} {rows : List LedgerRow}
    {schema after : Schema} (fits : rows.length ≤ entries.length)
    (done : apply faults schema rows entries = .ok after) :
    rows = (entries.take rows.length).map Entry.row := by
  induction entries generalizing rows with
  | nil => exact List.eq_nil_of_length_eq_zero (Nat.le_zero.mp fits) ▸ rfl
  | cons migration rest ih =>
    cases rows with
    | nil => rfl
    | cons row rows =>
      simp only [apply] at done
      split at done
      · rename_i same
        have taken := ih (Nat.le_of_succ_le_succ fits) done
        rw [List.length_cons, List.take_succ_cons, List.map_cons, ← taken, same]
      · cases done

/-- It runs and records the entries behind them. -/
theorem apply_grows {faults : Faults} {entries : List Entry} {rows : List LedgerRow}
    {schema after : Schema}
    (ordered : Ascending (schema.ledger ++ (entries.drop rows.length).map Entry.row))
    (done : apply faults schema rows entries = .ok after) :
    Grows schema after ((entries.drop rows.length).map Entry.row)
      ((entries.drop rows.length).map Entry.sql) := by
  induction entries generalizing schema rows with
  | nil =>
    cases done
    simpa using Grows.refl _
  | cons migration rest ih =>
    cases rows with
    | nil =>
      obtain ⟨_, _, done⟩ := bind_ok done
      obtain ⟨_, _, done⟩ := bind_ok done
      obtain ⟨middle, inserted, done⟩ := bind_ok done
      have ran := schema.execute_grows migration.sql
      have grown := Schema.insert_grows (by rw [ran.ledger, List.append_nil]; exact ordered.higher)
        inserted
      have both := ran.trans grown
      simpa using both.trans (ih (by simpa [both.ledger] using ordered) done)
    | cons row rows =>
      simp only [apply] at done
      split at done
      · simpa using ih (by simpa using ordered) done
      · cases done

def Entry.migration (entry : Entry) : Migration := ⟨.ofNat entry.version, entry.sql⟩

section Check

variable {sha256 : JsString → JsString}

theorem check_spec {previous : Nat} {migrations : List Migration} {entries : List Entry}
    (done : check sha256 previous migrations = .ok entries) :
    migrations = entries.map Entry.migration ∧
      (∀ entry ∈ entries, previous < entry.version ∧ entry.checksum = sha256 entry.sql) ∧
      Ascending (entries.map Entry.row) := by
  induction migrations generalizing previous entries with
  | nil =>
    cases done
    exact ⟨rfl, by simp, List.Pairwise.nil⟩
  | cons migration rest ih =>
    unfold check at done
    split at done
    · cases done
    · rename_i version safe
      obtain ⟨accepted, done⟩ := refuse_ok.mp done
      obtain ⟨later, checked, done⟩ := bind_ok done
      cases done
      obtain ⟨named, above, ordered⟩ := ih checked
      have exact := (JsNumber.safeNat?_some safe).1
      have less : previous < version := by
        by_contra short
        exact accepted (.inl (Nat.not_lt.mp short))
      refine ⟨?_, ?_, ?_⟩
      · rw [List.map_cons, ← named, Entry.migration, ← exact]
      · intro entry member
        rcases List.mem_cons.mp member with rfl | member
        · exact ⟨less, rfl⟩
        · exact ⟨less.trans (above entry member).1, (above entry member).2⟩
      · refine List.pairwise_cons.mpr ⟨?_, ordered⟩
        intro row member
        obtain ⟨entry, present, rfl⟩ := List.mem_map.mp member
        exact Int.ofNat_lt.mpr (above entry present).1

end Check

/-- The legacy ledger holds the whole squashed history and nothing was migrated since. -/
def Adoptable (schema : Schema) (legacy : LegacyHistory) : Prop :=
  schema.ledger = [] ∧ ∃ history, schema.tables legacy.ledger = some history ∧
    JsNumber.ofNat history.rows.length = legacy.versions ∧
    ∃ row ∈ history.rows, (∀ other ∈ history.rows, other.version ≤ row.version) ∧
      JsNumber.ofInt row.version = legacy.versions ∧ row.checksum = legacy.finalChecksum

/-- A table is too small for its row count to be rounded, so `Number` tells the
counts and the versions apart. -/
theorem matches_iff {legacy : LegacyHistory} {history : Ledger} : legacy.matches history = true ↔
    JsNumber.ofNat history.rows.length = legacy.versions ∧
    ∃ row ∈ history.rows, (∀ other ∈ history.rows, other.version ≤ row.version) ∧
      JsNumber.ofInt row.version = legacy.versions ∧ row.checksum = legacy.finalChecksum := by
  have small : |((history.rows.length : Int) : ℚ)| < 2 ^ 53 := by
    have held : (history.rows.length : ℚ) ≤ (rowLimit : Nat) := Nat.cast_le.mpr history.held
    have limit : ((rowLimit : Nat) : ℚ) < 2 ^ 53 := by norm_num [rowLimit]
    rw [Int.cast_natCast, Nat.abs_cast]
    exact held.trans_lt limit
  have counted : JsNumber.ofRat history.rows.length = JsNumber.ofNat history.rows.length := by
    have same := (JsNumber.ofRat_eq_ofInt small).mpr rfl
    exact_mod_cast same
  unfold LegacyHistory.matches
  rw [counted]
  cases found : history.last with
  | none =>
    have empty : history.rows = [] := List.getLast?_eq_none_iff.mp found
    simp [empty]
  | some row =>
    have highest := Ledger.last_spec.mp found
    simp only [Bool.and_eq_true, decide_eq_true_eq, Option.map_some, Option.some.injEq]
    constructor
    · rintro ⟨⟨count, last⟩, checksum⟩
      rw [← count] at last
      have same := (JsNumber.ofRat_eq_ofInt small).mp last
      refine ⟨count, row, highest.1, highest.2, ?_, checksum⟩
      rw [same]
      exact count
    · rintro ⟨count, other, member, top, version, checksum⟩
      have same : row = other := by
        have again := Ledger.last_spec.mpr ⟨member, top⟩
        exact Option.some.inj (found.symm.trans again)
      subst same
      refine ⟨⟨count, ?_⟩, checksum⟩
      rw [← count] at version ⊢
      have exact : row.version = history.rows.length := by
        exact_mod_cast JsNumber.finite.inj version
      exact (JsNumber.ofRat_eq_ofInt small).mpr exact

theorem Adoptable.other_table {schema : Schema} {legacy : LegacyHistory}
    (adoptable : Adoptable schema legacy) : legacy.ledger ≠ migrationsTable := by
  obtain ⟨fresh, history, found, _, row, member, _⟩ := adoptable
  intro same
  rw [same] at found
  rw [Schema.ledger_of_tables found] at fresh
  rw [fresh] at member
  cases member

theorem adoptable_create {schema : Schema} {legacy : LegacyHistory} :
    Adoptable schema.create legacy ↔ Adoptable schema legacy := by
  have grown := schema.create_grows
  have same : schema.create.ledger = schema.ledger := by simpa using grown.ledger
  constructor
  · intro adoptable
    have found := grown.others _ adoptable.other_table
    simpa [Adoptable, same, found] using adoptable
  · intro adoptable
    have found := grown.others _ adoptable.other_table
    simpa [Adoptable, same, found] using adoptable

theorem Schema.drop_ledger {schema : Schema} {table : JsString} (other : table ≠ migrationsTable) :
    (schema.drop table).ledger = schema.ledger := by
  simp [Schema.ledger, Schema.drop, Ne.symm other]

/-- What became of the other tables and which entries were adopted as baselines. -/
def Adoption (before after : Schema) (legacy : Option LegacyHistory)
    (migrations adopted : List Migration) : Prop :=
  (adopted = [] ∧ (∀ history, legacy = some history → ¬ Adoptable before history) ∧
    ∀ name, name ≠ migrationsTable → after.tables name = before.tables name) ∨
  ∃ history, legacy = some history ∧ Adoptable before history ∧
    adopted = migrations.filter (fun migration =>
      migration.version.atMost history.baselineThrough) ∧
    ∀ name, name ≠ migrationsTable →
      after.tables name = if name = history.ledger then none else before.tables name

theorem Adoption.frame {before middle after : Schema} {legacy : Option LegacyHistory}
    {migrations adopted : List Migration} (adoption : Adoption before middle legacy migrations adopted)
    (others : ∀ name, name ≠ migrationsTable → after.tables name = middle.tables name) :
    Adoption before after legacy migrations adopted := by
  rcases adoption with ⟨empty, refused, frame⟩ | ⟨history, given, adoptable, kept, frame⟩
  · exact .inl ⟨empty, refused, fun name other => (others name other).trans (frame name other)⟩
  · exact .inr ⟨history, given, adoptable, kept,
      fun name other => (others name other).trans (frame name other)⟩

theorem Adoption.of_create {before after : Schema} {legacy : Option LegacyHistory}
    {migrations adopted : List Migration}
    (adoption : Adoption before.create after legacy migrations adopted) :
    Adoption before after legacy migrations adopted := by
  have others := before.create_grows.others
  rcases adoption with ⟨empty, refused, frame⟩ | ⟨history, given, adoptable, kept, frame⟩
  · refine .inl ⟨empty, ?_, fun name other => (frame name other).trans (others name other)⟩
    exact fun history given adoptable => refused history given (adoptable_create.mpr adoptable)
  · refine .inr ⟨history, given, adoptable_create.mp adoptable, kept, ?_⟩
    intro name other
    rw [frame name other, others name other]

private theorem filter_migrations (legacy : LegacyHistory) (entries : List Entry) :
    (entries.map Entry.migration).filter (fun migration =>
        migration.version.atMost legacy.baselineThrough) =
      (entries.filter legacy.covers).map Entry.migration := by
  rw [List.filter_map]
  rfl

theorem adopt_spec {faults : Faults} {schema after : Schema} {legacy : LegacyHistory}
    {entries : List Entry} {rows : List LedgerRow} (fresh : schema.ledger = [])
    (ordered : Ascending (entries.map Entry.row))
    (done : adopt faults schema legacy entries = .ok (after, rows)) :
    ∃ adopted, rows = adopted.map Entry.row ∧ after.ledger = rows ∧
      after.executed = schema.executed ∧
      Adoption schema after (some legacy) (entries.map Entry.migration)
        (adopted.map Entry.migration) ∧
      (adopted = [] ∨ adopted = entries.filter legacy.covers) := by
  obtain ⟨_, _, done⟩ := bind_ok done
  cases found : schema.tables legacy.ledger with
  | none =>
    simp only [found, pure_eq_ok, Prod.mk.injEq] at done
    obtain ⟨rfl, rfl⟩ := done
    refine ⟨[], rfl, fresh, rfl, .inl ⟨rfl, ?_, fun _ _ => rfl⟩, .inl rfl⟩
    rintro _ ⟨⟩ ⟨_, history, present, _⟩
    rw [found] at present
    cases present
  | some history =>
    simp only [found] at done
    obtain ⟨_, _, done⟩ := bind_ok done
    split at done
    · rename_i complete
      have adoptable : Adoptable schema legacy := ⟨fresh, history, found, matches_iff.mp complete⟩
      obtain ⟨middle, inserted, done⟩ := bind_ok done
      obtain ⟨_, _, done⟩ := bind_ok done
      simp only [pure_eq_ok, Prod.mk.injEq] at done
      obtain ⟨rfl, rfl⟩ := done
      have baselines : Ascending ((entries.filter legacy.covers).map Entry.row) :=
        ordered.sublist (List.filter_sublist.map Entry.row)
      have grown := record_grows (by rw [fresh]; exact baselines) inserted
      refine ⟨entries.filter legacy.covers, rfl, ?_, ?_, .inr ⟨legacy, rfl, adoptable, ?_, ?_⟩,
        .inr rfl⟩
      · rw [Schema.drop_ledger adoptable.other_table, grown.ledger, fresh, List.nil_append]
      · simpa [Schema.drop] using grown.executed
      · rw [filter_migrations]
      · intro name other
        by_cases same : name = legacy.ledger
        · simp [Schema.drop, same]
        · simp [Schema.drop, same, grown.others name other]
    · cases done

theorem recorded_spec {faults : Faults} {schema after : Schema} {legacy : Option LegacyHistory}
    {entries : List Entry} {rows : List LedgerRow} (ordered : Ascending (entries.map Entry.row))
    (done : recorded faults schema legacy entries = .ok (after, rows)) :
    ∃ adopted, after.ledger = rows ∧ after.executed = schema.executed ∧
      Adoption schema after legacy (entries.map Entry.migration) (adopted.map Entry.migration) ∧
      (adopted = [] ∧ rows = schema.ledger ∨
        schema.ledger = [] ∧ rows = adopted.map Entry.row ∧
          ∃ legacy : LegacyHistory, adopted = entries.filter legacy.covers) := by
  unfold recorded at done
  split at done
  · rename_i history fresh
    obtain ⟨adopted, named, held, kept, adoption, which⟩ := adopt_spec fresh ordered done
    refine ⟨adopted, held, kept, adoption, ?_⟩
    rcases which with rfl | all
    · exact .inl ⟨rfl, by rw [named, fresh]; rfl⟩
    · exact .inr ⟨fresh, named, history, all⟩
  · rename_i other
    cases done
    refine ⟨[], rfl, rfl, .inl ⟨rfl, ?_, fun _ _ => rfl⟩, .inl ⟨rfl, rfl⟩⟩
    intro history given adoptable
    exact other history adoptable.1 given

/-- What identifies a migration in a ledger. -/
def Migration.stored (sha256 : JsString → JsString) (migration : Migration) : JsNumber × JsString :=
  (migration.version, sha256 migration.sql)

def LedgerRow.stored (row : LedgerRow) : JsNumber × JsString := (.ofInt row.version, row.checksum)

theorem LedgerRow.stored_injective : Function.Injective LedgerRow.stored := by
  rintro ⟨version, checksum⟩ ⟨other, digest⟩ same
  obtain ⟨number, rfl⟩ := Prod.mk.inj same
  have same : version = other := by exact_mod_cast JsNumber.finite.inj number
  rw [same]

private theorem covers_closed (legacy : LegacyHistory) (entry other : Entry)
    (less : entry.row.version < other.row.version) (covered : legacy.covers other = true) :
    legacy.covers entry = true := by
  have less : (entry.version : ℚ) ≤ other.version := by
    have smaller : (entry.version : Int) < other.version := less
    exact_mod_cast smaller.le
  revert covered
  unfold LegacyHistory.covers JsNumber.ofNat
  cases legacy.baselineThrough with
  | finite through =>
    simp only [JsNumber.atMost, decide_eq_true_eq]
    exact less.trans
  | nan => simp [JsNumber.atMost]
  | infinite negative => cases negative <;> simp [JsNumber.atMost]

private theorem filter_fresh {items known fresh : List Migration} {wanted : Migration → Bool}
    (parts : items = known ++ fresh) (none : ∀ item ∈ known, wanted item = false)
    (all : ∀ item ∈ fresh, wanted item = true) : items.filter wanted = fresh := by
  rw [parts, List.filter_append, List.filter_eq_self.mpr all,
    List.filter_eq_nil_iff.mpr fun item member => by simp [none item member], List.nil_append]

section Call

variable (sha256 : JsString → JsString)

/-- The entries that were neither in the ledger before nor adopted. -/
def unapplied (before : Schema) (migrations adopted : List Migration) : List Migration :=
  migrations.filter fun migration =>
    migration.stored sha256 ∉ before.ledger.map LedgerRow.stored ∧ migration ∉ adopted

variable {sha256}

private theorem stored_entry {entry : Entry} (digest : entry.checksum = sha256 entry.sql) :
    entry.migration.stored sha256 = entry.row.stored := by
  simp [Entry.migration, Entry.row, Migration.stored, LedgerRow.stored, digest, JsNumber.ofInt,
    JsNumber.ofNat]

private theorem stored_entries {entries : List Entry}
    (digests : ∀ entry ∈ entries, entry.checksum = sha256 entry.sql) :
    (entries.map Entry.migration).map (Migration.stored sha256) =
      (entries.map Entry.row).map LedgerRow.stored := by
  rw [List.map_map, List.map_map]
  exact List.map_congr_left fun entry member => stored_entry (digests entry member)

private theorem unapplied_known {before : Schema} {entries : List Entry} {count : Nat}
    (ordered : Ascending (entries.map Entry.row))
    (digests : ∀ entry ∈ entries, entry.checksum = sha256 entry.sql)
    (held : before.ledger = (entries.take count).map Entry.row) :
    unapplied sha256 before (entries.map Entry.migration) [] =
      (entries.drop count).map Entry.migration := by
  refine filter_fresh (by rw [← List.map_append, List.take_append_drop]) ?_ ?_
  · intro item member
    obtain ⟨entry, taken, rfl⟩ := List.mem_map.mp member
    have known : entry.row.stored ∈ before.ledger.map LedgerRow.stored := by
      rw [held]
      exact List.mem_map_of_mem (List.mem_map_of_mem taken)
    simp [stored_entry (digests entry (List.mem_of_mem_take taken)), known]
  · intro item member
    obtain ⟨entry, dropped, rfl⟩ := List.mem_map.mp member
    simp only [List.not_mem_nil, not_false_eq_true, and_true, decide_eq_true_eq]
    rw [stored_entry (digests entry (List.mem_of_mem_drop dropped)), held]
    intro known
    obtain ⟨row, present, same⟩ := List.mem_map.mp known
    -- The recorded rows are those of the first entries, all of lower version.
    rw [← List.take_append_drop count entries, List.map_append] at ordered
    have less := (List.pairwise_append.mp ordered).2.2 row present entry.row
      (List.mem_map_of_mem dropped)
    rw [LedgerRow.stored_injective same] at less
    exact less.false

private theorem unapplied_adopted {before : Schema} {entries : List Entry} {legacy : LegacyHistory}
    (ordered : Ascending (entries.map Entry.row)) (fresh : before.ledger = []) :
    unapplied sha256 before (entries.map Entry.migration)
        ((entries.filter legacy.covers).map Entry.migration) =
      (entries.drop (entries.filter legacy.covers).length).map Entry.migration := by
  have pairs : entries.Pairwise fun entry other => entry.row.version < other.row.version :=
    (List.pairwise_map (f := Entry.row)).mp ordered
  have parts := filter_append_filter (covers_closed legacy) pairs
  have rest : entries.drop (entries.filter legacy.covers).length =
      entries.filter (fun entry => !legacy.covers entry) := by
    conv_lhs => rw [← parts, List.filter_append]
    simp [List.filter_filter]
  rw [rest]
  refine filter_fresh (by rw [← List.map_append, parts]) ?_ ?_
  · intro item member
    simp only [decide_eq_false_iff_not, not_and, not_not]
    exact fun _ => member
  · intro item member
    obtain ⟨entry, uncovered, rfl⟩ := List.mem_map.mp member
    simp only [fresh, List.map_nil, List.not_mem_nil, not_false_eq_true, true_and,
      decide_eq_true_eq]
    intro adopted
    obtain ⟨other, covered, same⟩ := List.mem_map.mp adopted
    have version : other.version = entry.version :=
      JsNumber.ofNat_inj (congrArg Migration.version same)
    have covers : legacy.covers entry = true := by
      rw [LegacyHistory.covers, ← version]
      exact (List.mem_filter.mp covered).2
    simp [covers] at uncovered

/-- What a successful call did. -/
structure Applied (sha256 : JsString → JsString) (before after : Schema)
    (legacy : Option LegacyHistory) (migrations adopted : List Migration) : Prop where
  ledger : after.ledger.map LedgerRow.stored = migrations.map (Migration.stored sha256)
  executed : after.executed =
    before.executed ++ (unapplied sha256 before migrations adopted).map Migration.sql
  adoption : Adoption before after legacy migrations adopted
  gained : after.ledger.map LedgerRow.stored = before.ledger.map LedgerRow.stored ++
    (adopted ++ unapplied sha256 before migrations adopted).map (Migration.stored sha256)
  fresh : adopted ≠ [] → before.ledger = []

private theorem pending_spec {faults : Faults} {before after : Schema}
    {legacy : Option LegacyHistory} {entries : List Entry}
    (ordered : Ascending (entries.map Entry.row))
    (digests : ∀ entry ∈ entries, entry.checksum = sha256 entry.sql)
    (done : pending faults legacy entries before = .ok after) :
    ∃ adopted, Applied sha256 before after legacy (entries.map Entry.migration) adopted := by
  obtain ⟨_, _, done⟩ := bind_ok done
  obtain ⟨_, _, done⟩ := bind_ok done
  obtain ⟨_, _, done⟩ := bind_ok done
  obtain ⟨_, _, done⟩ := bind_ok done
  obtain ⟨_, _, done⟩ := bind_ok done
  obtain ⟨_, _, done⟩ := bind_ok done
  obtain ⟨⟨middle, rows⟩, read, done⟩ := bind_ok done
  obtain ⟨fits, done⟩ := refuse_ok.mp done
  have known := apply_known (Nat.not_lt.mp fits) done
  obtain ⟨adopted, held, kept, adoption, which⟩ := recorded_spec ordered read
  have created : before.create.ledger = before.ledger := by simpa using before.create_grows.ledger
  have ran : before.create.executed = before.executed := by simpa using before.create_grows.executed
  have whole : rows ++ (entries.drop rows.length).map Entry.row = entries.map Entry.row := by
    conv_lhs => rw [known]
    rw [List.length_map, List.length_take, Nat.min_eq_left (Nat.not_lt.mp fits), ← List.map_append,
      List.take_append_drop]
  have grown := apply_grows (by rw [held, whole]; exact ordered) done
  have fresh : unapplied sha256 before (entries.map Entry.migration) (adopted.map Entry.migration) =
      (entries.drop rows.length).map Entry.migration := by
    rcases which with ⟨rfl, same⟩ | ⟨empty, named, history, rfl⟩
    · exact unapplied_known ordered digests ((created.symm.trans same.symm).trans known)
    · rw [unapplied_adopted ordered (created ▸ empty), named, List.length_map]
  have ledger : after.ledger = rows ++ (entries.drop rows.length).map Entry.row := by
    rw [grown.ledger, held]
  refine ⟨adopted.map Entry.migration, ?_, ?_, ?_, ?_, ?_⟩
  · rw [ledger, whole, stored_entries digests]
  · rw [fresh, grown.executed, kept, ran, List.map_map]
    rfl
  · exact (adoption.frame grown.others).of_create
  · rw [fresh, ledger, List.map_append, List.map_append,
      stored_entries fun entry member => digests entry (List.mem_of_mem_drop member),
      ← List.append_assoc]
    congr 1
    rcases which with ⟨rfl, same⟩ | ⟨empty, named, history, rfl⟩
    · simp [same, created]
    · rw [← created, empty, named,
        stored_entries fun entry member => digests entry (List.mem_of_mem_filter member)]
      rfl
  · intro some
    rcases which with ⟨rfl, _⟩ | ⟨empty, _⟩
    · exact absurd rfl some
    · exact created ▸ empty

theorem transaction_cases (faults : Faults) (schema : Schema)
    (body : Schema → Except Failure Schema) :
    (∃ error, transaction faults schema body = (.error error, schema)) ∨
      ∃ after, body schema = .ok after ∧ transaction faults schema body = (.ok (), after) := by
  simp only [transaction]
  split
  · rename_i after committed
    obtain ⟨_, _, finished⟩ := bind_ok committed
    obtain ⟨written, done, finished⟩ := bind_ok finished
    obtain ⟨_, _, finished⟩ := bind_ok finished
    cases finished
    exact .inr ⟨_, done, rfl⟩
  · exact .inl ⟨_, rfl⟩

variable (sha256) in
/-- A call reports an error and changes nothing, or applies the list it was given. -/
theorem migrate_cases (faults : Faults) (before : Schema) (migrations : List Migration)
    (budgetMs : JsNumber) (legacy : Option LegacyHistory) :
    (∃ error, migrate sha256 faults before migrations budgetMs legacy = (.error error, before)) ∨
      ∃ after adopted, Applied sha256 before after legacy migrations adopted ∧
        migrate sha256 faults before migrations budgetMs legacy = (.ok (), after) := by
  unfold migrate
  split
  · exact .inl ⟨_, rfl⟩
  · split
    · exact .inl ⟨_, rfl⟩
    · split
      · exact .inl ⟨_, rfl⟩
      · rename_i entries checked
        obtain ⟨same, digests, ordered⟩ := check_spec checked
        rcases transaction_cases faults before (pending faults legacy entries) with
          failed | ⟨after, done, committed⟩
        · exact .inl failed
        · obtain ⟨adopted, applied⟩ :=
            pending_spec ordered (fun entry member => (digests entry member).2) done
          exact .inr ⟨after, adopted, same ▸ applied, committed⟩

/-- One call of `migrate`, by whatever release runs it. -/
structure Call where
  faults : Faults
  migrations : List Migration
  budgetMs : JsNumber
  legacy : Option LegacyHistory

variable (sha256)

def Call.step (schema : Schema) (call : Call) : Schema :=
  (migrate sha256 call.faults schema call.migrations call.budgetMs call.legacy).2

/-- Migrations that a run recorded: those it adopted, then those it executed. -/
structure Gains (before after : Schema) (adopted ran : List Migration) : Prop where
  ledger : after.ledger.map LedgerRow.stored =
    before.ledger.map LedgerRow.stored ++ (adopted ++ ran).map (Migration.stored sha256)
  executed : after.executed = before.executed ++ ran.map Migration.sql
  fresh : adopted ≠ [] → before.ledger = []

variable {sha256}

variable (sha256) in
theorem Call.step_gains (schema : Schema) (call : Call) :
    ∃ adopted ran, Gains sha256 schema (call.step sha256 schema) adopted ran := by
  unfold Call.step
  rcases migrate_cases sha256 call.faults schema call.migrations call.budgetMs
      call.legacy with ⟨error, failed⟩ | ⟨after, adopted, applied, done⟩
  · rw [failed]
    exact ⟨[], [], by simp, by simp, fun some => absurd rfl some⟩
  · rw [done]
    exact ⟨adopted, _, applied.gained, applied.executed, applied.fresh⟩

theorem Gains.trans {first second third : Schema} {adopted ran later more : List Migration}
    (left : Gains sha256 first second adopted ran) (right : Gains sha256 second third later more) :
    ∃ adopted ran, Gains sha256 first third adopted ran := by
  by_cases none : later = []
  · refine ⟨adopted, ran ++ more, ?_, ?_, left.fresh⟩
    · rw [right.ledger, left.ledger, none]
      simp
    · rw [right.executed, left.executed]
      simp
  · -- An adoption starts from an empty ledger, so nothing was recorded before it.
    have empty := right.fresh none
    have start := left.ledger
    rw [empty, List.map_nil] at start
    obtain ⟨fresh, nothing⟩ := List.append_eq_nil_iff.mp start.symm
    obtain ⟨_, unrun⟩ := List.append_eq_nil_iff.mp (List.map_eq_nil_iff.mp nothing)
    refine ⟨later, more, ?_, ?_, fun _ => List.map_eq_nil_iff.mp fresh⟩
    · rw [right.ledger, empty, List.map_nil, fresh]
    · rw [right.executed, left.executed, unrun]
      simp

variable (sha256) in
theorem run_gains (schema : Schema) (calls : List Call) :
    ∃ adopted ran, Gains sha256 schema (run (Call.step sha256) schema calls) adopted ran := by
  induction calls generalizing schema with
  | nil => exact ⟨[], [], by simp, by simp, fun some => absurd rfl some⟩
  | cons call rest ih =>
    obtain ⟨_, _, first⟩ := call.step_gains sha256 schema
    obtain ⟨_, _, second⟩ := ih (call.step sha256 schema)
    exact first.trans second

private theorem versions_nodup (schema : Schema) :
    ((schema.ledger.map LedgerRow.stored).map Prod.fst).Nodup := by
  rw [List.map_map]
  refine List.pairwise_map.mpr (schema.ledger_ascending.imp ?_)
  intro earlier later less same
  have equal : earlier.version = later.version := by
    exact_mod_cast JsNumber.finite.inj same
  omega

/-- Over a run no version is executed twice, and none that was recorded before it. -/
theorem Gains.distinct {before after : Schema} {adopted ran : List Migration}
    (gains : Gains sha256 before after adopted ran) :
    (ran.map Migration.version).Nodup ∧ ∀ migration ∈ ran, ∀ row ∈ before.ledger,
      migration.version ≠ .ofInt row.version := by
  have distinct := versions_nodup after
  rw [gains.ledger, List.map_append, List.nodup_append] at distinct
  obtain ⟨_, gained, apart⟩ := distinct
  constructor
  · refine List.Sublist.nodup ?_ gained
    rw [List.map_map]
    exact (List.sublist_append_right adopted ran).map Migration.version
  · intro migration member row recorded same
    refine apart (.ofInt row.version) ?_ migration.version ?_ same.symm
    · exact List.mem_map.mpr ⟨row.stored, List.mem_map_of_mem recorded, rfl⟩
    · exact List.mem_map.mpr ⟨migration.stored sha256,
        List.mem_map_of_mem (List.mem_append_right adopted member), rfl⟩

/-- The same list applied again finds every entry recorded. -/
theorem Applied.again {before after final : Schema} {legacy other : Option LegacyHistory}
    {migrations adopted later : List Migration}
    (first : Applied sha256 before after legacy migrations adopted)
    (second : Applied sha256 after final other migrations later) :
    final.ledger = after.ledger ∧ final.executed = after.executed := by
  have same : final.ledger.map LedgerRow.stored = after.ledger.map LedgerRow.stored :=
    second.ledger.trans first.ledger.symm
  have none : unapplied sha256 after migrations later = [] := by
    refine List.filter_eq_nil_iff.mpr ?_
    intro migration member
    have recorded := List.mem_map_of_mem (f := Migration.stored sha256) member
    rw [← first.ledger] at recorded
    simp [recorded]
  refine ⟨LedgerRow.stored_injective.list_map same, ?_⟩
  rw [second.executed, none]
  simp

/-- `migrate` leaves exactly its list in the ledger and runs only what was neither
recorded nor adopted, or changes nothing; a second call with the list runs
nothing, and over any calls no migration is run twice. -/
theorem migrations_run_once (sha256 : JsString → JsString) (faults : Faults) (before : Schema)
    (migrations : List Migration) (budgetMs : JsNumber) (legacy : Option LegacyHistory) :
    ((migrate sha256 faults before migrations budgetMs legacy).1 = .ok () →
      let after := (migrate sha256 faults before migrations budgetMs legacy).2
      after.ledger.map LedgerRow.stored = migrations.map (Migration.stored sha256) ∧
      (∃ adopted, Adoption before after legacy migrations adopted ∧
        after.executed =
          before.executed ++ (unapplied sha256 before migrations adopted).map Migration.sql) ∧
      ∀ again : Call, again.migrations = migrations →
        (again.step sha256 after).ledger = after.ledger ∧
          (again.step sha256 after).executed = after.executed) ∧
    (∀ error, (migrate sha256 faults before migrations budgetMs legacy).1 = .error error →
      (migrate sha256 faults before migrations budgetMs legacy).2 = before) ∧
    ∀ calls, ∃ adopted ran, Gains sha256 before (run (Call.step sha256) before calls) adopted ran ∧
      (ran.map Migration.version).Nodup ∧ ∀ migration ∈ ran, ∀ row ∈ before.ledger,
        migration.version ≠ .ofInt row.version := by
  refine ⟨?_, ?_, ?_⟩
  · rcases migrate_cases sha256 faults before migrations budgetMs legacy with
      ⟨error, failed⟩ | ⟨after, adopted, applied, done⟩
    · rw [failed]
      exact fun succeeded => nomatch succeeded
    · rw [done]
      refine fun _ => ⟨applied.ledger, ⟨adopted, applied.adoption, applied.executed⟩, ?_⟩
      rintro again rfl
      unfold Call.step
      rcases migrate_cases sha256 again.faults after again.migrations again.budgetMs
          again.legacy with ⟨error, refused⟩ | ⟨final, later, repeated, finished⟩
      · rw [refused]
        exact ⟨rfl, rfl⟩
      · rw [finished]
        exact applied.again repeated
  · intro error failed
    rcases migrate_cases sha256 faults before migrations budgetMs legacy with
      ⟨_, unchanged⟩ | ⟨after, _, _, done⟩
    · rw [unchanged]
    · rw [done] at failed
      cases failed
  · intro calls
    obtain ⟨adopted, ran, gains⟩ := run_gains sha256 before calls
    exact ⟨adopted, ran, gains, gains.distinct⟩

end Call

end N2FNest.Database
