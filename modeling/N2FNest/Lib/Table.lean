import Mathlib.Data.List.Nodup

/-! Finite tables under a unique key, kept in insertion order: a relational
table under its primary key, or an insertion-ordered map. -/

namespace N2FNest.Lib

universe u v

/-- Rows whose keys never repeat, so a lookup has one answer. -/
structure Table {Row : Type u} {Key : Type v} (key : Row → Key) where
  rows : List Row
  unique : (rows.map key).Nodup

namespace Table

variable {Row : Type u} {Key : Type v} {key : Row → Key}

def empty : Table key := ⟨[], by simp⟩

/-- Rewrite every row; a key-preserving change keeps the table well formed. -/
def modify (table : Table key) (change : Row → Row) (keeps : ∀ row, key (change row) = key row) :
    Table key where
  rows := table.rows.map change
  unique := by
    have same : key ∘ change = key := funext keeps
    rw [List.map_map, same]
    exact table.unique

def keep (table : Table key) (wanted : Row → Bool) : Table key where
  rows := table.rows.filter wanted
  unique := (List.filter_sublist.map key).nodup table.unique

/-- The first row of an ordered selection, as `ORDER BY … LIMIT 1` returns it. -/
def least (before : Row → Row → Bool) : List Row → Option Row
  | [] => none
  | row :: rest => match least before rest with
    | none => some row
    | some other => if before other row then some other else some row

theorem least_mem {before : Row → Row → Bool} {rows : List Row} {row : Row}
    (found : least before rows = some row) : row ∈ rows := by
  induction rows generalizing row with
  | nil => simp [least] at found
  | cons head rest ih =>
    cases tail : least before rest with
    | none =>
      have same : head = row := by simpa [least, tail] using found
      simp [same]
    | some other =>
      have present := ih tail
      simp only [least, tail] at found
      split at found
      · cases found
        exact List.mem_cons_of_mem head present
      · cases found
        exact List.mem_cons_self

theorem least_eq_none {before : Row → Row → Bool} {rows : List Row}
    (missing : least before rows = none) : rows = [] := by
  cases rows with
  | nil => rfl
  | cons head rest =>
    exfalso
    cases tail : least before rest with
    | none => simp [least, tail] at missing
    | some other =>
      simp only [least, tail] at missing
      split at missing <;> cases missing

variable [DecidableEq Key]

def get (table : Table key) (wanted : Key) : Option Row :=
  table.rows.find? (fun row => key row = wanted)

/-- Replace the row with the same key in place, or append a new one. -/
def place (key : Row → Key) (row : Row) : List Row → List Row
  | [] => [row]
  | head :: rest => if key head = key row then row :: rest else head :: place key row rest

private theorem mem_map_place {row : Row} {rows : List Row} {wanted : Key} :
    wanted ∈ (place key row rows).map key ↔ wanted = key row ∨ wanted ∈ rows.map key := by
  induction rows with
  | nil => simp [place]
  | cons head rest ih =>
    by_cases same : key head = key row
    · simp [place, same]
    · simp only [place, if_neg same, List.map_cons, List.mem_cons, ih]
      tauto

private theorem nodup_place {row : Row} {rows : List Row} (unique : (rows.map key).Nodup) :
    ((place key row rows).map key).Nodup := by
  induction rows with
  | nil => simp [place]
  | cons head rest ih =>
    rw [List.map_cons, List.nodup_cons] at unique
    by_cases same : key head = key row
    · rw [place, if_pos same, List.map_cons, List.nodup_cons, ← same]
      exact unique
    · rw [place, if_neg same, List.map_cons, List.nodup_cons, mem_map_place]
      exact ⟨fun member => member.elim same unique.1, ih unique.2⟩

def set (table : Table key) (row : Row) : Table key :=
  ⟨place key row table.rows, nodup_place table.unique⟩

def delete (table : Table key) (wanted : Key) : Table key :=
  table.keep (fun row => key row ≠ wanted)

@[simp] theorem get_empty (wanted : Key) : (empty : Table key).get wanted = none := rfl

theorem key_of_get {table : Table key} {wanted : Key} {row : Row}
    (found : table.get wanted = some row) : key row = wanted := by
  simpa using List.find?_some found

theorem mem_of_get {table : Table key} {wanted : Key} {row : Row}
    (found : table.get wanted = some row) : row ∈ table.rows :=
  List.mem_of_find?_eq_some found

omit [DecidableEq Key] in
theorem eq_of_key {table : Table key} {row other : Row} (member : row ∈ table.rows)
    (present : other ∈ table.rows) (same : key row = key other) : row = other :=
  List.inj_on_of_nodup_map table.unique member present same

theorem get_of_mem {table : Table key} {row : Row} (member : row ∈ table.rows) :
    table.get (key row) = some row := by
  cases found : table.get (key row) with
  | none => simpa using List.find?_eq_none.mp found row member
  | some other => rw [eq_of_key (mem_of_get found) member (key_of_get found)]

theorem mem_iff_get {table : Table key} {row : Row} :
    row ∈ table.rows ↔ table.get (key row) = some row :=
  ⟨get_of_mem, mem_of_get⟩

private theorem find_place (row : Row) (rows : List Row) (wanted : Key) :
    (place key row rows).find? (fun other => key other = wanted) =
      if key row = wanted then some row else rows.find? (fun other => key other = wanted) := by
  induction rows with
  | nil => by_cases same : key row = wanted <;> simp [place, same]
  | cons head rest ih =>
    by_cases replaced : key head = key row
    · by_cases same : key row = wanted <;> simp [place, replaced, same]
    · by_cases same : key row = wanted
      · have other : key head ≠ wanted := fun h => replaced (h.trans same.symm)
        simpa [place, replaced, same, other] using ih
      · by_cases here : key head = wanted
        · rw [place, if_neg replaced, if_neg same]
          simp [here]
        · simpa [place, replaced, same, here] using ih

theorem get_set (table : Table key) (row : Row) (wanted : Key) :
    (table.set row).get wanted = if key row = wanted then some row else table.get wanted :=
  find_place row table.rows wanted

@[simp] theorem get_set_same (table : Table key) (row : Row) :
    (table.set row).get (key row) = some row := by
  simp [get_set]

theorem get_set_other (table : Table key) {row : Row} {wanted : Key} (other : key row ≠ wanted) :
    (table.set row).get wanted = table.get wanted := by
  simp [get_set, other]

theorem get_set_cases {table : Table key} {row found : Row} {wanted : Key}
    (present : (table.set row).get wanted = some found) :
    found = row ∨ table.get wanted = some found := by
  rw [get_set] at present
  split at present
  · exact .inl (Option.some.inj present).symm
  · exact .inr present

theorem mem_set {table : Table key} {row other : Row} : other ∈ (table.set row).rows ↔
    other = row ∨ other ∈ table.rows ∧ key other ≠ key row := by
  rw [mem_iff_get, get_set]
  by_cases same : key row = key other
  · simp [same, eq_comm]
  · rw [if_neg same, ← mem_iff_get]
    constructor
    · exact fun member => .inr ⟨member, Ne.symm same⟩
    · rintro (rfl | ⟨member, _⟩)
      · exact absurd rfl same
      · exact member

private theorem place_present {row : Row} {rows : List Row}
    (found : rows.find? (fun other => key other = key row) = some row) : place key row rows = rows := by
  induction rows with
  | nil => cases found
  | cons head rest ih =>
    by_cases same : key head = key row
    · have first : head = row := by simpa [same] using found
      rw [place, if_pos same, first]
    · rw [place, if_neg same, ih (by simpa [same] using found)]

/-- Writing a row back as it is changes nothing. -/
theorem set_present {table : Table key} {row : Row} (found : table.get (key row) = some row) :
    table.set row = table := by
  obtain ⟨rows, unique⟩ := table
  simp only [set, place_present found]

private theorem place_new {row : Row} {rows : List Row} (missing : ∀ other ∈ rows, key other ≠ key row) :
    place key row rows = rows ++ [row] := by
  induction rows with
  | nil => rfl
  | cons head rest ih =>
    have later := ih fun other member => missing other (List.mem_cons_of_mem head member)
    rw [place, if_neg (missing head List.mem_cons_self), later]
    rfl

/-- A row under a new key goes to the end. -/
theorem rows_set_new {table : Table key} {row : Row} (missing : table.get (key row) = none) :
    (table.set row).rows = table.rows ++ [row] := by
  apply place_new
  intro other member
  simpa using List.find?_eq_none.mp missing other member

/-- A search for something only one key can have looks at that key's row. -/
theorem find_of_key {table : Table key} {wanted : Row → Bool} {sought : Key}
    (named : ∀ row, wanted row = true → row ∈ table.rows → key row = sought) :
    table.rows.find? wanted = (table.get sought).filter wanted := by
  cases found : table.rows.find? wanted with
  | some row =>
    have chosen := List.find?_some found
    have member := List.mem_of_find?_eq_some found
    have here := named row chosen member
    rw [← here, get_of_mem member]
    simp [Option.filter, chosen]
  | none =>
    cases present : table.get sought with
    | none => rfl
    | some row =>
      have refused := List.find?_eq_none.mp found row (mem_of_get present)
      simp [Option.filter, refused]

theorem get_modify (table : Table key) (change : Row → Row)
    (keeps : ∀ row, key (change row) = key row) (wanted : Key) :
    (table.modify change keeps).get wanted = (table.get wanted).map change := by
  simp only [get, modify, List.find?_map]
  congr 2
  funext row
  simp [keeps row]

theorem get_keep (table : Table key) (wanted : Row → Bool) (sought : Key) :
    (table.keep wanted).get sought = (table.get sought).filter wanted := by
  cases found : table.get sought with
  | none =>
    have missing : ∀ row ∈ table.rows, ¬ key row = sought := by
      simpa [get] using found
    simp only [get, keep, Option.filter_none, List.find?_eq_none, List.mem_filter]
    intro row member
    simpa using missing row member.1
  | some row =>
    have named := key_of_get found
    by_cases kept : wanted row = true
    · have present : row ∈ (table.keep wanted).rows :=
        List.mem_filter.mpr ⟨mem_of_get found, kept⟩
      rw [← named, get_of_mem present]
      simp [Option.filter, kept]
    · have dropped : (some row).filter wanted = none := by simp [Option.filter, kept]
      rw [dropped]
      apply List.find?_eq_none.mpr
      intro other member same
      obtain ⟨present, chosen⟩ := List.mem_filter.mp member
      have identical : other = row :=
        eq_of_key present (mem_of_get found) ((by simpa using same : key other = sought).trans named.symm)
      exact kept (identical ▸ chosen)

theorem get_delete (table : Table key) (gone wanted : Key) :
    (table.delete gone).get wanted = if wanted = gone then none else table.get wanted := by
  rw [delete, get_keep]
  cases found : table.get wanted with
  | none => simp
  | some row =>
    have named := key_of_get found
    by_cases same : wanted = gone <;> simp [Option.filter, named, same]

private theorem place_place {row other : Row} {rows : List Row} (same : key row = key other) :
    place key other (place key row rows) = place key other rows := by
  induction rows with
  | nil => simp [place, same]
  | cons head rest ih =>
    by_cases here : key head = key row
    · simp [place, here, same]
    · simp [place, here, same ▸ here, ih]

/-- Storing twice under one key keeps the second row. -/
theorem set_set {table : Table key} {row other : Row} (same : key row = key other) :
    (table.set row).set other = table.set other := by
  unfold set
  congr 1
  exact place_place same

/-- Two tables whose rows correspond still do so after corresponding rows are stored. -/
theorem rows_set_map {Other : Type v} {otherKey : Other → Key} {table : Table key}
    {other : Table otherKey} {read : Other → Row} (named : ∀ row, key (read row) = otherKey row)
    (same : table.rows = other.rows.map read) (row : Other) :
    (table.set (read row)).rows = (other.set row).rows.map read := by
  have placed : ∀ rows : List Other,
      place key (read row) (rows.map read) = (place otherKey row rows).map read := by
    intro rows
    induction rows with
    | nil => rfl
    | cons head rest ih =>
      by_cases here : otherKey head = otherKey row <;> simp [place, named, here, ih]
  show place key (read row) table.rows = (place otherKey row other.rows).map read
  rw [same, placed]

private theorem filter_place {row : Row} {rows : List Row} {wanted : Row → Bool}
    (chosen : wanted row = true) (held : ∀ other ∈ rows, key other = key row → wanted other = true) :
    (place key row rows).filter wanted = place key row (rows.filter wanted) := by
  induction rows with
  | nil => simp [place, chosen]
  | cons head rest ih =>
    have later := ih fun other member => held other (List.mem_cons_of_mem head member)
    by_cases same : key head = key row
    · simp [place, same, chosen, held head List.mem_cons_self same]
    · by_cases kept : wanted head = true <;> simp [place, same, kept, later]

/-- A selection holds a stored row where the row it holds under that key is selected. -/
theorem keep_set {table : Table key} {row : Row} {wanted : Row → Bool} (chosen : wanted row = true)
    (held : ∀ other, table.get (key row) = some other → wanted other = true) :
    (table.set row).keep wanted = (table.keep wanted).set row := by
  unfold set keep
  congr 1
  apply filter_place chosen
  intro other member same
  apply held other
  rw [← same, get_of_mem member]

private theorem filter_place_other {row : Row} {rows : List Row} {wanted : Row → Bool}
    (dropped : wanted row = false) (held : ∀ other ∈ rows, key other = key row → wanted other = false) :
    (place key row rows).filter wanted = rows.filter wanted := by
  induction rows with
  | nil => simp [place, dropped]
  | cons head rest ih =>
    have later := ih fun other member => held other (List.mem_cons_of_mem head member)
    by_cases same : key head = key row
    · simp [place, same, dropped, held head List.mem_cons_self same]
    · by_cases kept : wanted head = true <;> simp [place, same, kept, later]

/-- A selection is as it was after a row outside it is stored. -/
theorem keep_set_other {table : Table key} {row : Row} {wanted : Row → Bool}
    (dropped : wanted row = false)
    (held : ∀ other, table.get (key row) = some other → wanted other = false) :
    (table.set row).keep wanted = table.keep wanted := by
  unfold set keep
  congr 1
  apply filter_place_other dropped
  intro other member same
  apply held other
  rw [← same, get_of_mem member]

/-- Deleting what was just added under a new key gives the table back. -/
theorem delete_set_new {table : Table key} {row : Row} (missing : table.get (key row) = none) :
    (table.set row).delete (key row) = table := by
  have others : ∀ other ∈ table.rows, decide (key other ≠ key row) = true := by
    intro other member
    rw [decide_eq_true_eq]
    intro same
    rw [← same, get_of_mem member] at missing
    cases missing
  have rows := rows_set_new missing
  obtain ⟨held, unique⟩ := table
  unfold delete keep
  congr 1
  rw [rows, List.filter_append, List.filter_eq_self.mpr others]
  simp

end Table

end N2FNest.Lib
