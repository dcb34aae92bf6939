import N2FNest.Pagination.Page
import N2FNest.Shared.Uuid

/-! Pages as PostgreSQL selects them, and that the adapters in memory return the same. -/

namespace N2FNest.Pagination

open Lib Shared

/-- The date of a time value. What a row holds is never an invalid date. -/
def momentOf (time : Int) : Moment :=
  if valid : -8640000000000000 ≤ time ∧ time ≤ 8640000000000000 then ⟨time, valid⟩
  else ⟨0, by decide⟩

/-- The key of a row created at `time`. -/
def createdKey (time : Int) (id : ID) : After := ⟨momentOf time, id.text⟩

/-- The first moment of `timestamptz`, in the year 4714 BC. Its last is beyond every date. -/
def EARLIEST_TIMESTAMP : Int := -210866803200000

/-- `($2::timestamptz,$3::uuid)`. A position that is neither fails the query, whatever rows
there are. -/
def castAfter (start : After) : Except Failure After :=
  if start.moment.time < EARLIEST_TIMESTAMP then .error databaseFailed
  else match Uuid.read start.id with
    | none => .error databaseFailed
    | some id => .ok { start with id := id }

def castPage (page : Request) : Except Failure Request :=
  match page.after with
  | none => .ok page
  | some start => (castAfter start).map fun start => { page with after := some start }

/-- PostgreSQL reads the position as it is written. -/
def Request.Canonical (page : Request) : Prop := castPage page = .ok page

/-- `$2::timestamptz IS NULL OR (created_at,id) > ($2,$3)`. -/
def selects (start : Option After) (key : After) : Bool :=
  match start with
  | none => true
  | some start => start.rank < key.rank

/-- `WHERE … ORDER BY created_at,id LIMIT limit + 1`; the text of an identifier orders
like its bytes. -/
def selectedRows {Row : Type} (rows : List Row) (key : Row → After) (page : Request) : List Row :=
  (rows.filter fun row => selects page.after (key row))
    |>.mergeSort (fun left right => (key left).rank ≤ (key right).rank)
    |>.take (page.limit + 1)

def selectPage {Row : Type} (rows : List Row) (key : Row → After) (page : Request) :
    Except Failure (List Row) :=
  (castPage page).map (selectedRows rows key)

/-- The position of a stored row, from which a next page starts, is canonical. -/
theorem canonical_createdKey {time : Int} (least : EARLIEST_TIMESTAMP ≤ time)
    (most : time ≤ 8640000000000000) (id : ID) (limit : Nat) :
    Request.Canonical ⟨limit, some (createdKey time id)⟩ := by
  have valid : -8640000000000000 ≤ time ∧ time ≤ 8640000000000000 := by
    unfold EARLIEST_TIMESTAMP at least
    omega
  have moment : (momentOf time).time = time := by
    unfold momentOf
    rw [dif_pos valid]
  simp only [Request.Canonical, castPage, castAfter, createdKey, moment, if_neg (not_lt.mpr least),
    Uuid.read_text]
  rfl

theorem follows_eq_selects (start : Option After) (key : After) :
    follows start key = selects start key := by
  cases start with
  | none => rfl
  | some start => exact compareKeyset_isPositive key start

section Select

variable {Row : Type} {key : Row → After} {rows : List Row}

private theorem ordered_mergeSort (key : Row → After) (rows : List Row) :
    (rows.mergeSort fun left right => (key left).rank ≤ (key right).rank).Pairwise
      fun left right => (key left).rank ≤ (key right).rank := by
  have transitive : ∀ left middle right : Row, decide ((key left).rank ≤ (key middle).rank) = true →
      decide ((key middle).rank ≤ (key right).rank) = true →
      decide ((key left).rank ≤ (key right).rank) = true := by
    simp only [decide_eq_true_eq]
    intro left middle right first second
    exact first.trans second
  have total : ∀ left right : Row, (decide ((key left).rank ≤ (key right).rank) ||
      decide ((key right).rank ≤ (key left).rank)) = true := by
    simp only [Bool.or_eq_true, decide_eq_true_eq]
    intro left right
    exact le_total _ _
  exact (List.pairwise_mergeSort transitive total rows).imp (by simp)

private theorem compare_order : (fun left right : Row =>
    !(compareKeyset (key left) (key right)).isPositive) =
      fun left right => decide ((key left).rank ≤ (key right).rank) := by
  funext left right
  rw [compareKeyset_isPositive, ← decide_not]
  exact decide_eq_decide.mpr not_lt

/-- Where no two rows share a key, selecting before sorting or after it, and from rows
held in any order, gives the same page. -/
theorem selectedRows_eq_keysetPage {held : List Row} (same : held.Perm rows)
    (distinct : (rows.map key).Nodup) (page : Request) :
    selectedRows rows key page = keysetPage held key page := by
  have follows : (fun row => follows page.after (key row)) =
      fun row => selects page.after (key row) := funext fun row => follows_eq_selects _ _
  unfold selectedRows keysetPage
  rw [compare_order, follows]
  congr 1
  have first := ordered_mergeSort key
    (rows.filter fun row => selects page.after (key row))
  have second := (ordered_mergeSort key held).filter
    fun row => selects page.after (key row)
  refine List.Perm.eq_of_pairwise ?_ first second ?_
  · intro left right leftMember rightMember le ge
    have member := (List.mem_filter.mp ((List.mergeSort_perm _ _).mem_iff.mp leftMember)).1
    have present := (List.mergeSort_perm _ _).mem_iff.mp (List.mem_filter.mp rightMember).1
    exact List.inj_on_of_nodup_map distinct member (same.mem_iff.mp present)
      (rank_inj (le_antisymm le ge))
  · exact (List.mergeSort_perm _ _).trans
      ((same.symm.filter _).trans ((List.mergeSort_perm _ _).symm.filter _))

/-- Rows can be read as what they stand for before the page is selected or after it. -/
theorem selectedRows_map {Held : Type} (read : Held → Row) (held : List Held) (page : Request) :
    (selectedRows held (fun row => key (read row)) page).map read =
      selectedRows (held.map read) key page := by
  unfold selectedRows
  rw [List.map_take, List.filter_map]
  congr 1
  apply List.map_mergeSort
  intro left _ right _
  rfl

/-- The page of rows that all restore is the page in memory of what they restore to, from
any position that PostgreSQL reads as it is written. -/
theorem selectPage_restored {Held : Type} {restore : Held → Except Failure Row} {read : Held → Row}
    (restores : ∀ row, restore row = .ok (read row)) {held : List Held}
    (distinct : ((held.map read).map key).Nodup) {page : Request} (canonical : page.Canonical) :
    (selectPage held (fun row => key (read row)) page >>= (·.mapM restore)) =
      .ok (keysetPage (held.map read) key page) := by
  have all : ∀ rows : List Held, rows.mapM restore = .ok (rows.map read) := by
    intro rows
    induction rows with
    | nil => rfl
    | cons row rest ih =>
      rw [List.mapM_cons, restores, ih]
      rfl
  have reads : castPage page = .ok page := canonical
  rw [selectPage, reads]
  show (selectedRows held _ page).mapM restore = _
  rw [all, selectedRows_map, selectedRows_eq_keysetPage (List.Perm.refl _) distinct]

end Select

/-- Rows in memory under their identifiers have distinct keys. -/
theorem createdKey_nodup {Row : Type} {rows : List Row} {createdAt : Row → Int} {id : Row → ID}
    (unique : (rows.map id).Nodup) :
    (rows.map fun row => createdKey (createdAt row) (id row)).Nodup := by
  refine List.Nodup.of_map After.id ?_
  have same : After.id ∘ (fun row => createdKey (createdAt row) (id row)) =
      ID.text ∘ id := rfl
  rw [List.map_map, same, ← List.map_map]
  exact unique.map fun _ _ texts => ID.eq_of_text texts

end N2FNest.Pagination
