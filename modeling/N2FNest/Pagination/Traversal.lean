import N2FNest.Pagination.Page

/-! Following the cursors of a list from its first page to its last. -/

namespace N2FNest.Pagination

open Lib Shared

/-- One page request against `rows`, as the list queries make it. -/
def visit {Row : Type} (host : JsString → Option Moment) (moment : Row → Moment) (id : Row → ID)
    (rows : List Row) (scope : JsString) (limit cursor : Option JsString) :
    Except Failure (Page Row) := do
  let page ← request host scope limit cursor
  let found := keysetPage rows (fun row => ⟨moment row, (id row).text⟩) page
  window found (.ofNat page.limit) scope fun row => position (moment row) (id row).text

/-- At most `steps` requests, each after the first with the cursor of the page
before it, until a page has no more; `none` when the steps ran out first. -/
def traverse {Row : Type} (visit : Option JsString → Except Failure (Page Row)) :
    Nat → Option JsString → Except Failure (Option (List (Page Row)))
  | 0, _ => .ok none
  | steps + 1, cursor => do
    let page ← visit cursor
    if page.hasMore then
      let rest ← traverse visit steps page.nextCursor
      return rest.map (page :: ·)
    else return some [page]

section Traversal

variable {Row : Type} (host : JsString → Option Moment) (moment : Row → Moment) (id : Row → ID)

/-- The position of a row. -/
def rowKey (row : Row) : After := ⟨moment row, (id row).text⟩

/-- The order of the pages. -/
def Earlier (left right : Row) : Prop := (rowKey moment id left).rank < (rowKey moment id right).rank

instance : Std.Asymm (Earlier moment id) := ⟨fun _ _ => lt_asymm⟩

/-- The test that `keysetPage` sorts by. -/
def notAfter (left right : Row) : Bool :=
  !(compareKeyset (rowKey moment id left) (rowKey moment id right)).isPositive

/-- The rows as `keysetPage` sorts them. -/
def sorted (rows : List Row) : List Row := rows.mergeSort (notAfter moment id)

variable {moment id}

private theorem notAfter_iff {left right : Row} : notAfter moment id left right = true ↔
    (rowKey moment id left).rank ≤ (rowKey moment id right).rank := by
  rw [notAfter, compareKeyset_isPositive, Bool.not_eq_true', decide_eq_false_iff_not, not_lt]

private theorem sorted_weak (rows : List Row) : (sorted moment id rows).Pairwise fun left right =>
    (rowKey moment id left).rank ≤ (rowKey moment id right).rank := by
  have transitive : ∀ left middle right : Row, notAfter moment id left middle = true →
      notAfter moment id middle right = true → notAfter moment id left right = true := by
    intro left middle right first second
    exact notAfter_iff.mpr ((notAfter_iff.mp first).trans (notAfter_iff.mp second))
  have total : ∀ left right : Row,
      (notAfter moment id left right || notAfter moment id right left) = true := by
    intro left right
    rw [Bool.or_eq_true, notAfter_iff, notAfter_iff]
    exact le_total _ _
  exact (List.pairwise_mergeSort transitive total rows).imp notAfter_iff.mp

/-- Distinct keys leave one order to sort the rows in. -/
theorem sorted_pairwise {rows : List Row}
    (distinct : (rows.map fun row => (moment row, id row)).Nodup) :
    (sorted moment id rows).Pairwise (Earlier moment id) := by
  have apart : ((sorted moment id rows).map fun row => (moment row, id row)).Nodup :=
    ((List.mergeSort_perm ..).map _).nodup_iff.mpr distinct
  refine (sorted_weak rows).imp₂ ?_ (List.pairwise_map.mp apart)
  intro left right weak different
  refine lt_of_le_of_ne weak fun same => different ?_
  have keys := rank_inj same
  have moments : moment left = moment right := congrArg After.moment keys
  rw [moments, ID.eq_of_text (congrArg After.id keys)]

variable {rows : List Row} {scope : JsString} {raw : Option JsString} {limit : Nat}

/-- `cursor` stands for the rows up to and including the last of `done`. -/
inductive Marks (scope : JsString) (moment : Row → Moment) (id : Row → ID) :
    Option JsString → List Row → Prop where
  | start : Marks scope moment id none []
  | issued {front : List Row} {last : Row} {wire : JsString}
      (encoded : encode scope (position (moment last) (id last).text) = .ok wire) :
      Marks scope moment id (some wire) (front ++ [last])

/-- A marked request finds the rows behind the mark. -/
private theorem request_marked (valid : validPart (.string scope) maxScopeBytes = true)
    (accepted : size raw = .ok limit) {cursor : Option JsString} {done rest : List Row}
    (marks : Marks scope moment id cursor done)
    (ordered : (done ++ rest).Pairwise (Earlier moment id)) :
    ∃ start, request host scope raw cursor = .ok ⟨limit, start⟩ ∧
      ((done ++ rest).filter fun row => follows start (rowKey moment id row)) = rest := by
  cases marks with
  | start =>
    refine ⟨none, ?_, List.filter_eq_self.mpr fun _ _ => rfl⟩
    rw [request, accepted]
  | @issued front last wire encoded =>
    obtain ⟨_, issued, decoded⟩ :=
      decode_encode valid (position_valid (moment last) (id last))
    cases Except.ok.inj (issued.symm.trans encoded)
    refine ⟨some (rowKey moment id last), ?_, filter_after ordered ?_⟩
    · have read := decoded scope
      rw [if_pos rfl] at read
      simp only [request, accepted, read, ok_bind, after_position]
      rfl
    · intro row
      rw [follows, compareKeyset_isPositive, decide_eq_true_eq]
      rfl

/-- A page is the first part of the rows behind its mark; where it is not all of
them, its cursor marks its last row. -/
private theorem visit_marked (valid : validPart (.string scope) maxScopeBytes = true)
    (accepted : size raw = .ok limit) {cursor : Option JsString} {done rest : List Row}
    (marks : Marks scope moment id cursor done) (whole : sorted moment id rows = done ++ rest)
    (ordered : (done ++ rest).Pairwise (Earlier moment id)) :
    visit host moment id rows scope raw cursor = .ok ⟨rest, false, none⟩ ∨
      ∃ front last later wire, rest = front ++ [last] ++ later ∧
        encode scope (position (moment last) (id last).text) = .ok wire ∧
        visit host moment id rows scope raw cursor = .ok ⟨front ++ [last], true, some wire⟩ := by
  obtain ⟨least, most⟩ := size_ok accepted
  obtain ⟨start, asked, kept⟩ := request_marked host valid accepted marks ordered
  have found : keysetPage rows (rowKey moment id) ⟨limit, start⟩ = rest.take (limit + 1) := by
    rw [← kept, ← whole]
    rfl
  have visited : visit host moment id rows scope raw cursor =
      window (rest.take (limit + 1)) (.ofNat limit) scope
        fun row => position (moment row) (id row).text := by
    rw [← found, visit, asked]
    rfl
  rw [visited]
  by_cases ended : rest.length ≤ limit
  · have all : rest.take (limit + 1) = rest := List.take_of_length_le (by omega)
    rw [all]
    exact .inl (window_last least most ended)
  · have nonempty : rest.take limit ≠ [] := by
      intro none
      have short := congrArg List.length none
      rw [List.length_take, List.length_nil] at short
      omega
    obtain ⟨front, last, split⟩ : ∃ front last, rest.take limit = front ++ [last] :=
      ⟨_, _, (List.dropLast_append_getLast nonempty).symm⟩
    obtain ⟨wire, encoded, _⟩ := decode_encode valid (position_valid (moment last) (id last))
    refine .inr ⟨front, last, rest.drop limit, wire, ?_, encoded, ?_⟩
    · rw [← split, List.take_append_drop]
    · have more : limit < (rest.take (limit + 1)).length := by
        rw [List.length_take]
        omega
      have items : (rest.take (limit + 1)).take limit = front ++ [last] := by
        rw [List.take_take, Nat.min_eq_left (Nat.le_succ limit), split]
      exact window_more least most more (List.length_take_le ..) items encoded

/-- From a mark on, the pages hold the rows behind it in their order. -/
private theorem traverse_marked (valid : validPart (.string scope) maxScopeBytes = true)
    (accepted : size raw = .ok limit) (steps : Nat) :
    ∀ {cursor : Option JsString} {done rest : List Row}, rest.length < steps →
      Marks scope moment id cursor done → sorted moment id rows = done ++ rest →
      (done ++ rest).Pairwise (Earlier moment id) →
      ∃ pages : List (Page Row), pages.flatMap Page.items = rest ∧
        (∀ page ∈ pages, page.nextCursor.isSome = page.hasMore) ∧
        ∀ budget, traverse (visit host moment id rows scope raw) budget cursor =
          .ok (if pages.length ≤ budget then some pages else none) := by
  induction steps with
  | zero => exact fun short => absurd short (Nat.not_lt_zero _)
  | succ steps ih =>
    intro cursor done rest short marks whole ordered
    rcases visit_marked host valid accepted marks whole ordered with
      final | ⟨front, last, later, wire, rfl, encoded, visited⟩
    · refine ⟨[⟨rest, false, none⟩], by simp, by simp, ?_⟩
      intro budget
      cases budget with
      | zero => rfl
      | succ budget =>
        rw [traverse, final]
        simp
    · have shorter : later.length < steps := by
        simp only [List.length_append, List.length_singleton] at short
        omega
      rw [← List.append_assoc, ← List.append_assoc] at whole ordered
      obtain ⟨pages, items, cursors, followed⟩ :=
        ih shorter (.issued encoded) whole ordered
      refine ⟨⟨front ++ [last], true, some wire⟩ :: pages, ?_, ?_, ?_⟩
      · rw [List.flatMap_cons, items]
      · exact List.forall_mem_cons.mpr ⟨rfl, cursors⟩
      · intro budget
        cases budget with
        | zero => rfl
        | succ budget =>
          rw [traverse, visited]
          simp only [ok_bind, if_true, followed, List.length_cons, Nat.add_le_add_iff_right]
          split <;> rfl

/-- Following the cursors from the start visits every row once, in the order of
time and identifier: no request fails, every page but the last has a cursor, and
the walk is over once it may take as many steps as there are pages. -/
theorem traversal_visits_once (rows : List Row) (moment : Row → Moment) (id : Row → ID)
    (scope : JsString) (limit : Nat)
    (distinct : (rows.map fun row => (moment row, id row)).Nodup)
    (valid : validPart (.string scope) maxScopeBytes = true) (least : 1 ≤ limit)
    (most : limit ≤ 100) :
    size (some (js (toString limit))) = .ok limit ∧
      ∀ raw, size raw = .ok limit → ∃ pages : List (Page Row),
        (∀ budget, traverse (visit host moment id rows scope raw) budget none =
          .ok (if pages.length ≤ budget then some pages else none)) ∧
        (pages.flatMap Page.items).Perm rows ∧
        (pages.flatMap Page.items).Pairwise (Earlier moment id) ∧
        ∀ page ∈ pages, page.nextCursor.isSome = page.hasMore := by
  refine ⟨size_text least most, ?_⟩
  intro raw accepted
  have ordered := sorted_pairwise distinct
  obtain ⟨pages, items, cursors, followed⟩ := traverse_marked host valid accepted
    ((sorted moment id rows).length + 1) (Nat.lt_succ_self _) .start rfl ordered
  refine ⟨pages, followed, ?_, ?_, cursors⟩
  · rw [items]
    exact List.mergeSort_perm ..
  · rw [items]
    exact ordered

end Traversal

/-- Even and odd rows at two times of their own. -/
def alternating (row : Nat) : Moment := ⟨(row % 2 : Nat), by omega⟩

theorem traversal_visits_ties_once : ∃ pages : List (Page Nat),
    (∀ budget, traverse (visit (fun _ => none) alternating ID.numbered [3, 0, 1, 4, 2] (js "jobs")
      (some (js (toString 2)))) budget none = .ok (if pages.length ≤ budget then some pages else none)) ∧
    (pages.flatMap Page.items).Perm [3, 0, 1, 4, 2] := by
  obtain ⟨accepted, walk⟩ := traversal_visits_once (fun _ => none) [3, 0, 1, 4, 2] alternating
    ID.numbered (js "jobs") 2 (by decide) (by decide) (by decide) (by decide)
  obtain ⟨pages, followed, once, _⟩ := walk _ accepted
  exact ⟨pages, followed, once⟩

end N2FNest.Pagination
