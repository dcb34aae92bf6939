import Mathlib.Data.List.Chain
import Mathlib.Data.List.Nodup

/-! Histories that only grow at their end. Each entry comes from the one before
it, so a measure that every step raises tells the entries apart. -/

namespace N2FNest.Lib

universe u

variable {Entry : Type u} {Comes : Entry → Entry → Prop}

/-- Every entry of a chain is the first, or comes from another one of its entries. -/
theorem chain_source {entries : List Entry} (chain : entries.IsChain Comes) {entry : Entry}
    (member : entry ∈ entries) :
    entries.head? = some entry ∨ ∃ previous ∈ entries, Comes previous entry := by
  induction entries with
  | nil => cases member
  | cons first rest ih =>
    cases rest with
    | nil => exact .inl (congrArg some (List.mem_singleton.mp member).symm)
    | cons second more =>
      obtain ⟨comes, chain⟩ := List.isChain_cons_cons.mp chain
      rcases List.mem_cons.mp member with same | later
      · exact .inl (congrArg some same.symm)
      · rcases ih chain later with head | ⟨previous, present, source⟩
        · cases Option.some.inj head
          exact .inr ⟨first, List.mem_cons_self, comes⟩
        · exact .inr ⟨previous, List.mem_cons_of_mem first present, source⟩

theorem chain_concat {entries : List Entry} {entry : Entry} (chain : entries.IsChain Comes)
    (comes : ∀ last, entries.getLast? = some last → Comes last entry) :
    (entries ++ [entry]).IsChain Comes := by
  refine List.isChain_append.mpr ⟨chain, List.isChain_singleton entry, ?_⟩
  intro last held next head
  cases Option.some.inj head
  exact comes last held

/-- A condition that passes to smaller entries holds of a first part of an ordered list. -/
theorem filter_append_filter {Less : Entry → Entry → Prop} {holds : Entry → Bool}
    (closed : ∀ entry other, Less entry other → holds other = true → holds entry = true)
    {entries : List Entry} (ordered : entries.Pairwise Less) :
    entries.filter holds ++ entries.filter (fun entry => !holds entry) = entries := by
  induction entries with
  | nil => rfl
  | cons first rest ih =>
    obtain ⟨least, ordered⟩ := List.pairwise_cons.mp ordered
    cases here : holds first with
    | true => simpa [here] using ih ordered
    | false =>
      have none : ∀ entry ∈ rest, holds entry = false := by
        intro entry member
        cases there : holds entry with
        | false => rfl
        | true => exact absurd (closed first entry (least entry member) there) (by simp [here])
      have all : rest.filter (fun entry => !holds entry) = rest :=
        List.filter_eq_self.mpr fun entry member => by simp [none entry member]
      have empty : rest.filter holds = [] :=
        List.filter_eq_nil_iff.mpr fun entry member => by simp [none entry member]
      simp [here, all, empty]

/-- What comes after an entry of an ordered list is the rest of the list. -/
theorem filter_after {Less : Entry → Entry → Prop} [Std.Asymm Less] {follows : Entry → Bool}
    {front rest : List Entry} {entry : Entry}
    (ordered : (front ++ [entry] ++ rest).Pairwise Less)
    (same : ∀ other, follows other = true ↔ Less entry other) :
    (front ++ [entry] ++ rest).filter follows = rest := by
  obtain ⟨until_, _, across⟩ := List.pairwise_append.mp ordered
  have none : (front ++ [entry]).filter follows = [] := by
    refine List.filter_eq_nil_iff.mpr fun other member kept => ?_
    have later := (same other).mp kept
    rcases List.mem_append.mp member with earlier | final
    · have before := (List.pairwise_append.mp until_).2.2 other earlier entry (by simp)
      exact Std.Asymm.asymm _ _ before later
    · cases List.mem_singleton.mp final
      exact Std.Asymm.asymm _ _ later later
  have all : rest.filter follows = rest :=
    List.filter_eq_self.mpr fun other member => (same other).mpr (across entry (by simp) other member)
  rw [List.filter_append, none, all, List.nil_append]

section Measure

variable (measure : Entry → Nat)
  (raises : ∀ previous entry, Comes previous entry → measure previous < measure entry)

include raises

private theorem ascending {entries : List Entry} (chain : entries.IsChain Comes) :
    (entries.map measure).Pairwise (· < ·) := by
  have measured : entries.IsChain fun previous entry => measure previous < measure entry :=
    chain.imp raises
  have : Trans (fun previous entry : Entry => measure previous < measure entry)
      (fun previous entry => measure previous < measure entry)
      (fun previous entry => measure previous < measure entry) := ⟨Nat.lt_trans⟩
  exact List.pairwise_map.mpr (List.isChain_iff_pairwise.mp measured)

/-- The measure tells the entries of a history apart. -/
theorem chain_injective {entries : List Entry} (chain : entries.IsChain Comes) {entry other : Entry}
    (member : entry ∈ entries) (present : other ∈ entries) (same : measure entry = measure other) :
    entry = other := by
  have distinct : (entries.map measure).Nodup := (ascending measure raises chain).imp Nat.ne_of_lt
  exact List.inj_on_of_nodup_map distinct member present same

/-- No entry exceeds the last one. -/
theorem chain_le_last {entries : List Entry} (chain : entries.IsChain Comes) {entry last : Entry}
    (member : entry ∈ entries) (final : entries.getLast? = some last) :
    measure entry ≤ measure last := by
  obtain ⟨before, rfl⟩ := List.getLast?_eq_some_iff.mp final
  rcases List.mem_append.mp member with earlier | same
  · have pairs := ascending measure raises chain
    rw [List.map_append, List.pairwise_append] at pairs
    exact Nat.le_of_lt (pairs.2.2 _ (List.mem_map_of_mem earlier) _ (by simp))
  · rw [List.mem_singleton.mp same]

end Measure

end N2FNest.Lib
