import N2FNest.Events.Envelope
import N2FNest.Lib.Result
import N2FNest.Lib.Run
import N2FNest.Lib.Table

/-! The in-memory writers. A commit checks and stores in one synchronous step;
the publication of its event is awaited after that, and a failed publication
puts back what the store held when the commit began. -/

namespace N2FNest.Shared

open Events Lib

/-- What a writer knows about the aggregates it stores, and the failures it
answers with. `refuse` is what it checks of a new aggregate besides its id. -/
structure Aggregate (Row : Type) where
  id : Row → ID
  organizationId : Row → ID
  version : Row → Nat
  saved : Row → Row
  saved_id : ∀ row, id (saved row) = id row
  saved_version : ∀ row, version (saved row) = version row + 1
  existing : Failure
  missing : Failure
  organizationMismatch : Failure
  staleWrite : Failure
  refuse : Table id → Row → Option Failure

inductive CommitMode where
  | create | update
  deriving DecidableEq

structure Commit (Row Work : Type) where
  mode : CommitMode
  row : Row
  event : Envelope Work
  work : Work

variable {Row Work : Type} [DecidableEq Work] (aggregate : Aggregate Row)

namespace Aggregate

/-- The checks of a commit; it returns the aggregate the store holds. -/
def check (store : Table aggregate.id) (input : Commit Row Work) : Except Failure (Option Row) := do
  assertEventWork input.event input.work
  let previous := store.get (aggregate.id input.row)
  match input.mode, previous with
  | .create, some _ => throw aggregate.existing
  | .create, none => match aggregate.refuse store input.row with
    | some refused => throw refused
    | none => return none
  | .update, none => throw aggregate.missing
  | .update, some previous =>
    if aggregate.organizationId previous ≠ aggregate.organizationId input.row then
      throw aggregate.organizationMismatch
    else if aggregate.version previous ≠ aggregate.version input.row then throw aggregate.staleWrite
    else return some previous

/-- What an accepted commit has checked. -/
theorem check_inv {store : Table aggregate.id} {input : Commit Row Work} {previous : Option Row}
    (accepted : aggregate.check store input = .ok previous) :
    store.get (aggregate.id input.row) = previous ∧
      (previous = none ∧ input.mode = .create ∧ aggregate.refuse store input.row = none ∨
        ∃ held, previous = some held ∧ input.mode = .update ∧
          aggregate.organizationId held = aggregate.organizationId input.row ∧
          aggregate.version held = aggregate.version input.row) := by
  obtain ⟨_, _, body⟩ := bind_ok accepted
  cases mode : input.mode with
  | create =>
    cases found : store.get (aggregate.id input.row) with
    | some held => simp [mode, found] at body
    | none =>
      cases refused : aggregate.refuse store input.row with
      | some error => simp [mode, found, refused] at body
      | none =>
        simp only [mode, found, refused, pure_eq_ok] at body
        subst body
        exact ⟨rfl, .inl ⟨rfl, rfl, rfl⟩⟩
  | update =>
    cases found : store.get (aggregate.id input.row) with
    | none => simp [mode, found] at body
    | some held =>
      by_cases organization : aggregate.organizationId held = aggregate.organizationId input.row
      · by_cases version : aggregate.version held = aggregate.version input.row
        · simp only [mode, found, organization, version, ne_eq, not_true_eq_false, if_false,
            pure_eq_ok] at body
          subst body
          exact ⟨rfl, .inr ⟨held, rfl, rfl, organization, version⟩⟩
        · simp [mode, found, organization, version] at body
      · simp [mode, found, organization] at body

/-- What a commit leaves behind when its event could not be published. -/
def restore (store : Table aggregate.id) (row : Row) : Option Row → Table aggregate.id
  | some previous => store.set previous
  | none => store.delete (aggregate.id row)

end Aggregate

/-- A commit that has stored its aggregate: what the store held before, and
whether the commit has returned ok. -/
structure Standing (Row : Type) where
  row : Row
  previous : Option Row
  acknowledged : Bool

/-- The store, and the commits in flight or acknowledged by call. -/
structure Writer where
  store : Table aggregate.id
  calls : Nat → Option (Standing Row)

inductive WriterLabel (Row Work : Type) where
  | commit (call : Nat) (input : Commit Row Work)
  | published (call : Nat) (success : Bool)

namespace Writer

variable {aggregate}

/-- The synchronous part of a commit. -/
def commit (writer : Writer aggregate) (call : Nat) (input : Commit Row Work) : Writer aggregate :=
  match writer.calls call, aggregate.check writer.store input with
  | none, .ok previous =>
    { store := writer.store.set (aggregate.saved input.row)
      calls := Function.update writer.calls call (some ⟨input.row, previous, false⟩) }
  | _, _ => writer

/-- The continuation of a commit after the awaited publication. -/
def published (writer : Writer aggregate) (call : Nat) (success : Bool) : Writer aggregate :=
  match writer.calls call with
  | some ⟨row, previous, false⟩ =>
    if success then
      { writer with calls := Function.update writer.calls call (some ⟨row, previous, true⟩) }
    else
      { store := aggregate.restore writer.store row previous
        calls := Function.update writer.calls call none }
  | _ => writer

def step (writer : Writer aggregate) : WriterLabel Row Work → Writer aggregate
  | .commit call input => writer.commit call input
  | .published call success => writer.published call success

/-- A failed publication puts back a snapshot. It is safe while the store still
holds what the commit stored. -/
def Undisturbed (writer : Writer aggregate) : WriterLabel Row Work → Prop
  | .commit _ _ => True
  | .published call success => success = false → ∀ standing, writer.calls call = some standing →
      standing.acknowledged = false →
      writer.store.get (aggregate.id standing.row) = some (aggregate.saved standing.row)

/-- The store has moved past what every standing commit loaded, and no two of
them stored the same version of an aggregate. -/
structure Stacked (writer : Writer aggregate) : Prop where
  stored : ∀ call standing, writer.calls call = some standing → ∃ held,
    writer.store.get (aggregate.id standing.row) = some held ∧
      aggregate.version standing.row < aggregate.version held
  apart : ∀ first second one other, first ≠ second → writer.calls first = some one →
    writer.calls second = some other → aggregate.id one.row = aggregate.id other.row →
    aggregate.version one.row ≠ aggregate.version other.row ∧
      (one.previous = none → aggregate.version one.row < aggregate.version other.row)
  replaced : ∀ call standing, writer.calls call = some standing → ∀ held,
    standing.previous = some held → aggregate.id held = aggregate.id standing.row ∧
      aggregate.version held = aggregate.version standing.row

/-- Reading a call after one call's record was written. -/
private theorem calls_update {calls : Nat → Option (Standing Row)} {call wanted : Nat}
    {record : Option (Standing Row)} {standing : Standing Row}
    (found : Function.update calls call record wanted = some standing) :
    wanted = call ∧ record = some standing ∨ wanted ≠ call ∧ calls wanted = some standing := by
  by_cases same : wanted = call
  · subst same
    rw [Function.update_self] at found
    exact .inl ⟨rfl, found⟩
  · rw [Function.update_of_ne same] at found
    exact .inr ⟨same, found⟩

theorem Stacked.commit {writer : Writer aggregate} (stacked : writer.Stacked) (call : Nat)
    (input : Commit Row Work) : (writer.commit call input).Stacked := by
  unfold Writer.commit
  split
  · rename_i previous idle accepted
    obtain ⟨held, kinds⟩ := aggregate.check_inv accepted
    -- every commit standing on this aggregate is older than the one that joins
    have older : ∀ other standing, writer.calls other = some standing →
        aggregate.id standing.row = aggregate.id input.row →
        aggregate.version standing.row < aggregate.version input.row ∧ previous ≠ none := by
      intro other standing found same
      obtain ⟨stored, present, bound⟩ := stacked.stored other standing found
      rw [same, held] at present
      rcases kinds with ⟨absent, _⟩ | ⟨row, loaded, _, _, version⟩
      · rw [absent] at present
        cases present
      · rw [loaded] at present
        cases present
        exact ⟨version ▸ bound, by simp [loaded]⟩
    refine ⟨?_, ?_, ?_⟩
    · intro other standing found
      rw [Table.get_set, aggregate.saved_id]
      rcases calls_update found with ⟨_, record⟩ | ⟨_, found⟩
      · cases record
        exact ⟨_, if_pos rfl, by rw [aggregate.saved_version]; exact Nat.lt_succ_self _⟩
      · by_cases same : aggregate.id input.row = aggregate.id standing.row
        · refine ⟨_, if_pos same, ?_⟩
          rw [aggregate.saved_version]
          exact Nat.lt_succ_of_lt (older other standing found same.symm).1
        · rw [if_neg same]
          exact stacked.stored other standing found
    · intro first second one other different firstFound secondFound same
      rcases calls_update firstFound with ⟨_, record⟩ | ⟨_, firstFound⟩ <;>
        rcases calls_update secondFound with ⟨_, also⟩ | ⟨_, secondFound⟩
      · omega
      · cases record
        have bound := older second other secondFound same.symm
        exact ⟨Nat.ne_of_gt bound.1, fun absent => absurd absent bound.2⟩
      · cases also
        have bound := older first one firstFound same
        exact ⟨Nat.ne_of_lt bound.1, fun _ => bound.1⟩
      · exact stacked.apart first second one other different firstFound secondFound same
    · intro other standing found row loaded
      rcases calls_update found with ⟨_, record⟩ | ⟨_, found⟩
      · cases record
        rcases kinds with ⟨absent, _⟩ | ⟨stored, present, _, _, version⟩
        · rw [absent] at loaded
          cases loaded
        · rw [present] at loaded
          cases loaded
          rw [present] at held
          exact ⟨Table.key_of_get held, version⟩
      · exact stacked.replaced other standing found row loaded
  · exact stacked

/-- The state after a successful publication differs only in its acknowledgement. -/
private theorem Stacked.acknowledge {writer : Writer aggregate} {call : Nat} {row : Row}
    {previous : Option Row} (stacked : writer.Stacked)
    (found : writer.calls call = some ⟨row, previous, false⟩) :
    Stacked { writer with
      calls := Function.update writer.calls call (some ⟨row, previous, true⟩) } := by
  have earlier : ∀ other standing,
      Function.update writer.calls call (some ⟨row, previous, true⟩) other = some standing →
      ∃ before, writer.calls other = some before ∧ before.row = standing.row ∧
        before.previous = standing.previous := by
    intro other standing after
    rcases calls_update after with ⟨same, record⟩ | ⟨_, before⟩
    · cases record
      exact ⟨⟨row, previous, false⟩, same ▸ found, rfl, rfl⟩
    · exact ⟨standing, before, rfl, rfl⟩
  refine ⟨?_, ?_, ?_⟩
  · intro other standing after
    obtain ⟨before, standing', same, _⟩ := earlier other standing after
    rw [← same]
    exact stacked.stored other before standing'
  · intro first second one other different oneAfter otherAfter
    obtain ⟨before, oneBefore, oneSame, onePrevious⟩ := earlier first one oneAfter
    obtain ⟨also, otherBefore, otherSame, _⟩ := earlier second other otherAfter
    rw [← oneSame, ← otherSame, ← onePrevious]
    exact stacked.apart first second before also different oneBefore otherBefore
  · intro other standing after
    obtain ⟨before, standing', same, loaded⟩ := earlier other standing after
    rw [← same, ← loaded]
    exact stacked.replaced other before standing'

/-- Undoing the newest commit of an aggregate leaves the older ones standing. -/
private theorem Stacked.undo {writer : Writer aggregate} {call : Nat} {row : Row}
    {previous : Option Row} (stacked : writer.Stacked)
    (found : writer.calls call = some ⟨row, previous, false⟩)
    (newest : writer.store.get (aggregate.id row) = some (aggregate.saved row)) :
    Stacked { store := aggregate.restore writer.store row previous
              calls := Function.update writer.calls call none } := by
  have remains : ∀ other standing, Function.update writer.calls call none other = some standing →
      other ≠ call ∧ writer.calls other = some standing := by
    intro other standing after
    rcases calls_update after with ⟨_, record⟩ | kept
    · cases record
    · exact kept
  refine ⟨?_, ?_, ?_⟩
  · intro other standing after
    obtain ⟨different, before⟩ := remains other standing after
    obtain ⟨held, present, bound⟩ := stacked.stored other standing before
    by_cases same : aggregate.id standing.row = aggregate.id row
    · rw [same, newest] at present
      cases present
      rw [aggregate.saved_version] at bound
      have apart := stacked.apart call other _ standing (Ne.symm different) found before same.symm
      simp only at apart
      cases previous with
      | none =>
        have beyond := apart.2 rfl
        omega
      | some loaded =>
        obtain ⟨identity, version⟩ := stacked.replaced call _ found loaded rfl
        refine ⟨loaded, ?_, by simp only at version; omega⟩
        simp only [Aggregate.restore, same]
        rw [← identity]
        exact Table.get_set_same _ _
    · refine ⟨held, ?_, bound⟩
      cases previous with
      | none => rw [Aggregate.restore, Table.get_delete, if_neg same, present]
      | some loaded =>
        have identity := (stacked.replaced call _ found loaded rfl).1
        rw [Aggregate.restore, Table.get_set_other _ (by rw [identity]; exact Ne.symm same), present]
  · intro first second one other different oneAfter otherAfter
    exact stacked.apart first second one other different (remains first one oneAfter).2
      (remains second other otherAfter).2
  · intro other standing after
    exact stacked.replaced other standing (remains other standing after).2

theorem Stacked.step {writer : Writer aggregate} (stacked : writer.Stacked)
    {label : WriterLabel Row Work} (undisturbed : writer.Undisturbed label) :
    (writer.step label).Stacked := by
  cases label with
  | commit call input => exact stacked.commit call input
  | published call success =>
    show (writer.published call success).Stacked
    unfold Writer.published
    split
    · rename_i row previous found
      cases success with
      | true => exact stacked.acknowledge found
      | false => exact stacked.undo found (undisturbed rfl _ found rfl)
    · exact stacked

/-- A writer over a store no commit stands on yet. -/
def initial (store : Table aggregate.id) : Writer aggregate := ⟨store, fun _ => none⟩

theorem stacked_initial (store : Table aggregate.id) : (initial store).Stacked := by
  constructor <;> simp [initial]

/-- Once a commit is acknowledged, the store holds at least its version. -/
def Durable (writer : Writer aggregate) : Prop :=
  ∀ call standing, writer.calls call = some standing → standing.acknowledged = true → ∃ held,
    writer.store.get (aggregate.id standing.row) = some held ∧
      aggregate.version (aggregate.saved standing.row) ≤ aggregate.version held

theorem Stacked.durable {writer : Writer aggregate} (stacked : writer.Stacked) : writer.Durable := by
  intro call standing found _
  obtain ⟨held, present, bound⟩ := stacked.stored call standing found
  exact ⟨held, present, by rw [aggregate.saved_version]; exact bound⟩

/-- How a step may change the stored aggregate `id`, of which version `version`
was acknowledged: a commit that loaded this version or a newer one stores its
successor, or such a commit fails and puts back exactly what it replaced. -/
inductive Succeeds (writer : Writer aggregate) (id : ID) (version : Nat) :
    WriterLabel Row Work → Prop where
  | commit (call : Nat) (input : Commit Row Work) (named : aggregate.id input.row = id)
      (loaded : version ≤ aggregate.version input.row)
      (accepted : aggregate.check writer.store input = .ok previous)
      (stores : (writer.commit call input).store.get id = some (aggregate.saved input.row)) :
      Succeeds writer id version (.commit call input)
  | undo (call : Nat) (standing : Standing Row) (found : writer.calls call = some standing)
      (unacknowledged : standing.acknowledged = false) (named : aggregate.id standing.row = id)
      (loaded : version ≤ aggregate.version standing.row)
      (stored : writer.store.get id = some (aggregate.saved standing.row))
      (restores : (writer.published call false).store.get id = standing.previous) :
      Succeeds writer id version (.published call false)

private theorem Stacked.get_restore {writer : Writer aggregate} (stacked : writer.Stacked)
    {call : Nat} {standing : Standing Row} (found : writer.calls call = some standing) (wanted : ID) :
    (aggregate.restore writer.store standing.row standing.previous).get wanted =
      if aggregate.id standing.row = wanted then standing.previous else writer.store.get wanted := by
  cases loaded : standing.previous with
  | none =>
    rw [Aggregate.restore, Table.get_delete]
    by_cases same : aggregate.id standing.row = wanted
    · rw [if_pos same, if_pos same.symm]
    · rw [if_neg same, if_neg (Ne.symm same)]
  | some held =>
    rw [Aggregate.restore, Table.get_set, (stacked.replaced call standing found held loaded).1]

/-- After an acknowledgement the stored aggregate changes in no other way. -/
theorem Stacked.succeeds {writer : Writer aggregate} (stacked : writer.Stacked)
    {label : WriterLabel Row Work} (undisturbed : writer.Undisturbed label) {call : Nat}
    {standing : Standing Row} (found : writer.calls call = some standing)
    (acknowledged : standing.acknowledged = true)
    (changed : (writer.step label).store.get (aggregate.id standing.row) ≠
      writer.store.get (aggregate.id standing.row)) :
    writer.Succeeds (aggregate.id standing.row) (aggregate.version (aggregate.saved standing.row))
      label := by
  obtain ⟨held, present, bound⟩ := stacked.durable call standing found acknowledged
  cases label with
  | commit other input =>
    have stores : (writer.commit other input).store.get (aggregate.id standing.row) ≠
      writer.store.get (aggregate.id standing.row) := changed
    unfold Writer.commit at stores
    split at stores
    · rename_i previous idle accepted
      by_cases named : aggregate.id input.row = aggregate.id standing.row
      · obtain ⟨loaded, kinds⟩ := aggregate.check_inv accepted
        rw [named, present] at loaded
        refine .commit other input named ?_ accepted ?_
        · rcases kinds with ⟨absent, _⟩ | ⟨row, stored, _, _, version⟩
          · rw [absent] at loaded
            cases loaded
          · rw [stored] at loaded
            cases loaded
            rw [← version]
            exact bound
        · simp only [Writer.commit, idle, accepted, ← named]
          rw [← aggregate.saved_id]
          exact Table.get_set_same _ _
      · rw [Table.get_set_other _ (by rw [aggregate.saved_id]; exact named)] at stores
        exact absurd rfl stores
    · exact absurd rfl stores
  | published other success =>
    have restores : (writer.published other success).store.get (aggregate.id standing.row) ≠
      writer.store.get (aggregate.id standing.row) := changed
    unfold Writer.published at restores
    split at restores
    · rename_i row previous pending
      cases success with
      | true => exact absurd rfl restores
      | false =>
        have undone := stacked.get_restore pending (aggregate.id standing.row)
        have newest := undisturbed rfl _ pending rfl
        simp only [Bool.false_eq_true, if_false] at restores undone newest
        by_cases named : aggregate.id row = aggregate.id standing.row
        · rw [named, present] at newest
          have stored := Option.some.inj newest
          have different : other ≠ call := by
            intro same
            rw [same, found] at pending
            cases pending
            cases acknowledged
          have apart := (stacked.apart other call _ standing different pending found named).1
          refine .undo other _ pending rfl named ?_ (by rw [present, stored]) ?_
          · rw [stored, aggregate.saved_version, aggregate.saved_version] at bound
            rw [aggregate.saved_version]
            simp only at apart ⊢
            omega
          · simp only [Writer.published, pending]
            rw [if_pos named] at undone
            exact undone
        · rw [undone, if_neg named] at restores
          exact absurd rfl restores
    · exact absurd rfl restores

end Writer

end N2FNest.Shared
