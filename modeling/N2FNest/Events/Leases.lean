import N2FNest.Events.Delivery

/-! What the delivery statements do to a table of leased rows. Each statement is
inverted once here; the outbox and the inbox only combine these facts. -/

namespace N2FNest.Events

open Lib Shared

variable {Key Body Event : Type} [DecidableEq Key]

theorem get_rewrite (table : Deliveries Key Body) (selects : DeliveryRow Key Body → Bool)
    (set : DeliveryColumns → DeliveryColumns) (key : Key) :
    (rewrite table selects set).get key = (table.get key).map fun row =>
      if selects row then { row with toDeliveryColumns := set row.toDeliveryColumns } else row :=
  Table.get_modify table _ _ key

/-- A rewrite that does not select the row under a key leaves it as it is. -/
theorem get_rewrite_spared {table : Deliveries Key Body} {selects : DeliveryRow Key Body → Bool}
    {set : DeliveryColumns → DeliveryColumns} {key : Key}
    (spared : ∀ row, table.get key = some row → selects row = false) :
    (rewrite table selects set).get key = table.get key := by
  rw [get_rewrite]
  cases found : table.get key with
  | none => rfl
  | some row => simp [spared row found]

omit [DecidableEq Key] in
theorem mem_rewrite {table : Deliveries Key Body} {selects : DeliveryRow Key Body → Bool}
    {set : DeliveryColumns → DeliveryColumns} {row : DeliveryRow Key Body}
    (member : row ∈ (rewrite table selects set).rows) :
    (row ∈ table.rows ∧ selects row = false) ∨ ∃ before ∈ table.rows, selects before = true ∧
      row = { before with toDeliveryColumns := set before.toDeliveryColumns } := by
  obtain ⟨before, present, same⟩ := List.mem_map.mp member
  split at same
  · rename_i selected
    exact .inr ⟨before, present, selected, same.symm⟩
  · rename_i other
    subst same
    exact .inl ⟨present, by simpa using other⟩

omit [DecidableEq Key] in
theorem rewrite_rewrite (table : Deliveries Key Body) (selects : Key → Bool)
    (first second : DeliveryColumns → DeliveryColumns) :
    rewrite (rewrite table (fun row => selects row.key) first) (fun row => selects row.key) second =
      rewrite table (fun row => selects row.key) (second ∘ first) := by
  unfold rewrite Table.modify
  congr 1
  rw [List.map_map]
  apply List.map_congr_left
  intro row _
  by_cases selected : selects row.key = true <;> simp [selected]

omit [DecidableEq Key] in
theorem update_inv {table next : Deliveries Key Body} {selects : DeliveryRow Key Body → Bool}
    {set : DeliveryColumns → DeliveryColumns} {count : Nat}
    (done : update table selects set = .ok (next, count)) :
    next = rewrite table selects set ∧ count = table.rows.countP selects := by
  unfold update at done
  split at done
  · cases done
    exact ⟨rfl, rfl⟩
  · cases done

omit [DecidableEq Key] in
/-- An UPDATE whose rows all meet the CHECKs succeeds. -/
theorem update_ok {table : Deliveries Key Body} {selects : DeliveryRow Key Body → Bool}
    {set : DeliveryColumns → DeliveryColumns}
    (admitted : ∀ row ∈ table.rows, selects row = true → (set row.toDeliveryColumns).admitted = true) :
    update table selects set = .ok (rewrite table selects set, table.rows.countP selects) := by
  unfold update
  rw [if_pos]
  rw [List.all_eq_true]
  intro row member
  by_cases selected : selects row = true
  · simp [selected, admitted row member selected]
  · simp [selected]

structure Claim (Key : Type) where
  key : Key
  token : ID
  attempt : Nat

/-- The most recent claim of a row. -/
def latest (claims : List (Claim Key)) (key : Key) : Option (Claim Key) :=
  (claims.filter fun claim => claim.key = key).getLast?

theorem latest_concat (claims : List (Claim Key)) (claim : Claim Key) (key : Key) :
    latest (claims ++ [claim]) key = if claim.key = key then some claim else latest claims key := by
  by_cases same : claim.key = key <;> simp [latest, List.filter_append, same]

theorem mem_of_latest {claims : List (Claim Key)} {key : Key} {claim : Claim Key}
    (recent : latest claims key = some claim) : claim ∈ claims :=
  (List.mem_filter.mp (List.mem_of_getLast? recent)).1

/-- A lease on a row is the row's most recent claim. -/
structure Ledger (table : Deliveries Key Body) (claims : List (Claim Key)) : Prop where
  consistent : ∀ row ∈ table.rows, row.Consistent
  held : ∀ row ∈ table.rows, ∀ token, row.lease = some token →
    latest claims row.key = some ⟨row.key, token, row.attempts⟩

/-- No row has used up its attempts without someone at work on the last one. -/
def WithinBudget (maxAttempts : Nat) (table : Deliveries Key Body) : Prop :=
  ∀ row ∈ table.rows, row.Budgeted maxAttempts

/-- A write that drops the leases of the rows it selects. -/
theorem Ledger.rewrite {table : Deliveries Key Body} {claims : List (Claim Key)}
    (ledger : Ledger table claims) {selects : DeliveryRow Key Body → Bool}
    {set : DeliveryColumns → DeliveryColumns}
    (writes : ∀ row ∈ table.rows, selects row = true →
      (set row.toDeliveryColumns).Consistent ∧ (set row.toDeliveryColumns).lease = none) :
    Ledger (rewrite table selects set) claims := by
  constructor
  · intro row member
    rcases mem_rewrite member with ⟨kept, _⟩ | ⟨before, present, selected, same⟩
    · exact ledger.consistent row kept
    · rw [same]
      exact (writes before present selected).1
  · intro row member token leased
    rcases mem_rewrite member with ⟨kept, _⟩ | ⟨before, present, selected, same⟩
    · exact ledger.held row kept token leased
    · rw [same] at leased
      have none := (writes before present selected).2
      rw [none] at leased
      cases leased

omit [DecidableEq Key] in
theorem WithinBudget.rewrite {maxAttempts : Nat} {table : Deliveries Key Body}
    (within : WithinBudget maxAttempts table) {selects : DeliveryRow Key Body → Bool}
    {set : DeliveryColumns → DeliveryColumns}
    (writes : ∀ row ∈ table.rows, selects row = true →
      (set row.toDeliveryColumns).Budgeted maxAttempts) :
    WithinBudget maxAttempts (Events.rewrite table selects set) := by
  intro row member
  rcases mem_rewrite member with ⟨kept, _⟩ | ⟨before, present, selected, same⟩
  · exact within row kept
  · rw [same]
    exact writes before present selected

/-- Rows removed from the table take nothing with them. -/
theorem Ledger.keep {table : Deliveries Key Body} {claims : List (Claim Key)}
    (ledger : Ledger table claims) (wanted : DeliveryRow Key Body → Bool) :
    Ledger (table.keep wanted) claims where
  consistent := fun row member => ledger.consistent row (List.mem_filter.mp member).1
  held := fun row member => ledger.held row (List.mem_filter.mp member).1

omit [DecidableEq Key] in
theorem WithinBudget.keep {maxAttempts : Nat} {table : Deliveries Key Body}
    (within : WithinBudget maxAttempts table) (wanted : DeliveryRow Key Body → Bool) :
    WithinBudget maxAttempts (table.keep wanted) :=
  fun row member => within row (List.mem_filter.mp member).1

/-- A new row has the column defaults. -/
theorem Ledger.insert {table : Deliveries Key Body} {claims : List (Claim Key)}
    (ledger : Ledger table claims) (now : Int) (key : Key) (body : Body) :
    Ledger (table.set ⟨.fresh now, key, body⟩) claims := by
  constructor
  · intro row member
    rcases Table.mem_set.mp member with same | ⟨held, _⟩
    · rw [same]
      exact DeliveryColumns.fresh_consistent now
    · exact ledger.consistent row held
  · intro row member token leased
    rcases Table.mem_set.mp member with same | ⟨held, _⟩
    · rw [same] at leased
      cases leased
    · exact ledger.held row held token leased

theorem WithinBudget.insert {maxAttempts : Nat} (some : 1 ≤ maxAttempts)
    {table : Deliveries Key Body} (within : WithinBudget maxAttempts table) (now : Int) (key : Key)
    (body : Body) : WithinBudget maxAttempts (table.set ⟨.fresh now, key, body⟩) := by
  intro row member
  rcases Table.mem_set.mp member with same | ⟨held, _⟩
  · rw [same]
    exact DeliveryColumns.fresh_budgeted now some
  · exact within row held

/-- The claims a claim adds to the log. -/
def Claimed.entries (token : ID) : Claimed Key Event → List (Claim Key)
  | .leased key _ attempt => [⟨key, token, attempt⟩]
  | _ => []

section Claims

variable {policy : RetryPolicy} {queue : Queue Key Body Event} {table next : Deliveries Key Body}
  {claimed : Claimed Key Event} {token : ID} {now : Int} {claims : List (Claim Key)}

/-- The rows after the first statement of a claim. -/
def swept (policy : RetryPolicy) (queue : Queue Key Body Event) (table : Deliveries Key Body)
    (now : Int) : Deliveries Key Body :=
  rewrite table (fun row => queue.selects row.key && row.abandoned policy now) (.sweep now)

/-- Everything a claim can do: the row it takes was due before the sweep, and is
the only one it touches after it. -/
inductive Claims (policy : RetryPolicy) (queue : Queue Key Body Event) (table : Deliveries Key Body)
    (token : ID) (now : Int) : Claimed Key Event → Deliveries Key Body → Prop where
  | nothing : Claims policy queue table token now .nothing (swept policy queue table now)
  | leased (row : DeliveryRow Key Body) (event : Event) (present : row ∈ table.rows)
      (member : row ∈ (swept policy queue table now).rows) (selected : queue.selects row.key = true)
      (due : row.claimable policy now = true) (decoded : queue.envelope row = some (.ok event)) :
      Claims policy queue table token now (.leased row.key event (row.attempts + 1))
        (rewrite (swept policy queue table now) (fun other => other.key = row.key) (.claim token now))
  | quarantined (row : DeliveryRow Key Body) (member : row ∈ (swept policy queue table now).rows)
      (selected : queue.selects row.key = true) (due : row.claimable policy now = true) :
      Claims policy queue table token now (.quarantined row.key (row.attempts + 1))
        (rewrite (swept policy queue table now) (fun other => other.key = row.key)
          (.quarantine now ∘ .claim token now))

omit [DecidableEq Key] in
/-- The sweep leaves a row that is still due as it was. -/
private theorem mem_of_swept {row : DeliveryRow Key Body}
    (member : row ∈ (swept policy queue table now).rows) (due : row.claimable policy now = true) :
    row ∈ table.rows := by
  rcases mem_rewrite member with ⟨kept, _⟩ | ⟨before, _, _, same⟩
  · exact kept
  · rw [same] at due
    simp [DeliveryColumns.claimable, DeliveryColumns.sweep] at due

theorem claim_inv (done : claim policy queue table token now = .ok (claimed, next)) :
    Claims policy queue table token now claimed next := by
  obtain ⟨⟨cleared, count⟩, sweep, rest⟩ := bind_ok done
  have cleared := (update_inv sweep).1
  subst cleared
  dsimp only at rest
  split at rest
  · cases pure_eq_ok.mp rest
    exact .nothing
  · rename_i row found
    obtain ⟨member, chosen⟩ := List.mem_filter.mp (Table.least_mem found)
    obtain ⟨selected, due⟩ := Bool.and_eq_true_iff.mp chosen
    split at rest
    · cases pure_eq_ok.mp rest
      exact .nothing
    · rename_i decoded envelope
      obtain ⟨⟨taken, _⟩, write, rest⟩ := bind_ok rest
      have taken := (update_inv write).1
      subst taken
      dsimp only at rest
      split at rest
      · cases pure_eq_ok.mp rest
        exact .leased row _ (mem_of_swept member due) member selected due envelope
      · obtain ⟨⟨dead, _⟩, write, rest⟩ := bind_ok rest
        have dead := (update_inv write).1
        subst dead
        cases pure_eq_ok.mp rest
        rw [rewrite_rewrite _ (fun key => key = row.key)]
        exact .quarantined row member selected due

private theorem Ledger.swept (ledger : Ledger table claims) :
    Ledger (swept policy queue table now) claims := by
  apply ledger.rewrite
  intro row member _
  exact ⟨(ledger.consistent row member).sweep now, rfl⟩

omit [DecidableEq Key] in
private theorem WithinBudget.swept {maxAttempts : Nat} (within : WithinBudget maxAttempts table) :
    WithinBudget maxAttempts (swept policy queue table now) := by
  apply within.rewrite
  intro row member _
  exact (within row member).ended rfl (by simp [DeliveryColumns.sweep])

theorem claimable_pending {row : DeliveryColumns} (due : row.claimable policy now = true) :
    row.state = .pending ∧ row.attempts < policy.maxAttempts ∧ row.unleased now = true := by
  simp only [DeliveryColumns.claimable, Bool.and_eq_true, beq_iff_eq, decide_eq_true_eq] at due
  exact ⟨due.1.1.1, due.1.1.2, due.2⟩

theorem Ledger.claim (ledger : Ledger table claims)
    (claiming : Claims policy queue table token now claimed next) :
    Ledger next (claims ++ claimed.entries token) := by
  cases claiming with
  | nothing =>
    simp only [Claimed.entries, List.append_nil]
    exact ledger.swept
  | quarantined row member selected due =>
    simp only [Claimed.entries, List.append_nil]
    apply ledger.swept.rewrite
    intro other _ _
    exact ⟨DeliveryColumns.quarantine_consistent now, rfl⟩
  | leased row event present member selected due decoded =>
    constructor
    · intro other held
      rcases mem_rewrite held with ⟨kept, _⟩ | ⟨before, there, same, changed⟩
      · exact ledger.swept.consistent other kept
      · rw [changed]
        have named : before.key = row.key := by simpa using same
        have identical : before = row := Table.eq_of_key there member named
        rw [identical]
        exact (ledger.consistent row present).claim token now (claimable_pending due).1
    · intro other held holder leased
      rw [Claimed.entries, latest_concat]
      rcases mem_rewrite held with ⟨kept, apart⟩ | ⟨before, there, same, changed⟩
      · have apart : ¬ row.key = other.key := by simpa [eq_comm] using apart
        rw [if_neg apart]
        exact ledger.swept.held other kept holder leased
      · have named : before.key = row.key := by simpa using same
        have identical : before = row := Table.eq_of_key there member named
        subst identical
        rw [changed] at leased ⊢
        cases leased
        rw [if_pos rfl]
        rfl

theorem WithinBudget.claim {policy : RetryPolicy} (within : WithinBudget policy.maxAttempts table)
    (claiming : Claims policy queue table token now claimed next) :
    WithinBudget policy.maxAttempts next := by
  have cleared : WithinBudget policy.maxAttempts (Events.swept policy queue table now) := within.swept
  cases claiming with
  | nothing => exact cleared
  | quarantined row member selected due =>
    apply cleared.rewrite
    intro other there same
    have identical : other = row := Table.eq_of_key there member (by simpa using same)
    rw [identical]
    exact (DeliveryColumns.claim_budgeted token now (claimable_pending due).2.1).ended rfl
      (by simp [DeliveryColumns.quarantine])
  | leased row event present member selected due decoded =>
    apply cleared.rewrite
    intro other there same
    have identical : other = row := Table.eq_of_key there member (by simpa using same)
    rw [identical]
    exact DeliveryColumns.claim_budgeted token now (claimable_pending due).2.1

omit [DecidableEq Key] in
private theorem sweep_admitted {policy : RetryPolicy} (few : policy.maxAttempts ≤ 100)
    (consistent : ∀ row ∈ table.rows, row.Consistent)
    (within : WithinBudget policy.maxAttempts table) :
    ∀ row ∈ table.rows, (row.sweep now).admitted = true := by
  intro row member
  exact ((consistent row member).sweep now).admitted ((within row member).bounded.trans few)

/-- No CHECK ever fails a claim. -/
theorem claim_ok {policy : RetryPolicy} (few : policy.maxAttempts ≤ 100) (ledger : Ledger table claims)
    (within : WithinBudget policy.maxAttempts table) (queue : Queue Key Body Event) (token : ID)
    (now : Int) : ∃ claimed next, claim policy queue table token now = .ok (claimed, next) := by
  have sweeps : update table (fun row => queue.selects row.key && row.abandoned policy now)
      (.sweep now) = .ok (swept policy queue table now, _) :=
    update_ok fun row member _ => sweep_admitted few ledger.consistent within row member
  simp only [claim, sweeps, ok_bind]
  split
  · exact ⟨_, _, rfl⟩
  · rename_i row found
    obtain ⟨member, chosen⟩ := List.mem_filter.mp (Table.least_mem found)
    have due := (Bool.and_eq_true_iff.mp chosen).2
    have pending := claimable_pending due
    split
    · exact ⟨_, _, rfl⟩
    · have only : ∀ other ∈ (swept policy queue table now).rows, decide (other.key = row.key) = true →
          other = row := fun other there same => Table.eq_of_key there member (by simpa using same)
      have claimable : ∀ other ∈ (swept policy queue table now).rows,
          decide (other.key = row.key) = true → (other.claim token now).admitted = true := by
        intro other there same
        rw [only other there same]
        exact ((ledger.swept.consistent row member).claim token now pending.1).admitted
          (Nat.le_trans pending.2.1 few)
      rw [update_ok claimable, ok_bind]
      dsimp only
      split
      · exact ⟨_, _, rfl⟩
      · have burial : ∀ other ∈ (rewrite (swept policy queue table now)
            (fun other => other.key = row.key) (.claim token now)).rows,
            decide (other.key = row.key) = true → (other.quarantine now).admitted = true := by
          intro other there same
          rcases mem_rewrite there with ⟨_, apart⟩ | ⟨before, present, also, changed⟩
          · rw [same] at apart
            cases apart
          · rw [changed, only before present also]
            exact (DeliveryColumns.quarantine_consistent now).admitted (Nat.le_trans pending.2.1 few)
        rw [update_ok burial, ok_bind]
        exact ⟨_, _, rfl⟩

/-- A row with no attempts left and no live lease is dead after the next claim of
its queue. -/
theorem Claims.buries (claiming : Claims policy queue table token now claimed next)
    {row : DeliveryRow Key Body} (present : row ∈ table.rows)
    (selected : queue.selects row.key = true) (abandoned : row.abandoned policy now = true) :
    ∃ after, next.get row.key = some after ∧ after.state = .dead := by
  have found : table.get row.key = some row := Table.get_of_mem present
  have buried : (swept policy queue table now).get row.key =
      some { row with toDeliveryColumns := row.sweep now } := by
    rw [swept, get_rewrite, found]
    simp [selected, abandoned]
  have spared : ∀ other ∈ (swept policy queue table now).rows, other.claimable policy now = true →
      ¬ row.key = other.key := by
    intro other member due same
    have there : (swept policy queue table now).get other.key = some other := Table.get_of_mem member
    rw [← same, buried] at there
    cases there
    simp [DeliveryColumns.claimable, DeliveryColumns.sweep] at due
  cases claiming with
  | nothing => exact ⟨_, buried, rfl⟩
  | quarantined other member _ due =>
    refine ⟨{ row with toDeliveryColumns := row.sweep now }, ?_, rfl⟩
    rw [get_rewrite, buried, Option.map_some, if_neg (by simpa using spared other member due)]
  | leased other event _ member _ due =>
    refine ⟨{ row with toDeliveryColumns := row.sweep now }, ?_, rfl⟩
    rw [get_rewrite, buried, Option.map_some, if_neg (by simpa using spared other member due)]

/-- A claim leaves alone the rows of other queues and the rows that are not pending. -/
theorem Claims.spares (claiming : Claims policy queue table token now claimed next) {key : Key}
    (spared : ∀ row, table.get key = some row → queue.selects key = true → row.state ≠ .pending) :
    next.get key = table.get key := by
  have cleared : (swept policy queue table now).get key = table.get key := by
    apply get_rewrite_spared
    intro row found
    have named : row.key = key := Table.key_of_get found
    by_cases selected : queue.selects key = true
    · simp [DeliveryColumns.abandoned, spared row found selected]
    · simp [named, selected]
  have other : ∀ row ∈ (swept policy queue table now).rows, queue.selects row.key = true →
      row.claimable policy now = true → ∀ set : DeliveryColumns → DeliveryColumns,
      (rewrite (swept policy queue table now) (fun other => other.key = row.key) set).get key =
        table.get key := by
    intro row member selected due set
    rw [← cleared]
    apply get_rewrite_spared
    intro held found
    have named : held.key = key := Table.key_of_get found
    by_contra same
    have same : held.key = row.key := by simpa using same
    have identical : held = row := Table.eq_of_key (Table.mem_of_get found) member same
    rw [cleared] at found
    refine spared held found ?_ ?_
    · rw [← named, same]
      exact selected
    · rw [identical]
      exact (claimable_pending due).1
  cases claiming with
  | nothing => exact cleared
  | quarantined row member selected due => exact other row member selected due _
  | leased row event present member selected due decoded => exact other row member selected due _

end Claims

/-- No row comes, goes or is settled. -/
structure Retained (table next : Deliveries Key Body) : Prop where
  present : ∀ key, next.get key = none ↔ table.get key = none
  settled : ∀ key row, next.get key = some row → row.state = .settled →
    ∃ before, table.get key = some before ∧ before.state = .settled

theorem Retained.trans {first second third : Deliveries Key Body} (earlier : Retained first second)
    (later : Retained second third) : Retained first third where
  present := fun key => (later.present key).trans (earlier.present key)
  settled := by
    intro key row found settled
    obtain ⟨between, held, also⟩ := later.settled key row found settled
    exact earlier.settled key between held also

theorem rewrite_retained (table : Deliveries Key Body) (selects : DeliveryRow Key Body → Bool)
    {set : DeliveryColumns → DeliveryColumns}
    (unsettled : ∀ row, (set row).state = .settled → row.state = .settled) :
    Retained table (rewrite table selects set) where
  present := by
    intro key
    rw [get_rewrite, Option.map_eq_none_iff]
  settled := by
    intro key row found settled
    rw [get_rewrite] at found
    obtain ⟨before, held, same⟩ := Option.map_eq_some_iff.mp found
    refine ⟨before, held, ?_⟩
    subst same
    split at settled
    · exact unsettled _ settled
    · exact settled

theorem Claims.retained {policy : RetryPolicy} {queue : Queue Key Body Event}
    {table next : Deliveries Key Body} {claimed : Claimed Key Event} {token : ID} {now : Int}
    (claiming : Claims policy queue table token now claimed next) : Retained table next := by
  have cleared : Retained table (swept policy queue table now) :=
    rewrite_retained table _ (by simp [DeliveryColumns.sweep])
  cases claiming with
  | nothing => exact cleared
  | quarantined row member selected due =>
    exact cleared.trans (rewrite_retained _ _ (by simp [DeliveryColumns.quarantine]))
  | leased row event present member selected due decoded =>
    exact cleared.trans (rewrite_retained _ _ (by simp [DeliveryColumns.claim]))

/-- Every row was there before with the same body, and no row took a lease but `token`. -/
def Descends (token : Option ID) (table next : Deliveries Key Body) : Prop :=
  ∀ key row, next.get key = some row → ∃ before, table.get key = some before ∧
    row.body = before.body ∧ (row.lease = none ∨ row.lease = before.lease ∨ row.lease = token)

theorem Descends.refl (token : Option ID) (table : Deliveries Key Body) :
    Descends token table table :=
  fun _ row found => ⟨row, found, rfl, .inr (.inl rfl)⟩

theorem Descends.trans {token : Option ID} {first second third : Deliveries Key Body}
    (earlier : Descends token first second) (later : Descends token second third) :
    Descends token first third := by
  intro key row found
  obtain ⟨between, held, body, lease⟩ := later key row found
  obtain ⟨before, stood, same, leased⟩ := earlier key between held
  refine ⟨before, stood, body.trans same, ?_⟩
  rcases lease with none | kept | taken
  · exact .inl none
  · rw [kept]
    exact leased
  · exact .inr (.inr taken)

theorem rewrite_descends {token : Option ID} (table : Deliveries Key Body)
    (selects : DeliveryRow Key Body → Bool) {set : DeliveryColumns → DeliveryColumns}
    (leases : ∀ row, (set row).lease = none ∨ (set row).lease = row.lease ∨ (set row).lease = token) :
    Descends token table (rewrite table selects set) := by
  intro key row found
  rw [get_rewrite] at found
  obtain ⟨before, held, same⟩ := Option.map_eq_some_iff.mp found
  refine ⟨before, held, ?_⟩
  subst same
  split
  · exact ⟨rfl, leases _⟩
  · exact ⟨rfl, .inr (.inl rfl)⟩

theorem Claims.descends {policy : RetryPolicy} {queue : Queue Key Body Event}
    {table next : Deliveries Key Body} {claimed : Claimed Key Event} {token : ID} {now : Int}
    (claiming : Claims policy queue table token now claimed next) :
    Descends (some token) table next := by
  have cleared : Descends (some token) table (swept policy queue table now) :=
    rewrite_descends table _ fun _ => .inl rfl
  cases claiming with
  | nothing => exact cleared
  | quarantined row member selected due =>
    exact cleared.trans (rewrite_descends _ _ fun _ => .inl rfl)
  | leased row event present member selected due decoded =>
    exact cleared.trans (rewrite_descends _ _ fun _ => .inr (.inr rfl))

section Finish

variable {policy : RetryPolicy} {table next : Deliveries Key Body} {key : Key} {token : ID}
  {attempt : Nat} {error : Option JsString} {draw : Draw} {now : Int}
  {holds : DeliveryColumns → Bool} {claims : List (Claim Key)}

/-- The row is held under this token, as far as the statement asks. -/
structure Holder (table : Deliveries Key Body) (key : Key) (token : ID)
    (holds : DeliveryColumns → Bool) (row : DeliveryRow Key Body) : Prop where
  found : table.get key = some row
  lease : row.lease = some token
  pending : row.state = .pending
  live : holds row.toDeliveryColumns = true

/-- A finish that succeeds was made by the row's holder, and rewrites that row. -/
theorem finish_inv
    (done : finish policy table key token attempt error draw now holds = .ok next) :
    ∃ row, Holder table key token holds row ∧ next = rewrite table (fun other => other.key = key)
      (.finish (outcome policy attempt error) error (delayMs policy attempt draw error) now) := by
  simp only [finish] at done
  split at done
  · obtain ⟨⟨written, count⟩, write, rest⟩ := bind_ok done
    obtain ⟨rewritten, counted⟩ := update_inv write
    dsimp only at rest
    split at rest
    · rename_i one
      cases pure_eq_ok.mp rest
      obtain ⟨row, member, chosen⟩ := List.countP_pos_iff.mp (by rw [← counted, one]; decide)
      simp only [Bool.and_eq_true, decide_eq_true_eq, beq_iff_eq] at chosen
      obtain ⟨⟨⟨named, leased⟩, pending⟩, live⟩ := chosen
      have found : table.get row.key = some row := Table.get_of_mem member
      rw [named] at found
      refine ⟨row, ⟨found, leased, pending, live⟩, ?_⟩
      rw [rewritten]
      unfold rewrite Table.modify
      congr 1
      apply List.map_congr_left
      intro other present
      by_cases same : other.key = key
      · have identical : other = row := Table.eq_of_key present member (same.trans named.symm)
        simp [identical, named, leased, pending, live]
      · simp [same]
    · simp at rest
  · simp at done

/-- A finish touches only the row of its holder. -/
theorem finish_spares
    (done : finish policy table key token attempt error draw now holds = .ok next) {other : Key}
    (spared : ∀ row, table.get other = some row → other = key → row.lease ≠ some token ∨
      row.state ≠ .pending) : next.get other = table.get other := by
  obtain ⟨row, holder, rfl⟩ := finish_inv done
  apply get_rewrite_spared
  intro held found
  have named : held.key = other := Table.key_of_get found
  by_contra same
  have same : other = key := named.symm.trans (by simpa using same)
  have identical : held = row := by
    rw [same, holder.found] at found
    exact (Option.some.inj found).symm
  rcases spared held found same with unleased | ended
  · exact unleased (identical ▸ holder.lease)
  · exact ended (identical ▸ holder.pending)

/-- Anyone else's finish is refused: the lease is lost. -/
theorem finish_lost (stranger : ∀ row, ¬ Holder table key token holds row) :
    finish policy table key token attempt error draw now holds =
      .error (if fitsInteger (delayMs policy attempt draw error) then conflict "lease_lost"
        else databaseFailed) := by
  have nobody : ∀ row ∈ table.rows, (decide (row.key = key) && decide (row.lease = some token) &&
      row.state == .pending && holds row.toDeliveryColumns) = false := by
    intro row member
    by_contra chosen
    simp only [Bool.not_eq_false, Bool.and_eq_true, decide_eq_true_eq, beq_iff_eq] at chosen
    obtain ⟨⟨⟨named, leased⟩, pending⟩, live⟩ := chosen
    have found : table.get row.key = some row := Table.get_of_mem member
    rw [named] at found
    exact stranger row ⟨found, leased, pending, live⟩
  simp only [finish]
  split
  · rw [update_ok (fun row member selected => by rw [nobody row member] at selected; cases selected),
      ok_bind]
    have none : table.rows.countP (fun row => decide (row.key = key) &&
        decide (row.lease = some token) && row.state == .pending && holds row.toDeliveryColumns) = 0 :=
      List.countP_eq_zero.mpr fun row member => by simp [nobody row member]
    dsimp only
    rw [none]
    rfl
  · rfl

/-- No CHECK ever fails a finish. -/
theorem finish_ok {policy : RetryPolicy} (few : policy.maxAttempts ≤ 100)
    (within : WithinBudget policy.maxAttempts table)
    (fits : fitsInteger (delayMs policy attempt draw error) = true) :
    (∃ next, finish policy table key token attempt error draw now holds = .ok next) ∨
      finish policy table key token attempt error draw now holds = .error (conflict "lease_lost") := by
  have admitted : ∀ row ∈ table.rows, (row.finish (outcome policy attempt error) error
      (delayMs policy attempt draw error) now).admitted = true := by
    intro row member
    exact (DeliveryColumns.finish_consistent _ _ _ _).admitted ((within row member).bounded.trans few)
  simp only [finish, fits, if_true]
  rw [update_ok fun row member _ => admitted row member, ok_bind]
  dsimp only
  split
  · exact .inl ⟨_, rfl⟩
  · exact .inr rfl

theorem Ledger.finish (ledger : Ledger table claims)
    (done : finish policy table key token attempt error draw now holds = .ok next) :
    Ledger next claims := by
  obtain ⟨row, _, rfl⟩ := finish_inv done
  apply ledger.rewrite
  intro other _ _
  exact ⟨DeliveryColumns.finish_consistent _ _ _ _, rfl⟩

/-- The attempt number a holder reports is the row's own, so an exhausted row is
not put back. -/
theorem WithinBudget.finish {policy : RetryPolicy} (within : WithinBudget policy.maxAttempts table)
    (ledger : Ledger table claims)
    (mine : ∀ claim ∈ claims, claim.token = token → claim.attempt = attempt)
    (done : finish policy table key token attempt error draw now holds = .ok next) :
    WithinBudget policy.maxAttempts next := by
  obtain ⟨row, holder, rfl⟩ := finish_inv done
  have member := Table.mem_of_get holder.found
  have named : row.key = key := Table.key_of_get holder.found
  have recent := ledger.held row member token holder.lease
  have attempts : row.attempts = attempt := mine _ (mem_of_latest recent) rfl
  apply within.rewrite
  intro other present same
  have identical : other = row :=
    Table.eq_of_key present member ((of_decide_eq_true same).trans named.symm)
  subst identical
  refine ⟨(within other present).bounded, ?_⟩
  intro pending all
  have spent : exhausted policy attempt = true := by
    rw [← attempts]
    exact decide_eq_true (Nat.le_of_eq all.symm)
  simp only [DeliveryColumns.finish, outcome, spent, if_true] at pending
  split at pending <;> cases pending

theorem finish_descends
    (done : finish policy table key token attempt error draw now holds = .ok next) :
    Descends none table next := by
  obtain ⟨row, holder, rfl⟩ := finish_inv done
  exact rewrite_descends _ _ fun _ => .inl rfl

end Finish

section Requeue

variable {table next : Deliveries Key Body} {selects : Key → Bool} {now : Int} {count : Nat}
  {claims : List (Claim Key)}

theorem Ledger.requeue (ledger : Ledger table claims)
    (done : requeue table selects now = .ok (next, count)) : Ledger next claims := by
  rw [(update_inv done).1]
  apply ledger.rewrite
  intro row member selected
  have dead : row.state = .dead := by simpa using (Bool.and_eq_true_iff.mp selected).2
  have consistent := ledger.consistent row member
  exact ⟨consistent.requeue now, consistent.idle (by rw [dead]; decide)⟩

omit [DecidableEq Key] in
theorem requeue_ok (consistent : ∀ row ∈ table.rows, row.Consistent) (selects : Key → Bool)
    (now : Int) : ∃ next count, requeue table selects now = .ok (next, count) := by
  refine ⟨_, _, update_ok fun row member _ => ?_⟩
  exact ((consistent row member).requeue now).admitted (Nat.zero_le 100)

omit [DecidableEq Key] in
theorem WithinBudget.requeue {maxAttempts : Nat} (some : 1 ≤ maxAttempts)
    (within : WithinBudget maxAttempts table) (done : requeue table selects now = .ok (next, count)) :
    WithinBudget maxAttempts next := by
  rw [(update_inv done).1]
  apply within.rewrite
  intro row _ _
  exact DeliveryColumns.requeue_budgeted now some

/-- A requeue touches only dead rows it selects. -/
theorem requeue_spares (done : requeue table selects now = .ok (next, count)) {key : Key}
    (spared : ∀ row, table.get key = some row → selects key = true → row.state ≠ .dead) :
    next.get key = table.get key := by
  rw [(update_inv done).1]
  apply get_rewrite_spared
  intro row found
  have named : row.key = key := Table.key_of_get found
  by_cases selected : selects key = true
  · simp [spared row found selected]
  · simp [named, selected]

theorem requeue_retained (done : requeue table selects now = .ok (next, count)) :
    Retained table next := by
  rw [(update_inv done).1]
  exact rewrite_retained table _ (by simp [DeliveryColumns.requeue])

theorem requeue_descends (done : requeue table selects now = .ok (next, count)) :
    Descends none table next := by
  rw [(update_inv done).1]
  exact rewrite_descends table _ fun _ => .inr (.inl rfl)

end Requeue

inductive TokenUse where
  | unused
  | holding (attempt : Nat)
  | spent

structure Tokens (claims : List (Claim Key)) (use : ID → TokenUse) : Prop where
  unused : ∀ token, use token = .unused → ∀ claim ∈ claims, claim.token ≠ token
  holding : ∀ token attempt, use token = .holding attempt →
    ∀ claim ∈ claims, claim.token = token → claim.attempt = attempt

namespace Tokens

variable {claims : List (Claim Key)} {use : ID → TokenUse}

omit [DecidableEq Key] in
/-- A holder goes on with what it holds, or lets go. -/
theorem move (tokens : Tokens claims use) {token : ID} {next : TokenUse}
    (goes : next = use token ∨ next = .spent) : Tokens claims (Function.update use token next) := by
  rcases goes with same | spent
  · rw [same, Function.update_eq_self]
    exact tokens
  · subst spent
    refine ⟨?_, ?_⟩
    · intro other unused
      by_cases same : other = token
      · subst same
        rw [Function.update_self] at unused
        cases unused
      · rw [Function.update_of_ne same] at unused
        exact tokens.unused other unused
    · intro other attempt holding
      by_cases same : other = token
      · subst same
        rw [Function.update_self] at holding
        cases holding
      · rw [Function.update_of_ne same] at holding
        exact tokens.holding other attempt holding

omit [DecidableEq Key] in
/-- An unused token makes its claim. -/
theorem claim (tokens : Tokens claims use) {token : ID} (unused : use token = .unused) (key : Key)
    (attempt : Nat) :
    Tokens (claims ++ [⟨key, token, attempt⟩]) (Function.update use token (.holding attempt)) := by
  refine ⟨?_, ?_⟩
  · intro other still claim member
    by_cases same : other = token
    · subst same
      rw [Function.update_self] at still
      cases still
    · rw [Function.update_of_ne same] at still
      rcases List.mem_append.mp member with before | new
      · exact tokens.unused other still claim before
      · rw [List.mem_singleton.mp new]
        exact Ne.symm same
  · intro other held holding claim member named
    by_cases same : other = token
    · subst same
      rw [Function.update_self] at holding
      cases holding
      rcases List.mem_append.mp member with before | new
      · exact absurd named (tokens.unused other unused claim before)
      · rw [List.mem_singleton.mp new]
    · rw [Function.update_of_ne same] at holding
      rcases List.mem_append.mp member with before | new
      · exact tokens.holding other held holding claim before named
      · rw [List.mem_singleton.mp new] at named
        exact absurd named.symm same

end Tokens

/-- The use a claim makes of its token. -/
def Claimed.use : Claimed Key Event → TokenUse
  | .leased _ _ attempt => .holding attempt
  | _ => .spent

omit [DecidableEq Key] in
theorem Tokens.claimed {claims : List (Claim Key)} {use : ID → TokenUse} (tokens : Tokens claims use)
    {token : ID} (unused : use token = .unused) (claimed : Claimed Key Event) :
    Tokens (claims ++ claimed.entries token) (Function.update use token claimed.use) := by
  cases claimed with
  | leased key event attempt => exact tokens.claim unused key attempt
  | nothing =>
    simp only [Claimed.entries, List.append_nil]
    exact tokens.move (.inr rfl)
  | quarantined key attempt =>
    simp only [Claimed.entries, List.append_nil]
    exact tokens.move (.inr rfl)

/-- What a delivery row never stops satisfying. -/
structure DeliveryColumns.Sound (maxAttempts : Nat) (row : DeliveryColumns) : Prop where
  leased : row.lease = none ↔ row.leaseUntil = none
  idle : row.state ≠ .pending → row.lease = none
  finished : row.finishedAt = none ↔ row.state = .pending
  bounded : row.attempts ≤ maxAttempts
  admitted : row.admitted = true
  attended : row.state = .pending → row.attempts = maxAttempts → row.lease ≠ none

theorem Ledger.sound {maxAttempts : Nat} (few : maxAttempts ≤ 100) {table : Deliveries Key Body}
    {claims : List (Claim Key)} (ledger : Ledger table claims)
    (within : WithinBudget maxAttempts table) :
    ∀ row ∈ table.rows, row.Sound maxAttempts := by
  intro row member
  have consistent := ledger.consistent row member
  have budgeted := within row member
  exact ⟨consistent.leased, consistent.idle, consistent.finished, budgeted.bounded,
    consistent.admitted (budgeted.bounded.trans few), budgeted.attended⟩

/-- A table in good order: its rows are, no CHECK fails a statement on it, and a row
on its last attempt ends with its holder's finish or with the first claim after
the lease. -/
structure SoundTable (policy : RetryPolicy) (queue : Queue Key Body Event)
    (table : Deliveries Key Body) (use : ID → TokenUse) (now : Int) : Prop where
  rows : ∀ row ∈ table.rows, row.Sound policy.maxAttempts
  claims : ∀ token, ∃ claimed next, claim policy queue table token now = .ok (claimed, next) ∧
    ∀ row ∈ table.rows, queue.selects row.key = true → row.state = .pending →
      row.attempts = policy.maxAttempts → row.unleased now = true →
      ∃ after, next.get row.key = some after ∧ after.state = .dead
  finishes : ∀ key token attempt error draw holds,
    fitsInteger (delayMs policy attempt draw error) = true →
    (∃ next, finish policy table key token attempt error draw now holds = .ok next) ∨
      finish policy table key token attempt error draw now holds = .error (conflict "lease_lost")
  ends : ∀ key token attempt error draw holds next before, use token = .holding attempt →
    finish policy table key token attempt error draw now holds = .ok next →
    table.get key = some before → before.attempts = policy.maxAttempts →
    ∃ after, next.get key = some after ∧ after.state ≠ .pending
  requeues : ∀ selects, ∃ next count, requeue table selects now = .ok (next, count)

theorem Ledger.soundTable {policy : RetryPolicy} (few : policy.maxAttempts ≤ 100)
    {table : Deliveries Key Body} {claims : List (Claim Key)} {use : ID → TokenUse}
    (ledger : Ledger table claims) (within : WithinBudget policy.maxAttempts table)
    (tokens : Tokens claims use) (queue : Queue Key Body Event) (now : Int) :
    SoundTable policy queue table use now where
  rows := ledger.sound few within
  claims := by
    intro token
    obtain ⟨claimed, next, done⟩ := claim_ok few ledger within queue token now
    refine ⟨claimed, next, done, ?_⟩
    intro row member selected pending all unleased
    apply (claim_inv done).buries member selected
    simp [DeliveryColumns.abandoned, pending, all, unleased]
  finishes := fun key token attempt error draw holds fits => finish_ok few within fits
  ends := by
    intro key token attempt error draw holds next before held done found all
    have bounded := within.finish ledger (tokens.holding token attempt held) done
    obtain ⟨_, _, rfl⟩ := finish_inv done
    have named : before.key = key := Table.key_of_get found
    have written := get_rewrite table (fun other => other.key = key)
      (.finish (outcome policy attempt error) error (delayMs policy attempt draw error) now) key
    rw [found, Option.map_some, if_pos (decide_eq_true named)] at written
    refine ⟨_, written, ?_⟩
    intro pending
    exact (bounded _ (Table.mem_of_get written)).attended pending all rfl
  requeues := fun selects => requeue_ok ledger.consistent selects now

end N2FNest.Events
