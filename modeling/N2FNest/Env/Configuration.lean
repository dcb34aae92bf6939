import Mathlib.Data.List.Induction
import Mathlib.Data.List.Perm.Basic
import N2FNest.Env.Reader

/-! What a sequence of reads comes to: all of the configuration or none of it. -/

namespace N2FNest.Env

open Lib Shared

/-- The text of a key, if it has a source: none or a text. -/
def found? : JsValue → Option (Option JsString)
  | .undefined => some none
  | .string text => some (some text)
  | _ => none

/-- What a call alone resolves to: its value, and what the manifest says of it. -/
def Call.resolve (lookup : Lookup) (call : Call) : Option (Value × Var) :=
  if call.isDefined = true ∧ validKey call.key = true then
    (found? (lookup call.key)).bind fun found => match call.settle found with
      | .error _ => none
      | .ok (value, text) =>
        some (value, ⟨call.key, text, if found.isSome then .environment else .default, call.isSecret⟩)
  else none

/-- A value is one that the call may return. -/
def Call.Fits : Call → Value → Prop
  | .required _, .text text | .secret _, .secret text => text.length ≠ 0
  | .int _ _ least most, .number value => ∃ low high, safeInt? least = some low ∧
      safeInt? most = some high ∧ low ≤ value ∧ value ≤ high
  | .enumeration _ _ allowed, .text text => text ∈ allowed
  | .string _ _, .text _ | .boolean _ _, .flag _ => True
  | _, _ => False

theorem Call.settle_fits {call : Call} {found : Option JsString} {value : Value} {text : JsString}
    (settled : call.settle found = .ok (value, text)) : call.Fits value := by
  cases call with
  | string key fallback =>
    cases settled
    trivial
  | required key | secret key =>
    cases found with
    | none => cases settled
    | some own =>
      simp only [Call.settle] at settled
      split at settled
      · cases settled
      · rename_i filled
        cases settled
        exact filled
  | int key fallback least most =>
    simp only [Call.settle] at settled
    split at settled
    · rename_i number low high _ lower upper
      split at settled
      · cases settled
      · rename_i inside
        cases settled
        obtain ⟨above, below⟩ := not_or.mp inside
        exact ⟨low, high, lower, upper, Int.not_lt.mp above, Int.not_lt.mp below⟩
    · cases settled
  | boolean key fallback =>
    cases found with
    | none =>
      cases settled
      trivial
    | some own =>
      simp only [Call.settle] at settled
      split at settled
      · cases settled
        trivial
      · split at settled
        · cases settled
          trivial
        · cases settled
  | enumeration key fallback allowed =>
    simp only [Call.settle] at settled
    split at settled
    · rename_i member
      cases settled
      exact List.contains_iff_mem.mp member
    · cases settled

theorem Call.resolve_fits {lookup : Lookup} {call : Call} {value : Value} {entry : Var}
    (resolved : call.resolve lookup = some (value, entry)) :
    call.Fits value ∧ entry.key = call.key := by
  unfold Call.resolve at resolved
  split at resolved
  · obtain ⟨found, -, settled⟩ := Option.bind_eq_some_iff.mp resolved
    split at settled
    · cases settled
    · rename_i settled
      cases settled
      exact ⟨Call.settle_fits settled, rfl⟩
  · cases resolved

namespace Reader

variable {lookup : Lookup} {reader : Reader}

theorem problem_ne_nil (reader : Reader) (key : JsString) (reason : String) :
    (reader.problem key reason).problems ≠ [] := by
  unfold problem
  generalize (if validKey key = true then key else js "<key>") = name
  dsimp only
  split
  · rename_i known
    intro none
    rw [List.map_eq_nil_iff.mp none] at known
    cases known
  · exact List.append_ne_nil_of_right_ne_nil _ (List.cons_ne_nil _ _)

theorem read_found {key : JsString} {found : Option JsString} (valid : validKey key = true)
    (fresh : key ∉ reader.seen) (source : found? (lookup key) = some found) :
    reader.read lookup key = ({ reader with seen := reader.seen ++ [key] }, some found) := by
  unfold read
  rw [if_neg (by simp [valid]), if_neg fresh]
  cases held : lookup key with
  | undefined =>
    rw [held] at source
    cases source
    rfl
  | string text =>
    rw [held] at source
    cases source
    rfl
  | _ =>
    rw [held] at source
    cases source

theorem read_lost {key : JsString}
    (lost : validKey key = false ∨ key ∈ reader.seen ∨ found? (lookup key) = none) :
    ∃ next, reader.read lookup key = (next, none) ∧ next.problems ≠ [] := by
  unfold read
  by_cases bad : validKey key = false
  · exact ⟨_, if_pos bad, problem_ne_nil _ _ _⟩
  rw [if_neg bad]
  by_cases again : key ∈ reader.seen
  · exact ⟨_, if_pos again, problem_ne_nil _ _ _⟩
  rw [if_neg again]
  have none := (lost.resolve_left bad).resolve_left again
  cases held : lookup key with
  | undefined =>
    rw [held] at none
    cases none
  | string text =>
    rw [held] at none
    cases none
  | _ => exact ⟨_, rfl, problem_ne_nil _ _ _⟩

/-- A call that resolves leaves what it resolves to. -/
theorem call_resolved {call : Call} {value : Value} {entry : Var}
    (resolved : call.resolve lookup = some (value, entry)) (fresh : call.key ∉ reader.seen) :
    reader.call lookup call =
      (⟨reader.seen ++ [call.key], reader.problems, reader.resolved ++ [entry]⟩, value) := by
  unfold Call.resolve at resolved
  split at resolved
  · rename_i sound
    obtain ⟨found, source, settled⟩ := Option.bind_eq_some_iff.mp resolved
    unfold Reader.call
    rw [if_neg (by simp [sound.1]), read_found sound.2 fresh source]
    dsimp only
    cases settles : call.settle found with
    | error reason =>
      rw [settles] at settled
      cases settled
    | ok result =>
      rw [settles] at settled
      cases settled
      rfl
  · cases resolved

/-- Any other call leaves a problem. -/
theorem call_problem {call : Call}
    (fails : call.resolve lookup = none ∨ call.key ∈ reader.seen) :
    (reader.call lookup call).1.problems ≠ [] := by
  unfold Reader.call
  by_cases bad : call.isDefined = false
  · rw [if_pos bad]
    exact problem_ne_nil _ _ _
  rw [if_neg bad]
  have sound := Bool.of_not_eq_false bad
  by_cases lost : validKey call.key = false ∨ call.key ∈ reader.seen ∨ found? (lookup call.key) = none
  · obtain ⟨next, same, problems⟩ := read_lost lost
    rw [same]
    exact problems
  · obtain ⟨valid, lost⟩ := not_or.mp lost
    obtain ⟨fresh, source⟩ := not_or.mp lost
    have valid := Bool.of_not_eq_false valid
    obtain ⟨found, source⟩ := Option.ne_none_iff_exists'.mp source
    rw [read_found valid fresh source]
    have unresolved := fails.resolve_right fresh
    rw [Call.resolve, if_pos ⟨sound, valid⟩, source, Option.bind_some] at unresolved
    dsimp only
    cases settled : call.settle found with
    | error reason => exact problem_ne_nil _ _ _
    | ok result =>
      rw [settled] at unresolved
      cases unresolved

/-- Problems are never taken back. -/
theorem call_keeps {call : Call} (problems : reader.problems ≠ []) :
    (reader.call lookup call).1.problems ≠ [] := by
  by_cases fails : call.resolve lookup = none ∨ call.key ∈ reader.seen
  · exact call_problem fails
  · obtain ⟨resolves, fresh⟩ := not_or.mp fails
    obtain ⟨⟨value, entry⟩, resolved⟩ := Option.ne_none_iff_exists'.mp resolves
    rw [call_resolved resolved fresh]
    exact problems

/-- What a read of a secret can tell of its text: whether it is there, and whether it is empty. -/
def shape (held : JsValue) : Option (Option Bool) :=
  (found? held).map (Option.map fun text => decide (text.length = 0))

/-- Two environments tell a call the same, but for the text of a secret. -/
def Alike (lookup other : Lookup) (call : Call) : Prop :=
  if call.isSecret then shape (lookup call.key) = shape (other call.key)
  else lookup call.key = other call.key

private theorem settle_secret {call : Call} (secret : call.isSecret = true) {first second : JsString}
    (same : decide (first.length = 0) = decide (second.length = 0)) :
    (∃ reason, call.settle (some first) = .error reason ∧ call.settle (some second) = .error reason) ∨
    ∃ value value' text, call.settle (some first) = .ok (value, text) ∧
      call.settle (some second) = .ok (value', text) := by
  cases call with
  | secret key =>
    by_cases nothing : first.length = 0
    · have other : second.length = 0 := by simpa [nothing] using same
      exact .inl ⟨_, if_pos nothing, if_pos other⟩
    · have other : second.length ≠ 0 := by simpa [nothing] using same
      exact .inr ⟨_, _, _, if_neg nothing, if_neg other⟩
  | _ => cases secret

theorem call_alike {other : Lookup} {call : Call} (alike : Alike lookup other call) :
    (reader.call lookup call).1 = (reader.call other call).1 := by
  unfold Alike at alike
  split at alike
  · rename_i secret
    unfold Reader.call Reader.read
    by_cases undefined : call.isDefined = false
    · rw [if_pos undefined, if_pos undefined]
    by_cases bad : validKey call.key = false
    · rw [if_pos bad, if_pos bad]
    by_cases again : call.key ∈ reader.seen
    · rw [if_neg bad, if_neg bad, if_pos again, if_pos again]
    rw [if_neg undefined, if_neg undefined, if_neg bad, if_neg bad, if_neg again, if_neg again]
    generalize lookup call.key = first, other call.key = second at alike ⊢
    cases first <;> cases second <;> first | rfl | cases alike | skip
    have same := Option.some.inj (Option.some.inj alike)
    dsimp only
    rcases settle_secret secret same with ⟨reason, first, second⟩ | ⟨value, value', text, first, second⟩
    · rw [first, second]
    · rw [first, second]
      rfl
  · rw [Reader.call, Reader.call, read, read, alike]

end Reader

variable {lookup : Lookup}

theorem readAll_concat (calls : List Call) (call : Call) :
    readAll lookup (calls ++ [call]) = (((readAll lookup calls).1.call lookup call).1,
      (readAll lookup calls).2 ++ [((readAll lookup calls).1.call lookup call).2]) := by
  rw [readAll, run_append, run_cons, run_nil]
  rfl

/-- What the calls resolve to, where they all do. -/
structure Resolved (lookup : Lookup) (calls : List Call) (state : Reader × List Value) : Prop where
  seen : state.1.seen = calls.map Call.key
  entries : state.1.resolved.map some = calls.map fun call => (call.resolve lookup).map Prod.snd
  values : state.2.map some = calls.map fun call => (call.resolve lookup).map Prod.fst

theorem readAll_clean (calls : List Call) :
    ((readAll lookup calls).1.problems = [] ↔
      (calls.map Call.key).Nodup ∧ ∀ call ∈ calls, call.resolve lookup ≠ none) ∧
    ((readAll lookup calls).1.problems = [] → Resolved lookup calls (readAll lookup calls)) := by
  induction calls using List.reverseRecOn with
  | nil =>
    refine ⟨iff_of_true rfl ⟨List.nodup_nil, fun call member => absurd member List.not_mem_nil⟩, ?_⟩
    exact fun _ => ⟨rfl, rfl, rfl⟩
  | append_singleton calls call ih =>
    obtain ⟨whole, resolved⟩ := ih
    have split : ((calls ++ [call]).map Call.key).Nodup ∧
        (∀ other ∈ calls ++ [call], other.resolve lookup ≠ none) ↔
        ((calls.map Call.key).Nodup ∧ ∀ other ∈ calls, other.resolve lookup ≠ none) ∧
          call.key ∉ calls.map Call.key ∧ call.resolve lookup ≠ none := by
      rw [List.map_append, List.map_singleton, ← List.concat_eq_append, List.nodup_concat,
        List.forall_mem_append, List.forall_mem_singleton]
      tauto
    rw [readAll_concat, split, ← whole]
    by_cases clean : (readAll lookup calls).1.problems = []
    · obtain ⟨seen, entries, values⟩ := resolved clean
      by_cases fails : call.resolve lookup = none ∨ call.key ∈ (readAll lookup calls).1.seen
      · have problems := Reader.call_problem fails
        refine ⟨iff_of_false problems ?_, fun clean => absurd clean problems⟩
        rintro ⟨-, fresh, resolves⟩
        rw [← seen] at fresh
        exact fails.elim resolves fresh
      · obtain ⟨resolves, fresh⟩ := not_or.mp fails
        obtain ⟨⟨value, entry⟩, settled⟩ := Option.ne_none_iff_exists'.mp resolves
        rw [Reader.call_resolved settled fresh]
        rw [seen] at fresh
        refine ⟨iff_of_true clean ⟨clean, fresh, resolves⟩, fun _ => ⟨?_, ?_, ?_⟩⟩
        · rw [List.map_append, ← seen, List.map_singleton]
        · rw [List.map_append, List.map_append, entries, List.map_singleton, List.map_singleton, settled]
          rfl
        · rw [List.map_append, List.map_append, values, List.map_singleton, List.map_singleton, settled]
          rfl
    · have problems : ((readAll lookup calls).1.call lookup call).1.problems ≠ [] :=
        Reader.call_keeps clean
      exact ⟨iff_of_false problems fun both => clean both.1, fun clean => absurd clean problems⟩

theorem readAll_alike {other : Lookup} {calls : List Call}
    (alike : ∀ call ∈ calls, Reader.Alike lookup other call) :
    (readAll lookup calls).1 = (readAll other calls).1 := by
  induction calls using List.reverseRecOn with
  | nil => rfl
  | append_singleton calls call ih =>
    obtain ⟨before, last⟩ := List.forall_mem_append.mp alike
    rw [readAll_concat, readAll_concat, ← ih before]
    exact Reader.call_alike (List.forall_mem_singleton.mp last)

theorem check_ok (reader : Reader) : reader.check = .ok () ↔ reader.problems = [] := by
  unfold Reader.check
  cases reader.problems with
  | nil => exact iff_of_true rfl rfl
  | cons problem rest => exact iff_of_false (by rintro ⟨⟩) (List.cons_ne_nil _ _)

private theorem ordered_keys (entries : List Var) (distinct : (entries.map Var.key).Nodup) :
    (entries.mergeSort fun left right => !Pagination.precedes right.key left.key).Pairwise
      fun left right => Pagination.precedes left.key right.key = true := by
  have total : ∀ left right : Var, (!Pagination.precedes right.key left.key ||
      !Pagination.precedes left.key right.key) = true := by
    intro left right
    simp only [Pagination.precedes, Bool.or_eq_true, Bool.not_eq_true', decide_eq_false_iff_not, not_lt]
    exact le_total _ _
  have transitive : ∀ left middle right : Var, (!Pagination.precedes middle.key left.key) = true →
      (!Pagination.precedes right.key middle.key) = true →
      (!Pagination.precedes right.key left.key) = true := by
    intro left middle right
    simp only [Pagination.precedes, Bool.not_eq_true', decide_eq_false_iff_not, not_lt]
    exact le_trans
  have sorted := List.pairwise_mergeSort transitive total entries
  have apart : ((entries.mergeSort fun left right =>
      !Pagination.precedes right.key left.key).map Var.key).Nodup :=
    ((List.mergeSort_perm ..).map _).nodup_iff.mpr distinct
  refine (sorted.and (List.pairwise_map.mp apart)).imp fun {left right} both => ?_
  obtain ⟨upward, different⟩ := both
  simp only [Pagination.precedes, Bool.not_eq_true', decide_eq_false_iff_not, not_lt,
    decide_eq_true_eq] at upward ⊢
  refine lt_of_le_of_ne upward fun same => different ?_
  exact congrArg JsString.mk (List.map_injective_iff.mpr (fun _ _ => UInt16.toNat_inj.mp) same)

/-- The reads of a configuration succeed as a whole exactly when their keys differ and each of
them resolves alone; then each returned what it resolves to, which its own definition allows, and
the manifest has one entry for each, in the order of their keys. Neither the check nor the
manifest depends on the text of a secret. -/
theorem configuration_whole (lookup : Lookup) (calls : List Call) :
    let state := readAll lookup calls
    (state.1.check = .ok () ↔
      (calls.map Call.key).Nodup ∧ ∀ call ∈ calls, call.resolve lookup ≠ none) ∧
    (state.1.check = .ok () →
      (state.2.map some = calls.map fun call => (call.resolve lookup).map Prod.fst) ∧
      (∀ (index : Nat) (call : Call) (value : Value), calls[index]? = some call →
        state.2[index]? = some value → call.Fits value) ∧
      ∃ entries, state.1.manifest = .ok entries ∧
        (entries.map some).Perm (calls.map fun call => (call.resolve lookup).map Prod.snd) ∧
        entries.Pairwise fun left right => Pagination.precedes left.key right.key = true) ∧
    ∀ other, (∀ call ∈ calls, Reader.Alike lookup other call) →
      (readAll other calls).1.check = state.1.check ∧
      (readAll other calls).1.manifest = state.1.manifest := by
  intro state
  obtain ⟨whole, resolved⟩ : (state.1.problems = [] ↔ _) ∧
      (state.1.problems = [] → Resolved lookup calls state) := readAll_clean calls
  refine ⟨(check_ok _).trans whole, fun checked => ?_, fun other alike => ?_⟩
  · have clean := (check_ok _).mp checked
    obtain ⟨-, entries, values⟩ := resolved clean
    refine ⟨values, fun index call value made returned => ?_, ?_⟩
    · have same := congrArg (fun items => items[index]?) values
      simp only [List.getElem?_map, made, Option.map_some] at same
      rw [show (readAll lookup calls).2[index]? = some value from returned] at same
      obtain ⟨⟨value, entry⟩, settled, rfl⟩ := Option.map_eq_some_iff.mp (Option.some.inj same).symm
      exact (Call.resolve_fits settled).1
    · refine ⟨_, ?_, ?_, ordered_keys state.1.resolved ?_⟩
      · rw [Reader.manifest, checked]
        rfl
      · rw [← entries]
        exact (List.mergeSort_perm ..).map some
      · have keys : (state.1.resolved.map Var.key).map some = (calls.map Call.key).map some := by
          have keyed : ∀ call ∈ calls, (call.resolve lookup).map (fun result => result.2.key) =
              some call.key := by
            intro call member
            obtain ⟨⟨value, entry⟩, settled⟩ :=
              Option.ne_none_iff_exists'.mp ((whole.mp clean).2 call member)
            rw [settled]
            exact congrArg some (Call.resolve_fits settled).2
          have mapped := congrArg (List.map (Option.map Var.key)) entries
          rw [List.map_map, List.map_map] at mapped
          rw [List.map_map, List.map_map]
          refine mapped.trans (List.map_congr_left fun call member => ?_)
          rw [Function.comp_apply, Option.map_map]
          exact keyed call member
        have same := List.map_injective_iff.mpr (Option.some_injective _) keys
        rw [same]
        exact (whole.mp clean).1
  · have same := readAll_alike alike
    rw [← same]
    exact ⟨rfl, rfl⟩

end N2FNest.Env
