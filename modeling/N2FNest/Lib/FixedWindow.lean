import Mathlib.Algebra.Order.Ring.Int
import Mathlib.Data.List.Basic

/-! Counting arrivals in windows of fixed width, and counters that may forget
every window no later arrival falls into. -/

namespace N2FNest.Lib.FixedWindow

universe u v w x

variable {Bucket : Type u} {Store : Type v} {Reply : Type w} {Input : Type x}

structure Arrival (Bucket : Type u) where
  bucket : Bucket
  time : Int

/-- The start of the window `time` falls into. -/
def start (width time : Int) : Int := time / width * width

theorem start_le {width : Int} (positive : 0 < width) (time : Int) : start width time ≤ time :=
  Int.ediv_mul_le time positive.ne'

theorem lt_start_add {width : Int} (positive : 0 < width) (time : Int) :
    time < start width time + width := by
  have bound := Int.lt_ediv_add_one_mul_self time positive
  rw [Int.add_mul, Int.one_mul] at bound
  exact bound

/-- A later window starts after every time of an earlier one. -/
theorem lt_start {width time later : Int} (positive : 0 < width) (ordered : time ≤ later)
    (other : start width later ≠ start width time) : time < start width later := by
  have quotients : time / width ≤ later / width := Int.ediv_le_ediv positive ordered
  have distinct : later / width ≠ time / width := fun same => other (congrArg (· * width) same)
  have step : time / width + 1 ≤ later / width := by omega
  calc time < (time / width + 1) * width := Int.lt_ediv_add_one_mul_self time positive
    _ ≤ later / width * width := Int.mul_le_mul_of_nonneg_right step positive.le

variable [DecidableEq Bucket] (width : Bucket → Int)

/-- The arrivals of a bucket in the window from `first` on. -/
def count (history : List (Arrival Bucket)) (bucket : Bucket) (first : Int) : Nat :=
  history.countP fun arrival =>
    arrival.bucket = bucket ∧ start (width arrival.bucket) arrival.time = first

theorem count_concat (history : List (Arrival Bucket)) (arrival : Arrival Bucket) (bucket : Bucket)
    (first : Int) : count width (history ++ [arrival]) bucket first = count width history bucket first +
      if arrival.bucket = bucket ∧ start (width arrival.bucket) arrival.time = first then 1 else 0 := by
  rw [count, List.countP_append, List.countP_singleton]
  simp only [decide_eq_true_eq]
  rfl

theorem count_le (history : List (Arrival Bucket)) (bucket : Bucket) (first : Int) :
    count width history bucket first ≤ history.length := List.countP_le_length

/-- No arrival so far is in a window that starts later. -/
theorem count_future {history : List (Arrival Bucket)} {time first : Int} {bucket : Bucket}
    (positive : ∀ bucket, 0 < width bucket) (past : ∀ arrival ∈ history, arrival.time ≤ time)
    (future : time < first) : count width history bucket first = 0 := by
  apply List.countP_eq_zero.mpr
  intro arrival member found
  obtain ⟨_, same⟩ := of_decide_eq_true found
  have before := start_le (positive arrival.bucket) arrival.time
  have bound := past arrival member
  omega

/-- `held` knows the whole history of every window that an arrival from `time` on
can fall into. -/
structure Covers (held : Bucket → Int → Nat) (history : List (Arrival Bucket)) (time : Int) :
    Prop where
  past : ∀ arrival ∈ history, arrival.time ≤ time
  counted : ∀ bucket later, time ≤ later →
    held bucket (start (width bucket) later) = count width history bucket (start (width bucket) later)

theorem Covers.empty (time : Int) : Covers width (fun _ _ => 0) [] time where
  past := by simp
  counted _ _ _ := rfl

variable {width}

/-- Counting an arrival and keeping the other windows still to come keeps the history known. -/
theorem Covers.arrive {held after : Bucket → Int → Nat} {history : List (Arrival Bucket)} {time : Int}
    (arrival : Arrival Bucket) (covers : Covers width held history time)
    (ordered : time ≤ arrival.time)
    (here : after arrival.bucket (start (width arrival.bucket) arrival.time) =
      held arrival.bucket (start (width arrival.bucket) arrival.time) + 1)
    (others : ∀ bucket later, arrival.time ≤ later →
      ¬(arrival.bucket = bucket ∧
        start (width arrival.bucket) arrival.time = start (width bucket) later) →
      after bucket (start (width bucket) later) = held bucket (start (width bucket) later)) :
    Covers width after (history ++ [arrival]) arrival.time where
  past := by
    intro earlier member
    rcases List.mem_append.mp member with old | new
    · exact (covers.past earlier old).trans ordered
    · rw [List.mem_singleton.mp new]
  counted := by
    intro bucket later reached
    rw [count_concat]
    by_cases same : arrival.bucket = bucket ∧
        start (width arrival.bucket) arrival.time = start (width bucket) later
    · obtain ⟨rfl, window⟩ := same
      rw [if_pos ⟨rfl, window⟩, ← window, here, covers.counted _ _ ordered]
    · rw [if_neg same, others bucket later reached same, Nat.add_zero,
        covers.counted bucket later (ordered.trans reached)]

theorem Covers.later {held : Bucket → Int → Nat} {history : List (Arrival Bucket)} {time last : Int}
    (covers : Covers width held history time) (ordered : time ≤ last) :
    Covers width held history last where
  past arrival member := (covers.past arrival member).trans ordered
  counted bucket later reached := covers.counted bucket later (ordered.trans reached)

/-- The replies of a store to inputs, one after the other, and the store after them. -/
def serve (consume : Store → Input → Reply × Store) : Store → List Input → List Reply × Store
  | store, [] => ([], store)
  | store, input :: rest =>
    ((consume store input).1 :: (serve consume (consume store input).2 rest).1,
      (serve consume (consume store input).2 rest).2)

/-- The replies of a counter over the whole history. -/
def replies (width : Bucket → Int) (reply : Arrival Bucket → Nat → Reply) :
    List (Arrival Bucket) → List (Arrival Bucket) → List Reply
  | _, [] => []
  | history, arrival :: rest =>
    reply arrival (count width (history ++ [arrival]) arrival.bucket
      (start (width arrival.bucket) arrival.time)) :: replies width reply (history ++ [arrival]) rest

/-- A store whose every step replies with the count and keeps the history known
replies as the counter over the whole history, for `most` inputs. -/
theorem serve_eq (consume : Store → Input → Reply × Store) (arrive : Input → Arrival Bucket)
    (reply : Arrival Bucket → Nat → Reply) (held : Store → Bucket → Int → Nat) (most : Nat)
    (step : ∀ store history time input, Covers width (held store) history time →
      time ≤ (arrive input).time → history.length < most →
      (consume store input).1 = reply (arrive input) (count width (history ++ [arrive input])
        (arrive input).bucket (start (width (arrive input).bucket) (arrive input).time)) ∧
      Covers width (held (consume store input).2) (history ++ [arrive input]) (arrive input).time)
    (store : Store) (history : List (Arrival Bucket)) {time : Int} {inputs : List Input}
    (covers : Covers width (held store) history time)
    (sorted : inputs.Pairwise fun earlier later => (arrive earlier).time ≤ (arrive later).time)
    (ordered : ∀ input ∈ inputs, time ≤ (arrive input).time)
    (few : history.length + inputs.length ≤ most) :
    (serve consume store inputs).1 = replies width reply history (inputs.map arrive) ∧
      ∀ last, time ≤ last → (∀ input ∈ inputs, (arrive input).time ≤ last) →
        Covers width (held (serve consume store inputs).2) (history ++ inputs.map arrive) last := by
  induction inputs generalizing store history time with
  | nil =>
    rw [List.map_nil, List.append_nil]
    exact ⟨rfl, fun last reached _ => covers.later reached⟩
  | cons input rest ih =>
    obtain ⟨first, remaining⟩ := List.pairwise_cons.mp sorted
    rw [List.length_cons] at few
    obtain ⟨answered, kept⟩ :=
      step store history time input covers (ordered input List.mem_cons_self) (by omega)
    have size : (history ++ [arrive input]).length + rest.length ≤ most := by
      rw [List.length_append, List.length_singleton]
      omega
    obtain ⟨same, final⟩ := ih _ _ kept remaining first size
    rw [serve, List.map_cons, replies, answered, same]
    refine ⟨rfl, fun last _ bound => ?_⟩
    obtain ⟨here, later⟩ := List.forall_mem_cons.mp bound
    have known := final last here later
    rw [List.append_assoc, List.singleton_append] at known
    exact known

end N2FNest.Lib.FixedWindow
