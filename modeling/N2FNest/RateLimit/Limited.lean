import N2FNest.RateLimit.Interceptor

/-! What the policies of a handler promise, however its requests interleave: an answer follows
from the decisions on its own request, and no window lets through more requests than its limit. -/

namespace N2FNest.RateLimit

open Lib Shared FixedWindow

section Interceptor

variable {Request : Type} {request : Request}

/-- The answers to policies that all let a request through. -/
inductive Admits (request : Request) : List (HttpRateLimitPolicy Request) →
    List ((op : LimitOp) × op.Answer) → List RateLimitDecision → Prop
  | none : Admits request [] [] []
  | next {policy : HttpRateLimitPolicy Request} {decision : RateLimitDecision}
      {rest : List (HttpRateLimitPolicy Request)} {replies : List ((op : LimitOp) × op.Answer)}
      {decisions : List RateLimitDecision} (allowed : decision.allowed = true)
      (later : Admits request rest replies decisions) :
      Admits request (policy :: rest) (⟨.consume (policy.bucket request), .ok decision⟩ :: replies)
        (decision :: decisions)

theorem Admits.concat {policies : List (HttpRateLimitPolicy Request)}
    {replies : List ((op : LimitOp) × op.Answer)} {decisions : List RateLimitDecision}
    (admits : Admits request policies replies decisions) (policy : HttpRateLimitPolicy Request)
    {decision : RateLimitDecision} (allowed : decision.allowed = true) :
    Admits request (policies ++ [policy])
      (replies ++ [⟨.consume (policy.bucket request), .ok decision⟩]) (decisions ++ [decision]) := by
  induction admits with
  | none => exact .next allowed .none
  | next first later ih => exact .next first ih

/-- The decision with the fewest requests remaining, if there is one. -/
def Tightest (decisions : List RateLimitDecision) : Option RateLimitDecision → Prop
  | none => decisions = []
  | some tightest => tightest ∈ decisions ∧ ∀ other ∈ decisions, tightest.remaining ≤ other.remaining

theorem Tightest.concat {decisions : List RateLimitDecision} {tightest : Option RateLimitDecision}
    (least : Tightest decisions tightest) (decision : RateLimitDecision) :
    Tightest (decisions ++ [decision]) (some (tighter tightest decision)) := by
  cases tightest with
  | none =>
    cases (show decisions = [] from least)
    exact ⟨List.mem_singleton_self _, List.forall_mem_singleton.mpr le_rfl⟩
  | some held =>
    obtain ⟨member, below⟩ := least
    unfold tighter
    dsimp only
    split
    · rename_i less
      refine ⟨List.mem_append_right _ (List.mem_singleton_self _), ?_⟩
      exact List.forall_mem_append.mpr ⟨fun other present => less.le.trans (below other present),
        List.forall_mem_singleton.mpr le_rfl⟩
    · rename_i more
      refine ⟨List.mem_append_left _ member, ?_⟩
      exact List.forall_mem_append.mpr ⟨below, List.forall_mem_singleton.mpr (not_lt.mp more)⟩

/-- An answer and the answers of the store behind it: every policy let the request through, or
the last one asked did not. -/
def Intercepted.Follows (request : Request) (policies : List (HttpRateLimitPolicy Request))
    (replies : List ((op : LimitOp) × op.Answer)) : Intercepted → Prop
  | .handled headers => ∃ decisions tightest, Admits request policies replies decisions ∧
      Tightest decisions tightest ∧ headers = tightest.map writeHeaders
  | .exceeded name headers => ∃ before policy after passed decisions decision,
      policies = before ++ policy :: after ∧ Admits request before passed decisions ∧
      replies = passed ++ [⟨.consume (policy.bucket request), .ok decision⟩] ∧
      decision.allowed = false ∧ name = policy.name ∧ headers = writeHeaders decision
  | .failed error => ∃ before policy after passed decisions,
      policies = before ++ policy :: after ∧ Admits request before passed decisions ∧
      replies = passed ++ [⟨.consume (policy.bucket request), .error error⟩]

theorem consumeEach_follows {before rest : List (HttpRateLimitPolicy Request)}
    {passed replies : List ((op : LimitOp) × op.Answer)} {decisions : List RateLimitDecision}
    {tightest : Option RateLimitDecision} {answer : Intercepted}
    (admits : Admits request before passed decisions) (least : Tightest decisions tightest)
    (reaches : (consumeEach request rest tightest).Reaches replies (.done answer)) :
    answer.Follows request (before ++ rest) (passed ++ replies) := by
  induction rest generalizing before passed replies decisions tightest with
  | nil =>
    cases reaches with
    | here =>
      rw [List.append_nil, List.append_nil]
      exact ⟨decisions, tightest, admits, least, rfl⟩
  | cons policy rest ih =>
    cases reaches with
    | @step op next given replies last onward =>
      cases given with
      | error error =>
        cases onward with
        | here => exact ⟨before, policy, rest, passed, decisions, rfl, admits, rfl⟩
      | ok decision =>
        dsimp only at onward
        split at onward
        · rename_i refused
          cases onward with
          | here => exact ⟨before, policy, rest, passed, decisions, decision, rfl, admits, rfl,
              refused, rfl, rfl⟩
        · rename_i allowed
          have allowed : decision.allowed = true := Bool.not_eq_false _ ▸ allowed
          have further := ih (admits.concat policy allowed) (least.concat decision) onward
          rw [List.append_assoc, List.append_assoc] at further
          exact further

end Interceptor

def LimitOp.bucket : LimitOp → Bucket
  | .consume bucket => bucket

section Entries

variable {Client : Type}

abbrev Entry (Client : Type) := Performed Client Turn LimitOp.Answer

namespace Entry

def arrival (entry : Entry Client) : Arrival Bucket := ⟨entry.op.bucket, entry.input.now⟩

/-- The request as it is counted, unless the store failed before. -/
def counted (entry : Entry Client) : Option (Arrival Bucket) :=
  match entry.input.lost with
  | some (_, false) => none
  | _ => some entry.arrival

def decision? : Entry Client → Option RateLimitDecision
  | ⟨_, _, .consume _, .ok decision⟩ => some decision
  | ⟨_, _, .consume _, .error _⟩ => none

/-- The requests of a window that were counted. -/
def total (log : List (Entry Client)) (bucket : Bucket) (first : Int) : Nat :=
  count Bucket.width (log.filterMap counted) bucket first

/-- A request of a window that was let through. -/
def passes (bucket : Bucket) (first : Int) (entry : Entry Client) : Bool :=
  entry.op.bucket = bucket ∧ start bucket.width entry.input.now = first ∧
    entry.decision?.any RateLimitDecision.allowed

theorem total_concat (log : List (Entry Client)) (entry : Entry Client) (bucket : Bucket)
    (first : Int) : total (log ++ [entry]) bucket first = total log bucket first +
      if entry.counted.isSome = true ∧ entry.op.bucket = bucket ∧
        start bucket.width entry.input.now = first then 1 else 0 := by
  unfold total
  rw [List.filterMap_append]
  cases counts : entry.counted with
  | none => simp [counts]
  | some arrival =>
    have same : arrival = entry.arrival := by
      unfold counted at counts
      split at counts
      · cases counts
      · exact (Option.some.inj counts).symm
    rw [List.filterMap_cons_some counts, List.filterMap_nil, count_concat, same]
    congr 1
    apply if_congr _ rfl rfl
    constructor
    · rintro ⟨rfl, window⟩
      exact ⟨rfl, rfl, window⟩
    · rintro ⟨-, rfl, window⟩
      exact ⟨rfl, window⟩

end Entry

/-- Where all policies let a request through, each of its entries was let through. -/
theorem Admits.allowed {Request : Type} {request : Request}
    {policies : List (HttpRateLimitPolicy Request)} {replies : List ((op : LimitOp) × op.Answer)}
    {decisions : List RateLimitDecision} (admits : Admits request policies replies decisions)
    {entry : Entry Client} (replied : entry.reply ∈ replies) :
    entry.decision?.any RateLimitDecision.allowed = true := by
  induction admits with
  | none => cases replied
  | next allowed later ih =>
    rcases List.mem_cons.mp replied with same | rest
    · obtain ⟨client, turn, ⟨bucket⟩, answer⟩ := entry
      cases same
      exact allowed
    · exact ih rest

/-- Every decision is the one of a counter over the requests counted so far. -/
def Decided (log : List (Entry Client)) : Prop :=
  ∀ before entry after decision, log = before ++ entry :: after → entry.decision? = some decision →
    entry.counted.isSome = true ∧
    decision = referenceDecision entry.arrival (Entry.total before entry.op.bucket
      (start entry.op.bucket.width entry.input.now) + 1)

theorem Decided.before {log rest : List (Entry Client)} (decided : Decided (log ++ rest)) :
    Decided log := by
  intro before entry after decision same made
  refine decided before entry (after ++ rest) decision ?_ made
  rw [same, List.append_assoc, List.cons_append]

/-- A window lets through the requests it counts, up to its limit. -/
theorem Decided.passes_le {log : List (Entry Client)} (decided : Decided log) (bucket : Bucket)
    (first : Int) : log.countP (Entry.passes bucket first) ≤ bucket.rule.limit ∧
      log.countP (Entry.passes bucket first) ≤ Entry.total log bucket first := by
  induction log using List.reverseRecOn with
  | nil => exact ⟨Nat.zero_le _, Nat.zero_le _⟩
  | append_singleton log entry ih =>
    obtain ⟨limited, counted⟩ := ih decided.before
    rw [List.countP_append, List.countP_singleton, Entry.total_concat]
    by_cases passes : entry.passes bucket first = true
    · obtain ⟨rfl, window, allowed⟩ := of_decide_eq_true passes
      obtain ⟨decision, made, allowed⟩ := (Option.any_eq_true _ _).mp allowed
      obtain ⟨counts, same⟩ := decided log entry [] decision rfl made
      rw [same] at allowed
      have room : Entry.total log entry.op.bucket (start entry.op.bucket.width entry.input.now) + 1 ≤
          entry.op.bucket.rule.limit := of_decide_eq_true allowed
      rw [window] at room
      rw [if_pos passes, if_pos ⟨counts, rfl, window⟩]
      omega
    · rw [if_neg passes]
      omega

end Entries

section Runs

variable {Request Client : Type} [DecidableEq Client] {counter : Counter}
  {policies : Request → List (HttpRateLimitPolicy Request)}

abbrev LimitLabel (Request Client : Type) := PoolLabel Client Request Turn Empty

def LimitLabel.time : LimitLabel Request Client → Option Int
  | .turn _ turn => some turn.now
  | _ => none

abbrev waiting (counter : Counter) (Client : Type) : Pool counter.Store Client LimitOp LimitOp.Answer Intercepted :=
  ⟨counter.empty, fun _ => none⟩

/-- A key that both stores take. -/
def Bucket.Keyed (bucket : Bucket) : Prop :=
  (1 ≤ bucket.key.length ∧ bucket.key.length ≤ MAX_KEY_LENGTH) ∧ bucket.key.isClean = true

theorem HttpRateLimitPolicy.keyed (policy : HttpRateLimitPolicy Request) (request : Request) :
    (policy.bucket request).Keyed :=
  ⟨policy.bucket_keyed request, policy.clean request⟩

theorem consumeEach_keyed (request : Request) (policies : List (HttpRateLimitPolicy Request))
    (tightest : Option RateLimitDecision) :
    (consumeEach request policies tightest).Confined (fun op => op.bucket.Keyed) fun _ => Eq := by
  induction policies generalizing tightest with
  | nil => trivial
  | cons policy rest ih =>
    refine ⟨policy.keyed request, ?_⟩
    rintro answer other rfl
    refine ⟨rfl, ?_⟩
    cases answer with
    | error error => trivial
    | ok decision =>
      dsimp only
      split
      · trivial
      · exact ih _

/-- What is known after some requests: the store knows every window still to come. -/
structure Tallied (counter : Counter) (labels : List (LimitLabel Request Client))
    (log : List (Entry Client)) (store : counter.Store) : Prop where
  covers : ∀ time, 0 ≤ time → (∀ earlier ∈ labels.filterMap LimitLabel.time, earlier ≤ time) →
    Covers Bucket.width (counter.held store) (log.filterMap Entry.counted) time
  decided : Decided log

omit [DecidableEq Client] in
theorem Decided.concat {log : List (Entry Client)} (decided : Decided log) (entry : Entry Client)
    (last : ∀ decision, entry.decision? = some decision → entry.counted.isSome = true ∧
      decision = referenceDecision entry.arrival (Entry.total log entry.op.bucket
        (start entry.op.bucket.width entry.input.now) + 1)) : Decided (log ++ [entry]) := by
  intro before other after decision same made
  rcases List.eq_nil_or_concat after with rfl | ⟨rest, final, rfl⟩
  · obtain ⟨rfl, rest⟩ := List.append_inj' same rfl
    cases rest
    exact last decision made
  · have same : log ++ [entry] = (before ++ other :: rest) ++ [final] := by
      rw [same, List.append_assoc, List.cons_append, List.concat_eq_append]
    obtain ⟨rfl, -⟩ := List.append_inj' same rfl
    exact decided before other rest decision rfl made

omit [DecidableEq Client] in
/-- One request at the store is counted and decided, or is lost. -/
theorem Counter.performed {store : counter.Store} {log : List (Entry Client)} {time : Int}
    (covers : Covers Bucket.width (counter.held store) (log.filterMap Entry.counted) time)
    (few : (log.filterMap Entry.counted).length < counter.most) {entry : Entry Client}
    (ordered : time ≤ entry.input.now) (keyed : entry.op.bucket.Keyed)
    (answered : entry.answer = (counter.perform store entry.op entry.input).1) :
    Covers Bucket.width (counter.held (counter.perform store entry.op entry.input).2)
      ((log ++ [entry]).filterMap Entry.counted) entry.input.now ∧
    ∀ decision, entry.decision? = some decision → entry.counted.isSome = true ∧
      decision = referenceDecision entry.arrival (Entry.total log entry.op.bucket
        (start entry.op.bucket.width entry.input.now) + 1) := by
  obtain ⟨client, turn, ⟨bucket⟩, answer⟩ := entry
  have sound : bucket.Keyed := keyed
  let call : Call := ⟨bucket, turn.now, sound.1, sound.2, turn.timed⟩
  obtain ⟨replied, kept⟩ := counter.counts store _ time call covers ordered few
  dsimp only at answered ordered ⊢
  rw [List.filterMap_append]
  cases lost : turn.lost with
  | none =>
    have performed : counter.perform store (.consume bucket) turn = counter.consume store call.input := by
      simp only [Counter.perform, lost]
      rfl
    have counts : Entry.counted (⟨client, turn, .consume bucket, answer⟩ : Entry Client) =
        some call.arrival := by
      simp only [Entry.counted, lost]
      rfl
    rw [List.filterMap_cons_some counts, List.filterMap_nil, counts, performed]
    rw [performed, replied] at answered
    refine ⟨kept, ?_⟩
    intro decision made
    subst answered
    cases made
    refine ⟨rfl, ?_⟩
    congr 1
    rw [count_concat, if_pos ⟨rfl, rfl⟩]
    rfl
  | some failed =>
    obtain ⟨error, reached⟩ := failed
    have undecided : Entry.decision? (⟨client, turn, .consume bucket, answer⟩ : Entry Client) = none := by
      have failed : answer = .error error := by
        rw [answered, Counter.perform, lost]
        cases reached <;> rfl
      rw [failed]
      rfl
    refine ⟨?_, fun decision made => absurd (undecided.symm.trans made) (Option.some_ne_none _).symm⟩
    cases reached with
    | false =>
      have performed : (counter.perform store (.consume bucket) turn).2 = store := by
        rw [Counter.perform, lost]
      have uncounted : Entry.counted (⟨client, turn, .consume bucket, answer⟩ : Entry Client) = none := by
        simp only [Entry.counted, lost]
      rw [List.filterMap_cons_none uncounted, List.filterMap_nil, List.append_nil, performed]
      exact covers.later ordered
    | true =>
      have performed : (counter.perform store (.consume bucket) turn).2 =
          (counter.consume store call.input).2 := by
        rw [Counter.perform, lost]
        rfl
      have counts : Entry.counted (⟨client, turn, .consume bucket, answer⟩ : Entry Client) =
          some call.arrival := by
        simp only [Entry.counted, lost]
        rfl
      rw [List.filterMap_cons_some counts, List.filterMap_nil, performed]
      exact kept

theorem tallied_run (labels : List (LimitLabel Request Client))
    (ordered : (labels.filterMap LimitLabel.time).Pairwise (· ≤ ·)) (few : labels.length ≤ counter.most) :
    Tallied counter labels ((limited counter Client policies).log (waiting counter Client) labels)
      (run (limited counter Client policies).step (waiting counter Client) labels).world := by
  induction labels using List.reverseRecOn with
  | nil =>
    refine ⟨fun time positive _ => counter.begins.later positive, ?_⟩
    intro before entry after decision same
    exact absurd same (by simp [Service.log])
  | append_singleton labels label ih =>
    rw [List.filterMap_append] at ordered
    obtain ⟨earlier, -, later⟩ := List.pairwise_append.mp ordered
    rw [List.length_append, List.length_singleton] at few
    obtain ⟨covers, decided⟩ := ih earlier (by omega)
    rw [Service.log_concat, run_append, run_cons, run_nil]
    generalize same : run (limited counter Client policies).step (waiting counter Client) labels = pool
      at covers ⊢
    have world : ((limited counter Client policies).step pool label).world = _ :=
      Service.step_world fun event => event.elim
    cases recorded : (limited counter Client policies).record pool label with
    | none =>
      rw [recorded] at world
      rw [world, Option.toList_none, List.append_nil]
      refine ⟨?_, decided⟩
      intro time positive past
      rw [List.filterMap_append] at past
      exact covers time positive (List.forall_mem_append.mp past).1
    | some entry =>
      obtain ⟨next, rfl, running, answered⟩ := Service.record_inv recorded
      rw [recorded] at world
      have now : ([PoolLabel.turn entry.client entry.input] : List (LimitLabel Request Client)).filterMap
          LimitLabel.time = [entry.input.now] := rfl
      rw [now] at later
      have past : ∀ time ∈ labels.filterMap LimitLabel.time, time ≤ entry.input.now :=
        fun time member => later time member _ (List.mem_singleton_self _)
      have keyed : entry.op.bucket.Keyed := by
        rw [← same] at running
        obtain ⟨request, -, reaches⟩ := reaches_run (fun _ => rfl) labels entry.client running
        exact (Script.Confined.reaches reaches (consumeEach_keyed request _ none)).1
      have short : (((limited counter Client policies).log (waiting counter Client) labels).filterMap
          Entry.counted).length < counter.most := by
        have bound := (List.length_filterMap_le Entry.counted
          ((limited counter Client policies).log (waiting counter Client) labels)).trans
          (Service.length_log_le labels)
        omega
      obtain ⟨further, last⟩ := counter.performed (covers entry.input.now entry.input.timed.1 past) short
        le_rfl keyed answered
      refine ⟨?_, decided.concat entry last⟩
      intro time positive reached
      rw [List.filterMap_append, now] at reached
      rw [world]
      exact further.later (reached _ (List.mem_append_right _ (List.mem_singleton_self _)))

/-- The rounding of a quotient by a thousand does not fall to a second too few. -/
theorem le_secondsUp {milliseconds : Int} (positive : 0 ≤ milliseconds) (small : milliseconds < 2 ^ 53) :
    milliseconds ≤ 1000 * secondsUp milliseconds := by
  rcases positive.eq_or_lt with rfl | positive
  · have nothing : secondsUp 0 = 0 := by
      have zero : Binary64.round ((0 : ℤ) : ℚ) = ((0 : ℤ) : ℚ) := Binary64.round_intCast (by norm_num)
      rw [secondsUp, Int.cast_zero, zero_div, ← Int.cast_zero, zero, Int.ceil_intCast]
    rw [nothing]
    decide
  · have least : (1 : ℚ) ≤ milliseconds := by exact_mod_cast positive
    have most : (milliseconds : ℚ) < 2 ^ 53 := by exact_mod_cast small
    have normal : (2 : ℚ) ^ (-1022 : ℤ) ≤ |(milliseconds : ℚ) / 1000| := by
      rw [abs_of_nonneg (by positivity)]
      calc (2 : ℚ) ^ (-1022 : ℤ) ≤ 2 ^ (-10 : ℤ) := zpow_le_zpow_right₀ (by norm_num) (by decide)
        _ ≤ 1 / 1000 := by norm_num
        _ ≤ (milliseconds : ℚ) / 1000 := by linarith
    have place := Binary64.lastPlace_le normal
    rw [abs_of_nonneg (by positivity)] at place
    have error := (abs_le.mp (Binary64.round_error ((milliseconds : ℚ) / 1000))).1
    have ceiling := Int.le_ceil (Binary64.round ((milliseconds : ℚ) / 1000))
    have more : (milliseconds : ℚ) - 1 < 1000 * secondsUp milliseconds := by
      unfold secondsUp
      linarith
    have more : milliseconds - 1 < 1000 * secondsUp milliseconds := by exact_mod_cast more
    omega

/-- Whoever waits as long as `Retry-After` says comes in a later window. -/
theorem retry_later {arrival : Arrival Bucket} {total : Nat}
    (refused : (referenceDecision arrival total).allowed = false) {later : Int}
    (waited : arrival.time + 1000 * (writeHeaders (referenceDecision arrival total)).retryAfter.getD 0 ≤
      later) :
    start arrival.bucket.width arrival.time < start arrival.bucket.width later := by
  have exceeds : ¬ total ≤ arrival.bucket.rule.limit := of_decide_eq_false refused
  have positive := arrival.bucket.width_pos
  have narrow := arrival.bucket.width_le
  have before := start_le positive arrival.time
  have ahead := lt_start_add positive arrival.time
  have wait : (referenceDecision arrival total).retryAfterMs =
      start arrival.bucket.width arrival.time + arrival.bucket.width - arrival.time := if_neg exceeds
  have enough : (referenceDecision arrival total).retryAfterMs ≤
      1000 * secondsUp (referenceDecision arrival total).retryAfterMs := by
    apply le_secondsUp
    · omega
    · unfold MAX_WINDOW_MS at narrow
      omega
  have header : (writeHeaders (referenceDecision arrival total)).retryAfter =
      some (max 1 (secondsUp (referenceDecision arrival total).retryAfterMs)) := by
    simp only [writeHeaders, refused, Bool.false_eq_true, if_false]
  rw [header, Option.getD_some] at waited
  have beyond := lt_start_add positive later
  omega

/-- However requests interleave, at either store: an answer follows from the decisions on its
own request; a decision is that of a counter, and waiting as long as it says leads to a later
window; and no window lets through more requests under a bucket than its limit. -/
theorem handled_within_limits (counter : Counter)
    (policies : Request → List (HttpRateLimitPolicy Request)) (labels : List (LimitLabel Request Client))
    (ordered : (labels.filterMap LimitLabel.time).Pairwise (· ≤ ·)) (few : labels.length ≤ counter.most) :
    let service := limited counter Client policies
    let pool := run service.step (waiting counter Client) labels
    let log := service.log (waiting counter Client) labels
    (∀ client answer, pool.calls client = some (.done answer) → ∃ request,
      asked labels client = some request ∧
        answer.Follows request (policies request) (repliesTo client log)) ∧
    (∀ before entry after decision, log = before ++ entry :: after → entry.decision? = some decision →
      (decision.allowed = true ↔ Entry.total before entry.op.bucket
        (start entry.op.bucket.width entry.input.now) < entry.op.bucket.rule.limit) ∧
      (decision.allowed = false → ∀ later,
        entry.input.now + 1000 * (writeHeaders decision).retryAfter.getD 0 ≤ later →
        start entry.op.bucket.width entry.input.now < start entry.op.bucket.width later)) ∧
    ∀ bucket first (callers : List Client), callers.Nodup →
      (∀ caller ∈ callers, (∃ headers, pool.calls caller = some (.done (.handled headers))) ∧
        ∃ entry ∈ log, entry.client = caller ∧ entry.op.bucket = bucket ∧
          start bucket.width entry.input.now = first) →
      callers.length ≤ bucket.rule.limit := by
  intro service pool log
  have tallied : Tallied counter labels log pool.world := tallied_run labels ordered few
  have follows : ∀ client answer, pool.calls client = some (.done answer) → ∃ request,
      asked labels client = some request ∧
        answer.Follows request (policies request) (repliesTo client log) := by
    intro client answer ended
    obtain ⟨request, called, reaches⟩ := reaches_run (fun _ => rfl) labels client ended
    exact ⟨request, called, consumeEach_follows .none (show Tightest [] none from rfl) reaches⟩
  refine ⟨follows, ?_, ?_⟩
  · intro before entry after decision same made
    obtain ⟨-, rfl⟩ := tallied.decided before entry after decision same made
    refine ⟨?_, fun refused later waited => retry_later refused waited⟩
    exact decide_eq_true_iff
  · intro bucket first callers distinct through
    have inside : callers ⊆ (log.filter (Entry.passes bucket first)).map Performed.client := by
      intro caller member
      obtain ⟨⟨headers, ended⟩, entry, logged, own, same, window⟩ := through caller member
      obtain ⟨request, -, decisions, tightest, admits, -, -⟩ := follows caller _ ended
      refine List.mem_map.mpr ⟨entry, List.mem_filter.mpr ⟨logged, decide_eq_true ⟨same, window, ?_⟩⟩, own⟩
      have replied : entry.reply ∈ repliesTo caller log :=
        List.mem_map_of_mem (List.mem_filter.mpr ⟨logged, decide_eq_true own⟩)
      exact admits.allowed replied
    calc callers.length ≤ ((log.filter (Entry.passes bucket first)).map Performed.client).length :=
          (List.subperm_of_subset distinct inside).length_le
      _ = log.countP (Entry.passes bucket first) := by rw [List.length_map, List.countP_eq_length_filter]
      _ ≤ bucket.rule.limit := (tallied.decided.passes_le bucket first).1

end Runs

private theorem minute_timed : 1000 ≤ 60000 ∧ 60000 ≤ MAX_WINDOW_MS := by decide

private def perMinute (limit : Nat) (limited : 1 ≤ limit ∧ limit ≤ MAX_LIMIT) : Rule :=
  ⟨limit, 60000, limited, minute_timed⟩

private theorem ten_limited : 1 ≤ 10 ∧ 10 ≤ MAX_LIMIT := by decide

private theorem one_limited : 1 ≤ 1 ∧ 1 ≤ MAX_LIMIT := by decide

private theorem client_bounded :
    (js "client").length + 1 + (js "::1").length ≤ MAX_KEY_LENGTH := by decide

private theorem client_clean :
    JsString.isClean ⟨(js "client").units ++ 0x3A :: (js "::1").units⟩ = true := by decide

private theorem account_bounded :
    (js "account").length + 1 + (js "digest").length ≤ MAX_KEY_LENGTH := by decide

private theorem account_clean :
    JsString.isClean ⟨(js "account").units ++ 0x3A :: (js "digest").units⟩ = true := by decide

/-- Ten logins a minute from one client, and one to an account. -/
def loginPolicies : List (HttpRateLimitPolicy JsString) :=
  [⟨js "client", perMinute 10 ten_limited, fun _ => js "::1", fun _ => client_bounded,
      fun _ => client_clean⟩,
    ⟨js "account", perMinute 1 one_limited, fun _ => js "digest", fun _ => account_bounded,
      fun _ => account_clean⟩]

private def fiveSeconds : Turn := ⟨5000, none, by decide⟩

/-- Two logins to one account, at once. -/
def twoLogins : List (LimitLabel JsString Bool) :=
  [.call false (js "a"), .call true (js "a"), .turn false fiveSeconds, .turn true fiveSeconds,
    .turn true fiveSeconds, .turn false fiveSeconds]

theorem one_login_handled : ¬ ∀ caller, ∃ headers,
    (run (limited inMemoryCounter Bool fun _ => loginPolicies).step (waiting inMemoryCounter Bool)
      twoLogins).calls caller = some (.done (.handled headers)) := by
  intro handled
  obtain ⟨-, -, within⟩ := handled_within_limits inMemoryCounter (fun _ => loginPolicies) twoLogins
    (by decide) (by decide)
  have logged : ∀ caller, ((limited inMemoryCounter Bool fun _ => loginPolicies).log
      (waiting inMemoryCounter Bool) twoLogins).any (fun entry => entry.client = caller ∧
        entry.op.bucket = ⟨js "account:digest", perMinute 1 one_limited⟩ ∧
        start 60000 entry.input.now = 0) = true := by
    decide +kernel
  have few := within ⟨js "account:digest", perMinute 1 one_limited⟩ 0 [false, true] (by decide) <| by
    intro caller _
    obtain ⟨entry, member, found⟩ := List.any_eq_true.mp (logged caller)
    exact ⟨handled caller, entry, member, of_decide_eq_true found⟩
  exact absurd few (by decide)

end N2FNest.RateLimit
