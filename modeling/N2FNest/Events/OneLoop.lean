import N2FNest.Events.DeliveryLoops

/-! One delivery loop per consumer. `#start` puts a loop into `#loops` only when its first call of
`inbox.deliver` has returned; as long as nothing subscribes that consumer again inside that call,
each running loop is in `#loops` or about to get there, and no second one starts. -/

namespace N2FNest.Events

open Lib Shared

namespace DeliveryLoops

variable {Subscriber : Type} {state : DeliveryLoops Subscriber}

/-- The consumer of a running loop. -/
def runs (state : DeliveryLoops Subscriber) (loop : Nat) : Option JsString :=
  (state.running loop).map Loop.consumer

/-- What holds between any two steps, and but for the consumer that is about to be started. -/
structure Inv (state : DeliveryLoops Subscriber) (exempt : Option JsString := none) : Prop where
  sorted : state.subscriptions.rows.Pairwise fun first second => first.serial < second.serial
  numbered : ∀ entry ∈ state.subscriptions.rows, entry.serial < state.nextSerial
  fresh : ∀ loop, state.created ≤ loop → state.runs loop = none
  distinct : state.stack.Nodup
  bottom : ∀ above visited below,
    state.stack = above ++ .bootstrapping visited :: below → below = []
  frames : ∀ consumer loop, .starting consumer loop ∈ state.stack →
    state.abort = some false ∧ state.loops.get consumer = none ∧ state.runs loop = some consumer
  held : state.abort = some false → ∀ consumer entry, state.loops.get consumer = some entry →
    state.runs entry.loop = some consumer
  known : state.abort = some false → ∀ loop consumer, state.runs loop = some consumer →
    state.loops.get consumer = some ⟨consumer, loop⟩ ∨ .starting consumer loop ∈ state.stack
  unique : ∀ first second consumer, state.runs first = some consumer →
    state.runs second = some consumer → first = second
  served : state.abort = some false → ∀ entry ∈ state.subscriptions.rows,
    exempt = some entry.consumer ∨ (∃ loop, state.runs loop = some entry.consumer) ∨
      ∃ visited, .bootstrapping visited ∈ state.stack ∧ visited ≤ entry.serial
  before : state.abort = none → state.stack = [] ∧ (∀ loop, state.runs loop = none) ∧
    ∀ consumer, state.loops.get consumer = none
  awaits : ∀ awaited, state.awaited = some awaited → state.abort = some true ∧
    ∀ loop consumer, state.runs loop = some consumer → loop ∈ awaited
  stopped : state.destroyed = true → state.abort = some true ∧ ∀ loop, state.runs loop = none

theorem initial_inv : Inv (initial : DeliveryLoops Subscriber) where
  sorted := List.Pairwise.nil
  numbered := List.forall_mem_nil _
  fresh := fun _ _ => rfl
  distinct := List.nodup_nil
  bottom := fun above visited below same => by simp [initial] at same
  frames := fun _ _ member => absurd member List.not_mem_nil
  held := fun impossible => by cases impossible
  known := fun impossible => by cases impossible
  unique := fun _ _ _ runs => by cases runs
  served := fun impossible => by cases impossible
  before := fun _ => ⟨rfl, fun _ => rfl, fun _ => rfl⟩
  awaits := fun _ impossible => by cases impossible
  stopped := fun impossible => by cases impossible

theorem runs_update (running : Nat → Option (Loop Subscriber)) (loop other : Nat)
    (after : Option (Loop Subscriber)) :
    (Function.update running loop after other).map Loop.consumer =
      if other = loop then after.map Loop.consumer else (running other).map Loop.consumer := by
  by_cases same : other = loop
  · rw [if_pos same, same, Function.update_self]
  · rw [if_neg same, Function.update_of_ne same]

/-- Only the consumers of the loops matter. -/
theorem Inv.rephase (inv : state.Inv) {running : Nat → Option (Loop Subscriber)}
    (same : ∀ loop, (running loop).map Loop.consumer = state.runs loop) :
    Inv { state with running := running } := by
  have equal : runs { state with running := running } = state.runs := funext same
  refine ⟨inv.sorted, inv.numbered, ?_, inv.distinct, inv.bottom, ?_, ?_, ?_, ?_, ?_, ?_, ?_, ?_⟩ <;>
    rw [equal]
  exacts [inv.fresh, inv.frames, inv.held, inv.known, inv.unique, inv.served, inv.before, inv.awaits,
    inv.stopped]

theorem Inv.rephase_one (inv : state.Inv) {loop : Nat} {consumer : JsString}
    (runs : state.runs loop = some consumer) (phase : LoopPhase Subscriber) :
    Inv { state with running := Function.update state.running loop (some ⟨consumer, phase⟩) } := by
  apply inv.rephase
  intro other
  rw [runs_update]
  split
  · rename_i same
    rw [same, runs]
    rfl
  · rfl

theorem Inv.wake (inv : state.Inv) : state.wake.Inv := by
  apply inv.rephase
  intro loop
  unfold runs
  cases state.running loop with
  | none => rfl
  | some held =>
    have kept : held.wake.consumer = held.consumer := by
      unfold Loop.wake
      split <;> rfl
    simp [kept]

/-- A loop that ends was its consumer's only one. -/
theorem Inv.ended (inv : state.Inv) {loop : Nat} {consumer : JsString}
    (runs : state.runs loop = some consumer) (outside : state.stack = [])
    (halted : state.abort = some true ∨ state.subscriptions.get consumer = none) :
    (state.ended loop consumer).Inv := by
  have after : ∀ other, (state.ended loop consumer).runs other =
      if other = loop then none else state.runs other := by
    intro other
    exact runs_update ..
  have kept : ∀ other sought, (state.ended loop consumer).runs other = some sought →
      other ≠ loop ∧ state.runs other = some sought := by
    intro other sought here
    rw [after] at here
    by_cases same : other = loop
    · rw [if_pos same] at here
      cases here
    · rw [if_neg same] at here
      exact ⟨same, here⟩
  have still : ∀ other sought, state.runs other = some sought → sought ≠ consumer →
      (state.ended loop consumer).runs other = some sought := by
    intro other sought here different
    rw [after, if_neg, here]
    rintro rfl
    exact different (Option.some.inj (here.symm.trans runs))
  refine ⟨inv.sorted, inv.numbered, ?_, inv.distinct, inv.bottom, ?_, ?_, ?_, ?_, ?_, ?_, ?_, ?_⟩
  · intro other late
    rw [after]
    split
    · rfl
    · exact inv.fresh other late
  · intro other begun member
    rw [show (state.ended loop consumer).stack = [] from outside] at member
    cases member
  · intro live other entry found
    have stays := Table.get_delete state.loops consumer other
    by_cases same : other = consumer
    · rw [if_pos same] at stays
      cases stays.symm.trans found
    · rw [if_neg same] at stays
      exact still entry.loop other (inv.held live other entry (stays.symm.trans found)) same
  · intro live other sought here
    obtain ⟨different, running⟩ := kept other sought here
    left
    rcases inv.known live other sought running with found | member
    · refine (Table.get_delete state.loops consumer sought).trans ?_
      rw [if_neg, found]
      rintro rfl
      exact different (inv.unique other loop sought running runs)
    · rw [outside] at member
      cases member
  · intro first second sought one other
    exact inv.unique first second sought (kept first sought one).2 (kept second sought other).2
  · intro live entry member
    rcases halted with aborted | unsubscribed
    · cases live.symm.trans aborted
    · rcases inv.served live entry member with impossible | ⟨other, here⟩ | ⟨visited, framed, _⟩
      · cases impossible
      · refine .inr (.inl ⟨other, still other entry.consumer here ?_⟩)
        rintro named
        have present : state.subscriptions.get entry.consumer = some entry := Table.get_of_mem member
        rw [← named, present] at unsubscribed
        cases unsubscribed
      · rw [outside] at framed
        cases framed
  · intro unstarted
    cases ((inv.before unstarted).2.1 loop).symm.trans runs
  · intro awaited same
    obtain ⟨aborted, every⟩ := inv.awaits awaited same
    exact ⟨aborted, fun other sought here => every other sought (kept other sought here).2⟩
  · intro halted
    cases ((inv.stopped halted).2 loop).symm.trans runs

/-- A running loop calls `inbox.deliver` again. -/
theorem Inv.again (inv : state.Inv) {loop : Nat} {consumer : JsString} {subscriber : Subscriber}
    {calls : List (DeliverCall Subscriber)} (runs : state.runs loop = some consumer)
    (outside : state.stack = []) :
    Inv { state with
      running := Function.update state.running loop (some ⟨consumer, .delivering subscriber⟩)
      stack := .continuing loop :: state.stack
      calls := calls } := by
  have phased := inv.rephase_one runs (.delivering subscriber)
  have only : ∀ frame : Frame, frame ∈ (.continuing loop : Frame) :: state.stack → frame = .continuing loop := by
    intro frame member
    rw [outside] at member
    exact List.mem_singleton.mp member
  refine ⟨inv.sorted, inv.numbered, phased.fresh, ?_, ?_, ?_, phased.held, ?_, phased.unique, ?_, ?_,
    phased.awaits, phased.stopped⟩
  · rw [outside]
    exact List.nodup_singleton _
  · intro above visited below same
    have member : (.bootstrapping visited : Frame) ∈ (.continuing loop : Frame) :: state.stack := by
      rw [show (.continuing loop : Frame) :: state.stack = _ from same]
      simp
    cases only _ member
  · intro other begun member
    cases only _ member
  · intro live other sought here
    rcases phased.known live other sought here with found | member
    · exact .inl found
    · rw [show state.stack = [] from outside] at member
      cases member
  · intro live entry member
    rcases phased.served live entry member with impossible | found | ⟨visited, framed, _⟩
    · cases impossible
    · exact .inr (.inl found)
    · rw [show state.stack = [] from outside] at framed
      cases framed
  · intro unstarted
    cases ((inv.before unstarted).2.1 loop).symm.trans runs

/-- The next turn of a running loop. -/
theorem Inv.turn (inv : state.Inv) {loop : Nat} {consumer : JsString}
    (runs : state.runs loop = some consumer) (outside : state.stack = []) :
    (state.turn loop consumer (.continuing loop)).Inv := by
  unfold DeliveryLoops.turn
  split
  · rename_i aborted
    exact inv.ended runs outside (.inl aborted)
  · split
    · rename_i unsubscribed
      exact inv.ended runs outside (.inr unsubscribed)
    · exact inv.again runs outside

/-- A new loop, where its consumer has none. -/
theorem Inv.begin {consumer : JsString} (inv : Inv state (some consumer)) (subscriber : Subscriber)
    (calls : List (DeliverCall Subscriber)) (live : state.abort = some false)
    (missing : state.loops.get consumer = none)
    (unstarted : ∀ loop, .starting consumer loop ∉ state.stack) :
    Inv { state with
      created := state.created + 1
      running := Function.update state.running state.created (some ⟨consumer, .delivering subscriber⟩)
      stack := .starting consumer state.created :: state.stack
      calls := calls } := by
  have alone : ∀ loop, state.runs loop ≠ some consumer := by
    intro loop here
    rcases inv.known live loop consumer here with found | member
    · cases missing.symm.trans found
    · exact unstarted loop member
  let after : DeliveryLoops Subscriber := { state with
    created := state.created + 1
    running := Function.update state.running state.created (some ⟨consumer, .delivering subscriber⟩)
    stack := .starting consumer state.created :: state.stack
    calls := calls }
  have value : ∀ loop, after.runs loop =
      if loop = state.created then some consumer else state.runs loop := by
    intro loop
    exact runs_update ..
  have older : ∀ loop sought, state.runs loop = some sought → after.runs loop = some sought := by
    intro loop sought here
    rw [value, if_neg, here]
    rintro rfl
    cases (inv.fresh _ (Nat.le_refl _)).symm.trans here
  have cases_of : ∀ loop sought, after.runs loop = some sought →
      loop = state.created ∧ sought = consumer ∨ state.runs loop = some sought := by
    intro loop sought here
    rw [value] at here
    split at here
    · rename_i same
      exact .inl ⟨same, (Option.some.inj here).symm⟩
    · exact .inr here
  refine ⟨inv.sorted, inv.numbered, ?_, ?_, ?_, ?_, ?_, ?_, ?_, ?_, ?_, ?_, ?_⟩
  · intro loop late
    have later : state.created + 1 ≤ loop := late
    refine (value loop).trans ?_
    rw [if_neg (by omega)]
    exact inv.fresh loop (by omega)
  · refine List.nodup_cons.mpr ⟨fun member => unstarted _ member, inv.distinct⟩
  · intro above visited below same
    cases above with
    | nil => cases same
    | cons head rest => exact inv.bottom rest visited below (List.cons.inj same).2
  · intro other loop member
    rcases List.mem_cons.mp member with same | present
    · cases same
      exact ⟨live, missing, (value _).trans (if_pos rfl)⟩
    · obtain ⟨begun, absent, running⟩ := inv.frames other loop present
      exact ⟨begun, absent, older loop other running⟩
  · intro _ other entry found
    exact older _ _ (inv.held live other entry found)
  · intro _ loop sought here
    rcases cases_of loop sought here with ⟨rfl, rfl⟩ | running
    · exact .inr List.mem_cons_self
    · exact (inv.known live loop sought running).imp_right (List.mem_cons_of_mem _)
  · intro first second sought one other
    rcases cases_of first sought one with ⟨rfl, rfl⟩ | running <;>
      rcases cases_of second sought other with ⟨rfl, same⟩ | also
    · rfl
    · exact absurd also (alone second)
    · exact absurd (same ▸ running) (alone first)
    · exact inv.unique first second sought running also
  · intro _ entry member
    right
    rcases inv.served live entry member with same | ⟨loop, here⟩ | ⟨visited, framed, early⟩
    · cases same
      exact .inl ⟨state.created, (value _).trans (if_pos rfl)⟩
    · exact .inl ⟨loop, older loop _ here⟩
    · exact .inr ⟨visited, List.mem_cons_of_mem _ framed, early⟩
  · intro before
    cases live.symm.trans before
  · intro awaited same
    cases live.symm.trans (inv.awaits awaited same).1
  · intro halted
    cases live.symm.trans (inv.stopped halted).1

theorem Inv.spare {consumer : JsString} (inv : Inv state (some consumer))
    (runs : state.abort = some false → ∃ loop, state.runs loop = some consumer) : state.Inv := by
  refine ⟨inv.sorted, inv.numbered, inv.fresh, inv.distinct, inv.bottom, inv.frames, inv.held, inv.known,
    inv.unique, ?_, inv.before, inv.awaits, inv.stopped⟩
  intro live entry member
  right
  rcases inv.served live entry member with same | found
  · cases same
    exact .inl (runs live)
  · exact found

/-- A loop that is started when the signal is aborted ends at once. -/
theorem Inv.aborted {exempt : Option JsString} (inv : Inv state exempt) (halted : state.abort = some true)
    (loops : Table fun entry : LoopEntry => entry.consumer) :
    Inv { state with
      created := state.created + 1
      running := Function.update state.running state.created none
      loops := loops } := by
  have same : Function.update state.running state.created none = state.running := by
    apply Function.update_eq_self_iff.mpr
    exact (Option.map_eq_none_iff.mp (inv.fresh _ (Nat.le_refl _))).symm
  rw [same]
  refine ⟨inv.sorted, inv.numbered, ?_, inv.distinct, inv.bottom, ?_, ?_, ?_, inv.unique, ?_, ?_,
    inv.awaits, inv.stopped⟩
  · intro loop late
    exact inv.fresh loop (Nat.le_of_succ_le late)
  · intro consumer loop member
    cases (inv.frames consumer loop member).1.symm.trans halted
  · intro live
    cases live.symm.trans halted
  · intro live
    cases live.symm.trans halted
  · intro live
    cases live.symm.trans halted
  · intro unstarted
    cases unstarted.symm.trans halted

theorem Inv.start {consumer : JsString} (inv : Inv state (some consumer)) (begun : state.abort ≠ none)
    (subscribed : state.subscriptions.get consumer ≠ none)
    (unstarted : ∀ loop, .starting consumer loop ∉ state.stack) : (state.start consumer).Inv := by
  unfold DeliveryLoops.start
  cases found : state.loops.get consumer with
  | some entry =>
    rw [Option.isSome_some, if_pos rfl]
    exact inv.spare fun live => ⟨entry.loop, inv.held live consumer entry found⟩
  | none =>
    rw [if_neg (by simp)]
    cases abort : state.abort with
    | none => exact absurd abort begun
    | some halted =>
      cases halted with
      | true =>
        simp only [DeliveryLoops.turn, if_true, DeliveryLoops.ended, Function.update_self,
          Option.isNone_none]
        have ends := inv.aborted abort ((state.loops.delete consumer).set ⟨consumer, state.created⟩)
        rw [abort] at ends
        exact ends
      | false =>
        cases stored : state.subscriptions.get consumer with
        | none => exact absurd stored subscribed
        | some entry =>
          simp only [DeliveryLoops.turn, stored, Function.update_self, Option.isNone_some,
            Option.some.injEq, Bool.false_eq_true, if_false]
          have begins := inv.begin entry.subscriber
            (state.calls ++ [⟨consumer, entry.subscriber⟩]) abort found unstarted
          rw [abort] at begins
          exact begins

/-- What holds of the frames below the top one. -/
theorem Inv.below (inv : state.Inv) {frame : Frame} {rest : List Frame}
    (stack : state.stack = frame :: rest) :
    frame ∉ rest ∧ rest.Nodup ∧ (∀ other ∈ rest, other ∈ state.stack) ∧
      ∀ above visited below, rest = above ++ .bootstrapping visited :: below → below = [] := by
  have distinct := inv.distinct
  rw [stack] at distinct
  obtain ⟨once, others⟩ := List.nodup_cons.mp distinct
  refine ⟨once, others, fun other member => ?_, fun above visited below same => ?_⟩
  · rw [stack]
    exact List.mem_cons_of_mem _ member
  · exact inv.bottom (frame :: above) visited below (by rw [stack, same, List.cons_append])

/-- A frame that is no iteration serves nothing. -/
private theorem Inv.served_below (inv : state.Inv) {frame : Frame} {rest : List Frame}
    (stack : state.stack = frame :: rest) (plain : ∀ visited, frame ≠ .bootstrapping visited)
    (live : state.abort = some false) (entry : Subscription Subscriber)
    (member : entry ∈ state.subscriptions.rows) :
    none = some entry.consumer ∨ (∃ loop, state.runs loop = some entry.consumer) ∨
      ∃ visited, .bootstrapping visited ∈ rest ∧ visited ≤ entry.serial := by
  refine (inv.served live entry member).imp_right (Or.imp_right ?_)
  rintro ⟨visited, framed, early⟩
  rw [stack] at framed
  rcases List.mem_cons.mp framed with same | present
  · exact absurd same.symm (plain visited)
  · exact ⟨visited, present, early⟩

/-- The promise of a loop gets into `#loops`. -/
private theorem Inv.returns_starting (inv : state.Inv) {consumer : JsString} {loop : Nat}
    {rest : List Frame} (stack : state.stack = .starting consumer loop :: rest) :
    Inv { state with stack := rest, loops := state.loops.set ⟨consumer, loop⟩ } := by
  obtain ⟨live, missing, runs⟩ := inv.frames consumer loop (by rw [stack]; exact List.mem_cons_self)
  obtain ⟨once, others, inside, bottom⟩ := inv.below stack
  refine ⟨inv.sorted, inv.numbered, inv.fresh, others, bottom, ?_, ?_, ?_, inv.unique, ?_, ?_,
    inv.awaits, inv.stopped⟩
  · intro other number member
    obtain ⟨begun, absent, running⟩ := inv.frames other number (inside _ member)
    refine ⟨begun, (Table.get_set_other _ ?_).trans absent, running⟩
    rintro rfl
    have equal := inv.unique loop number consumer runs running
    subst equal
    exact once member
  · intro _ other entry found
    have named : entry.consumer = other := Table.key_of_get found
    rcases Table.get_set_cases found with rfl | before
    · rw [← named]
      exact runs
    · exact inv.held live other entry before
  · intro _ number sought running
    rcases inv.known live number sought running with found | member
    · refine .inl ((Table.get_set_other _ ?_).trans found)
      rintro rfl
      cases missing.symm.trans found
    · rw [stack] at member
      rcases List.mem_cons.mp member with same | present
      · cases same
        exact .inl (Table.get_set_same ..)
      · exact .inr present
  · exact inv.served_below stack (by simp)
  · intro unstarted
    cases live.symm.trans unstarted

private theorem Inv.returns_continuing (inv : state.Inv) {loop : Nat} {rest : List Frame}
    (stack : state.stack = .continuing loop :: rest) : Inv { state with stack := rest } := by
  obtain ⟨_, others, inside, bottom⟩ := inv.below stack
  refine ⟨inv.sorted, inv.numbered, inv.fresh, others, bottom, ?_, inv.held, ?_, inv.unique, ?_, ?_,
    inv.awaits, inv.stopped⟩
  · intro consumer number member
    exact inv.frames consumer number (inside _ member)
  · intro live number sought running
    refine (inv.known live number sought running).imp_right fun member => ?_
    rw [stack] at member
    rcases List.mem_cons.mp member with impossible | present
    · cases impossible
    · exact present
  · exact inv.served_below stack (by simp)
  · intro unstarted
    cases stack.symm.trans (inv.before unstarted).1

theorem Inv.returns (inv : state.Inv) : state.returns.Inv := by
  unfold DeliveryLoops.returns
  split
  · rename_i stack
    exact inv.returns_starting stack
  · rename_i stack
    exact inv.returns_continuing stack
  · exact inv

/-- The iteration has seen every entry, or starts the next one. -/
theorem Inv.iterate (inv : state.Inv) : state.iterate.Inv := by
  unfold DeliveryLoops.iterate
  split
  · rename_i visited rest stack
    have alone : rest = [] := inv.bottom [] visited rest stack
    subst alone
    have here : ∀ frame ∈ state.stack, frame = .bootstrapping visited := by
      intro frame member
      rw [stack] at member
      exact List.mem_singleton.mp member
    split
    · rename_i seen
      refine ⟨inv.sorted, inv.numbered, inv.fresh, List.nodup_nil, ?_, ?_, inv.held, ?_, inv.unique, ?_,
        ?_, inv.awaits, inv.stopped⟩
      · intro above other below same
        simp at same
      · intro consumer loop member
        cases member
      · intro live loop consumer running
        refine (inv.known live loop consumer running).imp_right fun member => ?_
        cases here _ member
      · intro live entry member
        refine (inv.served live entry member).imp_right (Or.imp_right ?_)
        rintro ⟨other, framed, early⟩
        cases here _ framed
        have late := List.find?_eq_none.mp seen entry member
        exact absurd (decide_eq_true early) late
      · intro unstarted
        cases stack.symm.trans (inv.before unstarted).1
    · rename_i entry next
      obtain ⟨_, first, later, rows, skipped⟩ := List.find?_eq_some_iff_append.mp next
      have begun : state.abort ≠ none := by
        intro unstarted
        cases stack.symm.trans (inv.before unstarted).1
      have moved : Inv { state with stack := [.bootstrapping (entry.serial + 1)] }
          (some entry.consumer) := by
        refine ⟨inv.sorted, inv.numbered, inv.fresh, List.nodup_singleton _, ?_, ?_, inv.held, ?_,
          inv.unique, ?_, fun unstarted => absurd unstarted begun, inv.awaits, inv.stopped⟩
        · intro above other below same
          cases above with
          | nil => exact (List.cons.inj same).2.symm
          | cons head tail => simp at same
        · intro consumer loop member
          cases List.mem_singleton.mp member
        · intro live loop consumer running
          refine (inv.known live loop consumer running).imp_right fun member => ?_
          cases here _ member
        · intro live other member
          have sorted := inv.sorted
          have place : other ∈ state.subscriptions.rows := member
          rw [rows] at sorted place
          rcases List.mem_append.mp place with early | place
          · refine .inr (.inl ?_)
            rcases inv.served live other member with impossible | found | ⟨bound, framed, reached⟩
            · cases impossible
            · exact found
            · cases here _ framed
              have passed := skipped other early
              simp [reached] at passed
          · rcases List.mem_cons.mp place with rfl | late
            · exact .inl rfl
            · have after := (List.pairwise_cons.mp (List.pairwise_append.mp sorted).2.1).1 other late
              exact .inr (.inr ⟨entry.serial + 1, List.mem_cons_self, after⟩)
      apply moved.start begun
      · have present : state.subscriptions.get entry.consumer = some entry :=
          Table.get_of_mem (List.mem_of_find?_eq_some next)
        rw [present]
        simp
      · intro loop member
        cases List.mem_singleton.mp member
  · exact inv

/-- A new subscription goes behind the others. -/
theorem Inv.subscribed (inv : state.Inv) {consumer : JsString} (subscriber : Subscriber)
    (missing : state.subscriptions.get consumer = none) :
    Inv { state with
      subscriptions := state.subscriptions.set ⟨state.nextSerial, consumer, subscriber⟩
      nextSerial := state.nextSerial + 1 } (some consumer) := by
  have rows : (state.subscriptions.set ⟨state.nextSerial, consumer, subscriber⟩).rows =
      state.subscriptions.rows ++ [⟨state.nextSerial, consumer, subscriber⟩] :=
    Table.rows_set_new missing
  refine ⟨?_, ?_, inv.fresh, inv.distinct, inv.bottom, inv.frames, inv.held, inv.known, inv.unique, ?_,
    inv.before, inv.awaits, inv.stopped⟩
  · simp only [rows]
    refine List.pairwise_append.mpr ⟨inv.sorted, List.pairwise_singleton _ _, ?_⟩
    intro entry member other last
    rw [List.mem_singleton.mp last]
    exact inv.numbered entry member
  · simp only [rows]
    intro entry member
    rcases List.mem_append.mp member with present | last
    · exact Nat.lt_succ_of_lt (inv.numbered entry present)
    · rw [List.mem_singleton.mp last]
      exact Nat.lt_succ_self _
  · simp only [rows]
    intro live entry member
    rcases List.mem_append.mp member with present | last
    · right
      rcases inv.served live entry present with impossible | found
      · cases impossible
      · exact found
    · rw [List.mem_singleton.mp last]
      exact .inl rfl

/-- What keeps every consumer to one loop: nothing subscribes a consumer inside the first call of
`inbox.deliver` of its loop, and no shutdown begins inside one. -/
def Admits (state : DeliveryLoops Subscriber) : LoopLabel Subscriber → Prop
  | .subscribe consumer _ => state.accepts consumer = true →
      ∀ loop, .starting consumer loop ∉ state.stack
  | .destroy => ∀ consumer loop, .starting consumer loop ∉ state.stack
  | _ => True

theorem Inv.subscribe (inv : state.Inv) {consumer : JsString} (subscriber : Subscriber)
    (admits : state.accepts consumer = true → ∀ loop, .starting consumer loop ∉ state.stack) :
    (state.subscribe consumer subscriber).Inv := by
  unfold DeliveryLoops.subscribe
  split
  · rename_i accepted
    have unstarted := admits accepted
    simp only [accepts, Bool.and_eq_true, Option.isNone_iff_eq_none] at accepted
    have subscribed := inv.subscribed subscriber accepted.2
    split
    · rename_i begun
      apply subscribed.start (Option.isSome_iff_ne_none.mp begun) _ unstarted
      have present := Table.get_set_same state.subscriptions ⟨state.nextSerial, consumer, subscriber⟩
      intro none
      cases none.symm.trans present
    · rename_i unbegun
      refine subscribed.spare fun live => ?_
      rw [show state.abort = some false from live] at unbegun
      exact absurd rfl unbegun
  · exact inv

theorem Inv.unsubscribe (inv : state.Inv) (consumer : JsString) :
    Inv { state with subscriptions := state.subscriptions.delete consumer } := by
  have inside : ∀ entry ∈ (state.subscriptions.delete consumer).rows,
      entry ∈ state.subscriptions.rows := fun entry member => (List.mem_filter.mp member).1
  exact ⟨inv.sorted.sublist List.filter_sublist, fun entry member => inv.numbered entry (inside entry member),
    inv.fresh, inv.distinct, inv.bottom, inv.frames, inv.held, inv.known, inv.unique,
    fun live entry member => inv.served live entry (inside entry member), inv.before, inv.awaits,
    inv.stopped⟩

theorem Inv.bootstrap (inv : state.Inv) (unstarted : state.abort = none) :
    Inv { state with abort := some false, stack := .bootstrapping 0 :: state.stack } := by
  obtain ⟨outside, none, absent⟩ := inv.before unstarted
  rw [outside]
  refine ⟨inv.sorted, inv.numbered, inv.fresh, List.nodup_singleton _, ?_, ?_, ?_, ?_, inv.unique, ?_, ?_,
    ?_, ?_⟩
  · intro above visited below same
    cases above with
    | nil => exact (List.cons.inj same).2.symm
    | cons head tail => simp at same
  · intro consumer loop member
    cases List.mem_singleton.mp member
  · intro _ consumer entry found
    cases (absent consumer).symm.trans found
  · intro _ loop consumer running
    cases (none loop).symm.trans running
  · exact fun _ entry _ => .inr (.inr ⟨0, List.mem_cons_self, Nat.zero_le _⟩)
  · exact fun impossible => by cases impossible
  · intro awaited same
    cases unstarted.symm.trans (inv.awaits awaited same).1
  · intro halted
    cases unstarted.symm.trans (inv.stopped halted).1

theorem Inv.destroy (inv : state.Inv) (live : state.abort = some false)
    (admits : ∀ consumer loop, .starting consumer loop ∉ state.stack) : state.destroy.Inv := by
  have woken := inv.wake
  have halted : ∀ {claim : Prop}, some true = some false → claim := fun impossible => by cases impossible
  refine ⟨woken.sorted, woken.numbered, woken.fresh, woken.distinct, woken.bottom, ?_, fun live => halted live,
    fun live => halted live, woken.unique, fun live => halted live, fun impossible => (by cases impossible), ?_, ?_⟩
  · intro consumer loop member
    exact absurd member (admits consumer loop)
  · intro awaited same
    cases same
    refine ⟨rfl, fun loop consumer runs => ?_⟩
    rcases woken.known live loop consumer runs with found | member
    · exact List.mem_map.mpr ⟨_, Table.mem_of_get found, rfl⟩
    · exact absurd member (admits consumer loop)
  · intro destroyed
    cases live.symm.trans (inv.stopped destroyed).1

theorem Inv.settle (inv : state.Inv) : state.settle.Inv := by
  unfold DeliveryLoops.settle
  split
  · rename_i awaited pending
    obtain ⟨aborted, every⟩ := inv.awaits awaited pending
    split
    · rename_i done
      have none : ∀ loop, state.runs loop = Option.none := by
        intro loop
        cases running : state.runs loop with
        | none => rfl
        | some consumer =>
          have ended := done loop (every loop consumer running)
          rw [runs, ended] at running
          cases running
      have halted : ∀ {claim : Prop}, state.abort = some false → claim := by
        intro claim live
        cases aborted.symm.trans live
      refine ⟨inv.sorted, inv.numbered, inv.fresh, inv.distinct, inv.bottom, ?_, fun live => halted live,
        fun live => halted live, inv.unique, fun live => halted live, ?_, inv.awaits, fun _ => ⟨aborted, none⟩⟩
      · intro consumer loop member
        exact halted (inv.frames consumer loop member).1
      · intro unstarted
        cases aborted.symm.trans unstarted
    · exact inv
  · exact inv

theorem Inv.completes (inv : state.Inv) (outside : state.stack = []) (loop : Nat)
    (result : DeliverResult) : (state.completes loop result).Inv := by
  unfold DeliveryLoops.completes
  split
  · rename_i consumer subscriber running
    have runs : state.runs loop = some consumer := by rw [DeliveryLoops.runs, running]; rfl
    split
    · rename_i aborted
      exact inv.ended runs outside (.inl aborted)
    · split
      · exact inv.turn runs outside
      · exact inv.rephase_one runs _
  · exact inv

theorem Inv.resume (inv : state.Inv) (outside : state.stack = []) (loop : Nat) :
    (state.resume loop).Inv := by
  unfold DeliveryLoops.resume
  split
  · rename_i consumer running
    have runs : state.runs loop = some consumer := by rw [DeliveryLoops.runs, running]; rfl
    exact inv.turn runs outside
  · exact inv

theorem Inv.timer (inv : state.Inv) (loop : Nat) : (state.timer loop).Inv := by
  unfold DeliveryLoops.timer
  split
  · rename_i consumer running
    have runs : state.runs loop = some consumer := by rw [DeliveryLoops.runs, running]; rfl
    exact inv.rephase_one runs _
  · exact inv

theorem Inv.step (inv : state.Inv) {label : LoopLabel Subscriber} (admits : state.Admits label) :
    (state.step label).Inv := by
  cases label with
  | subscribe consumer subscriber =>
    simp only [DeliveryLoops.step]
    split
    · exact inv.subscribe subscriber admits
    · exact inv
  | unsubscribe consumer =>
    simp only [DeliveryLoops.step]
    split
    · exact inv.unsubscribe consumer
    · exact inv
  | bootstrap =>
    simp only [DeliveryLoops.step]
    split
    · rename_i unstarted
      exact inv.bootstrap unstarted
    · exact inv
  | iterate => exact inv.iterate
  | returns => exact inv.returns
  | completes loop result =>
    simp only [DeliveryLoops.step]
    split
    · rename_i outside
      exact inv.completes outside loop result
    · exact inv
  | publish =>
    simp only [DeliveryLoops.step]
    split
    · exact inv.wake
    · exact inv
  | timer loop =>
    simp only [DeliveryLoops.step]
    split
    · exact inv.timer loop
    · exact inv
  | resume loop =>
    simp only [DeliveryLoops.step]
    split
    · rename_i outside
      exact inv.resume outside loop
    · exact inv
  | destroy =>
    simp only [DeliveryLoops.step]
    split
    · rename_i live
      exact inv.destroy live.2 admits
    · exact inv
  | settle =>
    simp only [DeliveryLoops.step]
    split
    · exact inv.settle
    · exact inv

/-- A step calls `inbox.deliver` at most once, for a consumer that is subscribed, with its subscriber. -/
structure Served (before after : DeliveryLoops Subscriber) : Prop where
  calls : ∃ more, after.calls = before.calls ++ more ∧ more.length ≤ 1 ∧
    ∀ call ∈ more, ∃ entry, after.subscriptions.get call.consumer = some entry ∧
      entry.subscriber = call.subscriber ∧
      ∃ loop, after.running loop = some ⟨call.consumer, .delivering call.subscriber⟩

theorem Served.none {before after : DeliveryLoops Subscriber} (same : after.calls = before.calls) :
    Served before after :=
  ⟨[], by rw [List.append_nil, same], Nat.zero_le _, List.forall_mem_nil _⟩

theorem turn_served (state : DeliveryLoops Subscriber) (loop : Nat) (consumer : JsString)
    (frame : Frame) : Served state (state.turn loop consumer frame) := by
  unfold turn
  split
  · exact .none rfl
  · split
    · exact .none rfl
    · rename_i entry found
      refine ⟨[⟨consumer, entry.subscriber⟩], rfl, Nat.le_refl _, fun call member => ?_⟩
      rw [List.mem_singleton.mp member]
      exact ⟨entry, found, rfl, loop, Function.update_self ..⟩

theorem start_served (state : DeliveryLoops Subscriber) (consumer : JsString) :
    Served state (state.start consumer) := by
  unfold start
  split
  · exact .none rfl
  · have turned := turn_served { state with created := state.created + 1 } state.created consumer
      (.starting consumer state.created)
    simp only
    split
    · exact turned.calls.elim fun more served => ⟨more, served⟩
    · exact turned.calls.elim fun more served => ⟨more, served⟩

theorem step_served (state : DeliveryLoops Subscriber) (label : LoopLabel Subscriber) :
    Served state (state.step label) := by
  cases label with
  | subscribe consumer subscriber =>
    simp only [step]
    split
    · unfold subscribe
      split
      · split
        · exact ⟨(start_served _ consumer).calls⟩
        · exact .none rfl
      · exact .none rfl
    · exact .none rfl
  | iterate =>
    simp only [step, iterate]
    split
    · split
      · exact .none rfl
      · exact ⟨(start_served _ _).calls⟩
    · exact .none rfl
  | completes loop result =>
    simp only [step]
    split
    · unfold completes
      split
      · split
        · exact .none rfl
        · split
          · exact turn_served ..
          · exact .none rfl
      · exact .none rfl
    · exact .none rfl
  | resume loop =>
    simp only [step]
    split
    · unfold resume
      split
      · exact turn_served ..
      · exact .none rfl
    · exact .none rfl
  | returns =>
    simp only [step, returns]
    split <;> exact .none rfl
  | timer loop =>
    simp only [step, timer]
    split
    · split <;> exact .none rfl
    · exact .none rfl
  | settle =>
    simp only [step, settle]
    split
    · split
      · split <;> exact .none rfl
      · exact .none rfl
    · exact .none rfl
  | _ =>
    simp only [step]
    split <;> exact .none rfl

/-- The turns that a loop has left, where its consumer is not subscribed. -/
def turnsLeft (state : DeliveryLoops Subscriber) (loop : Nat) : Nat :=
  match state.running loop with
  | none => 0
  | some ⟨_, .woken⟩ => 1
  | some ⟨_, .waiting⟩ => 2
  | some ⟨_, .delivering _⟩ => 3

theorem ended_turnsLeft (state : DeliveryLoops Subscriber) (loop : Nat) (consumer : JsString) :
    (state.ended loop consumer).turnsLeft loop = 0 := by
  simp only [turnsLeft, ended, Function.update_self]

theorem turn_ends {consumer : JsString} (unsubscribed : state.subscriptions.get consumer = none)
    (loop : Nat) (frame : Frame) :
    (state.turn loop consumer frame).calls = state.calls ∧
      (state.turn loop consumer frame).turnsLeft loop = 0 := by
  simp only [turn, unsubscribed, ite_self]
  exact ⟨rfl, state.ended_turnsLeft loop consumer⟩

/-- What a running loop's next turn can be. -/
inductive Turn (state : DeliveryLoops Subscriber) (loop : Nat) : LoopLabel Subscriber → Prop
  | completes {consumer : JsString} {subscriber : Subscriber}
      (running : state.running loop = some ⟨consumer, .delivering subscriber⟩) (result : DeliverResult) :
      Turn state loop (.completes loop result)
  | timer {consumer : JsString} (running : state.running loop = some ⟨consumer, .waiting⟩) :
      Turn state loop (.timer loop)
  | resume {consumer : JsString} (running : state.running loop = some ⟨consumer, .woken⟩) :
      Turn state loop (.resume loop)

theorem Turn.of_running {loop : Nat} {held : Loop Subscriber}
    (running : state.running loop = some held) : ∃ label, state.Turn loop label := by
  obtain ⟨consumer, phase⟩ := held
  cases phase with
  | delivering subscriber => exact ⟨_, .completes running .nothing⟩
  | waiting => exact ⟨_, .timer running⟩
  | woken => exact ⟨_, .resume running⟩

theorem step_ends (outside : state.stack = []) {loop : Nat} {held : Loop Subscriber}
    {label : LoopLabel Subscriber} (here : state.running loop = some held)
    (unsubscribed : state.subscriptions.get held.consumer = none) (turn : state.Turn loop label) :
    (state.step label).calls = state.calls ∧
      (state.step label).turnsLeft loop < state.turnsLeft loop := by
  cases turn with
  | @completes consumer subscriber running result =>
    cases here.symm.trans running
    have left : state.turnsLeft loop = 3 := by simp only [turnsLeft, running]
    rw [left]
    simp only [step, if_pos outside, completes, running]
    split
    · refine ⟨rfl, ?_⟩
      rw [ended_turnsLeft]
      exact Nat.zero_lt_succ 2
    · split
      · obtain ⟨calls, ends⟩ := turn_ends unsubscribed loop (.continuing loop)
        refine ⟨calls, ?_⟩
        rw [ends]
        exact Nat.zero_lt_succ 2
      · refine ⟨rfl, ?_⟩
        simp only [turnsLeft, Function.update_self]
        exact Nat.lt_succ_self 2
  | timer running =>
    simp only [step, if_pos outside, timer, running, turnsLeft, Function.update_self]
    exact ⟨trivial, Nat.lt_succ_self 1⟩
  | resume running =>
    cases here.symm.trans running
    have left : state.turnsLeft loop = 1 := by simp only [turnsLeft, running]
    obtain ⟨calls, ends⟩ := turn_ends unsubscribed loop (.continuing loop)
    simp only [step, if_pos outside, resume, running, left, ends]
    exact ⟨calls, Nat.zero_lt_one⟩

/-- What the class promises in a state. -/
structure OneLoop (state : DeliveryLoops Subscriber) : Prop where
  /-- No consumer has two loops, so none is handed two deliveries at once. -/
  alone : ∀ first second one other, state.running first = some one →
    state.running second = some other → one.consumer = other.consumer → first = second
  /-- From the bootstrap to the shutdown, every subscribed consumer has one. -/
  served : state.abort = some false → (∀ visited, .bootstrapping visited ∉ state.stack) →
    ∀ entry ∈ state.subscriptions.rows,
      ∃ loop phase, state.running loop = some ⟨entry.consumer, phase⟩
  /-- After the shutdown no loop runs. -/
  stopped : state.destroyed = true → ∀ loop, state.running loop = none
  /-- The next delivery is handed to the subscriber of that time. -/
  serves : ∀ label, Served state (state.step label)
  /-- A loop whose consumer is not subscribed has few turns left, and delivers nothing in them. -/
  ends : state.stack = [] → ∀ loop held, state.running loop = some held →
    state.subscriptions.get held.consumer = none → (∃ label, state.Turn loop label) ∧
      ∀ label, state.Turn loop label → (state.step label).calls = state.calls ∧
        (state.step label).turnsLeft loop < state.turnsLeft loop

theorem Inv.oneLoop (inv : state.Inv) : state.OneLoop := by
  refine ⟨?_, ?_, ?_, state.step_served, fun outside loop held running unsubscribed => ?_⟩
  · intro first second one other here there same
    apply inv.unique first second one.consumer
    · rw [runs, here]
      rfl
    · rw [runs, there, same]
      rfl
  · intro live booted entry member
    rcases inv.served live entry member with impossible | ⟨loop, here⟩ | ⟨visited, framed, _⟩
    · cases impossible
    · obtain ⟨held, running, named⟩ := Option.map_eq_some_iff.mp here
      exact ⟨loop, held.phase, by rw [running, ← named]⟩
    · exact absurd framed (booted visited)
  · intro halted loop
    exact Option.map_eq_none_iff.mp ((inv.stopped halted).2 loop)
  · exact ⟨Turn.of_running running, fun label => step_ends outside running unsubscribed⟩

/-- One delivery loop per consumer, in every run in which nothing subscribes a consumer inside the
first call of `inbox.deliver` of its loop, and no shutdown begins inside one. -/
theorem one_loop_per_consumer (labels : List (LoopLabel Subscriber))
    (admitted : Along step Admits initial labels) : (run step initial labels).OneLoop := by
  have keeps : ∀ (state : DeliveryLoops Subscriber) label, state.Inv → state.Admits label →
      (state.step label).Inv := fun _ _ inv admits => inv.step admits
  exact (admitted.invariant keeps initial_inv).oneLoop

private def mailer : JsString := js "mailer"

theorem mailer_has_one_loop : (run step initial
    [.subscribe mailer 1, .bootstrap, .iterate, .returns, .iterate, .unsubscribe mailer,
      .subscribe mailer 2, .completes 0 .delivery, .returns]).OneLoop ∧
    (run step initial
      [.subscribe mailer 1, .bootstrap, .iterate, .returns, .iterate, .unsubscribe mailer,
        .subscribe mailer 2, .completes 0 .delivery, .returns]).calls =
      [⟨mailer, 1⟩, ⟨mailer, 2⟩] := by
  constructor
  · apply one_loop_per_consumer
    refine ⟨fun _ _ => List.not_mem_nil, trivial, trivial, trivial, trivial, trivial, ?_, trivial, trivial,
      trivial⟩
    exact fun _ _ => List.not_mem_nil
  · decide +kernel

/-- A subscriber that subscribes its consumer anew while it is called at once leaves two loops. -/
theorem resubscribed_inside_has_two_loops : ¬ (run step initial
    [.subscribe mailer 1, .bootstrap, .iterate, .unsubscribe mailer, .subscribe mailer 2, .returns,
      .returns, .iterate, .iterate]).OneLoop := by
  intro kept
  have first : (run step initial
      [.subscribe mailer 1, .bootstrap, .iterate, .unsubscribe mailer, .subscribe mailer 2, .returns,
        .returns, .iterate, .iterate]).running 0 = some ⟨mailer, .delivering 1⟩ := by
    decide +kernel
  have second : (run step initial
      [.subscribe mailer 1, .bootstrap, .iterate, .unsubscribe mailer, .subscribe mailer 2, .returns,
        .returns, .iterate, .iterate]).running 1 = some ⟨mailer, .delivering 2⟩ := by
    decide +kernel
  cases kept.alone 0 1 _ _ first second rfl

end DeliveryLoops

end N2FNest.Events
