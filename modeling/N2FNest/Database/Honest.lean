import N2FNest.Database.Transaction

/-! What the answer of a transaction tells, in every interleaving: the client is
released once, one of the two racing promises decides, and the answer agrees with
what the server did and will do. -/

namespace N2FNest.Database.Transaction

open Lib Shared

variable {T : Type}

namespace State

/-- The client is released once, destroyed if the operation was stopped or threw. -/
structure Leased (state : State T) : Prop where
  counted : state.releases.length = state.released.toNat
  destroyed : ∀ call ∈ state.releases, call.destroy = (call.fired || call.threw)
  unleased : state.connected = false → state.released = false ∧ state.armed = false
  connecting : state.phase = .connecting → state.connected = false
  leased : state.phase ≠ .connecting → state.phase ≠ .settled → state.connected = true
  stopped : state.aborted = true → state.released = true
  threw : state.threw = true → state.released = true
  settled : state.connected = true → state.phase = .settled → state.released = true

namespace Leased

variable {state : State T}

theorem logged_length (leased : state.Leased) (call : Release) : (state.logged call).length = 1 := by
  have counted := leased.counted
  unfold logged
  cases freed : state.released <;> simp_all

theorem mem_logged (leased : state.Leased) {call entry : Release}
    (cause : state.released = false → call.destroy = (call.fired || call.threw))
    (member : entry ∈ state.logged call) : entry.destroy = (entry.fired || entry.threw) := by
  unfold logged at member
  cases freed : state.released with
  | true =>
    rw [freed, if_pos rfl] at member
    exact leased.destroyed entry member
  | false =>
    simp only [freed, Bool.false_eq_true, if_false, List.mem_append, List.mem_singleton] at member
    rcases member with earlier | rfl
    · exact leased.destroyed entry earlier
    · exact cause freed

/-- Nothing stopped the operation and it did not throw while the client is held. -/
theorem live (leased : state.Leased) (held : state.released = false) :
    state.aborted = false ∧ state.threw = false := by
  constructor
  · cases aborted : state.aborted with
    | false => rfl
    | true => exact absurd (leased.stopped aborted) (by simp [held])
  · cases threw : state.threw with
    | false => rfl
    | true => exact absurd (leased.threw threw) (by simp [held])

/-- A step of the operation between its start and its end touches nothing of the lease. -/
private theorem between (leased : state.Leased) (phase : Phase T)
    (before : state.phase ≠ .connecting ∧ state.phase ≠ .settled)
    (after : phase ≠ .connecting ∧ phase ≠ .settled) : { state with phase }.Leased :=
  { leased with
    connecting := fun same => absurd same after.1
    leased := fun _ _ => leased.leased before.1 before.2
    settled := fun _ same => absurd same after.2 }

theorem moves {after : State T} (leased : state.Leased) (move : state.Moves after) :
    after.Leased := by
  cases move with
  | noted signalled armed returned timer answered =>
    refine { leased with unleased := ?_ }
    intro unconnected
    obtain ⟨held, off⟩ := leased.unleased unconnected
    refine ⟨held, ?_⟩
    cases armed with
    | false => rfl
    | true => exact absurd (timer rfl) (by simp [off])
  | refused error phase =>
    have unconnected := leased.connecting phase
    refine { leased with connecting := by rintro ⟨⟩, leased := ?_, settled := ?_ }
    · exact fun _ other => absurd rfl other
    · intro connected
      cases unconnected.symm.trans connected
  | begun phase =>
    exact { leased with
      unleased := by rintro ⟨⟩, connecting := by rintro ⟨⟩, leased := fun _ _ => rfl,
      settled := by rintro _ ⟨⟩ }
  | late phase =>
    rw [stop_eq]
    exact ⟨leased.logged_length _, fun _ => leased.mem_logged fun _ => rfl, by simp, by simp,
      fun _ _ => rfl, fun _ => rfl, fun _ => rfl, by simp⟩
  | stopped byCaller signalled armed connected =>
    rw [stop_eq]
    exact ⟨leased.logged_length _, fun _ => leased.mem_logged fun _ => rfl,
      by simp [connected], leased.connecting,
      leased.leased, fun _ => rfl, fun _ => rfl, fun _ _ => rfl⟩
  | entered phase reply =>
    exact { leased.between .running (by simp [phase]) (by simp) with }
  | waited phase aborted => exact leased.between .stopping (by simp [phase]) (by simp)
  | rolling error phase live =>
    exact { leased.between (.rollingBack error) (by simp [phase]) (by simp) with }
  | committing value phase live =>
    exact { leased.between (.committing value) (by simp [phase]) (by simp) with }
  | finished ends kept =>
    have connected : state.connected = true := by
      cases ends <;> exact leased.leased (by simp [*]) (by simp [*])
    rw [finish_eq]
    refine ⟨leased.logged_length _, fun _ => leased.mem_logged fun held => ?_,
      by simp [connected], by simp,
      fun _ other => absurd rfl other, fun _ => rfl, fun _ => rfl, fun _ _ => rfl⟩
    simp [leased.live held]
  | thrown throws kept =>
    have connected : state.connected = true := by
      cases throws with
      | callback phase => exact leased.leased (by simp [phase]) (by simp [phase])
      | refused awaits reply =>
        refine leased.leased ?_ ?_ <;> intro phase <;> simp [phase, Phase.awaits] at awaits
      | lost awaits =>
        refine leased.leased ?_ ?_ <;> intro phase <;> simp [phase, Phase.awaits] at awaits
    rw [throw_eq]
    exact ⟨leased.logged_length _, fun _ => leased.mem_logged fun _ => by simp,
      by simp [connected], by simp,
      fun _ other => absurd rfl other, fun _ => rfl, fun _ => rfl, fun _ _ => rfl⟩
  | served answer =>
    rcases served_cases state answer with same | ⟨_, _, _, _, _, same, _⟩
    · rw [same]
      exact leased
    · rw [same]
      exact { leased with }
  | disconnected => exact { leased with }

end Leased

/-- The race is decided exactly when the operation was stopped or has settled. -/
structure Raced (state : State T) : Prop where
  answered : state.aborted = true ∨ state.phase = .settled ↔ state.result.isSome = true
  stopped : state.stopped.isSome = state.aborted

theorem Raced.moves {state after : State T} (raced : state.Raced) (move : state.Moves after) :
    after.Raced := by
  have answered := raced.answered
  cases move with
  | noted signalled armed returned timer answered => exact { raced with }
  | refused error phase => exact { raced with answered := by simp [refuse] }
  | begun phase => exact { raced with answered := by simpa [send, phase] using answered }
  | late phase =>
    rw [stop_eq]
    constructor
    · cases ended : state.stopped.isSome with
      | true => simpa [ended, raced.stopped.symm.trans ended] using answered
      | false => simp
    · simp
  | stopped byCaller signalled armed connected =>
    rw [stop_eq]
    constructor
    · cases ended : state.stopped.isSome with
      | true => simpa [ended, raced.stopped.symm.trans ended] using answered
      | false => simp
    · simp
  | entered phase reply => exact { raced with answered := by simpa [phase] using answered }
  | waited phase aborted => exact { raced with answered := by simpa [phase] using answered }
  | rolling error phase live => exact { raced with answered := by simpa [send, phase] using answered }
  | committing value phase live =>
    exact { raced with answered := by simpa [send, phase] using answered }
  | finished ends kept =>
    rw [finish_eq]
    exact { raced with answered := by simp }
  | thrown throws kept =>
    rw [throw_eq]
    exact { raced with answered := by simp }
  | served answer =>
    rcases served_cases state answer with same | ⟨_, _, _, _, _, same, _⟩
    · rw [same]
      exact raced
    · rw [same]
      exact { raced with }
  | disconnected => exact { raced with }

/-- The server has not committed, and no `COMMIT` is on its way to it. -/
def Uncommitted (state : State T) : Prop :=
  state.server ≠ .committed ∧ state.inflight ≠ some .commit

/-- One statement is under way at a time, and `COMMIT` only while `committing` is set. -/
structure Wired (state : State T) : Prop where
  quiet : state.committing = false → state.Uncommitted
  started : state.committing = true → (∃ value, state.phase = .committing value) ∨ state.phase = .settled
  commits : ∀ value, state.phase = .committing value → state.committing = true
  single : state.reply.isSome = true → state.inflight = none
  idle : state.phase = .connecting ∨ state.phase = .running ∨ state.phase = .stopping →
    state.inflight = none ∧ state.reply = none
  received : ∀ value reply, state.phase = .committing value → state.reply = some reply →
    if reply = .tag .commit then state.server = .committed else state.Uncommitted

namespace Wired

variable {state : State T}

/-- `committing` is set in the step that sends `COMMIT`. -/
theorem uncommitted (wired : state.Wired) (before : ∀ value, state.phase ≠ .committing value)
    (unsettled : state.phase ≠ .settled) : state.committing = false ∧ state.Uncommitted := by
  cases flag : state.committing with
  | false => exact ⟨rfl, wired.quiet flag⟩
  | true =>
    rcases wired.started flag with ⟨value, phase⟩ | settled
    · exact absurd phase (before value)
    · exact absurd settled unsettled

theorem moves {after : State T} (wired : state.Wired) (move : state.Moves after) :
    after.Wired := by
  cases move with
  | noted signalled armed returned timer answered => exact { wired with }
  | refused error phase =>
    exact { wired with
      started := fun _ => .inr rfl, commits := nofun, idle := nofun, received := nofun }
  | begun phase =>
    obtain ⟨flag, free, _⟩ := wired.uncommitted (by simp [phase]) (by simp [phase])
    obtain ⟨_, unanswered⟩ := wired.idle (.inl phase)
    refine ⟨fun _ => ⟨free, nofun⟩, ?_, nofun, ?_, nofun, nofun⟩
    · exact fun set => (nomatch flag.symm.trans set)
    · simp [send, unanswered]
  | late phase =>
    obtain ⟨flag, free⟩ := wired.uncommitted (by simp [phase]) (by simp [phase])
    have idle := wired.idle (.inl phase)
    rw [stop_eq]
    refine ⟨fun _ => free, ?_, nofun, wired.single, fun _ => idle, nofun⟩
    exact fun set => (nomatch flag.symm.trans set)
  | stopped byCaller signalled armed connected =>
    rw [stop_eq]
    exact { wired with }
  | entered phase reply =>
    obtain ⟨flag, free⟩ := wired.uncommitted (by simp [phase]) (by simp [phase])
    refine ⟨fun _ => free, ?_, nofun, nofun, fun _ => ⟨wired.single reply, rfl⟩, nofun⟩
    exact fun set => (nomatch flag.symm.trans set)
  | waited phase aborted =>
    obtain ⟨flag, free⟩ := wired.uncommitted (by simp [phase]) (by simp [phase])
    have idle := wired.idle (.inr (.inl phase))
    refine ⟨fun _ => free, ?_, nofun, wired.single, fun _ => idle, nofun⟩
    exact fun set => (nomatch flag.symm.trans set)
  | rolling error phase live =>
    obtain ⟨flag, free, _⟩ := wired.uncommitted (by simp [phase]) (by simp [phase])
    obtain ⟨_, unanswered⟩ := wired.idle (.inr (.inl phase))
    refine ⟨fun _ => ⟨free, nofun⟩, ?_, nofun, ?_, nofun, nofun⟩
    · exact fun set => (nomatch flag.symm.trans set)
    · simp [send, unanswered]
  | committing value phase live =>
    obtain ⟨_, unanswered⟩ := wired.idle (.inr (.inl phase))
    refine ⟨nofun, fun _ => .inl ⟨value, rfl⟩, fun _ _ => rfl, ?_, nofun, ?_⟩
    · simp [send, unanswered]
    · intro _ reply _ found
      exact nomatch unanswered.symm.trans found
  | finished ends kept =>
    rw [finish_eq]
    refine ⟨wired.quiet, fun _ => .inr rfl, nofun, ?_, nofun, nofun⟩
    rcases kept with rfl | rfl
    · exact nofun
    · exact wired.single
  | thrown throws kept =>
    rw [throw_eq]
    refine ⟨wired.quiet, fun _ => .inr rfl, nofun, ?_, nofun, nofun⟩
    rcases kept with rfl | rfl
    · exact nofun
    · exact wired.single
  | served answer =>
    rcases served_cases state answer with same | ⟨statement, reply, server, sent, _, same, told⟩
    · rw [same]
      exact wired
    · rw [same]
      refine ⟨?_, wired.started, wired.commits, fun _ => rfl, ?_, ?_⟩
      · intro flag
        refine ⟨?_, nofun⟩
        split at told
        · exact absurd (sent.trans (congrArg some told.1)) (wired.quiet flag).2
        · exact told
      · intro phase
        exact nomatch (wired.idle phase).1.symm.trans sent
      · intro value seen phase found
        cases Option.some.inj found
        split at told
        · rename_i tag
          rw [if_pos tag]
          exact told.2
        · rename_i tag
          rw [if_neg tag]
          exact ⟨told, nofun⟩
  | disconnected =>
    have kept : ∀ server, server ≠ .committed →
        (if server = Server.opened then .rolledBack else server) ≠ .committed := by
      intro server other
      split
      · exact nofun
      · exact other
    refine ⟨?_, wired.started, wired.commits, fun _ => rfl, ?_, ?_⟩
    · exact fun flag => ⟨kept _ (wired.quiet flag).1, nofun⟩
    · exact fun phase => ⟨rfl, (wired.idle phase).2⟩
    · intro value reply phase found
      have told := wired.received value reply phase found
      split at told
      · rename_i tag
        rw [if_pos tag]
        simp [step, told]
      · rename_i tag
        rw [if_neg tag]
        exact ⟨kept _ told.1, nofun⟩

end Wired

/-- The operation sends no `COMMIT` from here on. -/
def Silent (state : State T) : Prop := state.aborted = true ∨ state.phase = .settled

/-- What an answer says of the server. -/
def Honest (state : State T) : Except Failure T → Prop
  | .ok _ => state.server = .committed
  | .error error => error.type = some "database.commit_uncertain" ∨
      state.Uncommitted ∧ state.Silent

theorem committed_stays {state after : State T} (committed : state.server = .committed)
    (move : state.Moves after) : after.server = .committed := by
  cases move with
  | late phase => rw [stop_eq]; exact committed
  | stopped byCaller signalled armed connected => rw [stop_eq]; exact committed
  | finished ends kept => rw [finish_eq]; exact committed
  | thrown throws kept => rw [throw_eq]; exact committed
  | served answer =>
    rcases served_cases state answer with same | ⟨_, _, _, _, other, _⟩
    · rw [same]
      exact committed
    · exact absurd committed other
  | disconnected => simp [step, committed]
  | _ => exact committed

theorem uncommitted_stays {state after : State T} (free : state.Uncommitted) (silent : state.Silent)
    (move : state.Moves after) : after.Uncommitted ∧ after.Silent := by
  cases move with
  | noted signalled armed returned timer answered => exact ⟨free, silent⟩
  | refused error phase => exact ⟨free, .inr rfl⟩
  | begun phase =>
    refine ⟨⟨free.1, by rintro ⟨⟩⟩, .inl (silent.resolve_right ?_)⟩
    simp [phase]
  | late phase => rw [stop_eq]; exact ⟨free, .inl rfl⟩
  | stopped byCaller signalled armed connected => rw [stop_eq]; exact ⟨free, .inl rfl⟩
  | entered phase reply =>
    refine ⟨free, .inl (silent.resolve_right ?_)⟩
    simp [phase]
  | waited phase aborted => exact ⟨free, .inl aborted⟩
  | rolling error phase live =>
    refine ⟨⟨free.1, by rintro ⟨⟩⟩, .inl (silent.resolve_right ?_)⟩
    simp [phase]
  | committing value phase live =>
    rcases silent with aborted | settled
    · cases live.symm.trans aborted
    · cases phase.symm.trans settled
  | finished ends kept => rw [finish_eq]; exact ⟨free, .inr rfl⟩
  | thrown throws kept => rw [throw_eq]; exact ⟨free, .inr rfl⟩
  | served answer =>
    rcases served_cases state answer with same | ⟨_, _, _, sent, _, same, told⟩
    · rw [same]
      exact ⟨free, silent⟩
    · rw [same]
      refine ⟨⟨?_, by rintro ⟨⟩⟩, silent⟩
      split at told
      · exact absurd (sent.trans (congrArg some told.1)) free.2
      · exact told
  | disconnected =>
    refine ⟨⟨?_, by rintro ⟨⟩⟩, silent⟩
    simp only [step]
    split
    · simp
    · exact free.1

theorem Honest.moves {state after : State T} {value : Except Failure T} (honest : state.Honest value)
    (move : state.Moves after) : after.Honest value := by
  cases value with
  | ok value => exact committed_stays honest move
  | error error =>
    rcases honest with uncertain | ⟨free, silent⟩
    · exact .inl uncertain
    · exact .inr (uncommitted_stays free silent move)

structure Inv (state : State T) : Prop where
  leased : state.Leased
  raced : state.Raced
  wired : state.Wired
  honest : ∀ value, state.result = some value → state.Honest value
  prompt : ∀ entry ∈ state.sent, entry.1 = .commit → entry.2 = false
  returned : state.returned = true → state.result.isSome = true

namespace Inv

variable {state : State T}

/-- Before a client is there, nothing has been answered. -/
theorem unanswered (inv : state.Inv) (phase : state.phase = .connecting) : state.result = none := by
  have held := (inv.leased.unleased (inv.leased.connecting phase)).1
  have live := (inv.leased.live held).1
  cases found : state.result with
  | none => rfl
  | some value =>
    have decided := inv.raced.answered.mpr (by simp [found])
    simp [live, phase] at decided

/-- The race never changes its mind. -/
theorem result_stays {after : State T} {value : Except Failure T} (inv : state.Inv)
    (found : state.result = some value) (move : state.Moves after) : after.result = some value := by
  cases move with
  | refused error phase => exact nomatch (inv.unanswered phase).symm.trans found
  | late phase => exact nomatch (inv.unanswered phase).symm.trans found
  | stopped byCaller signalled armed connected => rw [stop_eq]; simp [found]
  | finished ends kept => rw [finish_eq]; simp [found]
  | thrown throws kept => rw [throw_eq]; simp [found]
  | served answer =>
    rcases served_cases state answer with same | ⟨_, _, _, _, _, same, _⟩
    · rw [same]
      exact found
    · rw [same]
      exact found
  | _ => exact found

private theorem verdict_honest (inv : state.Inv) (byCaller : Bool) :
    (state.verdict byCaller).type = some "database.commit_uncertain" ∨ state.Uncommitted := by
  cases flag : state.committing with
  | true => exact .inl (by simp [verdict, flag, uncertain, Shared.failure])
  | false => exact .inr (inv.wired.quiet flag)

private theorem caught_honest (inv : state.Inv) {error : Caught} (throws : state.Throws error) :
    (state.caught error).type = some "database.commit_uncertain" ∨ state.Uncommitted := by
  cases flag : state.committing with
  | false => exact .inr (inv.wired.quiet flag)
  | true =>
    rcases inv.wired.started flag with ⟨value, phase⟩ | settled
    · cases throws with
      | callback running => cases phase.symm.trans running
      | refused awaits reply => exact .inr (inv.wired.received value _ phase reply)
      | lost awaits => exact .inl (by simp [caught, flag, commitFailure, uncertain, Shared.failure])
    · cases throws with
      | callback running => cases settled.symm.trans running
      | refused awaits reply => simp [settled, Phase.awaits] at awaits
      | lost awaits => simp [settled, Phase.awaits] at awaits

private theorem ends_honest (inv : state.Inv) {value : Except Failure T} (ends : state.Ends value)
    (open_ : state.result = none) :
    match value with
    | .ok _ => state.server = .committed
    | .error _ => state.Uncommitted := by
  cases ends with
  | undone phase => exact (inv.wired.uncommitted (by simp [phase]) (by simp [phase])).2
  | committed phase reply => exact inv.wired.received _ _ phase reply
  | rolledBack phase reply other =>
    have told := inv.wired.received _ _ phase reply
    rw [if_neg (by simpa using other)] at told
    exact told
  | stopped phase ended =>
    have aborted : state.aborted = true := by
      rw [← inv.raced.stopped, ended]
      rfl
    have answered := inv.raced.answered.mp (.inl aborted)
    simp [open_] at answered

/-- The answer of the move that decides the race is honest. -/
private theorem decides {after : State T} {value : Except Failure T} (inv : state.Inv)
    (open_ : state.result = none) (move : state.Moves after) (found : after.result = some value) :
    after.Honest value := by
  cases move with
  | refused error phase =>
    cases Option.some.inj found
    exact .inr ⟨(inv.wired.uncommitted (by simp [phase]) (by simp [phase])).2, .inr rfl⟩
  | late phase =>
    obtain ⟨flag, free⟩ := inv.wired.uncommitted (by simp [phase]) (by simp [phase])
    rw [stop_eq] at found ⊢
    split at found
    · exact nomatch open_.symm.trans found
    · simp only [open_, Option.none_or, Option.some.injEq] at found
      subst found
      exact .inr ⟨free, .inl rfl⟩
  | stopped byCaller signalled armed connected =>
    rw [stop_eq] at found ⊢
    split at found
    · exact nomatch open_.symm.trans found
    · simp only [open_, Option.none_or, Option.some.injEq] at found
      subst found
      exact (inv.verdict_honest byCaller).imp_right fun free => ⟨free, .inl rfl⟩
  | finished ends kept =>
    have told := inv.ends_honest ends open_
    rw [finish_eq] at found ⊢
    simp only [open_, Option.none_or, Option.some.injEq] at found
    subst found
    split at told
    · exact told
    · exact .inr ⟨told, .inr rfl⟩
  | thrown throws kept =>
    have told := inv.caught_honest throws
    rw [throw_eq] at found ⊢
    simp only [open_, Option.none_or, Option.some.injEq] at found
    subst found
    exact told.imp_right fun free => ⟨free, .inr rfl⟩
  | served answer =>
    rcases served_cases state answer with same | ⟨_, _, _, _, _, same, _⟩
    · rw [same] at found
      exact nomatch open_.symm.trans found
    · rw [same] at found
      exact nomatch open_.symm.trans found
  | _ => exact nomatch open_.symm.trans found

private theorem prompt_moves {after : State T} (inv : state.Inv) (move : state.Moves after) :
    ∀ entry ∈ after.sent, entry.1 = .commit → entry.2 = false := by
  have appended : ∀ statement flag, (statement = .commit → flag = false) →
      ∀ entry ∈ state.sent ++ [(statement, flag)], entry.1 = .commit → entry.2 = false := by
    intro statement flag early entry member commit
    rcases List.mem_append.mp member with earlier | last
    · exact inv.prompt entry earlier commit
    · cases List.mem_singleton.mp last
      exact early commit
  cases move with
  | begun phase => exact appended .begin state.aborted nofun
  | late phase => rw [stop_eq]; exact inv.prompt
  | stopped byCaller signalled armed connected => rw [stop_eq]; exact inv.prompt
  | rolling error phase live => exact appended .rollback state.aborted nofun
  | committing value phase live => exact appended .commit state.aborted fun _ => live
  | finished ends kept => rw [finish_eq]; exact inv.prompt
  | thrown throws kept => rw [throw_eq]; exact inv.prompt
  | served answer =>
    rcases served_cases state answer with same | ⟨_, _, _, _, _, same, _⟩
    · rw [same]
      exact inv.prompt
    · rw [same]
      exact inv.prompt
  | _ => exact inv.prompt

private theorem returned_moves {after : State T} (inv : state.Inv) (move : state.Moves after)
    (returned : after.returned = true) : after.result.isSome = true := by
  have before : state.returned = true → after.result.isSome = true := by
    intro already
    obtain ⟨value, found⟩ := Option.isSome_iff_exists.mp (inv.returned already)
    exact Option.isSome_iff_exists.mpr ⟨value, inv.result_stays found move⟩
  cases move with
  | noted signalled armed flag timer answered => exact (answered returned).elim before id
  | refused error phase => rfl
  | late phase => rw [stop_eq] at returned; exact before returned
  | stopped byCaller signalled armed connected => rw [stop_eq] at returned; exact before returned
  | finished ends kept => rw [finish_eq] at returned; exact before returned
  | thrown throws kept => rw [throw_eq] at returned; exact before returned
  | served answer =>
    rcases served_cases state answer with same | ⟨_, _, _, _, _, same, _⟩
    · rw [same] at returned
      exact before returned
    · rw [same] at returned
      exact before returned
  | _ => exact before returned

theorem moves {after : State T} (inv : state.Inv) (move : state.Moves after) : after.Inv where
  leased := inv.leased.moves move
  raced := inv.raced.moves move
  wired := inv.wired.moves move
  honest value found := by
    cases earlier : state.result with
    | none => exact inv.decides earlier move found
    | some decided =>
      have same : decided = value := Option.some.inj ((inv.result_stays earlier move).symm.trans found)
      exact same ▸ (inv.honest decided earlier).moves move
  prompt := inv.prompt_moves move
  returned := inv.returned_moves move

theorem step_moves (inv : state.Inv) (event : Event T) : state.Moves (state.step event) := by
  refine State.step_moves ?_ event
  intro armed
  cases connected : state.connected with
  | true => rfl
  | false => exact nomatch (inv.leased.unleased connected).2.symm.trans armed

theorem step (inv : state.Inv) (event : Event T) : (state.step event).Inv :=
  inv.moves (inv.step_moves event)

end Inv

theorem start_inv (closing signalled : Bool) : (start closing signalled : State T).Inv := by
  have early : (initial signalled : State T).Inv := by
    refine ⟨⟨rfl, nofun, fun _ => ⟨rfl, rfl⟩, fun _ => rfl, ?_, nofun, nofun, nofun⟩, ⟨?_, rfl⟩,
      ⟨fun _ => ⟨nofun, nofun⟩, nofun, nofun, nofun, fun _ => ⟨rfl, rfl⟩, nofun⟩, nofun, nofun, nofun⟩
    · exact fun other => absurd rfl other
    · simp [initial]
  unfold start
  split
  · exact early.moves (.refused closed rfl)
  · split
    · exact early.moves (.refused canceled rfl)
    · exact early

theorem run_inv (closing signalled : Bool) (events : List (Event T)) :
    (run step (start closing signalled) events).Inv :=
  run_invariant Inv (fun _ event inv => inv.step event) (start_inv closing signalled) events

/-- An answer holds for whatever happens afterwards. -/
theorem run_stays {state : State T} {value : Except Failure T} (inv : state.Inv)
    (found : state.result = some value) (later : List (Event T)) :
    (run step state later).result = some value ∧ (run step state later).Honest value := by
  induction later generalizing state with
  | nil => exact ⟨found, inv.honest value found⟩
  | cons event rest ih => exact ih (inv.step event) (inv.result_stays found (inv.step_moves event))

end State

open State in
/-- In every interleaving an answer tells what the server did and will do,
`COMMIT` is not sent once the operation was stopped, and the client is released
exactly once, destroyed exactly if the operation was stopped or threw before. -/
theorem transaction_reported_honestly (closing signalled : Bool) (events : List (Event T)) :
    let state := run step (start closing signalled) events
    (∀ value, state.result = some (.ok value) → state.server = .committed) ∧
    (∀ error, state.result = some (.error error) →
      error.type ≠ some "database.commit_uncertain" →
      ∀ later, (run step state later).server ≠ .committed) ∧
    (∀ value later, state.result = some value → (run step state later).result = some value) ∧
    (∀ entry ∈ state.sent, entry.1 = .commit → entry.2 = false) ∧
    state.releases.length ≤ 1 ∧ (state.connected = false → state.releases = []) ∧
    (state.returned = true → state.result.isSome = true) ∧
    (state.result.isSome = true → state.connected = true →
      ∃ call, state.releases = [call] ∧ call.destroy = (call.fired || call.threw)) := by
  intro state
  have inv : state.Inv := run_inv closing signalled events
  have counted := inv.leased.counted
  refine ⟨fun value found => inv.honest _ found, ?_, ?_, inv.prompt, ?_, ?_, inv.returned, ?_⟩
  · intro error found certain later
    rcases (run_stays inv found later).2 with uncertain | ⟨free, _⟩
    · exact absurd uncertain certain
    · exact free.1
  · exact fun value later found => (run_stays inv found later).1
  · rw [counted]
    exact Bool.toNat_le state.released
  · intro unconnected
    rw [(inv.leased.unleased unconnected).1] at counted
    exact List.eq_nil_of_length_eq_zero counted
  · intro answered connected
    have released : state.released = true := by
      rcases inv.raced.answered.mpr answered with aborted | settled
      · exact inv.leased.stopped aborted
      · exact inv.leased.settled connected settled
    rw [released] at counted
    obtain ⟨call, only⟩ := List.length_eq_one_iff.mp counted
    exact ⟨call, only, inv.leased.destroyed call (by simp [only])⟩

end N2FNest.Database.Transaction
