import Mathlib.Data.List.Induction
import N2FNest.Mail.Mailer

/-! What becomes of accepted mail over any run of the mailer. -/

namespace N2FNest.Mail

open Lib Shared

/-- Each attempt begins after the delay that the one before it calls for. -/
def Spaced (attempts : List Attempt) : Prop :=
  ∀ before earlier later rest, attempts = before ++ earlier :: later :: rest →
    earlier.ended + BASE_DELAY_MS * Nat.pow 2 before.length ≤ later.began

/-- The delay after the last of some attempts is over by a time. -/
def Rested (attempts : List Attempt) (time : Nat) : Prop :=
  ∀ before last, attempts = before ++ [last] →
    last.ended + BASE_DELAY_MS * Nat.pow 2 before.length ≤ time

/-- A message is tried up to four times until an attempt succeeds; it is given up after the
fourth, or at a failure while the mailer is stopping. -/
structure Delivery.Sound (delivery : Delivery) : Prop where
  tried : ∃ failed last, delivery.attempts = failed ++ [last] ∧ failed.length < ATTEMPTS ∧
    (∀ attempt ∈ failed, attempt.succeeded = false) ∧
    (last.succeeded = true ∨ failed.length + 1 = ATTEMPTS ∨ delivery.stopping = true)
  spaced : Spaced delivery.attempts

theorem Spaced.concat {attempts : List Attempt} {last : Attempt} (spaced : Spaced attempts)
    (rested : Rested attempts last.began) : Spaced (attempts ++ [last]) := by
  intro before earlier later rest same
  rcases List.eq_nil_or_concat rest with rfl | ⟨middle, final, rfl⟩
  · rw [show before ++ [earlier, later] = (before ++ [earlier]) ++ [later] by
      rw [List.append_assoc]; rfl] at same
    obtain ⟨attempts, tail⟩ := List.append_inj' same rfl
    obtain ⟨rfl, -⟩ := List.cons.inj tail
    exact rested before earlier attempts
  · rw [List.concat_eq_append, ← List.cons_append, ← List.cons_append, ← List.append_assoc] at same
    obtain ⟨attempts, -⟩ := List.append_inj' same rfl
    exact spaced before earlier later middle attempts

namespace SmtpMailer

variable {mailer : SmtpMailer} {labels : List MailLabel}

/-- The message that the loop has taken and not settled. -/
def inHand (mailer : SmtpMailer) : List MailMessage :=
  match mailer.work with
  | .sending message _ _ _ | .waiting message _ _ _ => [message]
  | _ => []

/-- The loop is over: it takes no message before another `send` starts it. -/
def Over (mailer : SmtpMailer) : Prop := mailer.work = .idle ∨ mailer.work = .drained

/-- The delivery in progress is sound so far. -/
inductive Delivering : Work → Prop where
  | idle : Delivering .idle
  | delivered : Delivering .delivered
  | drained : Delivering .drained
  | sending {message : MailMessage} {attempt began : Nat} {tried : List Attempt}
    (counted : attempt = tried.length + 1) (bounded : tried.length < ATTEMPTS)
    (failed : ∀ attempt ∈ tried, attempt.succeeded = false) (spaced : Spaced tried)
    (rested : Rested tried began) : Delivering (.sending message attempt began tried)
  | waiting {message : MailMessage} {attempt wakesAt : Nat} {tried : List Attempt}
    (counted : attempt = tried.length) (bounded : tried.length < ATTEMPTS)
    (failed : ∀ attempt ∈ tried, attempt.succeeded = false) (spaced : Spaced tried)
    (rested : Rested tried wakesAt) : Delivering (.waiting message attempt wakesAt tried)

/-- What every step keeps. -/
structure Accounts (mailer : SmtpMailer) : Prop where
  ordered : mailer.accepted = mailer.settled.map Delivery.message ++ (mailer.inHand ++ mailer.queue)
  bounded : mailer.queue.length ≤ QUEUE_LIMIT
  sound : ∀ delivery ∈ mailer.settled, delivery.Sound
  delivering : Delivering mailer.work
  valid : ∀ message ∈ mailer.accepted, validMessage message = true

/-- The loop takes the next message, or ends with none left. -/
theorem Accounts.next (accounts : Accounts mailer) (free : mailer.inHand = []) :
    Accounts mailer.next := by
  have ordered := accounts.ordered
  rw [free, List.nil_append] at ordered
  have bounded := accounts.bounded
  unfold SmtpMailer.next
  split
  · rename_i empty
    exact ⟨ordered, bounded, accounts.sound, .drained, accounts.valid⟩
  · rename_i message rest waiting
    rw [waiting] at ordered bounded
    refine ⟨ordered, Nat.le_of_succ_le bounded, accounts.sound, .sending rfl (by decide) ?_ ?_ ?_,
      accounts.valid⟩
    · exact fun attempt member => absurd member List.not_mem_nil
    · exact fun before earlier later rest same => absurd same.symm (by simp)
    · exact fun before last same => absurd same.symm (by simp)

theorem refuses_none {message : MailMessage} (taken : mailer.refuses message = none) :
    validMessage message = true ∧ mailer.stopping = false ∧ mailer.queue.length < QUEUE_LIMIT := by
  unfold refuses at taken
  split at taken
  · cases taken
  · rename_i sound
    split at taken
    · cases taken
    · rename_i free
      obtain ⟨running, room⟩ := not_or.mp free
      exact ⟨Bool.of_not_eq_false sound, Bool.of_not_eq_true running, Nat.lt_of_not_le room⟩

theorem Accounts.push (accounts : Accounts mailer) {message : MailMessage}
    (taken : mailer.refuses message = none) : Accounts (mailer.push message) where
  ordered := by
    show mailer.accepted ++ [message] = _ ++ (mailer.inHand ++ (mailer.queue ++ [message]))
    rw [accounts.ordered, List.append_assoc, List.append_assoc]
    rfl
  bounded := by
    show (mailer.queue ++ [message]).length ≤ QUEUE_LIMIT
    rw [List.length_append, List.length_singleton]
    exact (refuses_none taken).2.2
  sound := accounts.sound
  delivering := accounts.delivering
  valid := List.forall_mem_append.mpr
    ⟨accounts.valid, List.forall_mem_singleton.mpr (refuses_none taken).1⟩

/-- A message is settled by a sound delivery. -/
theorem Accounts.settle (accounts : Accounts mailer) {message : MailMessage} {attempts : List Attempt}
    (taken : mailer.inHand = [message]) (sound : Delivery.Sound ⟨message, attempts, mailer.stopping⟩) :
    Accounts (mailer.settle message attempts) where
  ordered := by
    show mailer.accepted = (mailer.settled ++ [(⟨message, attempts, mailer.stopping⟩ : Delivery)]).map
      Delivery.message ++ mailer.queue
    rw [accounts.ordered, taken, List.map_append, List.append_assoc]
    rfl
  bounded := accounts.bounded
  sound := List.forall_mem_append.mpr ⟨accounts.sound, List.forall_mem_singleton.mpr sound⟩
  delivering := .delivered
  valid := accounts.valid

theorem Accounts.answered (accounts : Accounts mailer) (succeeded : Bool) :
    Accounts (mailer.answered succeeded) := by
  have delivering := accounts.delivering
  unfold SmtpMailer.answered
  split
  · rename_i message attempt began tried at_work
    rw [at_work] at delivering
    cases delivering with
    | sending counted bounded failed spaced rested =>
      have taken : mailer.inHand = [message] := by rw [inHand, at_work]
      have spaced : Spaced (tried ++ [⟨began, mailer.now, succeeded⟩]) := spaced.concat rested
      have settles : succeeded = true ∨ tried.length + 1 = ATTEMPTS ∨ mailer.stopping = true →
          Accounts (mailer.settle message (tried ++ [⟨began, mailer.now, succeeded⟩])) :=
        fun last => accounts.settle taken ⟨⟨tried, _, rfl, bounded, failed, last⟩, spaced⟩
      dsimp only
      split
      · rename_i good
        exact settles (.inl good)
      rename_i bad
      split
      · rename_i final
        rw [counted] at final
        exact settles (.inr final)
      rename_i again
      rw [counted] at again
      refine ⟨?_, accounts.bounded, accounts.sound, .waiting ?_ ?_ ?_ spaced ?_, accounts.valid⟩
      · exact accounts.ordered.trans (by rw [taken]; rfl)
      · rw [counted, List.length_append, List.length_singleton]
      · rw [List.length_append, List.length_singleton]
        exact Nat.lt_of_le_of_ne bounded (not_or.mp again).1
      · exact List.forall_mem_append.mpr
          ⟨failed, List.forall_mem_singleton.mpr (Bool.of_not_eq_true bad)⟩
      · intro before last same
        obtain ⟨rfl, tail⟩ := List.append_inj' same rfl
        obtain ⟨rfl, -⟩ := List.cons.inj tail
        rw [counted, Nat.add_sub_cancel]
  · exact accounts

theorem Accounts.woke (accounts : Accounts mailer) : Accounts mailer.woke := by
  have delivering := accounts.delivering
  unfold SmtpMailer.woke
  split
  · rename_i message attempt wakesAt tried at_work
    split
    · rename_i due
      rw [at_work] at delivering
      have taken : mailer.inHand = [message] := by rw [inHand, at_work]
      cases delivering with
      | waiting counted bounded failed spaced rested =>
        refine ⟨?_, accounts.bounded, accounts.sound,
          .sending (by rw [counted]) bounded failed spaced ?_, accounts.valid⟩
        · exact accounts.ordered.trans (by rw [taken]; rfl)
        · exact fun before last same => (rested before last same).trans due
    · exact accounts
  · exact accounts

theorem Accounts.send (accounts : Accounts mailer) (message : MailMessage) :
    Accounts (mailer.send message).1 := by
  unfold SmtpMailer.send
  split
  · exact accounts
  · rename_i taken
    split
    · rename_i idle
      exact (accounts.push taken).next (by rw [inHand, SmtpMailer.push, idle])
    · exact accounts.push taken

theorem Accounts.step (accounts : Accounts mailer) (label : MailLabel) :
    Accounts (mailer.step label) := by
  cases label with
  | tick milliseconds =>
    exact ⟨accounts.ordered, accounts.bounded, accounts.sound, accounts.delivering, accounts.valid⟩
  | send message => exact accounts.send message
  | answered succeeded => exact accounts.answered succeeded
  | woke => exact accounts.woke
  | resume =>
    simp only [SmtpMailer.step, resume]
    split
    · rename_i returned
      exact accounts.next (by rw [inHand, returned])
    · exact accounts
  | ended =>
    simp only [SmtpMailer.step, ended]
    split
    · rename_i drained
      have ordered := accounts.ordered
      rw [inHand, drained] at ordered
      exact ⟨ordered, accounts.bounded, accounts.sound, .idle, accounts.valid⟩
    · exact accounts
  | stop =>
    exact ⟨accounts.ordered, accounts.bounded, accounts.sound, accounts.delivering, accounts.valid⟩

theorem accounts_run (labels : List MailLabel) : Accounts (run step initial labels) := by
  refine run_invariant Accounts (fun mailer label accounts => accounts.step label) ?_ labels
  exact ⟨rfl, Nat.zero_le _, fun delivery member => absurd member List.not_mem_nil, .idle,
    fun message member => absurd member List.not_mem_nil⟩

/-- The message was accepted between the end of a loop and its `finally`. -/
def Late (labels : List MailLabel) (message : MailMessage) : Prop :=
  ∃ before rest, labels = before ++ .send message :: rest ∧
    (run step initial before).work = .drained ∧ (run step initial before).refuses message = none

theorem Late.concat {message : MailMessage} (late : Late labels message) (label : MailLabel) :
    Late (labels ++ [label]) message := by
  obtain ⟨before, rest, rfl, ceased, taken⟩ := late
  exact ⟨before, rest ++ [label], by rw [List.append_assoc, List.cons_append], ceased, taken⟩

/-- A step leaves the loop over only where it was, or with an empty queue. -/
private theorem over_step {label : MailLabel} (ceased : (mailer.step label).Over)
    {message : MailMessage} (member : message ∈ (mailer.step label).queue) :
    mailer.Over ∧ (message ∈ mailer.queue ∨
      label = .send message ∧ mailer.work = .drained ∧ mailer.refuses message = none) := by
  have nexts : ∀ before : SmtpMailer, before.next.Over → message ∉ before.next.queue := by
    intro before ceased
    unfold SmtpMailer.next at ceased ⊢
    split at ceased
    · rename_i empty
      rw [show ({ before with work := .drained } : SmtpMailer).queue = [] from empty]
      exact List.not_mem_nil
    · rcases ceased with ceased | ceased <;> cases ceased
  cases label with
  | tick milliseconds => exact ⟨ceased, .inl member⟩
  | stop => exact ⟨ceased, .inl member⟩
  | send other =>
    simp only [SmtpMailer.step, SmtpMailer.send] at ceased member
    split at ceased
    · rename_i error refused
      rw [refused] at member
      exact ⟨ceased, .inl member⟩
    · rename_i taken
      rw [taken] at member
      dsimp only at ceased member
      split at ceased
      · rename_i idle
        rw [idle] at member
        exact absurd member (nexts _ ceased)
      · rename_i busy
        have drained : mailer.work = .drained := by
          rcases ceased with idle | drained
          · exact absurd idle busy
          · exact drained
        rw [drained] at member
        refine ⟨.inr drained, ?_⟩
        rcases List.mem_append.mp member with earlier | last
        · exact .inl earlier
        · cases List.mem_singleton.mp last
          exact .inr ⟨rfl, drained, taken⟩
  | answered succeeded =>
    cases at_work : mailer.work with
    | sending message attempt began tried =>
      simp only [SmtpMailer.step, SmtpMailer.answered, at_work] at ceased
      split at ceased
      · rcases ceased with ceased | ceased <;> cases ceased
      · split at ceased <;> rcases ceased with ceased | ceased <;> cases ceased
    | _ =>
      simp only [SmtpMailer.step, SmtpMailer.answered, at_work] at ceased member
      exact ⟨ceased, .inl member⟩
  | woke =>
    cases at_work : mailer.work with
    | waiting message attempt wakesAt tried =>
      simp only [SmtpMailer.step, SmtpMailer.woke, at_work] at ceased
      split at ceased
      · rcases ceased with ceased | ceased <;> cases ceased
      · rcases ceased with ceased | ceased <;> rw [at_work] at ceased <;> cases ceased
    | _ =>
      simp only [SmtpMailer.step, SmtpMailer.woke, at_work] at ceased member
      exact ⟨ceased, .inl member⟩
  | resume =>
    cases at_work : mailer.work with
    | delivered =>
      simp only [SmtpMailer.step, SmtpMailer.resume, at_work] at ceased member
      exact absurd member (nexts _ ceased)
    | _ =>
      simp only [SmtpMailer.step, SmtpMailer.resume, at_work] at ceased member
      exact ⟨ceased, .inl member⟩
  | ended =>
    cases at_work : mailer.work with
    | drained =>
      simp only [SmtpMailer.step, SmtpMailer.ended, at_work] at member
      exact ⟨.inr at_work, .inl member⟩
    | _ =>
      simp only [SmtpMailer.step, SmtpMailer.ended, at_work] at ceased member
      exact ⟨ceased, .inl member⟩

/-- What waits while the loop is over was accepted too late for it. -/
theorem late_run (labels : List MailLabel) {message : MailMessage}
    (ceased : (run step initial labels).Over) (member : message ∈ (run step initial labels).queue) :
    Late labels message := by
  induction labels using List.reverseRecOn with
  | nil => cases member
  | append_singleton labels label ih =>
    rw [run_append, run_cons, run_nil] at ceased member
    obtain ⟨before, earlier | ⟨rfl, drained, taken⟩⟩ := over_step ceased member
    · exact (ih before earlier).concat label
    · exact ⟨labels, [], rfl, drained, taken⟩

/-- Once the mailer is stopping it accepts nothing more. -/
theorem stopped_step (stopping : mailer.stopping = true) (label : MailLabel) :
    (mailer.step label).stopping = true ∧ (mailer.step label).accepted = mailer.accepted := by
  have nexts : mailer.next.stopping = true ∧ mailer.next.accepted = mailer.accepted := by
    unfold SmtpMailer.next
    split <;> exact ⟨stopping, rfl⟩
  cases label with
  | tick milliseconds => exact ⟨stopping, rfl⟩
  | stop => exact ⟨rfl, rfl⟩
  | send message =>
    cases taken : mailer.refuses message with
    | some error =>
      simp only [SmtpMailer.step, SmtpMailer.send, taken]
      exact ⟨stopping, trivial⟩
    | none =>
      rw [(refuses_none taken).2.1] at stopping
      cases stopping
  | answered succeeded =>
    simp only [SmtpMailer.step, SmtpMailer.answered]
    split
    · split
      · exact ⟨stopping, rfl⟩
      · split <;> exact ⟨stopping, rfl⟩
    · exact ⟨stopping, rfl⟩
  | woke =>
    simp only [SmtpMailer.step, SmtpMailer.woke]
    split
    · split <;> exact ⟨stopping, rfl⟩
    · exact ⟨stopping, rfl⟩
  | resume =>
    simp only [SmtpMailer.step, SmtpMailer.resume]
    split
    · exact nexts
    · exact ⟨stopping, rfl⟩
  | ended =>
    simp only [SmtpMailer.step, SmtpMailer.ended]
    split <;> exact ⟨stopping, rfl⟩

theorem stopped_run (stopping : mailer.stopping = true) (more : List MailLabel) :
    (run step mailer more).accepted = mailer.accepted := by
  induction more generalizing mailer with
  | nil => rfl
  | cons label rest ih =>
    obtain ⟨still, same⟩ := stopped_step stopping label
    rw [run_cons, ih still, same]

/-- A server that answers brings the message in hand to its end. -/
private theorem delivered_run (live : ¬ mailer.Over) :
    ∃ more, (run step mailer more).work = .delivered ∧
      (run step mailer more).queue = mailer.queue ∧ (run step mailer more).accepted = mailer.accepted := by
  cases at_work : mailer.work with
  | idle => exact absurd (.inl at_work) live
  | drained => exact absurd (.inr at_work) live
  | delivered => exact ⟨[], at_work, rfl, rfl⟩
  | sending message attempt began tried =>
    refine ⟨[.answered true], ?_⟩
    simp only [run_cons, run_nil, SmtpMailer.step, SmtpMailer.answered, at_work]
    exact ⟨rfl, rfl, rfl⟩
  | waiting message attempt wakesAt tried =>
    refine ⟨[.tick wakesAt, .woke, .answered true], ?_⟩
    simp only [run_cons, run_nil, SmtpMailer.step, SmtpMailer.woke, at_work, Nat.le_add_left,
      if_true, SmtpMailer.answered]
    exact ⟨rfl, rfl, rfl⟩

/-- A loop that is not over can settle all that waits. -/
theorem drains (live : ¬ mailer.Over) :
    ∃ more, (run step mailer more).work = .drained ∧ (run step mailer more).queue = [] ∧
      (run step mailer more).accepted = mailer.accepted := by
  induction waiting : mailer.queue generalizing mailer with
  | nil =>
    obtain ⟨more, returned, queue, accepted⟩ := delivered_run live
    refine ⟨more ++ [.resume], ?_⟩
    rw [waiting] at queue
    simp only [run_append, run_cons, run_nil, SmtpMailer.step, SmtpMailer.resume, returned,
      SmtpMailer.next, queue]
    exact ⟨trivial, trivial, accepted⟩
  | cons message rest ih =>
    obtain ⟨more, returned, queue, accepted⟩ := delivered_run live
    rw [waiting] at queue
    have taken : run step mailer (more ++ [.resume]) =
        { run step mailer more with
          queue := rest, work := .sending message 1 (run step mailer more).now [] } := by
      simp only [run_append, run_cons, run_nil, SmtpMailer.step, SmtpMailer.resume, returned,
        SmtpMailer.next, queue]
    have onward : ¬ (run step mailer (more ++ [.resume])).Over := by
      rw [taken]
      rintro (ceased | ceased) <;> cases ceased
    obtain ⟨others, drained, empty, same⟩ := ih onward (by rw [taken])
    refine ⟨more ++ [.resume] ++ others, ?_⟩
    rw [run_append]
    refine ⟨drained, empty, same.trans ?_⟩
    rw [taken]
    exact accepted

theorem next_accepted (mailer : SmtpMailer) : mailer.next.accepted = mailer.accepted := by
  unfold next
  cases mailer.queue <;> rfl

/-- `send` answers ok where it takes the message, and otherwise changes nothing. -/
theorem send_answers (mailer : SmtpMailer) (message : MailMessage) :
    if validMessage message = true ∧ mailer.stopping = false ∧ mailer.queue.length < QUEUE_LIMIT then
      (mailer.send message).2 = .ok () ∧
        (mailer.send message).1.accepted = mailer.accepted ++ [message]
    else ∃ error, mailer.send message = (mailer, .error error) := by
  have refused : ∀ error, mailer.refuses message = some error →
      mailer.send message = (mailer, .error error) := by
    intro error refuses
    rw [send, refuses]
  by_cases valid : validMessage message = false
  · rw [if_neg (by simp [valid])]
    exact ⟨_, refused _ (if_pos valid)⟩
  · by_cases full : mailer.stopping = true ∨ QUEUE_LIMIT ≤ mailer.queue.length
    · rw [if_neg]
      · exact ⟨_, refused _ ((if_neg valid).trans (if_pos full))⟩
      · rintro ⟨-, live, room⟩
        rcases full with stopping | full
        · rw [live] at stopping
          cases stopping
        · exact absurd room (Nat.not_lt_of_le full)
    · have taken : mailer.refuses message = none := (if_neg valid).trans (if_neg full)
      obtain ⟨live, room⟩ := not_or.mp full
      rw [if_pos ⟨by simpa using valid, by simpa using live, Nat.lt_of_not_le room⟩, send, taken]
      cases mailer.work with
      | idle => exact ⟨rfl, next_accepted _⟩
      | _ => exact ⟨rfl, rfl⟩

end SmtpMailer

/-- Accepted mail is settled in the order it was accepted, each message once: sent, or given up
after its fourth failure or at one while the mailer is stopping, with the delay before each new
attempt kept. A message is accepted exactly where `send` answers ok: a valid one, while the bounded
queue has room and the mailer is not stopping. Whatever waits while no loop runs was accepted
between a loop's end and its `finally`; a loop that runs can settle everything. -/
theorem mail_settled_in_order (labels : List MailLabel) :
    let mailer := run SmtpMailer.step .initial labels
    mailer.accepted = mailer.settled.map Delivery.message ++ (mailer.inHand ++ mailer.queue) ∧
    (∀ message ∈ mailer.accepted, validMessage message = true) ∧
    (∀ message,
      if validMessage message = true ∧ mailer.stopping = false ∧ mailer.queue.length < QUEUE_LIMIT then
        (mailer.send message).2 = .ok () ∧
          (mailer.send message).1.accepted = mailer.accepted ++ [message]
      else ∃ error, mailer.send message = (mailer, .error error)) ∧
    mailer.queue.length ≤ QUEUE_LIMIT ∧ (∀ delivery ∈ mailer.settled, delivery.Sound) ∧
    (mailer.stopping = true → ∀ more, (run SmtpMailer.step mailer more).accepted = mailer.accepted) ∧
    (mailer.Over → ∀ message ∈ mailer.queue, SmtpMailer.Late labels message) ∧
    (¬ mailer.Over → ∃ more,
      (run SmtpMailer.step mailer more).settled.map Delivery.message = mailer.accepted) := by
  intro mailer
  have accounts : SmtpMailer.Accounts mailer := SmtpMailer.accounts_run labels
  refine ⟨accounts.ordered, accounts.valid, mailer.send_answers, accounts.bounded, accounts.sound,
    SmtpMailer.stopped_run, fun ceased message member => SmtpMailer.late_run labels ceased member, fun live => ?_⟩
  obtain ⟨more, drained, empty, accepted⟩ := SmtpMailer.drains live
  have ordered := (SmtpMailer.accounts_run (labels ++ more)).ordered
  rw [run_append] at ordered
  refine ⟨more, ?_⟩
  have done : (run SmtpMailer.step mailer more).inHand = [] := by rw [SmtpMailer.inHand, drained]
  have settled : (run SmtpMailer.step mailer more).accepted =
      (run SmtpMailer.step mailer more).settled.map Delivery.message := by
    refine ordered.trans ?_
    show _ ++ ((run SmtpMailer.step mailer more).inHand ++ (run SmtpMailer.step mailer more).queue) = _
    rw [done, empty, List.append_nil, List.append_nil]
  rw [← settled, accepted]

/-- A message taken between the end of a loop and its `finally` is left behind. -/
example : (run SmtpMailer.step .initial [.send ⟨js "a@b", js "", js "1"⟩, .answered true, .resume,
    .send ⟨js "a@b", js "", js "2"⟩, .ended]).queue = [⟨js "a@b", js "", js "2"⟩] := by
  decide +kernel

end N2FNest.Mail
