import N2FNest.Lib.Run
import N2FNest.Shared.Failure
import N2FNest.Shared.Value

/-! Outgoing mail: a bounded queue in the process, drained by one loop, a message at a time. -/

namespace N2FNest.Mail

open Lib Shared

/-- `recipient` is the message's `to`. -/
structure MailMessage where
  recipient : JsString
  subject : JsString
  text : JsString
  deriving DecidableEq

/-- `[^\s@<>,;"]`. -/
def isAddressUnit (unit : UInt16) : Bool :=
  !JsString.isSpace unit && !(List.contains [0x40, 0x3C, 0x3E, 0x2C, 0x3B, 0x22] unit)

/-- A single plain address. -/
def isAddress (text : JsString) : Bool :=
  match text.units.splitOn 0x40 with
  | [name, domain] => name ≠ [] && domain ≠ [] && name.all isAddressUnit && domain.all isAddressUnit
  | _ => false

def validMessage (message : MailMessage) : Bool :=
  isAddress message.recipient && message.recipient.length ≤ 320 &&
    !message.subject.units.any (fun unit => unit == 0x0D || unit == 0x0A) &&
    message.subject.length ≤ 200 && message.text.length ≤ 20000

def invalidMessage : Failure := failure .invalid "mail message is invalid" "mail.invalid_message"

def queueFull : Failure := failure .unavailable "mail queue is unavailable" "mail.queue_full"

def QUEUE_LIMIT : Nat := 1000

def ATTEMPTS : Nat := 4

def BASE_DELAY_MS : Nat := 2000

/-- One `sendMail` and how it ended. -/
structure Attempt where
  began : Nat
  ended : Nat
  succeeded : Bool

/-- What became of a message; `stopping` is the mailer's at that time. -/
structure Delivery where
  message : MailMessage
  attempts : List Attempt
  stopping : Bool

/-- `running`, and where its loop is. In `drained` the loop has ended and `finally` has not run. -/
inductive Work where
  | idle
  | sending (message : MailMessage) (attempt : Nat) (began : Nat) (tried : List Attempt)
  | waiting (message : MailMessage) (attempt : Nat) (wakesAt : Nat) (tried : List Attempt)
  | delivered
  | drained

/-- `accepted` and `settled` record what was taken and what became of it. -/
structure SmtpMailer where
  now : Nat
  queue : List MailMessage
  work : Work
  stopping : Bool
  accepted : List MailMessage
  settled : List Delivery

/-- `answered` is the end of a `sendMail`, `woke` the timer of a wait, `resume` the loop after
`deliver`, and `ended` its `finally`. -/
inductive MailLabel where
  | tick (milliseconds : Nat)
  | send (message : MailMessage)
  | answered (succeeded : Bool)
  | woke
  | resume
  | ended
  | stop

namespace SmtpMailer

def initial : SmtpMailer := ⟨0, [], .idle, false, [], []⟩

/-- The head of the loop of `drain`. -/
def next (mailer : SmtpMailer) : SmtpMailer :=
  match mailer.queue with
  | [] => { mailer with work := .drained }
  | message :: rest => { mailer with queue := rest, work := .sending message 1 mailer.now [] }

/-- The checks of `send`. -/
def refuses (mailer : SmtpMailer) (message : MailMessage) : Option Failure :=
  if validMessage message = false then some invalidMessage
  else if mailer.stopping = true ∨ QUEUE_LIMIT ≤ mailer.queue.length then some queueFull
  else none

def push (mailer : SmtpMailer) (message : MailMessage) : SmtpMailer :=
  { mailer with queue := mailer.queue ++ [message], accepted := mailer.accepted ++ [message] }

def send (mailer : SmtpMailer) (message : MailMessage) : SmtpMailer × Except Failure Unit :=
  match mailer.refuses message with
  | some error => (mailer, .error error)
  | none => match mailer.work with
    | .idle => ((mailer.push message).next, .ok ())
    | _ => (mailer.push message, .ok ())

/-- `deliver` returns. -/
def settle (mailer : SmtpMailer) (message : MailMessage) (attempts : List Attempt) : SmtpMailer :=
  { mailer with
    work := .delivered
    settled := mailer.settled ++ [⟨message, attempts, mailer.stopping⟩] }

def answered (mailer : SmtpMailer) (succeeded : Bool) : SmtpMailer :=
  match mailer.work with
  | .sending message attempt began tried =>
    let tried := tried ++ [⟨began, mailer.now, succeeded⟩]
    if succeeded then mailer.settle message tried
    else if attempt = ATTEMPTS ∨ mailer.stopping = true then mailer.settle message tried
    else { mailer with
      work := .waiting message attempt (mailer.now + BASE_DELAY_MS * Nat.pow 2 (attempt - 1)) tried }
  | _ => mailer

def woke (mailer : SmtpMailer) : SmtpMailer :=
  match mailer.work with
  | .waiting message attempt wakesAt tried =>
    if wakesAt ≤ mailer.now then
      { mailer with work := .sending message (attempt + 1) mailer.now tried }
    else mailer
  | _ => mailer

def resume (mailer : SmtpMailer) : SmtpMailer :=
  match mailer.work with
  | .delivered => mailer.next
  | _ => mailer

def ended (mailer : SmtpMailer) : SmtpMailer :=
  match mailer.work with
  | .drained => { mailer with work := .idle }
  | _ => mailer

def step (mailer : SmtpMailer) : MailLabel → SmtpMailer
  | .tick milliseconds => { mailer with now := mailer.now + milliseconds }
  | .send message => (mailer.send message).1
  | .answered succeeded => mailer.answered succeeded
  | .woke => mailer.woke
  | .resume => mailer.resume
  | .ended => mailer.ended
  | .stop => { mailer with stopping := true }

end SmtpMailer

end N2FNest.Mail
