import Mathlib.Logic.Function.Basic
import N2FNest.Events.Mailbox
import N2FNest.Lib.Run

/-! The delivery loops of `EventDelivery`. One thread runs them: what is called runs to its end, or
to its first `await`, before anything else does. The stack holds the calls of `inbox.deliver` that
have not got to their first `await`; an inbox may call the subscriber there, and a subscriber may
call back. -/

namespace N2FNest.Events

open Lib Shared

/-- An entry of `#subscribers`; an iteration follows the serials, and sees entries added late. -/
structure Subscription (Subscriber : Type) where
  serial : Nat
  consumer : JsString
  subscriber : Subscriber

/-- An entry of `#loops`, by the number of the loop whose promise it holds. -/
structure LoopEntry where
  consumer : JsString
  loop : Nat

/-- What a running loop awaits: a delivery, one of `#waiters`, or its turn. -/
inductive LoopPhase (Subscriber : Type) where
  | delivering (subscriber : Subscriber)
  | waiting
  | woken
  deriving DecidableEq

structure Loop (Subscriber : Type) where
  consumer : JsString
  phase : LoopPhase Subscriber
  deriving DecidableEq

def Loop.wake {Subscriber : Type} (loop : Loop Subscriber) : Loop Subscriber :=
  match loop.phase with
  | .waiting => { loop with phase := .woken }
  | _ => loop

/-- A call that has not returned. `visited` bounds the serials the iteration has seen. -/
inductive Frame where
  | bootstrapping (visited : Nat)
  | starting (consumer : JsString) (loop : Nat)
  | continuing (loop : Nat)
  deriving DecidableEq

/-- A call of `inbox.deliver`. -/
structure DeliverCall (Subscriber : Type) where
  consumer : JsString
  subscriber : Subscriber
  deriving DecidableEq

/-- `calls` is a history that no step reads. -/
structure DeliveryLoops (Subscriber : Type) where
  subscriptions : Table (fun entry : Subscription Subscriber => entry.consumer)
  nextSerial : Nat
  loops : Table (fun entry : LoopEntry => entry.consumer)
  running : Nat → Option (Loop Subscriber)
  created : Nat
  /-- Whether the signal is aborted, from the bootstrap on. -/
  abort : Option Bool
  stack : List Frame
  /-- The loops whose end `onModuleDestroy` awaits. -/
  awaited : Option (List Nat)
  destroyed : Bool
  calls : List (DeliverCall Subscriber)

inductive DeliverResult where
  | failed | nothing | delivery
  deriving DecidableEq

inductive LoopLabel (Subscriber : Type) where
  | subscribe (consumer : JsString) (subscriber : Subscriber)
  | unsubscribe (consumer : JsString)
  | bootstrap
  /-- The bootstrap looks at the next consumer. -/
  | iterate
  /-- A call of `inbox.deliver` gets to its first `await`. -/
  | returns
  | completes (loop : Nat) (result : DeliverResult)
  /-- The `#wake` of a publication that the inbox accepted. -/
  | publish
  | timer (loop : Nat)
  | resume (loop : Nat)
  | destroy
  /-- What `onModuleDestroy` awaits has ended. -/
  | settle

namespace DeliveryLoops

variable {Subscriber : Type}

def initial : DeliveryLoops Subscriber where
  subscriptions := Table.empty
  nextSerial := 0
  loops := Table.empty
  running := fun _ => none
  created := 0
  abort := none
  stack := []
  awaited := none
  destroyed := false
  calls := []

/-- No code but the bootstrap's own runs where it is on top. -/
def yields (state : DeliveryLoops Subscriber) : Bool :=
  match state.stack with
  | .bootstrapping _ :: _ => false
  | _ => true

def wake (state : DeliveryLoops Subscriber) : DeliveryLoops Subscriber :=
  { state with running := fun loop => (state.running loop).map Loop.wake }

/-- The end of `#run`. -/
def ended (state : DeliveryLoops Subscriber) (loop : Nat) (consumer : JsString) :
    DeliveryLoops Subscriber :=
  { state with
    loops := state.loops.delete consumer
    running := Function.update state.running loop none }

/-- The head of the `while` in `#run`, up to the call of `inbox.deliver`. -/
def turn (state : DeliveryLoops Subscriber) (loop : Nat) (consumer : JsString) (frame : Frame) :
    DeliveryLoops Subscriber :=
  if state.abort = some true then state.ended loop consumer
  else match state.subscriptions.get consumer with
    | none => state.ended loop consumer
    | some entry =>
      { state with
        running := Function.update state.running loop (some ⟨consumer, .delivering entry.subscriber⟩)
        stack := frame :: state.stack
        calls := state.calls ++ [⟨consumer, entry.subscriber⟩] }

/-- `#start`. Its `set` follows the call of `#run`: at once where that has ended, and otherwise where
the call of `inbox.deliver` returns. -/
def start (state : DeliveryLoops Subscriber) (consumer : JsString) : DeliveryLoops Subscriber :=
  if (state.loops.get consumer).isSome then state
  else
    let loop := state.created
    let begun := { state with created := loop + 1 }
    let after := begun.turn loop consumer (.starting consumer loop)
    if (after.running loop).isNone then { after with loops := after.loops.set ⟨consumer, loop⟩ }
    else after

/-- Whether `subscribe` does not throw. -/
def accepts (state : DeliveryLoops Subscriber) (consumer : JsString) : Bool :=
  isConsumer consumer && (state.subscriptions.get consumer).isNone

def subscribe (state : DeliveryLoops Subscriber) (consumer : JsString) (subscriber : Subscriber) :
    DeliveryLoops Subscriber :=
  if state.accepts consumer then
    let subscribed := { state with
      subscriptions := state.subscriptions.set ⟨state.nextSerial, consumer, subscriber⟩
      nextSerial := state.nextSerial + 1 }
    if state.abort.isSome then subscribed.start consumer else subscribed
  else state

def iterate (state : DeliveryLoops Subscriber) : DeliveryLoops Subscriber :=
  match state.stack with
  | .bootstrapping visited :: rest =>
    match state.subscriptions.rows.find? fun entry => visited ≤ entry.serial with
    | none => { state with stack := rest }
    | some entry =>
      { state with stack := .bootstrapping (entry.serial + 1) :: rest }.start entry.consumer
  | _ => state

def returns (state : DeliveryLoops Subscriber) : DeliveryLoops Subscriber :=
  match state.stack with
  | .starting consumer loop :: rest =>
    { state with stack := rest, loops := state.loops.set ⟨consumer, loop⟩ }
  | .continuing _ :: rest => { state with stack := rest }
  | _ => state

def completes (state : DeliveryLoops Subscriber) (loop : Nat) (result : DeliverResult) :
    DeliveryLoops Subscriber :=
  match state.running loop with
  | some ⟨consumer, .delivering _⟩ =>
    if state.abort = some true then state.ended loop consumer
    else match result with
      | .delivery => state.turn loop consumer (.continuing loop)
      | _ => { state with running := Function.update state.running loop (some ⟨consumer, .waiting⟩) }
  | _ => state

def resume (state : DeliveryLoops Subscriber) (loop : Nat) : DeliveryLoops Subscriber :=
  match state.running loop with
  | some ⟨consumer, .woken⟩ => state.turn loop consumer (.continuing loop)
  | _ => state

def timer (state : DeliveryLoops Subscriber) (loop : Nat) : DeliveryLoops Subscriber :=
  match state.running loop with
  | some ⟨consumer, .waiting⟩ =>
    { state with running := Function.update state.running loop (some ⟨consumer, .woken⟩) }
  | _ => state

/-- `onModuleDestroy` up to its `await`. -/
def destroy (state : DeliveryLoops Subscriber) : DeliveryLoops Subscriber :=
  { state.wake with
    abort := some true
    awaited := some (state.loops.rows.map LoopEntry.loop) }

def settle (state : DeliveryLoops Subscriber) : DeliveryLoops Subscriber :=
  match state.awaited with
  | some awaited =>
    if ∀ loop ∈ awaited, state.running loop = none then
      { state with destroyed := true, loops := Table.empty }
    else state
  | none => state

/-- A promise's continuation and a timer run when nothing else does; the application calls
`onApplicationBootstrap` once, and `onModuleDestroy` once after it. -/
def step (state : DeliveryLoops Subscriber) : LoopLabel Subscriber → DeliveryLoops Subscriber
  | .subscribe consumer subscriber =>
    if state.yields then state.subscribe consumer subscriber else state
  | .unsubscribe consumer =>
    if state.yields then { state with subscriptions := state.subscriptions.delete consumer } else state
  | .bootstrap =>
    if state.abort = none then
      { state with abort := some false, stack := .bootstrapping 0 :: state.stack }
    else state
  | .iterate => state.iterate
  | .returns => state.returns
  | .completes loop result => if state.stack = [] then state.completes loop result else state
  | .publish => if state.stack = [] then state.wake else state
  | .timer loop => if state.stack = [] then state.timer loop else state
  | .resume loop => if state.stack = [] then state.resume loop else state
  | .destroy => if state.yields ∧ state.abort = some false then state.destroy else state
  | .settle => if state.stack = [] then state.settle else state

end DeliveryLoops

end N2FNest.Events
