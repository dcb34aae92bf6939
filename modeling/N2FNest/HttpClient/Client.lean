import N2FNest.Lib.Decimal
import N2FNest.Lib.Run
import N2FNest.Shared.Number
import N2FNest.Telemetry.TraceContext

/-! The outbound HTTP client: one bounded attempt a call, any number of calls at once. -/

namespace N2FNest.HttpClient

open Lib Shared Telemetry

structure Url where
  protocol : JsString
  origin : JsString
  username : JsString
  password : JsString
  pathname : JsString
  search : JsString
  hash : JsString

/-- The runtime's `URL`, alone and against a base. -/
structure UrlHost where
  parse : JsString → Option Url
  resolve : JsString → Url → Option Url

structure Config where
  origin : JsString
  timeoutMs : JsNumber
  maxRequest : JsNumber
  maxResponse : JsNumber
  bearer : Option JsString

/-- `trace` is empty inside where the object is no reference of the telemetry module. -/
structure Request where
  method : JsString
  path : JsString
  body : List UInt8
  trace : Option (Option TraceRef)

structure Response where
  status : Nat
  body : List UInt8
  contentType : JsString
  deriving DecidableEq

def fail (kind : Kind) (code : String) : Failure :=
  failure kind "outbound HTTP operation failed" ("httpclient." ++ code)

/-- `/[\r\n]/`. -/
def breaksLine (text : JsString) : Bool := text.units.any fun unit => unit == 0x0D || unit == 0x0A

/-- What `create` accepts. -/
structure Client where
  base : Url
  timeoutMs : Nat
  maxRequest : Nat
  maxResponse : Nat
  bearer : JsString
  unbroken : breaksLine bearer = false

/-- An integer from 1 on. -/
private def bounded (most : Nat) (number : JsNumber) : Option Nat :=
  number.safeNat?.filter fun value => 1 ≤ value ∧ value ≤ most

def Client.create (host : UrlHost) (config : Config) : Except Failure Client :=
  match host.parse config.origin, bounded 30000 config.timeoutMs, bounded 1048576 config.maxRequest,
      bounded 1048576 config.maxResponse with
  | some base, some timeoutMs, some maxRequest, some maxResponse =>
    if (base.protocol = js "http:" ∨ base.protocol = js "https:") ∧ base.username = js "" ∧
        base.password = js "" ∧ base.search = js "" ∧ base.hash = js "" ∧ base.pathname = js "/" then
      if unbroken : breaksLine (config.bearer.getD (js "")) = false then
        .ok ⟨base, timeoutMs, maxRequest, maxResponse, config.bearer.getD (js ""), unbroken⟩
      else .error (fail .invalid "config")
    else .error (fail .invalid "config")
  | _, _, _, _ => .error (fail .invalid "config")

theorem bounded_some {most value : Nat} {number : JsNumber} (accepted : bounded most number = some value) :
    number.safeNat? = some value ∧ 1 ≤ value ∧ value ≤ most := by
  obtain ⟨whole, within⟩ := Option.filter_eq_some_iff.mp accepted
  exact ⟨whole, by simpa using within⟩

/-- What a client is, of the configuration it was created from. -/
structure Client.Configured (host : UrlHost) (config : Config) (client : Client) : Prop where
  base : host.parse config.origin = some client.base
  protocol : client.base.protocol = js "http:" ∨ client.base.protocol = js "https:"
  timeoutMs : config.timeoutMs.safeNat? = some client.timeoutMs ∧ 1 ≤ client.timeoutMs ∧
    client.timeoutMs ≤ 30000
  maxRequest : config.maxRequest.safeNat? = some client.maxRequest ∧ 1 ≤ client.maxRequest ∧
    client.maxRequest ≤ 1048576
  maxResponse : config.maxResponse.safeNat? = some client.maxResponse ∧ 1 ≤ client.maxResponse ∧
    client.maxResponse ≤ 1048576
  bearer : client.bearer = config.bearer.getD (js "")

theorem Client.create_ok {host : UrlHost} {config : Config} {client : Client}
    (created : Client.create host config = .ok client) : client.Configured host config := by
  unfold Client.create at created
  split at created
  · rename_i base timeoutMs maxRequest maxResponse parsed timed requests responses
    split at created
    · rename_i plain
      split at created
      · cases created
        exact ⟨parsed, plain.1, bounded_some timed, bounded_some requests, bounded_some responses, rfl⟩
      · cases created
    · cases created
  · cases created

def methods : List JsString := ["GET", "HEAD", "POST", "PUT", "PATCH", "DELETE", "OPTIONS"].map js

/-- The checks of a request's own parts. -/
def Request.wellFormed (request : Request) (maxRequest : Nat) : Bool :=
  methods.contains request.method && request.path.units.head? == some 0x2F &&
    (request.path.units.drop 1).head? != some 0x2F &&
    !request.path.units.any (fun unit => unit == 0x5C || unit == 0x0D || unit == 0x0A || unit == 0x23) &&
    request.body.length ≤ maxRequest

/-- What `http.request` is given. -/
structure Sent where
  method : JsString
  target : Url
  headers : List (JsString × JsString)
  body : List UInt8

/-- `headers`, in the order they are set. -/
def headers (client : Client) (trace : Option TraceRef) (body : List UInt8) :
    List (JsString × JsString) :=
  [(js "accept", js "application/json"), (js "content-type", js "application/json")] ++
    (if client.bearer.length = 0 then []
      else [(js "authorization", ⟨(js "Bearer ").units ++ client.bearer.units⟩)]) ++
    (match trace with
      | none => []
      | some ref => [(js "traceparent", formatTraceparent ref)]) ++
    [(js "content-length", ⟨Decimal.text body.length⟩)]

/-- The checks of `do`, one after the other, up to what is sent. -/
def prepare (host : UrlHost) (client : Client) (closed : Bool) (active : Nat) (aborted : Bool)
    (request : Request) : Except Failure Sent :=
  if closed then .error (fail .unavailable "closed")
  else if 64 ≤ active then .error (fail .rateLimited "busy")
  else if aborted then .error (fail .canceled "canceled")
  else if request.wellFormed client.maxRequest = false then .error (fail .invalid "request")
  else match host.resolve request.path client.base with
    | none => .error (fail .invalid "request")
    | some target =>
      if target.origin ≠ client.base.origin then .error (fail .invalid "request")
      else match request.trace with
        | some none => .error (fail .invalid "trace")
        | some (some ref) =>
          .ok ⟨request.method, target, headers client (some ref) request.body, request.body⟩
        | none => .ok ⟨request.method, target, headers client none request.body, request.body⟩

structure Exchange where
  timedOut : Bool
  aborted : Bool
  head : Option (Nat × JsString)
  chunks : List (List UInt8)
  size : Nat
  answer : Option (Except Failure Response)

def Exchange.opened : Exchange := ⟨false, false, none, [], 0, none⟩

/-- What happens to an exchange: its timer, the caller's signal or `close`, the start of the
response with its status and content type, a chunk, an error of either side, and the end of the
response, complete or not. -/
inductive Event where
  | timer
  | abort
  | head (status : Nat) (contentType : JsString)
  | data (chunk : List UInt8)
  | failed
  | ended (complete : Bool)

/-- A promise keeps its first value. -/
def Exchange.resolve (exchange : Exchange) (answer : Except Failure Response) : Exchange :=
  { exchange with answer := exchange.answer.or (some answer) }

def failedWith (timedOut aborted : Bool) : Failure :=
  if timedOut then fail .timeout "timeout"
  else if aborted then fail .canceled "canceled"
  else fail .unavailable "network"

def answerOf (status : Nat) (contentType : JsString) (body : List UInt8) (complete : Bool) :
    Except Failure Response :=
  if status < 200 ∨ 599 < status ∨ complete = false then .error (fail .unavailable "protocol")
  else .ok ⟨status, body, contentType⟩

/-- A response starts once, before any of its chunks and its end. -/
def Exchange.step (maxResponse : Nat) (exchange : Exchange) : Event → Exchange
  | .timer => { exchange with timedOut := true, aborted := true }
  | .abort => { exchange with aborted := true }
  | .head status contentType =>
    { exchange with head := exchange.head.or (some (status, contentType)) }
  | .data chunk =>
    if exchange.head.isSome then
      let size := exchange.size + chunk.length
      if maxResponse < size then
        Exchange.resolve { exchange with size := size } (.error (fail .unavailable "response_too_large"))
      else { exchange with size := size, chunks := exchange.chunks ++ [chunk] }
    else exchange
  | .failed => exchange.resolve (.error (failedWith exchange.timedOut exchange.aborted))
  | .ended complete => match exchange.head with
    | some (status, contentType) =>
      exchange.resolve (answerOf status contentType exchange.chunks.flatten complete)
    | none => exchange

inductive Call where
  | active (exchange : Exchange)
  | returned (answer : Except Failure Response)

structure ClientState where
  closed : Bool
  active : List Nat
  calls : Nat → Option Call
  sent : List (Nat × Sent)

/-- `call` is `do`, with a signal that may be aborted already; the runtime may refuse the request
at once. `settle` is the `finally` of a call whose promise has its value. -/
inductive ClientLabel where
  | call (id : Nat) (request : Request) (aborted : Bool) (refused : Bool)
  | event (id : Nat) (event : Event)
  | settle (id : Nat)
  | close

namespace ClientState

def initial : ClientState := ⟨false, [], fun _ => none, []⟩

def put (state : ClientState) (id : Nat) (call : Call) : ClientState :=
  { state with calls := Function.update state.calls id (some call) }

/-- An exchange, as `do` leaves it at its first wait. -/
def opened (refused : Bool) : Exchange :=
  if refused then Exchange.opened.resolve (.error (fail .invalid "request")) else Exchange.opened

def call (host : UrlHost) (client : Client) (state : ClientState) (id : Nat) (request : Request)
    (aborted refused : Bool) : ClientState :=
  match prepare host client state.closed state.active.length aborted request with
  | .error error => state.put id (.returned (.error error))
  | .ok sent => { state.put id (.active (opened refused)) with
      active := state.active ++ [id]
      sent := if refused then state.sent else state.sent ++ [(id, sent)] }

/-- An event reaches an exchange in progress only. -/
def happen (client : Client) (state : ClientState) (id : Nat) (event : Event) : ClientState :=
  match state.calls id with
  | some (.active exchange) => state.put id (.active (exchange.step client.maxResponse event))
  | _ => state

def settle (state : ClientState) (id : Nat) : ClientState :=
  match state.calls id with
  | some (.active ⟨_, _, _, _, _, some answer⟩) =>
    { state.put id (.returned answer) with active := state.active.erase id }
  | _ => state

/-- `close` aborts every exchange in progress. -/
def close (client : Client) (state : ClientState) : ClientState :=
  { state with
    closed := true
    calls := fun id => (state.calls id).map fun
      | .active exchange => .active (exchange.step client.maxResponse .abort)
      | .returned answer => .returned answer }

def step (host : UrlHost) (client : Client) (state : ClientState) : ClientLabel → ClientState
  | .call id request aborted refused => match state.calls id with
    | none => state.call host client id request aborted refused
    | some _ => state
  | .event id event => state.happen client id event
  | .settle id => state.settle id
  | .close => state.close client

end ClientState

end N2FNest.HttpClient
