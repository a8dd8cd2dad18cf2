import Mathlib.Data.List.AList
import Vergerail.Client.RequestWorld
import Vergerail.Private.Outbound

/-!
# Calls over the wire

The calls of `request_internal_with_timeout` with the pending map of `RequestRegistry`
between them and the two pipes: their frames go through `send_tracked` and `writer_loop`,
`reader_loop` of `src/private/process.rs` turns the bytes of the other pipe into messages,
and `router_loop` and `complete_pending` of `src/client/router.rs` find the call by the id
of a response.

The app-server may write any bytes at any time. What `RequestWorld` takes apart, one call
with its flags and the disconnect, is one step here: a call takes and leaves its entry in
the map in one step, and `fail_all` is one step. What it leaves to its labels, which
response is whose, is what happens here.
-/

namespace Vergerail

open Lib

/-! ## The parties -/

/-- Where a call is, from its registration on. -/
inductive WirePhase where
  /-- It awaits its call of `send_tracked`. -/
  | sending
  /-- It awaits the response. -/
  | waiting
  | returned (result : Result Json)
  | dropped

/-- A call of `request_internal_with_timeout`. -/
structure WireCall where
  operation : String
  nonIdempotent : Bool
  method : String
  params : Json
  /-- `numeric_id` -/
  id : Nat
  /-- Its call of `send_tracked`. -/
  sender : Nat
  /-- What is in its oneshot channel. -/
  received : Option (Result Json)
  phase : WirePhase
  /-- History: how many messages were routed when it was registered. -/
  since : Nat

/-- `ProcessEvent`. -/
inductive ProcessEvent where
  | message (incoming : Incoming)
  | closed (error : Error)

/-- What the client is configured with. -/
structure WireEnv extends OutboundEnv where
  /-- `request_timeout`, in milliseconds. -/
  requestTimeout : Nat
  eventCapacity : Nat
  redactLine : String → String
  /-- What `serde_json::from_str` answers. -/
  fromStr : String → Except String Json

structure WireWorld where
  outbound : OutboundWorld
  nextId : Nat
  calls : List WireCall
  /-- The calls whose senders are in the pending map. -/
  pending : AList (fun _ : RpcId => Nat)
  /-- History: the bytes that the app-server wrote. -/
  stdout : List UInt8
  /-- Those of them that are still in the pipe. -/
  arriving : List UInt8
  stdoutClosed : Bool
  reader : JsonLinesReader
  readerEnded : Bool
  /-- The channel from `reader_loop` to `router_loop`, oldest first. -/
  events : List ProcessEvent
  routerEnded : Bool
  /-- History: the messages that the router took. -/
  routed : List Incoming
  /-- The responses that were reported as `rpc/lateResponse`. -/
  late : List RpcId

/-- What can happen next. -/
inductive WireLabel where
  /-- A request is registered and its send begins. -/
  | call (operation : String) (nonIdempotent : Bool) (method : String) (params : Json)
  /-- A reverse request is answered. -/
  | respond (id : RpcId) (result : Json)
  | reject (id : RpcId) (code : Int) (message : String)
  | notify (method : String) (params : Json)
  /-- A call of `send_tracked`, a shutdown or the writer task goes on. -/
  | send (label : OutboundLabel)
  /-- The call finds what its `send_tracked` returned. -/
  | sent (i : Nat)
  /-- It finds a response. -/
  | resume (i : Nat)
  /-- Its response timer fires. -/
  | expire (i : Nat)
  /-- Its future is dropped. -/
  | dropCall (i : Nat)
  /-- `cancel_aborted_request` -/
  | cancel (i : Nat)
  /-- A disconnect fails the pending requests. -/
  | failAll (error : Error)
  /-- The app-server writes. -/
  | write (bytes : List UInt8)
  | closeStdout
  /-- `reader_loop` reads at most one byte more than `count`. -/
  | read (count : Nat)
  /-- It answers for what it has read. -/
  | frame
  /-- `router_loop` takes the oldest event. -/
  | route

/-! ## Steps -/

/-- The error of a request that was not sent. -/
def WireCall.sendFailure (call : WireCall) (error : Error) : Error :=
  if error.kind = .outcomeUnknown then
    Error.new .outcomeUnknown call.operation
      "request was dispatched but its write outcome could not be observed; runtime termination was initiated and the request was not retried"
  else (Error.new error.kind call.operation error.message).withStderr error.stderrTail

/-- A result is sent to the call; a dropped receiver loses it. -/
def WireCall.receive (call : WireCall) (result : Result Json) : WireCall :=
  match call.phase with
  | .sending => { call with received := some result }
  | .waiting => { call with received := some result }
  | _ => call

/-- The id that a message responds to. -/
def Incoming.responseId : Incoming → Option RpcId
  | success id _ => some id
  | failure id _ _ => some id
  | request _ _ _ => none
  | notification _ _ => none

namespace WireWorld

def start (env : WireEnv) : WireWorld where
  outbound := .start env.toOutboundEnv
  nextId := 1
  calls := []
  pending := ∅
  stdout := []
  arriving := []
  stdoutClosed := false
  reader := .new env.maxFrameBytes
  readerEnded := false
  events := []
  routerEnded := false
  routed := []
  late := []

/-- The marker that the call shares with its call of `send_tracked`. -/
def dispatched (w : WireWorld) (call : WireCall) : Bool :=
  match w.outbound.senders[call.sender]? with
  | some cell => cell.dispatched
  | none => false

/-- The call is in the pending map. -/
def isPending (w : WireWorld) (call : WireCall) : Bool :=
  (w.pending.lookup (.number call.id)).isSome

/-- The call is there now. -/
def settle (w : WireWorld) (i : Nat) (call : WireCall) (phase : WirePhase) : WireWorld :=
  { w with calls := w.calls.set i { call with phase } }

/-- `remove` -/
def remove (w : WireWorld) (call : WireCall) : WireWorld :=
  { w with pending := w.pending.erase (.number call.id) }

/-- `send_tracked` begins. -/
def send (env : WireEnv) (w : WireWorld) (frame : Json) : WireWorld :=
  { w with outbound := w.outbound.step env.toOutboundEnv (.send frame) }

/-- The call that `register` makes. -/
def registration (w : WireWorld) (operation : String) (nonIdempotent : Bool) (method : String)
    (params : Json) : WireCall where
  operation
  nonIdempotent
  method
  params
  id := w.nextId
  sender := w.outbound.senders.length
  received := none
  phase := .sending
  since := w.routed.length

/-- `register`, and the send. Without an id left the call returns at once. -/
def call (env : WireEnv) (w : WireWorld) (operation : String) (nonIdempotent : Bool)
    (method : String) (params : Json) : WireWorld :=
  if maxRequestId < w.nextId then w
  else
    { w.send env (wireRequest w.nextId method params) with
      nextId := w.nextId + 1
      calls := w.calls ++ [w.registration operation nonIdempotent method params]
      pending := w.pending.insert (.number w.nextId) w.calls.length }

/-- A step of the senders that begins no send. -/
def sendStep (env : WireEnv) (w : WireWorld) (label : OutboundLabel) : WireWorld :=
  match label with
  | .send _ => w
  | label => { w with outbound := w.outbound.step env.toOutboundEnv label }

def sent (w : WireWorld) (i : Nat) : WireWorld :=
  match w.calls[i]? with
  | none => w
  | some call =>
    match call.phase, w.outbound.senders[call.sender]?.map SendCell.phase with
    | .sending, some (.returned (.ok ())) => w.settle i call .waiting
    | .sending, some (.returned (.error error)) =>
        (w.remove call).settle i call (.returned (.error (call.sendFailure error)))
    | _, _ => w

def resume (w : WireWorld) (i : Nat) : WireWorld :=
  match w.calls[i]? with
  | none => w
  | some call =>
    match call.phase, call.received with
    | .waiting, some result => w.settle i call (.returned result)
    | _, _ => w

/-- The response did not come in time: `timeout`. -/
def timeoutError (env : WireEnv) (w : WireWorld) (call : WireCall) : Error :=
  let succeeded := match call.received with
    | some (.ok _) => true
    | _ => false
  if call.nonIdempotent && w.dispatched call && (w.isPending call || succeeded) then
    Error.new .outcomeUnknown call.operation
      ("request was written but no response arrived within " ++ toString env.requestTimeout
        ++ " ms; the runtime was killed and the request was not retried")
  else Error.timeout call.operation env.requestTimeout

def expire (env : WireEnv) (w : WireWorld) (i : Nat) : WireWorld :=
  match w.calls[i]? with
  | none => w
  | some call =>
    match call.phase with
    | .waiting =>
        (w.remove call).settle i call (.returned (.error (w.timeoutError env call)))
    | _ => w

def dropCall (env : WireEnv) (w : WireWorld) (i : Nat) : WireWorld :=
  match w.calls[i]? with
  | none => w
  | some call =>
    match call.phase with
    | .sending => (w.sendStep env (.drop call.sender)).settle i call .dropped
    | .waiting => w.settle i call .dropped
    | _ => w

/-- The guard of a call that is over takes its entry out. -/
def cancel (w : WireWorld) (i : Nat) : WireWorld :=
  match w.calls[i]? with
  | none => w
  | some call =>
    match call.phase with
    | .returned _ => w.remove call
    | .dropped => w.remove call
    | _ => w

/-- The failure that `fail_all` sends. -/
def disconnectFailure (w : WireWorld) (call : WireCall) (error : Error) : Error :=
  if call.nonIdempotent && w.dispatched call then
    (Error.new .outcomeUnknown call.operation
      "app-server disconnected after the request was written; outcome is unknown and was not retried").withStderr
        error.stderrTail
  else (Error.new .disconnected call.operation error.message).withStderr error.stderrTail

def failAll (w : WireWorld) (error : Error) : WireWorld :=
  { w with
    calls := w.calls.map (fun call =>
      if w.isPending call then call.receive (.error (w.disconnectFailure call error)) else call)
    pending := ∅ }

/-- `reader.read()`: with the pipe empty it waits for more, or for the end. -/
def read (env : WireEnv) (w : WireWorld) (count : Nat) : WireWorld :=
  if w.readerEnded then w
  else
    match w.reader.pass env.fromStr with
    | .returned _ _ => w
    | .read reader size =>
      let bytes := w.arriving.take (min (count + 1) size)
      if bytes.isEmpty && !w.stdoutClosed then w
      else
        { w with
          reader := reader.receive bytes
          arriving := w.arriving.drop (min (count + 1) size) }

/-- `reader_loop` ends with this error. -/
def endReader (w : WireWorld) (reader : JsonLinesReader) (error : Error) : WireWorld :=
  { w with reader, readerEnded := true, events := w.events ++ [.closed error] }

/-- `reader_loop` has the answer of `next` and a place in the channel. -/
def frame (env : WireEnv) (w : WireWorld) : WireWorld :=
  if w.readerEnded || env.eventCapacity ≤ w.events.length then w
  else
    match w.reader.pass env.fromStr with
    | .read _ _ => w
    | .returned (.ok (some value)) reader =>
      match wireParse value with
      | .ok incoming => { w with reader, events := w.events ++ [.message incoming] }
      | .error error => w.endReader reader error
    | .returned (.ok none) reader =>
        w.endReader reader (Error.new .disconnected "process.stdout"
          "app-server stdout reached EOF")
    | .returned (.error error) reader => w.endReader reader error

/-- `complete_pending` -/
def complete (w : WireWorld) (id : RpcId) (result : String → Result Json) : WireWorld :=
  match w.pending.lookup id with
  | none => { w with late := w.late ++ [id] }
  | some i =>
    match w.calls[i]? with
    | none => w
    | some call =>
        { w with
          pending := w.pending.erase id
          calls := w.calls.set i (call.receive (result call.operation)) }

/-- `router_loop`; what it does with notifications and requests is elsewhere. -/
def route (env : WireEnv) (w : WireWorld) : WireWorld :=
  if w.routerEnded then w
  else
    match w.events with
    | [] => w
    | .closed _ :: events => { w with events, routerEnded := true }
    | .message incoming :: events =>
      let w := { w with events, routed := w.routed ++ [incoming] }
      match incoming with
      | .success id result => w.complete id (fun _ => .ok result)
      | .failure id code message =>
          w.complete id (fun operation =>
            .error (Error.rpc operation code (env.redactLine message)))
      | .request _ _ _ => w
      | .notification _ _ => w

/-- One atomic step. -/
def step (env : WireEnv) (w : WireWorld) : WireLabel → WireWorld
  | .call operation nonIdempotent method params => w.call env operation nonIdempotent method params
  | .respond id result => w.send env (wireSuccess id result)
  | .reject id code message => w.send env (wireFailure id code message)
  | .notify method params => w.send env (wireNotification method params)
  | .send label => w.sendStep env label
  | .sent i => w.sent i
  | .resume i => w.resume i
  | .expire i => w.expire env i
  | .dropCall i => w.dropCall env i
  | .cancel i => w.cancel i
  | .failAll error => w.failAll error
  | .write bytes =>
      if w.stdoutClosed then w
      else { w with stdout := w.stdout ++ bytes, arriving := w.arriving ++ bytes }
  | .closeStdout => { w with stdoutClosed := true }
  | .read count => w.read env count
  | .frame => w.frame env
  | .route => w.route env

/-- The calls, the pipes and the router as a machine. -/
def machine (env : WireEnv) : Machine WireWorld WireLabel where
  init := start env
  step := step env

end WireWorld

end Vergerail
