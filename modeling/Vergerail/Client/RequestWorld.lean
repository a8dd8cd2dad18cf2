import Mathlib.Logic.Function.Basic
import Vergerail.Lib.Machine
import Vergerail.Private.Connection
import Vergerail.Private.Process
import Vergerail.Private.Request
import Vergerail.Private.Wire

/-!
# Requests and the disconnect

`request_internal_with_timeout` of `src/client.rs` with `send_tracked` in it, the router's
`complete_pending`, the cancel task of a dropped `PendingCancellationGuard`, and
`ClientInner::disconnect`. Every access to shared state is a step of its own, so that any
number of callers, the router, the cancel tasks and the owner of the disconnect interleave
in every order. What the writer, the clock and the provider answer is in the labels.

A request is known by the number of its call; its wire id is counted separately.
-/

namespace Vergerail

open Lib

/-! ## One request -/

/-- Where a call of `request_internal_with_timeout` is. -/
inductive RequestCall where
  | idle
  | checkingDeadline
  | checkingClosing
  | checkingDisconnected
  | readingFailure
  | registering
  /-- `send_tracked`, before its first check. -/
  | entering
  /-- It awaits a place in the writer's queue. -/
  | reserving
  /-- It has one, and looks at the shutdown again. -/
  | admitted
  | marking
  | queueing
  /-- The frame is queued. -/
  | dispatched
  /-- It awaits the acknowledgement of the write. -/
  | acknowledging
  /-- The acknowledgement failed for this reason; it awaits the end of the process. -/
  | terminating (reason : String)
  /-- `send_tracked` failed. -/
  | sendFailed (error : Error)
  /-- It awaits the response. -/
  | waiting
  /-- The response timer fired. -/
  | timedOut
  /-- It is about to disconnect. -/
  | disconnecting (outcome : Error)
  /-- It owns the disconnect and awaits its end. -/
  | cleaning (outcome : Error)
  /-- The result is known; the guard is about to be dropped. -/
  | leaving (result : Result Json) (ownershipResolved : Bool)
  | returned (result : Result Json)
  /-- The future is being dropped: the receiver is gone, the guard is next. -/
  | unwinding
  | dropped

/-- The task of `cancel_aborted_request`. -/
inductive CancelTask where
  | none
  | spawned
  /-- The request may be orphaned; it is about to disconnect. -/
  | disconnecting
  | done
  deriving DecidableEq, Repr

/-- One request: what it shares with the registry, its caller, and what is owed to it. -/
structure RequestCell where
  request : PendingRequest
  call : RequestCall
  method : String
  params : Json
  allowClosing : Bool
  /-- `request_timeout`, in milliseconds. -/
  requestTimeout : Nat
  /-- `numeric_id`. -/
  id : Nat
  cancelTask : CancelTask
  /-- The router is about to disconnect for a success it could not hand over. -/
  orphaned : Bool
  /-- History: the call was given an id. -/
  registered : Bool
  /-- History: the frame is in the writer's queue. -/
  enqueued : Bool
  /-- History: the responses the router took for it. -/
  responses : List (Result Json)

/-! ## The connection -/

/-- How far the disconnect is. -/
inductive DisconnectStage where
  | connected
  /-- The cause is published. -/
  | flagged (error : Error)
  /-- The shutdown is announced; the owner awaits the end of the process. -/
  | killing (error : Error)
  | enriched (error : Error)
  | replaced (error : Error)
  /-- `requests.fail_all` took the entries and has these left to fail. -/
  | failing (error : Error) (remaining : List Nat)
  | requestsFailed (error : Error)
  | runsFailed (error : Error)
  | finished
  /-- The owner's future was dropped. -/
  | abandoned

/-- What all requests share. -/
structure ClientShared where
  connection : ConnectionLifecycle
  /-- `ProcessInner::shutdown_started`. -/
  shutdownStarted : Bool
  nextId : Nat
  /-- The calls that were given an id. -/
  registered : List Nat
  stage : DisconnectStage
  /-- The call that runs the disconnect, if a call does. -/
  owner : Option Nat
  /-- History: the first cause. -/
  firstCause : Option Error
  /-- History: what others than the requests disconnected for, or tried to. -/
  causes : List Error

/-- What the client and the process are configured with. -/
structure ClientEnv where
  maxFrameBytes : Nat
  /-- `send_timeout`, in milliseconds. -/
  sendTimeout : Nat
  redactLine : String → String

namespace ClientShared

def new : ClientShared where
  connection := .new
  shutdownStarted := false
  nextId := 1
  registered := []
  stage := .connected
  owner := none
  firstCause := none
  causes := []

/-- History: somebody else than a request is about to disconnect for `error`. -/
def blame (s : ClientShared) (error : Error) : ClientShared :=
  { s with causes := error :: s.causes }

/-- `disconnect` up to its first await that others can see: whoever is first owns the rest. -/
def beginDisconnect (s : ClientShared) (owner : Option Nat) (error : Error) :
    Bool × ClientShared :=
  match s.connection.beginDisconnect error with
  | (true, connection) =>
      (true, { s with connection, stage := .flagged error, owner, firstCause := some error })
  | (false, _) => (false, s)

end ClientShared

/-- How the end of the process went, and what its stderr showed. -/
structure Termination where
  failure : Option Error
  stderrTail : Option String

/-- What `disconnect` makes of its cause once the process has ended. -/
def enrich (error : Error) (termination : Termination) : Error :=
  (match termination.failure with
    | none => error
    | some failure => Error.new error.kind error.operation
        (error.message ++ "; runtime termination failed: " ++ failure.display)).withStderr
      termination.stderrTail

/-! ## The caller -/

/-- `i64::MAX`. -/
def maxRequestId : Nat := 9223372036854775807

namespace RequestCell

/-- A call that was not made. -/
def idle : RequestCell where
  request := .unregistered "" false
  call := .idle
  method := ""
  params := .null
  allowClosing := false
  requestTimeout := 0
  id := 0
  cancelTask := .none
  orphaned := false
  registered := false
  enqueued := false
  responses := []

def goto (c : RequestCell) (call : RequestCall) : RequestCell := { c with call }

/-- The call returns without having registered. -/
def refuse (c : RequestCell) (error : Error) : RequestCell := c.goto (.returned (.error error))

/-- `send_timeout` elapsed at `operation`. -/
def sendTimedOut (c : RequestCell) (env : ClientEnv) (operation : String) : RequestCell :=
  c.goto (.sendFailed (Error.timeout operation env.sendTimeout))

/-- Why the acknowledgement of the write did not come. -/
def ackFailure (env : ClientEnv) : SendEvent → Option String
  | .writeFailed error => some ("app-server stdin write failed: " ++ error)
  | .writerGone => some "app-server writer ended before acknowledging the dispatched frame"
  | .expired =>
      some ("no write acknowledgement arrived within " ++ toString env.sendTimeout ++ " ms")
  | _ => none

/-- The error of `outcome_unknown_after_dispatch`. -/
def terminationError (reason : String) : SendEvent → Error
  | .killFailed error => Error.new .outcomeUnknown "process.send"
      (reason ++ "; runtime termination failed: " ++ error.display)
  | _ => Error.new .outcomeUnknown "process.send" (reason ++ "; runtime termination was initiated")

/-- What a caller reports whose write could not be observed. -/
def writeOutcome (c : RequestCell) : Error :=
  Error.new .outcomeUnknown c.request.operation
    "request was dispatched but its write outcome could not be observed; runtime termination was initiated and the request was not retried"

/-- What a caller reports whose response did not come. -/
def responseOutcome (c : RequestCell) : Error :=
  Error.new .outcomeUnknown c.request.operation
    ("request was written but no response arrived within " ++ toString c.requestTimeout
      ++ " ms; the runtime was killed and the request was not retried")

/-- What the cancel task reports. -/
def cancelOutcome (c : RequestCell) : Error :=
  Error.new .outcomeUnknown c.request.operation
    "the caller cancelled before Vergerail could commit a dispatched non-idempotent response; the runtime was terminated and the request was not retried"

/-- What the router reports. -/
def orphanOutcome (c : RequestCell) : Error :=
  Error.new .outcomeUnknown c.request.operation
    "a successful non-idempotent response could not be committed to its caller; the runtime was terminated and the request was not retried"

/-- `send_tracked` failed: the entry goes, and an unknown outcome disconnects. -/
def afterSendFailure (c : RequestCell) (error : Error) : RequestCell :=
  let removed := { c with request := c.request.remove }
  if error.kind = .outcomeUnknown then removed.goto (.disconnecting c.writeOutcome)
  else
    removed.goto (.leaving
      (.error ((Error.new error.kind c.request.operation error.message).withStderr error.stderrTail))
      (!c.request.dispatched))

/-- The response timer fired. -/
def afterTimeout (c : RequestCell) : RequestCell :=
  match c.request.timeout with
  | (.outcomeUnknown, request) =>
      { c with request, call := .disconnecting c.responseOutcome }
  | (.timedOut, request) =>
      { c with
        request
        call := .leaving (.error (Error.timeout c.request.operation c.requestTimeout)) false }

/-- The guard of a call that did not resolve its ownership is dropped armed. -/
def dropGuard (c : RequestCell) : RequestCell :=
  { c with request := c.request.markCancelled, cancelTask := .spawned }

/-- The caller's next step. -/
def proceed (env : ClientEnv) (i : Nat) (s : ClientShared) (c : RequestCell) (event : SendEvent) :
    ClientShared × RequestCell :=
  match c.call with
  | .idle => (s, c)
  | .checkingDeadline =>
    if event = .expired then
      (s, c.refuse (Error.timeout c.request.operation c.requestTimeout))
    else (s, c.goto .checkingClosing)
  | .checkingClosing =>
    if s.connection.closing && !c.allowClosing then
      (s, c.refuse (Error.new .shutdown c.request.operation "client shutdown has started"))
    else (s, c.goto .checkingDisconnected)
  | .checkingDisconnected =>
    if s.connection.disconnected then (s, c.goto .readingFailure) else (s, c.goto .registering)
  | .readingFailure =>
      (s, c.refuse (s.connection.failure.getD
        (Error.new .disconnected c.request.operation "app-server is disconnected")))
  | .registering =>
    if maxRequestId < s.nextId then
      (s, c.refuse (Error.new .protocol c.request.operation "request id space exhausted"))
    else
      ({ s with nextId := s.nextId + 1, registered := i :: s.registered },
        { c with
          request := c.request.register
          call := .entering
          id := s.nextId
          registered := true })
  | .entering =>
    if s.shutdownStarted then
      (s, c.goto (.sendFailed (Error.new .shutdown "process.send"
        "app-server shutdown has started")))
    else if env.maxFrameBytes < (wireRequest c.id c.method c.params).encodedBytes then
      (s, c.goto (.sendFailed (Error.new .protocol "jsonl.write"
        ("frame exceeds " ++ toString env.maxFrameBytes ++ " bytes"))))
    else if event = .expired then (s, c.sendTimedOut env "process.send")
    else (s, c.goto .reserving)
  | .reserving =>
    if event = .writerGone then
      (s, c.goto (.sendFailed (Error.new .disconnected "process.send"
        "app-server writer task is not available")))
    else if event = .expired then (s, c.sendTimedOut env "process.send.queue")
    else (s, c.goto .admitted)
  | .admitted =>
    if s.shutdownStarted then
      (s, c.goto (.sendFailed (Error.new .shutdown "process.send"
        "app-server shutdown started before dispatch")))
    else (s, c.goto .marking)
  | .marking => (s, { c with request := c.request.markDispatched, call := .queueing })
  | .queueing => (s, { c with enqueued := true, call := .dispatched })
  | .dispatched =>
    if event = .expired then (s, c.sendTimedOut env "process.send")
    else (s, c.goto .acknowledging)
  | .acknowledging =>
    match ackFailure env event with
    | some reason => ({ s with shutdownStarted := true }, c.goto (.terminating reason))
    | none => (s, c.goto .waiting)
  | .terminating reason => (s, c.goto (.sendFailed (terminationError reason event)))
  | .sendFailed error => (s, c.afterSendFailure error)
  | .waiting =>
    if event = .expired then
      (s, { c with request := c.request.dropReceiver, call := .timedOut })
    else
      match c.request.waiter with
      | .empty => (s, c)
      | .value result => (s, c.goto (.leaving result true))
      | .closed =>
          (s, c.goto (.leaving (.error (Error.new .disconnected c.request.operation
            "response waiter closed before a response arrived")) false))
  | .timedOut => (s, c.afterTimeout)
  | .disconnecting outcome =>
    match s.beginDisconnect (some i) outcome with
    | (true, s) => (s, c.goto (.cleaning outcome))
    | (false, _) => (s, c.goto (.leaving (.error outcome) false))
  | .cleaning outcome =>
    match s.stage with
    | .finished => (s, c.goto (.leaving (.error outcome) false))
    | _ => (s, c)
  | .leaving result ownershipResolved =>
      let left := { c with request := c.request.dropReceiver, call := .returned result }
      if ownershipResolved then (s, left) else (s, left.dropGuard)
  | .unwinding => (s, c.dropGuard.goto .dropped)
  | .returned _ => (s, c)
  | .dropped => (s, c)

/-- The caller's future is dropped at an await. -/
def drop (i : Nat) (s : ClientShared) (c : RequestCell) : ClientShared × RequestCell :=
  let unwound := { c with request := c.request.dropReceiver, call := .unwinding }
  match c.call with
  | .reserving => (s, unwound)
  | .acknowledging => (s, unwound)
  | .terminating _ => (s, unwound)
  | .waiting => (s, unwound)
  | .cleaning _ =>
    -- the owner awaits the end of the process only
    match s.stage with
    | .killing _ => if s.owner = some i then ({ s with stage := .abandoned }, unwound) else (s, c)
    | _ => (s, c)
  | _ => (s, c)

/-! ## The router, the cancel task and the owner of the disconnect -/

/-- `complete` takes the entry. -/
def respond (c : RequestCell) (response : Result Json) : RequestCell :=
  match c.request.takeForCompletion response with
  | (true, request) => { c with request, responses := response :: c.responses }
  | (false, _) => c

/-- `complete` hands over what it took. -/
def handOver (c : RequestCell) : RequestCell :=
  match c.request.entry with
  | .completing response =>
    match c.request.handOver response with
    | (.orphanedSuccess _, request) => { c with request, orphaned := true }
    | (_, request) => { c with request }
  | _ => c

/-- The router disconnects for an orphaned success. -/
def disconnectOrphan (s : ClientShared) (c : RequestCell) : ClientShared × RequestCell :=
  if c.orphaned then
    ((s.beginDisconnect none c.orphanOutcome).2, { c with orphaned := false })
  else (s, c)

/-- The next step of `cancel_aborted_request`. -/
def runCancel (s : ClientShared) (c : RequestCell) : ClientShared × RequestCell :=
  match c.cancelTask with
  | .spawned =>
    match c.request.cancel with
    | (true, request) => (s, { c with request, cancelTask := .disconnecting })
    | (false, request) => (s, { c with request, cancelTask := .done })
  | .disconnecting =>
      ((s.beginDisconnect none c.cancelOutcome).2, { c with cancelTask := .done })
  | _ => (s, c)

/-- `fail_all` fails one of the entries it took. -/
def failOne (i : Nat) (s : ClientShared) (c : RequestCell) : ClientShared × RequestCell :=
  match s.stage with
  | .failing error remaining =>
    if i ∈ remaining then
      ({ s with stage := .failing error (remaining.erase i) },
        { c with request := c.request.fail error })
    else (s, c)
  | _ => (s, c)

end RequestCell

/-! ## The world -/

/-- What can happen to one request. -/
inductive RequestLabel where
  | call (nonIdempotent allowClosing : Bool) (operation method : String) (params : Json)
      (requestTimeout : Nat)
  | proceed (event : SendEvent)
  | drop
  /-- The router takes the entry for a result. -/
  | succeed (result : Json)
  /-- The router takes the entry for an error. -/
  | reject (code : Int) (message : String)
  | handOver
  | disconnectOrphan
  | runCancel
  | failOne

/-- What can happen next. -/
inductive ClientLabel where
  | request (i : Nat) (label : RequestLabel)
  /-- Somebody else disconnects. -/
  | disconnect (error : Error)
  /-- The disconnect under way goes on. -/
  | goOn (termination : Termination)
  /-- Its owner, which is no caller of a request, is dropped. -/
  | dropOwner
  /-- A graceful shutdown starts. -/
  | beginClosing
  /-- A graceful shutdown reaches the process, or the writer fails. -/
  | stopProcess

/-- The client. -/
structure ClientWorld where
  shared : ClientShared
  requests : Nat → RequestCell

namespace ClientWorld

def init : ClientWorld where
  shared := .new
  requests := fun _ => .idle

/-- What happens to the request and to what it shares. -/
def actRequest (env : ClientEnv) (i : Nat) (s : ClientShared) (c : RequestCell) :
    RequestLabel → ClientShared × RequestCell
  | .call nonIdempotent allowClosing operation method params requestTimeout =>
    match c.call with
    | .idle =>
        (s, { RequestCell.idle with
          request := .unregistered operation nonIdempotent
          call := .checkingDeadline
          method
          params
          allowClosing
          requestTimeout })
    | _ => (s, c)
  | .proceed event => c.proceed env i s event
  | .drop => c.drop i s
  | .succeed result => (s, c.respond (.ok result))
  | .reject code message =>
      (s, c.respond (.error (Error.rpc c.request.operation code (env.redactLine message))))
  | .handOver => (s, c.handOver)
  | .disconnectOrphan => c.disconnectOrphan s
  | .runCancel => c.runCancel s
  | .failOne => c.failOne i s

/-- `fail_all` takes the pending entries. -/
def takePending (w : ClientWorld) (error : Error) : ClientWorld where
  shared := { w.shared with
    stage := .failing error
      (w.shared.registered.filter (fun i => (w.requests i).request.isPending)) }
  requests := fun i =>
    { w.requests i with request := (w.requests i).request.takeForFailure }

/-- The disconnect under way goes on. -/
def goOn (w : ClientWorld) (termination : Termination) : ClientWorld :=
  match w.shared.stage with
  | .flagged error =>
      { w with shared := { w.shared with shutdownStarted := true, stage := .killing error } }
  | .killing error =>
      { w with shared := { w.shared with stage := .enriched (enrich error termination) } }
  | .enriched error =>
      { w with shared := { w.shared with
        connection := w.shared.connection.replaceFailure error
        stage := .replaced error } }
  | .replaced error => w.takePending error
  | .failing error remaining =>
    match remaining with
    | [] => { w with shared := { w.shared with stage := .requestsFailed error } }
    | _ => w
  | .requestsFailed error =>
      { w with shared := { w.shared with stage := .runsFailed error } }
  | .runsFailed _ => { w with shared := { w.shared with stage := .finished } }
  | _ => w

/-- One step. -/
def act (env : ClientEnv) (w : ClientWorld) : ClientLabel → ClientWorld
  | .request i label =>
      let next := actRequest env i w.shared (w.requests i) label
      { shared := next.1, requests := Function.update w.requests i next.2 }
  | .disconnect error =>
      { w with shared := ((w.shared.blame error).beginDisconnect none error).2 }
  | .goOn termination => w.goOn termination
  | .dropOwner =>
    match w.shared.stage, w.shared.owner with
    | .killing _, none => { w with shared := { w.shared with stage := .abandoned } }
    | _, _ => w
  | .beginClosing =>
      { w with shared := { w.shared with connection := w.shared.connection.beginClosing.2 } }
  | .stopProcess => { w with shared := { w.shared with shutdownStarted := true } }

end ClientWorld

/-- The machine of one client. -/
def clientMachine (env : ClientEnv) : Machine ClientWorld ClientLabel where
  init := ClientWorld.init
  step := ClientWorld.act env

end Vergerail
