import Vergerail.Client.Start
import Vergerail.Image
import Vergerail.Lib.Machine
import Vergerail.Private.Connection
import Vergerail.Private.Process

/-!
# One billed image operation

`ImageOperationState`, `send_image_request` and `generate_via_endpoint` of `src/image.rs`;
`ClientInner::generate_image`, `generate_image_with_retry` and
`ImageOperationGuard::drop` of `src/client.rs`.

Three parties share the phase of one operation: the future of the caller, which runs the
retry loop; the blocking worker, which sends the request; and the guard, which speaks
when the future is gone. A step is one critical section of the phase's mutex or one of
the things that happen between two of them. The guard hands its error to a task of its
own, which disconnects later than anything else may happen.

What the endpoint, the clock, the auth request and the panics of the worker do is in the
labels. The validation of the returned bytes is a parameter.
-/

namespace Vergerail

/-! ## The phase -/

/-- `ImageOperationPhase`. -/
inductive ImageOperationPhase where
  | pending
  | dispatched
  | cancelledBeforeDispatch
  | cancelledAfterDispatch
  | finished
  deriving DecidableEq, Repr

namespace ImageOperationPhase

/-- `begin_dispatch`. -/
def beginDispatch : ImageOperationPhase → Result ImageOperationPhase
  | pending => .ok dispatched
  | cancelledBeforeDispatch | cancelledAfterDispatch =>
      .error (Error.new .cancelled "image.generate"
        "cancelled image operation cannot be dispatched again")
  | dispatched | finished =>
      .error (Error.new .protocol "image.generate" "image operation was dispatched more than once")

/-- `reset_after_unauthorized`. -/
def resetAfterUnauthorized : ImageOperationPhase → ImageOperationPhase
  | dispatched => pending
  | other => other

def finish : ImageOperationPhase → ImageOperationPhase
  | dispatched => finished
  | other => other

def isDispatched : ImageOperationPhase → Bool
  | dispatched | cancelledAfterDispatch | finished => true
  | pending | cancelledBeforeDispatch => false

/-- `cancel`; true when a request may have reached the endpoint. -/
def cancel : ImageOperationPhase → Bool × ImageOperationPhase
  | pending => (false, cancelledBeforeDispatch)
  | dispatched | finished => (true, cancelledAfterDispatch)
  | cancelledBeforeDispatch => (false, cancelledBeforeDispatch)
  | cancelledAfterDispatch => (true, cancelledAfterDispatch)

def cancellationError (phase : ImageOperationPhase) (turnId : String) : Error :=
  if phase.isDispatched then
    Error.new .outcomeUnknown "image.generate" ("image turn '" ++ turnId ++
      "' was dispatched but its result was abandoned; outcome is unknown and the request was not retried")
  else
    Error.new .cancelled "image.generate" ("image turn '" ++ turnId ++
      "' was cancelled before dispatch")

def isCancelled : ImageOperationPhase → Bool
  | cancelledBeforeDispatch | cancelledAfterDispatch => true
  | pending | dispatched | finished => false

end ImageOperationPhase

/-! ## The parties -/

/-- `ImageEndpointError`. -/
inductive ImageEndpointError where
  | unauthorized
  | failed (error : Error)
  deriving DecidableEq

/-- What the join handle of a worker gives. -/
inductive WorkerEnd where
  | returned (result : Except ImageEndpointError DirectImageResponse)
  /-- It panicked, or the runtime never ran it. -/
  | died (reason : String)
  deriving DecidableEq

/-- Where the worker that runs `send_image_request` is. -/
inductive ImageWorker where
  | idle
  | queued
  /-- The body is encoded and within its limit. -/
  | encoded
  /-- The operation is dispatched; the request is on its way. -/
  | sending
  | refused (error : String)
  | answered (status : Nat)
  | reading
  | received (bytes : List UInt8)
  | parsed (response : DirectImageResponse)
  | finishing (response : DirectImageResponse)
  /-- It found the operation cancelled. -/
  | abandoned
  | ended (result : WorkerEnd)
  deriving DecidableEq

/-- Where the future of `generate_image` is; `again` after the first 401. -/
inductive ImageCaller where
  | entering
  | checking (again : Bool)
  | authenticating (again : Bool)
  | authenticated (again : Bool)
  | waiting (again : Bool)
  | returned (result : Result DirectImageResponse)
  | dropped
  deriving DecidableEq

/-- The task that `ImageOperationGuard::drop` spawns. -/
inductive GuardTask where
  | absent
  | spawned (error : Error)
  | done (error : Error)
  deriving DecidableEq

/-- One operation. -/
structure ImageWorld where
  phase : ImageOperationPhase
  worker : ImageWorker
  caller : ImageCaller
  task : GuardTask
  connection : ConnectionLifecycle
  /-- `begin_force_shutdown` was called, for want of a runtime. -/
  forced : Bool
  /-- History: the dispatches, each with the status it was answered with. -/
  dispatches : List (Option Nat)
  /-- History: the errors of the auth requests. -/
  authErrors : List Error
  /-- History: the errors that others disconnected with. -/
  others : List Error

/-- One call of `generate_image`. -/
structure ImageEnv where
  request : DirectImageRequest
  turnId : String
  /-- The validation of the returned bytes. -/
  parseImageEndpointResponse : List UInt8 → ImageBackground → Result DirectImageResponse

/-- What the future finds when it goes on. -/
inductive CallerEvent where
  /-- There is time left. -/
  | inTime
  | expired
  /-- The monotonic clock cannot hold the deadline. -/
  | noDeadline
  /-- The end of `image_auth`. -/
  | auth (result : Result Unit)

/-- What the worker finds when it goes on. -/
inductive WorkerEvent where
  | go
  | response (status : Except String Nat)
  | body (bytes : Except String (List UInt8))

/-- The atomic steps. -/
inductive ImageLabel where
  | call (event : CallerEvent)
  | work (event : WorkerEvent)
  | workerDies (reason : String)
  /-- The future is dropped, in a runtime or outside of one. -/
  | dropCaller (runtime : Bool)
  /-- The task of the guard disconnects. -/
  | runTask
  /-- Somebody else disconnects. -/
  | disconnect (error : Error)
  /-- The owner of the cleanup enriches the cause. -/
  | enrich (message : String) (stderrTail : Option String)

/-! ## The request -/

def ImageBackground.asStr : ImageBackground → String
  | auto => "auto"
  | transparent => "transparent"
  | opaqueBackground => "opaque"

def ImageQuality.asStr : ImageQuality → String
  | auto => "auto"
  | low => "low"
  | medium => "medium"
  | high => "high"

def ImageSize.asStr : ImageSize → String
  | auto => "auto"
  | square => "1024x1024"
  | landscape => "1536x1024"
  | portrait => "1024x1536"

/-- The body that `send_image_request` sends. -/
def DirectImageRequest.body (self : DirectImageRequest) : Json :=
  .object [("background", .string self.background.asStr), ("model", .string "gpt-image-2"),
    ("n", .number "1"), ("prompt", .string self.prompt), ("quality", .string self.quality.asStr),
    ("size", .string self.size.asStr)]

/-- The checks of `generate_image` before there is an operation. -/
def DirectImageRequest.validate (self : DirectImageRequest) : Result Unit :=
  if trimIsEmpty self.prompt then
    .error (Error.new .invalidInput "image.generate" "image prompt must be non-empty")
  else if 128 * 1024 < self.prompt.utf8ByteSize || self.prompt.toList.contains '\x00' then
    .error (Error.new .invalidInput "image.generate" "image prompt exceeds the bounded UTF-8 limit")
  else .ok ()

/-- `outcome_unknown_after_dispatch`. -/
def outcomeUnknownAfterDispatch (turnId : String) (cause : Error) : Error :=
  Error.new .outcomeUnknown "image.generate" ("image turn '" ++ turnId ++
    "' was dispatched but its response could not be validated; outcome is unknown: " ++
    cause.display)

namespace ImageWorld

def init : ImageWorld where
  phase := .pending
  worker := .idle
  caller := .entering
  task := .absent
  connection := .new
  forced := false
  dispatches := []
  authErrors := []
  others := []

/-! ## The worker -/

/-- `send_image_request` is over. -/
def endWorker (w : ImageWorld) (result : Except ImageEndpointError DirectImageResponse) :
    ImageWorld :=
  { w with worker := .ended (.returned result) }

/-- The status of the last dispatch is known. -/
def answer (w : ImageWorld) (status : Nat) : ImageWorld :=
  { w with worker := .answered status, dispatches := w.dispatches.dropLast ++ [some status] }

/-- `send_image_request`, from one access of the phase to the next. -/
def work (env : ImageEnv) (w : ImageWorld) (event : WorkerEvent) : ImageWorld :=
  match w.worker, event with
  | .queued, _ =>
      if 256 * 1024 < env.request.body.encodedBytes then
        w.endWorker (.error (.failed (Error.new .resourceLimit "image.http"
          "image request body exceeds the bounded limit")))
      else { w with worker := .encoded }
  | .encoded, _ =>
      match w.phase.beginDispatch with
      | .ok phase => { w with phase, worker := .sending, dispatches := w.dispatches ++ [none] }
      | .error error => w.endWorker (.error (.failed error))
  | .sending, .response (.ok status) => w.answer status
  | .sending, .response (.error error) => { w with worker := .refused error }
  | .refused error, _ =>
      w.endWorker (.error (.failed (Error.new
        (if w.phase.isDispatched then .outcomeUnknown else .disconnected) "image.http"
        ("official image endpoint request failed: " ++ error))))
  | .answered status, _ =>
      if status = 401 then
        { w with phase := w.phase.resetAfterUnauthorized }.endWorker (.error .unauthorized)
      else if status ≠ 200 then
        { w with phase := w.phase.finish }.endWorker (.error (.failed (Error.new .rpc "image.http"
          ("official image endpoint returned HTTP " ++ toString status))))
      else { w with worker := .reading }
  | .reading, .body (.ok bytes) => { w with worker := .received bytes }
  | .reading, .body (.error error) =>
      w.endWorker (.error (.failed (outcomeUnknownAfterDispatch env.turnId
        (Error.new .protocol "image.http"
          ("official image endpoint response could not be read: " ++ error)))))
  | .received bytes, _ =>
      if w.phase.isCancelled then { w with worker := .abandoned }
      else
        match env.parseImageEndpointResponse bytes env.request.background with
        | .ok parsed => { w with worker := .parsed parsed }
        | .error error =>
            w.endWorker (.error (.failed (outcomeUnknownAfterDispatch env.turnId error)))
  | .parsed response, _ =>
      if w.phase.isCancelled then { w with worker := .abandoned }
      else { w with worker := .finishing response }
  | .finishing response, _ => { w with phase := w.phase.finish }.endWorker (.ok response)
  | .abandoned, _ => w.endWorker (.error (.failed (w.phase.cancellationError env.turnId)))
  | _, _ => w

/-- The worker panics, or is never run. -/
def workerDies (w : ImageWorld) (reason : String) : ImageWorld :=
  match w.worker with
  | .idle => w
  | .ended _ => w
  | _ => { w with worker := .ended (.died reason) }

/-! ## The caller and its guard -/

/-- `ImageOperationGuard::drop`, armed. -/
def dropGuard (env : ImageEnv) (w : ImageWorld) (runtime : Bool) : ImageWorld :=
  match w.phase.cancel with
  | (false, phase) => { w with phase }
  | (true, phase) =>
    if runtime then
      { w with phase, task := .spawned (phase.cancellationError env.turnId) }
    else { w with phase, forced := true }

/-- The future ends; its guard is disarmed unless the error leaves the outcome open. A
future that ends is polled by a runtime. -/
def settle (env : ImageEnv) (w : ImageWorld) (result : Result DirectImageResponse) : ImageWorld :=
  match result with
  | .ok _ => { w with caller := .returned result }
  | .error error =>
    if error.kind = .outcomeUnknown then
      { w with caller := .returned result }.dropGuard env true
    else { w with caller := .returned result }

/-- `require_remaining_timeout` failed. -/
def deadlineError : Error := Error.timeout "image.generate" 0

/-- `generate_image` and `generate_image_with_retry`, from one await to the next. -/
def call (env : ImageEnv) (w : ImageWorld) (event : CallerEvent) : ImageWorld :=
  match w.caller, event with
  | .entering, _ =>
      match env.request.validate with
      | .error error => { w with caller := .returned (.error error) }
      | .ok _ =>
        match event with
        | .noDeadline =>
            { w with caller := .returned (.error (Error.new .invalidInput "image.generate"
                "image request timeout cannot be represented by the monotonic clock")) }
        | _ => { w with caller := .checking false }
  | .checking again, event =>
      if w.phase.isCancelled then w.settle env (.error (w.phase.cancellationError env.turnId))
      else
        match event with
        | .expired => w.settle env (.error deadlineError)
        | _ => { w with caller := .authenticating again }
  | .authenticating _, .auth (.error error) =>
      { w with authErrors := w.authErrors ++ [error] }.settle env (.error error)
  | .authenticating again, .auth (.ok _) => { w with caller := .authenticated again }
  | .authenticated again, event =>
      if w.phase.isCancelled then w.settle env (.error (w.phase.cancellationError env.turnId))
      else
        match event with
        | .expired => w.settle env (.error deadlineError)
        | _ => { w with caller := .waiting again, worker := .queued }
  | .waiting again, _ =>
      match w.worker with
      | .ended (.returned (.ok response)) => w.settle env (.ok response)
      | .ended (.returned (.error .unauthorized)) =>
          if again then
            w.settle env (.error (Error.new .authentication "image.generate"
              "official image endpoint rejected refreshed authentication"))
          else { w with caller := .checking true }
      | .ended (.returned (.error (.failed error))) => w.settle env (.error error)
      | .ended (.died reason) =>
          w.settle env (.error (Error.new .process "image.http"
            ("image request worker failed: " ++ reason)))
      | _ => w
  | _, _ => w

/-- The future is dropped; before the checks are over there is no guard. -/
def dropCaller (env : ImageEnv) (w : ImageWorld) (runtime : Bool) : ImageWorld :=
  match w.caller with
  | .returned _ => w
  | .dropped => w
  | .entering => { w with caller := .dropped }
  | _ => { w with caller := .dropped }.dropGuard env runtime

/-- `ClientInner::disconnect`, up to the kill of the process. -/
def disconnect (w : ImageWorld) (error : Error) : ImageWorld :=
  { w with connection := (w.connection.beginDisconnect error).2 }

/-- The task of the guard. -/
def runTask (w : ImageWorld) : ImageWorld :=
  match w.task with
  | .spawned error => { w with task := .done error }.disconnect error
  | _ => w

/-- `replace_failure` at the end of a disconnect. -/
def enrich (w : ImageWorld) (message : String) (stderrTail : Option String) : ImageWorld :=
  match w.connection.failure with
  | none => w
  | some error =>
      { w with connection := w.connection.replaceFailure { error with message, stderrTail } }

/-- One atomic step. -/
def step (env : ImageEnv) (w : ImageWorld) : ImageLabel → ImageWorld
  | .call event => w.call env event
  | .work event => w.work env event
  | .workerDies reason => w.workerDies reason
  | .dropCaller runtime => w.dropCaller env runtime
  | .runTask => w.runTask
  | .disconnect error => { w with others := w.others ++ [error] }.disconnect error
  | .enrich message stderrTail => w.enrich message stderrTail

end ImageWorld

/-- The machine of one operation. -/
def imageMachine (env : ImageEnv) : Lib.Machine ImageWorld ImageLabel where
  init := .init
  step := ImageWorld.step env

end Vergerail
