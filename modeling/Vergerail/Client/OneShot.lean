import Vergerail.Client.Disconnect

/-!
# One-shot runs

`Codex::run` of `src/client.rs`: it creates an ephemeral session, starts one turn on it,
waits for the turn and closes the session. Its future can be dropped at every await. What
is left then is in the hands of the tasks that its guards and its run handle spawn:
`cleanup_abandoned_ephemeral_session`, `cancel_registered_run` and `abandon_run`, and the
disconnects of `PendingCancellationGuard` and `KnownTurnGuard`.

Around the call act `ClientInner::shutdown`, the router, the deadline task, whoever else
takes the lifecycle lock of the `SessionRegistry`, and whoever disconnects. The thread is
the one that the answer to `thread/start` names. How a request ends is in the labels.
-/

namespace Vergerail

open Lib

/-! ## The parties -/

/-- Who holds the lifecycle lock. -/
inductive LockHolder where
  | call
  | cleanup
  | shutdown
  /-- Another call of the client. -/
  | other
  deriving DecidableEq, Repr

/-- Where the call of `Codex::run` is. -/
inductive OneShotCall where
  /-- `create_session` awaits the lifecycle lock. -/
  | locking
  /-- It checks its options and its directory. -/
  | preparing
  /-- It awaits `thread/start`. -/
  | creating (sent : Bool)
  /-- `Session::start` awaits the lifecycle lock. -/
  | startLocking
  /-- `Session::start` is under way; its `KnownTurnGuard` is armed with the turn it names. -/
  | starting (knownTurn : Option String)
  /-- `Run::wait` -/
  | waiting (run : Nat) (turnId : String)
  /-- `Session::close` is next. -/
  | closing (result : Result RunResult)
  /-- `close_session` awaits the lifecycle lock. -/
  | closeLocking (result : Result RunResult)
  /-- It awaits `thread/unsubscribe`. -/
  | unsubscribing (result : Result RunResult)
  | returned (result : Result RunResult)
  | dropped

/-- A task that ends a turn nobody waits for. `cancel_registered_run` begins at
`cancelling`, the task of a dropped `Run` at `abandoning`. -/
inductive RunTask where
  | none
  | cancelling
  /-- `abandon_run` looks at the connection. -/
  | abandoning (turnId : String) (run : Nat)
  /-- It looks whether the registry still tracks the turn. -/
  | tracking (turnId : String) (run : Nat)
  /-- It interrupts the turn and awaits its end. -/
  | interrupting (turnId : String) (run : Nat)
  /-- It is about to disconnect. -/
  | failing (error : Error)
  | done

/-- The task of `cleanup_abandoned_ephemeral_session`. -/
inductive CleanupTask where
  | none
  | locking
  /-- It holds the lock and looks whether the thread is loaded. -/
  | checkingOwner
  | checkingConnection
  | cancelling
  | interrupting (turnId : String) (run : Nat)
  | recheckingConnection
  | unsubscribing
  /-- It is about to disconnect. -/
  | failing (error : Error)
  | done

/-- `ClientInner::shutdown`, as far as this thread is concerned. -/
inductive ShutdownTask where
  | none
  /-- The client is closing; it looks at the connection and the operation deadline. -/
  | checking
  | locking
  /-- The thread is in the snapshot of the loaded threads. -/
  | visiting
  | interrupting (turnId : String) (run : Nat)
  | unsubscribing
  /-- The loaded threads are visited. -/
  | leaving
  /-- It ends the process. -/
  | terminating
  | done

def OneShotCall.holds : OneShotCall → Bool
  | preparing => true
  | creating _ => true
  | starting _ => true
  | unsubscribing _ => true
  | _ => false

def CleanupTask.holds : CleanupTask → Bool
  | none => false
  | locking => false
  | done => false
  | _ => true

def ShutdownTask.holds : ShutdownTask → Bool
  | visiting => true
  | interrupting _ _ => true
  | unsubscribing => true
  | leaving => true
  | _ => false

/-- What a one-shot run is given. -/
structure OneShotEnv extends PartiesEnv where
  threadId : String
  inputs : List TurnInput
  /-- The host's answer about a local image path. -/
  inspect : String → Result Unit
  /-- `validate_unsubscribe_response`. -/
  validateUnsubscribe : Json → Result Unit
  /-- Another session of the client has the thread already. -/
  loadedBefore : Bool

/-- The inputs are checked as `Session::start` does. -/
def OneShotEnv.validateInputs (env : OneShotEnv) : Result Unit :=
  SessionWorld.validateInputs
    { threadId := env.threadId
      eventCapacity := env.eventCapacity
      maximumOutputBytes := env.maximumOutputBytes
      redactLine := env.redactLine
      inspect := env.inspect
      validateUnsubscribe := env.validateUnsubscribe } env.inputs

/-- The call, its thread, and the tasks around it. -/
structure OneShotWorld where
  thread : ThreadCell
  /-- The recorded failure of the connection, once it is disconnected. -/
  failure : Option Error
  lock : Option LockHolder
  /-- The thread is in the `SessionRegistry`. -/
  tracked : Bool
  /-- History: `thread/start` was sent and not refused, and the provider has not confirmed
  an unsubscription since. -/
  loaded : Bool
  /-- History: the operation deadline expired between the queueing of `thread/start` and the
  wait for its writer. -/
  expired : Bool
  call : OneShotCall
  /-- The `cancel_aborted_request` task of the dropped `thread/start`. -/
  aborting : Bool
  /-- The disconnect task of a dropped `KnownTurnGuard`, with its turn. -/
  knownTurn : Option String
  /-- The task of the dropped `RegisteredRunGuard`. -/
  guardTask : RunTask
  /-- The task of the dropped `Run`. -/
  handleTask : RunTask
  /-- The task of the dropped `EphemeralSessionCleanupGuard`. -/
  cleanup : CleanupTask
  shutdown : ShutdownTask

/-- Which of the two tasks that end a turn. -/
inductive RunTaskOwner where
  | guard
  | handle
  deriving DecidableEq, Repr

/-- What happens next. -/
inductive OneShotLabel where
  /-- The call goes on, unless it awaits something. -/
  | proceed
  /-- `create_session` has checked its options and its directory. -/
  | prepare (checked : Result Unit)
  /-- The frame of its `thread/start` is queued. -/
  | send
  /-- The request that the call awaits ends with the provider's answer. -/
  | answer (response : Result Json)
  /-- It ends without one. A `thread/start` whose frame was queued disconnects then, unless
  the operation deadline `expired` between its queueing and the wait for its writer. -/
  | giveUp (error : Error) (expired : Bool)
  /-- `Run::wait` ends: with the terminal result, or because an approval could not be denied. -/
  | waitEnds (denied : Option Error)
  | dropCall
  /-- `cancel_aborted_request` runs; `refused` says that the provider refused the request. -/
  | abort (refused : Bool)
  /-- The task of the dropped `KnownTurnGuard` runs. -/
  | disconnectTurn
  | task (owner : RunTaskOwner)
  /-- The turn that the task awaits ended, or did not. -/
  | taskTurn (owner : RunTaskOwner) (ended : Result Unit)
  | cleanup
  | cleanupTurn (ended : Result Unit)
  | cleanupAnswer (response : Result Json)
  /-- `shutdown` begins. -/
  | close
  | shutdown (deadlineExpired : Bool)
  | shutdownTurn (ended : Result Unit)
  | shutdownAnswer (response : Result Json)
  /-- The router or the deadline task works on the thread's entry. -/
  | others (op : RegistryOp)
  | disconnect (error : Error)
  | othersLock
  | othersUnlock

/-- The operations of the router and of the deadline task. -/
def RegistryOp.byProvider : RegistryOp → Bool
  | .routeEvent _ _ _ _ _ => true
  | .routeTerminal _ _ _ _ => true
  | .failActive _ _ _ => true
  | _ => false

/-- The receivers of the latest run go with the start that registered it. -/
def ThreadCell.dropReceivers (t : ThreadCell) : ThreadCell :=
  t.operate (.dropChannels (t.registry.slot.registered - 1))

namespace OneShotWorld

def init (env : OneShotEnv) : OneShotWorld where
  thread := .vacant env.threadId
  failure := none
  lock := none
  tracked := env.loadedBefore
  loaded := false
  expired := false
  call := .locking
  aborting := false
  knownTurn := none
  guardTask := .none
  handleTask := .none
  cleanup := .none
  shutdown := .none

/-- The thread's entry in the run registry. -/
def slot (w : OneShotWorld) : RunSlot := w.thread.registry.slot

/-- An operation on the thread's entry. -/
def operate (w : OneShotWorld) (op : RegistryOp) : OneShotWorld :=
  { w with thread := w.thread.operate op }

/-- `ClientInner::disconnect`: the first cause is recorded and the runs are drained. -/
def disconnect (w : OneShotWorld) (error : Error) : OneShotWorld :=
  match w.failure with
  | some _ => w
  | none => { w.operate (.failAll error) with failure := some error }

/-- `ConnectionLifecycle::is_closing`: `begin_closing` is the first step of the shutdown. -/
def closing (w : OneShotWorld) : Bool :=
  match w.shutdown with
  | .none => false
  | _ => true

/-- How a request is refused before it is sent. -/
def refusal (w : OneShotWorld) (operation : String) : Option Error :=
  if w.closing then some (Error.new .shutdown operation "client shutdown has started")
  else w.failure

/-- `interrupt_and_wait_for_provider_terminal` succeeds once the terminal is observed. -/
def turnEnds (w : OneShotWorld) (run : Nat) : Result Unit → Option (Result Unit)
  | .ok _ =>
    if (w.slot.cells run).control.providerTerminalObserved then some (.ok ()) else none
  | .error error => some (.error error)

/-! ## The call -/

/-- The call ends; its cleanup guard is disarmed if the session was closed. -/
def finish (w : OneShotWorld) (result : Result RunResult) (closed : Result Unit) :
    OneShotWorld :=
  match closed with
  | .ok _ => { w with call := .returned result }
  | .error cleanupError =>
      { w with
        cleanup := .locking
        call := .returned (match result with
          | .ok _ => .error cleanupError
          | .error error => .error
              (error.withRelatedError "ephemeral session cleanup also failed" cleanupError)) }

/-- The run handle is dropped. -/
def dropHandle (w : OneShotWorld) (run : Nat) (turnId : String) : OneShotWorld :=
  let abandoned :=
    if w.slot.active && !(w.slot.cells run).abandoned then
      { w.operate (.abandon run) with handleTask := .abandoning turnId run }
    else w
  abandoned.operate (.dropChannels run)

/-- `Session::start` returns its run. -/
def handOut (w : OneShotWorld) (thread : ThreadCell) (run : Nat) (turnId : String) :
    OneShotWorld :=
  { w with thread, lock := none, call := .waiting run turnId }

/-- The next step of `Session::start`. -/
def goOn (env : OneShotEnv) (w : OneShotWorld) (knownTurn : Option String) : OneShotWorld :=
  match w.thread.start with
  | .registered run =>
    match w.refusal "turn.start" with
    | some error => { w with thread := w.thread.goto (.failing error) }
    | none => { w with thread := w.thread.goto (.requesting run 0) }
  | .failing error => { w with thread := w.thread.failRegistered error }
  | .acknowledging run turnId =>
    match (w.thread.acknowledge run turnId).start with
    | .none => w.handOut (w.thread.acknowledge run turnId) run turnId
    | _ => { w with
        thread := w.thread.acknowledge run turnId
        call := .starting (some turnId) }
  | .replaying run turnId batch =>
    match (w.thread.replay env.toPartiesEnv run turnId batch).start with
    | .none => w.handOut (w.thread.replay env.toPartiesEnv run turnId batch) run turnId
    | _ => { w with thread := w.thread.replay env.toPartiesEnv run turnId batch }
  | .disconnecting error next =>
      { w.disconnect error with thread := (w.disconnect error).thread.goto next }
  | .leaving error =>
      { w with
        thread := (w.thread.goto .none).dropReceivers
        lock := none
        knownTurn := w.knownTurn.or knownTurn
        guardTask := .cancelling
        call := .closing (.error error) }
  | _ => w

/-- The call goes on. -/
def proceed (env : OneShotEnv) (w : OneShotWorld) : OneShotWorld :=
  match w.call with
  | .locking =>
    if w.lock.isNone then { w with lock := some .call, call := .preparing } else w
  | .startLocking =>
    match env.validateInputs with
    | .error error => { w with call := .closing (.error error) }
    | .ok _ =>
      if w.lock.isNone then
        match (w.slot.startRun env.eventCapacity env.maximumOutputBytes).1 with
        | .error error =>
            { w with thread := w.thread.begin env.toPartiesEnv, call := .closing (.error error) }
        | .ok _ =>
            { w with
              thread := w.thread.begin env.toPartiesEnv
              lock := some .call
              call := .starting none }
      else w
  | .starting knownTurn => w.goOn env knownTurn
  | .closing result =>
    if w.slot.active then
      w.finish result (.error (Error.new .invalidInput "Session::close"
        "cannot close a session with an active run"))
    else { w with call := .closeLocking result }
  | .closeLocking result =>
    if w.lock.isNone then
      if w.slot.contains then
        w.finish result (.error (Error.new .invalidInput "thread.unsubscribe"
          "cannot unsubscribe a thread with an active run"))
      else
        match w.refusal "thread.unsubscribe" with
        | some error => w.finish result (.error error)
        | none => { w with lock := some .call, call := .unsubscribing result }
    else w
  | _ => w

/-- `create_session` goes on after its checks. -/
def prepare (w : OneShotWorld) (checked : Result Unit) : OneShotWorld :=
  match w.call, checked with
  | .preparing, .error error => { w with lock := none, call := .returned (.error error) }
  | .preparing, .ok _ =>
    match w.refusal "thread.start" with
    | some error => { w with lock := none, call := .returned (.error error) }
    | none => { w with call := .creating false }
  | _, _ => w

/-- The frame of `thread/start` is queued. -/
def send (w : OneShotWorld) : OneShotWorld :=
  match w.call with
  | .creating false => { w with loaded := true, call := .creating true }
  | _ => w

/-- `create_session` fails with a disconnect. -/
def failCreation (w : OneShotWorld) (error : Error) : OneShotWorld :=
  { w.disconnect error with lock := none, call := .returned (.error error) }

/-- `create_session` takes the provider's answer. -/
def created (w : OneShotWorld) : Result Json → OneShotWorld
  | .error error => { w with loaded := false, lock := none, call := .returned (.error error) }
  | .ok response =>
    match (response.pointer ["thread", "id"]).bind Json.asNonEmptyStr with
    | none => w.failCreation (protocolField "thread.start" "thread.id")
    | some _ =>
      if w.tracked then
        w.failCreation (Error.new .protocol "thread.start"
          "app-server returned a thread id that is already loaded")
      else { w with tracked := true, lock := none, call := .startLocking }

/-- The request under way ends with an answer. -/
def answer (env : OneShotEnv) (w : OneShotWorld) (response : Result Json) : OneShotWorld :=
  match w.call with
  | .creating true => w.created response
  | .starting _ =>
    match w.thread.start with
    | .requesting run _ => { w with thread := w.thread.takeAnswer run response }
    | _ => w
  | .unsubscribing result =>
    match response.bind env.validateUnsubscribe with
    | .ok _ =>
        { (w.finish result (.ok ())) with lock := none, tracked := false, loaded := false }
    | .error error => { w.finish result (.error error) with lock := none }
  | _ => w

/-- The request under way ends without an answer. -/
def giveUp (w : OneShotWorld) (error : Error) (expired : Bool) : OneShotWorld :=
  match w.call with
  | .creating true =>
    if expired then { w with lock := none, expired := true, call := .returned (.error error) }
    else w.failCreation error
  | .creating false => { w with lock := none, call := .returned (.error error) }
  | .starting _ =>
    match w.thread.start with
    | .requesting run _ => { w with thread := w.thread.takeAnswer run (.error error) }
    | _ => w
  | .unsubscribing result => { w.finish result (.error error) with lock := none }
  | _ => w

/-- `Run::wait` returns, and its handle is dropped. -/
def waitEnds (w : OneShotWorld) (denied : Option Error) : OneShotWorld :=
  match w.call with
  | .waiting run turnId =>
    match denied, (w.slot.cells run).terminal.value with
    | some error, _ => { w.dropHandle run turnId with call := .closing (.error error) }
    | none, some result => { w.dropHandle run turnId with call := .closing result }
    | none, none => w
  | _ => w

/-- The future is dropped at an await. -/
def dropCall (w : OneShotWorld) : OneShotWorld :=
  match w.call with
  | .locking => { w with call := .dropped }
  | .preparing => { w with lock := none, call := .dropped }
  | .creating sent => { w with lock := none, aborting := w.aborting || sent, call := .dropped }
  | .startLocking => { w with cleanup := .locking, call := .dropped }
  | .starting knownTurn =>
    match w.thread.dropStart.start with
    | .none =>
        { w with
          thread := w.thread.dropStart.dropReceivers
          lock := none
          knownTurn := w.knownTurn.or knownTurn
          guardTask := .cancelling
          cleanup := .locking
          call := .dropped }
    | _ => w
  | .waiting run turnId =>
      { w.dropHandle run turnId with cleanup := .locking, call := .dropped }
  | .closing _ => { w with cleanup := .locking, call := .dropped }
  | .closeLocking _ => { w with cleanup := .locking, call := .dropped }
  | .unsubscribing _ => { w with lock := none, cleanup := .locking, call := .dropped }
  | _ => w

/-! ## The tasks -/

/-- `cancel_aborted_request` of the dropped `thread/start`. -/
def abort (w : OneShotWorld) (refused : Bool) : OneShotWorld :=
  if w.aborting then
    if refused then { w with aborting := false, loaded := false }
    else
      { w.disconnect (Error.new .outcomeUnknown "thread.start"
          "the caller cancelled before Vergerail could commit a dispatched non-idempotent response; the runtime was terminated and the request was not retried") with
        aborting := false }
  else w

/-- The task of a dropped `KnownTurnGuard`. -/
def disconnectTurn (env : OneShotEnv) (w : OneShotWorld) : OneShotWorld :=
  match w.knownTurn with
  | some turnId =>
      { w.disconnect (Error.new .outcomeUnknown "turn.start"
          ("turn '" ++ turnId ++ "' for thread '" ++ env.threadId
            ++ "' was created, but the caller cancelled before Vergerail could commit the run handle; the runtime was terminated and the turn was not retried")) with
        knownTurn := none }
  | none => w

def runTask (w : OneShotWorld) : RunTaskOwner → RunTask
  | .guard => w.guardTask
  | .handle => w.handleTask

def setRunTask (w : OneShotWorld) (task : RunTask) : RunTaskOwner → OneShotWorld
  | .guard => { w with guardTask := task }
  | .handle => { w with handleTask := task }

/-- The next step of `cancel_registered_run` or `abandon_run`. -/
def stepTask (w : OneShotWorld) (owner : RunTaskOwner) : OneShotWorld :=
  match w.runTask owner with
  | .cancelling =>
    match w.slot.cancelRegistered.1 with
    | some (turnId, run) =>
        (w.operate .cancelRegistered).setRunTask (.abandoning turnId run) owner
    | none => (w.operate .cancelRegistered).setRunTask .done owner
  | .abandoning turnId run =>
      w.setRunTask (if w.failure.isSome then .done else .tracking turnId run) owner
  | .tracking turnId run =>
      w.setRunTask
        (if w.slot.tracksAbandonedTurn turnId run then .interrupting turnId run else .done) owner
  | .failing error =>
      (w.disconnect (Error.new .disconnected "run.drop"
        ("failed to terminate an abandoned run: " ++ error.display))).setRunTask .done owner
  | _ => w

/-- The turn that such a task awaits ended, or did not. -/
def taskTurn (w : OneShotWorld) (owner : RunTaskOwner) (ended : Result Unit) : OneShotWorld :=
  match w.runTask owner with
  | .interrupting _ run =>
    match w.turnEnds run ended with
    | some (.ok _) => w.setRunTask .done owner
    | some (.error error) => w.setRunTask (.failing error) owner
    | none => w
  | _ => w

/-- The cleanup returns. -/
def cleanedUp (w : OneShotWorld) : OneShotWorld := { w with lock := none, cleanup := .done }

/-- The next step of `cleanup_abandoned_ephemeral_session`. -/
def stepCleanup (w : OneShotWorld) : OneShotWorld :=
  match w.cleanup with
  | .locking =>
    if w.lock.isNone then { w with lock := some .cleanup, cleanup := .checkingOwner } else w
  | .checkingOwner =>
    if w.tracked then { w with cleanup := .checkingConnection } else w.cleanedUp
  | .checkingConnection =>
    if w.failure.isSome then { w with tracked := false }.cleanedUp
    else { w with cleanup := .cancelling }
  | .cancelling =>
    match w.slot.cancelRegistered.1 with
    | some (turnId, run) =>
        { w.operate .cancelRegistered with cleanup := .interrupting turnId run }
    | none => { w.operate .cancelRegistered with cleanup := .recheckingConnection }
  | .recheckingConnection =>
    if w.failure.isSome then { w with tracked := false }.cleanedUp
    else { w with cleanup := .unsubscribing }
  | .failing error => (w.disconnect error).cleanedUp
  | _ => w

/-- The turn that the cleanup awaits ended, or did not. -/
def cleanupTurn (w : OneShotWorld) (ended : Result Unit) : OneShotWorld :=
  match w.cleanup with
  | .interrupting _ run =>
    match w.turnEnds run ended with
    | some (.ok _) => { w with cleanup := .recheckingConnection }
    | some (.error error) =>
        { w with
          cleanup := .failing ((Error.new .disconnected "Codex::run"
            "failed to terminate a cancelled one-shot run").withRelatedError
              "run cleanup also failed" error) }
    | none => w
  | _ => w

/-- The answer to the cleanup's `thread/unsubscribe`. -/
def cleanupAnswer (env : OneShotEnv) (w : OneShotWorld) (response : Result Json) :
    OneShotWorld :=
  match w.cleanup with
  | .unsubscribing =>
    match response.bind env.validateUnsubscribe with
    | .ok _ => { w with tracked := false, loaded := false }.cleanedUp
    | .error error =>
        { w with
          cleanup := .failing ((Error.new .disconnected "Codex::run"
            "failed to unsubscribe a cancelled one-shot session").withRelatedError
              "session cleanup also failed" error) }
  | _ => w

/-- `ClientInner::shutdown` begins. -/
def close (w : OneShotWorld) : OneShotWorld :=
  match w.shutdown with
  | .none => { w with shutdown := .checking }
  | _ => w

/-- The next step of `ClientInner::shutdown`. -/
def stepShutdown (w : OneShotWorld) (deadlineExpired : Bool) : OneShotWorld :=
  match w.shutdown with
  | .checking =>
    if w.failure.isSome || deadlineExpired then
      { w with tracked := false, shutdown := .terminating }
    else { w with shutdown := .locking }
  | .locking =>
    if w.lock.isNone then
      { w with
        lock := some .shutdown
        shutdown := if w.tracked then .visiting else .leaving }
    else w
  | .visiting =>
    match w.slot.activeTurn with
    | some (turnId, run) => { w with shutdown := .interrupting turnId run }
    | none => { w with shutdown := .unsubscribing }
  | .leaving => { w with lock := none, shutdown := .terminating }
  | .terminating => { w with shutdown := .done }
  | _ => w

/-- The turn that the shutdown awaits ended, or did not; it goes on either way. -/
def shutdownTurn (w : OneShotWorld) (ended : Result Unit) : OneShotWorld :=
  match w.shutdown with
  | .interrupting _ run =>
    match w.turnEnds run ended with
    | some _ => { w with shutdown := .unsubscribing }
    | none => w
  | _ => w

/-- The answer to the shutdown's `thread/unsubscribe`. -/
def shutdownAnswer (env : OneShotEnv) (w : OneShotWorld) (response : Result Json) :
    OneShotWorld :=
  match w.shutdown with
  | .unsubscribing =>
    match response.bind env.validateUnsubscribe with
    | .ok _ => { w with tracked := false, loaded := false, shutdown := .leaving }
    | .error _ => { w with shutdown := .leaving }
  | _ => w

/-- One step. -/
def act (env : OneShotEnv) (w : OneShotWorld) : OneShotLabel → OneShotWorld
  | .proceed => w.proceed env
  | .prepare checked => w.prepare checked
  | .send => w.send
  | .answer response => w.answer env response
  | .giveUp error expired => w.giveUp error expired
  | .waitEnds denied => w.waitEnds denied
  | .dropCall => w.dropCall
  | .abort refused => w.abort refused
  | .disconnectTurn => w.disconnectTurn env
  | .task owner => w.stepTask owner
  | .taskTurn owner ended => w.taskTurn owner ended
  | .cleanup => w.stepCleanup
  | .cleanupTurn ended => w.cleanupTurn ended
  | .cleanupAnswer response => w.cleanupAnswer env response
  | .close => w.close
  | .shutdown deadlineExpired => w.stepShutdown deadlineExpired
  | .shutdownTurn ended => w.shutdownTurn ended
  | .shutdownAnswer response => w.shutdownAnswer env response
  | .others op => if op.byProvider then w.operate op else w
  | .disconnect error => w.disconnect error
  | .othersLock => if w.lock.isNone then { w with lock := some .other } else w
  | .othersUnlock => if w.lock = some .other then { w with lock := none } else w

end OneShotWorld

/-- The machine of one call. -/
def oneShotMachine (env : OneShotEnv) : Machine OneShotWorld OneShotLabel where
  init := OneShotWorld.init env
  step := OneShotWorld.act env

end Vergerail
