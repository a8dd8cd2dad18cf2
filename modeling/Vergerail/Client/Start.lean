import Vergerail.Session.Registry

/-!
# Starting a run

`Session::start` and `Session::close` of `src/session.rs`, with what they call in
`src/client.rs`: `start_turn`, `fail_registered_run_before_turn`, `close_session`, and
the cancel task that a dropped `RegisteredRunGuard` spawns.

A start holds the session's and the client's lifecycle lock from its claim of the thread
to its return, so at most one is under way. Everybody else acts in between: the router,
the deadline task of an earlier run, the cancel tasks, and whoever disconnects. A
disconnect is one step here; nothing below looks at a session that is disconnected.
-/

namespace Vergerail

open Lib

/-- `char::is_whitespace`: the Unicode property `White_Space`. -/
def charIsWhitespace (c : Char) : Bool :=
  (9 ≤ c.toNat && c.toNat ≤ 13) || c.toNat == 0x20 || c.toNat == 0x85 || c.toNat == 0xA0
    || c.toNat == 0x1680 || (0x2000 ≤ c.toNat && c.toNat ≤ 0x200A) || c.toNat == 0x2028
    || c.toNat == 0x2029 || c.toNat == 0x202F || c.toNat == 0x205F || c.toNat == 0x3000

/-- `str::trim().is_empty()`. -/
def trimIsEmpty (text : String) : Bool := text.toList.all charIsWhitespace

/-- `TurnInput`; the detail hint of an image is not looked at here. -/
inductive TurnInput where
  | text (value : String)
  | localImage (path : String)
  deriving DecidableEq

/-- `TurnInput::validate`. What the path and the file system say about a local image is
the host's answer. -/
def TurnInput.validate (inspect : String → Result Unit) : TurnInput → Result Unit
  | .text value =>
    if trimIsEmpty value || value.utf8ByteSize > 8 * 1024 * 1024
        || value.toList.contains (.ofNat 0) then
      .error (Error.new .invalidInput "Session::start"
        "text input must be a bounded non-empty UTF-8 value")
    else .ok ()
  | .localImage path => inspect path

/-- Where the start that holds the locks is. -/
inductive StartCall where
  | none
  /-- The run is registered, the guard is armed, the request is under way. -/
  | requesting
  /-- The turn is acknowledged; the replay loop still holds `batch`. -/
  | replaying (turnId : String) (batch : List DeferredRunNotification)
  /-- It failed and its guard is dropped; the locks are still held. -/
  | leaving (error : Error)

/-- One session, its thread's registry entry, and the tasks around it. -/
structure SessionWorld where
  slot : RunSlot
  /-- `SessionLifecycle::Closed`. -/
  closed : Bool
  /-- The recorded failure of the connection, once it is disconnected. -/
  failure : Option Error
  call : StartCall
  /-- The cancel tasks that dropped guards spawned and that have not run. -/
  cancels : Nat
  /-- History: a cancel task ran since the start under way registered its run. -/
  cancelled : Bool

/-- What happens next. -/
inductive SessionLabel where
  /-- `Session::start` up to its request. -/
  | start (inputs : List TurnInput)
  /-- The `turn/start` request of the start under way ends. -/
  | answer (response : Result Json)
  /-- Its replay loop performs its next registry operation. -/
  | replay
  /-- It returns its error. -/
  | leave
  /-- Its future is dropped. -/
  | dropCall
  /-- A spawned cancel task runs. -/
  | cancelTask
  /-- The router routes an event. -/
  | routeEvent (observedTurnId : Option String) (sourceMethod : String) (event : Event)
  /-- The router routes a completion. -/
  | routeTerminal (completion : TurnCompletion) (params : Json)
  /-- The deadline task of a turn fires. -/
  | failActive (turnId : String) (control : Nat) (error : Error)
  /-- A run handle is dropped. -/
  | abandon (run : Nat)
  /-- Somebody disconnects. -/
  | disconnect (error : Error)
  /-- `Session::close`, with the answer to its request. -/
  | close (response : Result Json)

/-- What the client and the session pass along. -/
structure SessionEnv extends RunEnv where
  /-- The host's answer about a local image path. -/
  inspect : String → Result Unit
  /-- `validate_unsubscribe_response`. -/
  validateUnsubscribe : Json → Result Unit

/-- How `Session::close` and `close_session` refuse before they ask the provider. -/
def RunSlot.closeRefusal (slot : RunSlot) : Option Error :=
  if slot.active then
    some (Error.new .invalidInput "Session::close" "cannot close a session with an active run")
  else if slot.contains then
    some (Error.new .invalidInput "thread.unsubscribe"
      "cannot unsubscribe a thread with an active run")
  else none

namespace SessionWorld

def init (env : SessionEnv) : SessionWorld where
  slot := RunSlot.vacant env.threadId
  closed := false
  failure := none
  call := .none
  cancels := 0
  cancelled := false

/-- `ClientInner::disconnect`: the first cause is recorded and the routes are drained. -/
def disconnect (w : SessionWorld) (error : Error) : SessionWorld :=
  match w.failure with
  | some _ => w
  | none => { w with failure := some error, slot := w.slot.failAll error }

/-- The start under way fails: its guard spawns the cancel task. -/
def fail (w : SessionWorld) (error : Error) : SessionWorld :=
  { w with call := .leaving error, cancels := w.cancels + 1 }

/-- What `Session::start` checks before it takes a lock. -/
def validateInputs (env : SessionEnv) (inputs : List TurnInput) : Result Unit :=
  if inputs.isEmpty then
    .error (Error.new .invalidInput "Session::start" "turn input batch must be non-empty")
  else inputs.forM (TurnInput.validate env.inspect)

/-- `Session::start` up to its request; a start that finds the locks taken waits. -/
def start (env : SessionEnv) (w : SessionWorld) (inputs : List TurnInput) :
    SessionWorld × Option (Result String) :=
  match validateInputs env inputs with
  | .error error => (w, some (.error error))
  | .ok _ =>
    match w.call with
    | .none =>
      if w.closed then
        (w, some (.error (Error.new .invalidInput "Session::start" "session is closed")))
      else
        match w.slot.startRun env.eventCapacity env.maximumOutputBytes with
        | (.error error, slot) => ({ w with slot }, some (.error error))
        | (.ok _, slot) => ({ w with slot, call := .requesting, cancelled := false }, none)
    | _ => (w, none)

/-- `fail_registered_run_before_turn`. -/
def failRegisteredRunBeforeTurn (w : SessionWorld) (error : Error) : SessionWorld :=
  match w.slot.failBeforeStart error with
  | (.providerTurnOwned, slot) =>
      disconnect { w with slot } (Error.new .protocol "turn.start"
        "turn/start failed before ownership was established, but the run route already owned a provider turn")
  | (_, slot) => { w with slot }

/-- `start_turn` after its response named a turn. -/
def acknowledge (w : SessionWorld) (turnId : String) : SessionWorld × Option (Result String) :=
  match w.slot.acknowledgeStart turnId with
  | (.replay deferred, slot) => ({ w with slot, call := .replaying turnId deferred }, none)
  | (.completedBeforeAcknowledgement, slot) =>
      ({ w with slot, call := .none }, some (.ok turnId))
  | (.missingRoute, slot) =>
      (fail { w with slot } (Error.new .disconnected "turn.start"
        "run route disappeared before turn/start completed"), none)
  | (.terminalTurnMismatch expected, slot) =>
      let error := Error.new .protocol "turn.start"
        ("turn/start acknowledged turn '" ++ turnId
          ++ "' after a terminal notification for turn '" ++ expected ++ "'")
      (fail (disconnect { w with slot } error) error, none)
  | (.alreadyAcknowledged, slot) =>
      (fail { w with slot } (Error.new .protocol "turn.start"
        "run route acknowledged turn/start more than once"), none)

/-- `start_turn` from the end of its request on. -/
def answer (w : SessionWorld) (response : Result Json) : SessionWorld × Option (Result String) :=
  match w.call with
  | .requesting =>
    match response with
    | .error error => (fail (w.failRegisteredRunBeforeTurn error) error, none)
    | .ok response =>
      match (response.pointer ["turn", "id"]).bind Json.asNonEmptyStr with
      | none =>
          let error := protocolField "turn.start" "turn.id"
          (fail (w.disconnect error) error, none)
      | some turnId => w.acknowledge turnId
  | _ => (w, none)

/-- One registry operation of `replay_deferred_run_notifications`; the end of the loop is
the return of the start. -/
def replay (env : SessionEnv) (w : SessionWorld) : SessionWorld × Option (Result String) :=
  match w.call with
  | .replaying turnId (.event observed sourceMethod event :: batch) =>
      ({ w with
        slot := (w.slot.routeEvent (some observed) sourceMethod event false env.eventCapacity).2
        call := .replaying turnId batch }, none)
  | .replaying turnId (.terminal params :: batch) =>
    match turnCompletion env.redactLine params with
    | .error error => ({ w.disconnect error with call := .replaying turnId batch }, none)
    | .ok completion =>
        ({ w with
          slot := (w.slot.routeTerminal completion params false env.eventCapacity).2
          call := .replaying turnId batch }, none)
  | .replaying turnId [] =>
    match w.slot.replayTransition turnId with
    | (.next deferred, slot) => ({ w with slot, call := .replaying turnId deferred }, none)
    | (_, slot) => ({ w with slot, call := .none }, some (.ok turnId))
  | _ => (w, none)

/-- `Session::close`. -/
def close (env : SessionEnv) (w : SessionWorld) (response : Result Json) : SessionWorld :=
  match w.call with
  | .none =>
    if w.slot.closeRefusal.isNone && (response.bind env.validateUnsubscribe).isOk then
      { w with closed := true }
    else w
  | _ => w

/-- One step, and what a start that returns in it returns. -/
def act (env : SessionEnv) (w : SessionWorld) :
    SessionLabel → SessionWorld × Option (Result String)
  | .start inputs => w.start env inputs
  | .answer response => w.answer response
  | .replay => w.replay env
  | .leave =>
    match w.call with
    | .leaving error => ({ w with call := .none }, some (.error error))
    | _ => (w, none)
  | .dropCall =>
    match w.call with
    | .requesting => ({ w with call := .none, cancels := w.cancels + 1 }, none)
    | .replaying _ _ => ({ w with call := .none, cancels := w.cancels + 1 }, none)
    | _ => (w, none)
  | .cancelTask =>
    if w.cancels = 0 then (w, none)
    else
      ({ w with
        slot := w.slot.cancelRegistered.2
        cancels := w.cancels - 1
        cancelled := true }, none)
  | .routeEvent observedTurnId sourceMethod event =>
      ({ w with
        slot := (w.slot.routeEvent observedTurnId sourceMethod event true env.eventCapacity).2 },
        none)
  | .routeTerminal completion params =>
      ({ w with
        slot := (w.slot.routeTerminal completion params true env.eventCapacity).2 }, none)
  | .failActive turnId control error =>
      ({ w with slot := (w.slot.failActive turnId control error).2 }, none)
  | .abandon run =>
      ({ w with slot := w.slot.apply (.abandon run) }, none)
  | .disconnect error => (w.disconnect error, none)
  | .close response => (w.close env response, none)

end SessionWorld

/-- The machine of one session. -/
def sessionMachine (env : SessionEnv) : Machine SessionWorld SessionLabel where
  init := SessionWorld.init env
  step w label := (w.act env label).1

end Vergerail
