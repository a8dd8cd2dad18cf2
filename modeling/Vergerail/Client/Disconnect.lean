import Vergerail.Account
import Vergerail.Client.RequestWorld
import Vergerail.Client.Start

/-!
# The disconnect and the three registries

`ClientInner::disconnect` of `src/client.rs` drains the pending requests, the runs and the
logins, each registry once, after it published its cause and ended the process. Around it
run the calls of `request_internal_with_timeout`, the handshakes of `Session::start` with
their `turn/start` request, `register_login`, and whoever else works on the registries.

Each registry looks after itself in its own way: a request looks at the flag before it
registers and at the shutdown after, a start registers its run before its request looks at
the flag, and a login looks at the flag after it registered.
-/

namespace Vergerail

open Lib

/-! ## Starting a run -/

/-- Where the `Session::start` of a thread is. -/
inductive RunStart where
  | none
  /-- The run is registered; its request is next. -/
  | registered (run : Nat)
  /-- It awaits its `turn/start` request. -/
  | requesting (run request : Nat)
  /-- The request failed. -/
  | failing (error : Error)
  /-- The response named a turn. -/
  | acknowledging (run : Nat) (turnId : String)
  /-- The replay loop holds `batch`. -/
  | replaying (run : Nat) (turnId : String) (batch : List DeferredRunNotification)
  /-- It is about to disconnect, and goes on with `next`. -/
  | disconnecting (error : Error) (next : RunStart)
  /-- It failed and is about to return its error. -/
  | leaving (error : Error)

/-- A thread: its entry in the run registry, and the start under way on it. -/
structure ThreadCell where
  registry : RegistryWorld
  start : RunStart
  /-- History: the runs whose handle a start returned. -/
  handles : List Nat

/-- What the parties are configured with. -/
structure PartiesEnv extends ClientEnv where
  eventCapacity : Nat
  maximumOutputBytes : Nat
  /-- `request_timeout`, in milliseconds. -/
  requestTimeout : Nat

namespace ThreadCell

/-- A thread without a run. -/
def vacant (threadId : String) : ThreadCell where
  registry := .init threadId
  start := .none
  handles := []

def goto (t : ThreadCell) (start : RunStart) : ThreadCell := { t with start }

/-- The start returns the handle of its run. -/
def handOut (t : ThreadCell) (run : Nat) : ThreadCell :=
  { t with start := .none, handles := run :: t.handles }

/-- An operation on the thread's entry. -/
def operate (t : ThreadCell) (op : RegistryOp) : ThreadCell :=
  { t with registry := t.registry.act op }

/-- `Session::start` up to the registration of its run. -/
def begin (env : PartiesEnv) (t : ThreadCell) : ThreadCell :=
  match t.start with
  | .none =>
    match (t.registry.slot.startRun env.eventCapacity env.maximumOutputBytes).1 with
    | .ok run =>
        (t.operate (.register env.eventCapacity env.maximumOutputBytes)).goto (.registered run)
    | .error _ => t.operate (.register env.eventCapacity env.maximumOutputBytes)
  | _ => t

/-- `fail_registered_run_before_turn`. -/
def failRegistered (t : ThreadCell) (error : Error) : ThreadCell :=
  match (t.registry.slot.failBeforeStart error).1 with
  | .providerTurnOwned => (t.operate (.failBeforeStart error)).goto (.disconnecting
      (Error.new .protocol "turn.start"
        "turn/start failed before ownership was established, but the run route already owned a provider turn")
      (.leaving error))
  | _ => (t.operate (.failBeforeStart error)).goto (.leaving error)

/-- `start_turn` acknowledges the turn its response named. -/
def acknowledge (t : ThreadCell) (run : Nat) (turnId : String) : ThreadCell :=
  let acknowledged := t.operate (.acknowledgeStart turnId)
  match (t.registry.slot.acknowledgeStart turnId).1 with
  | .replay deferred => acknowledged.goto (.replaying run turnId deferred)
  | .completedBeforeAcknowledgement => acknowledged.handOut run
  | .missingRoute => acknowledged.goto (.leaving (Error.new .disconnected "turn.start"
      "run route disappeared before turn/start completed"))
  | .terminalTurnMismatch expected =>
      let error := Error.new .protocol "turn.start"
        ("turn/start acknowledged turn '" ++ turnId
          ++ "' after a terminal notification for turn '" ++ expected ++ "'")
      acknowledged.goto (.disconnecting error (.leaving error))
  | .alreadyAcknowledged => acknowledged.goto (.leaving (Error.new .protocol "turn.start"
      "run route acknowledged turn/start more than once"))

/-- One step of `replay_deferred_run_notifications`. -/
def replay (env : PartiesEnv) (t : ThreadCell) (run : Nat) (turnId : String) :
    List DeferredRunNotification → ThreadCell
  | .event observed sourceMethod event :: batch =>
      (t.operate (.routeEvent (some observed) sourceMethod event false env.eventCapacity)).goto
        (.replaying run turnId batch)
  | .terminal params :: batch =>
    match turnCompletion env.redactLine params with
    | .error error => t.goto (.disconnecting error (.replaying run turnId batch))
    | .ok completion =>
        (t.operate (.routeTerminal completion params false env.eventCapacity)).goto
          (.replaying run turnId batch)
  | [] =>
    match (t.registry.slot.replayTransition turnId).1 with
    | .next deferred =>
        (t.operate (.replayTransition turnId)).goto (.replaying run turnId deferred)
    | _ => (t.operate (.replayTransition turnId)).handOut run

/-- `start_turn` takes the result of its request. -/
def takeAnswer (t : ThreadCell) (run : Nat) : Result Json → ThreadCell
  | .error error => t.goto (.failing error)
  | .ok response =>
    match (response.pointer ["turn", "id"]).bind Json.asNonEmptyStr with
    | none =>
        let error := protocolField "turn.start" "turn.id"
        t.goto (.disconnecting error (.leaving error))
    | some turnId => t.goto (.acknowledging run turnId)

/-- The start's future is dropped at an await; its guard's task is one of the others, and so
is the drop of its `RunChannels`, here as where a start fails. -/
def dropStart (t : ThreadCell) : ThreadCell :=
  match t.start with
  | .requesting _ _ => t.goto .none
  | .replaying _ _ _ => t.goto .none
  | .disconnecting _ _ => t.goto .none
  | _ => t

end ThreadCell

/-- The operations of the router, of the deadline and cancel tasks, and of run handles. -/
def RegistryOp.byOthers : RegistryOp → Bool
  | .routeEvent _ _ _ _ _ => true
  | .routeTerminal _ _ _ _ => true
  | .failActive _ _ _ => true
  | .cancelRegistered => true
  | .abandon _ => true
  | .dropChannels _ => true
  | _ => false

/-! ## Registering a login -/

/-- Where a call of `register_login` is. -/
inductive LoginCall where
  | idle
  /-- The login is registered; the flag is next. -/
  | checking (loginId : String)
  /-- The flag was set; the login is about to be completed with the failure. -/
  | completing (loginId : String)
  /-- The id was active already; the client is about to disconnect. -/
  | refusing
  | returned (result : Result Unit)

/-- The login is registered and its call has not looked at the connection's end. -/
def LoginCall.At (self : LoginCall) (loginId : String) : Prop :=
  self = .checking loginId ∨ self = .completing loginId

/-- The operations of the router and of login handles. -/
def LoginOp.byOthers : LoginOp → Bool
  | .wait _ => true
  | .removeWaiter _ _ => true
  | .complete _ _ => true
  | .release _ => true
  | _ => false

/-! ## All parties -/

/-- What can happen to a thread. -/
inductive ThreadLabel where
  | begin
  /-- The start issues request `request`. -/
  | request (request : Nat) (params : Json)
  | proceed
  | dropStart
  | others (op : RegistryOp)

/-- What can happen to a registration of a login. -/
inductive LoginLabel where
  | register (loginId : String)
  | proceed

/-- What can happen next. -/
inductive PartiesLabel where
  | client (label : ClientLabel)
  | thread (threadId : String) (label : ThreadLabel)
  | registration (j : Nat) (label : LoginLabel)
  | login (op : LoginOp)

/-- The client with the three registries. -/
structure PartiesWorld where
  client : ClientWorld
  threads : String → ThreadCell
  logins : LoginWorld
  registrations : Nat → LoginCall

namespace PartiesWorld

def init : PartiesWorld where
  client := .init
  threads := .vacant
  logins := loginMachine.init
  registrations := fun _ => .idle

/-- `runs.fail_all`. -/
def failRuns (w : PartiesWorld) (error : Error) : PartiesWorld :=
  { w with threads := fun threadId => (w.threads threadId).operate (.failAll error) }

/-- `logins.fail_active`. -/
def failLogins (w : PartiesWorld) (error : Error) : PartiesWorld :=
  { w with logins := w.logins.act (.failActive error) }

/-- The disconnect under way goes on, and drains the runs and the logins when their turn
comes. -/
def goOn (w : PartiesWorld) (termination : Termination) : PartiesWorld :=
  let next := { w with client := w.client.goOn termination }
  match w.client.shared.stage with
  | .requestsFailed error => next.failRuns error
  | .runsFailed error => next.failLogins error
  | _ => next

/-- What happens to a thread and to the client. -/
def actThread (env : PartiesEnv) (client : ClientWorld) (t : ThreadCell) :
    ThreadLabel → ClientWorld × ThreadCell
  | .begin => (client, t.begin env)
  | .request k params =>
    match t.start, (client.requests k).call with
    | .registered run, .idle =>
        (client.act env.toClientEnv (.request k
          (.call true false "turn.start" "turn/start" params env.requestTimeout)),
          t.goto (.requesting run k))
    | _, _ => (client, t)
  | .proceed =>
    match t.start with
    | .requesting run k =>
      match (client.requests k).call with
      | .returned result => (client, t.takeAnswer run result)
      | _ => (client, t)
    | .failing error => (client, t.failRegistered error)
    | .acknowledging run turnId => (client, t.acknowledge run turnId)
    | .replaying run turnId batch => (client, t.replay env run turnId batch)
    | .disconnecting error next =>
        (client.act env.toClientEnv (.disconnect error), t.goto next)
    | .leaving _ => (client, t.goto .none)
    | _ => (client, t)
  | .dropStart => (client, t.dropStart)
  | .others op => (client, if op.byOthers then t.operate op else t)

/-- What a registration of a login does. -/
def actRegistration (env : PartiesEnv) (client : ClientWorld) (logins : LoginWorld)
    (call : LoginCall) : LoginLabel → ClientWorld × LoginWorld × LoginCall
  | .register loginId =>
    match call with
    | .idle =>
      if (logins.state.register loginId).1 then
        (client, logins.act (.register loginId), .checking loginId)
      else (client, logins, .refusing)
    | _ => (client, logins, call)
  | .proceed =>
    match call with
    | .checking loginId =>
      if client.shared.connection.disconnected then (client, logins, .completing loginId)
      else (client, logins, .returned (.ok ()))
    | .completing loginId =>
        (client,
          logins.act (.complete loginId (.error (client.shared.connection.failure.getD
            (Error.new .disconnected "account.login.wait"
              "app-server disconnected before the login handle was registered")))),
          .returned (.ok ()))
    | .refusing =>
        let error := Error.new .protocol "account.login.start"
          "app-server returned a login id that is already active"
        (client.act env.toClientEnv (.disconnect error), logins, .returned (.error error))
    | _ => (client, logins, call)

/-- One step. -/
def act (env : PartiesEnv) (w : PartiesWorld) : PartiesLabel → PartiesWorld
  | .client (.goOn termination) => w.goOn termination
  | .client label => { w with client := w.client.act env.toClientEnv label }
  | .thread threadId label =>
      let next := actThread env w.client (w.threads threadId) label
      { w with client := next.1, threads := Function.update w.threads threadId next.2 }
  | .registration j label =>
      let next := actRegistration env w.client w.logins (w.registrations j) label
      { w with
        client := next.1
        logins := next.2.1
        registrations := Function.update w.registrations j next.2.2 }
  | .login op => if op.byOthers then { w with logins := w.logins.act op } else w

end PartiesWorld

/-- The machine of the client and its registries. -/
def partiesMachine (env : PartiesEnv) : Machine PartiesWorld PartiesLabel where
  init := PartiesWorld.init
  step := PartiesWorld.act env

end Vergerail
