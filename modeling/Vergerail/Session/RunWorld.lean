import Vergerail.Lib.Machine
import Vergerail.Session.RunState

/-!
# One run and the parties that act on it

One registration on one thread, from `RunRegistry::register` on. Three parties
act: the router (`client/router.rs`), which hands notifications over with
`defer_while_starting`; the caller's start task (`client.rs`), which acknowledges
the turn and then replays what was deferred, one notification at a time; and the
tasks that cancel, time out, fail or shut down. Each registry operation holds the
registry's lock, so each is one atomic step, and a run is any interleaving.

The fields below `slot` and `replay` are history: no operation reads them.
-/

namespace Vergerail

open Lib

/-- What a run takes from the configuration of its client and session. -/
structure RunEnv where
  threadId : String
  /-- `CodexConfig::event_capacity`. -/
  eventCapacity : Nat
  /-- The session's retained-output limit. -/
  maximumOutputBytes : Nat
  /-- `redact_line`, applied to provider failure messages. -/
  redactLine : String → String

/-- `replay_deferred_run_notifications`, between two of its registry operations. -/
inductive ReplayLoop where
  /-- The turn is not acknowledged yet. -/
  | idle
  /-- The loop still holds `batch`, oldest first. -/
  | running (turnId : String) (batch : List DeferredRunNotification)
  /-- The loop returned. -/
  | stopped

/-- The notifications the loop took out of the route and has not handed on. -/
def ReplayLoop.batch : ReplayLoop → List DeferredRunNotification
  | running _ batch => batch
  | idle => []
  | stopped => []

/-- One run. -/
structure RunWorld where
  slot : RunSlot
  replay : ReplayLoop
  /-- Events the router routed to the run, oldest first, with their turn. An event
  without a turn counts once it is delivered: before that it is not kept. -/
  routed : List (Option String × Event)
  /-- The turns whose terminal `route_terminal` answered `Deferred` for. -/
  deferredTerminals : List String
  /-- The turn `acknowledge_start` accepted. -/
  accepted : Option String
  /-- The turns `interrupt_run` was called with for this run's control. -/
  interrupts : List String

/-- The atomic steps. -/
inductive RunLabel where
  /-- The router routes an event. -/
  | routeEvent (observedTurnId : Option String) (sourceMethod : String) (event : Event)
  /-- The router routes a `turn/completed` payload. -/
  | routeTerminal (params : Json)
  /-- `start_turn` acknowledges the turn its response named. -/
  | acknowledgeStart (turnId : String)
  /-- The replay loop performs its next registry operation. -/
  | replay
  /-- The `turn/start` request failed. -/
  | failBeforeStart (error : Error)
  /-- A dropped registration guard or an abandoned one-shot run cancels. -/
  | cancelRegistered
  /-- The deadline task of a turn fires. -/
  | failActive (turnId : String) (error : Error)
  /-- The connection is lost. -/
  | failAll (error : Error)
  /-- Shutdown asks for the turn to interrupt. -/
  | activeTurn
  /-- The consumer takes an event. -/
  | recv

namespace RunLabel

/-- A step of the replay loop. -/
def isReplay : RunLabel → Bool
  | replay => true
  | _ => false

/-- A step of the consumer. -/
def isRecv : RunLabel → Bool
  | recv => true
  | _ => false

end RunLabel

namespace RunSlot

/-- A thread nobody has registered a run on. -/
def vacant (threadId : String) : RunSlot where
  threadId
  route := none
  active := false
  cells := fun _ => freshShared 0
  registered := 0

end RunSlot

namespace RunWorld

/-- Just after `RunRegistry::register`. -/
def init (env : RunEnv) : RunWorld where
  slot := ((RunSlot.vacant env.threadId).startRun env.eventCapacity env.maximumOutputBytes).2
  replay := .idle
  routed := []
  deferredTerminals := []
  accepted := none
  interrupts := []

/-- The cells the run's handle sees. -/
def shared (w : RunWorld) : RunShared := w.slot.cells 0

/-- The turn a routed event's outcome makes the client interrupt. -/
def interruptOf : RunEventOutcome → List String
  | .routeFailure turnId _ => [turnId]
  | _ => []

/-- Whether a routed event enters the history. -/
def Counts (observedTurnId : Option String) (outcome : RunEventOutcome) : Bool :=
  observedTurnId.isSome || outcome == .delivered

/-- `route_run_event` of the router. -/
def routeEvent (env : RunEnv) (w : RunWorld) (observedTurnId : Option String)
    (sourceMethod : String) (event : Event) : RunWorld :=
  let routed := w.slot.routeEvent observedTurnId sourceMethod event true env.eventCapacity
  { w with
    slot := routed.2
    routed := w.routed ++ if Counts observedTurnId routed.1 then [(observedTurnId, event)] else []
    interrupts := w.interrupts ++ interruptOf routed.1 }

/-- `route_terminal_notification` of the router. A payload that is no completion
disconnects the client, which is a step of its own. -/
def routeTerminal (env : RunEnv) (w : RunWorld) (params : Json) : RunWorld :=
  match turnCompletion env.redactLine params with
  | .error _ => w
  | .ok completion =>
    let routed := w.slot.routeTerminal completion params true env.eventCapacity
    { w with
      slot := routed.2
      deferredTerminals := w.deferredTerminals ++
        if routed.1 = .deferred then [completion.turnId] else [] }

/-- `start_turn` once the response named a turn. -/
def acknowledgeStart (w : RunWorld) (turnId : String) : RunWorld :=
  match w.slot.acknowledgeStart turnId with
  | (.replay deferred, slot) =>
      { w with slot, replay := .running turnId deferred, accepted := some turnId }
  | (.completedBeforeAcknowledgement, slot) => { w with slot, accepted := some turnId }
  | (_, slot) => { w with slot }

/-- One registry operation of `replay_deferred_run_notifications`. -/
def replayStep (env : RunEnv) (w : RunWorld) : RunWorld :=
  match w.replay with
  | .idle => w
  | .stopped => w
  | .running turnId (.event observed sourceMethod event :: batch) =>
      let routed := w.slot.routeEvent (some observed) sourceMethod event false env.eventCapacity
      { w with
        slot := routed.2
        replay := .running turnId batch
        interrupts := w.interrupts ++ interruptOf routed.1 }
  | .running turnId (.terminal params :: batch) =>
    match turnCompletion env.redactLine params with
    | .error _ => { w with replay := .running turnId batch }
    | .ok completion =>
        { w with
          slot := (w.slot.routeTerminal completion params false env.eventCapacity).2
          replay := .running turnId batch }
  | .running turnId [] =>
    match w.slot.replayTransition turnId with
    | (.next deferred, slot) => { w with slot, replay := .running turnId deferred }
    | (_, slot) => { w with slot, replay := .stopped }

/-- `fail_registered_run_before_turn`. -/
def failBeforeStart (w : RunWorld) (error : Error) : RunWorld :=
  { w with slot := (w.slot.failBeforeStart error).2 }

/-- `cancel_registered_run`: a turn that is still tracked is interrupted. -/
def cancelRegistered (w : RunWorld) : RunWorld :=
  let cancelled := w.slot.cancelRegistered
  { w with
    slot := cancelled.2
    interrupts := w.interrupts ++ (cancelled.1.map Prod.fst).toList }

/-- The deadline branch of `arm_run_deadline`. -/
def failActive (w : RunWorld) (turnId : String) (error : Error) : RunWorld :=
  let failed := w.slot.failActive turnId 0 error
  { w with
    slot := failed.2
    interrupts := w.interrupts ++ if failed.1 then [turnId] else [] }

/-- The part of `disconnect` that concerns the run. -/
def failAll (w : RunWorld) (error : Error) : RunWorld :=
  { w with slot := w.slot.failAll error }

/-- The part of `shutdown` that interrupts the run's turn. -/
def activeTurn (w : RunWorld) : RunWorld :=
  { w with interrupts := w.interrupts ++ (w.slot.activeTurn.map Prod.fst).toList }

/-- The consumer takes the oldest event. -/
def recv (w : RunWorld) : RunWorld :=
  { w with slot := { w.slot with
      cells := Function.update w.slot.cells 0 { w.shared with events := w.shared.events.recv } } }

/-- What a label does. -/
def act (env : RunEnv) (w : RunWorld) : RunLabel → RunWorld
  | .routeEvent observedTurnId sourceMethod event =>
      w.routeEvent env observedTurnId sourceMethod event
  | .routeTerminal params => w.routeTerminal env params
  | .acknowledgeStart turnId => w.acknowledgeStart turnId
  | .replay => w.replayStep env
  | .failBeforeStart error => w.failBeforeStart error
  | .cancelRegistered => w.cancelRegistered
  | .failActive turnId error => w.failActive turnId error
  | .failAll error => w.failAll error
  | .activeTurn => w.activeTurn
  | .recv => w.recv

end RunWorld

/-- A client whose channel and queue hold one event, for runs on fixed inputs. -/
def RunEnv.tight : RunEnv where
  threadId := "thread"
  eventCapacity := 1
  maximumOutputBytes := 64
  redactLine := id

/-- The `turn/completed` payload of a turn that completed, for runs on fixed inputs. -/
def Json.turnCompleted (turnId : String) : Json :=
  .object [("turn", .object [("id", .string turnId), ("status", .string "completed")])]

/-- The machine of one run. -/
def runMachine (env : RunEnv) : Machine RunWorld RunLabel where
  init := RunWorld.init env
  step := RunWorld.act env

end Vergerail
