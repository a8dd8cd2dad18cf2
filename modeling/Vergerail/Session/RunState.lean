import Mathlib.Data.List.AList
import Mathlib.Logic.Function.Basic
import Vergerail.Lib.Channel
import Vergerail.Event

/-!
# Active turn ownership and terminal recovery

`src/session/run_state.rs`. The registry locks its map for every operation, so an
operation on a thread is one atomic transition of that thread's entry. A
`RunSlot` is such an entry together with what it shares through `Arc` with the
run handles: the channels and flags of every registration made on the thread,
and the session's `active` flag. A handle keeps seeing its cells after the route
that wrote them is gone from the map.
-/

namespace Vergerail

open Lib

/-! ## Interrupt and terminal lifecycle of one turn -/

def runInterruptStarted : BitVec 8 := 1

def runProviderTerminal : BitVec 8 := 2

/-- `RunControl`. -/
structure RunControl where
  state : BitVec 8
  interruptResult : Watch (Option (Result Unit))
  providerTerminal : Watch Bool
  deriving DecidableEq

namespace RunControl

/-- `RunControl::new`; both initial receivers are dropped at once. -/
def new : RunControl where
  state := 0
  interruptResult := (Watch.channel none).dropReceiver
  providerTerminal := (Watch.channel false).dropReceiver

def interruptStarted (self : RunControl) : Bool := self.state &&& runInterruptStarted != 0

def providerTerminalObserved (self : RunControl) : Bool :=
  self.state &&& runProviderTerminal != 0

/-- `RunControl::mark_provider_terminal`. -/
def markProviderTerminal (self : RunControl) : RunControl :=
  { self with
    state := self.state ||| runProviderTerminal
    providerTerminal := self.providerTerminal.sendReplace true }

@[simp] theorem new_providerTerminalObserved : new.providerTerminalObserved = false := by decide

@[simp] theorem markProviderTerminal_observed (self : RunControl) :
    self.markProviderTerminal.providerTerminalObserved = true := by
  have h : ∀ s : BitVec 8, (s ||| runProviderTerminal) &&& runProviderTerminal != 0 := by decide
  exact h self.state

end RunControl

/-! ## Routes -/

/-- `DeferredRunNotification`. -/
inductive DeferredRunNotification where
  | event (turnId sourceMethod : String) (event : Event)
  | terminal (params : Json)

/-- The image item a waiting notification reports on, if it is an image event. -/
def DeferredRunNotification.imageId : DeferredRunNotification → Option String
  | event _ _ e => e.imageId
  | terminal _ => none

/-- `RunPhase`. -/
inductive RunPhase where
  | starting (deferred : List DeferredRunNotification)
  | replaying (turnId : String) (deferred : List DeferredRunNotification)
  | active (turnId : String)
  | terminalBeforeStart (turnId : Option String)

namespace RunPhase

/-- `RunPhase::turn_id`. -/
def turnId : RunPhase → Option String
  | replaying turnId _ => some turnId
  | active turnId => some turnId
  | terminalBeforeStart turnId => turnId
  | starting _ => none

/-- `RunPhase::is_terminal`. -/
def isTerminal : RunPhase → Bool
  | terminalBeforeStart _ => true
  | _ => false

/-- The queue of the two phases that defer notifications. -/
def deferred : RunPhase → Option (List DeferredRunNotification)
  | starting deferred => some deferred
  | replaying _ deferred => some deferred
  | active _ => none
  | terminalBeforeStart _ => none

/-- Writes the queue of a phase that has one. -/
def setDeferred (self : RunPhase) (queue : List DeferredRunNotification) : RunPhase :=
  match self with
  | starting _ => starting queue
  | replaying turnId _ => replaying turnId queue
  | active turnId => active turnId
  | terminalBeforeStart turnId => terminalBeforeStart turnId

@[simp] theorem setDeferred_turnId (self : RunPhase) (queue : List DeferredRunNotification) :
    (self.setDeferred queue).turnId = self.turnId := by cases self <;> rfl

@[simp] theorem setDeferred_isTerminal (self : RunPhase)
    (queue : List DeferredRunNotification) :
    (self.setDeferred queue).isTerminal = self.isTerminal := by cases self <;> rfl

theorem setDeferred_deferred {self : RunPhase} {q : List DeferredRunNotification}
    (h : self.deferred = some q) (queue : List DeferredRunNotification) :
    (self.setDeferred queue).deferred = some queue := by
  cases self with
  | starting _ => rfl
  | replaying _ _ => rfl
  | active _ => exact absurd h (by simp [deferred])
  | terminalBeforeStart _ => exact absurd h (by simp [deferred])

/-- The queue that a notification waits in, if it waits, is the queue of the phase. -/
theorem deferred_of_ite {self : RunPhase} (defer : Bool) :
    ∀ waiting, (if defer then self.deferred else none) = some waiting →
      self.deferred = some waiting := by
  intro waiting h
  split at h
  · exact h
  · cases h

/-- A phase with a queue is not terminal. -/
theorem isTerminal_of_deferred {self : RunPhase} {q : List DeferredRunNotification}
    (h : self.deferred = some q) : self.isTerminal = false := by
  cases self with
  | starting _ => rfl
  | replaying _ _ => rfl
  | active _ => rfl
  | terminalBeforeStart _ => exact absurd h (by simp [deferred])

end RunPhase

/-- What a registration shares with its run handle. -/
structure RunShared where
  /-- The run's event channel. -/
  events : Mpsc Event
  /-- The terminal watch. -/
  terminal : Watch (Option (Result RunResult))
  /-- The handle was dropped or its start was cancelled. -/
  abandoned : Bool
  /-- The run's control. -/
  control : RunControl

/-- The fields of `RunRoute` that only the registry reads. -/
structure RunRoute where
  /-- Which registration of the thread this is: it names the shared cells. -/
  run : Nat
  phase : RunPhase
  pendingFailure : Option Error
  text : String
  maximumOutputBytes : Nat
  usage : Option Usage
  imageGenerations : List ImageGeneration
  imageGenerationBytes : Nat
  deferredImageBytes : Nat
  deferredImageBytesById : AList (fun _ : String => Nat)

/-- `RunEventOutcome`; a control is named by its registration. -/
inductive RunEventOutcome where
  | unregistered
  | delivered
  | deferred
  | ignoredBeforeTurn
  | ignoredAfterAbandon
  | ignoredAfterFailure
  | turnMismatch (expected observed : String)
  | afterTerminal
  | routeFailure (turnId : String) (control : Nat)
  deriving DecidableEq, Repr

/-- `TerminalRouteOutcome`. -/
inductive TerminalRouteOutcome where
  | deferred
  | completed
  | unregistered
  | duplicate (turnId : String)
  | turnMismatch (expected observed : String)
  deriving DecidableEq, Repr

/-- `PreStartFailureTransition`. -/
inductive PreStartFailureTransition where
  | applied
  | ignored
  | providerTurnOwned
  deriving DecidableEq, Repr

/-- `StartTurnTransition`. -/
inductive StartTurnTransition where
  | replay (deferred : List DeferredRunNotification)
  | completedBeforeAcknowledgement
  | missingRoute
  | terminalTurnMismatch (expected : String)
  | alreadyAcknowledged

/-- `ReplayTransition`. -/
inductive ReplayTransition where
  | next (deferred : List DeferredRunNotification)
  | active
  | stopped

namespace RunRoute

/-- `clear_deferred_image_bytes`. -/
def clearDeferredImageBytes (self : RunRoute) : RunRoute :=
  { self with deferredImageBytes := 0, deferredImageBytesById := ∅ }

/-- What `record_failure` writes: the failure is pending and nothing waits any more. -/
def failed (self : RunRoute) (error : Error) : RunRoute :=
  { self.clearDeferredImageBytes with
    phase := self.phase.setDeferred []
    pendingFailure := some error }

/-- `record_failure`. The first failure wins, and the waiting notifications go. -/
def recordFailure (self : RunRoute) (turnId : String) (error : Error) :
    RunEventOutcome × RunRoute :=
  if self.pendingFailure.isSome then (.ignoredAfterFailure, self)
  else (.routeFailure turnId self.run, self.failed error)

/-- The pre-acknowledgement accounting of an image event; other events pass. -/
def chargeDeferredImage (self : RunRoute) (event : Event) : Result RunRoute :=
  match event with
  | .imageGeneration image =>
    match image.retainedBytes with
    | none =>
        .error (Error.new .resourceLimit "run.images"
          "pre-acknowledgement image payload overflowed the platform limit")
    | some imageBytes =>
      let previousBytes := (self.deferredImageBytesById.lookup image.id).getD 0
      match (checkedSub self.deferredImageBytes previousBytes).bind
          (fun bytes => checkedAdd bytes imageBytes) with
      | none =>
          .error (Error.new .resourceLimit "run.images"
            "pre-acknowledgement image payload size overflowed the platform limit")
      | some deferredBytes =>
        if deferredBytes > self.maximumOutputBytes then
          .error (Error.new .resourceLimit "run.images"
            ("pre-acknowledgement image payloads exceeded " ++ toString self.maximumOutputBytes
              ++ " bytes; the turn will be interrupted"))
        else
          .ok { self with
            deferredImageBytes := deferredBytes
            deferredImageBytesById := self.deferredImageBytesById.insert image.id imageBytes }
  | _ => .ok self

/-- An image event supersedes the waiting events of the same image, whatever their turn. -/
def retainOtherImages (event : Event) (queue : List DeferredRunNotification) :
    List DeferredRunNotification :=
  match event.imageId with
  | none => queue
  | some imageId => queue.filter (fun notification => notification.imageId ≠ some imageId)

/-- Queues an event that arrived before the acknowledgement was replayed. -/
def pushDeferred (self : RunRoute) (turnId sourceMethod : String) (event : Event)
    (queue : List DeferredRunNotification) (eventCapacity : Nat) :
    RunEventOutcome × RunRoute :=
  let kept := retainOtherImages event queue
  if kept.length ≥ eventCapacity then
    { self with phase := self.phase.setDeferred kept }.recordFailure turnId
      (Error.new .consumerLagged "run.events"
        "bounded pre-acknowledgement event queue is full; the turn will be interrupted")
  else
    (.deferred, { self with
      phase := self.phase.setDeferred (kept ++ [.event turnId sourceMethod event]) })

/-- Fails the run's own turn, or the observed one while the own turn is unknown. -/
def failTurn (self : RunRoute) (observedTurnId : Option String) (error : Error) :
    RunEventOutcome × RunRoute :=
  match self.phase.turnId.or observedTurnId with
  | none => (.afterTerminal, self)
  | some turnId => self.recordFailure turnId error

/-- What a delivered event adds to the retained output, or why it is refused. -/
def retainOutput (self : RunRoute) (event : Event) (eventCapacity : Nat) : Result RunRoute :=
  match event with
  | .textDelta delta =>
    match (checkedAdd self.text.utf8ByteSize delta.utf8ByteSize).bind
        (fun bytes => checkedAdd bytes self.imageGenerationBytes) with
    | none =>
        .error (Error.new .resourceLimit "run.output"
          "assistant output size overflowed the platform limit")
    | some outputBytes =>
      if outputBytes > self.maximumOutputBytes then
        .error (Error.new .resourceLimit "run.output"
          ("assistant output exceeded " ++ toString self.maximumOutputBytes
            ++ " bytes; the turn will be interrupted"))
      else .ok { self with text := self.text ++ delta }
  | .usageUpdated usage => .ok { self with usage := some usage }
  | .imageGeneration image =>
    match image.retainedBytes with
    | none =>
        .error (Error.new .resourceLimit "run.images"
          "generated image metadata overflowed the platform limit")
    | some imageBytes =>
      let existing := self.imageGenerations.findIdx? (fun candidate => candidate.id == image.id)
      if existing.isNone && eventCapacity ≤ self.imageGenerations.length then
        .error (Error.new .resourceLimit "run.images"
          "generated image item count exceeded the bounded event capacity")
      else
        let previousBytes := ((existing.bind (fun index => self.imageGenerations[index]?)).bind
          ImageGeneration.retainedBytes).getD 0
        match (checkedSub self.imageGenerationBytes previousBytes).bind
            (fun bytes => checkedAdd bytes imageBytes) with
        | none =>
            .error (Error.new .resourceLimit "run.images"
              "generated image output size overflowed the platform limit")
        | some retainedBytes =>
          if (checkedAdd self.text.utf8ByteSize retainedBytes).all
              (fun bytes => bytes > self.maximumOutputBytes) then
            .error (Error.new .resourceLimit "run.images"
              ("generated image output exceeded " ++ toString self.maximumOutputBytes
                ++ " retained bytes; the turn will be interrupted"))
          else
            .ok { self with
              imageGenerations := match existing with
                | some index => self.imageGenerations.set index image
                | none => self.imageGenerations ++ [image]
              imageGenerationBytes := retainedBytes }
  | _ => .ok self

/-- `route_event_after_start`. -/
def routeEventAfterStart (self : RunRoute) (shared : RunShared)
    (observedTurnId : Option String) (event : Event) (eventCapacity : Nat) :
    RunEventOutcome × RunRoute × RunShared :=
  match observedTurnId, self.phase.turnId with
  | some observed, some expected =>
    if expected ≠ observed then (.turnMismatch expected observed, self, shared)
    else deliver (some observed)
  | observed, _ => deliver observed
where
  /-- The part of `route_event_after_start` below the turn check. -/
  deliver (observedTurnId : Option String) : RunEventOutcome × RunRoute × RunShared :=
    if self.phase.isTerminal then (.afterTerminal, self, shared)
    else if self.pendingFailure.isSome then (.ignoredAfterFailure, self, shared)
    else if shared.abandoned then (.ignoredAfterAbandon, self, shared)
    else
      match self.retainOutput event eventCapacity with
      | .error error =>
          ((self.failTurn observedTurnId error).1, (self.failTurn observedTurnId error).2, shared)
      | .ok retained =>
        match shared.events.trySend event with
        | (.ok, events) => (.delivered, retained, { shared with events })
        | (.full, _) =>
            let failed := retained.failTurn observedTurnId
              (Error.new .consumerLagged "run.events"
                "bounded run event queue is full; the turn will be interrupted")
            (failed.1, failed.2, shared)
        | (.closed, _) =>
            let failed := retained.failTurn observedTurnId
              (Error.new .disconnected "run.events" "run event consumer was dropped")
            (failed.1, failed.2, shared)

/-- `RunRoute::route_event`. -/
def routeEvent (self : RunRoute) (shared : RunShared) (observedTurnId : Option String)
    (sourceMethod : String) (event : Event) (deferWhileStarting : Bool) (eventCapacity : Nat) :
    RunEventOutcome × RunRoute × RunShared :=
  if self.pendingFailure.isSome then (.ignoredAfterFailure, self, shared)
  else
    match (if deferWhileStarting then self.phase.deferred else none) with
    | none => self.routeEventAfterStart shared observedTurnId event eventCapacity
    | some queue =>
      match observedTurnId with
      | none => (.ignoredBeforeTurn, self, shared)
      | some turnId =>
        match self.chargeDeferredImage event with
        | .error error =>
            ((self.recordFailure turnId error).1, (self.recordFailure turnId error).2, shared)
        | .ok charged =>
            let pushed := charged.pushDeferred turnId sourceMethod event queue eventCapacity
            (pushed.1, pushed.2, shared)

end RunRoute

/-! ## The registry's entry for one thread -/

/-- One thread of `RunRegistry`. -/
structure RunSlot where
  threadId : String
  /-- The route the map holds for the thread. -/
  route : Option RunRoute
  /-- The `active` flag that the thread's session and its routes share. -/
  active : Bool
  /-- The cells of every registration, by number. -/
  cells : Nat → RunShared
  /-- How many registrations the thread has seen. -/
  registered : Nat

namespace RunSlot

/-- Writes a route back, with the cells it owns a share of. -/
def store (self : RunSlot) (route : RunRoute) (shared : RunShared) : RunSlot :=
  { self with route := some route, cells := Function.update self.cells route.run shared }

/-- Drops a route from the map; its cells keep their last contents. -/
def removeRoute (self : RunSlot) (run : Nat) (shared : RunShared) : RunSlot :=
  { self with route := none, cells := Function.update self.cells run shared }

/-- `RunRegistry::contains`. -/
def contains (self : RunSlot) : Bool := self.route.isSome

/-- `RunRegistry::active_turn`. -/
def activeTurn (self : RunSlot) : Option (String × Nat) :=
  self.route.bind (fun route => route.phase.turnId.map (fun turnId => (turnId, route.run)))

/-- `RunRegistry::tracks_abandoned_turn`. -/
def tracksAbandonedTurn (self : RunSlot) (turnId : String) (control : Nat) : Bool :=
  match self.route with
  | none => false
  | some route =>
      route.run == control && (self.cells route.run).abandoned
        && (route.phase.turnId.all (fun observed => observed == turnId))

/-- The cells of a fresh registration. -/
def freshShared (eventCapacity : Nat) : RunShared where
  events := Mpsc.channel eventCapacity
  terminal := Watch.channel none
  abandoned := false
  control := RunControl.new

/-- The route of a fresh registration. -/
def freshRoute (run maximumOutputBytes : Nat) : RunRoute where
  run
  phase := .starting []
  pendingFailure := none
  text := ""
  maximumOutputBytes
  usage := none
  imageGenerations := []
  imageGenerationBytes := 0
  deferredImageBytes := 0
  deferredImageBytesById := ∅

/-- `RunRegistry::register`; the run channels are the cells of the number it returns. -/
def register (self : RunSlot) (eventCapacity maximumOutputBytes : Nat) :
    Result Nat × RunSlot :=
  match self.route with
  | some _ =>
      (.error (Error.new .invalidInput "turn.start" "session already has an active run"), self)
  | none =>
      (.ok self.registered,
        { self with
          route := some (freshRoute self.registered maximumOutputBytes)
          cells := Function.update self.cells self.registered (freshShared eventCapacity)
          registered := self.registered + 1 })

/-- How `Session::start` claims the thread: the compare-exchange on `active`, then
`register`, whose refusal gives the flag back. -/
def startRun (self : RunSlot) (eventCapacity maximumOutputBytes : Nat) : Result Nat × RunSlot :=
  if self.active then
    (.error (Error.new .invalidInput "Session::start" "session already has an active run"), self)
  else
    match { self with active := true }.register eventCapacity maximumOutputBytes with
    | (.ok run, slot) => (.ok run, slot)
    | (.error error, slot) => (.error error, { slot with active := false })

end RunSlot

/-- The provider terminal is observed and the watch gets its value. -/
def RunShared.publish (self : RunShared) (result : Result RunResult) : RunShared :=
  { self with
    control := self.control.markProviderTerminal
    terminal := self.terminal.send (some result) }

/-- The provider terminal is observed without a value for the watch. -/
def RunShared.observeTerminal (self : RunShared) : RunShared :=
  { self with control := self.control.markProviderTerminal }

namespace RunSlot

/-- `RunRegistry::fail_before_start`. -/
def failBeforeStart (self : RunSlot) (error : Error) : PreStartFailureTransition × RunSlot :=
  match self.route with
  | none => (.ignored, self)
  | some route =>
    match route.phase with
    | .starting _ =>
        (.applied,
          { self.store { route with phase := .terminalBeforeStart none }
              ((self.cells route.run).publish (.error error)) with
            active := false })
    | .terminalBeforeStart _ => (.ignored, self)
    | .replaying _ _ => (.providerTurnOwned, self)
    | .active _ => (.providerTurnOwned, self)

/-- `RunRegistry::cancel_registered`. -/
def cancelRegistered (self : RunSlot) : Option (String × Nat) × RunSlot :=
  match self.route with
  | none => (none, self)
  | some route =>
    let shared := self.cells route.run
    if route.phase.isTerminal then
      (none, { self.removeRoute route.run shared.observeTerminal with active := false })
    else
      let abandoned := { shared with abandoned := true }
      match route.phase.turnId with
      | some turnId => (some (turnId, route.run), self.store route abandoned)
      | none =>
          (none, { self.removeRoute route.run abandoned.observeTerminal with active := false })

/-- `RunRegistry::acknowledge_start`. -/
def acknowledgeStart (self : RunSlot) (turnId : String) : StartTurnTransition × RunSlot :=
  match self.route with
  | none => (.missingRoute, self)
  | some route =>
    match route.phase with
    | .starting deferred =>
        (.replay deferred,
          self.store { route.clearDeferredImageBytes with phase := .replaying turnId [] }
            (self.cells route.run))
    | .terminalBeforeStart (some expected) =>
        if expected ≠ turnId then (.terminalTurnMismatch expected, self)
        else (.completedBeforeAcknowledgement, { self with route := none })
    | .terminalBeforeStart none => (.completedBeforeAcknowledgement, { self with route := none })
    | .replaying _ _ => (.alreadyAcknowledged, self)
    | .active _ => (.alreadyAcknowledged, self)

/-- `RunRegistry::replay_transition`. -/
def replayTransition (self : RunSlot) (turnId : String) : ReplayTransition × RunSlot :=
  match self.route with
  | none => (.stopped, self)
  | some route =>
    match route.phase with
    | .replaying activeTurn deferred =>
        if activeTurn = turnId then
          if deferred.isEmpty then
            (.active, self.store { route with phase := .active turnId } (self.cells route.run))
          else
            (.next deferred,
              self.store { route.clearDeferredImageBytes with phase := .replaying activeTurn [] }
                (self.cells route.run))
        else (.stopped, self)
    | .starting _ => (.stopped, self)
    | .active _ => (.stopped, self)
    | .terminalBeforeStart _ => (.stopped, self)

/-- `RunRegistry::route_event`. -/
def routeEvent (self : RunSlot) (observedTurnId : Option String) (sourceMethod : String)
    (event : Event) (deferWhileStarting : Bool) (eventCapacity : Nat) :
    RunEventOutcome × RunSlot :=
  match self.route with
  | none => (.unregistered, self)
  | some route =>
      let routed := route.routeEvent (self.cells route.run) observedTurnId sourceMethod event
        deferWhileStarting eventCapacity
      (routed.1, self.store routed.2.1 routed.2.2)

/-- The queue failure of `route_terminal`. -/
def terminalQueueFailure : Error :=
  Error.new .consumerLagged "run.events"
    "bounded pre-acknowledgement event queue was full when the provider terminal state arrived"

/-- What `route_terminal` publishes: the first failure, or what the provider reported. -/
def terminalResult (self : RunSlot) (route : RunRoute) (queueFailure : Option Error)
    (completion : TurnCompletion) : Result RunResult :=
  match route.pendingFailure.or queueFailure with
  | some error => .error error
  | none => completion.intoResult self.threadId route.text route.usage route.imageGenerations

/-- Publishes a terminal result; the route stays only while it awaits its acknowledgement. -/
def publishTerminal (self : RunSlot) (route : RunRoute) (turnId : String)
    (result : Result RunResult) : RunSlot :=
  let settled := (self.cells route.run).publish result
  match route.phase with
  | .starting _ =>
      { self.store { route with
          pendingFailure := none
          phase := .terminalBeforeStart (some turnId) } settled with
        active := false }
  | _ => { self.removeRoute route.run settled with active := false }

/-- `route_terminal` below the deferral: duplicate and turn checks, then publication. -/
def settleTerminal (self : RunSlot) (route : RunRoute) (queueFailure : Option Error)
    (completion : TurnCompletion) : TerminalRouteOutcome × RunSlot :=
  let checked := self.store route (self.cells route.run)
  let published := self.publishTerminal route completion.turnId
    (self.terminalResult route queueFailure completion)
  if route.phase.isTerminal then (.duplicate completion.turnId, checked)
  else
    match route.phase.turnId with
    | some expected =>
      if expected ≠ completion.turnId then (.turnMismatch expected completion.turnId, checked)
      else (.completed, published)
    | none => (.completed, published)

/-- `RunRegistry::route_terminal`. -/
def routeTerminal (self : RunSlot) (completion : TurnCompletion) (params : Json)
    (deferWhileStarting : Bool) (eventCapacity : Nat) : TerminalRouteOutcome × RunSlot :=
  match self.route with
  | none => (.unregistered, self)
  | some route =>
    match (if deferWhileStarting && route.pendingFailure.isNone then route.phase.deferred
        else none) with
    | none => self.settleTerminal route none completion
    | some queue =>
      if queue.length < eventCapacity then
        (.deferred,
          self.store { route with phase := route.phase.setDeferred (queue ++ [.terminal params]) }
            (self.cells route.run))
      else
        -- the queue is emptied before the turn of the notification is known to be this run's
        self.settleTerminal { route with phase := route.phase.setDeferred [] }
          (some terminalQueueFailure) completion

/-- `RunRegistry::fail_active`; the control is named by its registration. -/
def failActive (self : RunSlot) (turnId : String) (control : Nat) (error : Error) :
    Bool × RunSlot :=
  match self.route with
  | none => (false, self)
  | some route =>
    if route.phase.isTerminal || route.phase.turnId ≠ some turnId || route.run ≠ control
        || route.pendingFailure.isSome then (false, self)
    else (true, self.store { route with pendingFailure := some error } (self.cells route.run))

/-- What `RunRegistry::fail_all` does to the thread's route. -/
def failAll (self : RunSlot) (error : Error) : RunSlot :=
  match self.route with
  | none => self
  | some route =>
    let shared := (self.cells route.run).observeTerminal
    let terminalError := match route.pendingFailure with
      | none => error
      | some primary => primary.withRelatedError "provider turn cleanup also failed" error
    let settled := if shared.terminal.value.isNone then
        { shared with terminal := shared.terminal.send (some (.error terminalError)) }
      else shared
    { self.removeRoute route.run settled with active := false }

end RunSlot

end Vergerail
