import Vergerail.Session.RunWorld

/-!
# The registry's entry for a thread over its whole life

One thread sees many runs, one after another. Its entry goes through any
sequence of registry operations: the router's, the start task's, those of the
deadline, cancel and disconnect tasks, and what dropping a run handle does to the
shared cells. Capacities, turns and the `defer_while_starting` flag are arguments
of the operation, so nothing is assumed about which caller passes what.

`recorded` and `acknowledged` are history, by registration number.
-/

namespace Vergerail

open Lib

/-- The operations on one thread's entry. -/
inductive RegistryOp where
  /-- `RunRegistry::register`, under the `active` flag `Session::start` sets for it. -/
  | register (eventCapacity maximumOutputBytes : Nat)
  | routeEvent (observedTurnId : Option String) (sourceMethod : String) (event : Event)
      (deferWhileStarting : Bool) (eventCapacity : Nat)
  | routeTerminal (completion : TurnCompletion) (params : Json) (deferWhileStarting : Bool)
      (eventCapacity : Nat)
  | acknowledgeStart (turnId : String)
  | replayTransition (turnId : String)
  | failBeforeStart (error : Error)
  | failActive (turnId : String) (control : Nat) (error : Error)
  | cancelRegistered
  | failAll (error : Error)
  /-- `Run::drop` marks a run abandoned. -/
  | abandon (run : Nat)
  /-- The receivers of a run's channels are dropped. -/
  | dropChannels (run : Nat)

namespace RunSlot

/-- Rewrites the cells of one run. -/
def updateCells (self : RunSlot) (run : Nat) (shared : RunShared) : RunSlot :=
  { self with cells := Function.update self.cells run shared }

/-- What an operation does to the entry. -/
def apply (self : RunSlot) : RegistryOp → RunSlot
  | .register eventCapacity maximumOutputBytes =>
      (self.startRun eventCapacity maximumOutputBytes).2
  | .routeEvent observedTurnId sourceMethod event deferWhileStarting eventCapacity =>
      (self.routeEvent observedTurnId sourceMethod event deferWhileStarting eventCapacity).2
  | .routeTerminal completion params deferWhileStarting eventCapacity =>
      (self.routeTerminal completion params deferWhileStarting eventCapacity).2
  | .acknowledgeStart turnId => (self.acknowledgeStart turnId).2
  | .replayTransition turnId => (self.replayTransition turnId).2
  | .failBeforeStart error => (self.failBeforeStart error).2
  | .failActive turnId control error => (self.failActive turnId control error).2
  | .cancelRegistered => self.cancelRegistered.2
  | .failAll error => self.failAll error
  | .abandon run => self.updateCells run { self.cells run with abandoned := true }
  | .dropChannels run =>
      self.updateCells run { self.cells run with
        events := (self.cells run).events.close
        terminal := (self.cells run).terminal.dropReceiver }

/-- The run whose provider turn an acknowledgement is accepted for. A route that failed
before any turn existed has none. -/
def acknowledges (self : RunSlot) (turnId : String) : Option Nat :=
  match self.route, (self.acknowledgeStart turnId).1 with
  | some route, .replay _ => some route.run
  | some route, .completedBeforeAcknowledgement => route.phase.turnId.map (fun _ => route.run)
  | _, _ => none

end RunSlot

/-- A thread's entry with its history. -/
structure RegistryWorld where
  slot : RunSlot
  /-- The first failure recorded for each run. -/
  recorded : Nat → Option Error
  /-- Which runs had their turn acknowledged. -/
  acknowledged : Nat → Bool

namespace RegistryWorld

/-- A thread without a run. -/
def init (threadId : String) : RegistryWorld where
  slot := RunSlot.vacant threadId
  recorded := fun _ => none
  acknowledged := fun _ => false

/-- Keeps the failure a route has pending, unless one was recorded before. -/
def noteFailure (recorded : Nat → Option Error) (slot : RunSlot) : Nat → Option Error :=
  match slot.route with
  | none => recorded
  | some route =>
      Function.update recorded route.run ((recorded route.run).or route.pendingFailure)

/-- One operation. -/
def act (w : RegistryWorld) (op : RegistryOp) : RegistryWorld where
  slot := w.slot.apply op
  recorded := noteFailure w.recorded (w.slot.apply op)
  acknowledged := match op with
    | .acknowledgeStart turnId =>
        match w.slot.acknowledges turnId with
        | some run => Function.update w.acknowledged run true
        | none => w.acknowledged
    | _ => w.acknowledged

end RegistryWorld

/-- The client passes one event capacity to every operation. -/
def FixedCapacity (capacity : Nat) (_ : RegistryWorld) : RegistryOp → Prop
  | .register eventCapacity _ => eventCapacity = capacity
  | .routeEvent _ _ _ _ eventCapacity => eventCapacity = capacity
  | .routeTerminal _ _ _ eventCapacity => eventCapacity = capacity
  | _ => True

/-- The machine of one thread's entry. -/
def registryMachine (threadId : String) : Machine RegistryWorld RegistryOp where
  init := RegistryWorld.init threadId
  step := RegistryWorld.act

end Vergerail
