import Vergerail.Lib.Fairness
import Vergerail.Session.RunState

/-!
# Interrupting one turn from many tasks

`RunControl` and `InterruptCompletionGuard` of `src/session/run_state.rs`, and
`ClientInner::interrupt_run` of `src/client.rs`, one atomic operation at a time. Any
number of callers interrupt one run while its provider terminal is being marked. The
caller whose `try_start_interrupt` answers `true` spawns the task that sends the
request; the others wait for the result that the task publishes.

Between two atomic operations every party can be overtaken by any other, so each has a
program counter. A spawned task is polled at least once: before its first poll there is
no guard, and only the end of the runtime, which takes the callers with it, drops it
there.
-/

namespace Vergerail

open Lib

namespace RunControl

/-- Neither bit may be set when an interrupt starts. -/
def interruptBlocked (state : BitVec 8) : Bool :=
  state &&& (runInterruptStarted ||| runProviderTerminal) != 0

/-- `fetch_or`, the first half of `mark_provider_terminal`. -/
def fetchOrTerminal (self : RunControl) : RunControl :=
  { self with state := self.state ||| runProviderTerminal }

/-- `provider_terminal.send_replace(true)`, its second half. -/
def announceTerminal (self : RunControl) : RunControl :=
  { self with providerTerminal := self.providerTerminal.sendReplace true }

/-- What a successful `compare_exchange_weak` of `try_start_interrupt` stores. -/
def grantInterrupt (self : RunControl) : RunControl :=
  { self with state := self.state ||| runInterruptStarted }

/-- What `InterruptCompletionGuard` publishes, on completion or on drop. -/
def publishInterrupt (self : RunControl) (result : Result Unit) : RunControl :=
  { self with interruptResult := self.interruptResult.sendReplace (some result) }

end RunControl

/-- The error `InterruptCompletionGuard::drop` publishes. -/
def interruptTaskEnded : Error :=
  Error.new .disconnected "turn.interrupt" "interrupt request task ended before producing a result"

/-- The task's error when the terminal watch changed to something else than `true`. -/
def terminalChangedUnobserved : Error :=
  Error.new .protocol "turn.completed"
    "provider terminal channel changed without a terminal observation"

/-- Where a caller of `interrupt_run` is. -/
inductive InterruptCaller where
  | idle
  /-- It holds a receiver and is about to load the state in `try_start_interrupt`. -/
  | subscribed
  /-- It loaded this state, or a failed exchange reported it. -/
  | observed (state : BitVec 8)
  /-- `try_start_interrupt` answered `true`; the task is not spawned yet. -/
  | granted
  /-- `try_start_interrupt` answered `false`. -/
  | refused
  /-- `provider_terminal_observed` answered `true`. -/
  | terminalSeen
  /-- It is about to look at the result. -/
  | checking
  /-- It found no result and awaits a change. -/
  | parked
  | returned (result : Result Unit)
  /-- Its future was dropped. -/
  | dropped
  deriving DecidableEq

/-- Where the task that a caller spawned is. -/
inductive InterruptTask where
  | absent
  | spawned
  /-- It has its guard, and a receiver that has seen this version of the terminal watch. -/
  | armed (seen : Nat)
  /-- It races the request against the terminal watch. -/
  | racing (seen : Nat)
  /-- It published its result. -/
  | done
  deriving DecidableEq

/-- Where a call of `mark_provider_terminal` is. -/
inductive TerminalMarker where
  | idle
  /-- The bit is set, the watch is not written. -/
  | flagged
  | announced
  deriving DecidableEq

/-- One run's control and everybody who works on it. -/
structure InterruptWorld where
  control : RunControl
  /-- How many values were stored in the interrupt watch. -/
  resultVersion : Nat
  /-- How many values were stored in the terminal watch. -/
  terminalVersion : Nat
  caller : Nat → InterruptCaller
  /-- The version of the interrupt watch that a caller's receiver has seen. -/
  seen : Nat → Nat
  /-- The task of each caller. -/
  task : Nat → InterruptTask
  marker : Nat → TerminalMarker
  /-- The callers to which `try_start_interrupt` answered `true`. -/
  grants : List Nat

/-- Who performs the next atomic operation. -/
inductive InterruptLabel where
  /-- A caller enters `interrupt_run` and subscribes. -/
  | call (caller : Nat)
  /-- A caller performs its next operation. -/
  | caller (caller : Nat)
  /-- A caller's weak exchange fails although the state is the expected one. -/
  | spurious (caller : Nat)
  /-- A waiting caller's future is dropped. -/
  | dropCaller (caller : Nat)
  /-- A task performs its next operation. -/
  | task (caller : Nat)
  /-- The request of a task is answered, times out or fails. -/
  | settle (caller : Nat) (result : Result Unit)
  /-- A task ends before it completes its guard. -/
  | dropTask (caller : Nat)
  /-- A call of `mark_provider_terminal` performs its next operation. -/
  | marker (call : Nat)

namespace InterruptWorld

def init : InterruptWorld where
  control := RunControl.new
  resultVersion := 0
  terminalVersion := 0
  caller := fun _ => .idle
  seen := fun _ => 0
  task := fun _ => .absent
  marker := fun _ => .idle
  grants := []

/-- A caller moves on and nothing else happens. -/
def moveCaller (w : InterruptWorld) (i : Nat) (pc : InterruptCaller) : InterruptWorld :=
  { w with caller := Function.update w.caller i pc }

/-- A caller's receiver catches up with the interrupt watch. -/
def catchUp (w : InterruptWorld) (i : Nat) : InterruptWorld :=
  { w with seen := Function.update w.seen i w.resultVersion }

/-- A task moves on and nothing else happens. -/
def moveTask (w : InterruptWorld) (i : Nat) (pc : InterruptTask) : InterruptWorld :=
  { w with task := Function.update w.task i pc }

/-- `try_start_interrupt` answers `true`. -/
def grant (w : InterruptWorld) (i : Nat) : InterruptWorld :=
  { w.moveCaller i .granted with
    control := w.control.grantInterrupt
    grants := w.grants ++ [i] }

/-- A task's guard publishes its result. -/
def finish (w : InterruptWorld) (i : Nat) (result : Result Unit) : InterruptWorld :=
  { w.moveTask i .done with
    control := w.control.publishInterrupt result
    resultVersion := w.resultVersion + 1 }

section Fields

variable (w : InterruptWorld) (i : Nat)

@[simp] theorem moveCaller_self (pc : InterruptCaller) : (w.moveCaller i pc).caller i = pc := by
  simp [moveCaller]

@[simp] theorem moveCaller_of_ne (pc : InterruptCaller) {i j : Nat} (h : j ≠ i) :
    (w.moveCaller i pc).caller j = w.caller j := by
  simp [moveCaller, h]

@[simp] theorem catchUp_self : (w.catchUp i).seen i = w.resultVersion := by simp [catchUp]

@[simp] theorem catchUp_of_ne {i j : Nat} (h : j ≠ i) : (w.catchUp i).seen j = w.seen j := by
  simp [catchUp, h]

@[simp] theorem moveTask_self (pc : InterruptTask) : (w.moveTask i pc).task i = pc := by
  simp [moveTask]

@[simp] theorem moveTask_of_ne (pc : InterruptTask) {i j : Nat} (h : j ≠ i) :
    (w.moveTask i pc).task j = w.task j := by
  simp [moveTask, h]

end Fields

/-- One operation of a caller. -/
def callerStep (w : InterruptWorld) (i : Nat) : InterruptWorld :=
  match w.caller i with
  | .subscribed => w.moveCaller i (.observed w.control.state)
  | .observed state =>
    if RunControl.interruptBlocked state then w.moveCaller i .refused
    else if w.control.state = state then w.grant i
    else w.moveCaller i (.observed w.control.state)
  | .granted => (w.moveTask i .spawned).moveCaller i .checking
  | .refused =>
    if w.control.providerTerminalObserved then w.moveCaller i .terminalSeen
    else w.moveCaller i .checking
  | .terminalSeen =>
    if w.control.interruptStarted then w.moveCaller i .checking
    else w.moveCaller i (.returned (.ok ()))
  | .checking =>
    match w.control.interruptResult.value with
    | some result => w.moveCaller i (.returned result)
    | none => w.moveCaller i .parked
  | .parked =>
    if w.seen i = w.resultVersion then w else (w.moveCaller i .checking).catchUp i
  | .idle => w
  | .returned _ => w
  | .dropped => w

/-- One operation of a task. -/
def taskStep (w : InterruptWorld) (i : Nat) : InterruptWorld :=
  match w.task i with
  | .spawned => w.moveTask i (.armed w.terminalVersion)
  | .armed seen =>
    if w.control.providerTerminal.value then w.finish i (.ok ()) else w.moveTask i (.racing seen)
  | .racing seen =>
    if seen = w.terminalVersion then w
    else if w.control.providerTerminal.value then w.finish i (.ok ())
    else w.finish i (.error terminalChangedUnobserved)
  | .absent => w
  | .done => w

/-- One operation of a call of `mark_provider_terminal`. -/
def markerStep (w : InterruptWorld) (k : Nat) : InterruptWorld :=
  match w.marker k with
  | .idle =>
      { w with
        control := w.control.fetchOrTerminal
        marker := Function.update w.marker k .flagged }
  | .flagged =>
      { w with
        control := w.control.announceTerminal
        terminalVersion := w.terminalVersion + 1
        marker := Function.update w.marker k .announced }
  | .announced => w

def step (w : InterruptWorld) : InterruptLabel → InterruptWorld
  | .call i =>
    match w.caller i with
    | .idle => (w.moveCaller i .subscribed).catchUp i
    | _ => w
  | .caller i => w.callerStep i
  | .spurious i =>
    match w.caller i with
    | .observed state =>
      if RunControl.interruptBlocked state then w
      else w.moveCaller i (.observed w.control.state)
    | _ => w
  | .dropCaller i =>
    match w.caller i with
    | .parked => w.moveCaller i .dropped
    | _ => w
  | .task i => w.taskStep i
  | .settle i result =>
    match w.task i with
    | .racing _ => w.finish i result
    | _ => w
  | .dropTask i =>
    match w.task i with
    | .armed _ => w.finish i (.error interruptTaskEnded)
    | .racing _ => w.finish i (.error interruptTaskEnded)
    | _ => w
  | .marker k => w.markerStep k

end InterruptWorld

/-- All callers, tasks and markers of one run's control. -/
def interruptMachine : Machine InterruptWorld InterruptLabel where
  init := InterruptWorld.init
  step := InterruptWorld.step

end Vergerail
