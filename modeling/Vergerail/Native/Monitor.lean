import Vergerail.Lib.Machine
import Vergerail.Native.Guardian

/-!
# The monitor and its worker

`request_stop`, `main`, `parent_exited` and `run_worker` of
`src/native/vergerail_guardian.c`.

The monitor installs its handlers, forks the worker and waits for it. The two processes
run the same handler on copies of the same three globals. A step of a process is one
statement of its main code or one statement of its innermost handler; the main code of a
process stands still while a handler runs in it, and a handler may be interrupted by
another one. A blocked signal is delivered later; nothing here depends on when.

The teardown of the worker is a step of its own: it looks at nothing that the handlers or
the monitor write.
-/

namespace Vergerail

/-- Where a call of `request_stop` is. -/
inductive HandlerPc where
  | entered
  /-- `stop_requested` is set. -/
  | requested
  /-- `worker_pid > 0` holds. -/
  | signalling
  /-- Past the `kill`. -/
  | signalled
  /-- `liveness_fd >= 0` holds. -/
  | closing
  /-- The descriptor is closed, but still in `liveness_fd`. -/
  | closed
  deriving DecidableEq, Repr

/-- One process: its globals and the handlers that run in it, innermost first. -/
structure Process where
  stopRequested : Bool
  /-- `worker_pid`, if it is positive. -/
  workerPid : Option Pid
  /-- `liveness_fd >= 0`. -/
  livenessFd : Bool
  frames : List HandlerPc
  deriving DecidableEq

/-- What a statement of the handler does outside its process. -/
inductive Effect where
  | none
  /-- `kill(.., SIGTERM)`. -/
  | kill (target : Pid)
  | closePipe
  deriving DecidableEq

namespace Process

/-- The globals as the program starts. -/
def fresh : Process where
  stopRequested := false
  workerPid := none
  livenessFd := false
  frames := []

/-- A signal is delivered. -/
def deliver (self : Process) : Process := { self with frames := .entered :: self.frames }

/-- One statement of the innermost `request_stop`. -/
def handle (self : Process) : Process × Effect :=
  match self.frames with
  | [] => (self, .none)
  | .entered :: frames => ({ self with stopRequested := true, frames := .requested :: frames }, .none)
  | .requested :: frames =>
    if self.workerPid ≠ none then ({ self with frames := .signalling :: frames }, .none)
    else ({ self with frames := .signalled :: frames }, .none)
  | .signalling :: frames =>
    match self.workerPid with
    | some pid => ({ self with frames := .signalled :: frames }, .kill pid)
    | none => ({ self with frames := .signalled :: frames }, .none)
  | .signalled :: frames =>
    if self.livenessFd then ({ self with frames := .closing :: frames }, .none)
    else ({ self with frames := frames }, .none)
  | .closing :: frames =>
    if self.livenessFd then ({ self with frames := .closed :: frames }, .closePipe)
    else ({ self with frames := .closed :: frames }, .none)
  | .closed :: frames => ({ self with livenessFd := false, frames := frames }, .none)

end Process

/-- Where `main` is, after the handlers are installed. -/
inductive MainPc where
  | installed
  | piped
  /-- `fork` returned the worker's pid. -/
  | forked
  /-- `worker_pid` is set. -/
  | assigned
  /-- `liveness_fd` is set. -/
  | armed
  /-- In `waitpid`. -/
  | waiting
  /-- `waitpid` returned the worker's status. -/
  | reaped (status : Nat)
  /-- `worker_pid` is -1 again. -/
  | unset (status : Nat)
  | closed (status : Nat)
  | exited (status : Nat)
  deriving DecidableEq, Repr

/-- Where the worker is. -/
inductive WorkerPc where
  /-- Before it forks the leader. -/
  | booting
  /-- It reads the result of the leader's `exec`. -/
  | execing
  /-- In its loop, before it observes the leader. -/
  | observing
  /-- Before it looks at `stop_requested`. -/
  | checking
  /-- Before it calls `parent_exited`. -/
  | polling
  /-- Before the teardown; the leader's `exec` succeeded or not. -/
  | terminating (started : Bool)
  | reaping (started : Bool)
  | exited (status : Nat)
  deriving DecidableEq, Repr

/-- The worker process. -/
structure WorkerProcess where
  pid : Pid
  process : Process
  pc : WorkerPc
  /-- The leader, once it is forked. -/
  custody : Option Custody
  /-- The monitor waited for it. -/
  reaped : Bool
  /-- History: `stop_requested` was set when it was forked. -/
  startedStopped : Bool
  /-- History: the monitor sent it `SIGTERM`. -/
  sigtermSent : Bool

/-- A signal that was sent to a process, which was reaped before or not. -/
structure Kill where
  target : Pid
  reaped : Bool
  deriving DecidableEq

/-- Both processes. -/
structure MonitorWorld where
  main : MainPc
  monitor : Process
  worker : Option WorkerProcess
  /-- The write end of the liveness pipe is open. -/
  pipeOpen : Bool
  /-- History: a stop signal was delivered to the monitor. -/
  delivered : Bool
  /-- History: the signals that the handlers sent. -/
  kills : List Kill

/-- What `main` finds. -/
inductive MainEvent where
  | go
  /-- A call fails. -/
  | fail
  /-- `fork` returns the pid of the worker. -/
  | child (pid : Pid)

/-- What the worker finds. -/
inductive GuardEvent where
  | go
  | fail
  /-- The leader is forked. -/
  | leader (group : Group)
  /-- The parent of the monitor is gone. -/
  | parentGone
  /-- What the leader and its group do before the next system calls. -/
  | turns (schedule : List Turn)

inductive MonitorLabel where
  | main (event : MainEvent)
  /-- `SIGTERM`, `SIGINT` or `SIGHUP` is delivered to the monitor. -/
  | deliver
  | handle
  | worker (event : GuardEvent)
  /-- A signal is delivered to the worker. -/
  | deliverWorker
  | handleWorker

namespace MonitorWorld

def init : MonitorWorld where
  main := .installed
  monitor := .fresh
  worker := none
  pipeOpen := false
  delivered := false
  kills := []

/-- `fork`: the worker gets a copy of the globals. -/
def fork (w : MonitorWorld) (pid : Pid) : MonitorWorld :=
  { w with
    main := .forked
    worker := some
      { pid := pid, process := w.monitor, pc := .booting, custody := none, reaped := false
        startedStopped := w.monitor.stopRequested, sigtermSent := false } }

/-- `waitpid` on the worker; it returns when the worker has exited. -/
def wait (w : MonitorWorld) : MonitorWorld :=
  match w.worker with
  | some worker =>
    match worker.pc with
    | .exited status =>
        { w with main := .reaped status, worker := some { worker with reaped := true } }
    | _ => w
  | none => w

/-- One statement of `main`. -/
def mainStep (w : MonitorWorld) (event : MainEvent) : MonitorWorld :=
  if w.monitor.frames ≠ [] then w
  else
    match w.main, event with
    | .installed, .fail => { w with main := .exited exitGuardianFailure }
    | .installed, _ => { w with main := .piped, pipeOpen := true }
    | .piped, .child pid => w.fork pid
    | .piped, .fail => { w with main := .exited exitGuardianFailure, pipeOpen := false }
    | .forked, _ =>
        { w with
          main := .assigned
          monitor := { w.monitor with workerPid := w.worker.map WorkerProcess.pid } }
    | .assigned, _ => { w with main := .armed, monitor := { w.monitor with livenessFd := true } }
    | .armed, _ => { w with main := .waiting }
    | .waiting, _ => w.wait
    | .reaped status, _ =>
        { w with main := .unset status, monitor := { w.monitor with workerPid := none } }
    | .unset status, _ =>
        { w with main := .closed status, pipeOpen := w.pipeOpen && !w.monitor.livenessFd }
    | .closed status, _ =>
        { w with main := .exited status, monitor := { w.monitor with livenessFd := false } }
    | _, _ => w

/-- `kill` reaches the worker, if the pid is its own. -/
def signalWorker (w : MonitorWorld) (target : Pid) : MonitorWorld :=
  match w.worker with
  | some worker =>
    if worker.pid = target then
      { w with
        worker := some { worker with sigtermSent := true }
        kills := w.kills ++ [⟨target, worker.reaped⟩] }
    else { w with kills := w.kills ++ [⟨target, false⟩] }
  | none => { w with kills := w.kills ++ [⟨target, false⟩] }

/-- One statement of a handler in the monitor. -/
def handle (w : MonitorWorld) : MonitorWorld :=
  match w.monitor.handle with
  | (monitor, .none) => { w with monitor }
  | (monitor, .kill target) => { w with monitor }.signalWorker target
  | (monitor, .closePipe) => { w with monitor, pipeOpen := false }

/-- `parent_exited`: the liveness pipe is closed at its other end, or the parent is gone. -/
def parentExited (w : MonitorWorld) (event : GuardEvent) : Bool :=
  !w.pipeOpen || (match event with
    | .fail => true
    | .parentGone => true
    | _ => false)

/-- What the group does before the next system calls. -/
def turns (event : GuardEvent) (custody : Custody) : Custody :=
  match event with
  | .turns schedule => { custody with schedule }
  | _ => { custody with schedule := [] }

/-- One step of `run_worker`. -/
def runWorker (w : MonitorWorld) (worker : WorkerProcess) (event : GuardEvent) : WorkerProcess :=
  match worker.pc, worker.custody with
  | .booting, _ =>
    match event with
    | .fail => { worker with pc := .exited exitGuardianFailure }
    | .leader group => { worker with pc := .execing, custody := some (.start group []) }
    | _ => worker
  | .execing, _ =>
    match event with
    | .fail => { worker with pc := .terminating false }
    | _ => { worker with pc := .observing }
  | .observing, some custody =>
    match (turns event custody).observeLeader with
    | (custody, true) => { worker with pc := .terminating true, custody := some custody }
    | (custody, false) => { worker with pc := .checking, custody := some custody }
  | .checking, _ =>
    if worker.process.stopRequested then { worker with pc := .terminating true }
    else { worker with pc := .polling }
  | .polling, _ =>
    if w.parentExited event then { worker with pc := .terminating true }
    else { worker with pc := .observing }
  | .terminating started, some custody =>
    match (turns event custody).terminatePrivateGroup with
    | (custody, result) =>
      { worker with
        pc := if result < 0 then .exited exitGuardianFailure else .reaping started
        custody := some custody }
  | .reaping started, some custody =>
    match (turns event custody).reapLeader with
    | (custody, result) =>
      { worker with
        pc := .exited (if result < 0 ∨ started = false then exitGuardianFailure
          else custody.exitStatus)
        custody := some custody }
  | _, _ => worker

/-- One step of the worker's main code. -/
def workerStep (w : MonitorWorld) (event : GuardEvent) : MonitorWorld :=
  match w.worker with
  | some worker =>
    if worker.process.frames ≠ [] then w else { w with worker := some (w.runWorker worker event) }
  | none => w

/-- The worker after a change of its process. -/
def withWorker (w : MonitorWorld) (worker : WorkerProcess) (process : Process) : MonitorWorld :=
  { w with worker := some { worker with process } }

/-- One statement of a handler in the worker. The descriptor that it would close is not the
monitor's. -/
def handleWorker (w : MonitorWorld) : MonitorWorld :=
  match w.worker with
  | some worker =>
    match worker.process.handle with
    | (process, .kill target) => (w.withWorker worker process).signalWorker target
    | (process, _) => w.withWorker worker process
  | none => w

/-- A signal is delivered to the worker. -/
def deliverWorker (w : MonitorWorld) : MonitorWorld :=
  match w.worker with
  | some worker => w.withWorker worker worker.process.deliver
  | none => w

/-- One atomic step. -/
def step (w : MonitorWorld) : MonitorLabel → MonitorWorld
  | .main event => w.mainStep event
  | .deliver => { w with monitor := w.monitor.deliver, delivered := true }
  | .handle => w.handle
  | .worker event => w.workerStep event
  | .deliverWorker => w.deliverWorker
  | .handleWorker => w.handleWorker

end MonitorWorld

/-- The machine of both processes. -/
def monitorMachine : Lib.Machine MonitorWorld MonitorLabel where
  init := .init
  step := MonitorWorld.step

end Vergerail
