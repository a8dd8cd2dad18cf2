import Vergerail.JsonText
import Vergerail.Lib.Machine
import Vergerail.Private.Wire

/-!
# The process writer and its senders

The outbound half of `src/private/process.rs`: any number of calls of `send_tracked`, the
bounded channel between them and the task of `writer_loop`, and that task over
`JsonLinesWriter` of `src/private/codec.rs`, down to the bytes in the pipe.

A call may be dropped at every await, the task may be aborted, a write may stop anywhere
in a frame and fail there, and shutdown may begin at any time. When the time is up is in
the labels.
-/

namespace Vergerail

open Lib

/-! ## The parties -/

/-- What `EncodedFrame::encode` makes of a frame that is not too large. -/
def Json.line (frame : Json) : EncodedFrame := ⟨frame.toBytes ++ [lf]⟩

/-- `Outbound`. The sender stands for the frame's end of the acknowledgement. -/
inductive Outbound where
  | frame (sender : Nat) (frame : EncodedFrame)
  | close

/-- Where `writer_loop` is. -/
inductive WriterTask where
  | receiving
  /-- `JsonLinesWriter::write`: these bytes are not in the pipe yet. -/
  | writing (sender : Nat) (rest : List UInt8)
  /-- `terminate_after_writer_failure` awaits the child. -/
  | terminating (sender : Nat) (error : Error)
  /-- It awaits a place for `ProcessEvent::Closed`. -/
  | reporting (error : Error)
  /-- `JsonLinesWriter::close` -/
  | closing
  | ended
  deriving DecidableEq

/-- Where a call of `send_tracked` is, or how it ended. -/
inductive SendPhase where
  | running (call : SendCall)
  | returned (result : Result Unit)
  | dropped
  deriving DecidableEq

/-- A call of `send_tracked`. -/
structure SendCell where
  frame : Json
  /-- The marker that the caller handed in. -/
  dispatched : Bool
  /-- What `writer_loop` acknowledged. -/
  ack : Option (Result Unit)
  phase : SendPhase

/-- The call of `send_tracked` begins. -/
def SendCell.call (frame : Json) : SendCell where
  frame
  dispatched := false
  ack := none
  phase := .running .entering

/-- What the writer is spawned with. -/
structure OutboundEnv where
  maxFrameBytes : Nat
  /-- `send_timeout`, in milliseconds. -/
  sendTimeout : Nat
  /-- `outbound_capacity` -/
  capacity : Nat

structure OutboundWorld where
  writer : Writer
  senders : List SendCell
  /-- The commands that `writer_loop` has not taken, oldest first. -/
  channel : List Outbound
  task : WriterTask
  /-- The bytes that went into the pipe. -/
  stdin : List UInt8
  /-- What `writer_loop` reported as `ProcessEvent::Closed`. -/
  closed : Option Error
  /-- History: whose frames were queued, oldest first. -/
  order : List (Nat × Json)

/-- What can happen next. -/
inductive OutboundLabel where
  /-- Somebody calls `send_tracked`. -/
  | send (frame : Json)
  /-- The call goes on to its next await. -/
  | go (sender : Nat) (event : SendEvent)
  /-- The future of the call is dropped. -/
  | drop (sender : Nat)
  /-- A shutdown stores its marker. -/
  | startShutdown
  /-- A shutdown queues `Outbound::Close`. -/
  | close
  | receive
  /-- The pipe takes some bytes. -/
  | write (count : Nat)
  | flushed
  | fail (error : Error)
  | terminated
  | reported
  | stdinClosed
  /-- The task is aborted. -/
  | abort

/-! ## Steps -/

/-- `writer_loop` reports that it failed. -/
def stdinWriterFailed (error : Error) : Error :=
  Error.new .disconnected "process.stdin" ("app-server stdin writer failed: " ++ error.display)

namespace OutboundWorld

def start (env : OutboundEnv) : OutboundWorld where
  writer :=
    { shutdownStarted := false
      maxFrameBytes := env.maxFrameBytes
      sendTimeout := env.sendTimeout
      queued := [] }
  senders := []
  channel := []
  task := .receiving
  stdin := []
  closed := none
  order := []

/-- `writer_loop` acknowledged that the write failed with this text. -/
def ackFailed (cell : SendCell) (text : String) : Bool :=
  match cell.ack with
  | some (.error error) => text == error.display
  | _ => false

/-- The call can find this when it goes on. -/
def offers (w : OutboundWorld) (capacity : Nat) (cell : SendCell) :
    SendCall → SendEvent → Bool
  | .entering, .ready => true
  | .entering, .expired => true
  | .reserving, .ready => w.channel.length < capacity
  | .reserving, .expired => true
  | .reserving, .writerGone => w.task = .ended
  | .dispatched, .ready => true
  | .dispatched, .expired => true
  | .acknowledging, .ready => cell.ack = some (.ok ())
  | .acknowledging, .expired => true
  | .acknowledging, .writerGone => cell.ack = none && w.task = .ended
  | .acknowledging, .writeFailed text => ackFailed cell text
  | .terminating _, .ready => true
  | .terminating _, .killFailed _ => true
  | _, _ => false

/-- The call of the cell is there now. -/
def settle (w : OutboundWorld) (i : Nat) (cell : SendCell) (phase : SendPhase) :
    OutboundWorld :=
  { w with senders := w.senders.set i { cell with phase } }

/-- `permit.send`: the marker is set and the frame is in the channel. -/
def dispatch (w : OutboundWorld) (i : Nat) (cell : SendCell) (next : SendCall) :
    OutboundWorld :=
  { w with
    channel := w.channel ++ [.frame i cell.frame.line]
    order := w.order ++ [(i, cell.frame)]
    senders := w.senders.set i { cell with dispatched := true, phase := .running next } }

/-- The call of the cell takes a step. -/
def goOn (w : OutboundWorld) (i : Nat) (cell : SendCell) (call : SendCall)
    (event : SendEvent) : OutboundWorld :=
  match w.writer.sendStep cell.frame call event with
  | (writer, .pending next) =>
    if next.isQueued && !call.isQueued then { w with writer }.dispatch i cell next
    else { w with writer }.settle i cell (.running next)
  | (writer, .finished result) => { w with writer }.settle i cell (.returned result)

/-- The call goes on with this, if it can find it. -/
def go (w : OutboundWorld) (capacity i : Nat) (event : SendEvent) : OutboundWorld :=
  match w.senders[i]? with
  | none => w
  | some cell =>
    match cell.phase with
    | .running call => if w.offers capacity cell call event then w.goOn i cell call event else w
    | .returned _ => w
    | .dropped => w

/-- Nobody polls the call any more. -/
def drop (w : OutboundWorld) (i : Nat) : OutboundWorld :=
  match w.senders[i]? with
  | none => w
  | some cell =>
    match cell.phase with
    | .running _ => w.settle i cell .dropped
    | .returned _ => w
    | .dropped => w

/-- `ack.send`, whether or not anybody awaits it. -/
def acknowledge (w : OutboundWorld) (i : Nat) (result : Result Unit) : OutboundWorld :=
  match w.senders[i]? with
  | none => w
  | some cell => { w with senders := w.senders.set i { cell with ack := some result } }

/-- `shutdown_with_deadline` stores its marker before it queues the command. -/
def close (w : OutboundWorld) (capacity : Nat) : OutboundWorld :=
  if w.writer.shutdownStarted && w.channel.length < capacity then
    { w with channel := w.channel ++ [.close] }
  else w

/-- `outbound.recv()` -/
def receive (w : OutboundWorld) : OutboundWorld :=
  match w.task, w.channel with
  | .receiving, .frame sender frame :: channel =>
      { w with channel, task := .writing sender frame.bytes }
  | .receiving, .close :: channel => { w with channel, task := .closing }
  | _, _ => w

def write (w : OutboundWorld) (count : Nat) : OutboundWorld :=
  match w.task with
  | .writing sender rest =>
      { w with stdin := w.stdin ++ rest.take count, task := .writing sender (rest.drop count) }
  | _ => w

/-- The write is complete when nothing is left in the buffer of the writer. -/
def flushed (w : OutboundWorld) : OutboundWorld :=
  match w.task with
  | .writing sender [] => { w.acknowledge sender (.ok ()) with task := .receiving }
  | _ => w

def fail (w : OutboundWorld) (error : Error) : OutboundWorld :=
  match w.task with
  | .writing sender _ =>
      { w with writer := w.writer.startShutdown, task := .terminating sender error }
  | _ => w

def terminated (w : OutboundWorld) : OutboundWorld :=
  match w.task with
  | .terminating sender error =>
      { w.acknowledge sender (.error error) with task := .reporting error }
  | _ => w

def reported (w : OutboundWorld) : OutboundWorld :=
  match w.task with
  | .reporting error => { w with closed := some (stdinWriterFailed error), task := .ended }
  | _ => w

def stdinClosed (w : OutboundWorld) : OutboundWorld :=
  match w.task with
  | .closing => { w with task := .ended }
  | _ => w

/-- One atomic step. -/
def step (env : OutboundEnv) (w : OutboundWorld) : OutboundLabel → OutboundWorld
  | .send frame => { w with senders := w.senders ++ [.call frame] }
  | .go sender event => w.go env.capacity sender event
  | .drop sender => w.drop sender
  | .startShutdown => { w with writer := w.writer.startShutdown }
  | .close => w.close env.capacity
  | .receive => w.receive
  | .write count => w.write count
  | .flushed => w.flushed
  | .fail error => w.fail error
  | .terminated => w.terminated
  | .reported => w.reported
  | .stdinClosed => w.stdinClosed
  | .abort => { w with task := .ended }

/-- The senders, the writer task and the pipe as a machine. -/
def machine (env : OutboundEnv) : Machine OutboundWorld OutboundLabel where
  init := start env
  step := step env

end OutboundWorld

end Vergerail
