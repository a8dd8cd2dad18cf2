import Vergerail.Json

/-!
# Pending requests

`RequestRegistry` of `src/private/request.rs`, read at one request: its entry in the
pending map, the oneshot channel between the entry and the caller, and the flags the two
share. The entry is the sender's owner: whoever takes it from the map either sends a
result or drops the sender.

`complete` and `fail_all` take the entry under the lock and send after it; `timeout` and
`cancel` take it and look at the flags.
-/

namespace Vergerail

/-- Who holds the sender of a request. -/
inductive PendingEntry where
  /-- Nobody: the request is not registered, or its entry is gone. -/
  | absent
  /-- The pending map. -/
  | pending
  /-- `complete`, with the response to hand over. -/
  | completing (response : Result Json)
  /-- `fail_all`. -/
  | failing

/-- What the receiver finds in its channel. -/
inductive Waiter where
  | empty
  | value (result : Result Json)
  /-- The sender is dropped without a value. -/
  | closed

/-- `PendingRequest` and what its registration shares with it. -/
structure PendingRequest where
  operation : String
  nonIdempotent : Bool
  entry : PendingEntry
  waiter : Waiter
  /-- The receiver is not dropped. -/
  receiving : Bool
  dispatched : Bool
  cancelled : Bool
  successfulResponse : Bool

/-- `ResponseCompletion`. -/
inductive ResponseCompletion where
  | delivered
  | missing
  | orphanedSuccess (operation : String)
  deriving DecidableEq, Repr

/-- `TimeoutDisposition`. -/
inductive TimeoutDisposition where
  | timedOut
  | outcomeUnknown
  deriving DecidableEq, Repr

/-- `non_idempotent_outcome_may_be_orphaned`. -/
def nonIdempotentOutcomeMayBeOrphaned (nonIdempotent dispatched pendingAtCancellation
    successfulResponse responseHandoffFailed : Bool) : Bool :=
  nonIdempotent && dispatched
    && (pendingAtCancellation || (successfulResponse && responseHandoffFailed))

namespace PendingRequest

/-- A request that is not registered. -/
def unregistered (operation : String) (nonIdempotent : Bool) : PendingRequest where
  operation
  nonIdempotent
  entry := .absent
  waiter := .empty
  receiving := false
  dispatched := false
  cancelled := false
  successfulResponse := false

def isPending (self : PendingRequest) : Bool :=
  match self.entry with
  | .pending => true
  | _ => false

/-- `register`, once an id is found. -/
def register (self : PendingRequest) : PendingRequest :=
  { self with entry := .pending, waiter := .empty, receiving := true }

/-- The sender is dropped. -/
def dropSender (self : PendingRequest) : PendingRequest :=
  { self with
    entry := .absent
    waiter := match self.waiter with
      | .empty => .closed
      | waiter => waiter }

/-- The sender sends; a dropped receiver loses the value. -/
def send (self : PendingRequest) (result : Result Json) : PendingRequest :=
  { self with
    entry := .absent
    waiter := if self.receiving then .value result else self.waiter }

/-- `remove`. -/
def remove (self : PendingRequest) : PendingRequest :=
  if self.isPending then self.dropSender else self

/-- `cancel`. -/
def cancel (self : PendingRequest) : Bool × PendingRequest :=
  (nonIdempotentOutcomeMayBeOrphaned self.nonIdempotent self.dispatched self.isPending
    self.successfulResponse true, self.remove)

/-- `timeout`. -/
def timeout (self : PendingRequest) : TimeoutDisposition × PendingRequest :=
  if (self.isPending && self.nonIdempotent && self.dispatched)
      || (self.nonIdempotent && self.dispatched && self.successfulResponse) then
    (.outcomeUnknown, self.remove)
  else (.timedOut, self.remove)

/-- `take_for_completion`; false for a request that is not pending. -/
def takeForCompletion (self : PendingRequest) (response : Result Json) : Bool × PendingRequest :=
  if self.isPending then
    (true, { self with
      entry := .completing response
      successfulResponse := self.successfulResponse || response.isOk })
  else (false, self)

/-- `complete` after it took the entry. -/
def handOver (self : PendingRequest) (response : Result Json) :
    ResponseCompletion × PendingRequest :=
  let responseHandoffFailed := !self.receiving || self.cancelled
  if nonIdempotentOutcomeMayBeOrphaned self.nonIdempotent self.dispatched false response.isOk
      responseHandoffFailed then
    (.orphanedSuccess self.operation, self.send response)
  else (.delivered, self.send response)

/-- `fail_all` takes the entry from the map. -/
def takeForFailure (self : PendingRequest) : PendingRequest :=
  if self.isPending then { self with entry := .failing } else self

/-- The failure `fail_all` sends. -/
def disconnectFailure (self : PendingRequest) (error : Error) : Error :=
  if self.nonIdempotent && self.dispatched then
    (Error.new .outcomeUnknown self.operation
      "app-server disconnected after the request was written; outcome is unknown and was not retried").withStderr
        error.stderrTail
  else (Error.new .disconnected self.operation error.message).withStderr error.stderrTail

/-- `fail_all` sends to an entry it took. -/
def fail (self : PendingRequest) (error : Error) : PendingRequest :=
  match self.entry with
  | .failing => self.send (.error (self.disconnectFailure error))
  | _ => self

/-- `mark_cancelled`. -/
def markCancelled (self : PendingRequest) : PendingRequest := { self with cancelled := true }

/-- The receiver is dropped. -/
def dropReceiver (self : PendingRequest) : PendingRequest := { self with receiving := false }

/-- The send marks the request before its frame is queued. -/
def markDispatched (self : PendingRequest) : PendingRequest := { self with dispatched := true }

end PendingRequest

end Vergerail
