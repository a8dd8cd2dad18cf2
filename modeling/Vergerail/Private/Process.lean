import Vergerail.Event

/-!
# Frames and the process writer

`wire::success` and `wire::failure` of `src/private/wire.rs`, the size check of
`EncodedFrame::encode`, and `ProcessHandle::send_tracked` of `src/private/process.rs`.

A send asks for a place in the writer's queue, puts the frame there, and awaits the
acknowledgement of the write. The frame is in the writer's hands from the moment it is
queued: what a send answers after that says nothing about whether it was queued.
-/

namespace Vergerail

/-! ## Frames -/

/-- What one character takes in a JSON string. -/
def charBytes (c : Char) : Nat :=
  if c ∈ ['"', '\\', '\x08', '\t', '\n', '\x0c', '\r'] then 2
  else if c.toNat < 0x20 then 6
  else c.utf8Size

/-- What a string takes, with its quotes. -/
def stringBytes (s : String) : Nat := 2 + (s.toList.map charBytes).sum

mutual

/-- The length of `serde_json::to_vec`. -/
def Json.encodedBytes : Json → Nat
  | .null => 4
  | .bool true => 4
  | .bool false => 5
  | .number text => text.utf8ByteSize
  | .string s => stringBytes s
  | .array items => 2 + itemsBytes items
  | .object members => 2 + membersBytes members

/-- The elements of an array, with the commas between them. -/
def itemsBytes : List Json → Nat
  | [] => 0
  | [item] => item.encodedBytes
  | item :: item' :: items => item.encodedBytes + 1 + itemsBytes (item' :: items)

/-- The members of an object, with the commas between them. -/
def membersBytes : List (String × Json) → Nat
  | [] => 0
  | [(key, value)] => stringBytes key + 1 + value.encodedBytes
  | (key, value) :: member :: members =>
      stringBytes key + 1 + value.encodedBytes + 1 + membersBytes (member :: members)

end

/-- `RpcId::to_value`. -/
def RpcId.toValue : RpcId → Json
  | number n => .number (toString n)
  | string s => .string s

/-- `wire::success`. -/
def wireSuccess (id : RpcId) (result : Json) : Json :=
  .object [("id", id.toValue), ("result", result)]

/-- `wire::failure`. -/
def wireFailure (id : RpcId) (code : Int) (message : String) : Json :=
  .object [("error", .object [("code", .number (toString code)), ("message", .string message)]),
    ("id", id.toValue)]

/-! ## Sending -/

/-- What a send looks at. -/
structure Writer where
  shutdownStarted : Bool
  maxFrameBytes : Nat
  /-- `send_timeout`, in milliseconds. -/
  sendTimeout : Nat
  /-- History: the frames that were queued, oldest first. -/
  queued : List Json

/-- Where a call of `send_tracked` is. -/
inductive SendCall where
  /-- Before its first check. -/
  | entering
  /-- It awaits a place in the queue. -/
  | reserving
  /-- The frame is queued. -/
  | dispatched
  /-- It awaits the acknowledgement. -/
  | acknowledging
  /-- The acknowledgement failed for this reason; it awaits the end of the process. -/
  | terminating (reason : String)
  deriving DecidableEq

/-- What a call finds when it goes on. -/
inductive SendEvent where
  /-- What it awaits is there, in time. -/
  | ready
  /-- The time is up. -/
  | expired
  /-- The writer is gone. -/
  | writerGone
  /-- The write failed. -/
  | writeFailed (error : String)
  /-- The process could not be terminated. -/
  | killFailed (error : Error)
  deriving DecidableEq

/-- What a call is after a step. -/
inductive SendState where
  | pending (call : SendCall)
  | finished (result : Result Unit)
  deriving DecidableEq

namespace Writer

/-- `force_kill` starts by announcing the shutdown. -/
def startShutdown (self : Writer) : Writer := { self with shutdownStarted := true }

def queue (self : Writer) (frame : Json) : Writer := { self with queued := self.queued ++ [frame] }

/-- `send_timeout` elapsed at `operation`. -/
def timeout (self : Writer) (operation : String) : Result Unit :=
  .error (Error.timeout operation self.sendTimeout)

/-- One step of `send_tracked`, between two of its awaits. -/
def sendStep (self : Writer) (frame : Json) (call : SendCall) (event : SendEvent) :
    Writer × SendState :=
  match call with
  | .entering =>
    if self.shutdownStarted then
      (self, .finished (.error (Error.new .shutdown "process.send"
        "app-server shutdown has started")))
    else if self.maxFrameBytes < frame.encodedBytes then
      (self, .finished (.error (Error.new .protocol "jsonl.write"
        ("frame exceeds " ++ toString self.maxFrameBytes ++ " bytes"))))
    else if event = .expired then (self, .finished (self.timeout "process.send"))
    else (self, .pending .reserving)
  | .reserving =>
    if event = .writerGone then
      (self, .finished (.error (Error.new .disconnected "process.send"
        "app-server writer task is not available")))
    else if event = .expired then (self, .finished (self.timeout "process.send.queue"))
    else if self.shutdownStarted then
      (self, .finished (.error (Error.new .shutdown "process.send"
        "app-server shutdown started before dispatch")))
    else (self.queue frame, .pending .dispatched)
  | .dispatched =>
    if event = .expired then (self, .finished (self.timeout "process.send"))
    else (self, .pending .acknowledging)
  | .acknowledging =>
    match event with
    | .writeFailed error =>
        (self.startShutdown, .pending (.terminating ("app-server stdin write failed: " ++ error)))
    | .writerGone =>
        (self.startShutdown, .pending (.terminating
          "app-server writer ended before acknowledging the dispatched frame"))
    | .expired =>
        (self.startShutdown, .pending (.terminating ("no write acknowledgement arrived within "
          ++ toString self.sendTimeout ++ " ms")))
    | _ => (self, .finished (.ok ()))
  | .terminating reason =>
    match event with
    | .killFailed error =>
        (self, .finished (.error (Error.new .outcomeUnknown "process.send"
          (reason ++ "; runtime termination failed: " ++ error.display))))
    | _ =>
        (self, .finished (.error (Error.new .outcomeUnknown "process.send"
          (reason ++ "; runtime termination was initiated"))))

end Writer

/-- The frame of the call is queued. -/
def SendCall.isQueued : SendCall → Bool
  | entering => false
  | reserving => false
  | dispatched => true
  | acknowledging => true
  | terminating _ => true

/-- How far a call is from its end. -/
def SendCall.rank : SendCall → Nat
  | entering => 5
  | reserving => 4
  | dispatched => 3
  | acknowledging => 2
  | terminating _ => 1

theorem SendCall.rank_pos (call : SendCall) : 0 < call.rank := by
  cases call <;> simp [SendCall.rank]

theorem SendCall.rank_le (call : SendCall) : call.rank ≤ 5 := by
  cases call <;> simp [SendCall.rank]

namespace Writer

/-- **What one step of a send can do.** It goes on without touching the queue, it queues
its frame, or it ends; it ends well only with the frame queued. -/
theorem sendStep_cases (self : Writer) (frame : Json) (call : SendCall) (event : SendEvent) :
    (∃ next, self.sendStep frame call event = (self, .pending next) ∧
      next.isQueued = call.isQueued ∧ next.rank < call.rank) ∨
    (∃ next, self.sendStep frame call event = (self.startShutdown, .pending next) ∧
      next.isQueued = true ∧ call.isQueued = true ∧ next.rank < call.rank) ∨
    (∃ next, self.sendStep frame call event = (self.queue frame, .pending next) ∧
      next.isQueued = true ∧ call.isQueued = false ∧ next.rank < call.rank ∧
      self.shutdownStarted = false) ∨
    (∃ result, self.sendStep frame call event = (self, .finished result) ∧
      (result = .ok () → call.isQueued = true)) := by
  cases call with
  | entering =>
    by_cases hshut : self.shutdownStarted = true
    · exact .inr (.inr (.inr ⟨_, by simp only [sendStep, hshut]; rfl, by simp⟩))
    · by_cases hsize : self.maxFrameBytes < frame.encodedBytes
      · exact .inr (.inr (.inr ⟨_, by simp only [sendStep, hshut, hsize, if_true]; rfl, by simp⟩))
      · by_cases htime : event = .expired
        · exact .inr (.inr (.inr ⟨_, by simp only [sendStep, hshut, hsize, htime]; rfl,
            by simp [timeout]⟩))
        · exact .inl ⟨.reserving, by simp [sendStep, hshut, hsize, htime], rfl, by decide⟩
  | reserving =>
    by_cases hgone : event = .writerGone
    · exact .inr (.inr (.inr ⟨_, by simp only [sendStep, hgone]; rfl, by simp⟩))
    · by_cases htime : event = .expired
      · exact .inr (.inr (.inr ⟨_, by simp only [sendStep, htime]; rfl, by simp [timeout]⟩))
      · by_cases hshut : self.shutdownStarted = true
        · exact .inr (.inr (.inr ⟨_, by simp only [sendStep, hgone, htime, hshut]; rfl, by simp⟩))
        · refine .inr (.inr (.inl ⟨.dispatched, ?_, rfl, rfl, by decide, by simpa using hshut⟩))
          simp [sendStep, hgone, htime, hshut]
  | dispatched =>
    by_cases htime : event = .expired
    · exact .inr (.inr (.inr ⟨_, by simp only [sendStep, htime]; rfl, by simp [timeout]⟩))
    · exact .inl ⟨.acknowledging, by simp [sendStep, htime], rfl, by decide⟩
  | acknowledging =>
    cases event with
    | ready => exact .inr (.inr (.inr ⟨_, rfl, fun _ => rfl⟩))
    | expired => exact .inr (.inl ⟨_, rfl, rfl, rfl, Nat.lt_succ_self 1⟩)
    | writerGone => exact .inr (.inl ⟨_, rfl, rfl, rfl, Nat.lt_succ_self 1⟩)
    | writeFailed error => exact .inr (.inl ⟨_, rfl, rfl, rfl, Nat.lt_succ_self 1⟩)
    | killFailed error => exact .inr (.inr (.inr ⟨_, rfl, fun _ => rfl⟩))
  | terminating reason =>
    cases event with
    | killFailed error => exact .inr (.inr (.inr ⟨_, rfl, fun _ => rfl⟩))
    | ready => exact .inr (.inr (.inr ⟨_, rfl, fun _ => rfl⟩))
    | expired => exact .inr (.inr (.inr ⟨_, rfl, fun _ => rfl⟩))
    | writerGone => exact .inr (.inr (.inr ⟨_, rfl, fun _ => rfl⟩))
    | writeFailed error => exact .inr (.inr (.inr ⟨_, rfl, fun _ => rfl⟩))

/-- A frame over the limit is refused before anything else is awaited. -/
theorem sendStep_oversized (self : Writer) {frame : Json} (event : SendEvent)
    (hshut : self.shutdownStarted = false) (hsize : self.maxFrameBytes < frame.encodedBytes) :
    self.sendStep frame .entering event =
      (self, .finished (.error (Error.new .protocol "jsonl.write"
        ("frame exceeds " ++ toString self.maxFrameBytes ++ " bytes")))) := by
  simp [sendStep, hshut, hsize]

end Writer

end Vergerail
