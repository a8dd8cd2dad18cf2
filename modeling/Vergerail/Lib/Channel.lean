/-!
# Channels

The three channels an asynchronous program is built from, as values: a bounded
multi-producer queue, a one-shot slot, and a watch cell that keeps only the
latest value. Each records what was handed over, not only what is waiting, so
that a property of a whole run can speak about it.
-/

namespace Lib

/-- A bounded queue. -/
structure Mpsc (α : Type) where
  /-- How many values may wait. -/
  capacity : Nat
  /-- Every value the queue accepted, oldest first. -/
  sent : List α
  /-- How many of them the consumer has taken. -/
  received : Nat
  /-- The consumer is gone. -/
  closed : Bool
  deriving DecidableEq

/-- What a non-blocking send answers. -/
inductive TrySend where
  | ok
  | full
  | closed
  deriving DecidableEq, Repr

namespace Mpsc

variable {α : Type}

/-- A fresh queue. -/
def channel (capacity : Nat) : Mpsc α := ⟨capacity, [], 0, false⟩

/-- The values still waiting. -/
def waiting (c : Mpsc α) : List α := c.sent.drop c.received

/-- A non-blocking send. A closed queue refuses before a full one does. -/
def trySend (c : Mpsc α) (a : α) : TrySend × Mpsc α :=
  if c.closed then (.closed, c)
  else if c.capacity ≤ c.waiting.length then (.full, c)
  else (.ok, { c with sent := c.sent ++ [a] })

/-- The consumer takes the oldest waiting value, if there is one. -/
def recv (c : Mpsc α) : Mpsc α :=
  if c.received < c.sent.length then { c with received := c.received + 1 } else c

/-- The consumer is dropped. -/
def close (c : Mpsc α) : Mpsc α := { c with closed := true }

@[simp] theorem channel_sent (n : Nat) : (channel n : Mpsc α).sent = [] := rfl

@[simp] theorem recv_sent (c : Mpsc α) : c.recv.sent = c.sent := by
  unfold recv; split <;> rfl

@[simp] theorem close_sent (c : Mpsc α) : c.close.sent = c.sent := rfl

end Mpsc

/-- A cell that keeps the latest value for any number of receivers. -/
structure Watch (α : Type) where
  /-- The latest value. -/
  value : α
  /-- How many receivers exist. -/
  receivers : Nat
  deriving DecidableEq

namespace Watch

variable {α : Type}

/-- A fresh cell with the one receiver its constructor hands out. -/
def channel (a : α) : Watch α := ⟨a, 1⟩

/-- `send` stores the value only while somebody can receive it. -/
def send (w : Watch α) (a : α) : Watch α :=
  if w.receivers = 0 then w else { w with value := a }

/-- `send_replace` stores the value whether or not a receiver exists. -/
def sendReplace (w : Watch α) (a : α) : Watch α := { w with value := a }

/-- A receiver is dropped. -/
def dropReceiver (w : Watch α) : Watch α := { w with receivers := w.receivers - 1 }

@[simp] theorem channel_value (a : α) : (channel a).value = a := rfl

@[simp] theorem channel_receivers (a : α) : (channel a).receivers = 1 := rfl

@[simp] theorem sendReplace_value (w : Watch α) (a : α) : (w.sendReplace a).value = a := rfl

@[simp] theorem send_receivers (w : Watch α) (a : α) :
    (w.send a).receivers = w.receivers := by
  unfold send; split <;> rfl

/-- A live receiver sees what was sent. -/
theorem send_value {w : Watch α} (h : w.receivers ≠ 0) (a : α) : (w.send a).value = a := by
  unfold send; rw [if_neg h]

/-- A send leaves the old value or stores the new one. -/
theorem send_value_cases (w : Watch α) (a : α) :
    (w.send a).value = w.value ∨ (w.send a).value = a := by
  unfold send; split
  · exact Or.inl rfl
  · exact Or.inr rfl

end Watch

/-- A slot that carries at most one value to one receiver. -/
inductive Oneshot (α : Type) where
  /-- The sender still exists and has sent nothing. -/
  | empty
  /-- The sender was dropped without sending. -/
  | senderDropped
  /-- A value waits for the receiver. -/
  | full (a : α)
  /-- The receiver took the value. -/
  | taken
  /-- The receiver was dropped before it took a value. -/
  | receiverDropped
  deriving DecidableEq, Repr

namespace Oneshot

variable {α : Type}

/-- Sending: whether the receiver was still there, and the slot afterwards. -/
def send (c : Oneshot α) (a : α) : Bool × Oneshot α :=
  match c with
  | .empty => (true, .full a)
  | c => (false, c)

end Oneshot

end Lib
