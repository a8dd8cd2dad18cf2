import Vergerail.Client.Router
import Vergerail.Event
import Vergerail.Lib.CharBoundary
import Vergerail.Lib.Machine

/-!
# Diagnostics outside a run

`DiagnosticBuffer` of `src/event.rs`. The items and their byte count are under two mutexes.
What `push` does while it holds both is one function of the two values; `DiagnosticWorld` is
any number of threads that call `push` and `take`, at the granularity of locking and
unlocking the mutexes.
-/

namespace Vergerail

open Lib

/-- `DIAGNOSTIC_CAPACITY`. -/
def diagnosticCapacity : Nat := 128

/-- `DIAGNOSTIC_ITEM_BYTES`. -/
def diagnosticItemBytes : Nat := 8 * 1024

/-- `DIAGNOSTIC_TOTAL_BYTES`. -/
def diagnosticTotalBytes : Nat := 1024 * 1024

/-- `usize::saturating_add`. -/
def saturatingAdd (a b : Nat) : Nat := min (a + b) usizeMax

/-- `diagnostic_bytes`. -/
def diagnosticBytes (diagnostic : Diagnostic) : Nat :=
  saturatingAdd diagnostic.method.utf8ByteSize diagnostic.message.utf8ByteSize

/-- `String::truncate` at the last boundary up to a limit. -/
def truncateBelow (text : String) (limit : Nat) : String :=
  String.ofList (takeBytes text.toList (boundaryBelow text.toList limit))

/-- `bound_diagnostic`. -/
def boundDiagnostic (diagnostic : Diagnostic) : Diagnostic :=
  let method := truncateBelow diagnostic.method
    (min diagnostic.method.utf8ByteSize diagnosticItemBytes)
  let messageLimit := diagnosticItemBytes - method.utf8ByteSize
  { method
    message :=
      if messageLimit < diagnostic.message.utf8ByteSize then
        truncateBelow diagnostic.message messageLimit
      else diagnostic.message }

/-- The method of the overflow marker. -/
def overflowMethod : String := "vergerail/diagnosticsOverflow"

/-- The overflow marker. -/
def overflowMarker : Diagnostic where
  method := overflowMethod
  message := "older diagnostics were discarded after reaching a bounded count or byte limit"

/-- `has_overflow`. -/
def hasOverflow (items : List Diagnostic) : Bool :=
  items.any (fun item => item.method = overflowMethod)

/-- A loop of `push`: the oldest items are removed while there is too much. -/
def evictWhile (tooMuch : List Diagnostic → Nat → Bool) :
    List Diagnostic → Nat → List Diagnostic × Nat
  | [], bytes => ([], bytes)
  | removed :: items, bytes =>
    if tooMuch (removed :: items) bytes then
      evictWhile tooMuch items (bytes - diagnosticBytes removed)
    else (removed :: items, bytes)

/-- Too much for an item of this size. -/
def isFull (size : Nat) (items : List Diagnostic) (bytes : Nat) : Bool :=
  diagnosticCapacity ≤ items.length || diagnosticTotalBytes < saturatingAdd bytes size

/-- Too much for an item of this size and the overflow marker. -/
def isFullWithMarker (size : Nat) (items : List Diagnostic) (bytes : Nat) : Bool :=
  diagnosticCapacity - 1 ≤ items.length
    || diagnosticTotalBytes < saturatingAdd (saturatingAdd bytes size)
        (if hasOverflow items then 0 else diagnosticBytes overflowMarker)

/-- What `push` does when there is no room. -/
def makeRoom (size : Nat) (items : List Diagnostic) (bytes : Nat) : List Diagnostic × Nat :=
  if isFull size items bytes then
    let (items, bytes) := evictWhile (isFullWithMarker size) items bytes
    if !hasOverflow items && items.length < diagnosticCapacity then
      (items ++ [overflowMarker], saturatingAdd bytes (diagnosticBytes overflowMarker))
    else (items, bytes)
  else (items, bytes)

/-- What `push` does with both mutexes. -/
def pushDiagnostic (diagnostic : Diagnostic) (items : List Diagnostic) (bytes : Nat) :
    List Diagnostic × Nat :=
  let diagnostic := boundDiagnostic diagnostic
  let size := diagnosticBytes diagnostic
  let (items, bytes) := makeRoom size items bytes
  let (items, bytes) := evictWhile (isFull size) items bytes
  (items ++ [diagnostic], saturatingAdd bytes size)

/-! ## One call at a time -/

/-- `DiagnosticBuffer`. -/
structure DiagnosticBuffer where
  items : List Diagnostic
  bytes : Nat
  deriving DecidableEq, Repr

/-- A call of the buffer's methods. -/
inductive DiagnosticCall where
  | push (diagnostic : Diagnostic)
  | take
  deriving DecidableEq, Repr

namespace DiagnosticBuffer

/-- `new`. -/
def new : DiagnosticBuffer where
  items := []
  bytes := 0

/-- `push`. -/
def push (self : DiagnosticBuffer) (diagnostic : Diagnostic) : DiagnosticBuffer :=
  let (items, bytes) := pushDiagnostic diagnostic self.items self.bytes
  { items, bytes }

/-- `take`. -/
def take (self : DiagnosticBuffer) : List Diagnostic × DiagnosticBuffer :=
  (self.items, { items := [], bytes := 0 })

/-- A call that runs alone. -/
def call (self : DiagnosticBuffer) : DiagnosticCall → DiagnosticBuffer
  | .push diagnostic => self.push diagnostic
  | .take => self.take.2

/-- Calls one after the other, on a new buffer. -/
def run (calls : List DiagnosticCall) : DiagnosticBuffer := calls.foldl call new

end DiagnosticBuffer

/-! ## Calls of many threads -/

/-- Where a thread is in a call. -/
inductive DiagnosticPoint where
  /-- Between calls. -/
  | idle
  /-- `push`, before it has the items. -/
  | pushing (diagnostic : Diagnostic)
  /-- `push` with the items, before it has the bytes. -/
  | pushingItems (diagnostic : Diagnostic)
  /-- `push` with both. -/
  | pushingBoth (diagnostic : Diagnostic)
  /-- `push` with both, done. -/
  | pushed
  /-- `push` has given the bytes back. -/
  | pushedItems
  /-- `take`, before it has the items. -/
  | taking
  /-- `take` with the items. -/
  | takingItems
  /-- `take` with the items, which are drained. -/
  | drained
  /-- `take` without a mutex: the guard of the items lived for one statement. -/
  | between
  /-- `take` with the bytes. -/
  | resetting
  /-- `take` with the bytes, which are 0. -/
  | reset
  deriving DecidableEq, Repr

/-- A buffer and the threads that call it. -/
structure DiagnosticWorld (T : Type) where
  items : List Diagnostic
  bytes : Nat
  itemsLock : Option T
  bytesLock : Option T
  point : T → DiagnosticPoint

namespace DiagnosticWorld

variable {T : Type} [DecidableEq T]

/-- Everybody is between calls. -/
def init : DiagnosticWorld T where
  items := []
  bytes := 0
  itemsLock := none
  bytesLock := none
  point := fun _ => .idle

def goto (w : DiagnosticWorld T) (t : T) (point : DiagnosticPoint) : DiagnosticWorld T :=
  { w with point := fun u => if u = t then point else w.point u }

/-- A step of a thread: the start of a call, or the next step of the one it is in. A thread
that waits for a mutex makes none. -/
inductive Label (T : Type) where
  | start (t : T) (call : DiagnosticCall)
  | advance (t : T)

/-- The next step of a call. -/
def advance (w : DiagnosticWorld T) (t : T) : DiagnosticWorld T :=
  match w.point t with
  | .idle => w
  | .pushing diagnostic =>
    if w.itemsLock = none then
      { w with itemsLock := some t }.goto t (.pushingItems diagnostic)
    else w
  | .pushingItems diagnostic =>
    if w.bytesLock = none then
      { w with bytesLock := some t }.goto t (.pushingBoth diagnostic)
    else w
  | .pushingBoth diagnostic =>
    let (items, bytes) := pushDiagnostic diagnostic w.items w.bytes
    { w with items, bytes }.goto t .pushed
  | .pushed => { w with bytesLock := none }.goto t .pushedItems
  | .pushedItems => { w with itemsLock := none }.goto t .idle
  | .taking =>
    if w.itemsLock = none then { w with itemsLock := some t }.goto t .takingItems else w
  | .takingItems => { w with items := [] }.goto t .drained
  | .drained => { w with itemsLock := none }.goto t .between
  | .between =>
    if w.bytesLock = none then { w with bytesLock := some t }.goto t .resetting else w
  | .resetting => { w with bytes := 0 }.goto t .reset
  | .reset => { w with bytesLock := none }.goto t .idle

def step (w : DiagnosticWorld T) : Label T → DiagnosticWorld T
  | .start t call =>
    match w.point t, call with
    | .idle, .push diagnostic => w.goto t (.pushing diagnostic)
    | .idle, .take => w.goto t .taking
    | _, _ => w
  | .advance t => w.advance t

/-- Any number of threads on one buffer. -/
def machine (T : Type) [DecidableEq T] : Machine (DiagnosticWorld T) (Label T) where
  init := init
  step := step

/-- No call is in progress. -/
def Quiet (w : DiagnosticWorld T) : Prop := ∀ t, w.point t = .idle

end DiagnosticWorld

/-- The bytes of the items. -/
def totalBytes (items : List Diagnostic) : Nat := (items.map diagnosticBytes).sum

end Vergerail
