import Vergerail.Private.Codec

/-!
# Capturing the standard error of the child

`capture_stderr` of `src/private/process.rs`: the task reads up to 4096 bytes at a time and
pushes every line that ends in what it has read. A line longer than
`MAX_STDERR_LINE_BYTES` is given up, either when its newline is found or when the part of it
that is pending has grown too long, and then the rest of it is skipped, over as many reads as
it takes.

The index `consumed` of the source only serves to delay moving the bytes; here the bytes
from it on are carried along instead.
-/

namespace Vergerail

/-! ## Lossy text -/

/-- Whether `byte` can follow in a sequence: `byte & 192 == 128`. -/
def isContinuation (byte : UInt8) : Bool := 0x80 ≤ byte && byte ≤ 0xbf

/-- Whether `next` can follow the first byte of a sequence of three or four bytes: no longer
than needed, no surrogate, nothing above U+10FFFF. -/
def allowsSecond (first next : UInt8) : Bool :=
  isContinuation next &&
    (first != 0xe0 || 0xa0 ≤ next) && (first != 0xed || next ≤ 0x9f) &&
    (first != 0xf0 || 0x90 ≤ next) && (first != 0xf4 || next ≤ 0x8f)

/-- The bits that a continuation byte brings. -/
def continuationBits (byte : UInt8) : Nat := byte.toNat % 64

/-- The sequence that `first` begins: its character, or nothing where it breaks off, and how
many of the bytes after `first` it takes. A missing byte breaks it off like a zero. -/
def utf8Sequence (first : UInt8) (rest : List UInt8) : Option Char × Nat :=
  let byte (index : Nat) : UInt8 := rest[index]?.getD 0
  if first < 0x80 then (some (Char.ofNat first.toNat), 0)
  else if 0xc2 ≤ first && first ≤ 0xdf then
    if !isContinuation (byte 0) then (none, 0)
    else (some (Char.ofNat (first.toNat % 32 * 64 + continuationBits (byte 0))), 1)
  else if 0xe0 ≤ first && first ≤ 0xef then
    if !allowsSecond first (byte 0) then (none, 0)
    else if !isContinuation (byte 1) then (none, 1)
    else
      (some (Char.ofNat ((first.toNat % 16 * 64 + continuationBits (byte 0)) * 64
        + continuationBits (byte 1))), 2)
  else if 0xf0 ≤ first && first ≤ 0xf4 then
    if !allowsSecond first (byte 0) then (none, 0)
    else if !isContinuation (byte 1) then (none, 1)
    else if !isContinuation (byte 2) then (none, 2)
    else
      (some (Char.ofNat (((first.toNat % 8 * 64 + continuationBits (byte 0)) * 64
        + continuationBits (byte 1)) * 64 + continuationBits (byte 2))), 3)
  else (none, 0)

/-- The characters from the position on at which `skip` bytes are already taken. -/
def lossyChars : Nat → List UInt8 → List Char
  | _, [] => []
  | skip + 1, _ :: rest => lossyChars skip rest
  | 0, first :: rest =>
    let (char, taken) := utf8Sequence first rest
    char.getD '\uFFFD' :: lossyChars taken rest

/-- `String::from_utf8_lossy`: what does not decode is replaced, one U+FFFD for each longest
beginning of a sequence. -/
def fromUtf8Lossy (bytes : List UInt8) : String := String.ofList (lossyChars 0 bytes)

-- A lead byte cut off by an `A`, then a whole sequence.
example : fromUtf8Lossy [0xe2, 0x82, 0x41, 0xc3, 0xa9] = "\uFFFDAé" := by decide

/-! ## The loop -/

/-- `MAX_STDERR_LINE_BYTES`. -/
def maxStderrLineBytes : Nat := 64 * 1024

/-- `OVERSIZED_STDERR_LINE`. -/
def oversizedStderrLine : String := "<oversized stderr line omitted>"

/-- What a `read` into the buffer brings when it is not the end. -/
structure StderrChunk where
  bytes : List UInt8
  /-- `Ok(0)` is the end. -/
  nonempty : bytes ≠ []
  /-- The buffer has 4096 bytes. -/
  within : bytes.length ≤ 4096

/-- What is pushed for the line that ends at `relative`. -/
def stderrLine (unread : List UInt8) (relative : Nat) : String :=
  if relative > maxStderrLineBytes then oversizedStderrLine
  else
    let lineEnd :=
      if 0 < relative && unread[relative - 1]? == some cr then relative - 1 else relative
    fromUtf8Lossy (unread.take lineEnd)

/-- The inner loop: the lines that end in `unread`, and the bytes after the last of them. -/
def pushLines (unread : List UInt8) : List String × List UInt8 :=
  match _hfind : unread.findIdx? (· == lf) with
  | none => ([], unread)
  | some relative =>
    let (lines, rest) := pushLines (unread.drop (relative + 1))
    (stderrLine unread relative :: lines, rest)
  termination_by unread.length
  decreasing_by
    have hlt : relative < unread.length := (List.findIdx?_eq_some_iff_getElem.mp _hfind).1
    rw [List.length_drop]
    omega

/-- The variables that `capture_stderr` keeps from one read to the next. -/
structure CaptureState where
  pending : List UInt8
  discardingOversizedLine : Bool

namespace CaptureState

def new : CaptureState where
  pending := []
  discardingOversizedLine := false

/-- From the inner loop on: the lines that are pushed, and what is kept. -/
def ofUnread (unread : List UInt8) : List String × CaptureState :=
  let (lines, unread) := pushLines unread
  if unread.length > maxStderrLineBytes then
    (lines ++ [oversizedStderrLine], { pending := [], discardingOversizedLine := true })
  else (lines, { pending := unread, discardingOversizedLine := false })

/-- One pass of the outer loop: the lines it pushes, and what it keeps. -/
def read (self : CaptureState) (bytes : List UInt8) : List String × CaptureState :=
  let pending := self.pending ++ bytes
  if self.discardingOversizedLine then
    match pending.findIdx? (· == lf) with
    | none => ([], { self with pending := [] })
    | some position => ofUnread (pending.drop (position + 1))
  else ofUnread pending

/-- What is pushed after the last read. -/
def finish (self : CaptureState) : List String :=
  if !self.discardingOversizedLine && !self.pending.isEmpty then [fromUtf8Lossy self.pending]
  else []

/-- The loop over the reads, up to the one that fails or brings nothing. -/
def run (self : CaptureState) : List StderrChunk → List String
  | [] => self.finish
  | chunk :: chunks => (self.read chunk.bytes).1 ++ (self.read chunk.bytes).2.run chunks

end CaptureState

/-- `capture_stderr`: the lines that it pushes, in order. -/
def captureStderr (chunks : List StderrChunk) : List String := CaptureState.new.run chunks

end Vergerail
