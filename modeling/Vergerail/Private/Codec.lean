import Vergerail.Json

/-!
# Reading JSON Lines

`JsonLinesReader` of `src/private/codec.rs`. The reader keeps what it has read in a
buffer, of which the part from `start` on is unread, and asks the underlying reader for a
bounded number of bytes when no line ends in it. What the bytes of a frame parse to is the
JSON parser's business, so the parser is a parameter: a function of the frame's text.

A `Vec` never holds more than `isize::MAX` bytes, so the saturating sums of the source,
which differ from plain ones only next to `usize::MAX`, are written as plain ones.
-/

namespace Vergerail

/-- The byte `\n`. -/
def lf : UInt8 := 10

/-- The byte `\r`. -/
def cr : UInt8 := 13

/-- `frame_too_large`. -/
def frameTooLarge (operation : String) (maxFrameBytes : Nat) : Error :=
  Error.new .protocol operation ("frame exceeds " ++ toString maxFrameBytes ++ " bytes")

/-- `std::str::from_utf8`. -/
def fromUtf8 (bytes : List UInt8) : Option String := String.fromUTF8? ⟨bytes.toArray⟩

/-- `parse_frame`, over what `serde_json::from_str` answers. -/
def parseFrame (fromStr : String → Except String Json) (frame : List UInt8) : Result Json :=
  match fromUtf8 frame with
  | none => .error (Error.new .protocol "jsonl.read" "frame was not valid UTF-8")
  | some text =>
    match fromStr text with
    | .error error =>
        .error (Error.new .protocol "jsonl.read" ("invalid JSON frame: " ++ error))
    | .ok value => .ok value

/-- `JsonLinesReader` without its underlying reader. -/
structure JsonLinesReader where
  buffer : List UInt8
  start : Nat
  maxFrameBytes : Nat
  eof : Bool
  deriving DecidableEq, Repr

/-- The underlying reader: the chunks in which the bytes arrive, oldest first. -/
abbrev Chunks := List (List UInt8)

/-- A read into a buffer of `size` bytes takes what it can of the oldest chunk. -/
def Chunks.read : Chunks → Nat → List UInt8 × Chunks
  | [], _ => ([], [])
  | chunk :: rest, size =>
      (chunk.take size, if chunk.length ≤ size then rest else chunk.drop size :: rest)

namespace JsonLinesReader

def new (maxFrameBytes : Nat) : JsonLinesReader where
  buffer := []
  start := 0
  maxFrameBytes
  eof := false

/-- `self.buffer[self.start..]`. -/
def unread (self : JsonLinesReader) : List UInt8 := self.buffer.drop self.start

/-- Where the frame ends whose newline is at `position`: a carriage return before the
newline does not belong to it. -/
def frameEnd (self : JsonLinesReader) (position : Nat) : Nat :=
  if self.start < position && self.buffer[position - 1]? == some cr then position - 1
  else position

/-- `self.start = position + 1`, and the buffer is emptied when all of it was read. -/
def advance (self : JsonLinesReader) (position : Nat) : JsonLinesReader :=
  if position + 1 = self.buffer.length then { self with buffer := [], start := 0 }
  else { self with start := position + 1 }

/-- The unread bytes move to the front of the buffer. -/
def compact (self : JsonLinesReader) : JsonLinesReader :=
  if 0 < self.start then { self with buffer := self.unread, start := 0 } else self

/-- How many bytes the next read asks for. -/
def chunkSize (self : JsonLinesReader) : Nat :=
  max 1 (min 8192 (self.maxFrameBytes + 2 - self.buffer.length))

/-- What the body of the loop of `next` comes to. -/
inductive Pass where
  /-- It returns. -/
  | returned (result : Result (Option Json)) (reader : JsonLinesReader)
  /-- It reads up to `size` bytes and goes round again. -/
  | read (reader : JsonLinesReader) (size : Nat)

/-- The body of the loop of `next`, up to its read. -/
def pass (fromStr : String → Except String Json) (self : JsonLinesReader) : Pass :=
  match self.unread.findIdx? (· == lf) with
  | some relative =>
    let position := self.start + relative
    let frame := self.unread.take (self.frameEnd position - self.start)
    if frame.length > self.maxFrameBytes then
      .returned (.error (frameTooLarge "jsonl.read" self.maxFrameBytes)) self
    else if frame.isEmpty then
      .returned (.error (Error.new .protocol "jsonl.read" "empty JSONL frames are not allowed"))
        self
    else .returned ((parseFrame fromStr frame).map some) (self.advance position)
  | none =>
    if self.buffer.length - self.start > self.maxFrameBytes + 1 then
      .returned (.error (frameTooLarge "jsonl.read" self.maxFrameBytes)) self
    else if self.eof then
      if self.buffer.length - self.start = 0 then .returned (.ok none) self
      else
        .returned (.error (Error.new .protocol "jsonl.read"
          "EOF occurred in the middle of a JSONL frame")) self
    else .read self.compact self.compact.chunkSize

/-- The buffer takes the bytes that a read answered; none at all is the end. -/
def receive (self : JsonLinesReader) (bytes : List UInt8) : JsonLinesReader :=
  { self with buffer := self.buffer ++ bytes, eof := self.eof || bytes.isEmpty }

/-- How much there is still to read. -/
def toRead (self : JsonLinesReader) (chunks : Chunks) : Nat :=
  chunks.flatten.length + if self.eof then 0 else 1

end JsonLinesReader

/-- What a read leaves and what it answers are what there was. -/
theorem Chunks.read_append (chunks : Chunks) (size : Nat) :
    (chunks.read size).1 ++ (chunks.read size).2.flatten = chunks.flatten := by
  unfold Chunks.read
  rcases chunks with _ | ⟨chunk, rest⟩
  · rfl
  · dsimp only
    split
    · rename_i hall
      rw [List.take_of_length_le hall]
      rfl
    · rw [List.flatten_cons, ← List.append_assoc, List.take_append_drop]
      rfl

theorem Chunks.read_length (chunks : Chunks) (size : Nat) :
    (chunks.read size).1.length + (chunks.read size).2.flatten.length
      = chunks.flatten.length := by
  rw [← List.length_append, chunks.read_append size]

namespace JsonLinesReader

variable {fromStr : String → Except String Json} {self self' : JsonLinesReader} {size : Nat}

/-- When the loop reads. -/
theorem pass_read (h : self.pass fromStr = .read self' size) :
    self.unread.findIdx? (· == lf) = none
      ∧ self.buffer.length - self.start ≤ self.maxFrameBytes + 1
      ∧ self.eof = false ∧ self' = self.compact ∧ size = self.compact.chunkSize := by
  unfold pass at h
  split at h
  · dsimp only at h
    split at h
    · simp at h
    · split at h <;> simp at h
  · rename_i hnone
    split at h
    · simp at h
    · rename_i hroom
      split at h
      · split at h <;> simp at h
      · rename_i heof
        cases h
        exact ⟨hnone, by omega, by simpa using heof, rfl, rfl⟩

@[simp] theorem compact_eof (self : JsonLinesReader) : self.compact.eof = self.eof := by
  unfold compact
  split <;> rfl

/-- Every read leaves less to read. -/
theorem toRead_receive_lt (h : self.pass fromStr = .read self' size) (chunks : Chunks) :
    (self'.receive (chunks.read size).1).toRead (chunks.read size).2 < self.toRead chunks := by
  obtain ⟨-, -, heof, rfl, rfl⟩ := pass_read h
  have hlength := chunks.read_length self.compact.chunkSize
  unfold toRead receive
  rw [compact_eof, heof]
  rcases hbytes : (chunks.read self.compact.chunkSize).1 with _ | ⟨byte, bytes⟩
  · rw [hbytes, List.length_nil] at hlength
    simp only [List.isEmpty_nil, Bool.or_true, if_true, Bool.false_eq_true, if_false]
    omega
  · rw [hbytes, List.length_cons] at hlength
    simp only [List.isEmpty_cons, Bool.or_false, Bool.false_eq_true, if_false]
    omega

/-- `JsonLinesReader::next`, with what is left of the underlying reader. -/
def next (fromStr : String → Except String Json) (self : JsonLinesReader) (chunks : Chunks) :
    Result (Option Json) × JsonLinesReader × Chunks :=
  match _hpass : self.pass fromStr with
  | .returned result self' => (result, self', chunks)
  | .read self' size =>
      next fromStr (self'.receive (chunks.read size).1) (chunks.read size).2
termination_by self.toRead chunks
decreasing_by exact toRead_receive_lt _hpass chunks

end JsonLinesReader

end Vergerail
