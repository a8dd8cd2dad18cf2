import Vergerail.Lib.Trapping
import Vergerail.Png

/-!
# The PNG check, operation by operation

`validate_png` of `src/image.rs` once more, with the operations that may trap: every
addition, subtraction and product of the source, every index and slice, the conversions to
arrays, the branch marked unreachable. The loop over the chunks is given a number of rounds
and traps when these run out. A part of the check that has no such operation is the one of
`Vergerail.Png`.

The row buffers are allocated from a record of the raw size that was checked; the source
keeps no such record, and allocating without it is a trap here.
-/

namespace Vergerail.PngExec

open Lib Lib.Exec

/-- `isize::MAX`, the size of the largest allocation. -/
def isizeMax : Nat := 2 ^ 63 - 1

/-- A `&[u8]`. -/
structure ByteSlice where
  bytes : List UInt8
  fits : bytes.length ≤ isizeMax

abbrev Run (α : Type) := Exec Error α

/-! ## Arithmetic -/

def add (a b : Nat) : Run Nat := addWithin usizeMax a b

def mul (a b : Nat) : Run Nat := mulWithin usizeMax a b

def sub (a b : Nat) : Run Nat := subWithin a b

/-- The largest `u16`. -/
def u16Max : Nat := 2 ^ 16 - 1

/-- An `i32`. -/
def i32 (z : Int) : Run Int := intWithin (-(2 ^ 31)) (2 ^ 31 - 1) z

/-- `i32::abs`, which overflows where its result is no `i32`. -/
def i32Abs (z : Int) : Run Int := i32 z.natAbs

/-- `a || b`. -/
def orElse (a : Bool) (b : Run Bool) : Run Bool := if a then return true else b

/-- `a && b`. -/
def andAlso (a : Bool) (b : Run Bool) : Run Bool := if a then b else return false

/-- `u32::from_be_bytes(bytes[from..to].try_into().unwrap())`. -/
def readBe (bytes : List UInt8) (start stop : Nat) : Run Nat := do
  let field ← slice bytes start stop
  let array ← toArray 4 field
  return Png.fromBe array

/-- `png_channels`. -/
def pngChannels (colorType : UInt8) : Run Nat :=
  match colorType with
  | 0 => return 1
  | 3 => return 1
  | 2 => return 3
  | 4 => return 2
  | 6 => return 4
  | _ => trap .unreachable

/-- `png_expected_raw_bytes`. -/
def pngExpectedRawBytes (width height : Nat) (colorType : UInt8) : Run Nat := do
  let channels ← pngChannels colorType
  lift (orFault (((checkedMul width channels).bind (checkedAdd · 1)).bind (checkedMul · height))
    (pngLimit "PNG dimensions exceed decoder bounds"))

/-- `paeth_predictor`. -/
def paethPredictor (left up upperLeft : UInt8) : Run UInt8 := do
  let sum ← i32 (left.toNat + up.toNat)
  let estimate ← i32 (sum - upperLeft.toNat)
  let leftDistance ← i32Abs (← i32 (estimate - left.toNat))
  let upDistance ← i32Abs (← i32 (estimate - up.toNat))
  let upperLeftDistance ← i32Abs (← i32 (estimate - upperLeft.toNat))
  return (
    if leftDistance ≤ upDistance ∧ leftDistance ≤ upperLeftDistance then left
    else if upDistance ≤ upperLeftDistance then up
    else upperLeft)

/-! ## Chunks -/

/-- A chunk of the data: `length` is its length field, `chunkEnd` the offset after it. -/
structure Chunk where
  length : Nat
  chunkType : List UInt8
  data : List UInt8
  chunkEnd : Nat

/-- The first part of the loop's body: the chunk at an offset. -/
def takeChunk (bytes : List UInt8) (offset : Nat) : Run Chunk := do
  let left ← sub bytes.length offset
  lift (refuse (left < 12) (pngFault "PNG chunk is truncated"))
  let length ← readBe bytes offset (← add offset 4)
  let chunkEnd ← lift (orFault ((checkedAdd offset 12).bind (checkedAdd · length))
    (pngLimit "PNG chunk length overflow"))
  lift (refuse (bytes.length < chunkEnd) (pngFault "PNG chunk exceeds response"))
  let chunkType ← slice bytes (← add offset 4) (← add offset 8)
  let data ← slice bytes (← add offset 8) (← add (← add offset 8) length)
  let observedCrc ← readBe bytes (← add (← add offset 8) length) chunkEnd
  let covered ← slice bytes (← add offset 4) (← add (← add offset 8) length)
  lift (refuse ((pngCrc32 covered).toNat ≠ observedCrc) (pngFault "PNG chunk CRC mismatch"))
  return { length, chunkType, data, chunkEnd }

/-- What the loop over the chunks has found. -/
structure ScanRun where
  scan : PngScan
  /-- The raw size that passed its check; the source does not keep it. -/
  rawChecked : Option Nat

namespace ScanRun

def new : ScanRun where
  scan := PngScan.new
  rawChecked := none

/-- The branch for `IHDR`. -/
def readIhdr (run : ScanRun) (offset : Nat) (chunk : Chunk) : Run ScanRun := do
  lift (refuse (run.scan.ihdr.isSome || chunk.length ≠ 13 || offset ≠ 8)
    (pngFault "PNG has an invalid IHDR"))
  let width ← readBe chunk.data 0 4
  let height ← readBe chunk.data 4 8
  let bitDepth ← index chunk.data 8
  let colorType ← index chunk.data 9
  let unsupported ← orElse (width = 0 || height = 0 || 8192 < width || 8192 < height
      || bitDepth ≠ 8 || !([0, 2, 3, 4, 6] : List UInt8).contains colorType) (do
    orElse ((← index chunk.data 10) ≠ 0) (do
      orElse ((← index chunk.data 11) ≠ 0) (do
        return (← index chunk.data 12) ≠ 0)))
  lift (refuse unsupported (pngFault "PNG IHDR dimensions or format are unsupported"))
  let expectedRaw ← pngExpectedRawBytes width height colorType
  lift (refuse (maxPngRawBytes < expectedRaw)
    (pngLimit ("PNG decompressed data exceeds " ++ toString maxPngRawBytes ++ " bytes")))
  return {
    scan := { run.scan with ihdr := some (width, height, colorType) }
    rawChecked := some expectedRaw }

/-- The branch for `PLTE`. -/
def readPlte (run : ScanRun) (chunk : Chunk) : Run ScanRun := do
  let scan ← lift (run.scan.readPlte chunk.data)
  return { run with scan }

/-- `data.chunks_exact(2)`. -/
def chunksExact2 : List UInt8 → List (List UInt8)
  | high :: low :: rest => [high, low] :: chunksExact2 rest
  | _ => []

/-- `Iterator::all`. -/
def allSamples (good : List UInt8 → Run Bool) : List (List UInt8) → Run Bool
  | [] => return true
  | sample :: rest => do andAlso (← good sample) (allSamples good rest)

/-- Whether transparency data is valid. -/
def transparencyValid (palette : Option (List UInt8)) (colorType : UInt8) (chunk : Chunk) :
    Run Bool :=
  match colorType with
  | 0 => andAlso (chunk.length = 2) (do return (← index chunk.data 0) = 0)
  | 2 => andAlso (chunk.length = 6)
      (allSamples (fun sample => do return (← index sample 0) = 0) (chunksExact2 chunk.data))
  | 3 => return palette.any (fun colors =>
      chunk.length ≤ colors.length / 3 && 0 < chunk.length)
  | _ => return false

/-- The branch for `tRNS`. -/
def readTrns (run : ScanRun) (chunk : Chunk) : Run ScanRun := do
  let (_, _, colorType) ← lift (orFault run.scan.ihdr (pngFault "PNG tRNS appears before IHDR"))
  lift (refuse (run.scan.idatSeen || run.scan.transparency.isSome)
    (pngFault "PNG has a duplicate or misplaced tRNS"))
  let valid ← transparencyValid run.scan.palette colorType chunk
  lift (refuse (!valid) (pngFault "PNG has invalid transparency data"))
  return { run with scan := { run.scan with transparency := some chunk.data } }

/-- The branch for `IDAT`. -/
def readIdat (run : ScanRun) (chunk : Chunk) : Run ScanRun := do
  let (_, _, colorType) ← lift (orFault run.scan.ihdr (pngFault "PNG IDAT is missing IHDR"))
  lift (refuse ((colorType = 3 && run.scan.palette.isNone) || run.scan.idatClosed)
    (pngFault (if colorType = 3 && run.scan.palette.isNone then
        "indexed PNG IDAT appears before PLTE"
      else "PNG IDAT is not contiguous")))
  let idat ← extend isizeMax run.scan.idat chunk.data
  lift (refuse (maxImageJsonBytes < idat.length)
    (pngLimit "PNG compressed data exceeds the bound"))
  return { run with scan := { run.scan with idatSeen := true, idat } }

/-- The branch for `IEND`. -/
def readIend (run : ScanRun) (atEnd : Bool) (chunk : Chunk) : Run ScanRun := do
  let scan ← lift (run.scan.readIend atEnd chunk.data)
  return { run with scan }

/-- The branch for any other type. -/
def readOther (run : ScanRun) (chunk : Chunk) : Run ScanRun := do
  lift (refuse run.scan.ihdr.isNone (pngFault "PNG contains a chunk before IHDR"))
  let first ← index chunk.chunkType 0
  lift (refuse (0x41 ≤ first && first ≤ 0x5a) (pngFault "PNG contains an unknown critical chunk"))
  return (if run.scan.idatSeen then { run with scan := { run.scan with idatClosed := true } }
    else run)

/-- The branches, by the type of the chunk. -/
def readTyped (run : ScanRun) (offset : Nat) (atEnd : Bool) (chunk : Chunk) : Run ScanRun :=
  if chunk.chunkType = Png.ihdr then run.readIhdr offset chunk
  else if chunk.chunkType = Png.plte then run.readPlte chunk
  else if chunk.chunkType = Png.trns then run.readTrns chunk
  else if chunk.chunkType = Png.idat then run.readIdat chunk
  else if chunk.chunkType = Png.iend then run.readIend atEnd chunk
  else run.readOther chunk

/-- The body of the loop, after the chunk was taken. -/
def readChunk (run : ScanRun) (offset : Nat) (atEnd : Bool) (chunk : Chunk) : Run ScanRun := do
  lift (refuse run.scan.sawIend (pngFault "PNG contains a chunk after IEND"))
  let next ← run.readTyped offset atEnd chunk
  return { next with scan := next.scan.close chunk.chunkType }

end ScanRun

/-- The loop over the chunks, with the rounds it may take. -/
def scanChunks (bytes : List UInt8) : Nat → Nat → ScanRun → Run ScanRun
  | 0, _, _ => trap .endless
  | rounds + 1, offset, run =>
    if offset < bytes.length then do
      let chunk ← takeChunk bytes offset
      let next ← run.readChunk offset (chunk.chunkEnd = bytes.length) chunk
      scanChunks bytes rounds chunk.chunkEnd next
    else return run

/-! ## Rows -/

/-- The sample one pixel before, for `left` and `upper_left`. -/
def sampleBehind (row : List UInt8) (channels i : Nat) : Run UInt8 :=
  if channels ≤ i then do
    index row (← sub i channels)
  else return 0

/-- The sample that takes the place of the one at `index`. -/
def unfilterSample (filter : List UInt8) (channels : Nat) (previous current : List UInt8)
    (i : Nat) : Run UInt8 := do
  let value ← index current i
  let left ← sampleBehind current channels i
  let up ← index previous i
  let upperLeft ← sampleBehind previous channels i
  match ← index filter 0 with
  | 0 => return value
  | 1 => return value + left
  | 2 => return value + up
  | 3 => do return value + UInt8.ofNat ((← addWithin u16Max left.toNat up.toNat) / 2)
  | 4 => do return value + (← paethPredictor left up upperLeft)
  | _ => lift (.error (pngFault "PNG row uses an unsupported filter"))

/-- The loop over the samples of a row, in place. -/
def unfilterRow (filter : List UInt8) (channels rowBytes : Nat)
    (previous current : List UInt8) : Run (List UInt8) :=
  (List.range rowBytes).foldlM (fun row i => do
    let sample ← unfilterSample filter channels previous row i
    store row i sample) current

/-- `transparent_gray`. -/
def transparentGray (colorType : UInt8) (transparency : Option (List UInt8)) :
    Run (Option UInt8) :=
  match transparency.filter (fun _ => colorType = 0) with
  | none => return none
  | some value => do return some (← index value 1)

/-- `transparent_rgb`. -/
def transparentRgb (colorType : UInt8) (transparency : Option (List UInt8)) :
    Run (Option (List UInt8)) :=
  match transparency.filter (fun _ => colorType = 2) with
  | none => return none
  | some value => do return some [← index value 1, ← index value 3, ← index value 5]

/-- What the row loop reads besides the rows. -/
structure RowContext where
  colorType : UInt8
  channels : Nat
  palette : Option (List UInt8)
  transparency : Option (List UInt8)
  transparentGray : Option UInt8
  transparentRgb : Option (List UInt8)

/-- Whether the pixel that starts at `start` is transparent. -/
def pixelTransparent (context : RowContext) (row : List UInt8) (start : Nat) : Run Bool :=
  match context.colorType with
  | 0 =>
      match context.transparentGray with
      | none => return false
      | some sample => do return (← index row start) = sample
  | 2 =>
      match context.transparentRgb with
      | none => return false
      | some sample => do return (← slice row start (← add start 3)) = sample
  | 3 => do
      let i := (← index row start).toNat
      let palette ← lift (orFault context.palette (pngFault "indexed PNG is missing PLTE"))
      lift (refuse (palette.length / 3 ≤ i) (pngFault "indexed PNG pixel is outside PLTE"))
      return context.transparency.any (fun alpha => (alpha[i]?).getD 255 < 255)
  | 4 => do return (← index row (← add start 1)) < 255
  | 6 => do return (← index row (← add start 3)) < 255
  | _ => return false

/-- The loop over the pixels of a row. -/
def scanPixels (context : RowContext) (width : Nat) (row : List UInt8) (seen : Bool) :
    Run Bool :=
  (List.range width).foldlM (fun seen pixel => do
    let transparent ← pixelTransparent context row (← mul pixel context.channels)
    return seen || transparent) seen

/-- The loop over the rows, `count` of which are left. -/
def scanRows (context : RowContext) (width rowBytes : Nat) :
    Nat → List UInt8 → Inflated → Bool → Run (Bool × Inflated)
  | 0, _, decoder, seen => return (seen, decoder)
  | count + 1, previous, decoder, seen => do
      let (filter, decoder) ← lift (orFault (decoder.readExact 1)
        (pngFault "PNG IDAT is not valid zlib data"))
      let (current, decoder) ← lift (orFault (decoder.readExact rowBytes)
        (pngFault "PNG decompressed data length does not match IHDR"))
      let row ← unfilterRow filter context.channels rowBytes previous current
      let seen ← scanPixels context width row seen
      scanRows context width rowBytes count row decoder seen

/-- A zeroed row buffer. Its raw size must have been checked. -/
def rowBuffer (rawChecked : Option Nat) (height channels width rowBytes : Nat) :
    Run (List UInt8) :=
  if rawChecked = some (height * (1 + width * channels))
      ∧ height * (1 + width * channels) ≤ maxPngRawBytes then
    return List.replicate rowBytes 0
  else trap .unchecked

/-- `validate_png`, with the rounds its loop over the chunks may take. -/
def validatePng (inflate : List UInt8 → Inflated) (rounds : Nat) (input : ByteSlice) :
    Run PngInfo := do
  let bytes := input.bytes
  lift (refuse (bytes.length < 33 || bytes.take 8 ≠ Png.signature)
    (pngFault "image response is not a PNG"))
  let run ← scanChunks bytes rounds 8 ScanRun.new
  let scan := run.scan
  let (width, height, colorType) ← lift (orFault scan.ihdr (pngFault "PNG is missing IHDR"))
  lift (refuse (!scan.sawIend) (pngFault "PNG is missing IEND"))
  lift (refuse (colorType = 3 && scan.palette.isNone) (pngFault "indexed PNG is missing PLTE"))
  let channels ← pngChannels colorType
  let rowBytes ← lift (orFault (checkedMul width channels)
    (pngLimit "PNG row size exceeds decoder bounds"))
  let previous ← rowBuffer run.rawChecked height channels width rowBytes
  let _current ← rowBuffer run.rawChecked height channels width rowBytes
  let context : RowContext := {
    colorType, channels
    palette := scan.palette
    transparency := scan.transparency
    transparentGray := ← transparentGray colorType scan.transparency
    transparentRgb := ← transparentRgb colorType scan.transparency }
  let (hasTransparentPixels, decoder) ← scanRows context width rowBytes height previous
    (inflate scan.idat) false
  lift decoder.finish
  return {
    width, height
    alphaCapable := (colorType = 4 || colorType = 6) || scan.transparency.isSome
    hasTransparentPixels }

end Vergerail.PngExec
