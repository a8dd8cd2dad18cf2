import Vergerail.Event
import Vergerail.Lib.Checked
import Vergerail.Lib.PngFormat

/-!
# The PNG check

`validate_png` of `src/image.rs` and what it uses. The loop over the chunks keeps the bytes
from its offset on beside the offset; slices of the source are taken from these. What the
zlib decoder makes of the collected data is given: the bytes it hands out in the end, and
whether it fails after them.

A slice holds at most `isize::MAX` bytes, so the checked sum of an offset and a chunk's
length does not overflow; it is written as a plain one.
-/

namespace Vergerail

open Lib

/-- `MAX_IMAGE_JSON_BYTES`. -/
def maxImageJsonBytes : Nat := 16 * 1024 * 1024

/-- `MAX_PNG_RAW_BYTES`. -/
def maxPngRawBytes : Nat := 14 * 1024 * 1024

/-- `PngInfo`. -/
structure PngInfo where
  width : Nat
  height : Nat
  alphaCapable : Bool
  hasTransparentPixels : Bool
  deriving DecidableEq, Repr

def pngFault (message : String) : Error := Error.new .protocol "image.http" message

def pngLimit (message : String) : Error := Error.new .resourceLimit "image.http" message

/-! ## Arithmetic -/

/-- `usize::checked_mul`. -/
def checkedMul (a b : Nat) : Option Nat := if a * b ≤ usizeMax then some (a * b) else none

/-- `png_channels`; the source does not expect any other colour type. -/
def pngChannels (colorType : UInt8) : Nat :=
  match colorType with
  | 0 => 1
  | 3 => 1
  | 2 => 3
  | 4 => 2
  | 6 => 4
  | _ => 0

/-- `png_expected_raw_bytes`. -/
def pngExpectedRawBytes (width height : Nat) (colorType : UInt8) : Result Nat :=
  orFault (((checkedMul width (pngChannels colorType)).bind (checkedAdd · 1)).bind
      (checkedMul · height))
    (pngLimit "PNG dimensions exceed decoder bounds")

/-- `paeth_predictor`. -/
def paethPredictor (left up upperLeft : UInt8) : UInt8 :=
  let estimate : Int := left.toNat + up.toNat - upperLeft.toNat
  let leftDistance := (estimate - left.toNat).natAbs
  let upDistance := (estimate - up.toNat).natAbs
  let upperLeftDistance := (estimate - upperLeft.toNat).natAbs
  if leftDistance ≤ upDistance ∧ leftDistance ≤ upperLeftDistance then left
  else if upDistance ≤ upperLeftDistance then up
  else upperLeft

/-- A bit of the loop of `png_crc32`. -/
def crcBit (crc : UInt32) : UInt32 :=
  if crc &&& 1 ≠ 0 then (crc >>> 1) ^^^ 0xedb88320 else crc >>> 1

/-- `png_crc32`. -/
def pngCrc32 (bytes : List UInt8) : UInt32 :=
  ~~~ (bytes.foldl (fun crc byte => crcBit^[8] (crc ^^^ byte.toUInt32)) 0xffffffff)

/-! ## Chunks -/

/-- What the loop over the chunks has found. -/
structure PngScan where
  /-- Width, height and colour type. -/
  ihdr : Option (Nat × Nat × UInt8)
  idat : List UInt8
  idatSeen : Bool
  idatClosed : Bool
  palette : Option (List UInt8)
  transparency : Option (List UInt8)
  sawIend : Bool

namespace PngScan

def new : PngScan where
  ihdr := none
  idat := []
  idatSeen := false
  idatClosed := false
  palette := none
  transparency := none
  sawIend := false

/-- The branch for `IHDR`. -/
def readIhdr (s : PngScan) (offset : Nat) (data : List UInt8) : Result PngScan := do
  refuse (s.ihdr.isSome || data.length ≠ 13 || offset ≠ 8) (pngFault "PNG has an invalid IHDR")
  let width := Png.fromBe (data.take 4)
  let height := Png.fromBe ((data.drop 4).take 4)
  let bitDepth := data.getD 8 0
  let colorType := data.getD 9 0
  refuse (width = 0 || height = 0 || 8192 < width || 8192 < height || bitDepth ≠ 8
      || !([0, 2, 3, 4, 6] : List UInt8).contains colorType || data.getD 10 0 ≠ 0
      || data.getD 11 0 ≠ 0 || data.getD 12 0 ≠ 0)
    (pngFault "PNG IHDR dimensions or format are unsupported")
  let expectedRaw ← pngExpectedRawBytes width height colorType
  refuse (maxPngRawBytes < expectedRaw)
    (pngLimit ("PNG decompressed data exceeds " ++ toString maxPngRawBytes ++ " bytes"))
  return { s with ihdr := some (width, height, colorType) }

/-- The branch for `PLTE`. -/
def readPlte (s : PngScan) (data : List UInt8) : Result PngScan := do
  let (_, _, colorType) ← orFault s.ihdr (pngFault "PNG PLTE appears before IHDR")
  refuse (s.idatSeen || s.palette.isSome || data.length = 0 || 768 < data.length
      || data.length % 3 ≠ 0 || (colorType = 0 || colorType = 4))
    (pngFault "PNG has an invalid or misplaced PLTE")
  return { s with palette := some data }

/-- `data.chunks_exact(2)`. -/
def samplePairs : List UInt8 → List (UInt8 × UInt8)
  | high :: low :: rest => (high, low) :: samplePairs rest
  | _ => []

/-- Whether transparency data is valid. -/
def transparencyValid (palette : Option (List UInt8)) (colorType : UInt8) (data : List UInt8) :
    Bool :=
  match colorType with
  | 0 => data.length = 2 && data.getD 0 0 = 0
  | 2 => data.length = 6 && (samplePairs data).all (fun sample => sample.1 = 0)
  | 3 => palette.any (fun colors => data.length ≤ colors.length / 3 && 0 < data.length)
  | _ => false

/-- The branch for `tRNS`. -/
def readTrns (s : PngScan) (data : List UInt8) : Result PngScan := do
  let (_, _, colorType) ← orFault s.ihdr (pngFault "PNG tRNS appears before IHDR")
  refuse (s.idatSeen || s.transparency.isSome)
    (pngFault "PNG has a duplicate or misplaced tRNS")
  refuse (!transparencyValid s.palette colorType data)
    (pngFault "PNG has invalid transparency data")
  return { s with transparency := some data }

/-- The branch for `IDAT`. -/
def readIdat (s : PngScan) (data : List UInt8) : Result PngScan := do
  let (_, _, colorType) ← orFault s.ihdr (pngFault "PNG IDAT is missing IHDR")
  refuse ((colorType = 3 && s.palette.isNone) || s.idatClosed)
    (pngFault (if colorType = 3 && s.palette.isNone then "indexed PNG IDAT appears before PLTE"
      else "PNG IDAT is not contiguous"))
  refuse (maxImageJsonBytes < (s.idat ++ data).length)
    (pngLimit "PNG compressed data exceeds the bound")
  return { s with idatSeen := true, idat := s.idat ++ data }

/-- The branch for `IEND`. -/
def readIend (s : PngScan) (atEnd : Bool) (data : List UInt8) : Result PngScan := do
  refuse (data.length ≠ 0 || !s.idatSeen) (pngFault "PNG has an invalid IEND")
  refuse (!atEnd) (pngFault "PNG contains data after IEND")
  return { s with sawIend := true }

/-- The branch for any other type. -/
def readOther (s : PngScan) (chunkType : List UInt8) : Result PngScan := do
  refuse s.ihdr.isNone (pngFault "PNG contains a chunk before IHDR")
  refuse (0x41 ≤ chunkType.getD 0 0 && chunkType.getD 0 0 ≤ 0x5a)
    (pngFault "PNG contains an unknown critical chunk")
  return (if s.idatSeen then { s with idatClosed := true } else s)

/-- The branches, by the type of the chunk. -/
def readTyped (s : PngScan) (offset : Nat) (atEnd : Bool) (chunkType data : List UInt8) :
    Result PngScan :=
  if chunkType = Png.ihdr then s.readIhdr offset data
  else if chunkType = Png.plte then s.readPlte data
  else if chunkType = Png.trns then s.readTrns data
  else if chunkType = Png.idat then s.readIdat data
  else if chunkType = Png.iend then s.readIend atEnd data
  else s.readOther chunkType

/-- What follows the branches: a chunk of another type ends the data. -/
def close (s : PngScan) (chunkType : List UInt8) : PngScan :=
  if !(chunkType = Png.idat || chunkType = Png.iend) && s.idatSeen then
    { s with idatClosed := true }
  else s

/-- The body of the loop, after the chunk was taken. -/
def readChunk (s : PngScan) (offset : Nat) (atEnd : Bool) (chunkType data : List UInt8) :
    Result PngScan := do
  refuse s.sawIend (pngFault "PNG contains a chunk after IEND")
  let s' ← s.readTyped offset atEnd chunkType data
  return s'.close chunkType

end PngScan

/-- The type and the data of the chunk that the bytes start with. -/
def takeChunk (rest : List UInt8) : Result (List UInt8 × List UInt8) := do
  refuse (rest.length < 12) (pngFault "PNG chunk is truncated")
  let length := Png.fromBe (rest.take 4)
  refuse (rest.length < 12 + length) (pngFault "PNG chunk exceeds response")
  let observedCrc := Png.fromBe ((rest.drop (8 + length)).take 4)
  refuse ((pngCrc32 ((rest.drop 4).take (4 + length))).toNat ≠ observedCrc)
    (pngFault "PNG chunk CRC mismatch")
  return ((rest.drop 4).take 4, (rest.drop 8).take length)

/-- The loop over the chunks. -/
def scanChunks (offset : Nat) (rest : List UInt8) (s : PngScan) : Result PngScan :=
  if _hrest : rest = [] then .ok s
  else do
    let (chunkType, data) ← takeChunk rest
    let s' ← s.readChunk offset (12 + data.length = rest.length) chunkType data
    scanChunks (offset + (12 + data.length)) (rest.drop (12 + data.length)) s'
termination_by rest.length
decreasing_by
  have hpos := List.length_pos_of_ne_nil _hrest
  rw [List.length_drop]
  omega

/-! ## Rows -/

/-- What the zlib decoder makes of its input: the bytes it hands out, and whether it fails
after them. -/
structure Inflated where
  bytes : List UInt8
  corrupt : Bool
  deriving DecidableEq, Repr

/-- `read_exact`. -/
def Inflated.readExact (decoder : Inflated) (count : Nat) : Option (List UInt8 × Inflated) :=
  if count ≤ decoder.bytes.length then
    some (decoder.bytes.take count, { decoder with bytes := decoder.bytes.drop count })
  else none

/-- The sample that takes the place of the one at `index`. -/
def unfilterSample (filter : UInt8) (channels : Nat) (previous current : List UInt8)
    (index : Nat) : Result UInt8 :=
  let value := current.getD index 0
  let left := if channels ≤ index then current.getD (index - channels) 0 else 0
  let up := previous.getD index 0
  let upperLeft := if channels ≤ index then previous.getD (index - channels) 0 else 0
  match filter with
  | 0 => .ok value
  | 1 => .ok (value + left)
  | 2 => .ok (value + up)
  | 3 => .ok (value + UInt8.ofNat ((left.toNat + up.toNat) / 2))
  | 4 => .ok (value + paethPredictor left up upperLeft)
  | _ => .error (pngFault "PNG row uses an unsupported filter")

/-- The loop over the samples of a row, in place. -/
def unfilterRow (filter : UInt8) (channels : Nat) (previous current : List UInt8) :
    Result (List UInt8) :=
  (List.range current.length).foldlM (fun row index => do
    let sample ← unfilterSample filter channels previous row index
    return row.set index sample) current

/-- `transparent_gray`. -/
def transparentGray (colorType : UInt8) (transparency : Option (List UInt8)) : Option UInt8 :=
  (transparency.filter (fun _ => colorType = 0)).map (fun value => value.getD 1 0)

/-- `transparent_rgb`. -/
def transparentRgb (colorType : UInt8) (transparency : Option (List UInt8)) :
    Option (List UInt8) :=
  (transparency.filter (fun _ => colorType = 2)).map
    (fun value => [value.getD 1 0, value.getD 3 0, value.getD 5 0])

/-- Whether the pixel that starts at `start` is transparent. -/
def pixelTransparent (colorType : UInt8) (palette transparency : Option (List UInt8))
    (row : List UInt8) (start : Nat) : Result Bool :=
  match colorType with
  | 0 =>
      .ok ((transparentGray colorType transparency).any
        (fun sample => row.getD start 0 = sample))
  | 2 =>
      .ok ((transparentRgb colorType transparency).any
        (fun sample => (row.drop start).take 3 = sample))
  | 3 => do
      let index := (row.getD start 0).toNat
      let palette ← orFault palette (pngFault "indexed PNG is missing PLTE")
      refuse (palette.length / 3 ≤ index) (pngFault "indexed PNG pixel is outside PLTE")
      return transparency.any (fun alpha => (alpha[index]?).getD 255 < 255)
  | 4 => .ok (row.getD (start + 1) 0 < 255)
  | 6 => .ok (row.getD (start + 3) 0 < 255)
  | _ => .ok false

/-- The loop over the pixels of a row. -/
def scanPixels (colorType : UInt8) (palette transparency : Option (List UInt8)) (width : Nat)
    (row : List UInt8) (seen : Bool) : Result Bool :=
  (List.range width).foldlM (fun seen pixel => do
    let transparent ← pixelTransparent colorType palette transparency row
      (pixel * pngChannels colorType)
    return seen || transparent) seen

/-- The loop over the rows, `count` of which are left. -/
def scanRows (colorType : UInt8) (palette transparency : Option (List UInt8))
    (width rowBytes : Nat) :
    Nat → List UInt8 → Inflated → Bool → Result (Bool × Inflated)
  | 0, _, decoder, seen => .ok (seen, decoder)
  | count + 1, previous, decoder, seen => do
      let (filter, decoder) ← orFault (decoder.readExact 1)
        (pngFault "PNG IDAT is not valid zlib data")
      let (current, decoder) ← orFault (decoder.readExact rowBytes)
        (pngFault "PNG decompressed data length does not match IHDR")
      let row ← unfilterRow (filter.getD 0 0) (pngChannels colorType) previous current
      let seen ← scanPixels colorType palette transparency width row seen
      scanRows colorType palette transparency width rowBytes count row decoder seen

/-- The read after the last row: nothing may be left. -/
def Inflated.finish (decoder : Inflated) : Result Unit :=
  match decoder.bytes with
  | _ :: _ => .error (pngFault "PNG decompressed data contains trailing bytes")
  | [] =>
    if decoder.corrupt then .error (pngFault "PNG IDAT is not valid zlib data") else .ok ()

/-- `validate_png`. -/
def validatePng (inflate : List UInt8 → Inflated) (bytes : List UInt8) : Result PngInfo := do
  refuse (bytes.length < 33 || bytes.take 8 ≠ Png.signature)
    (pngFault "image response is not a PNG")
  let scan ← scanChunks 8 (bytes.drop 8) PngScan.new
  let (width, height, colorType) ← orFault scan.ihdr (pngFault "PNG is missing IHDR")
  refuse (!scan.sawIend) (pngFault "PNG is missing IEND")
  refuse (colorType = 3 && scan.palette.isNone) (pngFault "indexed PNG is missing PLTE")
  let rowBytes ← orFault (checkedMul width (pngChannels colorType))
    (pngLimit "PNG row size exceeds decoder bounds")
  let (hasTransparentPixels, decoder) ← scanRows colorType scan.palette scan.transparency width
    rowBytes height (List.replicate rowBytes 0) (inflate scan.idat) false
  decoder.finish
  return {
    width, height
    alphaCapable := (colorType = 4 || colorType = 6) || scan.transparency.isSome
    hasTransparentPixels }

/-- `validate_png_dimensions`. -/
def validatePngDimensions (inflate : List UInt8 → Inflated) (bytes : List UInt8) :
    Result (Nat × Nat) := do
  let info ← validatePng inflate bytes
  return (info.width, info.height)

end Vergerail
