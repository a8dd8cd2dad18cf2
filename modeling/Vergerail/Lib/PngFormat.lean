import Mathlib
import Vergerail.Lib.Crc

/-!
# The PNG format

PNG files with eight bits a sample and without interlacing: a signature, then chunks, each
with its length, its type, its data and a check. The header comes first, then what the data
needs to be understood (the palette and the transparency), then the compressed data in
consecutive chunks, and the end. Inflated, the data is one line of bytes for each row of the
image, and a line's filter says from which neighbours each sample is predicted.

The limits that a reader sets are parameters.
-/

namespace Lib.Png

/-! ## Numbers -/

/-- Four bytes, the highest first. -/
def be32 (n : Nat) : List UInt8 :=
  [UInt8.ofNat (n / 2 ^ 24), UInt8.ofNat (n / 2 ^ 16), UInt8.ofNat (n / 2 ^ 8), UInt8.ofNat n]

/-- The number that bytes stand for, the highest first. -/
def fromBe (bytes : List UInt8) : Nat := bytes.foldl (fun n byte => n * 256 + byte.toNat) 0

@[simp] theorem length_be32 (n : Nat) : (be32 n).length = 4 := rfl

theorem fromBe_be32 {n : Nat} (h : n < 2 ^ 32) : fromBe (be32 n) = n := by
  simp only [fromBe, be32, List.foldl_cons, List.foldl_nil, UInt8.toNat_ofNat']
  omega

theorem fromBe_lt {bytes : List UInt8} (h : bytes.length = 4) : fromBe bytes < 2 ^ 32 := by
  match bytes, h with
  | [a, b, c, d], _ =>
    have ha := a.toNat_lt
    have hb := b.toNat_lt
    have hc := c.toNat_lt
    have hd := d.toNat_lt
    simp only [fromBe, List.foldl_cons, List.foldl_nil]
    omega

theorem be32_fromBe {bytes : List UInt8} (h : bytes.length = 4) : be32 (fromBe bytes) = bytes := by
  match bytes, h with
  | [a, b, c, d], _ =>
    have ha := a.toNat_lt
    have hb := b.toNat_lt
    have hc := c.toNat_lt
    have hd := d.toNat_lt
    simp only [fromBe, be32, List.foldl_cons, List.foldl_nil, List.cons.injEq, and_true,
      ← UInt8.toNat_inj, UInt8.toNat_ofNat']
    omega

/-! ## Chunks -/

def signature : List UInt8 := [0x89, 0x50, 0x4e, 0x47, 0x0d, 0x0a, 0x1a, 0x0a]

/-- The type `IHDR`. -/
def ihdr : List UInt8 := [0x49, 0x48, 0x44, 0x52]

/-- The type `PLTE`. -/
def plte : List UInt8 := [0x50, 0x4c, 0x54, 0x45]

/-- The type `tRNS`. -/
def trns : List UInt8 := [0x74, 0x52, 0x4e, 0x53]

/-- The type `IDAT`. -/
def idat : List UInt8 := [0x49, 0x44, 0x41, 0x54]

/-- The type `IEND`. -/
def iend : List UInt8 := [0x49, 0x45, 0x4e, 0x44]

/-- The polynomial of the check, the highest coefficient last. -/
def polynomial : BitVec 32 := 0xedb88320

/-- The check of a chunk's type and data. -/
def crc32 (bytes : List UInt8) : Nat := (Crc.check polynomial bytes).toNat

structure Chunk where
  type : List UInt8
  data : List UInt8
  type_length : type.length = 4
  data_length : data.length < 2 ^ 32

namespace Chunk

def encode (c : Chunk) : List UInt8 :=
  be32 c.data.length ++ c.type ++ c.data ++ be32 (crc32 (c.type ++ c.data))

theorem length_encode (c : Chunk) : c.encode.length = 12 + c.data.length := by
  have htype := c.type_length
  simp only [encode, List.length_append, length_be32]
  omega

/-- A chunk that a reader must understand: its type starts with an upper-case letter. -/
def critical (c : Chunk) : Bool := c.type.head?.any (fun byte => 0x41 ≤ byte && byte ≤ 0x5a)

/-- A chunk that may be passed over. -/
def Passable (c : Chunk) : Prop := c.type ≠ trns ∧ c.critical = false

end Chunk

/-! ## The header -/

inductive ColorType where
  | gray
  | rgb
  | indexed
  | grayAlpha
  | rgba
  deriving DecidableEq, Repr

namespace ColorType

def code : ColorType → UInt8
  | gray => 0
  | rgb => 2
  | indexed => 3
  | grayAlpha => 4
  | rgba => 6

/-- Samples, each a byte, in a pixel. -/
def channels : ColorType → Nat
  | gray => 1
  | rgb => 3
  | indexed => 1
  | grayAlpha => 2
  | rgba => 4

def allowsPalette : ColorType → Bool
  | gray => false
  | rgb => true
  | indexed => true
  | grayAlpha => false
  | rgba => true

def hasAlpha : ColorType → Bool
  | grayAlpha => true
  | rgba => true
  | _ => false

/-- Transparency data: the one sample or colour that is transparent, each of its samples
within a byte, or the alpha of the first entries of the palette. -/
def AllowsTransparency (palette : Option (List UInt8)) (data : List UInt8) : ColorType → Prop
  | gray => ∃ sample, data = [0, sample]
  | rgb => ∃ red green blue, data = [0, red, 0, green, 0, blue]
  | indexed => ∃ colors, palette = some colors ∧ 0 < data.length ∧ data.length ≤ colors.length / 3
  | grayAlpha => False
  | rgba => False

/-- A palette that is still there allows what it did. -/
theorem allowsTransparency_mono {colorType : ColorType} {palette palette' : Option (List UInt8)}
    {data : List UInt8} (hkept : ∀ colors, palette = some colors → palette' = some colors)
    (h : colorType.AllowsTransparency palette data) :
    colorType.AllowsTransparency palette' data := by
  cases colorType with
  | indexed =>
      obtain ⟨colors, hcolors, hentries⟩ := h
      exact ⟨colors, hkept colors hcolors, hentries⟩
  | gray => exact h
  | rgb => exact h
  | grayAlpha => exact h
  | rgba => exact h

theorem channels_pos (colorType : ColorType) : 0 < colorType.channels := by
  cases colorType <;> decide

end ColorType

structure Header where
  width : Nat
  height : Nat
  colorType : ColorType
  compression : UInt8
  filterMethod : UInt8

namespace Header

/-- The data of the header's chunk: eight bits a sample, no interlacing. -/
def data (h : Header) : List UInt8 :=
  be32 h.width ++ be32 h.height
    ++ [8, h.colorType.code, h.compression, h.filterMethod, 0]

def chunk (h : Header) : Chunk where
  type := ihdr
  data := h.data
  type_length := rfl
  data_length := by simp [data]

/-- The samples in a row. -/
def rowBytes (h : Header) : Nat := h.width * h.colorType.channels

end Header

/-! ## The order of the chunks -/

/-- The data of the first of these chunks that has the type. -/
def dataOf (type : List UInt8) (chunks : List Chunk) : Option (List UInt8) :=
  (chunks.find? (fun c => c.type = type)).map (·.data)

/-- The palette among these chunks. -/
def paletteOf (chunks : List Chunk) : Option (List UInt8) := dataOf plte chunks

/-- The transparency among these chunks. -/
def transparencyOf (chunks : List Chunk) : Option (List UInt8) := dataOf trns chunks

theorem dataOf_append_self {type : List UInt8} {earlier : List Chunk} {c : Chunk}
    (hnone : dataOf type earlier = none) (htype : c.type = type) :
    dataOf type (earlier ++ [c]) = some c.data := by
  rw [dataOf, Option.map_eq_none_iff] at hnone
  rw [dataOf, List.find?_append, hnone, Option.none_or, List.find?_cons, decide_eq_true htype]
  rfl

theorem dataOf_prefix {type data : List UInt8} {earlier : List Chunk}
    (h : dataOf type earlier = some data) (later : List Chunk) :
    dataOf type (earlier ++ later) = some data := by
  obtain ⟨c, hc, rfl⟩ := Option.map_eq_some_iff.mp h
  rw [dataOf, List.find?_append, hc, Option.some_or, Option.map_some]

theorem dataOf_append_other {type : List UInt8} {c : Chunk} (htype : c.type ≠ type)
    (earlier : List Chunk) : dataOf type (earlier ++ [c]) = dataOf type earlier := by
  rw [dataOf, List.find?_append, List.find?_cons, decide_eq_false htype, List.find?_nil,
    Option.or_none]
  rfl

/-- What may come before the data, after the chunks that came earlier. -/
inductive Admissible (colorType : ColorType) (earlier : List Chunk) (c : Chunk) : Prop where
  | palette (htype : c.type = plte) (honce : paletteOf earlier = none)
      (hallowed : colorType.allowsPalette = true) (hentries : 3 ∣ c.data.length)
      (hlength : 0 < c.data.length ∧ c.data.length ≤ 768)
  | transparency (htype : c.type = trns) (honce : transparencyOf earlier = none)
      (hallowed : colorType.AllowsTransparency (paletteOf earlier) c.data)
  | passable (hpass : c.Passable)

/-- The bounds that a reader sets. -/
structure Limits where
  side : Nat
  compressed : Nat
  raw : Nat

/-- The chunks of a file, between the first and the last, by where they stand. -/
structure Layout where
  header : Header
  before : List Chunk
  data : List Chunk
  after : List Chunk

namespace Layout

def ending : Chunk where
  type := iend
  data := []
  type_length := rfl
  data_length := by decide

def chunks (l : Layout) : List Chunk :=
  l.header.chunk :: (l.before ++ (l.data ++ (l.after ++ [ending])))

def bytes (l : Layout) : List UInt8 := signature ++ l.chunks.flatMap Chunk.encode

/-- The compressed data. -/
def compressed (l : Layout) : List UInt8 := l.data.flatMap (·.data)

structure WellFormed (limits : Limits) (l : Layout) : Prop where
  width : 0 < l.header.width ∧ l.header.width ≤ limits.side
  height : 0 < l.header.height ∧ l.header.height ≤ limits.side
  raw : l.header.height * (1 + l.header.rowBytes) ≤ limits.raw
  before : ∀ earlier c later, l.before = earlier ++ c :: later →
    Admissible l.header.colorType earlier c
  palette : l.header.colorType = .indexed → (paletteOf l.before).isSome
  data : ∀ c ∈ l.data, c.type = idat
  some : l.data ≠ []
  size : l.compressed.length ≤ limits.compressed
  after : ∀ c ∈ l.after, c.Passable

end Layout

/-! ## The image -/

inductive Filter where
  | none
  | sub
  | up
  | average
  | paeth
  deriving DecidableEq, Repr

/-- The one of the three neighbours that is closest to `left + up - upperLeft`, the first of
them when several are. -/
def nearest (left up upperLeft : UInt8) : UInt8 :=
  (List.argmin (fun sample : UInt8 =>
      ((left.toNat : Int) + up.toNat - upperLeft.toNat - sample.toNat).natAbs)
    [left, up, upperLeft]).getD 0

namespace Filter

def code : Filter → UInt8
  | none => 0
  | sub => 1
  | up => 2
  | average => 3
  | paeth => 4

/-- What a sample is predicted to be. -/
def predict (left above upperLeft : UInt8) : Filter → UInt8
  | none => 0
  | sub => left
  | up => above
  | average => UInt8.ofNat ((left.toNat + above.toNat) / 2)
  | paeth => nearest left above upperLeft

end Filter

/-- A line of the inflated data. -/
structure Scanline where
  filter : Filter
  samples : List UInt8

def Scanline.bytes (line : Scanline) : List UInt8 := line.filter.code :: line.samples

/-- The sample of the pixel before; none counts as zero. -/
def behind (channels : Nat) (row : List UInt8) (i : Nat) : UInt8 :=
  if channels ≤ i then row.getD (i - channels) 0 else 0

/-- The row is what the line stands for under the row above: each sample is what the line
adds to its prediction. -/
structure Reconstructs (channels : Nat) (above : List UInt8) (line : Scanline)
    (row : List UInt8) : Prop where
  length : row.length = line.samples.length
  sample : ∀ i < row.length, row.getD i 0 = line.samples.getD i 0
    + line.filter.predict (behind channels row i) (above.getD i 0) (behind channels above i)

/-- The rows are what the lines stand for, one under the other. -/
inductive Raster (channels : Nat) : List UInt8 → List Scanline → List (List UInt8) → Prop where
  | nil {above : List UInt8} : Raster channels above [] []
  | cons {above row : List UInt8} {line : Scanline} {lines : List Scanline}
      {rows : List (List UInt8)} : Reconstructs channels above line row →
      Raster channels row lines rows → Raster channels above (line :: lines) (row :: rows)

/-- The samples of the pixel at `x`. -/
def pixelAt (channels : Nat) (row : List UInt8) (x : Nat) : List UInt8 :=
  (row.drop (x * channels)).take channels

/-- The alpha of a pixel, where 255 is opaque. -/
def alpha (transparency : Option (List UInt8)) (pixel : List UInt8) : ColorType → UInt8
  | .gray => if transparency = some [0, pixel.getD 0 0] then 0 else 255
  | .rgb =>
      if transparency = some [0, pixel.getD 0 0, 0, pixel.getD 1 0, 0, pixel.getD 2 0] then 0
      else 255
  | .indexed => (transparency.bind (fun alphas => alphas[(pixel.getD 0 0).toNat]?)).getD 255
  | .grayAlpha => pixel.getD 1 0
  | .rgba => pixel.getD 3 0

/-- The raw data pictures these rows: one line for each row of the header's size, and every
sample of an indexed image has an entry in the palette. -/
structure Pictures (h : Header) (palette : Option (List UInt8)) (raw : List UInt8)
    (rows : List (List UInt8)) : Prop where
  lines : ∃ lines : List Scanline, lines.length = h.height ∧
    (∀ line ∈ lines, line.samples.length = h.rowBytes) ∧ raw = lines.flatMap Scanline.bytes ∧
    Raster h.colorType.channels (List.replicate h.rowBytes 0) lines rows
  entries : h.colorType = .indexed → ∀ row ∈ rows, ∀ sample ∈ row,
    ∃ colors, palette = some colors ∧ sample.toNat < colors.length / 3

/-- Some pixel of the rows is not opaque. -/
def Transparent (h : Header) (transparency : Option (List UInt8)) (rows : List (List UInt8)) :
    Prop :=
  ∃ row ∈ rows, ∃ x < h.width,
    alpha transparency (pixelAt h.colorType.channels row x) h.colorType < 255

/-! ## The rows are determined -/

theorem getD_ext {row row' : List UInt8} (hlength : row.length = row'.length)
    (h : ∀ i < row.length, row.getD i 0 = row'.getD i 0) : row = row' := by
  refine List.ext_getElem hlength ?_
  intro i hi hi'
  have hat := h i hi
  rwa [List.getD_eq_getElem _ _ hi, List.getD_eq_getElem _ _ hi'] at hat

/-- **A line stands for one row**: every sample is predicted from samples before it. -/
theorem Reconstructs.unique {channels : Nat} (hchannels : 0 < channels) {above : List UInt8}
    {line : Scanline} {row row' : List UInt8} (h : Reconstructs channels above line row)
    (h' : Reconstructs channels above line row') : row = row' := by
  have hlength : row.length = row'.length := h.length.trans h'.length.symm
  refine getD_ext hlength ?_
  intro i hi
  -- the samples up to `i` agree
  induction i using Nat.strong_induction_on with
  | _ i ih =>
      have hbehind : behind channels row i = behind channels row' i := by
        unfold behind
        split
        · exact ih (i - channels) (by omega) (by omega)
        · rfl
      rw [h.sample i hi, h'.sample i (hlength ▸ hi), hbehind]

theorem Raster.unique {channels : Nat} (hchannels : 0 < channels) {above : List UInt8}
    {lines : List Scanline} {rows rows' : List (List UInt8)} (h : Raster channels above lines rows)
    (h' : Raster channels above lines rows') : rows = rows' := by
  induction h generalizing rows' with
  | nil =>
      cases h'
      rfl
  | cons hrow _ ih =>
      cases h' with
      | cons hrow' hrows' =>
          cases hrow.unique hchannels hrow'
          rw [ih hrows']

theorem Raster.row_length {channels n : Nat} {above : List UInt8} {lines : List Scanline}
    {rows : List (List UInt8)} (h : Raster channels above lines rows)
    (hlines : ∀ line ∈ lines, line.samples.length = n) : ∀ row ∈ rows, row.length = n := by
  induction h with
  | nil => simp
  | cons hrow _ ih =>
      intro found hfound
      rcases List.mem_cons.mp hfound with rfl | hfound
      · rw [hrow.length, hlines _ List.mem_cons_self]
      · exact ih (fun line hline => hlines line (List.mem_cons_of_mem _ hline)) found hfound

theorem Raster.length {channels : Nat} {above : List UInt8} {lines : List Scanline}
    {rows : List (List UInt8)} (h : Raster channels above lines rows) :
    rows.length = lines.length := by
  induction h with
  | nil => rfl
  | cons _ _ ih => rw [List.length_cons, List.length_cons, ih]

end Lib.Png
