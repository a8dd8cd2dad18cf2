import Vergerail.Proof.PngGrammar
import Vergerail.Proof.PngRows

/-!
# What the PNG check accepts

A scan over a supported layout leaves the palette and the transparency of its chunks and all
of its compressed data; the loop over the rows takes from the inflated data one line for
each. So the check accepts exactly the supported layouts whose data pictures rows, and what
it reports is read off the header, the transparency and these rows.
-/

namespace Vergerail

open Lib

/-- What is reported of an image. -/
structure Measures (l : Png.Layout) (rows : List (List UInt8)) (info : PngInfo) : Prop where
  width : info.width = l.header.width
  height : info.height = l.header.height
  alphaCapable : info.alphaCapable = true ↔
    l.header.colorType.hasAlpha = true ∨ (Png.transparencyOf l.before).isSome = true
  hasTransparentPixels : info.hasTransparentPixels = true ↔
    Png.Transparent l.header (Png.transparencyOf l.before) rows

/-- The bytes are those of a well-formed file whose data inflates to these rows. -/
structure Shows (inflate : List UInt8 → Inflated) (bytes : List UInt8) (l : Png.Layout)
    (rows : List (List UInt8)) : Prop where
  bytes : l.bytes = bytes
  wellFormed : l.WellFormed pngLimits
  pictures : ∃ raw, inflate l.compressed = { bytes := raw, corrupt := false } ∧
    Png.Pictures l.header (Png.paletteOf l.before) raw rows

section Layout

variable {l : Png.Layout}

/-- The transparency of a well-formed layout is what its colour type allows. -/
theorem allowed_of_wellFormed (h : l.WellFormed pngLimits) :
    Allowed l.header.colorType (Png.paletteOf l.before) (Png.transparencyOf l.before) := by
  intro data hdata
  obtain ⟨c, hc, rfl⟩ := Option.map_eq_some_iff.mp hdata
  have hfound := List.find?_some hc
  have htype : c.type = Png.trns := of_decide_eq_true hfound
  obtain ⟨earlier, later, hbefore⟩ := List.append_of_mem (List.mem_of_find?_eq_some hc)
  cases h.before earlier c later hbefore with
  | palette hplte => exact absurd (htype.symm.trans hplte) (by decide)
  | passable hpass => exact absurd htype hpass.1
  | transparency _ _ hallowed =>
      rw [hbefore]
      exact Png.ColorType.allowsTransparency_mono
        (fun colors hcolors => Png.dataOf_prefix hcolors (c :: later)) hallowed

theorem hasAlpha_iff (colorType : Png.ColorType) : colorType.hasAlpha = true ↔
    (decide (colorType.code = 4) || decide (colorType.code = 6)) = true := by
  cases colorType <;> decide

/-- The sides are small enough for the size of a row. -/
theorem checkedMul_rowBytes (h : l.WellFormed pngLimits) :
    checkedMul l.header.width (pngChannels l.header.colorType.code)
      = some (l.header.width * l.header.colorType.channels) := by
  have hrow : l.header.width * l.header.colorType.channels ≤ 8192 * 4 :=
    Nat.mul_le_mul h.width.2 (channels_le _)
  have husize : 8192 * 4 ≤ usizeMax := by decide
  rw [pngChannels_code, checkedMul, if_pos (by omega)]

theorem drop_bytes (l : Png.Layout) : l.bytes.drop 8 = l.chunks.flatMap Png.Chunk.encode :=
  List.drop_left' rfl

theorem take_bytes (l : Png.Layout) : l.bytes.take 8 = Png.signature :=
  List.take_left' rfl

theorem length_bytes (l : Png.Layout) : 33 ≤ l.bytes.length := by
  have hheader : l.header.chunk.encode.length = 25 := l.header.chunk.length_encode
  have hsignature : Png.signature.length = 8 := rfl
  rw [Png.Layout.bytes, Png.Layout.chunks, List.flatMap_cons, List.length_append,
    List.length_append, hheader, hsignature]
  omega

end Layout

section Rows

variable {h : Png.Header} {palette transparency : Option (List UInt8)}
  {rows : List (List UInt8)}

/-- Every pixel has its entry when every sample has. -/
theorem entries_iff (hrows : ∀ row ∈ rows, row.length = h.rowBytes) :
    (∀ row ∈ rows, ∀ x < h.width,
        HasEntry h.colorType palette (row.getD (x * h.colorType.channels) 0)) ↔
      (h.colorType = .indexed → ∀ row ∈ rows, ∀ sample ∈ row,
        ∃ colors, palette = some colors ∧ sample.toNat < colors.length / 3) := by
  constructor
  · intro hpixels hindexed row hrow sample hsample
    have hlength : row.length = h.width := by
      rw [hrows row hrow, Png.Header.rowBytes, hindexed]
      exact Nat.mul_one _
    obtain ⟨x, hx, rfl⟩ := List.mem_iff_getElem.mp hsample
    have hentry := hpixels row hrow x (by omega) hindexed
    rw [hindexed] at hentry
    have hone : x * Png.ColorType.channels .indexed = x := Nat.mul_one x
    rwa [hone, List.getD_eq_getElem _ _ hx] at hentry
  · intro hsamples row hrow x hx hindexed
    have hlength : row.length = h.width := by
      rw [hrows row hrow, Png.Header.rowBytes, hindexed]
      exact Nat.mul_one _
    have hx' : x < row.length := by omega
    rw [hindexed]
    have hone : x * Png.ColorType.channels .indexed = x := Nat.mul_one x
    rw [hone, List.getD_eq_getElem _ _ hx']
    exact hsamples hindexed row hrow _ (List.getElem_mem hx')

theorem any_rowTransparent :
    rows.any (rowTransparent h.colorType transparency h.width) = true ↔
      Png.Transparent h transparency rows := by
  simp only [rowTransparent, Png.Transparent, List.any_eq_true, List.mem_range,
    decide_eq_true_eq]

end Rows

/-- The compression and the filter method are the only ones there are. -/
structure StandardMethods (h : Png.Header) : Prop where
  compression : h.compression = 0
  filterMethod : h.filterMethod = 0

/-- **What is accepted, and what is reported of it.** -/
theorem validatePng_ok (inflate : List UInt8 → Inflated) (bytes : List UInt8) (info : PngInfo) :
    validatePng inflate bytes = .ok info ↔
      ∃ (l : Png.Layout) (rows : List (List UInt8)), Shows inflate bytes l rows ∧
        StandardMethods l.header ∧ Measures l rows info := by
  constructor
  · intro h
    obtain ⟨_, hsignature, h⟩ := bind_ok.mp h
    obtain ⟨scan, hscan, h⟩ := bind_ok.mp h
    obtain ⟨⟨width, height, colorType⟩, hihdr, h⟩ := bind_ok.mp h
    obtain ⟨_, hiend, h⟩ := bind_ok.mp h
    obtain ⟨_, hpalette, h⟩ := bind_ok.mp h
    obtain ⟨rowBytes, hrowBytes, h⟩ := bind_ok.mp h
    obtain ⟨⟨transparent, decoder⟩, hrows, h⟩ := bind_ok.mp h
    obtain ⟨_, hfinish, h⟩ := bind_ok.mp h
    cases h
    rw [refuse_ok, Bool.or_eq_false_iff, decide_eq_false_iff_not, decide_eq_false_iff_not,
      not_not] at hsignature
    rw [refuse_ok, Bool.not_eq_false'] at hiend
    obtain ⟨l, hl, hrest, rfl⟩ := scanChunks_layout.mp ⟨hscan, hiend⟩
    cases orFault_ok.mp hihdr
    rw [orFault_ok, checkedMul_rowBytes hl.wellFormed, Option.some.injEq] at hrowBytes
    subst hrowBytes
    have hallowed := allowed_of_wellFormed hl.wellFormed
    obtain ⟨lines, rows, hcount, hlines, hbytes, hcorrupt, hraster, hentries, rfl⟩ :=
      (scanRows_ok hallowed hl.wellFormed.width.1).mp hrows
    obtain ⟨hempty, hfine⟩ := finish_ok.mp hfinish
    rw [hempty, List.append_nil] at hbytes
    have hlengths := hraster.row_length hlines
    refine ⟨l, rows, ⟨?_, hl.wellFormed, lines.flatMap Png.Scanline.bytes, ?_, ?_⟩,
      ⟨hl.compression, hl.filterMethod⟩, ?_⟩
    · rw [Png.Layout.bytes, ← hrest, ← hsignature.2, List.take_append_drop]
    · rw [← hbytes]
      rw [hfine] at hcorrupt
      exact congrArg (Inflated.mk _) hcorrupt.symm
    · exact {
        lines := ⟨lines, hcount, hlines, rfl, hraster⟩
        entries := (entries_iff hlengths).mp hentries }
    · exact {
        width := rfl
        height := rfl
        alphaCapable := by
          rw [Bool.or_eq_true, ← hasAlpha_iff]
          rfl
        hasTransparentPixels := by
          rw [Bool.false_or]
          exact any_rowTransparent }
  · rintro ⟨l, rows, ⟨rfl, hl, raw, hraw, hpictures⟩, hstandard, hmeasures⟩
    obtain ⟨lines, hcount, hlines, rfl, hraster⟩ := hpictures.lines
    have hallowed := allowed_of_wellFormed hl
    have hscan := (scanChunks_layout.mpr
      ⟨l, ⟨hl, hstandard.compression, hstandard.filterMethod⟩, drop_bytes l, rfl⟩).1
    have hpalette : (decide (l.header.colorType.code = 3) && (Png.paletteOf l.before).isNone)
        = false := hasPalette_iff.mpr hl.palette
    have hlengths := hraster.row_length hlines
    have hrows : scanRows l.header.colorType.code (Png.paletteOf l.before)
        (Png.transparencyOf l.before) l.header.width
        (l.header.width * l.header.colorType.channels) l.header.height
        (List.replicate (l.header.width * l.header.colorType.channels) 0)
        (inflate l.compressed) false
        = .ok (rows.any (rowTransparent l.header.colorType (Png.transparencyOf l.before)
            l.header.width), { bytes := [], corrupt := false }) := by
      refine (scanRows_ok hallowed hl.width.1).mpr ⟨lines, rows, hcount, hlines, ?_, ?_, hraster,
        (entries_iff hlengths).mpr hpictures.entries, by rw [Bool.false_or]⟩
      · rw [hraw, List.append_nil]
      · rw [hraw]
    have hinfo : info = {
        width := l.header.width, height := l.header.height
        alphaCapable := (decide (l.header.colorType.code = 4)
          || decide (l.header.colorType.code = 6)) || (Png.transparencyOf l.before).isSome
        hasTransparentPixels := rows.any (rowTransparent l.header.colorType
          (Png.transparencyOf l.before) l.header.width) } := by
      cases info
      congr 1
      · exact hmeasures.width
      · exact hmeasures.height
      · rw [Bool.eq_iff_iff, Bool.or_eq_true, ← hasAlpha_iff]
        exact hmeasures.alphaCapable
      · rw [Bool.eq_iff_iff, any_rowTransparent]
        exact hmeasures.hasTransparentPixels
    rw [hinfo]
    refine bind_ok.mpr ⟨(), refuse_ok.mpr ?_, bind_ok.mpr ⟨_, hscan, bind_ok.mpr ⟨_,
      orFault_ok.mpr rfl, bind_ok.mpr ⟨(), refuse_ok.mpr rfl, bind_ok.mpr ⟨(),
      refuse_ok.mpr hpalette, bind_ok.mpr ⟨_, orFault_ok.mpr (checkedMul_rowBytes hl),
      bind_ok.mpr ⟨_, hrows, bind_ok.mpr ⟨(), rfl, rfl⟩⟩⟩⟩⟩⟩⟩⟩
    have hlength := length_bytes l
    rw [take_bytes, Bool.or_eq_false_iff, decide_eq_false_iff_not, decide_eq_false_iff_not,
      not_not]
    exact ⟨by omega, rfl⟩

/-- Something is reported of every image. -/
theorem exists_measures (l : Png.Layout) (rows : List (List UInt8)) :
    ∃ info, Measures l rows info := by
  classical
  refine ⟨{
    width := l.header.width, height := l.header.height
    alphaCapable := l.header.colorType.hasAlpha || (Png.transparencyOf l.before).isSome
    hasTransparentPixels := decide (Png.Transparent l.header (Png.transparencyOf l.before) rows)
  }, rfl, rfl, ?_, ?_⟩
  · rw [Bool.or_eq_true]
  · rw [decide_eq_true_iff]

/--
**The PNG check is exact.**

The check accepts a byte string if and only if it is a well-formed file within the bounds,
with the compression and the filter method that the format has, whose data inflates to the
lines of an image. And what is reported of an accepted file is right for any way to read its
bytes as such a file: the size, whether the image can have an alpha at all, and whether some
pixel is not opaque.
-/
theorem png_check_exact (inflate : List UInt8 → Inflated) (bytes : List UInt8) :
    ((∃ info, validatePng inflate bytes = .ok info) ↔
        ∃ (l : Png.Layout) (rows : List (List UInt8)),
          Shows inflate bytes l rows ∧ StandardMethods l.header)
      ∧ ∀ info, validatePng inflate bytes = .ok info →
        ∀ (l : Png.Layout) (rows : List (List UInt8)), Shows inflate bytes l rows →
          StandardMethods l.header → Measures l rows info := by
  have haccepts : ∀ (l : Png.Layout) (rows : List (List UInt8)), Shows inflate bytes l rows →
      StandardMethods l.header →
      ∃ info, validatePng inflate bytes = .ok info ∧ Measures l rows info := by
    intro l rows hshows hstandard
    obtain ⟨info, hmeasures⟩ := exists_measures l rows
    exact ⟨info, (validatePng_ok inflate bytes info).mpr ⟨l, rows, hshows, hstandard, hmeasures⟩,
      hmeasures⟩
  refine ⟨⟨?_, ?_⟩, ?_⟩
  · rintro ⟨info, h⟩
    obtain ⟨l, rows, hshows, hstandard, -⟩ := (validatePng_ok inflate bytes info).mp h
    exact ⟨l, rows, hshows, hstandard⟩
  · rintro ⟨l, rows, hshows, hstandard⟩
    obtain ⟨info, h, -⟩ := haccepts l rows hshows hstandard
    exact ⟨info, h⟩
  · intro info h l rows hshows hstandard
    obtain ⟨info', h', hmeasures⟩ := haccepts l rows hshows hstandard
    rw [h] at h'
    cases h'
    exact hmeasures

/-! ## An image of two pixels -/

section TwoPixels

/-- Two pixels, black and transparent beside white, with a palette of these two colours. -/
def twoPixels (compression : UInt8) : Png.Layout where
  header := { width := 2, height := 1, colorType := .indexed, compression, filterMethod := 0 }
  before := [
    { type := Png.plte, data := [0, 0, 0, 255, 255, 255], type_length := rfl
      data_length := by decide },
    { type := Png.trns, data := [0], type_length := rfl, data_length := by decide }]
  data := [
    { type := Png.idat, data := [120, 218, 99, 100, 96, 4, 0, 0, 7, 0, 3]
      type_length := rfl, data_length := by decide }]
  after := []

/-- The decoder, which knows the data of this image. -/
def twoPixelsInflate (data : List UInt8) : Inflated :=
  if data = [120, 218, 99, 100, 96, 4, 0, 0, 7, 0, 3] then { bytes := [1, 0, 1], corrupt := false }
  else { bytes := [], corrupt := true }

theorem twoPixels_wellFormed (compression : UInt8) :
    (twoPixels compression).WellFormed pngLimits where
  width := (by decide : 0 < 2 ∧ 2 ≤ 8192)
  height := (by decide : 0 < 1 ∧ 1 ≤ 8192)
  raw := (by decide : 1 * (1 + 2 * 1) ≤ maxPngRawBytes)
  before := by
    intro earlier c later heq
    match earlier, heq with
    | [], heq =>
      cases heq
      exact .palette rfl rfl rfl (by decide) (by decide)
    | [first], heq =>
      cases heq
      exact .transparency rfl rfl ⟨_, rfl, by decide, by decide⟩
    | _ :: _ :: _, heq => simp [twoPixels] at heq
  palette := fun _ => rfl
  data := by
    intro c hc
    rw [List.mem_singleton.mp hc]
  some := by simp [twoPixels]
  size := (by decide : 11 ≤ maxImageJsonBytes)
  after := by simp [twoPixels]

theorem twoPixels_shows (compression : UInt8) :
    Shows twoPixelsInflate (twoPixels compression).bytes (twoPixels compression) [[0, 1]] where
  bytes := rfl
  wellFormed := twoPixels_wellFormed compression
  pictures := by
    refine ⟨[1, 0, 1], rfl, ⟨[{ filter := .sub, samples := [0, 1] }], rfl, ?_, rfl, ?_⟩, ?_⟩
    · intro line hline
      rw [List.mem_singleton.mp hline]
      rfl
    · have hrow : Png.Reconstructs 1 [0, 0] { filter := .sub, samples := [0, 1] } [0, 1] :=
        ⟨rfl, by decide⟩
      exact .cons hrow .nil
    · intro _ row hrow sample hsample
      rw [List.mem_singleton.mp hrow] at hsample
      refine ⟨[0, 0, 0, 255, 255, 255], rfl, ?_⟩
      have hindex : sample = 0 ∨ sample = 1 := by simpa using hsample
      rcases hindex with rfl | rfl
      · decide
      · decide

/-- The bytes of the file. -/
def twoPixelsFile : List UInt8 := [
  0x89, 0x50, 0x4e, 0x47, 0x0d, 0x0a, 0x1a, 0x0a,
  0x00, 0x00, 0x00, 0x0d, 0x49, 0x48, 0x44, 0x52, 0x00, 0x00, 0x00, 0x02, 0x00, 0x00, 0x00, 0x01,
  0x08, 0x03, 0x00, 0x00, 0x00, 0xc3, 0xfc, 0x8f, 0xb8,
  0x00, 0x00, 0x00, 0x06, 0x50, 0x4c, 0x54, 0x45, 0x00, 0x00, 0x00, 0xff, 0xff, 0xff, 0xa5, 0xd9,
  0x9f, 0xdd,
  0x00, 0x00, 0x00, 0x01, 0x74, 0x52, 0x4e, 0x53, 0x00, 0x40, 0xe6, 0xd8, 0x66,
  0x00, 0x00, 0x00, 0x0b, 0x49, 0x44, 0x41, 0x54, 0x78, 0xda, 0x63, 0x64, 0x60, 0x04, 0x00, 0x00,
  0x07, 0x00, 0x03, 0xdd, 0xd5, 0xc8, 0x98,
  0x00, 0x00, 0x00, 0x00, 0x49, 0x45, 0x4e, 0x44, 0xae, 0x42, 0x60, 0x82]

theorem bytes_twoPixels : (twoPixels 0).bytes = twoPixelsFile := by decide +kernel

/-- The file is accepted, and its first pixel is transparent. -/
theorem png_check_exact_twoPixels :
    ∃ info, validatePng twoPixelsInflate twoPixelsFile = .ok info
      ∧ info.width = 2 ∧ info.height = 1 ∧ info.alphaCapable = true
      ∧ info.hasTransparentPixels = true := by
  have hshows := twoPixels_shows 0
  rw [bytes_twoPixels] at hshows
  have hstandard : StandardMethods (twoPixels 0).header := ⟨rfl, rfl⟩
  have hexact := png_check_exact twoPixelsInflate twoPixelsFile
  obtain ⟨info, hok⟩ := hexact.1.mpr ⟨_, _, hshows, hstandard⟩
  have hmeasures := hexact.2 info hok _ _ hshows hstandard
  refine ⟨info, hok, hmeasures.width, hmeasures.height, ?_, ?_⟩
  · exact hmeasures.alphaCapable.mpr (Or.inr rfl)
  · exact hmeasures.hasTransparentPixels.mpr ⟨[0, 1], List.mem_cons_self, 0, by decide, by decide⟩

/-- The method of compression stands in the bytes. -/
theorem getD_compression (l : Png.Layout) : l.bytes.getD 26 0 = l.header.compression := rfl

/-- The same file with another method of compression is refused, although there is nothing
else wrong with it. -/
theorem png_compression_refused :
    ¬ ∀ (inflate : List UInt8 → Inflated) (bytes : List UInt8),
      (∃ info, validatePng inflate bytes = .ok info) ↔
        ∃ (l : Png.Layout) (rows : List (List UInt8)), Shows inflate bytes l rows := by
  intro hall
  obtain ⟨info, hok⟩ := (hall twoPixelsInflate (twoPixels 1).bytes).mpr
    ⟨twoPixels 1, [[0, 1]], twoPixels_shows 1⟩
  obtain ⟨l, rows, hshows, hstandard, -⟩ := (validatePng_ok _ _ info).mp hok
  have hsame := congrArg (fun bytes : List UInt8 => bytes.getD 26 0) hshows.bytes
  simp only [getD_compression] at hsame
  rw [hstandard.compression] at hsame
  exact absurd hsame (by decide)

end TwoPixels

end Vergerail
