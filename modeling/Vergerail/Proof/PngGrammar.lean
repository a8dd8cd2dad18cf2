import Vergerail.Proof.PngChunks

/-!
# The order of the chunks

Between two chunks the scan is in one of three stages: it has seen nothing, it has seen the
header and then chunks that prepare the data, or it has seen data. In the second stage what
it remembers is the palette and the transparency among the chunks so far, so it takes
exactly the chunks that are admissible after these. In the third it takes data until
something else comes, then what may be passed over, and at the end of the bytes the ending.
-/

namespace Vergerail

open Lib

/-- The bounds of the source. -/
def pngLimits : Png.Limits where
  side := 8192
  compressed := maxImageJsonBytes
  raw := maxPngRawBytes

/-! ## The types of chunks -/

section Types

variable {c : Png.Chunk}

theorem critical_eq (c : Png.Chunk) :
    (decide (0x41 ≤ c.type.getD 0 0) && decide (c.type.getD 0 0 ≤ 0x5a)) = c.critical := by
  have hlength := c.type_length
  rw [Png.Chunk.critical]
  cases htype : c.type with
  | nil =>
      rw [htype] at hlength
      cases hlength
  | cons byte bytes => rfl

/-- A chunk of one of the critical types is critical. -/
theorem critical_of_type (h : c.type = Png.ihdr ∨ c.type = Png.plte ∨ c.type = Png.idat
    ∨ c.type = Png.iend) : c.critical = true := by
  rw [Png.Chunk.critical]
  rcases h with h | h | h | h <;> rw [h] <;> decide

theorem not_passable_of_type (h : c.type = Png.ihdr ∨ c.type = Png.plte ∨ c.type = Png.trns
    ∨ c.type = Png.idat ∨ c.type = Png.iend) : ¬ c.Passable := by
  rintro ⟨htrns, hcritical⟩
  rcases h with h | h | h | h | h
  · rw [critical_of_type (Or.inl h)] at hcritical
    cases hcritical
  · rw [critical_of_type (Or.inr (Or.inl h))] at hcritical
    cases hcritical
  · exact htrns h
  · rw [critical_of_type (Or.inr (Or.inr (Or.inl h)))] at hcritical
    cases hcritical
  · rw [critical_of_type (Or.inr (Or.inr (Or.inr h)))] at hcritical
    cases hcritical

/-- A header, data or an ending does not prepare the data. -/
theorem not_admissible_of_type {colorType : Png.ColorType} {earlier : List Png.Chunk}
    (h : c.type = Png.ihdr ∨ c.type = Png.idat ∨ c.type = Png.iend) :
    ¬ Png.Admissible colorType earlier c := by
  intro hadmissible
  cases hadmissible with
  | palette hplte => rcases h with h | h | h <;> exact absurd (h.symm.trans hplte) (by decide)
  | transparency htrns =>
      rcases h with h | h | h <;> exact absurd (h.symm.trans htrns) (by decide)
  | passable hpass => exact not_passable_of_type (by tauto) hpass

/-- A chunk has one of the five types, or is read by the last branch. -/
theorem chunk_types (c : Png.Chunk) :
    c.type = Png.ihdr ∨ c.type = Png.plte ∨ c.type = Png.trns ∨ c.type = Png.idat
      ∨ c.type = Png.iend ∨ (c.type ≠ Png.ihdr ∧ c.type ≠ Png.plte ∧ c.type ≠ Png.trns
        ∧ c.type ≠ Png.idat ∧ c.type ≠ Png.iend) := by
  tauto

end Types

/-! ## The header -/

section Header

variable {h : Png.Header} {data : List UInt8} {s' : PngScan}

theorem pngChannels_code (colorType : Png.ColorType) :
    pngChannels colorType.code = colorType.channels := by
  cases colorType <;> rfl

theorem exists_code {byte : UInt8} (h : ([0, 2, 3, 4, 6] : List UInt8).contains byte = true) :
    ∃ colorType : Png.ColorType, colorType.code = byte := by
  rw [List.contains_iff_mem] at h
  simp only [List.mem_cons, List.not_mem_nil, or_false] at h
  rcases h with rfl | rfl | rfl | rfl | rfl
  · exact ⟨.gray, rfl⟩
  · exact ⟨.rgb, rfl⟩
  · exact ⟨.indexed, rfl⟩
  · exact ⟨.grayAlpha, rfl⟩
  · exact ⟨.rgba, rfl⟩

theorem channels_le (colorType : Png.ColorType) : colorType.channels ≤ 4 := by
  cases colorType <;> decide

/-- Within the bound on the sides the size of the raw data does not overflow. -/
theorem pngExpectedRawBytes_eq {width height : Nat} (colorType : Png.ColorType)
    (hwidth : width ≤ 8192) (hheight : height ≤ 8192) :
    pngExpectedRawBytes width height colorType.code
      = .ok ((width * colorType.channels + 1) * height) := by
  have hrow : width * colorType.channels ≤ 8192 * 4 :=
    Nat.mul_le_mul hwidth (channels_le colorType)
  have hraw : (width * colorType.channels + 1) * height ≤ (8192 * 4 + 1) * 8192 :=
    Nat.mul_le_mul (by omega) hheight
  have husize : (8192 * 4 + 1) * 8192 ≤ usizeMax := by decide
  rw [pngExpectedRawBytes, pngChannels_code, orFault_ok, checkedMul, if_pos (by omega),
    Option.bind_some, checkedAdd, if_pos (by omega), Option.bind_some, checkedMul,
    if_pos (by omega)]

/-- The headers that the source supports. -/
structure Supported (h : Png.Header) : Prop where
  width : 0 < h.width ∧ h.width ≤ 8192
  height : 0 < h.height ∧ h.height ≤ 8192
  raw : h.height * (1 + h.rowBytes) ≤ maxPngRawBytes
  compression : h.compression = 0
  filterMethod : h.filterMethod = 0

/-- The scan after the header and these chunks. -/
def PngScan.preamble (h : Png.Header) (seen : List Png.Chunk) : PngScan where
  ihdr := some (h.width, h.height, h.colorType.code)
  idat := []
  idatSeen := false
  idatClosed := false
  palette := Png.paletteOf seen
  transparency := Png.transparencyOf seen
  sawIend := false

theorem raw_eq (h : Png.Header) :
    (h.width * h.colorType.channels + 1) * h.height = h.height * (1 + h.rowBytes) := by
  rw [Png.Header.rowBytes, Nat.mul_comm, Nat.add_comm]

/-- **The first chunk is a supported header.** -/
theorem readIhdr_ok :
    PngScan.new.readIhdr 8 data = .ok s' ↔
      ∃ h : Png.Header, Supported h ∧ data = h.data ∧ s' = .preamble h [] := by
  constructor
  · intro hread
    obtain ⟨_, hshape, hread⟩ := bind_ok.mp hread
    obtain ⟨_, hformat, hread⟩ := bind_ok.mp hread
    obtain ⟨raw, hraw, hread⟩ := bind_ok.mp hread
    obtain ⟨_, hlimit, hread⟩ := bind_ok.mp hread
    cases hread
    simp only [refuse_ok, Bool.or_eq_false_iff, decide_eq_false_iff_not, not_not, not_lt,
      Bool.not_eq_false'] at hshape hformat hlimit
    obtain ⟨⟨-, hlength⟩, -⟩ := hshape
    match data, hlength with
    | [a, b, c, d, e, f, g, i, depth, color, compression, filterMethod, interlace], _ =>
      obtain ⟨⟨⟨⟨⟨⟨⟨⟨hw, hh⟩, hw'⟩, hh'⟩, hdepth⟩, hcolor⟩, hcompression⟩, hfilter⟩,
        hinterlace⟩ := hformat
      obtain ⟨colorType, hcode⟩ := exists_code hcolor
      let h : Png.Header := {
        width := Png.fromBe [a, b, c, d], height := Png.fromBe [e, f, g, i]
        colorType, compression, filterMethod }
      have hexpected : pngExpectedRawBytes h.width h.height h.colorType.code = .ok raw := by
        rw [hcode]
        exact hraw
      have hproduct := Except.ok.inj
        ((pngExpectedRawBytes_eq colorType hw' hh').symm.trans hexpected)
      refine ⟨h, ⟨⟨Nat.pos_of_ne_zero hw, hw'⟩, ⟨Nat.pos_of_ne_zero hh, hh'⟩, ?_,
        hcompression, hfilter⟩, ?_, ?_⟩
      · rw [← raw_eq]
        exact hproduct ▸ hlimit
      · have hwidth : Png.be32 h.width = [a, b, c, d] := Png.be32_fromBe rfl
        have hheight : Png.be32 h.height = [e, f, g, i] := Png.be32_fromBe rfl
        have hdepth' : depth = 8 := hdepth
        have hinterlace' : interlace = 0 := hinterlace
        rw [Png.Header.data, hwidth, hheight, hcode, hdepth', hinterlace']
        rfl
      · rw [PngScan.preamble, hcode]
        rfl
  · rintro ⟨h, hok, rfl, rfl⟩
    have hbound : h.width < 2 ^ 32 ∧ h.height < 2 ^ 32 := by
      have hw := hok.width
      have hh := hok.height
      omega
    have hwidth : Png.fromBe (h.data.take 4) = h.width := Png.fromBe_be32 hbound.1
    have hheight : Png.fromBe ((h.data.drop 4).take 4) = h.height := Png.fromBe_be32 hbound.2
    have hcolor : h.data.getD 9 0 = h.colorType.code := rfl
    have hlisted : ([0, 2, 3, 4, 6] : List UInt8).contains h.colorType.code = true := by
      cases h.colorType <;> decide
    have hcompression : h.data.getD 10 0 = 0 := hok.compression
    have hfilter : h.data.getD 11 0 = 0 := hok.filterMethod
    refine bind_ok.mpr ⟨(), refuse_ok.mpr rfl, ?_⟩
    rw [hwidth, hheight, hcolor, hcompression, hfilter]
    refine bind_ok.mpr ⟨(), refuse_ok.mpr ?_, bind_ok.mpr ⟨_,
      pngExpectedRawBytes_eq h.colorType hok.width.2 hok.height.2, bind_ok.mpr ⟨(),
      refuse_ok.mpr ?_, rfl⟩⟩⟩
    · have hw := hok.width
      have hh := hok.height
      simp only [Bool.or_eq_false_iff, decide_eq_false_iff_not, not_not, not_lt,
        Bool.not_eq_false', hlisted, and_true]
      exact ⟨⟨⟨⟨⟨by omega, by omega⟩, hw.2⟩, hh.2⟩, rfl⟩, rfl⟩
    · rw [raw_eq, decide_eq_false_iff_not, not_lt]
      exact hok.raw

end Header

/-! ## A step, by the type of the chunk -/

namespace PngScan

variable {s s' : PngScan} {chunkType data : List UInt8} {offset : Nat} {atEnd : Bool}

theorem readChunk_ok (hopen : s.sawIend = false) :
    s.readChunk offset atEnd chunkType data = .ok s' ↔
      ∃ next, s.readTyped offset atEnd chunkType data = .ok next ∧ s' = next.close chunkType := by
  constructor
  · intro hread
    obtain ⟨_, _, hread⟩ := bind_ok.mp hread
    obtain ⟨next, hnext, hread⟩ := bind_ok.mp hread
    cases hread
    exact ⟨next, hnext, rfl⟩
  · rintro ⟨next, hnext, rfl⟩
    exact bind_ok.mpr ⟨(), refuse_ok.mpr hopen, bind_ok.mpr ⟨next, hnext, rfl⟩⟩

theorem readTyped_ihdr (h : chunkType = Png.ihdr) :
    s.readTyped offset atEnd chunkType data = s.readIhdr offset data := by
  rw [readTyped, if_pos h]

theorem readTyped_plte (h : chunkType = Png.plte) :
    s.readTyped offset atEnd chunkType data = s.readPlte data := by
  rw [readTyped, h, if_neg (by decide), if_pos rfl]

theorem readTyped_trns (h : chunkType = Png.trns) :
    s.readTyped offset atEnd chunkType data = s.readTrns data := by
  rw [readTyped, h, if_neg (by decide), if_neg (by decide), if_pos rfl]

theorem readTyped_idat (h : chunkType = Png.idat) :
    s.readTyped offset atEnd chunkType data = s.readIdat data := by
  rw [readTyped, h, if_neg (by decide), if_neg (by decide), if_neg (by decide), if_pos rfl]

theorem readTyped_iend (h : chunkType = Png.iend) :
    s.readTyped offset atEnd chunkType data = s.readIend atEnd data := by
  rw [readTyped, h, if_neg (by decide), if_neg (by decide), if_neg (by decide),
    if_neg (by decide), if_pos rfl]

theorem readTyped_other (h : chunkType ≠ Png.ihdr ∧ chunkType ≠ Png.plte
    ∧ chunkType ≠ Png.trns ∧ chunkType ≠ Png.idat ∧ chunkType ≠ Png.iend) :
    s.readTyped offset atEnd chunkType data = s.readOther chunkType := by
  rw [readTyped, if_neg h.1, if_neg h.2.1, if_neg h.2.2.1, if_neg h.2.2.2.1, if_neg h.2.2.2.2]

theorem close_of_not_seen (h : s.idatSeen = false) (chunkType : List UInt8) :
    s.close chunkType = s := by
  rw [close, h, Bool.and_false, if_neg Bool.false_ne_true]

theorem close_idat (h : chunkType = Png.idat) : s.close chunkType = s := by
  rw [close, h, decide_eq_true rfl, Bool.true_or, Bool.not_true, Bool.false_and,
    if_neg Bool.false_ne_true]

theorem close_iend (h : chunkType = Png.iend) : s.close chunkType = s := by
  rw [close, h, decide_eq_true rfl, Bool.or_true, Bool.not_true, Bool.false_and,
    if_neg Bool.false_ne_true]

end PngScan

/-! ## What prepares the data -/

section Preamble

variable {h : Png.Header} {seen : List Png.Chunk} {c : Png.Chunk} {s' : PngScan}
  {offset : Nat} {atEnd : Bool}

theorem allowsPalette_iff (colorType : Png.ColorType) :
    (decide (colorType.code = 0) || decide (colorType.code = 4)) = false
      ↔ colorType.allowsPalette = true := by
  cases colorType <;> decide

theorem indexed_iff (colorType : Png.ColorType) : colorType.code = 3 ↔ colorType = .indexed := by
  cases colorType <;> decide

theorem readPlte_preamble (htype : c.type = Png.plte) :
    (PngScan.preamble h seen).readPlte c.data = .ok s' ↔
      (Png.paletteOf seen = none ∧ h.colorType.allowsPalette = true ∧ 3 ∣ c.data.length
        ∧ 0 < c.data.length ∧ c.data.length ≤ 768) ∧ s' = .preamble h (seen ++ [c]) := by
  have hnext : Png.paletteOf seen = none →
      { PngScan.preamble h seen with palette := some c.data } = .preamble h (seen ++ [c]) := by
    intro hnone
    have hpalette : Png.paletteOf (seen ++ [c]) = some c.data :=
      Png.dataOf_append_self hnone htype
    have htransparency : Png.transparencyOf (seen ++ [c]) = Png.transparencyOf seen :=
      Png.dataOf_append_other (by rw [htype]; decide) seen
    rw [PngScan.preamble, PngScan.preamble, hpalette, htransparency]
  constructor
  · intro hread
    obtain ⟨_, hheader, hread⟩ := bind_ok.mp hread
    cases hheader
    obtain ⟨_, hcheck, hread⟩ := bind_ok.mp hread
    cases hread
    rw [refuse_ok, Bool.or_eq_false_iff, allowsPalette_iff] at hcheck
    obtain ⟨hcheck, hallowed⟩ := hcheck
    simp only [Bool.or_eq_false_iff, decide_eq_false_iff_not, not_not, not_lt] at hcheck
    obtain ⟨⟨⟨⟨-, hnone⟩, hsome⟩, hlong⟩, hthree⟩ := hcheck
    have hnone : Png.paletteOf seen = none :=
      Option.isNone_iff_eq_none.mp (Option.isSome_eq_false_iff.mp hnone)
    exact ⟨⟨hnone, hallowed, Nat.dvd_of_mod_eq_zero hthree, Nat.pos_of_ne_zero hsome, hlong⟩,
      hnext hnone⟩
  · rintro ⟨⟨hnone, hallowed, hthree, hsome, hlong⟩, rfl⟩
    rw [← hnext hnone]
    refine bind_ok.mpr ⟨_, orFault_ok.mpr rfl, bind_ok.mpr ⟨(), refuse_ok.mpr ?_, rfl⟩⟩
    rw [Bool.or_eq_false_iff, allowsPalette_iff]
    refine ⟨?_, hallowed⟩
    simp only [Bool.or_eq_false_iff, decide_eq_false_iff_not, not_not, not_lt]
    refine ⟨⟨⟨⟨rfl, ?_⟩, by omega⟩, hlong⟩, Nat.mod_eq_zero_of_dvd hthree⟩
    exact congrArg Option.isSome hnone

theorem transparencyValid_iff (palette : Option (List UInt8)) (colorType : Png.ColorType)
    (data : List UInt8) :
    PngScan.transparencyValid palette colorType.code data = true ↔
      colorType.AllowsTransparency palette data := by
  cases colorType with
  | gray =>
      show (decide (data.length = 2) && decide (data.getD 0 0 = 0)) = true
        ↔ ∃ sample, data = [0, sample]
      rw [Bool.and_eq_true, decide_eq_true_iff, decide_eq_true_iff]
      constructor
      · rintro ⟨hlength, hhigh⟩
        match data, hlength with
        | [high, low], _ =>
          have hhigh' : high = 0 := hhigh
          exact ⟨low, by rw [hhigh']⟩
      · rintro ⟨sample, rfl⟩
        exact ⟨rfl, rfl⟩
  | rgb =>
      show (decide (data.length = 6)
          && (PngScan.samplePairs data).all (fun sample => decide (sample.1 = 0))) = true
        ↔ ∃ red green blue, data = [0, red, 0, green, 0, blue]
      rw [Bool.and_eq_true, decide_eq_true_iff]
      constructor
      · rintro ⟨hlength, hhigh⟩
        match data, hlength with
        | [a, red, b, green, c, blue], _ =>
          simp only [PngScan.samplePairs, List.all_cons, List.all_nil, Bool.and_eq_true,
            decide_eq_true_iff] at hhigh
          obtain ⟨rfl, rfl, rfl, -⟩ := hhigh
          exact ⟨red, green, blue, rfl⟩
      · rintro ⟨red, green, blue, rfl⟩
        exact ⟨rfl, by simp [PngScan.samplePairs]⟩
  | indexed =>
      show palette.any (fun colors => decide (data.length ≤ colors.length / 3)
          && decide (0 < data.length)) = true
        ↔ ∃ colors, palette = some colors ∧ 0 < data.length ∧ data.length ≤ colors.length / 3
      cases palette with
      | none => simp
      | some colors => simp [and_comm]
  | grayAlpha =>
      show false = true ↔ False
      simp
  | rgba =>
      show false = true ↔ False
      simp

theorem readTrns_preamble (htype : c.type = Png.trns) :
    (PngScan.preamble h seen).readTrns c.data = .ok s' ↔
      (Png.transparencyOf seen = none
        ∧ h.colorType.AllowsTransparency (Png.paletteOf seen) c.data)
        ∧ s' = .preamble h (seen ++ [c]) := by
  have hnext : Png.transparencyOf seen = none →
      { PngScan.preamble h seen with transparency := some c.data }
        = .preamble h (seen ++ [c]) := by
    intro hnone
    have htransparency : Png.transparencyOf (seen ++ [c]) = some c.data :=
      Png.dataOf_append_self hnone htype
    have hpalette : Png.paletteOf (seen ++ [c]) = Png.paletteOf seen :=
      Png.dataOf_append_other (by rw [htype]; decide) seen
    rw [PngScan.preamble, PngScan.preamble, hpalette, htransparency]
  constructor
  · intro hread
    obtain ⟨_, hheader, hread⟩ := bind_ok.mp hread
    cases hheader
    obtain ⟨_, honce, hread⟩ := bind_ok.mp hread
    obtain ⟨_, hvalid, hread⟩ := bind_ok.mp hread
    cases hread
    rw [refuse_ok, Bool.or_eq_false_iff] at honce
    rw [refuse_ok, Bool.not_eq_false', transparencyValid_iff] at hvalid
    have hnone : Png.transparencyOf seen = none :=
      Option.isNone_iff_eq_none.mp (Option.isSome_eq_false_iff.mp honce.2)
    exact ⟨⟨hnone, hvalid⟩, hnext hnone⟩
  · rintro ⟨⟨hnone, hallowed⟩, rfl⟩
    rw [← hnext hnone]
    refine bind_ok.mpr ⟨_, orFault_ok.mpr rfl, bind_ok.mpr ⟨(), refuse_ok.mpr ?_,
      bind_ok.mpr ⟨(), refuse_ok.mpr ?_, rfl⟩⟩⟩
    · exact congrArg Option.isSome hnone
    · rw [Bool.not_eq_false']
      exact (transparencyValid_iff _ _ _).mpr hallowed

/-- The scan in the data: what of it was taken, and whether something else came after. -/
def PngScan.inData (h : Png.Header) (before : List Png.Chunk) (compressed : List UInt8)
    (closed : Bool) : PngScan :=
  { PngScan.preamble h before with idat := compressed, idatSeen := true, idatClosed := closed }

/-- An indexed image has its palette by now. -/
def HasPalette (h : Png.Header) (seen : List Png.Chunk) : Prop :=
  h.colorType = .indexed → (Png.paletteOf seen).isSome = true

theorem hasPalette_iff :
    (decide (h.colorType.code = 3) && (Png.paletteOf seen).isNone) = false
      ↔ HasPalette h seen := by
  rw [HasPalette, ← indexed_iff]
  cases Png.paletteOf seen <;> simp

/-- The first data. -/
theorem readIdat_preamble :
    (PngScan.preamble h seen).readIdat c.data = .ok s' ↔
      (HasPalette h seen ∧ c.data.length ≤ maxImageJsonBytes)
        ∧ s' = .inData h seen c.data false := by
  rw [← hasPalette_iff]
  constructor
  · intro hread
    obtain ⟨_, hheader, hread⟩ := bind_ok.mp hread
    cases hheader
    obtain ⟨_, hpalette, hread⟩ := bind_ok.mp hread
    obtain ⟨_, hsize, hread⟩ := bind_ok.mp hread
    cases hread
    rw [refuse_ok, Bool.or_eq_false_iff] at hpalette
    rw [refuse_ok, decide_eq_false_iff_not, not_lt] at hsize
    exact ⟨⟨hpalette.1, hsize⟩, rfl⟩
  · rintro ⟨⟨hpalette, hsize⟩, rfl⟩
    refine bind_ok.mpr ⟨_, orFault_ok.mpr rfl, bind_ok.mpr ⟨(), refuse_ok.mpr ?_,
      bind_ok.mpr ⟨(), refuse_ok.mpr ?_, rfl⟩⟩⟩
    · rw [Bool.or_eq_false_iff]
      exact ⟨hpalette, rfl⟩
    · rw [decide_eq_false_iff_not, not_lt]
      exact hsize

theorem readOther_preamble :
    (PngScan.preamble h seen).readOther c.type = .ok s' ↔
      c.critical = false ∧ s' = .preamble h seen := by
  constructor
  · intro hread
    obtain ⟨_, _, hread⟩ := bind_ok.mp hread
    obtain ⟨_, hcritical, hread⟩ := bind_ok.mp hread
    cases hread
    rw [refuse_ok, critical_eq] at hcritical
    exact ⟨hcritical, rfl⟩
  · rintro ⟨hcritical, rfl⟩
    refine bind_ok.mpr ⟨(), refuse_ok.mpr rfl, bind_ok.mpr ⟨(), refuse_ok.mpr ?_, rfl⟩⟩
    rw [critical_eq]
    exact hcritical

/-- **A step before the data**: an admissible chunk, or the first data. -/
theorem readChunk_preamble :
    (PngScan.preamble h seen).readChunk offset atEnd c.type c.data = .ok s' ↔
      (Png.Admissible h.colorType seen c ∧ s' = .preamble h (seen ++ [c]))
        ∨ (c.type = Png.idat ∧ (HasPalette h seen ∧ c.data.length ≤ maxImageJsonBytes)
          ∧ s' = .inData h seen c.data false) := by
  rw [PngScan.readChunk_ok rfl]
  rcases chunk_types c with htype | htype | htype | htype | htype | htype
  · -- a second header
    rw [PngScan.readTyped_ihdr htype]
    constructor
    · rintro ⟨next, hread, -⟩
      obtain ⟨_, hfirst, _⟩ := bind_ok.mp hread
      cases hfirst
    · rintro (⟨hadmissible, -⟩ | ⟨hidat, -⟩)
      · exact absurd hadmissible (not_admissible_of_type (Or.inl htype))
      · exact absurd (htype.symm.trans hidat) (by decide)
  · have hpass := not_passable_of_type (Or.inr (Or.inl htype))
    rw [PngScan.readTyped_plte htype]
    constructor
    · rintro ⟨next, hread, rfl⟩
      obtain ⟨⟨hnone, hallowed, hthree, hlength⟩, rfl⟩ := (readPlte_preamble htype).mp hread
      exact Or.inl ⟨.palette htype hnone hallowed hthree hlength,
        PngScan.close_of_not_seen rfl _⟩
    · rintro (⟨hadmissible, rfl⟩ | ⟨hidat, -⟩)
      · cases hadmissible with
        | palette _ hnone hallowed hthree hlength =>
            exact ⟨_, (readPlte_preamble htype).mpr ⟨⟨hnone, hallowed, hthree, hlength⟩, rfl⟩,
              (PngScan.close_of_not_seen rfl _).symm⟩
        | transparency htrns => exact absurd (htype.symm.trans htrns) (by decide)
        | passable h => exact absurd h hpass
      · exact absurd (htype.symm.trans hidat) (by decide)
  · have hpass := not_passable_of_type (Or.inr (Or.inr (Or.inl htype)))
    rw [PngScan.readTyped_trns htype]
    constructor
    · rintro ⟨next, hread, rfl⟩
      obtain ⟨⟨hnone, hallowed⟩, rfl⟩ := (readTrns_preamble htype).mp hread
      exact Or.inl ⟨.transparency htype hnone hallowed, PngScan.close_of_not_seen rfl _⟩
    · rintro (⟨hadmissible, rfl⟩ | ⟨hidat, -⟩)
      · cases hadmissible with
        | palette hplte => exact absurd (htype.symm.trans hplte) (by decide)
        | transparency _ hnone hallowed =>
            exact ⟨_, (readTrns_preamble htype).mpr ⟨⟨hnone, hallowed⟩, rfl⟩,
              (PngScan.close_of_not_seen rfl _).symm⟩
        | passable h => exact absurd h hpass
      · exact absurd (htype.symm.trans hidat) (by decide)
  · -- the first data
    rw [PngScan.readTyped_idat htype]
    constructor
    · rintro ⟨next, hread, rfl⟩
      obtain ⟨hallowed, rfl⟩ := readIdat_preamble.mp hread
      exact Or.inr ⟨htype, hallowed, PngScan.close_idat htype⟩
    · rintro (⟨hadmissible, -⟩ | ⟨-, hallowed, rfl⟩)
      · exact absurd hadmissible (not_admissible_of_type (Or.inr (Or.inl htype)))
      · exact ⟨_, readIdat_preamble.mpr ⟨hallowed, rfl⟩, (PngScan.close_idat htype).symm⟩
  · -- an ending without data
    rw [PngScan.readTyped_iend htype]
    constructor
    · rintro ⟨next, hread, -⟩
      obtain ⟨_, hdata, _⟩ := bind_ok.mp hread
      rw [refuse_ok, Bool.or_eq_false_iff] at hdata
      cases hdata.2
    · rintro (⟨hadmissible, -⟩ | ⟨hidat, -⟩)
      · exact absurd hadmissible (not_admissible_of_type (Or.inr (Or.inr htype)))
      · exact absurd (htype.symm.trans hidat) (by decide)
  · rw [PngScan.readTyped_other htype]
    have hsame : PngScan.preamble h (seen ++ [c]) = .preamble h seen := by
      rw [PngScan.preamble, PngScan.preamble, Png.paletteOf, Png.transparencyOf,
        Png.dataOf_append_other htype.2.1, Png.dataOf_append_other htype.2.2.1]
      rfl
    rw [hsame]
    constructor
    · rintro ⟨next, hread, rfl⟩
      obtain ⟨hcritical, rfl⟩ := readOther_preamble.mp hread
      exact Or.inl ⟨.passable ⟨htype.2.2.1, hcritical⟩, PngScan.close_of_not_seen rfl _⟩
    · rintro (⟨hadmissible, rfl⟩ | ⟨hidat, -⟩)
      · cases hadmissible with
        | palette hplte => exact absurd hplte htype.2.1
        | transparency htrns => exact absurd htrns htype.2.2.1
        | passable h =>
            exact ⟨_, readOther_preamble.mpr ⟨h.2, rfl⟩,
              (PngScan.close_of_not_seen rfl _).symm⟩
      · exact absurd hidat htype.2.2.2.1

end Preamble

/-! ## The data and what follows it -/

section Data

variable {h : Png.Header} {before : List Png.Chunk} {compressed : List UInt8} {closed : Bool}
  {c : Png.Chunk} {s' : PngScan} {offset : Nat} {atEnd : Bool}

/-- More data. -/
theorem readIdat_inData (hpalette : HasPalette h before) :
    (PngScan.inData h before compressed closed).readIdat c.data = .ok s' ↔
      (closed = false ∧ (compressed ++ c.data).length ≤ maxImageJsonBytes)
        ∧ s' = .inData h before (compressed ++ c.data) closed := by
  rw [← hasPalette_iff] at hpalette
  constructor
  · intro hread
    obtain ⟨_, hheader, hread⟩ := bind_ok.mp hread
    cases hheader
    obtain ⟨_, hopen, hread⟩ := bind_ok.mp hread
    obtain ⟨_, hsize, hread⟩ := bind_ok.mp hread
    cases hread
    rw [refuse_ok, Bool.or_eq_false_iff] at hopen
    rw [refuse_ok, decide_eq_false_iff_not, not_lt] at hsize
    exact ⟨⟨hopen.2, hsize⟩, rfl⟩
  · rintro ⟨⟨hopen, hsize⟩, rfl⟩
    refine bind_ok.mpr ⟨_, orFault_ok.mpr rfl, bind_ok.mpr ⟨(), refuse_ok.mpr ?_,
      bind_ok.mpr ⟨(), refuse_ok.mpr ?_, rfl⟩⟩⟩
    · rw [Bool.or_eq_false_iff]
      exact ⟨hpalette, hopen⟩
    · rw [decide_eq_false_iff_not, not_lt]
      exact hsize

theorem readOther_inData :
    (PngScan.inData h before compressed closed).readOther c.type = .ok s' ↔
      c.critical = false ∧ s' = .inData h before compressed true := by
  constructor
  · intro hread
    obtain ⟨_, _, hread⟩ := bind_ok.mp hread
    obtain ⟨_, hcritical, hread⟩ := bind_ok.mp hread
    cases hread
    rw [refuse_ok, critical_eq] at hcritical
    exact ⟨hcritical, rfl⟩
  · rintro ⟨hcritical, rfl⟩
    refine bind_ok.mpr ⟨(), refuse_ok.mpr rfl, bind_ok.mpr ⟨(), refuse_ok.mpr ?_, rfl⟩⟩
    rw [critical_eq]
    exact hcritical

/-- The scan after the ending. -/
def PngScan.ended (h : Png.Header) (before : List Png.Chunk) (compressed : List UInt8)
    (closed : Bool) : PngScan :=
  { PngScan.inData h before compressed closed with sawIend := true }

theorem readIend_inData :
    (PngScan.inData h before compressed closed).readIend atEnd c.data = .ok s' ↔
      (c.data = [] ∧ atEnd = true) ∧ s' = .ended h before compressed closed := by
  constructor
  · intro hread
    obtain ⟨_, hempty, hread⟩ := bind_ok.mp hread
    obtain ⟨_, hend, hread⟩ := bind_ok.mp hread
    cases hread
    rw [refuse_ok, Bool.or_eq_false_iff, decide_eq_false_iff_not, not_not] at hempty
    rw [refuse_ok, Bool.not_eq_false'] at hend
    exact ⟨⟨List.eq_nil_of_length_eq_zero hempty.1, hend⟩, rfl⟩
  · rintro ⟨⟨hempty, rfl⟩, rfl⟩
    refine bind_ok.mpr ⟨(), refuse_ok.mpr ?_, bind_ok.mpr ⟨(), refuse_ok.mpr rfl, rfl⟩⟩
    rw [hempty]
    rfl

/-- **A step in the data**: more of it, a chunk that may be passed over, or the ending. -/
theorem readChunk_inData (hpalette : HasPalette h before) :
    (PngScan.inData h before compressed closed).readChunk offset atEnd c.type c.data = .ok s' ↔
      (c.type = Png.idat ∧ (closed = false ∧ (compressed ++ c.data).length ≤ maxImageJsonBytes)
          ∧ s' = .inData h before (compressed ++ c.data) closed)
        ∨ (c.Passable ∧ s' = .inData h before compressed true)
        ∨ (c.type = Png.iend ∧ (c.data = [] ∧ atEnd = true)
          ∧ s' = .ended h before compressed closed) := by
  rw [PngScan.readChunk_ok rfl]
  rcases chunk_types c with htype | htype | htype | htype | htype | htype
  · have hpass := not_passable_of_type (Or.inl htype)
    rw [PngScan.readTyped_ihdr htype]
    constructor
    · rintro ⟨next, hread, -⟩
      obtain ⟨_, hfirst, _⟩ := bind_ok.mp hread
      cases hfirst
    · rintro (⟨hidat, -⟩ | ⟨h, -⟩ | ⟨hiend, -⟩)
      · exact absurd (htype.symm.trans hidat) (by decide)
      · exact absurd h hpass
      · exact absurd (htype.symm.trans hiend) (by decide)
  · -- the data was seen, so a palette comes too late
    have hpass := not_passable_of_type (Or.inr (Or.inl htype))
    rw [PngScan.readTyped_plte htype]
    constructor
    · rintro ⟨next, hread, -⟩
      obtain ⟨_, hheader, hread⟩ := bind_ok.mp hread
      cases hheader
      obtain ⟨_, hlate, _⟩ := bind_ok.mp hread
      cases hlate
    · rintro (⟨hidat, -⟩ | ⟨h, -⟩ | ⟨hiend, -⟩)
      · exact absurd (htype.symm.trans hidat) (by decide)
      · exact absurd h hpass
      · exact absurd (htype.symm.trans hiend) (by decide)
  · have hpass := not_passable_of_type (Or.inr (Or.inr (Or.inl htype)))
    rw [PngScan.readTyped_trns htype]
    constructor
    · rintro ⟨next, hread, -⟩
      obtain ⟨_, hheader, hread⟩ := bind_ok.mp hread
      cases hheader
      obtain ⟨_, hlate, _⟩ := bind_ok.mp hread
      cases hlate
    · rintro (⟨hidat, -⟩ | ⟨h, -⟩ | ⟨hiend, -⟩)
      · exact absurd (htype.symm.trans hidat) (by decide)
      · exact absurd h hpass
      · exact absurd (htype.symm.trans hiend) (by decide)
  · have hpass := not_passable_of_type (Or.inr (Or.inr (Or.inr (Or.inl htype))))
    rw [PngScan.readTyped_idat htype]
    constructor
    · rintro ⟨next, hread, rfl⟩
      obtain ⟨hopen, rfl⟩ := (readIdat_inData hpalette).mp hread
      exact Or.inl ⟨htype, hopen, PngScan.close_idat htype⟩
    · rintro (⟨-, hopen, rfl⟩ | ⟨h, -⟩ | ⟨hiend, -⟩)
      · exact ⟨_, (readIdat_inData hpalette).mpr ⟨hopen, rfl⟩, (PngScan.close_idat htype).symm⟩
      · exact absurd h hpass
      · exact absurd (htype.symm.trans hiend) (by decide)
  · have hpass := not_passable_of_type (Or.inr (Or.inr (Or.inr (Or.inr htype))))
    rw [PngScan.readTyped_iend htype]
    constructor
    · rintro ⟨next, hread, rfl⟩
      obtain ⟨hend, rfl⟩ := readIend_inData.mp hread
      exact Or.inr (Or.inr ⟨htype, hend, PngScan.close_iend htype⟩)
    · rintro (⟨hidat, -⟩ | ⟨h, -⟩ | ⟨-, hend, rfl⟩)
      · exact absurd (htype.symm.trans hidat) (by decide)
      · exact absurd h hpass
      · exact ⟨_, readIend_inData.mpr ⟨hend, rfl⟩, (PngScan.close_iend htype).symm⟩
  · rw [PngScan.readTyped_other htype]
    have hclosed : (PngScan.inData h before compressed true).close c.type
        = .inData h before compressed true := by
      rw [PngScan.close]
      split <;> rfl
    constructor
    · rintro ⟨next, hread, rfl⟩
      obtain ⟨hcritical, rfl⟩ := readOther_inData.mp hread
      exact Or.inr (Or.inl ⟨⟨htype.2.2.1, hcritical⟩, hclosed⟩)
    · rintro (⟨hidat, -⟩ | ⟨h, rfl⟩ | ⟨hiend, -⟩)
      · exact absurd hidat htype.2.2.2.1
      · exact ⟨_, readOther_inData.mpr ⟨h.2, rfl⟩, hclosed.symm⟩
      · exact absurd hiend htype.2.2.2.2

theorem eq_ending (htype : c.type = Png.iend) (hdata : c.data = []) : c = Png.Layout.ending := by
  cases c
  cases htype
  cases hdata
  rfl

/-- **A run in the data**: the rest of it, chunks that may be passed over, and the ending. -/
theorem run_inData (hpalette : HasPalette h before) {chunks : List Png.Chunk}
    (hsize : compressed.length ≤ maxImageJsonBytes) :
    (PngScan.run offset chunks (.inData h before compressed closed) = .ok s'
        ∧ s'.sawIend = true) ↔
      ∃ data after : List Png.Chunk, chunks = data ++ (after ++ [Png.Layout.ending])
        ∧ (closed = true → data = []) ∧ (∀ c ∈ data, c.type = Png.idat)
        ∧ (compressed ++ data.flatMap (·.data)).length ≤ maxImageJsonBytes
        ∧ (∀ c ∈ after, c.Passable)
        ∧ s' = .ended h before (compressed ++ data.flatMap (·.data))
          (closed || !after.isEmpty) := by
  induction chunks generalizing offset compressed closed with
  | nil =>
      constructor
      · rintro ⟨hrun, hend⟩
        cases hrun
        cases hend
      · rintro ⟨data, after, hchunks, -⟩
        simp at hchunks
  | cons c later ih =>
      rw [PngScan.run, bind_ok]
      constructor
      · rintro ⟨⟨next, hread, hrun⟩, hend⟩
        rcases (readChunk_inData hpalette).mp hread with
          ⟨htype, ⟨hopen, hlength⟩, rfl⟩ | ⟨hpass, rfl⟩ | ⟨htype, ⟨hdata, hlast⟩, rfl⟩
        · obtain ⟨data, after, rfl, hclosed, hidat, hbound, hafter, rfl⟩ :=
            (ih hlength).mp ⟨hrun, hend⟩
          rw [List.append_assoc] at hbound
          refine ⟨c :: data, after, rfl, ?_, ?_, hbound, hafter, ?_⟩
          · intro h
            rw [hopen] at h
            cases h
          · intro found hfound
            rcases List.mem_cons.mp hfound with rfl | hfound
            · exact htype
            · exact hidat found hfound
          · rw [List.append_assoc]
            rfl
        · obtain ⟨data, after, rfl, hclosed, hidat, hbound, hafter, rfl⟩ :=
            (ih hsize).mp ⟨hrun, hend⟩
          cases hclosed rfl
          refine ⟨[], c :: after, rfl, fun _ => rfl, hidat, hbound, ?_, ?_⟩
          · intro found hfound
            rcases List.mem_cons.mp hfound with rfl | hfound
            · exact hpass
            · exact hafter found hfound
          · rw [List.isEmpty_cons, Bool.not_false, Bool.or_true, Bool.true_or]
        · rw [List.isEmpty_iff] at hlast
          cases hlast
          cases hrun
          refine ⟨[], [], ?_, fun _ => rfl, (by simp), ?_, (by simp), ?_⟩
          · rw [eq_ending htype hdata]
            rfl
          · rw [List.flatMap_nil, List.append_nil]
            exact hsize
          · rw [List.flatMap_nil, List.append_nil, List.isEmpty_nil, Bool.not_true, Bool.or_false]
      · rintro ⟨data, after, hchunks, hclosed, hidat, hbound, hafter, hs⟩
        refine ⟨?_, by rw [hs]; rfl⟩
        cases data with
        | cons first data =>
            cases hchunks
            have hopen : closed = false := by
              cases closed with
              | false => rfl
              | true => cases hclosed rfl
            rw [List.flatMap_cons, ← List.append_assoc] at hbound hs
            have hlength : (compressed ++ c.data).length ≤ maxImageJsonBytes := by
              rw [List.length_append] at hbound
              omega
            refine ⟨_, (readChunk_inData hpalette).mpr (Or.inl ⟨hidat c List.mem_cons_self,
              ⟨hopen, hlength⟩, rfl⟩), ?_⟩
            refine ((ih hlength).mpr ⟨data, after, rfl, ?_, ?_, hbound, hafter, hs⟩).1
            · intro h
              rw [hopen] at h
              cases h
            · exact fun found hfound => hidat found (List.mem_cons_of_mem _ hfound)
        | nil =>
            cases after with
            | cons first after =>
                cases hchunks
                rw [List.isEmpty_cons, Bool.not_false, Bool.or_true] at hs
                refine ⟨_, (readChunk_inData hpalette).mpr (Or.inr (Or.inl
                  ⟨hafter c List.mem_cons_self, rfl⟩)), ?_⟩
                refine ((ih hsize).mpr ⟨[], after, rfl, fun _ => rfl, hidat, hbound, ?_, ?_⟩).1
                · exact fun found hfound => hafter found (List.mem_cons_of_mem _ hfound)
                · rw [Bool.true_or]
                  exact hs
            | nil =>
                cases hchunks
                rw [List.flatMap_nil, List.append_nil, List.isEmpty_nil, Bool.not_true,
                  Bool.or_false] at hs
                exact ⟨_, (readChunk_inData hpalette).mpr (Or.inr (Or.inr
                  ⟨rfl, ⟨rfl, rfl⟩, rfl⟩)), by rw [hs]; rfl⟩

end Data

/-! ## All chunks -/

section AllChunks

variable {h : Png.Header} {seen : List Png.Chunk} {s' : PngScan} {offset : Nat}

/-- **A run after the header**: admissible chunks, and then the data. -/
theorem run_preamble {chunks : List Png.Chunk} :
    (PngScan.run offset chunks (.preamble h seen) = .ok s' ∧ s'.sawIend = true) ↔
      ∃ before data after : List Png.Chunk,
        chunks = before ++ (data ++ (after ++ [Png.Layout.ending]))
        ∧ (∀ earlier c later, before = earlier ++ c :: later →
          Png.Admissible h.colorType (seen ++ earlier) c)
        ∧ HasPalette h (seen ++ before) ∧ (∀ c ∈ data, c.type = Png.idat) ∧ data ≠ []
        ∧ (data.flatMap (·.data)).length ≤ maxImageJsonBytes ∧ (∀ c ∈ after, c.Passable)
        ∧ s' = .ended h (seen ++ before) (data.flatMap (·.data)) (!after.isEmpty) := by
  induction chunks generalizing offset seen with
  | nil =>
      constructor
      · rintro ⟨hrun, hend⟩
        cases hrun
        cases hend
      · rintro ⟨before, data, after, hchunks, -⟩
        simp at hchunks
  | cons c later ih =>
      rw [PngScan.run, bind_ok]
      constructor
      · rintro ⟨⟨next, hread, hrun⟩, hend⟩
        rcases readChunk_preamble.mp hread with
          ⟨hadmissible, rfl⟩ | ⟨htype, ⟨hpalette, hlength⟩, rfl⟩
        · obtain ⟨before, data, after, rfl, hbefore, hpalette, hidat, hsome, hbound, hafter, hs⟩ :=
            ih.mp ⟨hrun, hend⟩
          rw [List.append_assoc] at hpalette hs
          refine ⟨c :: before, data, after, rfl, ?_, hpalette, hidat, hsome, hbound, hafter, hs⟩
          intro earlier found rest heq
          cases earlier with
          | nil =>
              cases heq
              rw [List.append_nil]
              exact hadmissible
          | cons first earlier =>
              cases heq
              have hfound := hbefore earlier found rest rfl
              rwa [List.append_assoc] at hfound
        · obtain ⟨data, after, rfl, -, hidat, hbound, hafter, hs⟩ :=
            (run_inData hpalette hlength).mp ⟨hrun, hend⟩
          refine ⟨[], c :: data, after, rfl, ?_, ?_, ?_, by simp, hbound, hafter, ?_⟩
          · intro earlier found rest heq
            simp at heq
          · rw [List.append_nil]
            exact hpalette
          · intro found hfound
            rcases List.mem_cons.mp hfound with rfl | hfound
            · exact htype
            · exact hidat found hfound
          · rw [List.append_nil]
            exact hs
      · rintro ⟨before, data, after, hchunks, hbefore, hpalette, hidat, hsome, hbound, hafter, hs⟩
        refine ⟨?_, by rw [hs]; rfl⟩
        cases before with
        | cons first before =>
            cases hchunks
            have hadmissible : Png.Admissible h.colorType seen c := by
              have hfirst := hbefore [] c before rfl
              rwa [List.append_nil] at hfirst
            refine ⟨_, readChunk_preamble.mpr (Or.inl ⟨hadmissible, rfl⟩), ?_⟩
            refine (ih.mpr ⟨before, data, after, rfl, ?_, ?_, hidat, hsome, hbound, hafter,
              ?_⟩).1
            · intro earlier found rest heq
              rw [List.append_assoc]
              exact hbefore (c :: earlier) found rest (by rw [heq]; rfl)
            · rw [List.append_assoc]
              exact hpalette
            · rw [List.append_assoc]
              exact hs
        | nil =>
            rw [List.append_nil] at hpalette hs
            cases data with
            | nil => exact absurd rfl hsome
            | cons first data =>
                cases hchunks
                have hlength : c.data.length ≤ maxImageJsonBytes := by
                  rw [List.flatMap_cons, List.length_append] at hbound
                  omega
                refine ⟨_, readChunk_preamble.mpr (Or.inr ⟨hidat c List.mem_cons_self,
                  ⟨hpalette, hlength⟩, rfl⟩), ?_⟩
                refine ((run_inData hpalette hlength).mpr ⟨data, after, rfl, ?_, ?_, hbound,
                  hafter, hs⟩).1
                · intro hclosed
                  cases hclosed
                · exact fun found hfound => hidat found (List.mem_cons_of_mem _ hfound)

/-- Only a header can be the first chunk. -/
theorem readChunk_new {c : Png.Chunk} {atEnd : Bool} :
    PngScan.new.readChunk 8 atEnd c.type c.data = .ok s' ↔
      ∃ h : Png.Header, Supported h ∧ c = h.chunk ∧ s' = .preamble h [] := by
  rw [PngScan.readChunk_ok rfl]
  have hheader : ∀ {next}, PngScan.new.readTyped 8 atEnd c.type c.data = .ok next →
      c.type = Png.ihdr := by
    intro next hread
    rcases chunk_types c with htype | htype | htype | htype | htype | htype
    · exact htype
    · rw [PngScan.readTyped_plte htype] at hread
      obtain ⟨_, hfound, _⟩ := bind_ok.mp hread
      cases hfound
    · rw [PngScan.readTyped_trns htype] at hread
      obtain ⟨_, hfound, _⟩ := bind_ok.mp hread
      cases hfound
    · rw [PngScan.readTyped_idat htype] at hread
      obtain ⟨_, hfound, _⟩ := bind_ok.mp hread
      cases hfound
    · rw [PngScan.readTyped_iend htype] at hread
      obtain ⟨_, hseen, _⟩ := bind_ok.mp hread
      rw [refuse_ok, Bool.or_eq_false_iff] at hseen
      cases hseen.2
    · rw [PngScan.readTyped_other htype] at hread
      obtain ⟨_, hfound, _⟩ := bind_ok.mp hread
      cases hfound
  constructor
  · rintro ⟨next, hread, rfl⟩
    have htype := hheader hread
    rw [PngScan.readTyped_ihdr htype] at hread
    obtain ⟨h, hok, hdata, rfl⟩ := readIhdr_ok.mp hread
    refine ⟨h, hok, ?_, PngScan.close_of_not_seen rfl _⟩
    cases c
    cases htype
    cases hdata
    rfl
  · rintro ⟨h, hok, rfl, rfl⟩
    exact ⟨_, (PngScan.readTyped_ihdr rfl).trans (readIhdr_ok.mpr ⟨h, hok, rfl, rfl⟩),
      (PngScan.close_of_not_seen rfl _).symm⟩

/-- The layouts that the source supports. -/
structure SupportedLayout (l : Png.Layout) : Prop where
  wellFormed : l.WellFormed pngLimits
  compression : l.header.compression = 0
  filterMethod : l.header.filterMethod = 0

/-- What the scan has found at the end of a layout. -/
def PngScan.found (l : Png.Layout) : PngScan :=
  .ended l.header l.before l.compressed (!l.after.isEmpty)

/-- **The scan that sees an ending is over a supported layout.** -/
theorem scanChunks_layout {rest : List UInt8} :
    (scanChunks 8 rest .new = .ok s' ∧ s'.sawIend = true) ↔
      ∃ l : Png.Layout, SupportedLayout l ∧ rest = l.chunks.flatMap Png.Chunk.encode
        ∧ s' = .found l := by
  rw [scanChunks_ok]
  constructor
  · rintro ⟨⟨chunks, rfl, hrun⟩, hend⟩
    cases chunks with
    | nil =>
        cases hrun
        cases hend
    | cons c later =>
        obtain ⟨next, hread, hrun⟩ := bind_ok.mp hrun
        obtain ⟨h, hok, rfl, rfl⟩ := readChunk_new.mp hread
        obtain ⟨before, data, after, rfl, hbefore, hpalette, hidat, hsome, hbound, hafter, hs⟩ :=
          run_preamble.mp ⟨hrun, hend⟩
        refine ⟨{ header := h, before, data, after }, ⟨?_, hok.compression, hok.filterMethod⟩,
          rfl, hs⟩
        exact {
          width := hok.width
          height := hok.height
          raw := hok.raw
          before := hbefore
          palette := hpalette
          data := hidat
          some := hsome
          size := hbound
          after := hafter }
  · rintro ⟨l, hl, rfl, rfl⟩
    refine ⟨⟨l.chunks, rfl, ?_⟩, rfl⟩
    have hok : Supported l.header := {
      width := hl.wellFormed.width
      height := hl.wellFormed.height
      raw := hl.wellFormed.raw
      compression := hl.compression
      filterMethod := hl.filterMethod }
    have hpalette : HasPalette l.header ([] ++ l.before) := hl.wellFormed.palette
    refine bind_ok.mpr ⟨_, readChunk_new.mpr ⟨l.header, hok, rfl, rfl⟩, ?_⟩
    exact (run_preamble.mpr ⟨l.before, l.data, l.after, rfl, hl.wellFormed.before,
      hpalette, hl.wellFormed.data, hl.wellFormed.some, hl.wellFormed.size,
      hl.wellFormed.after, rfl⟩).1

end AllChunks

end Vergerail
