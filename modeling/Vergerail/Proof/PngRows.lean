import Mathlib.Tactic.SplitIfs
import Vergerail.Proof.PngGrammar

/-!
# The rows of a PNG

The loop over a row replaces its samples in place, from left to right. After `k` samples the
first `k` are final and the others are those of the line, and a sample is predicted from
final ones only; so the row it leaves is the one the line stands for. The loop over the
pixels asks of each whether its alpha is short of opaque, and for an indexed image refuses
the row at the first sample without an entry in the palette.
-/

namespace Vergerail

open Lib

/-! ## Prediction -/

section Prediction

variable {filter : Png.Filter} {channels : Nat} {above line : List UInt8}

/-- **The predictor is the nearest neighbour.** -/
theorem paethPredictor_eq (left up upperLeft : UInt8) :
    paethPredictor left up upperLeft = Png.nearest left up upperLeft := by
  rw [paethPredictor, Png.nearest, List.argmin_cons, List.argmin_cons, List.argmin_singleton]
  dsimp only
  -- the closer of the last two, and then the first if none is closer
  by_cases htail : ((left.toNat : Int) + up.toNat - upperLeft.toNat - upperLeft.toNat).natAbs
      < ((left.toNat : Int) + up.toNat - upperLeft.toNat - up.toNat).natAbs
  · rw [if_pos htail]
    dsimp only
    split_ifs <;> first | rfl | omega
  · rw [if_neg htail]
    dsimp only
    split_ifs <;> first | rfl | omega

theorem unfilterSample_code (filter : Png.Filter) (channels : Nat) (above row : List UInt8)
    (i : Nat) :
    unfilterSample filter.code channels above row i = .ok (row.getD i 0
      + filter.predict (Png.behind channels row i) (above.getD i 0)
        (Png.behind channels above i)) := by
  cases filter with
  | none =>
      show Except.ok (row.getD i 0) = _
      rw [Png.Filter.predict, UInt8.add_zero]
  | sub => rfl
  | up => rfl
  | average => rfl
  | paeth =>
      show Except.ok (_ + paethPredictor _ _ _) = _
      rw [paethPredictor_eq]
      rfl

/-- A sample is only found under one of the five filters. -/
theorem exists_filter {byte sample : UInt8} {i : Nat}
    (h : unfilterSample byte channels above line i = .ok sample) :
    ∃ filter : Png.Filter, filter.code = byte := by
  unfold unfilterSample at h
  dsimp only at h
  split at h
  · exact ⟨.none, rfl⟩
  · exact ⟨.sub, rfl⟩
  · exact ⟨.up, rfl⟩
  · exact ⟨.average, rfl⟩
  · exact ⟨.paeth, rfl⟩
  · cases h

end Prediction

/-! ## One row -/

section Row

variable {filter : Png.Filter} {channels : Nat} {above line row : List UInt8}

theorem getD_set_self {i : Nat} (hi : i < row.length) (sample : UInt8) :
    (row.set i sample).getD i 0 = sample := by
  rw [List.getD_eq_getElem _ _ (by rwa [List.length_set]), List.getElem_set_self]

theorem getD_set_ne {i j : Nat} (hij : i ≠ j) (sample : UInt8) :
    (row.set i sample).getD j 0 = row.getD j 0 := by
  rw [List.getD_eq_getElem?_getD, List.getD_eq_getElem?_getD, List.getElem?_set_ne hij]

/-- The row after its first `k` samples were replaced. -/
structure Replaced (filter : Png.Filter) (channels : Nat) (above line : List UInt8) (k : Nat)
    (row : List UInt8) : Prop where
  length : row.length = line.length
  final : ∀ i < k, row.getD i 0 = line.getD i 0
    + filter.predict (Png.behind channels row i) (above.getD i 0) (Png.behind channels above i)
  rest : ∀ i, k ≤ i → row.getD i 0 = line.getD i 0

/-- Replacing a sample leaves what the samples before it are predicted from. -/
theorem behind_set (hchannels : 0 < channels) {i k : Nat} (hik : i ≤ k) (sample : UInt8) :
    Png.behind channels (row.set k sample) i = Png.behind channels row i := by
  unfold Png.behind
  split
  · exact getD_set_ne (by omega) sample
  · rfl

theorem Replaced.step (hchannels : 0 < channels) {k : Nat} (hk : k < line.length)
    (h : Replaced filter channels above line k row) :
    Replaced filter channels above line (k + 1) (row.set k (row.getD k 0
      + filter.predict (Png.behind channels row k) (above.getD k 0)
        (Png.behind channels above k))) where
  length := by rw [List.length_set, h.length]
  final := by
    intro i hi
    rw [behind_set hchannels (by omega)]
    by_cases hik : i = k
    · subst hik
      rw [getD_set_self (by rwa [h.length]), h.rest i (Nat.le_refl i)]
    · rw [getD_set_ne (Ne.symm hik)]
      exact h.final i (by omega)
  rest := by
    intro i hi
    rw [getD_set_ne (by omega)]
    exact h.rest i (by omega)

/-- The loop under one of the filters. -/
theorem unfilterRow_replaced (filter : Png.Filter) (above : List UInt8)
    (hchannels : 0 < channels) {k : Nat} (hk : k ≤ line.length) :
    ∃ row, (List.range k).foldlM (fun row index => do
        let sample ← unfilterSample filter.code channels above row index
        return row.set index sample) line = (.ok row : Result (List UInt8))
      ∧ Replaced filter channels above line k row := by
  induction k with
  | zero => exact ⟨line, rfl, rfl, fun i hi => absurd hi (Nat.not_lt_zero i), fun i _ => rfl⟩
  | succ k ih =>
      obtain ⟨row, hrow, hreplaced⟩ := ih (by omega)
      refine ⟨_, ?_, hreplaced.step hchannels (by omega)⟩
      rw [List.range_succ, List.foldlM_append]
      refine bind_ok.mpr ⟨row, hrow, ?_⟩
      rw [List.foldlM_cons, unfilterSample_code]
      rfl

/-- **The loop leaves the row that the line stands for.** -/
theorem unfilterRow_ok (hchannels : 0 < channels) {byte : UInt8} (hline : line ≠ []) :
    unfilterRow byte channels above line = .ok row ↔
      ∃ filter : Png.Filter, filter.code = byte
        ∧ Png.Reconstructs channels above { filter, samples := line } row := by
  have hleaves : ∀ filter : Png.Filter, ∃ row,
      unfilterRow filter.code channels above line = .ok row
        ∧ Png.Reconstructs channels above { filter, samples := line } row := by
    intro filter
    obtain ⟨row, hrow, hreplaced⟩ := unfilterRow_replaced filter above
      hchannels (Nat.le_refl line.length)
    refine ⟨row, hrow, hreplaced.length, ?_⟩
    intro i hi
    exact hreplaced.final i (by rwa [← hreplaced.length])
  constructor
  · intro h
    -- the first sample was found
    have hfirst : ∃ filter : Png.Filter, filter.code = byte := by
      cases hlength : line.length with
      | zero => exact absurd (List.eq_nil_of_length_eq_zero hlength) hline
      | succ n =>
          rw [unfilterRow, hlength, List.range_succ_eq_map, List.foldlM_cons] at h
          obtain ⟨_, hsample, _⟩ := bind_ok.mp h
          obtain ⟨_, hsample, _⟩ := bind_ok.mp hsample
          exact exists_filter hsample
    obtain ⟨filter, rfl⟩ := hfirst
    obtain ⟨row', hrow, hreconstructs⟩ := hleaves filter
    rw [hrow] at h
    cases h
    exact ⟨filter, rfl, hreconstructs⟩
  · rintro ⟨filter, rfl, h⟩
    obtain ⟨row', hrow, hreconstructs⟩ := hleaves filter
    rw [hrow, h.unique hchannels hreconstructs]

end Row

/-! ## The pixels -/

section Pixels

variable {colorType : Png.ColorType} {palette transparency : Option (List UInt8)}
  {row : List UInt8} {width : Nat}

/-- The sample of an indexed image has an entry in the palette. -/
def HasEntry (colorType : Png.ColorType) (palette : Option (List UInt8)) (sample : UInt8) : Prop :=
  colorType = .indexed → ∃ colors, palette = some colors ∧ sample.toNat < colors.length / 3

/-- The transparency, if there is any, is what the colour type allows. -/
def Allowed (colorType : Png.ColorType) (palette transparency : Option (List UInt8)) : Prop :=
  ∀ data, transparency = some data → colorType.AllowsTransparency palette data

theorem getD_pixelAt {channels k : Nat} (hk : k < channels) (row : List UInt8) (x : Nat) :
    (Png.pixelAt channels row x).getD k 0 = row.getD (x * channels + k) 0 := by
  rw [Png.pixelAt, List.getD_eq_getElem?_getD, List.getElem?_take_of_lt hk, List.getElem?_drop,
    List.getD_eq_getElem?_getD]

/-- A pixel of three samples is known by them. -/
theorem pixelAt_three {x : Nat} (hx : (x + 1) * 3 ≤ row.length) :
    Png.pixelAt 3 row x
      = [row.getD (x * 3) 0, row.getD (x * 3 + 1) 0, row.getD (x * 3 + 2) 0] := by
  have hlength : (Png.pixelAt 3 row x).length = 3 := by
    rw [Png.pixelAt, List.length_take, List.length_drop]
    omega
  refine Png.getD_ext hlength ?_
  intro i hi
  rw [hlength] at hi
  rw [getD_pixelAt hi]
  match i, hi with
  | 0, _ => rfl
  | 1, _ => rfl
  | 2, _ => rfl

theorem decide_alpha (P : Prop) [Decidable P] :
    decide ((if P then (0 : UInt8) else 255) < 255) = decide P := by
  by_cases h : P
  · rw [if_pos h, decide_eq_true h]
    rfl
  · rw [if_neg h, decide_eq_false h]
    rfl

/-- **What is asked of a pixel is whether its alpha is short of opaque.** -/
theorem pixelTransparent_ok (hallowed : Allowed colorType palette transparency) {x : Nat}
    (hx : (x + 1) * colorType.channels ≤ row.length) {b : Bool} :
    pixelTransparent colorType.code palette transparency row (x * colorType.channels) = .ok b ↔
      HasEntry colorType palette (row.getD (x * colorType.channels) 0)
        ∧ b = decide (Png.alpha transparency (Png.pixelAt colorType.channels row x) colorType
          < 255) := by
  have hplain : ∀ found : Bool, colorType ≠ .indexed →
      pixelTransparent colorType.code palette transparency row (x * colorType.channels)
        = .ok found →
      (pixelTransparent colorType.code palette transparency row (x * colorType.channels)
          = .ok b ↔
        HasEntry colorType palette (row.getD (x * colorType.channels) 0) ∧ b = found) := by
    intro found hne hok
    rw [hok, Except.ok.injEq, eq_comm]
    exact ⟨fun h => ⟨fun hindexed => absurd hindexed hne, h⟩, fun h => h.2⟩
  cases colorType with
  | gray =>
      refine hplain _ (by decide) (congrArg Except.ok ?_)
      show (transparentGray 0 transparency).any (fun sample => decide (row.getD (x * 1) 0 = sample))
        = decide (Png.alpha transparency (Png.pixelAt 1 row x) .gray < 255)
      rw [Png.alpha, decide_alpha, getD_pixelAt (by decide)]
      cases htransparency : transparency with
      | none => rfl
      | some data =>
          obtain ⟨sample, rfl⟩ := hallowed data htransparency
          have hkey : transparentGray 0 (some [0, sample]) = some sample := rfl
          rw [hkey]
          simp [eq_comm]
  | rgb =>
      refine hplain _ (by decide) (congrArg Except.ok ?_)
      show (transparentRgb 2 transparency).any
          (fun sample => decide ((row.drop (x * 3)).take 3 = sample))
        = decide (Png.alpha transparency (Png.pixelAt 3 row x) .rgb < 255)
      have hpixel : (row.drop (x * 3)).take 3 = _ := pixelAt_three hx
      rw [Png.alpha, decide_alpha, getD_pixelAt (by decide), getD_pixelAt (by decide),
        getD_pixelAt (by decide), hpixel]
      cases htransparency : transparency with
      | none => rfl
      | some data =>
          obtain ⟨red, green, blue, rfl⟩ := hallowed data htransparency
          have hkey : transparentRgb 2 (some [0, red, 0, green, 0, blue])
              = some [red, green, blue] := rfl
          rw [hkey]
          simp [eq_comm]
  | indexed =>
      show (do
          let colors ← orFault palette (pngFault "indexed PNG is missing PLTE")
          refuse (colors.length / 3 ≤ (row.getD (x * 1) 0).toNat)
            (pngFault "indexed PNG pixel is outside PLTE")
          return transparency.any
            (fun alpha => (alpha[(row.getD (x * 1) 0).toNat]?).getD 255 < 255))
          = (.ok b : Result Bool)
        ↔ HasEntry .indexed palette (row.getD (x * 1) 0)
          ∧ b = decide (Png.alpha transparency (Png.pixelAt 1 row x) .indexed < 255)
      have halpha : decide (Png.alpha transparency (Png.pixelAt 1 row x) .indexed < 255)
          = transparency.any
            (fun alpha => (alpha[(row.getD (x * 1) 0).toNat]?).getD 255 < 255) := by
        rw [Png.alpha, getD_pixelAt (by decide)]
        cases transparency with
        | none => rfl
        | some alphas => rfl
      rw [halpha]
      constructor
      · intro h
        obtain ⟨colors, hcolors, h⟩ := bind_ok.mp h
        obtain ⟨_, hentry, h⟩ := bind_ok.mp h
        cases h
        rw [refuse_ok, decide_eq_false_iff_not, not_le] at hentry
        exact ⟨fun _ => ⟨colors, orFault_ok.mp hcolors, hentry⟩, rfl⟩
      · rintro ⟨hentry, rfl⟩
        obtain ⟨colors, hcolors, hentry⟩ := hentry rfl
        refine bind_ok.mpr ⟨colors, orFault_ok.mpr hcolors, bind_ok.mpr ⟨(), refuse_ok.mpr ?_, rfl⟩⟩
        rw [decide_eq_false_iff_not, not_le]
        exact hentry
  | grayAlpha =>
      refine hplain _ (by decide) (congrArg Except.ok ?_)
      rw [Png.alpha, getD_pixelAt (by decide)]
  | rgba =>
      refine hplain _ (by decide) (congrArg Except.ok ?_)
      rw [Png.alpha, getD_pixelAt (by decide)]

/-- Some pixel of the row is not opaque. -/
def rowTransparent (colorType : Png.ColorType) (transparency : Option (List UInt8)) (width : Nat)
    (row : List UInt8) : Bool :=
  (List.range width).any (fun x =>
    Png.alpha transparency (Png.pixelAt colorType.channels row x) colorType < 255)

/-- The loop over the pixels of a row. -/
theorem scanPixels_ok (hallowed : Allowed colorType palette transparency)
    (hrow : row.length = width * colorType.channels) {seen b : Bool} :
    scanPixels colorType.code palette transparency width row seen = .ok b ↔
      (∀ x < width, HasEntry colorType palette (row.getD (x * colorType.channels) 0))
        ∧ b = (seen || rowTransparent colorType transparency width row) := by
  have hpixel : ∀ x ∈ List.range width, ∀ found,
      pixelTransparent colorType.code palette transparency row (x * pngChannels colorType.code)
        = .ok found ↔ HasEntry colorType palette (row.getD (x * colorType.channels) 0)
          ∧ found = decide (Png.alpha transparency (Png.pixelAt colorType.channels row x) colorType
            < 255) := by
    intro x hx found
    rw [List.mem_range] at hx
    rw [pngChannels_code]
    refine pixelTransparent_ok hallowed ?_
    rw [hrow]
    exact Nat.mul_le_mul_right _ hx
  rw [scanPixels, foldlM_or_ok hpixel, rowTransparent]
  simp only [List.mem_range]

end Pixels

/-! ## All rows -/

section Rows

variable {colorType : Png.ColorType} {palette transparency : Option (List UInt8)}
  {width count : Nat} {above : List UInt8} {decoder decoder' : Inflated} {seen b : Bool}

theorem readExact_ok {fault : Error} {bytes : List UInt8} {n : Nat} :
    orFault (decoder.readExact n) fault = .ok (bytes, decoder') ↔
      bytes.length = n ∧ decoder.bytes = bytes ++ decoder'.bytes
        ∧ decoder'.corrupt = decoder.corrupt := by
  rw [orFault_ok, Inflated.readExact]
  constructor
  · intro h
    split at h
    · rename_i hle
      cases h
      exact ⟨List.length_take_of_le hle, (List.take_append_drop n _).symm, rfl⟩
    · cases h
  · rintro ⟨rfl, hbytes, hcorrupt⟩
    rw [hbytes, if_pos (by rw [List.length_append]; omega), List.take_left, List.drop_left]
    cases decoder'
    cases hcorrupt
    rfl

/-- **The loop over the rows** reads a line for each, and leaves their picture. -/
theorem scanRows_ok (hallowed : Allowed colorType palette transparency) (hwidth : 0 < width) :
    scanRows colorType.code palette transparency width (width * colorType.channels) count above
        decoder seen = .ok (b, decoder') ↔
      ∃ (lines : List Png.Scanline) (rows : List (List UInt8)), lines.length = count
        ∧ (∀ line ∈ lines, line.samples.length = width * colorType.channels)
        ∧ decoder.bytes = lines.flatMap Png.Scanline.bytes ++ decoder'.bytes
        ∧ decoder'.corrupt = decoder.corrupt
        ∧ Png.Raster colorType.channels above lines rows
        ∧ (∀ row ∈ rows, ∀ x < width,
          HasEntry colorType palette (row.getD (x * colorType.channels) 0))
        ∧ b = (seen || rows.any (rowTransparent colorType transparency width)) := by
  have hchannels := colorType.channels_pos
  induction count generalizing above decoder seen with
  | zero =>
      constructor
      · intro h
        cases h
        exact ⟨[], [], rfl, by simp, rfl, rfl, .nil, by simp, by simp⟩
      · rintro ⟨lines, rows, hlength, -, hbytes, hcorrupt, hraster, -, rfl⟩
        cases List.eq_nil_of_length_eq_zero hlength
        cases hraster
        rw [List.flatMap_nil, List.nil_append] at hbytes
        rw [scanRows, List.any_nil, Bool.or_false]
        cases decoder
        cases decoder'
        cases hbytes
        cases hcorrupt
        rfl
  | succ count ih =>
      rw [scanRows, bind_ok]
      constructor
      · rintro ⟨⟨byte, afterByte⟩, hbyte, h⟩
        obtain ⟨⟨line, afterLine⟩, hline, h⟩ := bind_ok.mp h
        obtain ⟨row, hrow, h⟩ := bind_ok.mp h
        obtain ⟨now, hpixels, h⟩ := bind_ok.mp h
        obtain ⟨hone, hfirst, hcorrupt⟩ := readExact_ok.mp hbyte
        obtain ⟨hlength, hsecond, hcorrupt'⟩ := readExact_ok.mp hline
        obtain ⟨lines, rows, rfl, hlines, hbytes, hcorrupt'', hraster, hentries, rfl⟩ := ih.mp h
        have hne : line ≠ [] := by
          intro hnil
          have hpos : 0 < width * colorType.channels := Nat.mul_pos hwidth hchannels
          rw [← hlength, hnil] at hpos
          cases hpos
        rw [pngChannels_code, unfilterRow_ok hchannels hne] at hrow
        obtain ⟨filter, hfilter, hreconstructs⟩ := hrow
        obtain ⟨hentry, rfl⟩ :=
          (scanPixels_ok hallowed (hreconstructs.length.trans hlength)).mp hpixels
        refine ⟨{ filter, samples := line } :: lines, row :: rows, rfl, ?_, ?_, ?_,
          .cons hreconstructs hraster, ?_, ?_⟩
        · intro found hfound
          rcases List.mem_cons.mp hfound with rfl | hfound
          · exact hlength
          · exact hlines found hfound
        · obtain ⟨code, rfl⟩ := List.length_eq_one_iff.mp hone
          have hcode : filter.code = code := hfilter
          rw [hfirst, hsecond, hbytes, List.flatMap_cons, Png.Scanline.bytes, hcode,
            List.append_assoc]
          rfl
        · rw [hcorrupt'', hcorrupt', hcorrupt]
        · intro found hfound
          rcases List.mem_cons.mp hfound with rfl | hfound
          · exact hentry
          · exact hentries found hfound
        · rw [List.any_cons, Bool.or_assoc]
      · rintro ⟨lines, rows, hlength, hlines, hbytes, hcorrupt, hraster, hentries, rfl⟩
        cases hraster with
        | nil => cases hlength
        | @cons _ row line lines rows hreconstructs hraster =>
            have hline := hlines line List.mem_cons_self
            have hne : line.samples ≠ [] := by
              intro hnil
              have hpos : 0 < width * colorType.channels := Nat.mul_pos hwidth hchannels
              rw [← hline, hnil] at hpos
              cases hpos
            rw [List.flatMap_cons, Png.Scanline.bytes, List.append_assoc, List.cons_append]
              at hbytes
            refine ⟨([line.filter.code], { decoder with
                bytes := line.samples ++ (lines.flatMap Png.Scanline.bytes ++ decoder'.bytes) }),
              readExact_ok.mpr ⟨rfl, hbytes, rfl⟩, ?_⟩
            refine bind_ok.mpr ⟨(line.samples, { decoder with
                bytes := lines.flatMap Png.Scanline.bytes ++ decoder'.bytes }),
              readExact_ok.mpr ⟨hline, rfl, rfl⟩, ?_⟩
            have hrow : unfilterRow line.filter.code (pngChannels colorType.code) above
                line.samples = .ok row := by
              rw [pngChannels_code]
              exact (unfilterRow_ok hchannels hne).mpr ⟨line.filter, rfl, hreconstructs⟩
            refine bind_ok.mpr ⟨row, hrow, bind_ok.mpr ⟨_, (scanPixels_ok hallowed
              (hreconstructs.length.trans hline)).mpr ⟨hentries row List.mem_cons_self, rfl⟩, ?_⟩⟩
            refine ih.mpr ⟨lines, rows, Nat.succ.inj hlength, ?_, rfl, hcorrupt, hraster, ?_, ?_⟩
            · exact fun found hfound => hlines found (List.mem_cons_of_mem _ hfound)
            · exact fun found hfound => hentries found (List.mem_cons_of_mem _ hfound)
            · rw [List.any_cons, Bool.or_assoc]

theorem finish_ok : decoder.finish = .ok () ↔ decoder.bytes = [] ∧ decoder.corrupt = false := by
  rw [Inflated.finish]
  cases decoder.bytes with
  | nil => cases decoder.corrupt <;> simp
  | cons byte bytes => simp

end Rows

end Vergerail
