import Vergerail.PngExec

/-!
# The PNG check neither traps nor runs on

`validate_png`, operation by operation, tracks the check of `Vergerail.Png`, which has no
operation that may trap. What carries the loop over the chunks is `Sound`: the header found
so far has a colour type with channels and a raw size within its bound, and transparency data
has the length that the colour type of the header asks for. Everything the row loop indexes
follows from that.
-/

namespace Vergerail.PngExec

open Lib Lib.Exec

/-! ## Arithmetic -/

theorem isizeMax_lt : isizeMax + 2 ^ 33 ≤ usizeMax := by decide

theorem add_of_le {a b : Nat} (h : a + b ≤ usizeMax) : add a b = .ok (a + b) :=
  addWithin_of_le h

theorem mul_of_le {a b : Nat} (h : a * b ≤ usizeMax) : mul a b = .ok (a * b) :=
  mulWithin_of_le h

theorem sub_of_le {a b : Nat} (h : b ≤ a) : sub a b = .ok (a - b) := subWithin_of_le h

theorem i32_of_abs_le {z : Int} (h : z.natAbs ≤ 1020) : i32 z = .ok z :=
  intWithin_of_mem (by omega) (by omega)

theorem i32Abs_of_abs_le {z : Int} (h : z.natAbs ≤ 1020) : i32Abs z = .ok (z.natAbs : Int) :=
  i32_of_abs_le (by omega)

theorem readBe_of_le {bytes : List UInt8} {start stop : Nat} (hstop : stop = start + 4)
    (hlength : stop ≤ bytes.length) :
    readBe bytes start stop = .ok (Png.fromBe ((bytes.drop start).take 4)) := by
  subst hstop
  have harray : ((bytes.drop start).take 4).length = 4 := by
    rw [List.length_take, List.length_drop]
    omega
  rw [readBe, slice_of_le (by omega) hlength, ok_bind, Nat.add_sub_cancel_left,
    toArray_of_length harray]
  rfl

/-- A colour type that a header may have. -/
def Supported (colorType : UInt8) : Prop := colorType ∈ ([0, 2, 3, 4, 6] : List UInt8)

theorem supported_cases {colorType : UInt8} (h : Supported colorType) :
    colorType = 0 ∨ colorType = 2 ∨ colorType = 3 ∨ colorType = 4 ∨ colorType = 6 := by
  simpa [Supported] using h

theorem pngChannels_of_supported {colorType : UInt8} (h : Supported colorType) :
    pngChannels colorType = .ok (Vergerail.pngChannels colorType) := by
  rcases supported_cases h with rfl | rfl | rfl | rfl | rfl <;> rfl

theorem pngExpectedRawBytes_of_supported {colorType : UInt8} (h : Supported colorType)
    (width height : Nat) :
    pngExpectedRawBytes width height colorType =
      lift (Vergerail.pngExpectedRawBytes width height colorType) := by
  rw [pngExpectedRawBytes, pngChannels_of_supported h]
  rfl

/-- The raw size, when it is one. -/
theorem pngExpectedRawBytes_ok {width height n : Nat} {colorType : UInt8}
    (h : Vergerail.pngExpectedRawBytes width height colorType = .ok n) :
    n = height * (1 + width * Vergerail.pngChannels colorType) := by
  have hsome := orFault_ok.mp h
  simp only [Option.bind_eq_some_iff, checkedMul, checkedAdd, Option.ite_none_right_eq_some,
    Option.some.injEq] at hsome
  obtain ⟨_, ⟨_, ⟨-, rfl⟩, -, rfl⟩, -, rfl⟩ := hsome
  rw [Nat.mul_comm, Nat.add_comm 1]

theorem paethPredictor_eq (left up upperLeft : UInt8) :
    paethPredictor left up upperLeft = .ok (Vergerail.paethPredictor left up upperLeft) := by
  have hleft := left.toNat_lt
  have hup := up.toNat_lt
  have hupperLeft := upperLeft.toNat_lt
  rw [paethPredictor, i32_of_abs_le (by omega), ok_bind, i32_of_abs_le (by omega), ok_bind,
    i32_of_abs_le (by omega), ok_bind, i32Abs_of_abs_le (by omega), ok_bind,
    i32_of_abs_le (by omega), ok_bind, i32Abs_of_abs_le (by omega), ok_bind,
    i32_of_abs_le (by omega), ok_bind, i32Abs_of_abs_le (by omega), ok_bind,
    Vergerail.paethPredictor]
  simp only [Int.ofNat_le]
  rfl

/-! ## Chunks -/

/-- What a chunk taken at an offset is. -/
structure Chunk.TakenAt (chunk : Chunk) (bytes : List UInt8) (offset : Nat) : Prop where
  data : chunk.data.length = chunk.length
  chunkType : chunk.chunkType.length = 4
  small : chunk.length < 2 ^ 32
  chunkEnd : chunk.chunkEnd = offset + (12 + chunk.data.length)
  inside : chunk.chunkEnd ≤ bytes.length

variable {bytes : List UInt8} {offset : Nat} {chunk : Chunk} {run : ScanRun}

theorem takeChunk_tracks (hfits : bytes.length ≤ isizeMax) (hoffset : offset ≤ bytes.length) :
    Tracks (fun chunk taken => taken = (chunk.chunkType, chunk.data) ∧ chunk.TakenAt bytes offset)
      (takeChunk bytes offset) (Vergerail.takeChunk (bytes.drop offset)) := by
  have hmax := isizeMax_lt
  rw [takeChunk, sub_of_le hoffset, ok_bind, Vergerail.takeChunk, List.length_drop]
  refine Tracks.refuse fun hlong => ?_
  have hroom : offset + 12 ≤ bytes.length := by
    have := of_decide_eq_false hlong
    omega
  rw [add_of_le (by omega), ok_bind, readBe_of_le rfl (by omega), ok_bind]
  have hsmall : Png.fromBe ((bytes.drop offset).take 4) < 2 ^ 32 := by
    refine Png.fromBe_lt ?_
    rw [List.length_take, List.length_drop]
    omega
  generalize hlength : Png.fromBe ((bytes.drop offset).take 4) = length at hsmall ⊢
  have hchecked : (checkedAdd offset 12).bind (checkedAdd · length) = some (offset + 12 + length) := by
    rw [checkedAdd, if_pos (by omega), Option.bind_some, checkedAdd, if_pos (by omega)]
  have hcovered : (bytes.drop offset).drop 4 = bytes.drop (offset + 4) := List.drop_drop
  have hpayload : (bytes.drop offset).drop 8 = bytes.drop (offset + 8) := List.drop_drop
  have htail : (bytes.drop offset).drop (8 + length) = bytes.drop (offset + 8 + length) := by
    rw [List.drop_drop, Nat.add_assoc]
  have hsame : decide (bytes.length < offset + 12 + length) =
      decide (bytes.length - offset < 12 + length) := decide_eq_decide.mpr (by omega)
  have hfour : add offset 4 = .ok (offset + 4) := add_of_le (by omega)
  have height : add offset 8 = .ok (offset + 8) := add_of_le (by omega)
  have hend : add (offset + 8) length = .ok (offset + 8 + length) := add_of_le (by omega)
  have hlimit (fault : Error) : lift (Lib.orFault (some (offset + 12 + length)) fault) =
      .ok (offset + 12 + length) := rfl
  dsimp only
  simp only [hchecked, hcovered, hpayload, htail, height, hend, hlimit, ok_bind, hsame]
  refine Tracks.refuse fun hinside => ?_
  have hfull : offset + 12 + length ≤ bytes.length := by
    have := of_decide_eq_false hinside
    omega
  have hcount : offset + 8 + length - (offset + 4) = 4 + length := by omega
  rw [slice_of_le (by omega) (by omega), ok_bind, slice_of_le (by omega) (by omega), ok_bind,
    readBe_of_le (by omega) (by omega), ok_bind, slice_of_le (by omega) (by omega), ok_bind,
    hcount, Nat.add_sub_cancel_left, Nat.add_sub_add_left]
  refine Tracks.refuse fun _ => Tracks.ok ⟨rfl, ?_⟩
  have hdata : ((bytes.drop (offset + 8)).take length).length = length := by
    rw [List.length_take, List.length_drop]
    omega
  have htype : ((bytes.drop (offset + 4)).take (8 - 4)).length = 4 := by
    rw [List.length_take, List.length_drop]
    omega
  refine ⟨hdata, htype, hsmall, ?_, hfull⟩
  rw [hdata]
  exact Nat.add_assoc _ _ _

/-- What has been read so far is fit for the row loop. -/
structure Sound (run : ScanRun) : Prop where
  supported : ∀ {width height colorType}, run.scan.ihdr = some (width, height, colorType) →
    Supported colorType
  /-- The raw size was checked. -/
  checked : ∀ {width height colorType}, run.scan.ihdr = some (width, height, colorType) →
    0 < height ∧ height * (1 + width * Vergerail.pngChannels colorType) ≤ maxPngRawBytes ∧
      run.rawChecked = some (height * (1 + width * Vergerail.pngChannels colorType))
  /-- The header came before the transparency data. -/
  transparency : ∀ {data}, run.scan.transparency = some data → ∃ width height colorType,
    run.scan.ihdr = some (width, height, colorType) ∧ (colorType = 0 → data.length = 2) ∧
      (colorType = 2 → data.length = 6)
  idat : run.scan.idat.length ≤ maxImageJsonBytes

theorem sound_new : Sound ScanRun.new where
  supported h := nomatch h
  checked h := nomatch h
  transparency h := nomatch h
  idat := Nat.zero_le _

/-- The state with the record, beside the one without. -/
def Follows (run : ScanRun) (scan : PngScan) : Prop := run.scan = scan ∧ Sound run

/-- A state with the same header, transparency data and collected data is as sound. -/
theorem Sound.of_same {next : ScanRun} (h : Sound run) (hihdr : next.scan.ihdr = run.scan.ihdr)
    (hchecked : next.rawChecked = run.rawChecked)
    (htransparency : next.scan.transparency = run.scan.transparency)
    (hidat : next.scan.idat = run.scan.idat) : Sound next where
  supported h' := h.supported (hihdr ▸ h')
  checked h' := hchecked ▸ h.checked (hihdr ▸ h')
  transparency h' := hihdr ▸ h.transparency (htransparency ▸ h')
  idat := hidat ▸ h.idat

theorem orElse_ok (a b : Bool) : orElse a (.ok b) = .ok (a || b) := by
  cases a <;> rfl

theorem readIhdr_tracks (hsound : Sound run) (htaken : chunk.TakenAt bytes offset) :
    Tracks Follows (run.readIhdr offset chunk) (run.scan.readIhdr offset chunk.data) := by
  rw [ScanRun.readIhdr, PngScan.readIhdr, htaken.data]
  refine Tracks.refuse fun hfirst => ?_
  simp only [Bool.or_eq_false_iff, decide_eq_false_iff_not, not_not] at hfirst
  have hlength : chunk.data.length = 13 := htaken.data.trans hfirst.1.2
  have hread (i : Nat) (hi : i < 13) :
      index (ε := Error) chunk.data i = .ok (chunk.data.getD i 0) := index_of_lt (by omega) 0
  rw [readBe_of_le rfl (by omega), ok_bind, readBe_of_le rfl (by omega), ok_bind]
  simp only [hread 8 (by omega), hread 9 (by omega), hread 10 (by omega), hread 11 (by omega),
    hread 12 (by omega), ok_bind, pure, Except.pure, orElse_ok, List.drop_zero, ← Bool.or_assoc]
  generalize Png.fromBe (chunk.data.take 4) = width
  generalize Png.fromBe ((chunk.data.drop 4).take 4) = height
  generalize chunk.data.getD 9 0 = colorType
  refine Tracks.refuse fun hformat => ?_
  simp only [Bool.or_eq_false_iff, decide_eq_false_iff_not, not_not, Bool.not_eq_false',
    List.contains_iff_mem] at hformat
  have hsupported : Supported colorType := hformat.1.1.1.2
  rw [pngExpectedRawBytes_of_supported hsupported]
  refine Tracks.lift_bind fun raw hraw => ?_
  have hsize := pngExpectedRawBytes_ok hraw
  refine Tracks.refuse fun hbounded => Tracks.ok ⟨rfl, ?_⟩
  constructor
  · intro _ _ _ heq
    cases heq
    exact hsupported
  · intro _ _ _ heq
    cases heq
    have hle : raw ≤ maxPngRawBytes := Nat.le_of_not_lt (of_decide_eq_false hbounded)
    exact ⟨by omega, hsize ▸ hle, congrArg some hsize⟩
  · intro data hdata
    obtain ⟨_, _, _, hihdr, -⟩ := hsound.transparency hdata
    have hnone := hfirst.1.1
    rw [hihdr] at hnone
    cases hnone
  · exact hsound.idat

/-! ## Transparency data -/

theorem samplePairs_head (good : UInt8 → Bool) (data : List UInt8) :
    ScanRun.allSamples (fun sample => do return good (← index sample 0))
        (ScanRun.chunksExact2 data) =
      .ok ((PngScan.samplePairs data).all (fun sample => good sample.1)) := by
  induction data using ScanRun.chunksExact2.induct with
  | case1 high low rest ih =>
      rw [ScanRun.chunksExact2, ScanRun.allSamples, PngScan.samplePairs, List.all_cons, ih]
      cases hgood : good high <;> simp [index, hgood, andAlso, pure, Except.pure, bind, Except.bind]
  | case2 data hshort =>
      rw [ScanRun.chunksExact2, PngScan.samplePairs]
      · rfl
      · exact hshort
      · exact hshort

theorem transparencyValid_eq (hdata : chunk.data.length = chunk.length)
    (palette : Option (List UInt8)) (colorType : UInt8) :
    ScanRun.transparencyValid palette colorType chunk =
      .ok (PngScan.transparencyValid palette colorType chunk.data) := by
  unfold ScanRun.transparencyValid PngScan.transparencyValid
  rw [hdata]
  split
  · by_cases hlength : chunk.length = 2
    · rw [index_of_lt (by omega) 0, hlength]
      rfl
    · simp [andAlso, hlength, pure, Except.pure]
  · by_cases hlength : chunk.length = 6
    · rw [samplePairs_head (fun high => high = 0), hlength]
      rfl
    · simp [andAlso, hlength, pure, Except.pure]
  · rfl
  · simp [pure, Except.pure]

/-- Valid transparency data has the length that its colour type asks for. -/
theorem length_of_transparencyValid {palette : Option (List UInt8)} {colorType : UInt8}
    {data : List UInt8} (h : PngScan.transparencyValid palette colorType data = true) :
    (colorType = 0 → data.length = 2) ∧ (colorType = 2 → data.length = 6) := by
  constructor
  · rintro rfl
    have hboth : (decide (data.length = 2) && decide (data.getD 0 0 = 0)) = true := h
    exact of_decide_eq_true (Bool.and_eq_true_iff.mp hboth).1
  · rintro rfl
    have hboth : (decide (data.length = 6) &&
        (PngScan.samplePairs data).all (fun sample => sample.1 = 0)) = true := h
    exact of_decide_eq_true (Bool.and_eq_true_iff.mp hboth).1

theorem readTrns_tracks (hsound : Sound run) (htaken : chunk.TakenAt bytes offset) :
    Tracks Follows (run.readTrns chunk) (run.scan.readTrns chunk.data) := by
  rw [ScanRun.readTrns, PngScan.readTrns]
  refine Tracks.orFault fun header hheader => ?_
  obtain ⟨width, height, colorType⟩ := header
  refine Tracks.refuse fun _ => ?_
  dsimp only
  rw [transparencyValid_eq htaken.data, ok_bind]
  refine Tracks.refuse fun hvalid => Tracks.ok ⟨rfl, ?_⟩
  refine { hsound with transparency := ?_ }
  intro data hdata
  cases hdata
  have hlengths := length_of_transparencyValid (by simpa using hvalid)
  exact ⟨width, height, colorType, hheader, hlengths⟩

/-! ## The other chunks -/

theorem readPlte_tracks (hsound : Sound run) :
    Tracks Follows (run.readPlte chunk) (run.scan.readPlte chunk.data) := by
  rw [ScanRun.readPlte]
  refine Tracks.lift_mapped fun scan hscan => ⟨rfl, ?_⟩
  obtain ⟨_, -, hscan⟩ := bind_ok.mp hscan
  obtain ⟨_, -, hscan⟩ := bind_ok.mp hscan
  cases hscan
  exact hsound.of_same rfl rfl rfl rfl

theorem readIend_tracks (hsound : Sound run) (atEnd : Bool) :
    Tracks Follows (run.readIend atEnd chunk) (run.scan.readIend atEnd chunk.data) := by
  rw [ScanRun.readIend]
  refine Tracks.lift_mapped fun scan hscan => ⟨rfl, ?_⟩
  obtain ⟨_, -, hscan⟩ := bind_ok.mp hscan
  obtain ⟨_, -, hscan⟩ := bind_ok.mp hscan
  cases hscan
  exact hsound.of_same rfl rfl rfl rfl

theorem readIdat_tracks (hsound : Sound run) (htaken : chunk.TakenAt bytes offset) :
    Tracks Follows (run.readIdat chunk) (run.scan.readIdat chunk.data) := by
  have hsmall := htaken.small
  have hdata := htaken.data
  have hbefore := hsound.idat
  have hroom : (run.scan.idat ++ chunk.data).length ≤ isizeMax := by
    have hmax : maxImageJsonBytes + 2 ^ 32 ≤ isizeMax := by decide
    rw [List.length_append]
    omega
  rw [ScanRun.readIdat, PngScan.readIdat]
  refine Tracks.orFault fun header _ => ?_
  refine Tracks.refuse fun _ => ?_
  rw [extend_of_le hroom, ok_bind]
  refine Tracks.refuse fun hbounded => Tracks.ok ⟨rfl, ?_⟩
  exact { hsound with idat := Nat.le_of_not_lt (of_decide_eq_false hbounded) }

theorem readOther_tracks (hsound : Sound run) (htaken : chunk.TakenAt bytes offset) :
    Tracks Follows (run.readOther chunk) (run.scan.readOther chunk.chunkType) := by
  have htype := htaken.chunkType
  rw [ScanRun.readOther, PngScan.readOther]
  refine Tracks.refuse fun _ => ?_
  rw [index_of_lt (by omega) 0, ok_bind]
  refine Tracks.refuse fun _ => ?_
  by_cases hseen : run.scan.idatSeen = true
  · rw [if_pos hseen, if_pos hseen]
    exact Tracks.ok ⟨rfl, hsound.of_same rfl rfl rfl rfl⟩
  · rw [if_neg hseen, if_neg hseen]
    exact Tracks.ok ⟨rfl, hsound⟩

theorem readTyped_tracks (hsound : Sound run) (htaken : chunk.TakenAt bytes offset)
    (atEnd : Bool) :
    Tracks Follows (run.readTyped offset atEnd chunk)
      (run.scan.readTyped offset atEnd chunk.chunkType chunk.data) := by
  unfold ScanRun.readTyped PngScan.readTyped
  split_ifs
  · exact readIhdr_tracks hsound htaken
  · exact readPlte_tracks hsound
  · exact readTrns_tracks hsound htaken
  · exact readIdat_tracks hsound htaken
  · exact readIend_tracks hsound atEnd
  · exact readOther_tracks hsound htaken

theorem sound_close (hsound : Sound run) (chunkType : List UInt8) :
    Sound { run with scan := run.scan.close chunkType } := by
  unfold PngScan.close
  split
  · exact hsound.of_same rfl rfl rfl rfl
  · exact hsound

/-- **One chunk.** -/
theorem readChunk_tracks (hsound : Sound run) (htaken : chunk.TakenAt bytes offset)
    (atEnd : Bool) :
    Tracks Follows (run.readChunk offset atEnd chunk)
      (run.scan.readChunk offset atEnd chunk.chunkType chunk.data) := by
  rw [ScanRun.readChunk, PngScan.readChunk]
  refine Tracks.refuse fun _ => ?_
  refine (readTyped_tracks hsound htaken atEnd).bind ?_
  rintro next _ ⟨rfl, hnext⟩
  exact Tracks.ok ⟨rfl, sound_close hnext _⟩

/-- **The loop over the chunks.** Every round advances by twelve bytes at least, so that the
rounds last. -/
theorem scanChunks_tracks (hfits : bytes.length ≤ isizeMax) {rounds : Nat}
    (hrounds : bytes.length - offset < rounds) (hsound : Sound run) :
    Tracks Follows (scanChunks bytes rounds offset run)
      (Vergerail.scanChunks offset (bytes.drop offset) run.scan) := by
  induction rounds generalizing offset run with
  | zero => omega
  | succ rounds ih =>
      rw [scanChunks, Vergerail.scanChunks]
      by_cases hmore : offset < bytes.length
      · have hrest : bytes.drop offset ≠ [] := by
          intro hnil
          have := List.drop_eq_nil_iff.mp hnil
          omega
        rw [if_pos hmore, dif_neg hrest]
        refine (takeChunk_tracks hfits (Nat.le_of_lt hmore)).bind ?_
        rintro chunk _ ⟨rfl, htaken⟩
        have hend := htaken.chunkEnd
        have hinside := htaken.inside
        have hatEnd : decide (12 + chunk.data.length = (bytes.drop offset).length) =
            decide (chunk.chunkEnd = bytes.length) := by
          rw [decide_eq_decide, List.length_drop]
          omega
        dsimp only
        rw [hatEnd, List.drop_drop, ← hend]
        refine (readChunk_tracks hsound htaken _).bind ?_
        rintro next _ ⟨rfl, hnext⟩
        exact ih (by omega) hnext
      · have hrest : bytes.drop offset = [] := List.drop_eq_nil_iff.mpr (by omega)
        rw [if_neg hmore, dif_pos hrest]
        exact Tracks.ok ⟨rfl, hsound⟩

/-! ## Rows -/

variable {colorType : UInt8} {palette transparency : Option (List UInt8)}

theorem sampleBehind_of_lt {row : List UInt8} {i : Nat} (hi : i < row.length) (channels : Nat) :
    sampleBehind row channels i =
      .ok (if channels ≤ i then row.getD (i - channels) 0 else 0) := by
  unfold sampleBehind
  split
  · rw [sub_of_le (by assumption), ok_bind, index_of_lt (by omega) 0]
  · rfl

theorem unfilterSample_eq {filter previous current : List UInt8} {i : Nat}
    (hfilter : 0 < filter.length) (hprevious : i < previous.length)
    (hcurrent : i < current.length) (channels : Nat) :
    unfilterSample filter channels previous current i =
      lift (Vergerail.unfilterSample (filter.getD 0 0) channels previous current i) := by
  have hsum (left up : UInt8) : addWithin (ε := Error) u16Max left.toNat up.toNat =
      .ok (left.toNat + up.toNat) := by
    have hleft := left.toNat_lt
    have hup := up.toNat_lt
    refine addWithin_of_le ?_
    rw [u16Max]
    omega
  rw [unfilterSample, index_of_lt hcurrent 0, ok_bind, sampleBehind_of_lt hcurrent, ok_bind,
    index_of_lt hprevious 0, ok_bind, sampleBehind_of_lt hprevious, ok_bind,
    index_of_lt hfilter 0, ok_bind]
  unfold Vergerail.unfilterSample
  simp only [hsum, paethPredictor_eq, ok_bind]
  generalize filter.getD 0 0 = code
  split
  · rfl
  · rfl
  · rfl
  · rfl
  · rfl
  · simp

/-- The loop over the samples keeps the length of the row. -/
theorem unfilterRow_tracks {filter previous current : List UInt8} {rowBytes : Nat}
    (hfilter : 0 < filter.length) (hprevious : previous.length = rowBytes)
    (hcurrent : current.length = rowBytes) (channels : Nat) :
    Tracks (fun row row' => row = row' ∧ row.length = rowBytes)
      (unfilterRow filter channels rowBytes previous current)
      (Vergerail.unfilterRow (filter.getD 0 0) channels previous current) := by
  rw [unfilterRow, Vergerail.unfilterRow, hcurrent]
  refine Tracks.foldlM ?_ ⟨rfl, hcurrent⟩
  rintro i hi row _ ⟨rfl, hrow⟩
  have hlt : i < rowBytes := List.mem_range.mp hi
  rw [unfilterSample_eq hfilter (by omega) (by omega)]
  refine Tracks.lift_bind fun sample _ => ?_
  rw [store_of_lt (by omega)]
  refine Tracks.ok ⟨rfl, ?_⟩
  rw [List.length_set]
  exact hrow

/-- The context of the row loop is the one of the header and the transparency data. -/
structure RowContext.Fits (context : RowContext) (code : UInt8)
    (colors alpha : Option (List UInt8)) : Prop where
  colorType : context.colorType = code
  channels : context.channels = Vergerail.pngChannels code
  palette : context.palette = colors
  transparency : context.transparency = alpha
  gray : context.transparentGray = Vergerail.transparentGray code alpha
  rgb : context.transparentRgb = Vergerail.transparentRgb code alpha

theorem pixelTransparent_eq {context : RowContext} {row : List UInt8} {start : Nat}
    (hsupported : Supported colorType) (hcontext : context.Fits colorType palette transparency)
    (hpixel : start + Vergerail.pngChannels colorType ≤ row.length)
    (hrow : row.length ≤ usizeMax) :
    pixelTransparent context row start =
      lift (Vergerail.pixelTransparent colorType palette transparency row start) := by
  obtain ⟨hcolor, -, hpalette, htransparency, hgray, hrgb⟩ := hcontext
  rw [pixelTransparent, hcolor, hpalette, htransparency, hgray, hrgb]
  rcases supported_cases hsupported with rfl | rfl | rfl | rfl | rfl
  · have hpixel : start + 1 ≤ row.length := hpixel
    dsimp only [Vergerail.pixelTransparent]
    cases Vergerail.transparentGray 0 transparency with
    | none => rfl
    | some sample =>
        dsimp only
        rw [index_of_lt (by omega) 0]
        rfl
  · have hpixel : start + 3 ≤ row.length := hpixel
    dsimp only [Vergerail.pixelTransparent]
    cases Vergerail.transparentRgb 2 transparency with
    | none => rfl
    | some sample =>
        dsimp only
        rw [add_of_le (by omega), ok_bind, slice_of_le (by omega) hpixel, Nat.add_sub_cancel_left]
        rfl
  · have hpixel : start + 1 ≤ row.length := hpixel
    have hread : index (ε := Error) row start = .ok (row.getD start 0) :=
      index_of_lt (by omega) 0
    have hcheck : Vergerail.pixelTransparent 3 palette transparency row start = (do
        let colors ← Lib.orFault palette (pngFault "indexed PNG is missing PLTE")
        Lib.refuse (colors.length / 3 ≤ (row.getD start 0).toNat)
          (pngFault "indexed PNG pixel is outside PLTE")
        return transparency.any (fun alpha =>
          (alpha[(row.getD start 0).toNat]?).getD 255 < 255)) := rfl
    simp only [hread, ok_bind]
    rw [hcheck]
    refine Tracks.eq_lift ?_
    exact Tracks.orFault fun _ _ => Tracks.refuse fun _ => Tracks.ok rfl
  · have hpixel : start + 2 ≤ row.length := hpixel
    have hadd : add start 1 = .ok (start + 1) := add_of_le (by omega)
    have hread : index (ε := Error) row (start + 1) = .ok (row.getD (start + 1) 0) :=
      index_of_lt (by omega) 0
    simp only [hadd, hread, ok_bind]
    rfl
  · have hpixel : start + 4 ≤ row.length := hpixel
    have hadd : add start 3 = .ok (start + 3) := add_of_le (by omega)
    have hread : index (ε := Error) row (start + 3) = .ok (row.getD (start + 3) 0) :=
      index_of_lt (by omega) 0
    simp only [hadd, hread, ok_bind]
    rfl

/-- Every pixel of the row lies within it. -/
theorem pixel_within {width pixel : Nat} (h : pixel < width) (channels : Nat) :
    pixel * channels + channels ≤ width * channels := by
  rw [← Nat.succ_mul]
  exact Nat.mul_le_mul_right channels h

theorem scanPixels_eq {context : RowContext} {row : List UInt8} {width : Nat}
    (hsupported : Supported colorType) (hcontext : context.Fits colorType palette transparency)
    (hwidth : row.length = width * Vergerail.pngChannels colorType)
    (hrow : row.length ≤ usizeMax) (seen : Bool) :
    scanPixels context width row seen =
      lift (Vergerail.scanPixels colorType palette transparency width row seen) := by
  rw [scanPixels, Vergerail.scanPixels]
  refine (Tracks.foldlM ?_ rfl).eq_lift
  rintro pixel hpixel seen _ rfl
  have hwithin := pixel_within (List.mem_range.mp hpixel) (Vergerail.pngChannels colorType)
  rw [hcontext.channels, mul_of_le (by omega), ok_bind,
    pixelTransparent_eq hsupported hcontext (by omega) hrow]
  exact Tracks.lift_bind fun _ _ => Tracks.ok rfl

theorem readExact_ok {decoder rest : Inflated} {count : Nat} {taken : List UInt8}
    (h : decoder.readExact count = some (taken, rest)) : taken.length = count := by
  unfold Inflated.readExact at h
  split at h
  · cases h
    rw [List.length_take]
    omega
  · cases h

/-- **The loop over the rows.** -/
theorem scanRows_eq {context : RowContext} {width rowBytes : Nat}
    (hsupported : Supported colorType) (hcontext : context.Fits colorType palette transparency)
    (hwidth : rowBytes = width * Vergerail.pngChannels colorType) (hrow : rowBytes ≤ usizeMax)
    {count : Nat} {previous : List UInt8} (hprevious : previous.length = rowBytes)
    (decoder : Inflated) (seen : Bool) :
    scanRows context width rowBytes count previous decoder seen =
      lift (Vergerail.scanRows colorType palette transparency width rowBytes count previous
        decoder seen) := by
  induction count generalizing previous decoder seen with
  | zero => rfl
  | succ count ih =>
      refine Tracks.eq_lift ?_
      rw [scanRows, Vergerail.scanRows, hcontext.channels]
      refine Tracks.orFault fun first hfirst => ?_
      obtain ⟨filter, decoder⟩ := first
      refine Tracks.orFault fun second hsecond => ?_
      obtain ⟨current, decoder⟩ := second
      have hfilter := readExact_ok hfirst
      have hcurrent := readExact_ok hsecond
      refine (unfilterRow_tracks (by omega) hprevious hcurrent _).bind ?_
      rintro row _ ⟨rfl, hlength⟩
      rw [scanPixels_eq hsupported hcontext (hlength.trans hwidth) (by omega)]
      refine Tracks.lift_bind fun seen _ => ?_
      rw [ih hlength]
      exact (Tracks.lift _).mono fun _ _ h => h.1

/-! ## The whole check -/

theorem transparentGray_eq (h : colorType = 0 → ∀ data, transparency = some data →
    data.length = 2) :
    transparentGray colorType transparency =
      .ok (Vergerail.transparentGray colorType transparency) := by
  rw [transparentGray, Vergerail.transparentGray]
  cases hfound : transparency.filter (fun _ => colorType = 0) with
  | none => rfl
  | some data =>
      obtain ⟨hdata, hgray⟩ := Option.filter_eq_some_iff.mp hfound
      have hlength := h (of_decide_eq_true hgray) data hdata
      dsimp only
      rw [index_of_lt (by omega) 0]
      rfl

theorem transparentRgb_eq (h : colorType = 2 → ∀ data, transparency = some data →
    data.length = 6) :
    transparentRgb colorType transparency =
      .ok (Vergerail.transparentRgb colorType transparency) := by
  rw [transparentRgb, Vergerail.transparentRgb]
  cases hfound : transparency.filter (fun _ => colorType = 2) with
  | none => rfl
  | some data =>
      obtain ⟨hdata, hrgb⟩ := Option.filter_eq_some_iff.mp hfound
      have hlength := h (of_decide_eq_true hrgb) data hdata
      dsimp only
      rw [index_of_lt (i := 1) (by omega) 0, ok_bind, index_of_lt (i := 3) (by omega) 0, ok_bind,
        index_of_lt (i := 5) (by omega) 0]
      rfl

/-- **The row buffers** are allocated from a checked size. -/
theorem rowBuffer_of_checked {rawChecked : Option Nat} {height channels width : Nat}
    (h : rawChecked = some (height * (1 + width * channels)))
    (hbounded : height * (1 + width * channels) ≤ maxPngRawBytes) (rowBytes : Nat) :
    rowBuffer rawChecked height channels width rowBytes = .ok (List.replicate rowBytes 0) :=
  if_pos ⟨h, hbounded⟩

theorem validatePng_tracks (inflate : List UInt8 → Inflated) {rounds : Nat} (input : ByteSlice)
    (hrounds : input.bytes.length ≤ rounds) :
    Tracks Eq (validatePng inflate rounds input)
      (Vergerail.validatePng inflate input.bytes) := by
  rw [validatePng, Vergerail.validatePng]
  refine Tracks.refuse fun hlong => ?_
  have hlength : 33 ≤ input.bytes.length := by
    have := of_decide_eq_false (Bool.or_eq_false_iff.mp hlong).1
    omega
  refine (scanChunks_tracks input.fits (by omega) sound_new).bind ?_
  rintro run _ ⟨rfl, hsound⟩
  refine Tracks.orFault fun header hheader => ?_
  obtain ⟨width, height, colorType⟩ := header
  refine Tracks.refuse fun _ => ?_
  refine Tracks.refuse fun _ => ?_
  have hsupported := hsound.supported hheader
  obtain ⟨hheight, hbounded, hchecked⟩ := hsound.checked hheader
  dsimp only
  rw [pngChannels_of_supported hsupported, ok_bind]
  refine Tracks.orFault fun rowBytes hrowBytes => ?_
  have hrow : rowBytes = width * Vergerail.pngChannels colorType ∧ rowBytes ≤ usizeMax := by
    unfold checkedMul at hrowBytes
    split at hrowBytes
    · cases hrowBytes
      exact ⟨rfl, by assumption⟩
    · cases hrowBytes
  have hlengths : ∀ data, run.scan.transparency = some data →
      (colorType = 0 → data.length = 2) ∧ (colorType = 2 → data.length = 6) := by
    intro data hdata
    obtain ⟨_, _, _, hihdr, hlength⟩ := hsound.transparency hdata
    rw [hheader] at hihdr
    cases hihdr
    exact hlength
  rw [rowBuffer_of_checked hchecked hbounded, ok_bind, ok_bind,
    transparentGray_eq fun h data hdata => (hlengths data hdata).1 h, ok_bind,
    transparentRgb_eq fun h data hdata => (hlengths data hdata).2 h, ok_bind,
    scanRows_eq hsupported ⟨rfl, rfl, rfl, rfl, rfl, rfl⟩ hrow.1 hrow.2 List.length_replicate]
  refine Tracks.lift_bind fun rows _ => ?_
  obtain ⟨seen, decoder⟩ := rows
  exact Tracks.lift_bind fun _ _ => Tracks.ok rfl

/-- A chunk that was taken lies within the bytes, and its end is behind its offset. -/
theorem takeChunk_advances {input : ByteSlice} (h : takeChunk input.bytes offset = .ok chunk) :
    offset + 12 ≤ chunk.chunkEnd ∧ chunk.chunkEnd ≤ input.bytes.length := by
  by_cases hoffset : offset ≤ input.bytes.length
  · obtain ⟨_, -, -, htaken⟩ := (takeChunk_tracks input.fits hoffset).answered h
    have hend := htaken.chunkEnd
    exact ⟨by omega, htaken.inside⟩
  · have htrap : sub input.bytes.length offset = trap .overflow := if_neg hoffset
    rw [takeChunk, htrap] at h
    cases h

/-- **The PNG check is total and bounded.** Given as many rounds as there are bytes, it ends
as the check of `Vergerail.Png` does, and so runs into no trap: no index, slice or conversion
fails, nothing overflows, the rounds of the loop last, and no row buffer is allocated before
its raw size was checked. Every round of the loop moves on by twelve bytes at least. -/
theorem validate_png_total (inflate : List UInt8 → Inflated) (input : ByteSlice) {rounds : Nat}
    (hrounds : input.bytes.length ≤ rounds) :
    validatePng inflate rounds input = lift (Vergerail.validatePng inflate input.bytes) ∧
    (∀ trap, validatePng inflate rounds input ≠ .error (.trapped trap)) ∧
    (∀ offset chunk, takeChunk input.bytes offset = .ok chunk →
      offset + 12 ≤ chunk.chunkEnd ∧ chunk.chunkEnd ≤ input.bytes.length) ∧
    ∀ run width height colorType, scanChunks input.bytes rounds 8 ScanRun.new = .ok run →
      run.scan.ihdr = some (width, height, colorType) →
        height * (1 + width * Vergerail.pngChannels colorType) ≤ maxPngRawBytes := by
  have htracks := validatePng_tracks inflate input hrounds
  refine ⟨htracks.eq_lift, htracks.ne_trapped, fun _ _ => takeChunk_advances, ?_⟩
  intro run width height colorType hrun hihdr
  cases rounds with
  | zero => cases hrun
  | succ rounds =>
      have hscan : Tracks Follows (scanChunks input.bytes (rounds + 1) 8 ScanRun.new) _ :=
        scanChunks_tracks input.fits (by omega) sound_new
      obtain ⟨_, -, -, hsound⟩ := hscan.answered hrun
      obtain ⟨-, hbounded, -⟩ := hsound.checked hihdr
      exact hbounded

/-- A truecolour image of two by two pixels with a transparent colour, its rows under the
filters `Average` and `Paeth`. -/
def fourPixels : ByteSlice where
  bytes := [
    0x89, 0x50, 0x4e, 0x47, 0x0d, 0x0a, 0x1a, 0x0a,
    0x00, 0x00, 0x00, 0x0d, 0x49, 0x48, 0x44, 0x52, 0x00, 0x00, 0x00, 0x02, 0x00, 0x00, 0x00, 0x02,
    0x08, 0x02, 0x00, 0x00, 0x00, 0xfd, 0xd4, 0x9a, 0x73,
    0x00, 0x00, 0x00, 0x06, 0x74, 0x52, 0x4e, 0x53, 0x00, 0x0a, 0x00, 0x14, 0x00, 0x1e, 0xc5, 0x36,
    0x29, 0xff,
    0x00, 0x00, 0x00, 0x16, 0x49, 0x44, 0x41, 0x54, 0x78, 0xda, 0x63, 0xe6, 0x12, 0x91, 0x53, 0xd6,
    0xd0, 0x65, 0xb1, 0xb1, 0xb1, 0x39, 0x72, 0xe4, 0x08, 0x00, 0x0f, 0x5a, 0x03, 0xbc, 0xca, 0xc8,
    0x3d, 0x19,
    0x00, 0x00, 0x00, 0x00, 0x49, 0x45, 0x4e, 0x44, 0xae, 0x42, 0x60, 0x82]
  fits := by decide

/-- The decoder, which knows the data of this image. -/
def fourPixelsInflate (data : List UInt8) : Inflated :=
  if data = [0x78, 0xda, 0x63, 0xe6, 0x12, 0x91, 0x53, 0xd6, 0xd0, 0x65, 0xb1, 0xb1, 0xb1, 0x39,
      0x72, 0xe4, 0x08, 0x00, 0x0f, 0x5a, 0x03, 0xbc] then
    { bytes := [3, 10, 20, 30, 35, 40, 45, 4, 60, 60, 60, 196, 196, 196], corrupt := false }
  else { bytes := [], corrupt := true }

/-- The run over all chunks and rows ends, so the check that has no traps accepts the file. -/
theorem validate_png_total_fourPixels :
    Vergerail.validatePng fourPixelsInflate fourPixels.bytes =
      .ok { width := 2, height := 2, alphaCapable := true, hasTransparentPixels := true } := by
  have hrun : (validatePng fourPixelsInflate 97 fourPixels).toOption =
      some { width := 2, height := 2, alphaCapable := true, hasTransparentPixels := true } := by
    decide +kernel
  have hlength : fourPixels.bytes.length ≤ 97 := by decide
  have htotal := (validate_png_total fourPixelsInflate fourPixels hlength).1
  rw [htotal] at hrun
  cases hcheck : Vergerail.validatePng fourPixelsInflate fourPixels.bytes with
  | ok info =>
      rw [hcheck] at hrun
      cases hrun
      rfl
  | error fault =>
      rw [hcheck] at hrun
      cases hrun

end Vergerail.PngExec
