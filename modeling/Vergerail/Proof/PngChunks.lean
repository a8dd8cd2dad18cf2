import Vergerail.Png

/-!
# From bytes to chunks

The loop over the bytes of a PNG takes one chunk after the other, and what it takes is what
the format encodes: the length is that of the data, and the check is the one of the type and
the data. So a scan of bytes that goes through is a run over a list of chunks whose encodings
are these bytes.
-/

namespace Vergerail

open Lib

/-! ## The check -/

section Check

theorem low_bit (c : UInt32) : c &&& 1 ≠ 0 ↔ c.toBitVec.getLsbD 0 = true := by
  have hbits : (c &&& 1).toBitVec = BitVec.setWidth 32 (BitVec.ofBool (c.toBitVec.getLsbD 0)) := by
    rw [UInt32.toBitVec_and]
    exact BitVec.and_one_eq_setWidth_ofBool_getLsbD
  rw [Ne, ← UInt32.toBitVec_inj, hbits]
  cases c.toBitVec.getLsbD 0 <;> decide

theorem crcBit_toBitVec (c : UInt32) :
    (crcBit c).toBitVec = Crc.shift Png.polynomial c.toBitVec false := by
  rw [crcBit, Crc.shift, Bool.xor_false]
  by_cases hbit : c &&& 1 ≠ 0
  · rw [if_pos hbit, if_pos ((low_bit c).mp hbit), UInt32.toBitVec_xor,
      UInt32.toBitVec_shiftRight]
    rfl
  · rw [if_neg hbit, if_neg (fun h => hbit ((low_bit c).mpr h)), UInt32.toBitVec_shiftRight]
    rfl

theorem iterate_crcBit (n : Nat) (c : UInt32) :
    (crcBit^[n] c).toBitVec = (Crc.shift Png.polynomial · false)^[n] c.toBitVec := by
  induction n generalizing c with
  | zero => rfl
  | succ n ih => rw [Function.iterate_succ_apply, Function.iterate_succ_apply, ih, crcBit_toBitVec]

theorem foldl_crc (bytes : List UInt8) (c : UInt32) :
    (bytes.foldl (fun crc byte => crcBit^[8] (crc ^^^ byte.toUInt32)) c).toBitVec
      = Crc.feed Png.polynomial c.toBitVec (bytes.flatMap Crc.byteBits) := by
  induction bytes generalizing c with
  | nil => rfl
  | cons byte bytes ih =>
      rw [List.foldl_cons, ih, iterate_crcBit, List.flatMap_cons, Crc.feed_append,
        UInt32.toBitVec_xor, UInt8.toBitVec_toUInt32, Crc.iterate_shift_byte _ (by decide)]

/-- **The source's check is the one of the format.** -/
theorem toNat_pngCrc32 (bytes : List UInt8) : (pngCrc32 bytes).toNat = Png.crc32 bytes := by
  have hbits : (pngCrc32 bytes).toBitVec = Crc.check Png.polynomial bytes := by
    rw [pngCrc32, UInt32.toBitVec_not, foldl_crc]
    rfl
  rw [Png.crc32, ← hbits, UInt32.toNat_toBitVec]

theorem crc32_lt (bytes : List UInt8) : Png.crc32 bytes < 2 ^ 32 :=
  (Crc.check Png.polynomial bytes).isLt

end Check

/-! ## One chunk -/

section OneChunk

variable {rest data chunkType : List UInt8}

/-- The parts of a long enough list of bytes. -/
theorem split_chunk (n : Nat) (rest : List UInt8) :
    rest = rest.take 4 ++ ((rest.drop 4).take 4 ++ ((rest.drop 8).take n
      ++ ((rest.drop (8 + n)).take 4 ++ rest.drop (12 + n)))) := by
  have hlast : rest.drop (12 + n) = (rest.drop (8 + n)).drop 4 := by
    rw [List.drop_drop]
    congr 1
    omega
  have hcheck : rest.drop (8 + n) = (rest.drop 8).drop n := by rw [List.drop_drop]
  have hdata : rest.drop 8 = (rest.drop 4).drop 4 := by rw [List.drop_drop]
  rw [hlast, List.take_append_drop, hcheck, List.take_append_drop, hdata, List.take_append_drop,
    List.take_append_drop]

/-- The parts of the encoding of a chunk, where the bytes start with it. -/
theorem parts_encode (c : Png.Chunk) (later : List UInt8) :
    (c.encode ++ later).take 4 = Png.be32 c.data.length
      ∧ ((c.encode ++ later).drop 4).take 4 = c.type
      ∧ ((c.encode ++ later).drop 8).take c.data.length = c.data
      ∧ ((c.encode ++ later).drop 4).take (4 + c.data.length) = c.type ++ c.data
      ∧ ((c.encode ++ later).drop (8 + c.data.length)).take 4
        = Png.be32 (Png.crc32 (c.type ++ c.data))
      ∧ (c.encode ++ later).drop (12 + c.data.length) = later := by
  have htype := c.type_length
  have hshape : c.encode ++ later = Png.be32 c.data.length ++ (c.type ++ (c.data
      ++ (Png.be32 (Png.crc32 (c.type ++ c.data)) ++ later))) := by
    rw [Png.Chunk.encode, List.append_assoc, List.append_assoc, List.append_assoc]
  have h4 : (c.encode ++ later).drop 4 = c.type ++ (c.data
      ++ (Png.be32 (Png.crc32 (c.type ++ c.data)) ++ later)) := by
    rw [hshape, List.drop_left' (Png.length_be32 _)]
  have h8 : (c.encode ++ later).drop 8 = c.data
      ++ (Png.be32 (Png.crc32 (c.type ++ c.data)) ++ later) := by
    rw [show 8 = 4 + 4 from rfl, ← List.drop_drop, h4, List.drop_left' htype]
  have hcheck : (c.encode ++ later).drop (8 + c.data.length)
      = Png.be32 (Png.crc32 (c.type ++ c.data)) ++ later := by
    rw [← List.drop_drop, h8, List.drop_left]
  refine ⟨?_, ?_, ?_, ?_, ?_, ?_⟩
  · rw [hshape, List.take_left' (Png.length_be32 _)]
  · rw [h4, List.take_left' htype]
  · rw [h8, List.take_left]
  · rw [h4, ← List.append_assoc, List.take_left']
    rw [List.length_append, htype]
  · rw [hcheck, List.take_left' (Png.length_be32 _)]
  · rw [show 12 + c.data.length = 8 + c.data.length + 4 by omega, ← List.drop_drop, hcheck,
      List.drop_left' (Png.length_be32 _)]

/-- **What is taken is the chunk that the bytes start with.** -/
theorem takeChunk_ok :
    takeChunk rest = .ok (chunkType, data) ↔
      ∃ (c : Png.Chunk) (later : List UInt8), rest = c.encode ++ later ∧ c.type = chunkType ∧
        c.data = data := by
  constructor
  · intro h
    obtain ⟨_, hheader, h⟩ := bind_ok.mp h
    obtain ⟨_, hlength, h⟩ := bind_ok.mp h
    obtain ⟨_, hcheck, h⟩ := bind_ok.mp h
    cases h
    rw [refuse_ok, decide_eq_false_iff_not] at hheader hlength hcheck
    generalize hn : Png.fromBe (rest.take 4) = n at hlength hcheck ⊢
    have hfour : (rest.take 4).length = 4 := by
      rw [List.length_take]
      omega
    have htype : ((rest.drop 4).take 4).length = 4 := by
      rw [List.length_take, List.length_drop]
      omega
    have hdata : ((rest.drop 8).take n).length = n := by
      rw [List.length_take, List.length_drop]
      omega
    have hcrc : ((rest.drop (8 + n)).take 4).length = 4 := by
      rw [List.length_take, List.length_drop]
      omega
    have hbound : ((rest.drop 8).take n).length < 2 ^ 32 := by
      rw [hdata, ← hn]
      exact Png.fromBe_lt hfour
    refine ⟨⟨(rest.drop 4).take 4, (rest.drop 8).take n, htype, hbound⟩, rest.drop (12 + n), ?_,
      rfl, rfl⟩
    have hboth : (rest.drop 4).take (4 + n) = (rest.drop 4).take 4 ++ (rest.drop 8).take n := by
      rw [List.take_add, List.drop_drop]
    have hsum : Png.be32 (Png.crc32 ((rest.drop 4).take 4 ++ (rest.drop 8).take n))
        = (rest.drop (8 + n)).take 4 := by
      rw [← hboth, ← toNat_pngCrc32, not_not.mp hcheck, Png.be32_fromBe hcrc]
    have hlen : Png.be32 ((rest.drop 8).take n).length = rest.take 4 := by
      rw [hdata, ← hn, Png.be32_fromBe hfour]
    rw [Png.Chunk.encode, hsum, hlen, List.append_assoc, List.append_assoc, List.append_assoc]
    exact split_chunk n rest
  · rintro ⟨c, later, rfl, rfl, rfl⟩
    obtain ⟨hlen, htype, hdata, hboth, hcheck, -⟩ := parts_encode c later
    have hlength : (c.encode ++ later).length = 12 + c.data.length + later.length := by
      rw [List.length_append, c.length_encode]
    have hread : Png.fromBe ((c.encode ++ later).take 4) = c.data.length := by
      rw [hlen, Png.fromBe_be32 c.data_length]
    refine bind_ok.mpr ⟨(), refuse_ok.mpr ?_, ?_⟩
    · rw [decide_eq_false_iff_not]
      omega
    · rw [hread]
      refine bind_ok.mpr ⟨(), refuse_ok.mpr ?_, bind_ok.mpr ⟨(), refuse_ok.mpr ?_, ?_⟩⟩
      · rw [decide_eq_false_iff_not]
        omega
      · rw [hboth, hcheck, toNat_pngCrc32, Png.fromBe_be32 (crc32_lt _), decide_eq_false_iff_not]
        exact not_not.mpr rfl
      · rw [htype, hdata]
        rfl

end OneChunk

/-! ## All chunks -/

section AllChunks

variable {offset : Nat} {rest : List UInt8} {s s' : PngScan}

/-- The loop, over chunks. -/
def PngScan.run (offset : Nat) : List Png.Chunk → PngScan → Result PngScan
  | [], s => .ok s
  | c :: later, s => do
      let s' ← s.readChunk offset later.isEmpty c.type c.data
      run (offset + (12 + c.data.length)) later s'

theorem flatMap_encode_nil {chunks : List Png.Chunk} :
    chunks.flatMap Png.Chunk.encode = [] ↔ chunks = [] := by
  constructor
  · intro h
    cases chunks with
    | nil => rfl
    | cons c later =>
        have hlength := congrArg List.length h
        rw [List.flatMap_cons, List.length_append, c.length_encode, List.length_nil] at hlength
        omega
  · rintro rfl
    rfl

/-- The end of the bytes is the end of the chunks. -/
theorem atEnd_iff (c : Png.Chunk) (later : List Png.Chunk) :
    decide (12 + c.data.length = (c.encode ++ later.flatMap Png.Chunk.encode).length)
      = later.isEmpty := by
  rw [Bool.eq_iff_iff, decide_eq_true_iff, List.isEmpty_iff, ← flatMap_encode_nil,
    List.length_append, c.length_encode, ← List.length_eq_zero_iff]
  omega

/-- **A scan that goes through is a run over chunks.** -/
theorem scanChunks_ok :
    scanChunks offset rest s = .ok s' ↔
      ∃ chunks : List Png.Chunk, rest = chunks.flatMap Png.Chunk.encode ∧
        PngScan.run offset chunks s = .ok s' := by
  -- induction on how many bytes are left
  generalize hn : rest.length = n
  induction n using Nat.strong_induction_on generalizing offset rest s with
  | _ n ih =>
      by_cases hrest : rest = []
      · rw [scanChunks, dif_pos hrest]
        constructor
        · intro h
          exact ⟨[], hrest, h⟩
        · rintro ⟨chunks, hbytes, hrun⟩
          rw [hrest] at hbytes
          rw [flatMap_encode_nil.mp hbytes.symm] at hrun
          exact hrun
      · rw [scanChunks, dif_neg hrest, bind_ok]
        constructor
        · rintro ⟨⟨chunkType, data⟩, htake, h⟩
          obtain ⟨c, later, rfl, rfl, rfl⟩ := takeChunk_ok.mp htake
          obtain ⟨next, hread, h⟩ := bind_ok.mp h
          rw [(parts_encode c later).2.2.2.2.2] at h
          have hlt : later.length < n := by
            rw [List.length_append, c.length_encode] at hn
            omega
          obtain ⟨chunks, rfl, hrun⟩ := (ih later.length hlt rfl).mp h
          rw [atEnd_iff] at hread
          exact ⟨c :: chunks, rfl, bind_ok.mpr ⟨next, hread, hrun⟩⟩
        · rintro ⟨chunks, rfl, hrun⟩
          cases chunks with
          | nil => exact absurd rfl hrest
          | cons c later =>
              obtain ⟨next, hread, hrun⟩ := bind_ok.mp hrun
              have hlt : (later.flatMap Png.Chunk.encode).length < n := by
                rw [List.flatMap_cons, List.length_append, c.length_encode] at hn
                omega
              refine ⟨(c.type, c.data), takeChunk_ok.mpr ⟨c, _, List.flatMap_cons, rfl, rfl⟩, ?_⟩
              dsimp only
              rw [List.flatMap_cons, atEnd_iff]
              refine bind_ok.mpr ⟨next, hread, ?_⟩
              rw [(parts_encode c _).2.2.2.2.2]
              exact (ih _ hlt rfl).mpr ⟨later, rfl, hrun⟩

end AllChunks

end Vergerail
