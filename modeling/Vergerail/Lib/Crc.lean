import Mathlib.Logic.Function.Iterate

/-!
# Cyclic redundancy checks

A check register takes a message one bit at a time, the lowest bit of a byte first, and
folds its polynomial in whenever the bit it drops differs from the one it takes. Taking a
whole byte into the register and then dropping eight bits comes to the same: what is left of
the byte is shifted along with the register.
-/

namespace Lib.Crc

variable {w : Nat} (poly : BitVec w)

/-- The register takes a bit. -/
def shift (register : BitVec w) (bit : Bool) : BitVec w :=
  if register.getLsbD 0 ^^ bit then (register >>> 1) ^^^ poly else register >>> 1

/-- The register takes one bit after the other. -/
def feed (register : BitVec w) (bits : List Bool) : BitVec w := bits.foldl (shift poly) register

/-- The bits of a byte, the lowest first. -/
def byteBits (byte : UInt8) : List Bool := (List.range 8).map byte.toBitVec.getLsbD

/-- The check of a message: the register starts with ones and is inverted at the end. -/
def check (message : List UInt8) : BitVec w :=
  ~~~ (feed poly (BitVec.allOnes w) (message.flatMap byteBits))

/-- What was folded into the register beforehand is the bit that the shift takes, and the
rest of it moves along. -/
theorem shift_xor (register ahead : BitVec w) :
    shift poly (register ^^^ ahead) false
      = shift poly register (ahead.getLsbD 0) ^^^ (ahead >>> 1) := by
  unfold shift
  rw [BitVec.getLsbD_xor, Bool.xor_false, BitVec.ushiftRight_xor_distrib]
  by_cases hbit : (register.getLsbD 0 ^^ ahead.getLsbD 0) = true
  · rw [if_pos hbit, if_pos hbit, BitVec.xor_assoc, BitVec.xor_assoc,
      BitVec.xor_comm (ahead >>> 1) poly]
  · rw [if_neg hbit, if_neg hbit]

theorem iterate_shift_xor (register ahead : BitVec w) (n : Nat) :
    (shift poly · false)^[n] (register ^^^ ahead)
      = feed poly register ((List.range n).map ahead.getLsbD) ^^^ (ahead >>> n) := by
  induction n with
  | zero => simp [feed]
  | succ n ih =>
      rw [Function.iterate_succ_apply', ih, shift_xor, List.range_succ, List.map_append, feed,
        feed, List.foldl_append, BitVec.getLsbD_ushiftRight, BitVec.shiftRight_add]
      rfl

/-- **A byte at a time.** -/
theorem iterate_shift_byte (hw : 8 ≤ w) (register : BitVec w) (byte : UInt8) :
    (shift poly · false)^[8] (register ^^^ byte.toBitVec.setWidth w)
      = feed poly register (byteBits byte) := by
  have hgone : byte.toBitVec.setWidth w >>> 8 = 0#w := by
    apply BitVec.eq_of_toNat_eq
    have hbyte := byte.toBitVec.isLt
    rw [BitVec.toNat_ushiftRight, BitVec.toNat_setWidth_of_le hw, Nat.shiftRight_eq_div_pow,
      Nat.div_eq_of_lt hbyte]
    rfl
  have hbits : (List.range 8).map (byte.toBitVec.setWidth w).getLsbD = byteBits byte := by
    refine List.map_congr_left ?_
    intro i hi
    rw [List.mem_range] at hi
    rw [BitVec.getLsbD_setWidth, decide_eq_true (by omega), Bool.true_and]
  rw [iterate_shift_xor, hgone, hbits, BitVec.xor_zero]

theorem feed_append (register : BitVec w) (bits later : List Bool) :
    feed poly register (bits ++ later) = feed poly (feed poly register bits) later :=
  List.foldl_append

end Lib.Crc
