import Vergerail.Approval.Protocol
import Vergerail.Private.Protocol
import Mathlib

/-!
# Numbers as they are written

A number printed in decimal is read back by `Value::as_u64` and `Value::as_i64`, within
their ranges.
-/

namespace Vergerail

theorem startsWith_repr (n : Nat) : (Nat.repr n).startsWith "-" = false := by
  rw [← Bool.not_eq_true, String.startsWith_string_iff]
  rintro ⟨rest, hrest⟩
  have hmem : '-' ∈ (Nat.repr n).toList := by
    rw [← hrest]
    exact List.mem_append_left _ (by decide)
  rw [Nat.toList_repr] at hmem
  have hdigit := Nat.isDigit_of_mem_toDigits (by decide) (by decide) hmem
  revert hdigit
  decide

/-- **A printed number is read back.** -/
theorem asU64_toString {n : Nat} (h : n < 2 ^ 64) :
    (Json.number (toString n)).asU64 = some n := by
  have hs : (toString n).startsWith "-" = false := startsWith_repr n
  have hn : (toString n).toNat? = some n := Nat.toNat?_repr n
  rw [Json.asU64, hs, hn, if_neg Bool.false_ne_true, Option.filter_some,
    if_pos (decide_eq_true h)]

/-- A literal that is the print of a number is read as it. -/
theorem asU64_literal {text : String} {n : Nat} (htext : text = toString n) (h : n < 2 ^ 64) :
    (Json.number text).asU64 = some n := by
  rw [htext]
  exact asU64_toString h

/-- The range of an `i64`. -/
def InI64 (n : Int) : Prop := -(2 ^ 63) ≤ n ∧ n < 2 ^ 63

instance (n : Int) : Decidable (InI64 n) := inferInstanceAs (Decidable (_ ∧ _))

/-- **A printed signed number is read back.** -/
theorem asI64_toString {n : Int} (h : InI64 n) : (Json.number (toString n)).asI64 = some n := by
  have hn : (toString n).toInt? = some n := Int.toInt?_repr n
  have hzero : toString n ≠ "-0" := by
    intro heq
    -- `-0` reads as zero, which prints otherwise
    have hminus : ("-" ++ toString 0).toInt? = some 0 := by
      rw [String.toInt?_minus_append]
      simp
    rw [heq] at hn
    have h0 : n = 0 := Option.some.inj (hn.symm.trans hminus)
    rw [h0] at heq
    revert heq
    decide
  rw [Json.asI64, if_neg hzero, hn, Option.filter_some, if_pos]
  rw [Bool.and_eq_true]
  exact ⟨decide_eq_true h.1, decide_eq_true h.2⟩

/-- A printed unsigned number in the range of an `i64` is read as a signed one. -/
theorem asI64_natCast {n : Nat} (h : n < 2 ^ 63) :
    (Json.number (toString n)).asI64 = some (n : Int) := by
  have hin : InI64 n := ⟨by omega, by omega⟩
  exact asI64_toString hin

end Vergerail
