import Mathlib.Data.Nat.Digits.Defs
import Mathlib.Data.Rat.Defs
import Mathlib.Algebra.Order.Field.Basic
import Mathlib.Algebra.Order.Field.Rat
import Mathlib.Tactic.Linarith
import Mathlib.Tactic.Ring

/-!
# Decimal numbers and their digits

A decimal number is a sign, digits and a power of ten. Zeros at the front of the digits do not
count, zeros at their end can be moved into the power. What has neither, or is a plain zero, is
the only one of its kind: the sign is that of the value, the power is the largest that leaves a
whole number, and the digits are those of this number.
-/

namespace Lib

/-- The number that digits show, the first digit first. -/
def digitsValue (cs : List Char) : Nat := cs.foldl (fun n c => 10 * n + (c.toNat - '0'.toNat)) 0

/-- The number that one digit shows. -/
def digitValue (c : Char) : Nat := c.toNat - '0'.toNat

/-! ## Digits -/

theorem digitsValue_eq_ofDigits (cs : List Char) :
    digitsValue cs = Nat.ofDigits 10 (cs.map digitValue).reverse := by
  have hfold : ∀ (cs : List Char) (n : Nat),
      cs.foldl (fun n c => 10 * n + (c.toNat - '0'.toNat)) n
        = Nat.ofDigits 10 (cs.map digitValue).reverse + 10 ^ cs.length * n := by
    intro cs
    induction cs with
    | nil =>
        intro n
        rw [List.map_nil, List.reverse_nil, Nat.ofDigits_nil, List.length_nil, Nat.pow_zero,
          Nat.one_mul, Nat.zero_add]
        rfl
    | cons c cs ih =>
        intro n
        rw [List.foldl_cons, ih, List.map_cons, Nat.ofDigits_reverse_cons, List.length_map,
          List.length_cons, Nat.pow_succ]
        change _ + 10 ^ cs.length * (10 * n + digitValue c) = _
        ring
  rw [digitsValue, hfold, Nat.mul_zero, Nat.add_zero]

@[simp] theorem digitsValue_nil : digitsValue [] = 0 := rfl

theorem digitsValue_append (cs ds : List Char) :
    digitsValue (cs ++ ds) = digitsValue cs * 10 ^ ds.length + digitsValue ds := by
  rw [digitsValue_eq_ofDigits, digitsValue_eq_ofDigits, digitsValue_eq_ofDigits, List.map_append,
    List.reverse_append, Nat.ofDigits_append, List.length_reverse, List.length_map]
  ring

theorem digitsValue_zeros (n : Nat) : digitsValue (List.replicate n '0') = 0 := by
  induction n with
  | zero => rfl
  | succ n ih =>
      rw [List.replicate_succ', digitsValue_append, ih]
      rfl

/-- Zeros at the front do not count. -/
theorem digitsValue_dropWhile (cs : List Char) :
    digitsValue (cs.dropWhile (· == '0')) = digitsValue cs := by
  induction cs with
  | nil => rfl
  | cons c cs ih =>
      rw [List.dropWhile_cons]
      split
      · rename_i hzero
        rw [eq_of_beq hzero, ih]
        rfl
      · rfl

theorem toNat_of_isDigit {c : Char} (h : c.isDigit = true) : 48 ≤ c.toNat ∧ c.toNat ≤ 57 := by
  rw [Char.isDigit, Bool.and_eq_true, decide_eq_true_eq, decide_eq_true_eq] at h
  exact ⟨UInt32.le_iff_toNat_le.mp h.1, UInt32.le_iff_toNat_le.mp h.2⟩

theorem digitValue_eq (c : Char) : digitValue c = c.toNat - 48 := rfl

theorem digitValue_lt {c : Char} (h : c.isDigit = true) : digitValue c < 10 := by
  have := toNat_of_isDigit h
  rw [digitValue_eq]
  omega

/-- A digit is known by what it shows. -/
theorem digitValue_injective {c d : Char} (hc : c.isDigit = true) (hd : d.isDigit = true)
    (h : digitValue c = digitValue d) : c = d := by
  have hc := toNat_of_isDigit hc
  have hd := toNat_of_isDigit hd
  rw [digitValue_eq, digitValue_eq] at h
  have hsame : c.toNat = d.toNat := by omega
  rw [← Char.ofNat_toNat c, ← Char.ofNat_toNat d, hsame]

theorem digitValue_eq_zero {c : Char} (hc : c.isDigit = true) (h : digitValue c = 0) : c = '0' :=
  digitValue_injective hc (by decide) h

/-- All of these are digits. -/
def AllDigits (cs : List Char) : Prop := ∀ c ∈ cs, c.isDigit = true

variable {cs ds : List Char}

theorem AllDigits.of_all (h : cs.all Char.isDigit = true) : AllDigits cs := List.all_eq_true.mp h

theorem AllDigits.subset (h : AllDigits cs) (hsub : ds ⊆ cs) : AllDigits ds :=
  fun c hc => h c (hsub hc)

theorem map_digitValue_injective (hcs : AllDigits cs) (hds : AllDigits ds)
    (h : cs.map digitValue = ds.map digitValue) : cs = ds := by
  induction cs generalizing ds with
  | nil =>
      rw [List.map_nil] at h
      exact (List.map_eq_nil_iff.mp h.symm).symm
  | cons c cs ih =>
      cases ds with
      | nil => cases h
      | cons d ds =>
          obtain ⟨hhead, htail⟩ := List.cons.inj h
          rw [digitValue_injective (hcs c List.mem_cons_self) (hds d List.mem_cons_self) hhead,
            ih (hcs.subset (List.subset_cons_self c cs)) (hds.subset (List.subset_cons_self d ds))
              htail]

theorem digits_digitsValue (h : AllDigits cs) (hhead : cs.head? ≠ some '0') :
    Nat.digits 10 (digitsValue cs) = (cs.map digitValue).reverse := by
  rw [digitsValue_eq_ofDigits]
  refine Nat.digits_ofDigits 10 (by decide) _ ?_ ?_
  · intro n hn
    obtain ⟨c, hc, rfl⟩ := List.mem_map.mp (List.mem_reverse.mp hn)
    exact digitValue_lt (h c hc)
  · intro hne
    cases cs with
    | nil => exact absurd rfl hne
    | cons c cs =>
        have hlast : ((c :: cs).map digitValue).reverse.getLast hne = digitValue c := by
          simp
        rw [hlast]
        intro hzero
        have hc := digitValue_eq_zero (h c List.mem_cons_self) hzero
        rw [hc] at hhead
        exact hhead rfl

/-- **Digits without zeros at the front** are known by the number they show. -/
theorem digitsValue_injective (hcs : AllDigits cs) (hds : AllDigits ds)
    (hc : cs.head? ≠ some '0') (hd : ds.head? ≠ some '0')
    (h : digitsValue cs = digitsValue ds) : cs = ds := by
  have hdigits := digits_digitsValue hcs hc
  rw [h, digits_digitsValue hds hd] at hdigits
  exact (map_digitValue_injective hds hcs (List.reverse_inj.mp hdigits)).symm

theorem digitsValue_pos (h : AllDigits cs) (hne : cs ≠ []) (hhead : cs.head? ≠ some '0') :
    0 < digitsValue cs := by
  rcases Nat.eq_zero_or_pos (digitsValue cs) with hzero | hpos
  · have hdigits := digits_digitsValue h hhead
    rw [hzero, Nat.digits_zero] at hdigits
    have hnil := List.reverse_eq_nil_iff.mp hdigits.symm
    exact absurd (List.map_eq_nil_iff.mp hnil) hne
  · exact hpos

/-- Where the last digit is no zero, ten does not divide the number. -/
theorem not_dvd_digitsValue (h : AllDigits cs) (hne : cs ≠ [])
    (hlast : cs.getLast? ≠ some '0') : ¬10 ∣ digitsValue cs := by
  rcases List.eq_nil_or_concat cs with rfl | ⟨front, last, rfl⟩
  · exact absurd rfl hne
  · rw [List.concat_eq_append] at h hlast ⊢
    have hdigit := h last (by simp)
    rw [List.getLast?_concat] at hlast
    rw [digitsValue_append]
    intro hdvd
    have hsmall := digitValue_lt hdigit
    have hvalue : digitsValue [last] = digitValue last := by
      change 10 * 0 + digitValue last = _
      omega
    rw [hvalue, List.length_singleton, pow_one] at hdvd
    have hzero : digitValue last = 0 := by omega
    exact hlast (congrArg some (digitValue_eq_zero hdigit hzero))

/-! ## Powers of ten -/

/-- **A number and a power of ten** are known by their product where ten does not divide the
number. -/
theorem eq_of_mul_zpow_eq {m n : Nat} {s t : Int} (hm : ¬10 ∣ m) (hn : ¬10 ∣ n)
    (h : (m : ℚ) * 10 ^ s = n * 10 ^ t) : m = n ∧ s = t := by
  -- the smaller power is cancelled, the rest of the other makes its number a multiple of ten
  have hcancel : ∀ {m n : Nat} {s : Int} {k : Nat}, (m : ℚ) * 10 ^ s = n * 10 ^ (s + k) →
      m = n * 10 ^ k := by
    intro m n s k h
    rw [zpow_add₀ (by norm_num), zpow_natCast, mul_left_comm, mul_comm (m : ℚ)] at h
    have hten : (10 : ℚ) ^ s ≠ 0 := zpow_ne_zero s (by norm_num)
    exact_mod_cast mul_left_cancel₀ hten h
  have hpow : ∀ {m n k : Nat}, ¬10 ∣ m → m = n * 10 ^ k → k = 0 := by
    intro m n k hm hk
    cases k with
    | zero => rfl
    | succ k =>
        refine absurd ?_ hm
        rw [hk, pow_succ, ← mul_assoc]
        exact dvd_mul_left 10 _
  rcases le_total s t with hle | hle
  · obtain ⟨k, rfl⟩ : ∃ k : Nat, t = s + k := ⟨(t - s).toNat, by omega⟩
    have hk := hcancel h
    have hzero := hpow hm hk
    subst hzero
    exact ⟨by omega, by omega⟩
  · obtain ⟨k, rfl⟩ : ∃ k : Nat, s = t + k := ⟨(s - t).toNat, by omega⟩
    have hk := hcancel h.symm
    have hzero := hpow hn hk
    subst hzero
    exact ⟨by omega, by omega⟩

/-! ## Decimal numbers -/

/-- The value of a sign, a number and a power of ten. -/
def decimalValue (negative : Bool) (n : Nat) (scale : Int) : ℚ :=
  (if negative then -1 else 1) * (n * 10 ^ scale)

theorem decimalValue_eq_zero {negative : Bool} {n : Nat} {scale : Int} :
    decimalValue negative n scale = 0 ↔ n = 0 := by
  have hsign : (if negative = true then (-1 : ℚ) else 1) ≠ 0 := by
    cases negative <;> norm_num
  have hten : (10 : ℚ) ^ scale ≠ 0 := zpow_ne_zero scale (by norm_num)
  rw [decimalValue, mul_eq_zero, or_iff_right hsign, mul_eq_zero, or_iff_left hten,
    Nat.cast_eq_zero]

/-- The sign is that of the value. -/
theorem decimalValue_sign {negative : Bool} {n : Nat} {scale : Int} (hn : n ≠ 0) :
    decimalValue negative n scale < 0 ↔ negative = true := by
  have hpos : (0 : ℚ) < n * 10 ^ scale :=
    mul_pos (by exact_mod_cast Nat.pos_of_ne_zero hn) (zpow_pos (by norm_num) scale)
  rw [decimalValue]
  cases negative with
  | true =>
      rw [if_pos rfl]
      exact iff_of_true (by linarith) rfl
  | false =>
      rw [if_neg Bool.false_ne_true]
      exact iff_of_false (by linarith) Bool.false_ne_true

/-- Zeros at the end of the digits are powers of ten. -/
theorem decimalValue_zeros (negative : Bool) (n k : Nat) (scale : Int) :
    decimalValue negative (n * 10 ^ k) scale = decimalValue negative n (scale + k) := by
  rw [decimalValue, decimalValue, zpow_add₀ (by norm_num), zpow_natCast]
  push_cast
  ring

/-- The form that a value has only once. -/
inductive IsNormal : Bool → List Char → Int → Prop where
  | zero : IsNormal false ['0'] 0
  | digits {negative : Bool} {cs : List Char} {scale : Int} : AllDigits cs → cs ≠ [] →
      cs.head? ≠ some '0' → cs.getLast? ≠ some '0' → IsNormal negative cs scale

/-- **Normal forms are unique.** -/
theorem IsNormal.unique {negative negative' : Bool} {scale scale' : Int}
    (h : IsNormal negative cs scale) (h' : IsNormal negative' ds scale')
    (heq : decimalValue negative (digitsValue cs) scale
      = decimalValue negative' (digitsValue ds) scale') :
    negative = negative' ∧ cs = ds ∧ scale = scale' := by
  have hzero : digitsValue cs = 0 ↔ digitsValue ds = 0 := by
    have hleft : decimalValue negative (digitsValue cs) scale = 0 ↔ digitsValue cs = 0 :=
      decimalValue_eq_zero
    rw [← hleft, heq, decimalValue_eq_zero]
  cases h with
  | zero =>
      cases h' with
      | zero => exact ⟨rfl, rfl, rfl⟩
      | digits hall hne hhead =>
          have hpos := digitsValue_pos hall hne hhead
          have := hzero.mp rfl
          omega
  | digits hall hne hhead hlast =>
      have hpos := digitsValue_pos hall hne hhead
      cases h' with
      | zero =>
          have := hzero.mpr rfl
          omega
      | digits hall' hne' hhead' hlast' =>
          have hpos' := digitsValue_pos hall' hne' hhead'
          have hsign : negative = negative' := by
            have hleft : decimalValue negative (digitsValue cs) scale < 0 ↔ negative = true :=
              decimalValue_sign hpos.ne'
            rw [heq, decimalValue_sign hpos'.ne'] at hleft
            exact Bool.eq_iff_iff.mpr hleft.symm
          subst hsign
          have hunit : (if negative = true then (-1 : ℚ) else 1) ≠ 0 := by
            cases negative <;> norm_num
          have hproduct := mul_left_cancel₀ hunit heq
          obtain ⟨hdigits, hscale⟩ := eq_of_mul_zpow_eq (not_dvd_digitsValue hall hne hlast)
            (not_dvd_digitsValue hall' hne' hlast') hproduct
          exact ⟨rfl, digitsValue_injective hall hall' hhead hhead' hdigits, hscale⟩

end Lib
