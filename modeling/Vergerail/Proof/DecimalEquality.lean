import Vergerail.Bin.NativeSchema
import Vergerail.Lib.DecimalDigits
import Mathlib.Data.List.TakeWhile

/-!
# Equal numbers in a schema

`canonical_decimal` works on the text of a number. On a text of the JSON grammar it cuts the
text where the grammar does, and what it answers is the normal form of the value, so two
texts have the same answer exactly if they have the same value. The one thing that it can
miss is the range of an `i32`: the scale is first worked out for the digits as they are
shown, and that can be out of range where the scale of the normal form is not.
-/

namespace Vergerail

namespace NativeSchema

open Lib

/-! ## The texts -/

/-- Digits, at least one. -/
structure DigitText where
  chars : List Char
  nonempty : chars ≠ []
  digits : AllDigits chars

/-- An exponent: its sign, if it is shown, and its digits. -/
structure ExponentText where
  sign : Option Bool
  digits : DigitText

/-- A number as JSON writes it. -/
structure NumberText where
  negative : Bool
  whole : DigitText
  fraction : Option DigitText
  exponent : Option ExponentText

def ExponentText.chars (self : ExponentText) : List Char :=
  match self.sign with
  | none => self.digits.chars
  | some true => '-' :: self.digits.chars
  | some false => '+' :: self.digits.chars

def ExponentText.value (self : ExponentText) : Int :=
  if self.sign = some true then -(digitsValue self.digits.chars : Int)
  else digitsValue self.digits.chars

namespace NumberText

def fractionDigits (self : NumberText) : List Char :=
  match self.fraction with
  | none => []
  | some fraction => fraction.chars

/-- All digits before the exponent. -/
def digits (self : NumberText) : List Char := self.whole.chars ++ self.fractionDigits

def fractionChars (self : NumberText) : List Char :=
  match self.fraction with
  | none => []
  | some fraction => '.' :: fraction.chars

def exponentChars (self : NumberText) : List Char :=
  match self.exponent with
  | none => []
  | some exponent => 'e' :: exponent.chars

/-- What is written before the exponent, without the sign. -/
def mantissa (self : NumberText) : List Char := self.whole.chars ++ self.fractionChars

def signed (self : NumberText) : List Char :=
  if self.negative then '-' :: self.mantissa else self.mantissa

def text (self : NumberText) : String := String.ofList (self.signed ++ self.exponentChars)

def exponentValue (self : NumberText) : Int :=
  match self.exponent with
  | none => 0
  | some exponent => exponent.value

/-- The power of ten that the last digit shown counts. -/
def shownScale (self : NumberText) : Int := self.exponentValue - self.fractionDigits.length

/-- The number that the text denotes. -/
def value (self : NumberText) : ℚ :=
  decimalValue self.negative (digitsValue self.digits) self.shownScale

/-- The digits from the first on that is no zero. -/
def significant (self : NumberText) : List Char := self.digits.dropWhile (· == '0')

def trailingZeros (self : NumberText) : Nat :=
  (self.significant.reverse.takeWhile (· == '0')).length

/-- The scale of the normal form. -/
def canonicalScale (self : NumberText) : Int :=
  if self.significant = [] then 0 else self.shownScale + self.trailingZeros

end NumberText

/-- The range of an `i32`. -/
def InI32 (n : Int) : Prop := -2147483648 ≤ n ∧ n ≤ 2147483647

instance (n : Int) : Decidable (InI32 n) := inferInstanceAs (Decidable (_ ∧ _))

/-- The exponent and the scale of the normal form fit into an `i32`. -/
structure NumberText.CanonicalFits (number : NumberText) : Prop where
  exponent : InI32 number.exponentValue
  canonical : InI32 number.canonicalScale

/-- So do the length of the fraction and, where it counts, the scale of the digits as they are
shown. -/
structure NumberText.ShownFits (number : NumberText) : Prop extends number.CanonicalFits where
  fraction : InI32 number.fractionDigits.length
  shown : number.significant ≠ [] → InI32 number.shownScale

/-! ## Cutting the text -/

theorem isDigit_ne {c d : Char} (hc : c.isDigit = true) (hd : d.isDigit = false) : c ≠ d := by
  rintro rfl
  rw [hc] at hd
  cases hd

/-- A list is cut at the first element that is looked for. -/
theorem span_append {α : Type} {p : α → Bool} {l r : List α} (hl : ∀ a ∈ l, p a = true)
    (hr : ∀ a ∈ r.head?, p a = false) :
    (l ++ r).takeWhile p = l ∧ (l ++ r).dropWhile p = r := by
  have htake : r.takeWhile p = [] := by
    cases r with
    | nil => rfl
    | cons a r => rw [List.takeWhile_cons_of_neg (by rw [hr a rfl]; exact Bool.false_ne_true)]
  have hdrop : r.dropWhile p = r := by
    cases r with
    | nil => rfl
    | cons a r => rw [List.dropWhile_cons_of_neg (by rw [hr a rfl]; exact Bool.false_ne_true)]
  rw [List.takeWhile_append_of_pos hl, List.dropWhile_append_of_pos hl, htake, hdrop,
    List.append_nil]
  exact ⟨rfl, rfl⟩

theorem parseDigits_eq (negative : Bool) (digits : DigitText) :
    parseDigits negative digits.chars
      = toI32 (if negative then -(digitsValue digits.chars : Int)
          else digitsValue digits.chars) := by
  unfold parseDigits
  rw [if_pos ⟨digits.nonempty, List.all_eq_true.mpr digits.digits⟩]
  rfl

theorem parseI32_digits (digits : DigitText) :
    parseI32 digits.chars = parseDigits false digits.chars := by
  unfold parseI32
  split
  · rename_i heq
    exact absurd rfl (isDigit_ne (digits.digits '-' (heq ▸ List.mem_cons_self)) rfl)
  · rename_i heq
    exact absurd rfl (isDigit_ne (digits.digits '+' (heq ▸ List.mem_cons_self)) rfl)
  · rfl

/-- The exponent is parsed to its value. -/
theorem parseI32_exponent (exponent : ExponentText) :
    parseI32 exponent.chars = toI32 exponent.value := by
  obtain ⟨sign, digits⟩ := exponent
  cases sign with
  | none =>
      change parseI32 digits.chars = _
      rw [parseI32_digits, parseDigits_eq]
      rfl
  | some negative =>
      cases negative with
      | true => exact parseDigits_eq true digits
      | false => exact parseDigits_eq false digits

theorem toI32_eq {n : Int} (h : InI32 n) : toI32 n = some n := if_pos h

/-- The value of a canonical decimal. -/
def CanonicalDecimal.value (self : CanonicalDecimal) : ℚ :=
  decimalValue self.negative (digitsValue self.digits) self.scale

theorem CanonicalDecimal.eq_of_fields {a b : CanonicalDecimal} (hnegative : a.negative = b.negative)
    (hdigits : a.digits = b.digits) (hscale : a.scale = b.scale) : a = b := by
  obtain ⟨_, _, _⟩ := a
  obtain ⟨_, _, _⟩ := b
  cases hnegative
  cases hdigits
  cases hscale
  rfl

namespace NumberText

variable (number : NumberText)

theorem fractionDigits_isDigit : AllDigits number.fractionDigits := by
  unfold fractionDigits
  split
  · exact fun c hc => nomatch hc
  · rename_i fraction _
    exact fraction.digits

theorem digits_isDigit : AllDigits number.digits := by
  intro c hc
  rcases List.mem_append.mp hc with hwhole | hfraction
  · exact number.whole.digits c hwhole
  · exact number.fractionDigits_isDigit c hfraction

theorem digits_ne_nil : number.digits ≠ [] := List.append_ne_nil_of_left_ne_nil number.whole.nonempty _

/-- The digits and the point, up to the exponent. -/
theorem mem_mantissa {c : Char} (hc : c ∈ number.mantissa) : c.isDigit = true ∨ c = '.' := by
  unfold mantissa fractionChars at hc
  rcases List.mem_append.mp hc with hwhole | hfraction
  · exact .inl (number.whole.digits c hwhole)
  · split at hfraction
    · cases hfraction
    · rename_i fraction _
      rcases List.mem_cons.mp hfraction with rfl | hdigit
      · exact .inr rfl
      · exact .inl (fraction.digits c hdigit)

/-- The first character that is no sign is a digit. -/
theorem exists_mantissa : ∃ c cs, number.mantissa = c :: cs ∧ c.isDigit = true := by
  obtain ⟨c, cs, hwhole⟩ := List.exists_cons_of_ne_nil number.whole.nonempty
  refine ⟨c, cs ++ number.fractionChars, by rw [mantissa, hwhole]; rfl, ?_⟩
  exact number.whole.digits c (hwhole ▸ List.mem_cons_self)

theorem mem_signed {c : Char} (hc : c ∈ number.signed) :
    c.isDigit = true ∨ c = '.' ∨ c = '-' := by
  unfold signed at hc
  split at hc
  · rcases List.mem_cons.mp hc with rfl | hc
    · exact .inr (.inr rfl)
    · exact (number.mem_mantissa hc).imp_right .inl
  · exact (number.mem_mantissa hc).imp_right .inl

/-- The text is cut in front of the exponent. -/
theorem text_span :
    number.text.toList.takeWhile (fun c => !(c == 'e' || c == 'E')) = number.signed ∧
      number.text.toList.dropWhile (fun c => !(c == 'e' || c == 'E')) = number.exponentChars := by
  unfold text
  rw [String.toList_ofList]
  refine span_append ?_ ?_
  · intro c hc
    have hmark : c ≠ 'e' ∧ c ≠ 'E' := by
      rcases number.mem_signed hc with hdigit | rfl | rfl
      · exact ⟨isDigit_ne hdigit rfl, isDigit_ne hdigit rfl⟩
      · exact ⟨by decide, by decide⟩
      · exact ⟨by decide, by decide⟩
    simp [hmark]
  · intro c hc
    unfold exponentChars at hc
    split at hc
    · cases hc
    · cases hc
      rfl

/-- The mantissa is cut at the point. -/
theorem mantissa_dropWhile : number.mantissa.dropWhile (· != '.') = number.fractionChars := by
  refine (span_append ?_ ?_).2
  · intro c hc
    exact bne_iff_ne.mpr (isDigit_ne (number.whole.digits c hc) rfl)
  · intro c hc
    unfold fractionChars at hc
    split at hc
    · cases hc
    · cases hc
      rfl

/-- Without the point it is the digits. -/
theorem mantissa_filter : number.mantissa.filter (· != '.') = number.digits := by
  have hkept : ∀ {cs : List Char}, AllDigits cs → cs.filter (· != '.') = cs := by
    intro cs hcs
    exact List.filter_eq_self.mpr fun c hc => bne_iff_ne.mpr (isDigit_ne (hcs c hc) rfl)
  unfold mantissa digits
  rw [List.filter_append, hkept number.whole.digits]
  congr 1
  unfold fractionChars fractionDigits
  split
  · rfl
  · rename_i fraction _
    exact hkept fraction.digits

/-! ## The normal form -/

/-- The significant digits without the zeros at their end. -/
def keptDigits : List Char := (number.significant.reverse.dropWhile (· == '0')).reverse

/-- The normal form of the value. -/
def canonical : CanonicalDecimal :=
  if number.significant = [] then ⟨false, ['0'], 0⟩
  else ⟨number.negative, number.keptDigits, number.canonicalScale⟩

variable {number}

/-- The loop over the trailing zeros stays in range, since it counts up to the scale of the
normal form. -/
theorem dropTrailingZeros_eq {digits : List Char} {scale : Int} (hscale : InI32 scale)
    (hend : InI32 (scale + (digits.takeWhile (· == '0')).length)) :
    dropTrailingZeros digits scale = some ((digits.dropWhile (· == '0')).reverse,
      scale + (digits.takeWhile (· == '0')).length) := by
  induction digits generalizing scale with
  | nil =>
      unfold dropTrailingZeros
      simp
  | cons c digits ih =>
      by_cases hzero : c = '0'
      · subst hzero
        have htake : ('0' :: digits).takeWhile (· == '0')
            = '0' :: digits.takeWhile (· == '0') := List.takeWhile_cons_of_pos rfl
        have hdrop : ('0' :: digits).dropWhile (· == '0')
            = digits.dropWhile (· == '0') := List.dropWhile_cons_of_pos rfl
        rw [htake, List.length_cons] at hend ⊢
        have hnext : InI32 (scale + 1) := by
          unfold InI32 at hscale hend ⊢
          omega
        have hsum : scale + 1 + (digits.takeWhile (· == '0')).length
            = scale + ((digits.takeWhile (· == '0')).length + 1 : Nat) := by
          push_cast
          omega
        rw [hdrop, dropTrailingZeros, toI32_eq hnext, Option.bind_some,
          ih hnext (by rw [hsum]; exact hend), hsum]
      · have hne : ¬(c == '0') = true := by simpa using hzero
        have htake : (c :: digits).takeWhile (· == '0') = [] := List.takeWhile_cons_of_neg hne
        have hdrop : (c :: digits).dropWhile (· == '0') = c :: digits :=
          List.dropWhile_cons_of_neg hne
        rw [htake, hdrop, List.length_nil]
        unfold dropTrailingZeros
        split
        · rename_i heq
          exact absurd (List.cons.inj heq).1 hzero
        · simp

/-- A mantissa without its sign. -/
def unsigned : List Char → List Char
  | '-' :: rest => rest
  | '+' :: rest => rest
  | rest => rest

/-- What `canonical_decimal` does with the parts of the text. -/
def ofParts (negative : Bool) (mantissa exponent : List Char) : Option CanonicalDecimal := do
  let exponent ← match exponent with
    | [] => some 0
    | _ :: exponent => parseI32 exponent
  let fractionalDigits ← match mantissa.dropWhile (· != '.') with
    | [] => some 0
    | _ :: fraction => toI32 fraction.length
  let digits := mantissa.filter (· != '.')
  if digits = [] ∨ !digits.all Char.isDigit then none
  else match digits.dropWhile (· == '0') with
    | [] => some ⟨false, ['0'], 0⟩
    | digits => do
        let scale ← toI32 (exponent - fractionalDigits)
        let (digits, scale) ← dropTrailingZeros digits.reverse scale
        some ⟨negative, digits, scale⟩

theorem canonicalDecimal_eq (text : String) :
    canonicalDecimal text =
      ofParts ((text.toList.takeWhile (fun c => !(c == 'e' || c == 'E'))).head? == some '-')
        (unsigned (text.toList.takeWhile (fun c => !(c == 'e' || c == 'E'))))
        (text.toList.dropWhile (fun c => !(c == 'e' || c == 'E'))) := rfl

/-- What is read behind the exponent mark. -/
theorem exponentChars_cases (h : InI32 number.exponentValue) :
    (number.exponentChars = [] ∧ number.exponentValue = 0) ∨
      ∃ rest, number.exponentChars = 'e' :: rest ∧ parseI32 rest = some number.exponentValue := by
  unfold exponentChars
  unfold exponentValue at h ⊢
  rcases hexponent : number.exponent with _ | exponent
  · exact .inl ⟨rfl, rfl⟩
  · rw [hexponent] at h
    exact .inr ⟨exponent.chars, rfl, (parseI32_exponent exponent).trans (toI32_eq h)⟩

/-- What is counted behind the point. -/
theorem fractionChars_cases (h : InI32 number.fractionDigits.length) :
    (number.fractionChars = [] ∧ number.fractionDigits.length = 0) ∨
      ∃ rest, number.fractionChars = '.' :: rest ∧
        toI32 rest.length = some (number.fractionDigits.length : Int) := by
  unfold fractionChars
  unfold fractionDigits at h ⊢
  rcases hfraction : number.fraction with _ | fraction
  · exact .inl ⟨rfl, rfl⟩
  · rw [hfraction] at h
    exact .inr ⟨fraction.chars, rfl, toI32_eq h⟩

/-- The sign is taken off. -/
theorem signed_cut (number : NumberText) :
    (number.signed.head? == some '-') = number.negative ∧
      unsigned number.signed = number.mantissa := by
  obtain ⟨c, cs, hmantissa, hdigit⟩ := number.exists_mantissa
  unfold signed unsigned
  cases number.negative with
  | true => exact ⟨rfl, rfl⟩
  | false =>
      rw [if_neg Bool.false_ne_true, hmantissa]
      refine ⟨by simpa using isDigit_ne hdigit rfl, ?_⟩
      split
      · rename_i heq
        exact absurd (List.cons.inj heq).1 (isDigit_ne hdigit rfl)
      · rename_i heq
        exact absurd (List.cons.inj heq).1 (isDigit_ne hdigit rfl)
      · rfl

/-- What is left to do once the text is cut. -/
theorem canonicalDecimal_cut (hexponent : InI32 number.exponentValue)
    (hfraction : InI32 number.fractionDigits.length) :
    canonicalDecimal number.text = (match number.significant with
      | [] => some ⟨false, ['0'], 0⟩
      | digits => do
          let scale ← toI32 number.shownScale
          let (digits, scale) ← dropTrailingZeros digits.reverse scale
          some ⟨number.negative, digits, scale⟩) := by
  obtain ⟨hsigned, hexponentChars⟩ := number.text_span
  obtain ⟨hnegative, hunsigned⟩ := number.signed_cut
  have hall : ¬(number.digits = [] ∨ (!number.digits.all Char.isDigit) = true) := by
    rintro (hnil | hnot)
    · exact number.digits_ne_nil hnil
    · rw [List.all_eq_true.mpr number.digits_isDigit] at hnot
      cases hnot
  rw [canonicalDecimal_eq, hexponentChars, hsigned, hunsigned, hnegative]
  unfold ofParts
  dsimp only
  simp only [number.mantissa_dropWhile, number.mantissa_filter, if_neg hall]
  unfold shownScale significant
  rcases exponentChars_cases hexponent with ⟨he, hvalue⟩ | ⟨rest, he, hvalue⟩
  · rcases fractionChars_cases hfraction with ⟨hf, hlength⟩ | ⟨rest', hf, hlength⟩
    · rw [he, hf, hvalue, hlength]
      rfl
    · rw [he, hf, hvalue]
      dsimp only
      rw [hlength]
      rfl
  · rcases fractionChars_cases hfraction with ⟨hf, hlength⟩ | ⟨rest', hf, hlength⟩
    · rw [he, hf, hlength]
      dsimp only
      rw [hvalue]
      rfl
    · rw [he, hf]
      dsimp only
      rw [hvalue, hlength]
      rfl

/-- **What `canonical_decimal` answers.** -/
theorem canonicalDecimal_text (h : number.ShownFits) :
    canonicalDecimal number.text = some number.canonical := by
  rw [canonicalDecimal_cut h.exponent h.fraction]
  unfold canonical
  by_cases hzero : number.significant = []
  · rw [hzero, if_pos rfl]
  · have hcanonical := h.canonical
    unfold canonicalScale at hcanonical
    rw [if_neg hzero] at hcanonical
    have htrailing := dropTrailingZeros_eq (h.shown hzero) hcanonical
    rw [if_neg hzero]
    unfold keptDigits canonicalScale
    rw [if_neg hzero]
    split
    · rename_i hnil
      exact absurd hnil hzero
    · rw [toI32_eq (h.shown hzero), Option.bind_eq_bind, Option.bind_some, htrailing]
      rfl

/-- Where the scale of the digits shown is out of range there is no answer. -/
theorem canonicalDecimal_none (hexponent : InI32 number.exponentValue)
    (hfraction : InI32 number.fractionDigits.length) (hsome : number.significant ≠ [])
    (hshown : ¬InI32 number.shownScale) : canonicalDecimal number.text = none := by
  rw [canonicalDecimal_cut hexponent hfraction]
  have hout : toI32 number.shownScale = none := if_neg hshown
  split
  · rename_i hnil
    exact absurd hnil hsome
  · rw [hout]
    rfl

/-- The significant digits are those that are kept and the zeros behind them. -/
theorem significant_eq (number : NumberText) :
    number.significant = number.keptDigits ++ List.replicate number.trailingZeros '0' := by
  have hzeros : number.significant.reverse.takeWhile (· == '0')
      = List.replicate number.trailingZeros '0' := by
    rw [List.eq_replicate_iff]
    refine ⟨rfl, fun c hc => ?_⟩
    have hzero : (c == '0') = true := List.mem_takeWhile_imp (p := (· == '0')) hc
    exact eq_of_beq hzero
  have hall := congrArg List.reverse
    (List.takeWhile_append_dropWhile (p := (· == '0')) (l := number.significant.reverse))
  rw [List.reverse_append, List.reverse_reverse, hzeros, List.reverse_replicate] at hall
  exact hall.symm

theorem digitsValue_significant (number : NumberText) :
    digitsValue number.digits = digitsValue number.keptDigits * 10 ^ number.trailingZeros := by
  rw [← digitsValue_dropWhile]
  change digitsValue number.significant = _
  rw [number.significant_eq, digitsValue_append, digitsValue_zeros, Nat.add_zero,
    List.length_replicate]

/-- **The answer has the value of the text.** -/
theorem canonical_value (number : NumberText) : number.canonical.value = number.value := by
  unfold canonical value
  by_cases hzero : number.significant = []
  · have hdigits : digitsValue number.digits = 0 := by
      rw [← digitsValue_dropWhile]
      exact congrArg digitsValue hzero
    rw [if_pos hzero, hdigits, decimalValue_eq_zero.mpr rfl]
    exact decimalValue_eq_zero.mpr rfl
  · unfold CanonicalDecimal.value canonicalScale
    rw [if_neg hzero, if_neg hzero, number.digitsValue_significant, decimalValue_zeros]

/-- The first digit that is left is no zero. -/
theorem head?_dropWhile_ne (cs : List Char) : (cs.dropWhile (· == '0')).head? ≠ some '0' := by
  intro hhead
  have hnot := List.head?_dropWhile_not (· == '0') cs
  rw [hhead] at hnot
  cases hnot

/-- The answer is in normal form. -/
theorem canonical_isNormal (number : NumberText) :
    IsNormal number.canonical.negative number.canonical.digits number.canonical.scale := by
  unfold canonical
  by_cases hzero : number.significant = []
  · rw [if_pos hzero]
    exact .zero
  · rw [if_neg hzero]
    have hsplit := number.significant_eq
    have hfirst : number.significant.head? ≠ some '0' := head?_dropWhile_ne number.digits
    have hne : number.keptDigits ≠ [] := by
      intro hnil
      rw [hnil, List.nil_append] at hsplit
      cases htrailing : number.trailingZeros with
      | zero =>
          rw [htrailing] at hsplit
          exact hzero hsplit
      | succ n =>
          rw [hsplit, htrailing] at hfirst
          exact hfirst rfl
    refine .digits ?_ hne ?_ ?_
    · have hdigits : AllDigits number.significant :=
        number.digits_isDigit.subset (List.dropWhile_sublist _).subset
      rw [hsplit] at hdigits
      exact hdigits.subset (List.subset_append_left _ _)
    · rwa [hsplit, List.head?_append_of_ne_nil _ hne] at hfirst
    · change number.keptDigits.getLast? ≠ some '0'
      unfold keptDigits
      rw [List.getLast?_reverse]
      exact head?_dropWhile_ne _

end NumberText

/-! ## Equality -/

/-- **Exact equality.** Two number texts in range have the same canonical decimal exactly if
they denote the same rational number, and that is what the comparison of numbers in a schema
comes to. -/
theorem canonical_decimal_exact (a b : NumberText) (ha : a.ShownFits) (hb : b.ShownFits) :
    (canonicalDecimal a.text = canonicalDecimal b.text ↔ a.value = b.value) ∧
      (numericSchemaValuesEqual a.text b.text = true ↔ a.value = b.value) ∧
      Equivalence (fun left right => numericSchemaValuesEqual left right = true) := by
  have hcanonical : canonicalDecimal a.text = canonicalDecimal b.text ↔ a.value = b.value := by
    rw [NumberText.canonicalDecimal_text ha, NumberText.canonicalDecimal_text hb,
      ← a.canonical_value, ← b.canonical_value]
    constructor
    · intro h
      rw [Option.some.inj h]
    · intro h
      obtain ⟨hnegative, hdigits, hscale⟩ := a.canonical_isNormal.unique b.canonical_isNormal h
      exact congrArg some (CanonicalDecimal.eq_of_fields hnegative hdigits hscale)
  have hequal : ∀ left right : String, numericSchemaValuesEqual left right = true ↔
      canonicalDecimal left = canonicalDecimal right := fun _ _ => beq_iff_eq
  refine ⟨hcanonical, (hequal _ _).trans hcanonical, ?_, ?_, ?_⟩
  · exact fun text => (hequal _ _).mpr rfl
  · exact fun h => (hequal _ _).mpr ((hequal _ _).mp h).symm
  · exact fun h h' => (hequal _ _).mpr (((hequal _ _).mp h).trans ((hequal _ _).mp h'))

/-- `7`. -/
def seven : NumberText where
  negative := false
  whole := ⟨['7'], by decide, .of_all (by decide)⟩
  fraction := none
  exponent := none

/-- `70e-1`. -/
def seventyTenths : NumberText where
  negative := false
  whole := ⟨['7', '0'], by decide, .of_all (by decide)⟩
  fraction := none
  exponent := some ⟨some true, ⟨['1'], by decide, .of_all (by decide)⟩⟩

/-- Seven is seventy tenths. -/
theorem canonical_decimal_exact_seven :
    canonicalDecimal seven.text = canonicalDecimal seventyTenths.text ∧
      numericSchemaValuesEqual seven.text seventyTenths.text = true := by
  have hvalue : seven.value = seventyTenths.value := by decide +kernel
  obtain ⟨hcanonical, hequal, _⟩ := canonical_decimal_exact seven seventyTenths
    ⟨⟨by decide, by decide⟩, by decide, fun _ => by decide⟩
    ⟨⟨by decide, by decide⟩, by decide, fun _ => by decide⟩
  exact ⟨hcanonical.mpr hvalue, hequal.mpr hvalue⟩

/-- The digits of the least exponent that fits. -/
def leastExponent : ExponentText where
  sign := some true
  digits := ⟨['2', '1', '4', '7', '4', '8', '3', '6', '4', '8'], by decide, .of_all (by decide)⟩

/-- `1e-2147483648`. -/
def least : NumberText where
  negative := false
  whole := ⟨['1'], by decide, .of_all (by decide)⟩
  fraction := none
  exponent := some leastExponent

/-- `1.0e-2147483648`. -/
def leastPointZero : NumberText where
  negative := false
  whole := ⟨['1'], by decide, .of_all (by decide)⟩
  fraction := some ⟨['0'], by decide, .of_all (by decide)⟩
  exponent := some leastExponent

/-- Both have the scale of the exponent in normal form, and only one has an answer: the scale
of `1.0` as it is shown is one less. -/
theorem least_differs :
    ¬∀ a b : NumberText, a.CanonicalFits → b.CanonicalFits →
      (canonicalDecimal a.text = canonicalDecimal b.text ↔ a.value = b.value) := by
  intro h
  have hvalue : leastPointZero.value = least.value := by
    rw [← leastPointZero.canonical_value, ← least.canonical_value]
    rfl
  have hequal := (h leastPointZero least ⟨by decide, by decide⟩ ⟨by decide, by decide⟩).mpr hvalue
  have hnone : canonicalDecimal leastPointZero.text = none :=
    NumberText.canonicalDecimal_none (by decide) (by decide) (by decide) (by decide)
  have hsome : canonicalDecimal least.text = some least.canonical :=
    NumberText.canonicalDecimal_text ⟨⟨by decide, by decide⟩, by decide, fun _ => by decide⟩
  rw [hnone, hsome] at hequal
  cases hequal

end NativeSchema

end Vergerail
