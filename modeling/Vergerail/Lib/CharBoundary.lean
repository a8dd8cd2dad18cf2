import Mathlib

/-!
# Cutting a text at a character boundary

A text is its characters, a position in it counts bytes. Cutting at the last boundary up to
a position keeps the longest run of whole characters from the start that fits below it;
cutting at the first boundary from a position on keeps the longest such run at the end.
-/

namespace Lib

/-- The length of a text in bytes. -/
def utf8Bytes (cs : List Char) : Nat := (cs.map Char.utf8Size).sum

@[simp] theorem utf8Bytes_nil : utf8Bytes [] = 0 := rfl

@[simp] theorem utf8Bytes_cons (c : Char) (cs : List Char) :
    utf8Bytes (c :: cs) = c.utf8Size + utf8Bytes cs := by
  rw [utf8Bytes, List.map_cons, List.sum_cons]
  rfl

@[simp] theorem utf8Bytes_append (cs ds : List Char) :
    utf8Bytes (cs ++ ds) = utf8Bytes cs + utf8Bytes ds := by
  rw [utf8Bytes, List.map_append, List.sum_append]
  rfl

theorem utf8ByteSize_ofChars (cs : List Char) : (String.ofList cs).utf8ByteSize = utf8Bytes cs := by
  induction cs with
  | nil => rfl
  | cons c cs ih =>
      have hcons : String.ofList (c :: cs) = String.singleton c ++ String.ofList cs := by
        apply String.toList_injective
        simp
      rw [hcons, String.utf8ByteSize_append, String.utf8ByteSize_singleton, ih, utf8Bytes_cons]

theorem utf8Bytes_toList (s : String) : utf8Bytes s.toList = s.utf8ByteSize := by
  rw [← utf8ByteSize_ofChars, String.ofList_toList]

/-- Whether a position is between two characters, or at an end. -/
def isCharBoundary : List Char → Nat → Bool
  | _, 0 => true
  | [], _ + 1 => false
  | c :: cs, n + 1 => c.utf8Size ≤ n + 1 && isCharBoundary cs (n + 1 - c.utf8Size)

/-- The last boundary up to a position, searched downwards. -/
def boundaryBelow (cs : List Char) : Nat → Nat
  | 0 => 0
  | n + 1 => if isCharBoundary cs (n + 1) then n + 1 else boundaryBelow cs n

/-- The first boundary from a position on, searched upwards in so many rounds. -/
def boundaryAbove (cs : List Char) : Nat → Nat → Nat
  | 0, n => n
  | rounds + 1, n => if isCharBoundary cs n then n else boundaryAbove cs rounds (n + 1)

/-- The characters that end up to a position. -/
def takeBytes : List Char → Nat → List Char
  | [], _ => []
  | c :: cs, n => if c.utf8Size ≤ n then c :: takeBytes cs (n - c.utf8Size) else []

/-- The characters that start from a position on. -/
def dropBytes : List Char → Nat → List Char
  | [], _ => []
  | c :: cs, n => if n = 0 then c :: cs else dropBytes cs (n - c.utf8Size)

/-! ## From the start -/

theorem takeBytes_isPrefix (cs : List Char) (n : Nat) : takeBytes cs n <+: cs := by
  induction cs generalizing n with
  | nil => exact List.prefix_rfl
  | cons c cs ih =>
      unfold takeBytes
      split
      · exact List.cons_prefix_cons.mpr ⟨rfl, ih _⟩
      · exact List.nil_prefix

theorem utf8Bytes_takeBytes_le (cs : List Char) (n : Nat) : utf8Bytes (takeBytes cs n) ≤ n := by
  induction cs generalizing n with
  | nil => exact Nat.zero_le n
  | cons c cs ih =>
      unfold takeBytes
      split
      · rw [utf8Bytes_cons]
        have := ih (n - c.utf8Size)
        omega
      · exact Nat.zero_le n

/-- **The longest start that fits.** -/
theorem prefix_takeBytes {cs p : List Char} {n : Nat} (hp : p <+: cs) (hn : utf8Bytes p ≤ n) :
    p <+: takeBytes cs n := by
  induction cs generalizing p n with
  | nil => exact hp
  | cons c cs ih =>
      cases p with
      | nil => exact List.nil_prefix
      | cons d p =>
          obtain ⟨rfl, hrest⟩ := List.cons_prefix_cons.mp hp
          rw [utf8Bytes_cons] at hn
          rw [takeBytes, if_pos (by omega)]
          exact List.cons_prefix_cons.mpr ⟨rfl, ih hrest (by omega)⟩

theorem takeBytes_of_le {cs : List Char} {n : Nat} (h : utf8Bytes cs ≤ n) :
    takeBytes cs n = cs := by
  have hall : cs <+: takeBytes cs n := prefix_takeBytes List.prefix_rfl h
  exact (takeBytes_isPrefix cs n).eq_of_length_le hall.length_le

/-- What is cut off by taking too much is at most one character. -/
theorem lt_utf8Bytes_takeBytes {cs : List Char} {n : Nat} (h : n ≤ utf8Bytes cs) :
    n < utf8Bytes (takeBytes cs n) + 4 := by
  induction cs generalizing n with
  | nil =>
      rw [utf8Bytes_nil] at h
      omega
  | cons c cs ih =>
      have hsize := c.utf8Size_le_four
      rw [utf8Bytes_cons] at h
      unfold takeBytes
      split
      · rw [utf8Bytes_cons]
        have := ih (n := n - c.utf8Size) (by omega)
        omega
      · rw [utf8Bytes_nil]
        omega

/-- Where no boundary is, taking up to the position before is the same. -/
theorem takeBytes_pred {cs : List Char} {n : Nat} (h : isCharBoundary cs (n + 1) = false) :
    takeBytes cs (n + 1) = takeBytes cs n := by
  induction cs generalizing n with
  | nil => rfl
  | cons c cs ih =>
      have hpos := c.utf8Size_pos
      rw [isCharBoundary, Bool.and_eq_false_iff, decide_eq_false_iff_not] at h
      unfold takeBytes
      by_cases hfits : c.utf8Size ≤ n + 1
      · have hrest := h.resolve_left (not_not.mpr hfits)
        have hlt : c.utf8Size ≤ n := by
          by_contra hbig
          have hzero : n + 1 - c.utf8Size = 0 := by omega
          rw [hzero] at hrest
          cases cs <;> cases hrest
        have hsub : n + 1 - c.utf8Size = n - c.utf8Size + 1 := by omega
        rw [hsub] at hrest
        rw [if_pos hfits, if_pos hlt, hsub, ih hrest]
      · rw [if_neg hfits, if_neg (by omega)]

theorem takeBytes_boundaryBelow (cs : List Char) (n : Nat) :
    takeBytes cs (boundaryBelow cs n) = takeBytes cs n := by
  induction n with
  | zero => rfl
  | succ n ih =>
      unfold boundaryBelow
      split
      · rfl
      · rename_i hnot
        rw [ih, takeBytes_pred (Bool.eq_false_iff.mpr hnot)]

/-! ## From the end -/

theorem dropBytes_suffix (cs : List Char) (n : Nat) : dropBytes cs n <:+ cs := by
  induction cs generalizing n with
  | nil => exact List.suffix_rfl
  | cons c cs ih =>
      unfold dropBytes
      split
      · exact List.suffix_rfl
      · exact (ih _).trans (List.suffix_cons c cs)

theorem utf8Bytes_dropBytes_le (cs : List Char) (n : Nat) :
    utf8Bytes (dropBytes cs n) ≤ utf8Bytes cs - n := by
  induction cs generalizing n with
  | nil => exact Nat.zero_le _
  | cons c cs ih =>
      have hpos := c.utf8Size_pos
      unfold dropBytes
      split
      · omega
      · rw [utf8Bytes_cons]
        have := ih (n - c.utf8Size)
        omega

/-- **The longest end that fits.** -/
theorem suffix_dropBytes {cs s : List Char} {n : Nat} (hs : s <:+ cs)
    (hn : utf8Bytes s ≤ utf8Bytes cs - n) : s <:+ dropBytes cs n := by
  induction cs generalizing n with
  | nil => exact hs
  | cons c cs ih =>
      unfold dropBytes
      split
      · exact hs
      · rename_i hne
        have hpos := c.utf8Size_pos
        rw [utf8Bytes_cons] at hn
        rcases List.suffix_cons_iff.mp hs with rfl | hs
        · rw [utf8Bytes_cons] at hn
          omega
        · refine ih hs ?_
          by_cases hbig : c.utf8Size ≤ n
          · omega
          · have hle : utf8Bytes s ≤ utf8Bytes cs := by
              obtain ⟨front, rfl⟩ := hs
              rw [utf8Bytes_append]
              omega
            omega

/-- Where no boundary is, dropping up to the position behind is the same. -/
theorem dropBytes_succ {cs : List Char} {n : Nat} (h : isCharBoundary cs n = false) :
    dropBytes cs (n + 1) = dropBytes cs n := by
  induction cs generalizing n with
  | nil => rfl
  | cons c cs ih =>
      have hpos := c.utf8Size_pos
      cases n with
      | zero => cases h
      | succ n =>
          rw [isCharBoundary, Bool.and_eq_false_iff, decide_eq_false_iff_not] at h
          rw [dropBytes, if_neg (by omega), dropBytes, if_neg (by omega)]
          by_cases hfits : c.utf8Size ≤ n + 1
          · have hsub : n + 1 + 1 - c.utf8Size = n + 1 - c.utf8Size + 1 := by omega
            rw [hsub, ih (h.resolve_left (not_not.mpr hfits))]
          · have hzero : n + 1 + 1 - c.utf8Size = 0 := by omega
            have hzero' : n + 1 - c.utf8Size = 0 := by omega
            rw [hzero, hzero']

theorem dropBytes_boundaryAbove (cs : List Char) (rounds n : Nat) :
    dropBytes cs (boundaryAbove cs rounds n) = dropBytes cs n := by
  induction rounds generalizing n with
  | zero => rfl
  | succ rounds ih =>
      unfold boundaryAbove
      split
      · rfl
      · rename_i hnot
        rw [ih, dropBytes_succ (Bool.eq_false_iff.mpr hnot)]

end Lib
