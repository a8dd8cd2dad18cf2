import Vergerail.Private.Redact
import Vergerail.Lib.LongestSuffix

/-!
# The ring keeps the longest end that fits

A ring that is not empty counts one separator for each line but the first. A line that is
removed from the front takes its separator with it, and the new line brings one if it finds
another line. The cost is worked out before the eviction, so it counts a separator that is
not needed when the eviction empties the ring; then there is nothing left to remove, and
the line fits on its own.
-/

namespace Vergerail

namespace StderrRing

open Lib

/-! ## The bytes of joined lines -/

/-- The length of the lines once they are joined. -/
def joinedBytes (lines : List String) : Nat := ("\n".intercalate lines).utf8ByteSize

@[simp] theorem joinedBytes_nil : joinedBytes [] = 0 := by
  unfold joinedBytes
  rw [String.intercalate_nil]
  rfl

@[simp] theorem joinedBytes_singleton (line : String) : joinedBytes [line] = line.utf8ByteSize := by
  unfold joinedBytes
  rw [String.intercalate_singleton]

theorem separator_utf8ByteSize : "\n".utf8ByteSize = 1 := rfl

theorem joinedBytes_cons {line : String} {lines : List String} (h : lines ≠ []) :
    joinedBytes (line :: lines) = line.utf8ByteSize + 1 + joinedBytes lines := by
  unfold joinedBytes
  rw [String.intercalate_cons_of_ne_nil h, String.utf8ByteSize_append,
    String.utf8ByteSize_append, separator_utf8ByteSize]

theorem joinedBytes_concat {lines : List String} (h : lines ≠ []) (line : String) :
    joinedBytes (lines ++ [line]) = joinedBytes lines + 1 + line.utf8ByteSize := by
  unfold joinedBytes
  rw [String.intercalate_append_of_ne_nil h (List.cons_ne_nil line []),
    String.intercalate_singleton, String.utf8ByteSize_append, String.utf8ByteSize_append,
    separator_utf8ByteSize]

theorem joinedBytes_le_concat (lines : List String) (line : String) :
    joinedBytes lines ≤ joinedBytes (lines ++ [line]) := by
  by_cases h : lines = []
  · rw [h, joinedBytes_nil]
    exact Nat.zero_le _
  · rw [joinedBytes_concat h]
    omega

/-- The lines fit into the capacity. -/
def Fits (capacity : Nat) (lines : List String) : Prop := joinedBytes lines ≤ capacity

theorem fits_of_concat {capacity : Nat} {line : String} (lines : List String)
    (h : Fits capacity (lines ++ [line])) : Fits capacity lines :=
  Nat.le_trans (joinedBytes_le_concat lines line) h

/-! ## One line -/

/-- The characters fit into the capacity. -/
def CharsFit (capacity : Nat) (cs : List Char) : Prop := utf8Bytes cs ≤ capacity

/-- What `push` keeps of a redacted line. -/
def cutLine (capacity : Nat) (line : String) : String :=
  if line.utf8ByteSize > capacity then utf8Suffix line capacity else line

theorem cutLine_spec (capacity : Nat) (line : String) :
    LongestSuffix (CharsFit capacity) (cutLine capacity line).toList line.toList := by
  unfold cutLine
  split
  · rename_i hlong
    unfold utf8Suffix
    rw [if_neg (by omega)]
    dsimp only
    rw [String.toList_ofList, dropBytes_boundaryAbove]
    have hbytes := utf8Bytes_toList line
    refine ⟨dropBytes_suffix _ _, ?_, ?_⟩
    · have := utf8Bytes_dropBytes_le line.toList (line.utf8ByteSize - capacity)
      unfold CharsFit
      omega
    · intro t ht hfits
      unfold CharsFit at hfits
      refine suffix_dropBytes ht ?_
      omega
  · rename_i hshort
    refine LongestSuffix.of_fits ?_
    unfold CharsFit
    rw [utf8Bytes_toList]
    omega

theorem cutLine_utf8ByteSize (capacity : Nat) (line : String) :
    (cutLine capacity line).utf8ByteSize ≤ capacity := by
  rw [← utf8Bytes_toList]
  exact (cutLine_spec capacity line).holds

/-! ## The eviction -/

variable {capacity cost bytes : Nat} {lines : List String}

/-- The eviction leaves an end of the lines and its length; it stops at the first at which the
cost is met, or with nothing. -/
theorem evict_spec (hbytes : bytes = joinedBytes lines) :
    (evict capacity cost bytes lines).2 <:+ lines ∧
      (evict capacity cost bytes lines).1 = joinedBytes (evict capacity cost bytes lines).2 ∧
      ((evict capacity cost bytes lines).2 = [] ∨
        joinedBytes (evict capacity cost bytes lines).2 + cost ≤ capacity) ∧
      ∀ t, t <:+ lines → joinedBytes t + cost ≤ capacity →
        t <:+ (evict capacity cost bytes lines).2 := by
  induction lines generalizing bytes with
  | nil => exact ⟨List.suffix_rfl, hbytes, .inl rfl, fun t ht _ => ht⟩
  | cons removed lines ih =>
      unfold evict
      split
      · rename_i hover
        dsimp only
        have hrest : (if (!lines.isEmpty) = true then bytes - removed.utf8ByteSize - 1
            else bytes - removed.utf8ByteSize) = joinedBytes lines := by
          cases lines with
          | nil =>
              rw [joinedBytes_singleton] at hbytes
              rw [if_neg (by simp), joinedBytes_nil]
              omega
          | cons next lines =>
              rw [joinedBytes_cons (List.cons_ne_nil next lines)] at hbytes
              rw [if_pos (by simp)]
              omega
        obtain ⟨hsuffix, hcounted, hstops, hlongest⟩ := ih hrest
        refine ⟨hsuffix.trans (List.suffix_cons removed lines), hcounted, hstops, ?_⟩
        intro t ht hfits
        rcases List.suffix_cons_iff.mp ht with rfl | ht
        · omega
        · exact hlongest t ht hfits
      · rename_i hroom
        refine ⟨List.suffix_rfl, hbytes, .inr ?_, fun t ht _ => ht⟩
        rw [← hbytes]
        omega

/-! ## One push -/

/-- The counter is the length of the joined lines, and they fit. -/
structure Counted (ring : StderrRing) : Prop where
  bytes : ring.bytes = joinedBytes ring.lines
  fits : Fits ring.capacity ring.lines

theorem counted_new (capacity : Nat) : (new capacity).Counted where
  bytes := joinedBytes_nil.symm
  fits := joinedBytes_nil.trans_le (Nat.zero_le capacity)

theorem push_capacity (self : StderrRing) (line : String) :
    (self.push line).capacity = self.capacity := by
  unfold push
  split <;> rfl

/-- What `push` does once the line is redacted and cut. -/
theorem push_eq {self : StderrRing} (hcapacity : 1 ≤ self.capacity) (line : String)
    {kept : String} (hkept : cutLine self.capacity (redactLine line) = kept)
    (hevict : evict self.capacity
      (kept.utf8ByteSize + if (!self.lines.isEmpty) = true then 1 else 0) self.bytes self.lines
        = (bytes, lines)) :
    self.push line = { self with
      bytes := (if (!lines.isEmpty) = true then bytes + 1 else bytes) + kept.utf8ByteSize
      lines := lines ++ [kept] } := by
  unfold cutLine at hkept
  unfold push
  rw [if_neg (by omega)]
  dsimp only
  rw [hkept, hevict]

/-- A push keeps the longest end of what was there and the new line. -/
theorem push_spec {self : StderrRing} (h : self.Counted) (hcapacity : 1 ≤ self.capacity)
    (line : String) :
    (self.push line).Counted ∧ LongestSuffix (Fits self.capacity) (self.push line).lines
      (self.lines ++ [cutLine self.capacity (redactLine line)]) := by
  have hcut := cutLine_utf8ByteSize self.capacity (redactLine line)
  generalize hkept : cutLine self.capacity (redactLine line) = kept at hcut ⊢
  -- the cost of the line where there is another one
  have hcost : ∀ {u : List String}, u <:+ self.lines → u ≠ [] →
      kept.utf8ByteSize + (if (!self.lines.isEmpty) = true then 1 else 0)
        = kept.utf8ByteSize + 1 := by
    intro u hu hne
    have hself : self.lines ≠ [] := by
      intro hempty
      rw [hempty] at hu
      exact hne (List.suffix_nil.mp hu)
    rw [if_pos (by simpa using hself)]
  rcases hevict : evict self.capacity
    (kept.utf8ByteSize + if (!self.lines.isEmpty) = true then 1 else 0) self.bytes self.lines
    with ⟨bytes, lines⟩
  have hspec := @evict_spec self.capacity
    (kept.utf8ByteSize + if (!self.lines.isEmpty) = true then 1 else 0) _ _ h.bytes
  rw [hevict] at hspec
  obtain ⟨hsuffix, hcounted, hstops, hlongest⟩ := hspec
  dsimp only at hsuffix hcounted hstops hlongest
  have hbytes : (if (!lines.isEmpty) = true then bytes + 1 else bytes) + kept.utf8ByteSize
      = joinedBytes (lines ++ [kept]) := by
    by_cases hnil : lines = []
    · subst hnil
      rw [hcounted, joinedBytes_nil, List.nil_append, joinedBytes_singleton]
      simp
    · rw [joinedBytes_concat hnil, ← hcounted, if_pos (by simpa using hnil)]
  have hfits : Fits self.capacity (lines ++ [kept]) := by
    unfold Fits
    by_cases hnil : lines = []
    · rw [hnil, List.nil_append, joinedBytes_singleton]
      exact hcut
    · have hroom := hstops.resolve_left hnil
      rw [hcost hsuffix hnil] at hroom
      rw [joinedBytes_concat hnil]
      omega
  rw [push_eq hcapacity line hkept hevict]
  refine ⟨⟨hbytes, hfits⟩, List.suffix_append_self_iff.mpr hsuffix, hfits, ?_⟩
  intro t ht htfits
  rcases List.suffix_concat_iff.mp ht with rfl | ⟨u, rfl, hu⟩
  · exact List.nil_suffix
  · refine List.suffix_append_self_iff.mpr ?_
    by_cases hnil : u = []
    · rw [hnil]
      exact List.nil_suffix
    · refine hlongest u hu ?_
      unfold Fits at htfits
      rw [joinedBytes_concat hnil] at htfits
      rw [hcost hu hnil]
      omega

/-! ## Every run of pushes -/

/-- What a ring of a capacity holds once some lines were pushed. -/
structure Holds (capacity : Nat) (pushed : List String) (ring : StderrRing) : Prop where
  /-- The counter is the length of the tail. -/
  counted : ring.bytes = (ring.tail.map String.utf8ByteSize).getD 0
  bounded : ring.bytes ≤ capacity
  /-- Every line is redacted, then cut to its longest end of whole characters; the longest end
  of these lines is kept. -/
  kept : ∃ cuts, List.Forall₂ (fun line cut : String =>
      LongestSuffix (CharsFit capacity) cut.toList (redactLine line).toList) pushed cuts ∧
    LongestSuffix (Fits capacity) ring.lines cuts

/-- The counter is what the tail has. -/
theorem Counted.tail {ring : StderrRing} (h : ring.Counted) :
    ring.bytes = (ring.tail.map String.utf8ByteSize).getD 0 := by
  rw [h.bytes]
  unfold StderrRing.tail
  by_cases hnil : ring.lines = []
  · rw [hnil, joinedBytes_nil]
    rfl
  · rw [if_pos (by simpa using hnil)]
    rfl

theorem pushAll_spec {self : StderrRing} (hcapacity : 1 ≤ self.capacity) (h : self.Counted)
    {cuts : List String} (hkept : LongestSuffix (Fits self.capacity) self.lines cuts)
    (pushed : List String) :
    (pushed.foldl push self).Counted ∧
      (pushed.foldl push self).capacity = self.capacity ∧
      LongestSuffix (Fits self.capacity) (pushed.foldl push self).lines
        (cuts ++ pushed.map (fun line => cutLine self.capacity (redactLine line))) := by
  induction pushed generalizing self cuts with
  | nil =>
      rw [List.map_nil, List.append_nil]
      exact ⟨h, rfl, hkept⟩
  | cons line pushed ih =>
      obtain ⟨hcounted, hlongest⟩ := push_spec h hcapacity line
      have hsame := push_capacity self line
      have hnext := hkept.concat fits_of_concat hlongest
      rw [← hsame] at hcapacity
      have hrest := ih hcapacity hcounted (hsame ▸ hnext)
      rw [hsame, List.append_assoc, List.singleton_append] at hrest
      exact hrest

end StderrRing

open StderrRing

/-- **The stderr ring.** Whatever is pushed to a ring that has a capacity, the counter is the
length of the tail and within the capacity, and the lines kept are the longest end of the
redacted and cut lines that fits. -/
theorem stderr_ring_keeps_longest_suffix (capacity : Nat) (h : 1 ≤ capacity)
    (pushed : List String) :
    StderrRing.Holds capacity pushed (pushed.foldl push (new capacity)) := by
  have hstart : Lib.LongestSuffix (Fits capacity) (new capacity).lines [] :=
    .of_fits (counted_new capacity).fits
  obtain ⟨hcounted, hcapacity, hkept⟩ := pushAll_spec h (counted_new capacity) hstart pushed
  refine ⟨hcounted.tail, ?_, _, ?_, hkept⟩
  · have hfits := hcounted.fits
    rw [hcapacity] at hfits
    exact hcounted.bytes.trans_le hfits
  · rw [List.nil_append, List.forall₂_map_right_iff, List.forall₂_same]
    exact fun line _ => cutLine_spec capacity (redactLine line)

/-- A capacity of 24 bytes and three lines, of which the second holds a secret. -/
theorem stderr_ring_keeps_longest_suffix_secret :
    StderrRing.Holds 24 ["first", "token=top-secret", "last"]
      (["first", "token=top-secret", "last"].foldl push (new 24)) :=
  stderr_ring_keeps_longest_suffix 24 (by decide) ["first", "token=top-secret", "last"]

end Vergerail
