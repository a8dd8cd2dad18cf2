import Mathlib.Data.List.Sort
import Vergerail.Lib.SortedMap

/-!
# Members in the order of their keys

Members whose keys differ are put in order by sorting the keys and looking each up. What comes
out is a reordering of the members, and the same for every reordering of them, so it stands
for the members up to their order.
-/

namespace Lib.KeyOrder

open SortedMap (keys)

variable {κ α : Type} [LinearOrder κ]

/-- The keys in order. -/
def sortedKeys (m : List (κ × α)) : List κ := (keys m).mergeSort (fun a b => decide (a ≤ b))

/-- The members in the order of their keys. -/
def ordered (missing : α) (m : List (κ × α)) : List (κ × α) :=
  (sortedKeys m).map (fun k => (k, (m.lookup k).getD missing))

variable {missing : α} {m m' : List (κ × α)}

theorem sortedKeys_perm (m : List (κ × α)) : (sortedKeys m).Perm (keys m) :=
  List.mergeSort_perm _ _

theorem sortedKeys_pairwise (m : List (κ × α)) : (sortedKeys m).Pairwise (· ≤ ·) :=
  List.pairwise_mergeSort' (· ≤ ·) (keys m)

/-- Only the keys matter, and not their order. -/
theorem sortedKeys_eq {β : Type} {n : List (κ × β)} (h : (keys m).Perm (keys n)) :
    sortedKeys m = sortedKeys n :=
  ((sortedKeys_perm m).trans (h.trans (sortedKeys_perm n).symm)).eq_of_pairwise'
    (sortedKeys_pairwise m) (sortedKeys_pairwise n)

/-- Nothing is lost. -/
theorem ordered_perm (missing : α) (hm : (keys m).Nodup) : (ordered missing m).Perm m :=
  SortedMap.map_lookup_perm hm ((sortedKeys_perm m).nodup_iff.mpr hm)
    (fun _ => (sortedKeys_perm m).mem_iff) missing

/-- A reordering answers every lookup the same. -/
theorem lookup_perm (hm : (keys m).Nodup) (h : m.Perm m') (k : κ) : m.lookup k = m'.lookup k := by
  have hm' : (keys m').Nodup := (h.map Prod.fst).nodup_iff.mp hm
  cases hlookup : m.lookup k with
  | some v =>
      have hmem := h.subset (SortedMap.mem_of_lookup hlookup)
      exact (SortedMap.lookup_of_nodup hm' hmem).symm
  | none =>
      cases hlookup' : m'.lookup k with
      | none => rfl
      | some v =>
          have hmem := h.symm.subset (SortedMap.mem_of_lookup hlookup')
          rw [SortedMap.lookup_of_nodup hm hmem] at hlookup
          cases hlookup

/-- **One order for all reorderings.** -/
theorem ordered_eq_of_perm (hm : (keys m).Nodup) (h : m.Perm m') :
    ordered missing m = ordered missing m' := by
  unfold ordered
  rw [sortedKeys_eq (h.map Prod.fst)]
  exact List.map_congr_left fun k _ => by rw [lookup_perm hm h]

/-- What is ordered the same is a reordering. -/
theorem perm_of_ordered_eq (hm : (keys m).Nodup) (hm' : (keys m').Nodup)
    (h : ordered missing m = ordered missing m') : m.Perm m' := by
  have hleft := ordered_perm missing hm
  rw [h] at hleft
  exact hleft.symm.trans (ordered_perm missing hm')

/-- The members in order are members. -/
theorem mem_of_mem_ordered (hm : (keys m).Nodup) {p : κ × α} (h : p ∈ ordered missing m) :
    p ∈ m := (ordered_perm missing hm).subset h

omit [LinearOrder κ] in
/-- A reordering of images is made of images of a reordering. -/
theorem exists_perm_of_map_perm {β : Type} {f : α → β} {l : List α} {r : List β}
    (h : r.Perm (l.map f)) : ∃ l' : List α, l'.Perm l ∧ r = l'.map f := by
  induction r generalizing l with
  | nil => exact ⟨[], by rw [List.map_eq_nil_iff.mp h.nil_eq.symm], rfl⟩
  | cons b r ih =>
      obtain ⟨a, ha, rfl⟩ := List.mem_map.mp (h.subset List.mem_cons_self)
      obtain ⟨l₁, l₂, rfl⟩ := List.append_of_mem ha
      have hmiddle : (l₁ ++ a :: l₂).Perm (a :: (l₁ ++ l₂)) := List.perm_middle
      have hrest : r.Perm ((l₁ ++ l₂).map f) := (h.trans (hmiddle.map f)).cons_inv
      obtain ⟨l', hl', rfl⟩ := ih hrest
      exact ⟨a :: l', (hl'.cons a).trans hmiddle.symm, rfl⟩

end Lib.KeyOrder
