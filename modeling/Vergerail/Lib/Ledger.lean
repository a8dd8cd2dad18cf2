import Mathlib

/-!
# Ledgers

A finite map from keys to amounts, and its total. An entry that is replaced changes
the total by the difference, and a ledger that another one agrees with wherever it has
an entry has the smaller total.
-/

namespace Lib.Ledger

variable {κ : Type}

/-- The sum of all amounts. -/
def total (m : AList (fun _ : κ => Nat)) : Nat := (m.entries.map Sigma.snd).sum

@[simp] theorem total_empty : total (∅ : AList (fun _ : κ => Nat)) = 0 := rfl

variable [DecidableEq κ]

/-- The amount of a key, zero without an entry. -/
def amount (m : AList (fun _ : κ => Nat)) (k : κ) : Nat := (m.lookup k).getD 0

/-- Every entry of the small ledger is an entry of the large one. -/
def Within (small large : AList (fun _ : κ => Nat)) : Prop :=
  ∀ k n, small.lookup k = some n → large.lookup k = some n

theorem within_empty (m : AList (fun _ : κ => Nat)) : Within ∅ m := by
  intro k n hk
  rw [AList.lookup_empty] at hk; cases hk

/-- Taking an entry out takes its amount out of the total. -/
theorem total_erase (m : AList (fun _ : κ => Nat)) (k : κ) :
    total (m.erase k) + amount m k = total m := by
  have herase : total (m.erase k) = ((List.kerase k m.entries).map Sigma.snd).sum := rfl
  by_cases hk : k ∈ m
  · obtain ⟨n, front, back, _, hentries, hrest⟩ := List.exists_of_kerase hk
    have hlookup : m.lookup k = some n := by
      refine AList.mem_lookup_iff.mpr ?_
      rw [hentries]
      exact List.mem_append_right _ List.mem_cons_self
    rw [herase, hrest]
    unfold amount total
    rw [hlookup, hentries, List.map_append, List.map_append, List.sum_append, List.sum_append,
      List.map_cons, List.sum_cons, Option.getD_some]
    dsimp only
    omega
  · rw [herase, List.kerase_of_notMem_keys hk]
    unfold amount
    rw [AList.lookup_eq_none.mpr hk]
    rfl

/-- An entry that is written replaces the amount the key had. -/
theorem total_insert (m : AList (fun _ : κ => Nat)) (k : κ) (n : Nat) :
    total (m.insert k n) + amount m k = total m + n := by
  have hinsert : total (m.insert k n) = n + total (m.erase k) := by
    unfold total
    rw [AList.entries_insert, List.map_cons, List.sum_cons]
    rfl
  have herase := total_erase m k
  omega

theorem amount_le_total (m : AList (fun _ : κ => Nat)) (k : κ) : amount m k ≤ total m := by
  have herase := total_erase m k
  omega

section Within

variable {small large : AList (fun _ : κ => Nat)}

/-- Both ledgers write the same entry. -/
theorem Within.insert (h : Within small large) (k : κ) (n : Nat) :
    Within (small.insert k n) (large.insert k n) := by
  intro k' n' hk'
  by_cases heq : k' = k
  · subst heq
    rw [AList.lookup_insert] at hk' ⊢
    exact hk'
  · rw [AList.lookup_insert_ne heq] at hk' ⊢
    exact h k' n' hk'

/-- The large ledger writes an entry the small one does not have. -/
theorem Within.insert_right (h : Within small large) {k : κ} (hk : k ∉ small) (n : Nat) :
    Within small (large.insert k n) := by
  intro k' n' hk'
  have hne : k' ≠ k := by
    rintro rfl
    rw [AList.lookup_eq_none.mpr hk] at hk'
    cases hk'
  rw [AList.lookup_insert_ne hne]
  exact h k' n' hk'

/-- **A ledger within another one has the smaller total.** -/
theorem Within.total_le (h : Within small large) : total small ≤ total large := by
  induction small using AList.insertRec generalizing large with
  | H0 => exact Nat.zero_le _
  | IH k n rest hfresh ih =>
      have hentry : amount large k = n := by
        unfold amount
        rw [h k n (AList.lookup_insert rest)]
        rfl
      have hrest : Within rest (large.erase k) := by
        intro k' n' hk'
        have hne : k' ≠ k := by
          rintro rfl
          rw [AList.lookup_eq_none.mpr hfresh] at hk'
          cases hk'
        rw [AList.lookup_erase_ne hne]
        refine h k' n' ?_
        rw [AList.lookup_insert_ne hne]
        exact hk'
      have hle := ih hrest
      have hnew := total_insert rest k n
      have hold := total_erase large k
      have hnone : amount rest k = 0 := by
        unfold amount
        rw [AList.lookup_eq_none.mpr hfresh]; rfl
      omega

end Within

end Lib.Ledger
