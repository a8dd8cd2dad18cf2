import Mathlib
import Vergerail.Lib.Upsert

/-!
# Metered collections

Items with a key and a size, and a running count of the sizes that is kept by
subtracting what goes and adding what comes. The count stays right because each
operation says what it takes away: `total` after an operation, plus the size of what
was replaced, is `total` before it, plus the size of what is new.
-/

namespace Lib

namespace Meter

variable {α κ : Type} [DecidableEq κ] (key : α → κ) (size : α → Nat)

/-- The sizes of all items together. -/
def total (l : List α) : Nat := (l.map size).sum

/-- The first item of a key. -/
def at? (l : List α) (k : κ) : Option α := l.find? (fun a => key a == k)

/-- The items of other keys. -/
def without (l : List α) (k : κ) : List α := l.filter (fun a => key a ≠ k)

variable {key size}

@[simp] theorem total_nil : total size [] = 0 := rfl

@[simp] theorem total_cons (a : α) (l : List α) :
    total size (a :: l) = size a + total size l := List.sum_cons

@[simp] theorem total_append (l l' : List α) :
    total size (l ++ l') = total size l + total size l' := by
  unfold total; rw [List.map_append, List.sum_append]

theorem at?_cons_self {a : α} {l : List α} {k : κ} (h : key a = k) :
    at? key (a :: l) k = some a :=
  List.find?_cons_of_pos (by simpa using h)

theorem at?_cons_of_ne {a : α} {l : List α} {k : κ} (h : key a ≠ k) :
    at? key (a :: l) k = at? key l k :=
  List.find?_cons_of_neg (by simpa using h)

theorem at?_mem {a : α} {l : List α} {k : κ} (h : at? key l k = some a) : a ∈ l ∧ key a = k :=
  ⟨List.mem_of_find?_eq_some h, by simpa using List.find?_some h⟩

theorem at?_eq_none {l : List α} {k : κ} : at? key l k = none ↔ k ∉ l.map key := by
  unfold at?
  rw [List.find?_eq_none, List.mem_map]
  constructor
  · rintro h ⟨a, ha, hk⟩
    exact h a ha (by simpa using hk)
  · intro h a ha hk
    exact h ⟨a, ha, by simpa using hk⟩

/-! ## Taking a key out -/

theorem mem_without {a : α} {l : List α} {k : κ} : a ∈ without key l k ↔ a ∈ l ∧ key a ≠ k := by
  unfold without; simp [List.mem_filter]

theorem nodup_without {l : List α} (h : (l.map key).Nodup) (k : κ) :
    ((without key l k).map key).Nodup :=
  h.sublist (List.filter_sublist.map key)

theorem without_of_not_mem {l : List α} {k : κ} (h : k ∉ l.map key) : without key l k = l := by
  refine List.filter_eq_self.mpr ?_
  intro a ha
  have hne : key a ≠ k := fun hk => h (hk ▸ List.mem_map_of_mem ha)
  simpa using hne

variable (size) in
/-- What goes with a key is the size of its item. -/
theorem total_without {l : List α} (h : (l.map key).Nodup) (k : κ) :
    total size (without key l k) + ((at? key l k).map size).getD 0 = total size l := by
  induction l with
  | nil => rfl
  | cons a l ih =>
      rw [List.map_cons, List.nodup_cons] at h
      by_cases hk : key a = k
      · have hrest : without key (a :: l) k = l := by
          unfold without
          rw [List.filter_cons_of_neg (by simpa using hk)]
          exact without_of_not_mem (hk ▸ h.1)
        rw [hrest, at?_cons_self hk, total_cons, Nat.add_comm]
        rfl
      · have hrest : without key (a :: l) k = a :: without key l k :=
          List.filter_cons_of_pos (by simpa using hk)
        rw [hrest, at?_cons_of_ne hk, total_cons, total_cons, ← ih h.2, Nat.add_assoc]

/-- A new item in place of those of its key. -/
theorem nodup_replace {l : List α} (h : (l.map key).Nodup) (a : α) :
    ((without key l (key a) ++ [a]).map key).Nodup := by
  rw [List.map_append, List.nodup_append]
  refine ⟨nodup_without h _, List.nodup_singleton _, ?_⟩
  intro k hk k' hk' heq
  obtain ⟨b, hb, rfl⟩ := List.mem_map.mp hk
  have hk'' : k' = key a := by simpa using hk'
  exact (mem_without.mp hb).2 (heq.trans hk'')

/-! ## Replacing in place -/

variable (key size) in
/-- What comes is the new item, what goes is the one it replaces. -/
theorem total_upsert (l : List α) (a : α) :
    total size (upsert key l a) + ((at? key l (key a)).map size).getD 0
      = total size l + size a := by
  induction l with
  | nil => simp [upsert_nil, at?]
  | cons b l ih =>
      by_cases h : key b = key a
      · rw [upsert_cons, if_pos h, at?_cons_self h, total_cons, total_cons]
        have : ((some b).map size).getD 0 = size b := rfl
        omega
      · rw [upsert_cons, if_neg h, at?_cons_of_ne h, total_cons, total_cons]
        omega

/-! ## A map from keys to sizes -/

/-- The sizes that a map holds together. -/
def sum (m : AList (fun _ : κ => Nat)) : Nat := total Sigma.snd m.entries

omit [DecidableEq κ] in
@[simp] theorem sum_empty : sum (∅ : AList (fun _ : κ => Nat)) = 0 := rfl

theorem total_kerase (k : κ) (l : List (Sigma (fun _ : κ => Nat))) :
    total Sigma.snd (l.kerase k) + (l.dlookup k).getD 0 = total Sigma.snd l := by
  induction l with
  | nil => rfl
  | cons s l ih =>
      obtain ⟨k', n⟩ := s
      by_cases h : k = k'
      · subst h
        have herase : List.kerase k (⟨k, n⟩ :: l) = l := List.kerase_cons_eq rfl
        rw [herase, List.dlookup_cons_eq, total_cons, Nat.add_comm]
        rfl
      · rw [List.kerase_cons_ne h, List.dlookup_cons_ne _ _ h, total_cons, total_cons,
          Nat.add_assoc, ih]

/-- Setting a key takes its old size away and adds the new one. -/
theorem sum_insert (m : AList (fun _ : κ => Nat)) (k : κ) (n : Nat) :
    sum (m.insert k n) + (m.lookup k).getD 0 = sum m + n := by
  have h := total_kerase k m.entries
  have hinsert : sum (m.insert k n) = n + total Sigma.snd (m.entries.kerase k) := by
    unfold sum
    rw [AList.entries_insert, total_cons]
  have hlookup : m.lookup k = m.entries.dlookup k := rfl
  unfold sum at hinsert ⊢
  rw [hinsert, hlookup]
  omega

/-- A map that holds exactly the sizes of some items with distinct keys sums to their total. -/
theorem sum_eq_total {m : AList (fun _ : κ => Nat)} {l : List α} (hl : (l.map key).Nodup)
    (hm : ∀ k n, m.lookup k = some n ↔ ∃ a ∈ l, key a = k ∧ size a = n) :
    sum m = total size l := by
  let entry : α → Sigma (fun _ : κ => Nat) := fun a => ⟨key a, size a⟩
  have hfst : (l.map entry).map Sigma.fst = l.map key := by
    rw [List.map_map]; rfl
  have hnodup : (l.map entry).Nodup := List.Nodup.of_map Sigma.fst (hfst ▸ hl)
  have hperm : m.entries.Perm (l.map entry) := by
    refine (List.perm_ext_iff_of_nodup m.nodupKeys.nodup hnodup).mpr ?_
    rintro ⟨k, n⟩
    rw [← AList.mem_lookup_iff, Option.mem_def, hm, List.mem_map]
    constructor
    · rintro ⟨a, ha, rfl, rfl⟩
      exact ⟨a, ha, rfl⟩
    · rintro ⟨a, ha, heq⟩
      obtain ⟨rfl, hn⟩ := Sigma.mk.inj_iff.mp heq
      exact ⟨a, ha, rfl, eq_of_heq hn⟩
  have hsize : (l.map entry).map Sigma.snd = l.map size := by
    rw [List.map_map]; rfl
  unfold sum total
  rw [(hperm.map Sigma.snd).sum_nat, hsize]

end Meter

end Lib
