import Mathlib.Data.List.Nodup

/-!
# Replacing in place

A list of items with a key, written one item at a time: the first item of the key gives
its place to the new one, and an item of a new key goes behind the others. The keys keep
the order in which they were first written.
-/

namespace Lib

section Upsert

variable {α κ : Type} [DecidableEq κ] (key : α → κ)

/-- Replaces the first item of the new one's key in place, or appends the new one. -/
def upsert (l : List α) (a : α) : List α :=
  match l.findIdx? (fun b => key b == key a) with
  | some index => l.set index a
  | none => l ++ [a]

theorem upsert_nil (a : α) : upsert key [] a = [a] := rfl

theorem upsert_cons (b : α) (l : List α) (a : α) :
    upsert key (b :: l) a = if key b = key a then a :: l else b :: upsert key l a := by
  unfold upsert
  rw [List.findIdx?_cons]
  by_cases hk : key b = key a
  · rw [if_pos (by simpa using hk), if_pos hk]; rfl
  · rw [if_neg (by simpa using hk), if_neg hk]
    cases l.findIdx? (fun c => key c == key a) with
    | none => rfl
    | some index => rfl

variable {key} in
theorem mem_upsert {a b : α} {l : List α} (h : b ∈ upsert key l a) : b ∈ l ∨ b = a := by
  unfold upsert at h
  split at h
  · exact List.mem_or_eq_of_mem_set h
  · rcases List.mem_append.mp h with hb | hb
    · exact Or.inl hb
    · exact Or.inr (by simpa using hb)

theorem keys_upsert (l : List α) (a : α) :
    (upsert key l a).map key = if key a ∈ l.map key then l.map key else l.map key ++ [key a] := by
  induction l with
  | nil => rfl
  | cons b l ih =>
      rw [upsert_cons]
      by_cases h : key b = key a
      · rw [if_pos h, if_pos (by simp [h]), List.map_cons, List.map_cons, h]
      · have hmem : key a ∈ (b :: l).map key ↔ key a ∈ l.map key := by
          rw [List.map_cons, List.mem_cons]
          exact or_iff_right (Ne.symm h)
        rw [if_neg h, List.map_cons, ih]
        by_cases hin : key a ∈ l.map key
        · rw [if_pos hin, if_pos (hmem.mpr hin), List.map_cons]
        · rw [if_neg hin, if_neg (fun hc => hin (hmem.mp hc)), List.map_cons, List.cons_append]

variable {key} in
theorem nodup_upsert {l : List α} (h : (l.map key).Nodup) (a : α) :
    ((upsert key l a).map key).Nodup := by
  rw [keys_upsert]
  split
  · exact h
  · rename_i hnew
    rw [List.nodup_append]
    refine ⟨h, List.nodup_singleton _, ?_⟩
    intro k hk k' hk' heq
    have hk'' : k' = key a := by simpa using hk'
    exact hnew (hk'' ▸ heq ▸ hk)

theorem length_upsert (l : List α) (a : α) :
    (upsert key l a).length = if key a ∈ l.map key then l.length else l.length + 1 := by
  have h := congrArg List.length (keys_upsert key l a)
  rw [List.length_map] at h
  rw [h]
  split <;> simp

end Upsert

end Lib
