import Mathlib.Data.List.Dedup
import Mathlib.Data.List.Induction
import Vergerail.Lib.Coalesce
import Vergerail.Lib.Upsert

/-!
# The latest state of every key

A history of keyed states, read in two ways: `latest` lists the last state of every
key in the order in which the keys were first seen, and `Lib.upsert` keeps such a list up
to date one state at a time, in place. They agree.

A coalescing queue keeps the last state of every key too, but in the order in which
the keys were last seen. What a list kept by `upsert` shows after such a queue is the
latest states again exactly if the two orders agree on the part that was queued.
-/

namespace Lib.Latest

/-! ## First and last occurrences -/

section Keys

variable {κ : Type} [DecidableEq κ]

theorem eraseDups_concat (ks : List κ) (k : κ) :
    (ks ++ [k]).eraseDups = if k ∈ ks then ks.eraseDups else ks.eraseDups ++ [k] := by
  rw [List.eraseDups_append]
  by_cases hk : k ∈ ks
  · have hnone : [k].removeAll ks = [] := by
      unfold List.removeAll
      exact List.filter_cons_of_neg (by simpa using hk)
    rw [if_pos hk, hnone, List.eraseDups_nil, List.append_nil]
  · have hself : [k].removeAll ks = [k] := by
      unfold List.removeAll
      exact List.filter_cons_of_pos (by simpa using hk)
    rw [if_neg hk, hself]
    rfl

theorem nodup_eraseDups (ks : List κ) : ks.eraseDups.Nodup := by
  induction ks using List.reverseRecOn with
  | nil => exact List.nodup_nil
  | append_singleton ks k ih =>
      rw [eraseDups_concat]
      by_cases hk : k ∈ ks
      · rw [if_pos hk]; exact ih
      · rw [if_neg hk]
        refine List.nodup_append.mpr ⟨ih, List.nodup_singleton k, ?_⟩
        intro a ha b hb heq
        rw [List.mem_singleton] at hb
        rw [heq, hb, List.mem_eraseDups] at ha
        exact hk ha

theorem eraseDups_of_nodup {ks : List κ} (h : ks.Nodup) : ks.eraseDups = ks := by
  induction ks with
  | nil => rfl
  | cons k ks ih =>
      obtain ⟨hk, hks⟩ := List.nodup_cons.mp h
      have hothers : ks.filter (fun b => !b == k) = ks := by
        refine List.filter_eq_self.mpr ?_
        intro b hb
        have hne : b ≠ k := fun heq => hk (heq ▸ hb)
        simpa using hne
      rw [List.eraseDups_cons, hothers, ih hks]

/-- A new last occurrence takes the place of the old one. -/
theorem dedup_concat (ks : List κ) (k : κ) :
    (ks ++ [k]).dedup = ks.dedup.filter (fun a => a ≠ k) ++ [k] := by
  induction ks with
  | nil => rfl
  | cons a ks ih =>
      rw [List.cons_append]
      by_cases hmem : a ∈ ks
      · rw [List.dedup_cons_of_mem (List.mem_append_left _ hmem), List.dedup_cons_of_mem hmem, ih]
      · rw [List.dedup_cons_of_notMem hmem]
        by_cases hak : a = k
        · rw [List.dedup_cons_of_mem (by simp [hak]), ih, List.filter_cons_of_neg (by simp [hak])]
        · rw [List.dedup_cons_of_notMem (by simp [hmem, hak]), ih,
            List.filter_cons_of_pos (by simp [hak])]
          rfl

/-- Keys in front of the same keys agree on first occurrences only if they do themselves. -/
theorem eraseDups_dedup_append (ks ls : List κ) :
    (ks.dedup ++ ls).eraseDups = (ks ++ ls).eraseDups ↔ ks.dedup = ks.eraseDups := by
  have hsame : ls.removeAll ks.dedup = ls.removeAll ks := by
    unfold List.removeAll
    refine List.filter_congr ?_
    intro a _
    simp [List.elem_eq_contains]
  rw [List.eraseDups_append, List.eraseDups_append, hsame,
    eraseDups_of_nodup (List.nodup_dedup ks)]
  exact List.append_left_inj _

end Keys

/-! ## The latest states -/

/-- Reading the key back from the state of every key. -/
theorem map_key_filterMap {α κ : Type} {key : α → κ} {f : κ → Option α} {ks : List κ}
    (h : ∀ k ∈ ks, ∃ a, f k = some a ∧ key a = k) : (ks.filterMap f).map key = ks := by
  induction ks with
  | nil => rfl
  | cons k ks ih =>
      obtain ⟨a, hf, hkey⟩ := h k List.mem_cons_self
      rw [List.filterMap_cons_some hf, List.map_cons, hkey,
        ih (fun k' hk' => h k' (List.mem_cons_of_mem _ hk'))]

variable {α κ : Type} [DecidableEq κ] (key : α → κ)

/-- The last state of a key. -/
def lastOf (xs : List α) (k : κ) : Option α := xs.reverse.find? (fun a => key a == k)

/-- The last state of every key, in the order in which the keys were first seen. -/
def latest (xs : List α) : List α := (xs.map key).eraseDups.filterMap (lastOf key xs)

/-- The states of the keys, once a state is written. -/
def written (f : κ → Option α) (x : α) (k : κ) : Option α :=
  if key x = k then some x else f k

variable {key}

theorem lastOf_append (xs ys : List α) (k : κ) :
    lastOf key (xs ++ ys) k = (lastOf key ys k).or (lastOf key xs k) := by
  unfold lastOf
  rw [List.reverse_append, List.find?_append]

theorem lastOf_concat (xs : List α) (x : α) :
    lastOf key (xs ++ [x]) = written key (lastOf key xs) x := by
  funext k
  rw [lastOf_append]
  unfold written
  by_cases hk : key x = k
  · rw [if_pos hk]
    have hself : lastOf key [x] k = some x := by
      unfold lastOf
      exact List.find?_cons_of_pos (by simpa using hk)
    rw [hself]; rfl
  · rw [if_neg hk]
    have hnone : lastOf key [x] k = none := by
      unfold lastOf
      exact List.find?_cons_of_neg (by simpa using hk)
    rw [hnone]; rfl

/-- The last state of a key that occurs has that key. -/
theorem lastOf_of_mem {xs : List α} {k : κ} (h : k ∈ xs.map key) :
    ∃ a, lastOf key xs k = some a ∧ key a = k := by
  obtain ⟨b, hb, hkey⟩ := List.mem_map.mp h
  cases hlast : lastOf key xs k with
  | none =>
      unfold lastOf at hlast
      have hnot := List.find?_eq_none.mp hlast b (List.mem_reverse.mpr hb)
      rw [hkey] at hnot
      exact absurd (beq_self_eq_true k) hnot
  | some a =>
      unfold lastOf at hlast
      have hfound := List.find?_some hlast
      exact ⟨a, rfl, by simpa using hfound⟩

theorem map_key_latest (xs : List α) : (latest key xs).map key = (xs.map key).eraseDups := by
  refine map_key_filterMap ?_
  intro k hk
  exact lastOf_of_mem (List.mem_eraseDups.mp hk)

/-! ## Keeping the latest states up to date -/

/-- Upserting into the states of some keys. -/
theorem upsert_filterMap {f : κ → Option α} {ks : List κ} (hnodup : ks.Nodup)
    (h : ∀ k ∈ ks, ∃ a, f k = some a ∧ key a = k) (x : α) :
    upsert key (ks.filterMap f) x
      = (if key x ∈ ks then ks else ks ++ [key x]).filterMap (written key f x) := by
  have hself : written key f x (key x) = some x := if_pos rfl
  induction ks with
  | nil =>
      rw [if_neg List.not_mem_nil, List.nil_append, List.filterMap_cons_some hself]
      rfl
  | cons k ks ih =>
      obtain ⟨a, hf, hkey⟩ := h k List.mem_cons_self
      obtain ⟨hk, hks⟩ := List.nodup_cons.mp hnodup
      rw [List.filterMap_cons_some hf, upsert_cons, hkey]
      by_cases hx : k = key x
      · -- the key is here, so it is nowhere behind
        have hrest : ks.filterMap (written key f x) = ks.filterMap f := by
          refine List.filterMap_congr ?_
          intro k' hk'
          have hne : key x ≠ k' := by
            rintro rfl
            exact hk (hx ▸ hk')
          exact if_neg hne
        subst hx
        rw [if_pos rfl, if_pos List.mem_cons_self, List.filterMap_cons_some hself, hrest]
      · have hother : written key f x k = some a := (if_neg (Ne.symm hx)).trans hf
        rw [if_neg hx, ih hks (fun k' hk' => h k' (List.mem_cons_of_mem _ hk'))]
        by_cases hmem : key x ∈ ks
        · rw [if_pos hmem, if_pos (List.mem_cons_of_mem _ hmem),
            List.filterMap_cons_some hother]
        · have hnot : key x ∉ k :: ks := by
            intro hin
            rcases List.mem_cons.mp hin with heq | hin
            · exact hx heq.symm
            · exact hmem hin
          rw [if_neg hmem, if_neg hnot, List.cons_append, List.filterMap_cons_some hother]

/-- **Upserting one by one keeps the latest states.** -/
theorem foldl_upsert (xs : List α) : xs.foldl (upsert key) [] = latest key xs := by
  induction xs using List.reverseRecOn with
  | nil => rfl
  | append_singleton xs x ih =>
      have hkeys : ∀ k ∈ (xs.map key).eraseDups, ∃ a, lastOf key xs k = some a ∧ key a = k := by
        intro k hk
        exact lastOf_of_mem (List.mem_eraseDups.mp hk)
      rw [List.foldl_append, List.foldl_cons, List.foldl_nil, ih]
      unfold latest
      rw [upsert_filterMap (nodup_eraseDups _) hkeys, lastOf_concat, List.map_append,
        List.map_cons, List.map_nil, eraseDups_concat]
      by_cases hx : key x ∈ xs.map key
      · rw [if_pos hx, if_pos (List.mem_eraseDups.mpr hx)]
      · rw [if_neg hx, if_neg (fun hin => hx (List.mem_eraseDups.mp hin))]

/-! ## After a coalescing queue -/

variable (key) in
/-- What a coalescing queue holds of a history. -/
def coalesced (xs : List α) : List α := xs.foldl (Coalesce.push (fun a => some (key a))) []

theorem coalesced_concat (xs : List α) (x : α) :
    coalesced key (xs ++ [x]) = (coalesced key xs).filter (fun a => key a ≠ key x) ++ [x] := by
  unfold coalesced
  rw [List.foldl_append, List.foldl_cons, List.foldl_nil]
  unfold Coalesce.push Coalesce.retainOthers
  simp

/-- The queue has every key once, in the order of the last occurrences. -/
theorem map_key_coalesced (xs : List α) : (coalesced key xs).map key = (xs.map key).dedup := by
  induction xs using List.reverseRecOn with
  | nil => rfl
  | append_singleton xs x ih =>
      have hfilter : ((coalesced key xs).filter (fun a => key a ≠ key x)).map key
          = ((coalesced key xs).map key).filter (fun k => k ≠ key x) := by
        rw [List.filter_map]; rfl
      rw [coalesced_concat, List.map_append, List.map_append, List.map_cons, List.map_nil,
        dedup_concat, hfilter, ih]

/-- The queue has the last state of every key. -/
theorem lastOf_coalesced (xs : List α) (k : κ) :
    lastOf key (coalesced key xs) k = lastOf key xs k := by
  induction xs using List.reverseRecOn with
  | nil => rfl
  | append_singleton xs x ih =>
      rw [coalesced_concat, lastOf_concat, lastOf_concat]
      unfold written
      rw [← ih]
      by_cases hk : key x = k
      · rw [if_pos hk, if_pos hk]
      · rw [if_neg hk, if_neg hk]
        unfold lastOf
        rw [← List.filter_reverse, List.find?_filter]
        congr 1
        funext a
        by_cases ha : key a = k
        · simp [ha, Ne.symm hk]
        · simp [ha]

/--
**When a coalescing queue in front does not show.** The latest states of a history
whose first part went through a coalescing queue are those of the history exactly if
the queued keys were last seen in the order in which they were first seen.
-/
theorem latest_coalesced_append (xs ys : List α) :
    latest key (coalesced key xs ++ ys) = latest key (xs ++ ys)
      ↔ (xs.map key).dedup = (xs.map key).eraseDups := by
  have hlast : lastOf key (coalesced key xs ++ ys) = lastOf key (xs ++ ys) := by
    funext k
    rw [lastOf_append, lastOf_append, lastOf_coalesced]
  rw [← eraseDups_dedup_append (xs.map key) (ys.map key)]
  constructor
  · intro hsame
    have hkeys := congrArg (List.map key) hsame
    rw [map_key_latest, map_key_latest, List.map_append, List.map_append,
      map_key_coalesced] at hkeys
    exact hkeys
  · intro hkeys
    unfold latest
    rw [hlast, List.map_append, List.map_append, map_key_coalesced, hkeys]

end Lib.Latest
