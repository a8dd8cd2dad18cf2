import Mathlib.Algebra.BigOperators.Group.List.Basic
import Mathlib.Algebra.Order.Ring.Defs
import Mathlib.Data.List.Nodup
import Mathlib.Data.List.Perm.Subperm
import Mathlib.Tactic.Linarith

/-!
# Parent pointers

A forest as a function from an element to its parent. The lineage of an element lists
its ancestors up to one without a parent; an element on a cycle has none. Climbing with
a step counter decides whether a lineage exists and is short enough, and what is known
of every element and its parent adds up along a lineage.
-/

namespace Lib

variable {α : Type} (parent : α → Option α)

/-- The ancestors of an element, nearest first, up to one that has no parent. -/
inductive Lineage : α → List α → Prop where
  | root {a : α} (h : parent a = none) : Lineage a []
  | child {a p : α} {l : List α} (h : parent a = some p) (rest : Lineage p l) :
      Lineage a (p :: l)

/-- Follow the parents from an element, taking at most `n` elements. -/
def climbs : Nat → Option α → Bool
  | _, none => true
  | 0, some _ => false
  | n + 1, some a => climbs n (parent a)

namespace Lineage

variable {parent} {a b : α} {l : List α}

theorem unique {l' : List α} (h : Lineage parent a l) (h' : Lineage parent a l') :
    l = l' := by
  induction h generalizing l' with
  | root hn =>
      cases h' with
      | root _ => rfl
      | child hp _ => rw [hn] at hp; cases hp
  | child hp _ ih =>
      cases h' with
      | root hn => rw [hn] at hp; cases hp
      | child hp' rest' =>
          rw [hp] at hp'
          cases hp'
          rw [ih rest']

/-- An ancestor has a lineage of its own, and a shorter one. -/
theorem of_mem (h : Lineage parent a l) (hb : b ∈ l) :
    ∃ l', Lineage parent b l' ∧ l'.length < l.length ∧ l' ⊆ l := by
  induction h with
  | root _ => cases hb
  | @child a p l _ rest ih =>
      rcases List.mem_cons.mp hb with rfl | hb
      · exact ⟨l, rest, Nat.lt_succ_self _, List.subset_cons_self _ _⟩
      · obtain ⟨l', hl', hlen, hsub⟩ := ih hb
        exact ⟨l', hl', Nat.lt_succ_of_lt hlen, fun x hx => List.mem_cons_of_mem _ (hsub hx)⟩

/-- **No element is its own ancestor.** -/
theorem not_mem (h : Lineage parent a l) : a ∉ l := by
  intro ha
  obtain ⟨l', hl', hlen, _⟩ := h.of_mem ha
  rw [h.unique hl'] at hlen
  exact Nat.lt_irrefl _ hlen

theorem nodup (h : Lineage parent a l) : (a :: l).Nodup := by
  induction h with
  | root _ => exact List.nodup_singleton _
  | child hp rest ih => exact List.nodup_cons.mpr ⟨(Lineage.child hp rest).not_mem, ih⟩

/-- What holds of an element and passes to parents holds along the lineage. -/
theorem forall_mem {P : α → Prop} (h : Lineage parent a l) (ha : P a)
    (hstep : ∀ b p, P b → parent b = some p → P p) : ∀ b ∈ a :: l, P b := by
  induction h with
  | root _ => intro b hb; rw [List.mem_singleton.mp hb]; exact ha
  | child hp _ ih =>
      intro b hb
      rcases List.mem_cons.mp hb with rfl | hb
      · exact ha
      · exact ih (hstep _ _ ha hp) b hb

/-- In a finite set closed under parents a lineage is shorter than the set. -/
theorem length_lt {s : List α} (h : Lineage parent a l) (ha : a ∈ s)
    (hs : ∀ b p, b ∈ s → parent b = some p → p ∈ s) : l.length < s.length := by
  have hsub : (a :: l) ⊆ s := h.forall_mem ha hs
  exact (List.subperm_of_subset h.nodup hsub).length_le

/-- The last element of a lineage has no parent. -/
theorem exists_last (h : Lineage parent a l) :
    ∃ r, (a :: l).getLast? = some r ∧ parent r = none := by
  induction h with
  | @root a hn => exact ⟨a, rfl, hn⟩
  | child _ _ ih =>
      obtain ⟨r, hr, hn⟩ := ih
      exact ⟨r, by rw [List.getLast?_cons_cons]; exact hr, hn⟩

/-- **Boxes inside boxes.** Where every element lies inside its parent's extent, its
offset added to those of all its ancestors keeps it inside the extent of the last. -/
theorem within {β : Type} [CommRing β] [LinearOrder β] [IsStrictOrderedRing β]
    {offset size : α → β} {r : α} (h : Lineage parent a l)
    (hfit : ∀ b p, parent b = some p → 0 ≤ offset b ∧ offset b + size b ≤ size p)
    (hr : (a :: l).getLast? = some r) (hzero : offset r = 0) :
    0 ≤ offset a + (l.map offset).sum ∧
      offset a + (l.map offset).sum + size a ≤ size r := by
  induction h with
  | root _ =>
      rw [List.getLast?_singleton] at hr
      cases hr
      simp [hzero]
  | @child a p l hp _ ih =>
      rw [List.getLast?_cons_cons] at hr
      obtain ⟨hlow, hhigh⟩ := ih hr
      obtain ⟨hoff, hsize⟩ := hfit a p hp
      rw [List.map_cons, List.sum_cons]
      constructor <;> linarith

end Lineage

/-- **The step counter decides.** Climbing ends within `n` elements exactly if there is
a lineage, and the element and its ancestors are at most `n`. -/
theorem climbs_iff {n : Nat} {a : α} :
    climbs parent n (some a) = true ↔ ∃ l, Lineage parent a l ∧ l.length < n := by
  induction n generalizing a with
  | zero =>
      constructor
      · intro h; cases h
      · rintro ⟨_, _, h⟩; exact absurd h (Nat.not_lt_zero _)
  | succ n ih =>
      rw [climbs]
      cases hp : parent a with
      | none =>
          constructor
          · intro _; exact ⟨[], .root hp, Nat.succ_pos n⟩
          · intro _; cases n <;> rfl
      | some p =>
          rw [ih]
          constructor
          · rintro ⟨l, hl, hlen⟩
            exact ⟨p :: l, .child hp hl, Nat.succ_lt_succ hlen⟩
          · rintro ⟨_, hl, hlen⟩
            cases hl with
            | root hn => rw [hp] at hn; cases hn
            | child hp' rest =>
                rw [hp] at hp'
                cases hp'
                exact ⟨_, rest, Nat.lt_of_succ_lt_succ hlen⟩

end Lib
