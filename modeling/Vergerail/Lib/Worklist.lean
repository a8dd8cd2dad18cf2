import Mathlib.Data.List.Nodup
import Mathlib.Data.List.Perm.Subperm
import Mathlib.Logic.Relation

/-!
# Work lists over a tree

A tree is given by the children of every node. A traversal takes a node off its work list,
puts the children on it, and goes on until the list is empty. No node is marked: that no
node is visited twice is because a node has one parent only.
-/

namespace Lib

variable {α : Type} {children : α → List α} {root : α}

/-- Every node has one parent, and the root none. -/
structure IsTree (children : α → List α) (root : α) : Prop where
  parent : ∀ {a a' b}, b ∈ children a → b ∈ children a' → a = a'
  noParent : ∀ a, root ∉ children a
  distinct : ∀ a, (children a).Nodup

/-- **What holds during a traversal**, of the nodes visited and those on the work list. -/
structure Traversal (children : α → List α) (root : α) (visited pending : List α) : Prop where
  /-- No node is met twice. -/
  once : (pending ++ visited).Nodup
  rooted : root ∈ pending ++ visited
  /-- The children of a visited node are met. -/
  closed : ∀ a ∈ visited, ∀ b ∈ children a, b ∈ pending ++ visited
  /-- Only the root and children of visited nodes are met. -/
  origin : ∀ b ∈ pending ++ visited, b = root ∨ ∃ a ∈ visited, b ∈ children a

theorem traversal_start : Traversal children root [] [root] where
  once := List.nodup_singleton root
  rooted := List.mem_singleton_self root
  closed := fun _ h => by cases h
  origin := fun _ h => .inl (List.mem_singleton.mp h)

/-- Visiting the next node. The children may be put on the list in any order. -/
theorem Traversal.visit (htree : IsTree children root) {visited pending next : List α} {a : α}
    (h : Traversal children root visited (a :: pending)) (hnext : next.Perm (children a)) :
    Traversal children root (a :: visited) (next ++ pending) := by
  have hmoved : (a :: pending ++ visited).Perm (pending ++ a :: visited) :=
    List.perm_middle.symm
  have hmem : ∀ b, b ∈ next ++ pending ++ a :: visited ↔
      b ∈ children a ∨ b ∈ a :: pending ++ visited := by
    intro b
    rw [List.append_assoc, List.mem_append, hnext.mem_iff, hmoved.mem_iff]
  obtain ⟨hnew, _⟩ := List.nodup_cons.mp h.once
  constructor
  · rw [List.append_assoc]
    refine List.nodup_append.mpr ⟨hnext.nodup_iff.mpr (htree.distinct a),
      hmoved.nodup_iff.mp h.once, ?_⟩
    rintro b hb _ hmet rfl
    -- a child met before would be the root, or have another parent
    rcases h.origin b (hmoved.mem_iff.mpr hmet) with rfl | ⟨a', ha', hb'⟩
    · exact htree.noParent a (hnext.mem_iff.mp hb)
    · rw [← htree.parent (hnext.mem_iff.mp hb) hb'] at ha'
      exact hnew (List.mem_append_right _ ha')
  · exact (hmem root).mpr (.inr h.rooted)
  · intro b hb c hc
    rcases List.mem_cons.mp hb with rfl | hb
    · exact (hmem c).mpr (.inl hc)
    · exact (hmem c).mpr (.inr (h.closed b hb c hc))
  · intro b hb
    rcases (hmem b).mp hb with hchild | hmet
    · exact .inr ⟨a, List.mem_cons_self, hchild⟩
    · rcases h.origin b hmet with rfl | ⟨a', ha', hb'⟩
      · exact .inl rfl
      · exact .inr ⟨a', List.mem_cons_of_mem _ ha', hb'⟩

/-- A traversal that is over has visited every node below the root. -/
theorem Traversal.complete {visited : List α} (h : Traversal children root visited []) {b : α}
    (hb : Relation.ReflTransGen (fun a b => b ∈ children a) root b) : b ∈ visited := by
  induction hb with
  | refl => exact h.rooted
  | tail _ hchild ih => exact h.closed _ ih _ hchild

/-- Every node that is met is below the root. -/
theorem Traversal.reached {visited pending : List α}
    (h : Traversal children root visited pending) {P : α → Prop} (hroot : P root)
    (hchild : ∀ a b, P a → b ∈ children a → P b) (hvisited : ∀ a ∈ visited, P a) :
    ∀ b ∈ pending, P b := by
  intro b hb
  rcases h.origin b (List.mem_append_left _ hb) with rfl | ⟨a, ha, hb⟩
  · exact hroot
  · exact hchild a b (hvisited a ha) hb

/-- A traversal of a finite tree is short. -/
theorem Traversal.length_le {visited pending nodes : List α}
    (h : Traversal children root visited pending) (hnodes : ∀ a ∈ visited, a ∈ nodes) :
    visited.length ≤ nodes.length :=
  ((List.nodup_append.mp h.once).2.1.subperm hnodes).length_le

end Lib
