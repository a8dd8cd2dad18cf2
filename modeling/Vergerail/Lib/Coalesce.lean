import Mathlib.Data.List.Basic

/-!
# Coalescing queues

A queue whose elements may carry a key, and in which a new element replaces the
waiting elements of its key: `push` takes those out and appends the new one.

What such a queue still shows of a history is the relation `Remains`: the history
itself, without the elements that are of no interest and without elements that a
later one of the same key has superseded.
-/

namespace Lib

namespace Coalesce

variable {α κ : Type} [DecidableEq κ] (key : α → Option κ)

/-- Two elements carry the same key. -/
def SameKey (a b : α) : Prop := ∃ k, key a = some k ∧ key b = some k

/-- The waiting elements that a new element leaves in place. -/
def retainOthers (x : α) (queue : List α) : List α :=
  match key x with
  | none => queue
  | some k => queue.filter (fun a => key a ≠ some k)

/-- Appends an element in place of those of its key. -/
def push (queue : List α) (x : α) : List α := retainOthers key x queue ++ [x]

variable {key}

theorem retainOthers_nil (x : α) : retainOthers key x [] = [] := by
  unfold retainOthers
  cases key x <;> rfl

theorem retainOthers_cons_of_same {x a : α} (h : SameKey key a x) (queue : List α) :
    retainOthers key x (a :: queue) = retainOthers key x queue := by
  obtain ⟨k, ha, hx⟩ := h
  unfold retainOthers
  rw [hx]
  exact List.filter_cons_of_neg (by simp [ha])

theorem retainOthers_cons_of_other {x a : α} (h : ¬ SameKey key a x) (queue : List α) :
    retainOthers key x (a :: queue) = a :: retainOthers key x queue := by
  unfold retainOthers
  cases hx : key x with
  | none => rfl
  | some k =>
      have hne : key a ≠ some k := fun ha => h ⟨k, ha, hx⟩
      exact List.filter_cons_of_pos (by simp [hne])

/-- Nothing is taken out where nothing carries the key. -/
theorem retainOthers_of_none {x : α} {queue : List α} (h : ∀ a ∈ queue, ¬ SameKey key a x) :
    retainOthers key x queue = queue := by
  induction queue with
  | nil => exact retainOthers_nil x
  | cons a queue ih =>
      rw [retainOthers_cons_of_other (h a List.mem_cons_self)]
      rw [ih fun b hb => h b (List.mem_cons_of_mem _ hb)]

/-! ## What remains of a history -/

/--
What remains of a history: every element of interest, in order, unless a later
element that may supersede it follows.
-/
inductive Remains (supersedes : α → α → Prop) (own : α → Prop) : List α → List α → Prop where
  | nil : Remains supersedes own [] []
  | keep {a : α} {all kept : List α} : own a → Remains supersedes own all kept →
      Remains supersedes own (a :: all) (a :: kept)
  | foreign {a : α} {all kept : List α} : ¬ own a → Remains supersedes own all kept →
      Remains supersedes own (a :: all) kept
  | superseded {a b : α} {all kept : List α} : b ∈ all → supersedes a b →
      Remains supersedes own all kept → Remains supersedes own (a :: all) kept

namespace Remains

variable {own : α → Prop} {supersedes : α → α → Prop}

/-- A new element of interest comes last. -/
theorem append_own {all kept : List α} (h : Remains supersedes own all kept) {x : α}
    (hx : own x) : Remains supersedes own (all ++ [x]) (kept ++ [x]) := by
  induction h with
  | nil => exact .keep hx .nil
  | keep ha _ ih => exact .keep ha ih
  | foreign ha _ ih => exact .foreign ha ih
  | superseded hb hab _ ih => exact .superseded (List.mem_append_left _ hb) hab ih

/-- A new element of no interest leaves no trace. -/
theorem append_foreign {all kept : List α} (h : Remains supersedes own all kept) {x : α}
    (hx : ¬ own x) : Remains supersedes own (all ++ [x]) kept := by
  induction h with
  | nil => exact .foreign hx .nil
  | keep ha _ ih => exact .keep ha ih
  | foreign ha _ ih => exact .foreign ha ih
  | superseded hb hab _ ih => exact .superseded (List.mem_append_left _ hb) hab ih

/--
**Pushing onto the waiting part of what remains.** The elements that a push of an element of
interest takes out of the waiting part `post` are superseded by it.
-/
theorem push {all kept : List α} (h : Remains supersedes own all kept) {x : α} (hx : own x)
    (hsup : ∀ a, SameKey key a x → supersedes a x) :
    ∀ pre post, kept = pre ++ post →
      Remains supersedes own (all ++ [x]) (pre ++ Coalesce.push key post x) := by
  unfold Coalesce.push
  induction h with
  | nil =>
      intro pre post hsplit
      obtain ⟨rfl, rfl⟩ := List.append_eq_nil_iff.mp hsplit.symm
      rw [retainOthers_nil]
      exact .keep hx .nil
  | @keep a all kept ha _ ih =>
      intro pre post hsplit
      cases pre with
      | cons p pre =>
          -- the element was handed on, so the push does not touch it
          obtain ⟨rfl, hrest⟩ := List.cons.inj hsplit
          exact .keep ha (ih pre post hrest)
      | nil =>
          obtain rfl : post = a :: kept := hsplit.symm
          have hrest := ih [] kept rfl
          by_cases hsame : SameKey key a x
          · rw [retainOthers_cons_of_same hsame]
            have hmem : x ∈ all ++ [x] := List.mem_append_right _ (List.mem_singleton.mpr rfl)
            exact .superseded hmem (hsup a hsame) hrest
          · rw [retainOthers_cons_of_other hsame]
            exact .keep ha hrest
  | foreign ha _ ih =>
      intro pre post hsplit
      exact .foreign ha (ih pre post hsplit)
  | superseded hb hab _ ih =>
      intro pre post hsplit
      exact .superseded (List.mem_append_left [x] hb) hab (ih pre post hsplit)

end Remains

end Coalesce

end Lib
