import Mathlib.Logic.Relation

/-!
# Labelled machines

A deterministic labelled machine, the states it reaches when every step meets a
guard, and the induction that turns a step lemma into a run lemma. Interleaving
is in the labels: a run is a list of labels in the order in which the parties'
atomic steps happened.
-/

namespace Lib

/-- A machine: where it starts and what each label does. -/
structure Machine (σ ι : Type) where
  /-- The initial state. -/
  init : σ
  /-- One atomic step. -/
  step : σ → ι → σ

namespace Machine

variable {σ ι : Type} (m : Machine σ ι)

/-- One step whose label meets the guard in the state before it. -/
def Next (guard : σ → ι → Prop) (s t : σ) : Prop := ∃ i, guard s i ∧ t = m.step s i

/-- The states of all runs whose steps all meet the guard. -/
def Reachable (guard : σ → ι → Prop) (s : σ) : Prop :=
  Relation.ReflTransGen (m.Next guard) m.init s

/-- No guard: every label may happen in every state. -/
def Free : σ → ι → Prop := fun _ _ => True

/-- Runs a list of labels from a state. -/
def runFrom (s : σ) (labels : List ι) : σ := labels.foldl m.step s

/-- Runs a list of labels from the initial state. -/
def run (labels : List ι) : σ := m.runFrom m.init labels

@[simp] theorem runFrom_nil (s : σ) : m.runFrom s [] = s := rfl

@[simp] theorem runFrom_cons (s : σ) (i : ι) (is : List ι) :
    m.runFrom s (i :: is) = m.runFrom (m.step s i) is := rfl

@[simp] theorem runFrom_append (s : σ) (is js : List ι) :
    m.runFrom s (is ++ js) = m.runFrom (m.runFrom s is) js := List.foldl_append

variable {m} {guard guard' : σ → ι → Prop}

theorem reachable_init : m.Reachable guard m.init := Relation.ReflTransGen.refl

theorem Reachable.step {s : σ} {i : ι} (h : m.Reachable guard s) (hg : guard s i) :
    m.Reachable guard (m.step s i) :=
  Relation.ReflTransGen.tail h ⟨i, hg, rfl⟩

/--
**From one step to every run.** A property of the initial state that every
guarded step from a reachable state preserves holds in every reachable state.
-/
theorem Reachable.invariant {P : σ → Prop} (hinit : P m.init)
    (hstep : ∀ s i, m.Reachable guard s → P s → guard s i → P (m.step s i))
    {s : σ} (h : m.Reachable guard s) : P s := by
  induction h with
  | refl => exact hinit
  | tail hr hs ih =>
      obtain ⟨i, hg, rfl⟩ := hs
      exact hstep _ i hr ih hg

/-- A weaker guard reaches at least as much. -/
theorem Reachable.mono (hw : ∀ s i, guard s i → guard' s i) {s : σ}
    (h : m.Reachable guard s) : m.Reachable guard' s := by
  refine h.invariant reachable_init ?_
  intro s i _ hs hg
  exact hs.step (hw s i hg)

/-- Running labels that all meet the guard stays within reach. -/
theorem Reachable.runFrom {s : σ} (h : m.Reachable guard s) {labels : List ι}
    (hg : ∀ pre i post, labels = pre ++ i :: post → guard (m.runFrom s pre) i) :
    m.Reachable guard (m.runFrom s labels) := by
  induction labels generalizing s with
  | nil => exact h
  | cons i is ih =>
      refine ih (h.step (hg [] i is rfl)) ?_
      intro pre j post hsplit
      exact hg (i :: pre) j post (by rw [hsplit]; rfl)

/-- Without a guard every list of labels is a run. -/
theorem reachable_run (labels : List ι) : m.Reachable Free (m.run labels) :=
  reachable_init.runFrom (fun _ _ _ _ => trivial)

/-! ## Taking labels out of a run -/

section Purge

variable (m)

/-- Every label meets the guard in the state in which it happens. -/
def Respects (guard : σ → ι → Prop) : σ → List ι → Prop
  | _, [] => True
  | s, i :: is => guard s i ∧ Respects guard (m.step s i) is

/-- The labels that remain when those are taken out that `drop` picks in the state in
which they happen. -/
def purge (drop : σ → ι → Bool) : σ → List ι → List ι
  | _, [] => []
  | s, i :: is =>
    if drop s i then purge drop (m.step s i) is else i :: purge drop (m.step s i) is

end Purge

/-- A run whose labels all meet the guard stays within reach. -/
theorem Reachable.respects {s : σ} (h : m.Reachable guard s) {labels : List ι}
    (hg : m.Respects guard s labels) : m.Reachable guard (m.runFrom s labels) := by
  induction labels generalizing s with
  | nil => exact h
  | cons i is ih => exact ih (h.step hg.1) hg.2

theorem Respects.of_append {s : σ} {is js : List ι} (h : m.Respects guard s (is ++ js)) :
    m.Respects guard (m.runFrom s is) js := by
  induction is generalizing s with
  | nil => exact h
  | cons i is ih => exact ih h.2

/-- Two guards that an invariant makes equivalent are met by the same runs. -/
theorem respects_congr {P : σ → Prop}
    (h : ∀ s i, P s → (guard s i ↔ guard' s i) ∧ P (m.step s i)) {s : σ} (hs : P s)
    (labels : List ι) : m.Respects guard s labels ↔ m.Respects guard' s labels := by
  induction labels generalizing s with
  | nil => exact Iff.rfl
  | cons i is ih => exact and_congr (h s i hs).1 (ih (h s i hs).2)

/-- A guard that, along an invariant which it keeps, makes for another one. -/
theorem Respects.imp {P : σ → Prop}
    (h : ∀ s i, P s → guard s i → guard' s i ∧ P (m.step s i)) {s : σ} (hs : P s)
    {labels : List ι} (hg : m.Respects guard s labels) : m.Respects guard' s labels := by
  induction labels generalizing s with
  | nil => trivial
  | cons i is ih =>
      obtain ⟨hi, hrest⟩ := hg
      obtain ⟨hi', hnext⟩ := h s i hs hi
      exact ⟨hi', ih hnext hrest⟩

/-- Keeping some of the labels keeps what all labels keep, as long as the dropped ones
do not matter to the selection. -/
theorem filter_purge (drop : σ → ι → Bool) (selected kept : ι → Bool)
    (h : ∀ s i, selected i = true → (kept i = !drop s i)) (s : σ) (labels : List ι) :
    (m.purge drop s labels).filter selected
      = labels.filter (fun i => selected i && kept i) := by
  induction labels generalizing s with
  | nil => rfl
  | cons i is ih =>
      unfold purge
      by_cases hsel : selected i = true
      · have hkept := h s i hsel
        by_cases hdrop : drop s i = true
        · rw [if_pos hdrop, ih, List.filter_cons_of_neg (by simp [hkept, hdrop])]
        · rw [if_neg hdrop, List.filter_cons_of_pos hsel, ih,
            List.filter_cons_of_pos (by simp [hsel, hkept, hdrop])]
      · by_cases hdrop : drop s i = true
        · rw [if_pos hdrop, ih, List.filter_cons_of_neg (by simp [hsel])]
        · rw [if_neg hdrop, List.filter_cons_of_neg hsel, ih,
            List.filter_cons_of_neg (by simp [hsel])]

/--
**Unwinding.** If the labels that stay keep two states related and the labels that go
relate the state they lead to with the same partner, then a run and its purged run
end in related states.
-/
theorem runFrom_purge {related : σ → σ → Prop} {drop : σ → ι → Bool}
    (hstay : ∀ s t i, related s t → guard s i → drop s i = false →
      related (m.step s i) (m.step t i))
    (hgo : ∀ s t i, related s t → guard s i → drop s i = true → related (m.step s i) t)
    {s t : σ} (h : related s t) {labels : List ι} (hg : m.Respects guard s labels) :
    related (m.runFrom s labels) (m.runFrom t (m.purge drop s labels)) := by
  induction labels generalizing s t with
  | nil => exact h
  | cons i is ih =>
      obtain ⟨hi, hrest⟩ := hg
      unfold purge
      by_cases hdrop : drop s i = true
      · rw [if_pos hdrop]
        exact ih (hgo s t i h hi hdrop) hrest
      · rw [if_neg hdrop]
        exact ih (hstay s t i h hi (by simpa using hdrop)) hrest

end Machine

end Lib
