import Mathlib.Data.Nat.Init
import Vergerail.Lib.Machine

/-!
# Fair runs of labelled machines

An infinite run is a sequence of labels. A party that keeps being scheduled is a
set of labels that keeps coming up, so fairness is a property of the sequence
alone: a label that can do nothing in a state leaves it as it is. Progress is by
rank: as long as the rank is positive, some label that keeps coming up lowers it,
and no label raises it.
-/

namespace Lib

namespace Machine

variable {σ ι : Type} (m : Machine σ ι)

/-- The state after the first `n` labels of an infinite run. -/
def trace (labels : Nat → ι) : Nat → σ
  | 0 => m.init
  | n + 1 => m.step (trace labels n) (labels n)

@[simp] theorem trace_zero (labels : Nat → ι) : m.trace labels 0 = m.init := rfl

@[simp] theorem trace_succ (labels : Nat → ι) (n : Nat) :
    m.trace labels (n + 1) = m.step (m.trace labels n) (labels n) := rfl

/-- A label of the kind comes up again and again. -/
def Recurs (labels : Nat → ι) (kind : ι → Prop) : Prop :=
  ∀ n, ∃ k, n ≤ k ∧ kind (labels k)

theorem Recurs.mono {labels : Nat → ι} {kind kind' : ι → Prop} (h : Recurs labels kind)
    (hw : ∀ i, kind i → kind' i) : Recurs labels kind' := by
  intro n
  obtain ⟨k, hk, hlabel⟩ := h n
  exact ⟨k, hk, hw _ hlabel⟩

variable {m} {labels : Nat → ι}

/-- Every state of an infinite run is reached. -/
theorem trace_reachable (labels : Nat → ι) (n : Nat) : m.Reachable Free (m.trace labels n) := by
  induction n with
  | zero => exact reachable_init
  | succ n ih => exact ih.step trivial

/-- What every step from a reachable state preserves holds from then on. -/
theorem trace_preserves (P : σ → Prop)
    (hstep : ∀ s i, m.Reachable Free s → P s → P (m.step s i)) {n : Nat}
    (hn : P (m.trace labels n)) : ∀ k, n ≤ k → P (m.trace labels k) := by
  intro k hk
  induction k, hk using Nat.le_induction with
  | base => exact hn
  | succ k _ ih => exact hstep _ _ (trace_reachable labels k) ih

/-- A rank that no step raises is lowered by the next label that lowers it, or before. -/
theorem trace_rank_lt {P : σ → Prop} {rank : σ → Nat} {kind : ι → Prop}
    (hfair : Recurs labels kind)
    (hstep : ∀ s i, m.Reachable Free s → P s → P (m.step s i))
    (hle : ∀ s i, m.Reachable Free s → P s → rank (m.step s i) ≤ rank s) {r : Nat}
    (hlt : ∀ s i, m.Reachable Free s → P s → rank s = r → kind i → rank (m.step s i) < r)
    {n : Nat} (hn : P (m.trace labels n)) (hr : rank (m.trace labels n) = r) :
    ∃ k, n ≤ k ∧ P (m.trace labels k) ∧ rank (m.trace labels k) < r := by
  obtain ⟨k, hk, hkind⟩ := hfair n
  have hP := trace_preserves P hstep hn
  by_cases hlow : ∃ j, n ≤ j ∧ rank (m.trace labels j) < r
  · obtain ⟨j, hj, hjr⟩ := hlow
    exact ⟨j, hj, hP j hj, hjr⟩
  · -- otherwise the rank is still `r` when the helpful label comes up
    have hge : r ≤ rank (m.trace labels k) :=
      Nat.le_of_not_lt (fun h => hlow ⟨k, hk, h⟩)
    have hkeep : rank (m.trace labels k) ≤ r := by
      clear hkind hge
      induction k, hk using Nat.le_induction with
      | base => omega
      | succ k hk ih =>
          have := hle _ (labels k) (trace_reachable labels k) (hP k hk)
          rw [trace_succ]
          omega
    refine ⟨k + 1, by omega, hP (k + 1) (by omega), ?_⟩
    exact hlt _ _ (trace_reachable labels k) (hP k hk) (by omega) hkind

/--
**Progress by rank.** If no step raises the rank, and for every positive rank some
kind of label that recurs lowers it, then the rank reaches zero.
-/
theorem trace_rank_zero (P : σ → Prop) (rank : σ → Nat) {kind : Nat → ι → Prop}
    (hfair : ∀ r, 0 < r → Recurs labels (kind r))
    (hstep : ∀ s i, m.Reachable Free s → P s → P (m.step s i))
    (hle : ∀ s i, m.Reachable Free s → P s → rank (m.step s i) ≤ rank s)
    (hlt : ∀ s i, m.Reachable Free s → P s → 0 < rank s → kind (rank s) i →
      rank (m.step s i) < rank s)
    {n : Nat} (hn : P (m.trace labels n)) :
    ∃ k, n ≤ k ∧ P (m.trace labels k) ∧ rank (m.trace labels k) = 0 := by
  -- strong induction on the rank of the state the run is in
  generalize hr : rank (m.trace labels n) = r
  induction r using Nat.strong_induction_on generalizing n with
  | _ r ih =>
      rcases Nat.eq_zero_or_pos r with h0 | hpos
      · exact ⟨n, Nat.le_refl n, hn, by omega⟩
      · obtain ⟨k, hk, hkP, hkr⟩ := trace_rank_lt (hfair r hpos) hstep hle
          (fun s i hs hP hrank hkind => by
            have := hlt s i hs hP (by omega) (by rw [hrank]; exact hkind)
            omega) hn hr
        obtain ⟨k', hk', hzero⟩ := ih _ hkr hkP rfl
        exact ⟨k', by omega, hzero⟩

end Machine

end Lib
