import Mathlib.Data.Nat.Pairing
import Vergerail.Session.InterruptWorld

/-!
# One interrupt per run

The started bit is set by the one exchange that finds neither bit set, so it belongs to
one caller, and that caller spawns the one task. A caller decides to wait after two
separate reads of the state: the first found one of the bits, the second did not find
the terminal bit, or found the started bit. Bits are never cleared, so whichever of the
two the first read found, the started bit is set by then: a waiting caller always has a
task to wait for.

Whether a parked caller wakes is about versions: its receiver saw version zero when it
subscribed or looked, and the guard's only publication makes it one.
-/

namespace Vergerail

open Lib

/-! ## The two bits -/

namespace RunControl

variable (self : RunControl)

theorem interruptBlocked_state : interruptBlocked self.state = true
    ↔ self.interruptStarted = true ∨ self.providerTerminalObserved = true := by
  have h : ∀ s : BitVec 8, interruptBlocked s = true
      ↔ (s &&& runInterruptStarted != 0) = true ∨ (s &&& runProviderTerminal != 0) = true := by
    decide
  exact h self.state

@[simp] theorem grantInterrupt_started : self.grantInterrupt.interruptStarted = true := by
  have h : ∀ s : BitVec 8, (s ||| runInterruptStarted) &&& runInterruptStarted != 0 := by decide
  exact h self.state

@[simp] theorem grantInterrupt_terminal :
    self.grantInterrupt.providerTerminalObserved = self.providerTerminalObserved := by
  have h : ∀ s : BitVec 8, ((s ||| runInterruptStarted) &&& runProviderTerminal != 0)
      = (s &&& runProviderTerminal != 0) := by decide
  exact h self.state

@[simp] theorem fetchOrTerminal_started :
    self.fetchOrTerminal.interruptStarted = self.interruptStarted := by
  have h : ∀ s : BitVec 8, ((s ||| runProviderTerminal) &&& runInterruptStarted != 0)
      = (s &&& runInterruptStarted != 0) := by decide
  exact h self.state

@[simp] theorem fetchOrTerminal_observed :
    self.fetchOrTerminal.providerTerminalObserved = true :=
  self.markProviderTerminal_observed

@[simp] theorem publishInterrupt_value (result : Result Unit) :
    (self.publishInterrupt result).interruptResult.value = some result := rfl

/-- Setting bits only raises the state. -/
theorem state_le_or (s mask : BitVec 8) : s.toNat ≤ (s ||| mask).toNat := by
  rw [BitVec.toNat_or]
  exact Nat.left_le_or

end RunControl

/-! ## What is true of a caller at each of its program points -/

namespace InterruptWorld

/-- The result that the task published, if it did. -/
def published (w : InterruptWorld) : Option (Result Unit) := w.control.interruptResult.value

/-- A caller waits for the result of an interrupt. -/
def Waits (w : InterruptWorld) (i : Nat) : Prop :=
  w.caller i = .checking ∨ w.caller i = .parked

/-- What a caller at a program point can rely on. -/
def Placed (w : InterruptWorld) (i : Nat) : InterruptCaller → Prop
  | .idle => True
  | .subscribed => True
  | .observed state => RunControl.interruptBlocked state = true →
      w.control.interruptStarted = true ∨ w.control.providerTerminalObserved = true
  | .granted => i ∈ w.grants ∧ w.task i = .absent
  | .refused => w.control.interruptStarted = true ∨ w.control.providerTerminalObserved = true
  | .terminalSeen => w.control.providerTerminalObserved = true
  | .checking => w.control.interruptStarted = true
  | .parked => w.control.interruptStarted = true ∧ w.seen i = 0
  | .returned result =>
      (result = .ok () ∧ w.control.providerTerminalObserved = true)
        ∨ w.published = some result
  | .dropped => True

/-- What no step takes back. -/
structure Grows (w w' : InterruptWorld) : Prop where
  started : w.control.interruptStarted = true → w'.control.interruptStarted = true
  observed : w.control.providerTerminalObserved = true →
    w'.control.providerTerminalObserved = true
  published : ∀ result, w.published = some result → w'.published = some result
  grants : ∀ i, i ∈ w.grants → i ∈ w'.grants

/-- What a caller relies on survives what the others do. -/
theorem Placed.grows {w w' : InterruptWorld} (hg : Grows w w') {i : Nat}
    (htask : w.task i = .absent → w'.task i = .absent) (hseen : w'.seen i = w.seen i)
    {pc : InterruptCaller} (h : w.Placed i pc) : w'.Placed i pc := by
  cases pc with
  | idle => trivial
  | subscribed => trivial
  | observed state => exact fun hb => (h hb).imp hg.started hg.observed
  | granted => exact ⟨hg.grants i h.1, htask h.2⟩
  | refused => exact Or.imp hg.started hg.observed h
  | terminalSeen => exact hg.observed h
  | checking => exact hg.started h
  | parked => exact ⟨hg.started h.1, by rw [hseen]; exact h.2⟩
  | returned result =>
      rcases h with ⟨hok, hobs⟩ | hpub
      · exact Or.inl ⟨hok, hg.observed hobs⟩
      · exact Or.inr (hg.published _ hpub)
  | dropped => trivial

theorem grows_moveCaller (w : InterruptWorld) (i : Nat) (pc : InterruptCaller) :
    Grows w (w.moveCaller i pc) := ⟨id, id, fun _ => id, fun _ => id⟩

theorem grows_catchUp (w : InterruptWorld) (i : Nat) : Grows w (w.catchUp i) :=
  ⟨id, id, fun _ => id, fun _ => id⟩

theorem grows_moveTask (w : InterruptWorld) (i : Nat) (pc : InterruptTask) :
    Grows w (w.moveTask i pc) := ⟨id, id, fun _ => id, fun _ => id⟩

theorem Grows.trans {w w' w'' : InterruptWorld} (h : Grows w w') (h' : Grows w' w'') :
    Grows w w'' where
  started hs := h'.started (h.started hs)
  observed ho := h'.observed (h.observed ho)
  published result hr := h'.published result (h.published result hr)
  grants i hi := h'.grants i (h.grants i hi)

theorem grows_grant (w : InterruptWorld) (i : Nat) : Grows w (w.grant i) where
  started _ := w.control.grantInterrupt_started
  observed ho := by
    rw [← ho]
    exact w.control.grantInterrupt_terminal
  published _ := id
  grants _ hj := List.mem_append_left _ hj

theorem grows_finish {w : InterruptWorld} (h : w.published = none) (i : Nat)
    (result : Result Unit) : Grows w (w.finish i result) where
  started := id
  observed := id
  published r hr := by
    rw [h] at hr
    simp at hr
  grants _ := id

theorem grows_markerStep (w : InterruptWorld) (k : Nat) : Grows w (w.markerStep k) := by
  unfold markerStep
  split
  · exact ⟨fun hs => by rw [← hs]; exact w.control.fetchOrTerminal_started,
      fun _ => w.control.fetchOrTerminal_observed, fun _ => id, fun _ => id⟩
  · exact ⟨id, id, fun _ => id, fun _ => id⟩
  · exact ⟨id, id, fun _ => id, fun _ => id⟩

/-- The started bit has one owner, the owner one task, and the task one result. -/
structure OneInterrupt (w : InterruptWorld) : Prop where
  started : w.control.interruptStarted = true ↔ w.grants ≠ []
  single : w.grants.length ≤ 1
  owned : ∀ i, i ∈ w.grants → w.caller i = .granted ∨ w.task i ≠ .absent
  spawned : ∀ i, w.task i ≠ .absent → i ∈ w.grants
  version : w.resultVersion = if w.published.isSome then 1 else 0
  finished : w.published.isSome = true ↔ ∃ i, w.task i = .done
  seen : ∀ i, w.seen i ≤ w.resultVersion
  placed : ∀ i, w.Placed i (w.caller i)

theorem oneInterrupt_init : OneInterrupt init where
  started := by constructor <;> intro h <;> exact absurd h (by decide)
  single := by decide
  owned := by intro i h; exact absurd h (by simp [init])
  spawned := by intro i h; exact absurd rfl h
  version := rfl
  finished := by
    constructor
    · intro h; exact absurd h (by decide)
    · rintro ⟨i, h⟩; exact absurd h (by simp [init])
  seen := by intro i; exact Nat.le_refl 0
  placed := by intro i; trivial

variable {w : InterruptWorld}

/-- Two callers that were both granted are one. -/
theorem OneInterrupt.grant_unique (h : OneInterrupt w) {i j : Nat} (hi : i ∈ w.grants)
    (hj : j ∈ w.grants) : i = j := by
  have hlen := h.single
  rcases hgrants : w.grants with _ | ⟨k, rest⟩
  · rw [hgrants] at hi
    simp at hi
  · rw [hgrants] at hi hj hlen
    have hrest : rest = [] := by
      apply List.eq_nil_of_length_eq_zero
      simp only [List.length_cons] at hlen
      omega
    subst hrest
    simp only [List.mem_singleton] at hi hj
    omega

/-- A task that still works has published nothing. -/
theorem OneInterrupt.unpublished (h : OneInterrupt w) {i : Nat} (hi : w.task i ≠ .absent)
    (hd : w.task i ≠ .done) : w.published = none := by
  rcases hpub : w.published with _ | result
  · rfl
  · exfalso
    obtain ⟨j, hj⟩ := h.finished.mp (by rw [hpub]; rfl)
    have hji : j = i := h.grant_unique (h.spawned j (by rw [hj]; simp)) (h.spawned i hi)
    rw [hji] at hj
    exact hd hj

/-! ## One lemma per operation -/

theorem oneInterrupt_moveCaller (h : OneInterrupt w) {i : Nat} {pc : InterruptCaller}
    (hpc : w.Placed i pc) (hnot : w.caller i ≠ .granted) : OneInterrupt (w.moveCaller i pc) where
  started := h.started
  single := h.single
  owned := by
    intro j hj
    by_cases hij : j = i
    · rcases h.owned j hj with hc | ht
      · exact absurd (by rw [← hij]; exact hc) hnot
      · exact Or.inr ht
    · rw [moveCaller_of_ne w pc hij]
      exact h.owned j hj
  spawned := h.spawned
  version := h.version
  finished := h.finished
  seen := h.seen
  placed := by
    intro j
    have hg := grows_moveCaller w i pc
    by_cases hij : j = i
    · subst hij
      rw [moveCaller_self]
      exact hpc.grows hg id rfl
    · rw [moveCaller_of_ne w pc hij]
      exact (h.placed j).grows hg id rfl

/-- A receiver may catch up as long as its caller is not parked on it. -/
theorem oneInterrupt_catchUp (h : OneInterrupt w) {i : Nat} (hnot : w.caller i ≠ .parked) :
    OneInterrupt (w.catchUp i) where
  started := h.started
  single := h.single
  owned := h.owned
  spawned := h.spawned
  version := h.version
  finished := h.finished
  seen := by
    intro j
    by_cases hij : j = i
    · subst hij
      rw [catchUp_self]
      exact Nat.le_refl _
    · rw [catchUp_of_ne w hij]
      exact h.seen j
  placed := by
    intro j
    have hg := grows_catchUp w i
    by_cases hij : j = i
    · subst hij
      show (w.catchUp j).Placed j (w.caller j)
      have hj := h.placed j
      -- only a parked caller relies on what its receiver has seen
      cases hpc : w.caller j with
      | parked => exact absurd hpc hnot
      | _ => rw [hpc] at hj; exact hj
    · exact (h.placed j).grows hg id (catchUp_of_ne w hij)

/-- The exchange succeeds: no bit was set, so nobody was granted before. -/
theorem oneInterrupt_grant (h : OneInterrupt w) {i : Nat} {state : BitVec 8}
    (hpc : w.caller i = .observed state) (hstate : w.control.state = state)
    (hfree : RunControl.interruptBlocked state = false) : OneInterrupt (w.grant i) := by
  have hclear : ¬ (w.control.interruptStarted = true
      ∨ w.control.providerTerminalObserved = true) := by
    rw [← RunControl.interruptBlocked_state, hstate, hfree]
    simp
  have hgrants : w.grants = [] := by
    by_contra hne
    exact hclear (Or.inl (h.started.mpr hne))
  have habsent : ∀ j, w.task j = .absent := by
    intro j
    by_contra hj
    have := h.spawned j hj
    rw [hgrants] at this
    simp at this
  have hg := grows_grant w i
  refine ⟨?_, ?_, ?_, ?_, h.version, h.finished, h.seen, ?_⟩
  · constructor
    · intro _
      simp [grant]
    · intro _
      exact w.control.grantInterrupt_started
  · simp [grant, hgrants]
  · intro j hj
    have hji : j = i := by simpa [grant, hgrants] using hj
    subst hji
    exact Or.inl (moveCaller_self w j .granted)
  · intro j hj
    exact absurd (habsent j) hj
  · intro j
    by_cases hij : j = i
    · subst hij
      show (w.grant j).Placed j ((w.moveCaller j .granted).caller j)
      rw [moveCaller_self]
      exact ⟨by simp [grant], habsent j⟩
    · show (w.grant i).Placed j ((w.moveCaller i .granted).caller j)
      rw [moveCaller_of_ne w _ hij]
      exact (h.placed j).grows hg id rfl

/-- The granted caller spawns its task and goes on to look at the result. -/
theorem oneInterrupt_spawn (h : OneInterrupt w) {i : Nat} (hpc : w.caller i = .granted) :
    OneInterrupt ((w.moveTask i .spawned).moveCaller i .checking) := by
  have hplaced : i ∈ w.grants ∧ w.task i = .absent := by
    have := h.placed i
    rw [hpc] at this
    exact this
  obtain ⟨hmem, habsent⟩ := hplaced
  have hg := (grows_moveTask w i .spawned).trans (grows_moveCaller _ i .checking)
  refine ⟨h.started, h.single, ?_, ?_, h.version, ?_, h.seen, ?_⟩
  · intro j hj
    have hji : j = i := h.grant_unique hj hmem
    subst hji
    refine Or.inr ?_
    show (w.moveTask j .spawned).task j ≠ .absent
    rw [moveTask_self]
    simp
  · intro j hj
    by_cases hij : j = i
    · subst hij
      exact hmem
    · refine h.spawned j ?_
      rw [← moveTask_of_ne w .spawned hij]
      exact hj
  · rw [show ((w.moveTask i .spawned).moveCaller i .checking).published = w.published from rfl,
      h.finished]
    constructor
    · rintro ⟨j, hj⟩
      have hij : j ≠ i := by
        rintro rfl
        rw [habsent] at hj
        simp at hj
      exact ⟨j, by rw [← hj]; exact moveTask_of_ne w _ hij⟩
    · rintro ⟨j, hj⟩
      have hij : j ≠ i := by
        rintro rfl
        rw [show ((w.moveTask j .spawned).moveCaller j .checking).task j = .spawned from
          moveTask_self w j _] at hj
        simp at hj
      exact ⟨j, by rw [← hj]; exact (moveTask_of_ne w _ hij).symm⟩
  · intro j
    by_cases hij : j = i
    · subst hij
      rw [moveCaller_self]
      exact h.started.mpr (List.ne_nil_of_mem hmem)
    · rw [moveCaller_of_ne _ _ hij]
      exact (h.placed j).grows hg (fun ht => by rw [← ht]; exact moveTask_of_ne w _ hij) rfl

/-- A task that works moves on. -/
theorem oneInterrupt_moveTask (h : OneInterrupt w) {i : Nat} {pc : InterruptTask}
    (hi : w.task i ≠ .absent) (hd : w.task i ≠ .done) (hpc : pc ≠ .absent) (hpd : pc ≠ .done) :
    OneInterrupt (w.moveTask i pc) := by
  have hg := grows_moveTask w i pc
  have habsent : ∀ j, (w.moveTask i pc).task j = .absent ↔ w.task j = .absent := by
    intro j
    by_cases hij : j = i
    · subst hij
      rw [moveTask_self]
      exact iff_of_false hpc hi
    · rw [moveTask_of_ne w pc hij]
  have hdone : ∀ j, (w.moveTask i pc).task j = .done ↔ w.task j = .done := by
    intro j
    by_cases hij : j = i
    · subst hij
      rw [moveTask_self]
      exact iff_of_false hpd hd
    · rw [moveTask_of_ne w pc hij]
  refine ⟨h.started, h.single, ?_, ?_, h.version, ?_, h.seen, ?_⟩
  · intro j hj
    exact (h.owned j hj).imp id (fun ht => by rwa [Ne, habsent j])
  · intro j hj
    exact h.spawned j (by rwa [Ne, ← habsent j])
  · rw [show (w.moveTask i pc).published = w.published from rfl, h.finished]
    exact exists_congr (fun j => (hdone j).symm)
  · intro j
    exact (h.placed j).grows hg (habsent j).mpr rfl

/-- The guard publishes, for the first and only time. -/
theorem oneInterrupt_finish (h : OneInterrupt w) {i : Nat} (result : Result Unit)
    (hi : w.task i ≠ .absent) (hd : w.task i ≠ .done) : OneInterrupt (w.finish i result) := by
  have hnone : w.published = none := h.unpublished hi hd
  have hversion : w.resultVersion = 0 := by rw [h.version, hnone]; rfl
  have htask : ∀ j, (w.finish i result).task j = (w.moveTask i .done).task j := fun _ => rfl
  have hg := grows_finish hnone i result
  have habsent : ∀ j, (w.finish i result).task j = .absent ↔ w.task j = .absent := by
    intro j
    rw [htask]
    by_cases hij : j = i
    · subst hij
      rw [moveTask_self]
      exact iff_of_false (by simp) hi
    · rw [moveTask_of_ne w _ hij]
  refine ⟨h.started, h.single, ?_, ?_, ?_, ?_, ?_, ?_⟩
  · intro j hj
    exact (h.owned j hj).imp id (fun ht => by rwa [Ne, habsent j])
  · intro j hj
    exact h.spawned j (by rwa [Ne, ← habsent j])
  · show w.resultVersion + 1 = _
    rw [hversion]
    rfl
  · exact iff_of_true rfl ⟨i, by rw [htask, moveTask_self]⟩
  · intro j
    have hle : w.seen j ≤ w.resultVersion := h.seen j
    show w.seen j ≤ w.resultVersion + 1
    omega
  · intro j
    exact (h.placed j).grows hg (habsent j).mpr rfl

/-- A marker changes the terminal bit and the terminal watch only. -/
theorem oneInterrupt_markerStep (h : OneInterrupt w) (k : Nat) :
    OneInterrupt (w.markerStep k) := by
  have hg := grows_markerStep w k
  unfold markerStep at hg ⊢
  split at hg
  · refine ⟨?_, h.single, h.owned, h.spawned, h.version, h.finished, h.seen,
      fun j => (h.placed j).grows hg id rfl⟩
    rw [← h.started]
    exact Eq.congr_left w.control.fetchOrTerminal_started
  · exact ⟨h.started, h.single, h.owned, h.spawned, h.version, h.finished, h.seen,
      fun j => (h.placed j).grows hg id rfl⟩
  · exact h

/-! ## What one step can do -/

/-- How far an exchange that expects one state is from an answer while another is stored:
the state can still change as often as it can rise. -/
def exchangeRank (stored expected : BitVec 8) : Nat :=
  6 + 2 * (255 - stored.toNat) + (if expected = stored then 0 else 1)

/-- How far a caller is from its return. From rank two on it waits for the result. -/
def callerRank (w : InterruptWorld) : InterruptCaller → Nat
  | .idle => 601
  | .subscribed => 600
  | .observed state => exchangeRank w.control.state state
  | .refused => 5
  | .terminalSeen => 4
  | .granted => 3
  | .checking => if w.published.isSome then 1 else 2
  | .parked => 2
  | .returned _ => 0
  | .dropped => 0

/-- How far a granted caller's task is from its publication. -/
def taskRank : InterruptTask → Nat
  | .absent => 4
  | .spawned => 3
  | .armed _ => 2
  | .racing _ => 1
  | .done => 0

/-- All operations, with what is true when they happen. -/
inductive Operation (w : InterruptWorld) : InterruptWorld → Prop where
  | stay : Operation w w
  | move (i : Nat) (pc : InterruptCaller) (hpc : w.Placed i pc) (hnot : w.caller i ≠ .granted)
      (hrank : w.callerRank pc ≤ w.callerRank (w.caller i)) : Operation w (w.moveCaller i pc)
  | look (i : Nat) (pc : InterruptCaller) (hpc : w.Placed i pc) (hnot : w.caller i ≠ .granted)
      (hparked : pc ≠ .parked) (hrank : w.callerRank pc ≤ w.callerRank (w.caller i)) :
      Operation w ((w.moveCaller i pc).catchUp i)
  | grant (i : Nat) (state : BitVec 8) (hpc : w.caller i = .observed state)
      (hstate : w.control.state = state) (hfree : RunControl.interruptBlocked state = false) :
      Operation w (w.grant i)
  | spawn (i : Nat) (hpc : w.caller i = .granted) :
      Operation w ((w.moveTask i .spawned).moveCaller i .checking)
  | work (i : Nat) (pc : InterruptTask) (hi : w.task i ≠ .absent) (hd : w.task i ≠ .done)
      (hpc : pc ≠ .absent) (hpd : pc ≠ .done) (hrank : taskRank pc ≤ taskRank (w.task i)) :
      Operation w (w.moveTask i pc)
  | finish (i : Nat) (result : Result Unit) (hi : w.task i ≠ .absent) (hd : w.task i ≠ .done) :
      Operation w (w.finish i result)
  | mark (k : Nat) : Operation w (w.markerStep k)

/-- A fresh look at the state is at least as good as an old one. -/
theorem exchangeRank_self_le (stored expected : BitVec 8) :
    exchangeRank stored stored ≤ exchangeRank stored expected := by
  unfold exchangeRank
  rw [if_pos rfl]
  omega

theorem exchangeRank_lt (stored expected : BitVec 8) : exchangeRank stored expected < 600 := by
  unfold exchangeRank
  split <;> omega

theorem lt_exchangeRank (stored expected : BitVec 8) : 5 < exchangeRank stored expected := by
  unfold exchangeRank
  split <;> omega

/-- A state that rose pays for the exchange that now fails. -/
theorem exchangeRank_mono {stored stored' : BitVec 8} (h : stored.toNat ≤ stored'.toNat)
    (expected : BitVec 8) : exchangeRank stored' expected ≤ exchangeRank stored expected := by
  have hlt : stored'.toNat < 2 ^ 8 := stored'.isLt
  by_cases heq : stored = stored'
  · rw [heq]
  · have hne : stored.toNat ≠ stored'.toNat := fun hn => heq (BitVec.eq_of_toNat_eq hn)
    unfold exchangeRank
    split <;> split <;> omega

theorem callerRank_checking_le (w : InterruptWorld) : w.callerRank .checking ≤ 2 := by
  simp only [callerRank]
  split <;> omega

theorem operation_callerStep (h : OneInterrupt w) (i : Nat) : Operation w (w.callerStep i) := by
  have hplaced := h.placed i
  unfold callerStep
  cases hpc : w.caller i with
  | idle => exact .stay
  | returned result => exact .stay
  | dropped => exact .stay
  | subscribed =>
      refine .move i _ w.control.interruptBlocked_state.mp (by simp [hpc]) ?_
      rw [hpc]
      exact Nat.le_of_lt (exchangeRank_lt _ _)
  | observed state =>
      rw [hpc] at hplaced
      show Operation w (if RunControl.interruptBlocked state then w.moveCaller i .refused
        else if w.control.state = state then w.grant i
        else w.moveCaller i (.observed w.control.state))
      split
      · rename_i hblocked
        refine .move i _ (hplaced hblocked) (by simp [hpc]) ?_
        rw [hpc]
        exact Nat.le_of_lt (lt_exchangeRank _ _)
      · rename_i hfree
        split
        · rename_i hstate
          exact .grant i state hpc hstate (by simpa using hfree)
        · refine .move i _ w.control.interruptBlocked_state.mp (by simp [hpc]) ?_
          rw [hpc]
          exact exchangeRank_self_le _ state
  | granted => exact .spawn i hpc
  | refused =>
      rw [hpc] at hplaced
      show Operation w (if w.control.providerTerminalObserved then w.moveCaller i .terminalSeen
        else w.moveCaller i .checking)
      split
      · rename_i hobserved
        exact .move i _ hobserved (by simp [hpc]) (by simp [hpc, callerRank])
      · rename_i hobserved
        -- the bit that refused the caller was not the terminal bit
        refine .move i _ (Or.resolve_right hplaced hobserved) (by simp [hpc]) ?_
        rw [hpc]
        exact Nat.le_trans w.callerRank_checking_le (by simp [callerRank])
  | terminalSeen =>
      rw [hpc] at hplaced
      show Operation w (if w.control.interruptStarted then w.moveCaller i .checking
        else w.moveCaller i (.returned (.ok ())))
      split
      · rename_i hstarted
        refine .move i _ hstarted (by simp [hpc]) ?_
        rw [hpc]
        exact Nat.le_trans w.callerRank_checking_le (by simp [callerRank])
      · exact .move i _ (Or.inl ⟨rfl, hplaced⟩) (by simp [hpc]) (by simp [hpc, callerRank])
  | checking =>
      rw [hpc] at hplaced
      cases hvalue : w.control.interruptResult.value with
      | some result =>
          have hpub : w.published = some result := hvalue
          show Operation w (w.moveCaller i (.returned result))
          exact .move i _ (Or.inr hpub) (by simp [hpc]) (by simp [hpc, callerRank])
      | none =>
          have hpub : w.published = none := hvalue
          show Operation w (w.moveCaller i .parked)
          have hseen := h.seen i
          rw [h.version, hpub] at hseen
          exact .move i _ ⟨hplaced, Nat.le_zero.mp hseen⟩ (by simp [hpc])
            (by simp [hpc, hpub, callerRank])
  | parked =>
      rw [hpc] at hplaced
      show Operation w (if w.seen i = w.resultVersion then w
        else (w.moveCaller i .checking).catchUp i)
      split
      · exact .stay
      · refine .look i _ hplaced.1 (by simp [hpc]) (by simp) ?_
        rw [hpc]
        exact w.callerRank_checking_le

theorem operation_taskStep (w : InterruptWorld) (i : Nat) : Operation w (w.taskStep i) := by
  unfold taskStep
  cases hpc : w.task i with
  | absent => exact .stay
  | done => exact .stay
  | spawned =>
      exact .work i _ (by simp [hpc]) (by simp [hpc]) (by simp) (by simp)
        (by simp [hpc, taskRank])
  | armed seen =>
      show Operation w (if w.control.providerTerminal.value then w.finish i (.ok ())
        else w.moveTask i (.racing seen))
      split
      · exact .finish i _ (by simp [hpc]) (by simp [hpc])
      · exact .work i _ (by simp [hpc]) (by simp [hpc]) (by simp) (by simp)
          (by simp [hpc, taskRank])
  | racing seen =>
      show Operation w (if seen = w.terminalVersion then w
        else if w.control.providerTerminal.value then w.finish i (.ok ())
        else w.finish i (.error terminalChangedUnobserved))
      split
      · exact .stay
      · split
        · exact .finish i _ (by simp [hpc]) (by simp [hpc])
        · exact .finish i _ (by simp [hpc]) (by simp [hpc])

/-- Every label performs one of the operations. -/
theorem operation_step (h : OneInterrupt w) (label : InterruptLabel) :
    Operation w (w.step label) := by
  cases label with
  | call i =>
      unfold step
      dsimp only
      split
      · rename_i hpc
        exact .look i _ trivial (by simp [hpc]) (by simp) (by simp [hpc, callerRank])
      · exact .stay
  | caller i => exact operation_callerStep h i
  | spurious i =>
      unfold step
      dsimp only
      split
      · rename_i state hpc
        split
        · exact .stay
        · refine .move i _ w.control.interruptBlocked_state.mp (by simp [hpc]) ?_
          rw [hpc]
          exact exchangeRank_self_le _ state
      · exact .stay
  | dropCaller i =>
      unfold step
      dsimp only
      split
      · rename_i hpc
        exact .move i .dropped trivial (by simp [hpc]) (by simp [hpc, callerRank])
      · exact .stay
  | task i => exact operation_taskStep w i
  | settle i result =>
      unfold step
      dsimp only
      split
      · rename_i seen hpc
        exact .finish i _ (by simp [hpc]) (by simp [hpc])
      · exact .stay
  | dropTask i =>
      unfold step
      dsimp only
      split
      · rename_i seen hpc
        exact .finish i _ (by simp [hpc]) (by simp [hpc])
      · rename_i seen hpc
        exact .finish i _ (by simp [hpc]) (by simp [hpc])
      · exact .stay
  | marker k => exact .mark k

/-! ## Every run -/

theorem oneInterrupt_step (h : OneInterrupt w) (label : InterruptLabel) :
    OneInterrupt (w.step label) := by
  have hop := operation_step h label
  generalize w.step label = w' at hop ⊢
  rcases hop with _ | ⟨i, pc, hpc, hnot, _⟩ | ⟨i, pc, hpc, hnot, hparked, _⟩
    | ⟨i, state, hpc, hstate, hfree⟩ | ⟨i, hpc⟩ | ⟨i, pc, hi, hd, hpc, hpd, _⟩
    | ⟨i, result, hi, hd⟩ | ⟨k⟩
  · exact h
  · exact oneInterrupt_moveCaller h hpc hnot
  · exact oneInterrupt_catchUp (oneInterrupt_moveCaller h hpc hnot) (by simpa using hparked)
  · exact oneInterrupt_grant h hpc hstate hfree
  · exact oneInterrupt_spawn h hpc
  · exact oneInterrupt_moveTask h hi hd hpc hpd
  · exact oneInterrupt_finish h result hi hd
  · exact oneInterrupt_markerStep h k

theorem oneInterrupt_reachable (h : interruptMachine.Reachable Machine.Free w) :
    OneInterrupt w := by
  refine h.invariant oneInterrupt_init ?_
  intro w label _ hw _
  exact oneInterrupt_step hw label

/-- No step takes back a bit, the result or a grant. -/
theorem grows_step (h : OneInterrupt w) (label : InterruptLabel) : Grows w (w.step label) := by
  have hop := operation_step h label
  generalize w.step label = w' at hop ⊢
  rcases hop with _ | ⟨i, pc, _, _, _⟩ | ⟨i, pc, _, _, _, _⟩
    | ⟨i, state, _, _, _⟩ | ⟨i, _⟩ | ⟨i, pc, _, _, _, _, _⟩ | ⟨i, result, hi, hd⟩ | ⟨k⟩
  · exact ⟨id, id, fun _ => id, fun _ => id⟩
  · exact grows_moveCaller w i pc
  · exact (grows_moveCaller w i pc).trans (grows_catchUp _ i)
  · exact grows_grant w i
  · exact (grows_moveTask w i .spawned).trans (grows_moveCaller _ i .checking)
  · exact grows_moveTask w i pc
  · exact grows_finish (h.unpublished hi hd) i result
  · exact grows_markerStep w k

/-- Once the terminal bit is set nobody is granted an interrupt any more. -/
theorem grants_step_of_terminal (h : OneInterrupt w)
    (hobs : w.control.providerTerminalObserved = true) (label : InterruptLabel) :
    (w.step label).grants = w.grants := by
  have hop := operation_step h label
  generalize w.step label = w' at hop ⊢
  rcases hop with _ | ⟨i, pc, _, _, _⟩ | ⟨i, pc, _, _, _, _⟩
    | ⟨i, state, _, hstate, hfree⟩ | ⟨i, _⟩ | ⟨i, pc, _, _, _, _, _⟩ | ⟨i, result, _, _⟩ | ⟨k⟩
  · rfl
  · rfl
  · rfl
  · have hblocked := w.control.interruptBlocked_state.mpr (Or.inr hobs)
    rw [hstate, hfree] at hblocked
    simp at hblocked
  · rfl
  · rfl
  · rfl
  · unfold markerStep
    split <;> rfl

/-- A caller that waits has an interrupt to wait for. -/
theorem OneInterrupt.waits (h : OneInterrupt w) {i : Nat} (hi : w.Waits i) :
    w.control.interruptStarted = true := by
  have hplaced := h.placed i
  rcases hi with hpc | hpc
  · rw [hpc] at hplaced
    exact hplaced
  · rw [hpc] at hplaced
    exact hplaced.1

/-! ## Progress -/

/-- The state of the control only rises. -/
theorem state_step_le (h : OneInterrupt w) (label : InterruptLabel) :
    w.control.state.toNat ≤ (w.step label).control.state.toNat := by
  have hop := operation_step h label
  generalize w.step label = w' at hop ⊢
  rcases hop with _ | ⟨i, pc, _, _, _⟩ | ⟨i, pc, _, _, _, _⟩
    | ⟨i, state, _, _, _⟩ | ⟨i, _⟩ | ⟨i, pc, _, _, _, _, _⟩ | ⟨i, result, _, _⟩ | ⟨k⟩
  · exact Nat.le_refl _
  · exact Nat.le_refl _
  · exact Nat.le_refl _
  · exact RunControl.state_le_or _ _
  · exact Nat.le_refl _
  · exact Nat.le_refl _
  · exact Nat.le_refl _
  · unfold markerStep
    split
    · exact RunControl.state_le_or _ _
    · exact Nat.le_refl _
    · exact Nat.le_refl _

/-- What others do never takes a caller further from its return. -/
theorem callerRank_mono {w' : InterruptWorld} (hg : Grows w w')
    (hstate : w.control.state.toNat ≤ w'.control.state.toNat) (pc : InterruptCaller) :
    w'.callerRank pc ≤ w.callerRank pc := by
  cases pc with
  | observed state => exact exchangeRank_mono hstate state
  | checking =>
      rcases hpub : w.published with _ | result
      · simp only [callerRank, hpub]
        split <;> simp
      · simp only [callerRank, hpub, hg.published result hpub, Nat.le_refl]
  | _ => exact Nat.le_refl _

theorem callerRank_step_le (h : OneInterrupt w) (label : InterruptLabel) (i : Nat) :
    (w.step label).callerRank ((w.step label).caller i) ≤ w.callerRank (w.caller i) := by
  refine Nat.le_trans (callerRank_mono (grows_step h label) (state_step_le h label) _) ?_
  have hop := operation_step h label
  generalize w.step label = w' at hop ⊢
  rcases hop with _ | ⟨j, pc, _, _, hrank⟩ | ⟨j, pc, _, _, _, hrank⟩
    | ⟨j, state, hpc, _, _⟩ | ⟨j, hpc⟩ | ⟨j, pc, _, _, _, _, _⟩ | ⟨j, result, _, _⟩ | ⟨k⟩
  · exact Nat.le_refl _
  · by_cases hij : i = j
    · subst hij
      rw [moveCaller_self]
      exact hrank
    · rw [moveCaller_of_ne w pc hij]
  · show w.callerRank ((w.moveCaller j pc).caller i) ≤ _
    by_cases hij : i = j
    · subst hij
      rw [moveCaller_self]
      exact hrank
    · rw [moveCaller_of_ne w pc hij]
  · show w.callerRank ((w.moveCaller j .granted).caller i) ≤ _
    by_cases hij : i = j
    · subst hij
      rw [moveCaller_self, hpc]
      have := lt_exchangeRank w.control.state state
      simp only [callerRank]
      omega
    · rw [moveCaller_of_ne w _ hij]
  · by_cases hij : i = j
    · subst hij
      rw [moveCaller_self, hpc]
      exact Nat.le_trans w.callerRank_checking_le (by simp [callerRank])
    · rw [moveCaller_of_ne _ _ hij]
      exact Nat.le_refl _
  · exact Nat.le_refl _
  · exact Nat.le_refl _
  · unfold markerStep
    split <;> exact Nat.le_refl _

theorem taskRank_step_le (h : OneInterrupt w) (label : InterruptLabel) (i : Nat) :
    taskRank ((w.step label).task i) ≤ taskRank (w.task i) := by
  have hop := operation_step h label
  generalize w.step label = w' at hop ⊢
  rcases hop with _ | ⟨j, pc, _, _, _⟩ | ⟨j, pc, _, _, _, _⟩ | ⟨j, state, _, _, _⟩ | ⟨j, hpc⟩
    | ⟨j, pc, _, _, _, _, hrank⟩ | ⟨j, result, _, _⟩ | ⟨k⟩
  · exact Nat.le_refl _
  · exact Nat.le_refl _
  · exact Nat.le_refl _
  · exact Nat.le_refl _
  · show taskRank ((w.moveTask j .spawned).task i) ≤ _
    by_cases hij : i = j
    · subst hij
      have hplaced := h.placed i
      rw [hpc] at hplaced
      rw [moveTask_self, hplaced.2]
      simp [taskRank]
    · rw [moveTask_of_ne w _ hij]
  · by_cases hij : i = j
    · subst hij
      rw [moveTask_self]
      exact hrank
    · rw [moveTask_of_ne w _ hij]
  · show taskRank ((w.moveTask j .done).task i) ≤ _
    by_cases hij : i = j
    · subst hij
      rw [moveTask_self]
      exact Nat.zero_le _
    · rw [moveTask_of_ne w _ hij]
  · unfold markerStep
    split <;> exact Nat.le_refl _

/-- A caller that entered comes closer to its return with each own step, until it waits
and again once the result is published. -/
theorem callerRank_callerStep_lt (h : OneInterrupt w) {i : Nat} (hidle : w.caller i ≠ .idle)
    (hrank : 2 < w.callerRank (w.caller i)
      ∨ w.published.isSome = true ∧ 0 < w.callerRank (w.caller i)) :
    (w.callerStep i).callerRank ((w.callerStep i).caller i) < w.callerRank (w.caller i) := by
  have hplaced := h.placed i
  have hversion := h.version
  unfold callerStep
  cases hpc : w.caller i with
  | idle => exact absurd hpc hidle
  | returned result => simp [hpc, callerRank] at hrank
  | dropped => simp [hpc, callerRank] at hrank
  | subscribed =>
      dsimp only
      rw [moveCaller_self]
      exact exchangeRank_lt _ _
  | observed state =>
      have hlt := lt_exchangeRank w.control.state state
      dsimp only
      split
      · rw [moveCaller_self]
        exact hlt
      · split
        · show callerRank (w.grant i) ((w.moveCaller i .granted).caller i) < _
          rw [moveCaller_self]
          simp only [callerRank]
          omega
        · rename_i hne
          rw [moveCaller_self]
          show exchangeRank w.control.state w.control.state < exchangeRank w.control.state state
          unfold exchangeRank
          rw [if_pos rfl, if_neg (fun heq => hne heq.symm)]
          omega
  | granted =>
      dsimp only
      rw [moveCaller_self]
      exact Nat.lt_of_le_of_lt (callerRank_checking_le _) (by simp [callerRank])
  | refused =>
      dsimp only
      split
      · rw [moveCaller_self]
        simp [callerRank]
      · rw [moveCaller_self]
        exact Nat.lt_of_le_of_lt (callerRank_checking_le _) (by simp [callerRank])
  | terminalSeen =>
      dsimp only
      split
      · rw [moveCaller_self]
        exact Nat.lt_of_le_of_lt (callerRank_checking_le _) (by simp [callerRank])
      · rw [moveCaller_self]
        simp [callerRank]
  | checking =>
      have hsome : w.published.isSome = true := by
        rcases hrank with hlt | hpub
        · rw [hpc] at hlt
          simp only [callerRank] at hlt
          split at hlt <;> omega
        · exact hpub.1
      obtain ⟨result, hresult⟩ := Option.isSome_iff_exists.mp hsome
      dsimp only
      rw [show w.control.interruptResult.value = some result from hresult]
      dsimp only
      rw [moveCaller_self]
      simp only [callerRank, hsome]
      simp
  | parked =>
      have hsome : w.published.isSome = true := by
        rcases hrank with hlt | hpub
        · rw [hpc] at hlt
          simp [callerRank] at hlt
        · exact hpub.1
      rw [hpc] at hplaced
      rw [hsome] at hversion
      dsimp only
      -- the receiver has not seen the one publication
      rw [if_neg (by rw [hplaced.2, hversion]; simp)]
      show callerRank w ((w.moveCaller i .checking).caller i) < _
      rw [moveCaller_self]
      simp only [callerRank, hsome]
      simp

/-- Who brings the task of a granted caller closer to its publication. -/
def Helps (i : Nat) (rank : Nat) (label : InterruptLabel) : Prop :=
  if rank = 4 then label = .caller i
  else if rank = 1 then label = .dropTask i ∨ ∃ result, label = .settle i result
  else label = .task i

theorem taskRank_step_lt (h : OneInterrupt w) {i : Nat} (hi : i ∈ w.grants)
    (hrank : 0 < taskRank (w.task i)) {label : InterruptLabel}
    (hhelps : Helps i (taskRank (w.task i)) label) :
    taskRank ((w.step label).task i) < taskRank (w.task i) := by
  cases htask : w.task i with
  | absent =>
      have hlabel : label = .caller i := by simpa [Helps, htask, taskRank] using hhelps
      have hpc : w.caller i = .granted :=
        (h.owned i hi).resolve_right (fun hne => hne htask)
      subst hlabel
      show taskRank ((w.callerStep i).task i) < _
      unfold callerStep
      rw [hpc]
      show taskRank ((w.moveTask i .spawned).task i) < _
      rw [moveTask_self]
      simp [taskRank]
  | spawned =>
      have hlabel : label = .task i := by simpa [Helps, htask, taskRank] using hhelps
      subst hlabel
      show taskRank ((w.taskStep i).task i) < _
      unfold taskStep
      rw [htask]
      dsimp only
      rw [moveTask_self]
      simp [taskRank]
  | armed seen =>
      have hlabel : label = .task i := by simpa [Helps, htask, taskRank] using hhelps
      subst hlabel
      show taskRank ((w.taskStep i).task i) < _
      unfold taskStep
      rw [htask]
      dsimp only
      split
      · show taskRank ((w.moveTask i .done).task i) < _
        rw [moveTask_self]
        simp [taskRank]
      · rw [moveTask_self]
        simp [taskRank]
  | racing seen =>
      have hdone : ∀ result, taskRank ((w.finish i result).task i) < 1 := by
        intro result
        show taskRank ((w.moveTask i .done).task i) < 1
        rw [moveTask_self]
        simp [taskRank]
      have hlabel : label = .dropTask i ∨ ∃ result, label = .settle i result := by
        simpa [Helps, htask, taskRank] using hhelps
      rcases hlabel with rfl | ⟨result, rfl⟩
      · unfold step
        dsimp only
        rw [htask]
        exact hdone _
      · unfold step
        dsimp only
        rw [htask]
        exact hdone result
  | done =>
      rw [htask] at hrank
      simp [taskRank] at hrank

/-- Every party keeps being scheduled, and every request ends at some time. -/
structure Fair (labels : Nat → InterruptLabel) : Prop where
  callers : ∀ i, Machine.Recurs labels (fun label => label = .caller i)
  tasks : ∀ i, Machine.Recurs labels (fun label => label = .task i)
  requests : ∀ i, Machine.Recurs labels
    (fun label => label = .dropTask i ∨ ∃ result, label = .settle i result)

theorem Fair.helps {labels : Nat → InterruptLabel} (h : Fair labels) (i rank : Nat) :
    Machine.Recurs labels (Helps i rank) := by
  by_cases h4 : rank = 4
  · exact (h.callers i).mono (fun label hlabel => by rw [Helps, if_pos h4]; exact hlabel)
  · by_cases h1 : rank = 1
    · exact (h.requests i).mono
        (fun label hlabel => by rw [Helps, if_neg h4, if_pos h1]; exact hlabel)
    · exact (h.tasks i).mono
        (fun label hlabel => by rw [Helps, if_neg h4, if_neg h1]; exact hlabel)

/-- Entering `interrupt_run` is not taken back. -/
theorem entered_step (h : OneInterrupt w) {i : Nat} (hi : w.caller i ≠ .idle)
    (label : InterruptLabel) : (w.step label).caller i ≠ .idle := by
  intro hidle
  have hle := callerRank_step_le h label i
  rw [hidle] at hle
  cases hpc : w.caller i with
  | idle => exact hi hpc
  | observed state =>
      have := exchangeRank_lt w.control.state state
      rw [hpc] at hle
      simp only [callerRank] at hle
      omega
  | checking =>
      have := w.callerRank_checking_le
      rw [hpc] at hle
      have hidle' : (w.step label).callerRank .idle = 601 := rfl
      omega
  | _ => rw [hpc] at hle; simp [callerRank] at hle

/-- A caller is back from `interrupt_run`, with a result or dropped. -/
def Left (w : InterruptWorld) (i : Nat) : Prop :=
  (∃ result, w.caller i = .returned result) ∨ w.caller i = .dropped

/-- At low rank a caller waits for the result, or has left. -/
theorem waits_or_left {i : Nat} (hrank : w.callerRank (w.caller i) ≤ 2) :
    w.Waits i ∨ w.Left i := by
  cases hpc : w.caller i with
  | checking => exact Or.inl (Or.inl hpc)
  | parked => exact Or.inl (Or.inr hpc)
  | returned result => exact Or.inr (Or.inl ⟨result, hpc⟩)
  | dropped => exact Or.inr (Or.inr hpc)
  | observed state =>
      have := lt_exchangeRank w.control.state state
      rw [hpc] at hrank
      simp only [callerRank] at hrank
      omega
  | _ => rw [hpc] at hrank; simp [callerRank] at hrank

section Progress

variable {labels : Nat → InterruptLabel}

/-- A granted interrupt publishes a result. -/
theorem published_eventually (hfair : Fair labels) {n i : Nat}
    (hi : i ∈ (interruptMachine.trace labels n).grants) :
    ∃ k, n ≤ k ∧ (interruptMachine.trace labels k).published.isSome = true := by
  have hstep : ∀ w label, interruptMachine.Reachable Machine.Free w → i ∈ w.grants →
      i ∈ (interruptMachine.step w label).grants :=
    fun w label hw => (grows_step (oneInterrupt_reachable hw) label).grants i
  obtain ⟨k, hk, -, hzero⟩ := Machine.trace_rank_zero (fun w => i ∈ w.grants)
    (fun w => taskRank (w.task i)) (fun rank _ => hfair.helps i rank) hstep
    (fun w label hw _ => taskRank_step_le (oneInterrupt_reachable hw) label i)
    (fun w label hw hgrant hpos hhelps =>
      taskRank_step_lt (oneInterrupt_reachable hw) hgrant hpos hhelps) hi
  have hinv := oneInterrupt_reachable (Machine.trace_reachable labels k)
  refine ⟨k, hk, hinv.finished.mpr ⟨i, ?_⟩⟩
  cases htask : (interruptMachine.trace labels k).task i with
  | done => rfl
  | _ => rw [htask] at hzero; simp [taskRank] at hzero

/-- A published result stays. -/
theorem published_stays {n : Nat}
    (hn : (interruptMachine.trace labels n).published.isSome = true) :
    ∀ k, n ≤ k → (interruptMachine.trace labels k).published.isSome = true := by
  refine Machine.trace_preserves (fun w : InterruptWorld => w.published.isSome = true) ?_ hn
  intro w label hw hpub
  obtain ⟨result, hresult⟩ := Option.isSome_iff_exists.mp hpub
  exact Option.isSome_iff_exists.mpr
    ⟨result, (grows_step (oneInterrupt_reachable hw) label).published result hresult⟩

/-- A caller that entered comes to wait, or leaves. -/
theorem decides_eventually (hfair : Fair labels) {n i : Nat}
    (hi : (interruptMachine.trace labels n).caller i ≠ .idle) :
    ∃ k, n ≤ k ∧ (interruptMachine.trace labels k).caller i ≠ .idle
      ∧ ((interruptMachine.trace labels k).Waits i
        ∨ (interruptMachine.trace labels k).Left i) := by
  obtain ⟨k, hk, hentered, hzero⟩ := Machine.trace_rank_zero
    (fun w => w.caller i ≠ .idle) (fun w => w.callerRank (w.caller i) - 2)
    (fun _ _ => hfair.callers i)
    (fun w label hw hpc => entered_step (oneInterrupt_reachable hw) hpc label)
    (fun w label hw _ => Nat.sub_le_sub_right
      (callerRank_step_le (oneInterrupt_reachable hw) label i) 2)
    (fun w label hw hpc hpos hlabel => by
      subst hlabel
      have hlt := callerRank_callerStep_lt (oneInterrupt_reachable hw) hpc (Or.inl (by omega))
      show (w.callerStep i).callerRank ((w.callerStep i).caller i) - 2 < _
      omega) hi
  exact ⟨k, hk, hentered, waits_or_left (by omega)⟩

/-- Once the result is published every caller that entered leaves. -/
theorem leaves_eventually (hfair : Fair labels) {n i : Nat}
    (hi : (interruptMachine.trace labels n).caller i ≠ .idle)
    (hpub : (interruptMachine.trace labels n).published.isSome = true) :
    ∃ k, n ≤ k ∧ (interruptMachine.trace labels k).Left i := by
  obtain ⟨k, hk, ⟨hentered, hpubk⟩, hzero⟩ := Machine.trace_rank_zero
    (fun w => w.caller i ≠ .idle ∧ w.published.isSome = true)
    (fun w => w.callerRank (w.caller i))
    (fun _ _ => hfair.callers i)
    (fun w label hw hP => by
      have hinv := oneInterrupt_reachable hw
      obtain ⟨result, hresult⟩ := Option.isSome_iff_exists.mp hP.2
      exact ⟨entered_step hinv hP.1 label, Option.isSome_iff_exists.mpr
        ⟨result, (grows_step hinv label).published result hresult⟩⟩)
    (fun w label hw _ => callerRank_step_le (oneInterrupt_reachable hw) label i)
    (fun w label hw hP hpos hlabel => by
      subst hlabel
      exact callerRank_callerStep_lt (oneInterrupt_reachable hw) hP.1 (Or.inr ⟨hP.2, hpos⟩))
    ⟨hi, hpub⟩
  refine ⟨k, hk, ?_⟩
  rcases waits_or_left (Nat.le_trans (Nat.le_of_eq hzero) (Nat.zero_le 2)) with hwaits | hleft
  · -- rank zero is past waiting
    rcases hwaits with hpc | hpc
    · rw [hpc] at hzero
      simp [callerRank, hpubk] at hzero
    · rw [hpc] at hzero
      simp [callerRank] at hzero
  · exact hleft

end Progress

/--
**One interrupt per run, and nobody hangs.**

In every run of any number of callers, tasks and calls of `mark_provider_terminal`:
`try_start_interrupt` answers `true` at most once, and never again once the terminal bit
is set; whoever waits does so while the interrupt is started and one granted caller is
about to spawn the task or has spawned it; whoever returned got the published result, or
`Ok` because the terminal was observed; and at most one result is ever published. If the
run is fair, one result is published whenever somebody waits, and every caller leaves.
-/
theorem one_interrupt_no_hang (labels : Nat → InterruptLabel) :
    (∀ n, (interruptMachine.trace labels n).grants.length ≤ 1)
    ∧ (∀ n, (interruptMachine.trace labels n).control.providerTerminalObserved = true →
        ∀ k, n ≤ k → (interruptMachine.trace labels k).grants
          = (interruptMachine.trace labels n).grants)
    ∧ (∀ n i, (interruptMachine.trace labels n).Waits i →
        (interruptMachine.trace labels n).control.interruptStarted = true
        ∧ ∃ j, (interruptMachine.trace labels n).grants = [j]
          ∧ ((interruptMachine.trace labels n).caller j = .granted
            ∨ (interruptMachine.trace labels n).task j ≠ .absent))
    ∧ (∀ n i result, (interruptMachine.trace labels n).caller i = .returned result →
        (result = .ok ()
          ∧ (interruptMachine.trace labels n).control.providerTerminalObserved = true)
        ∨ (interruptMachine.trace labels n).published = some result)
    ∧ (∀ n, (interruptMachine.trace labels n).resultVersion ≤ 1)
    ∧ (Fair labels → ∀ n i, (interruptMachine.trace labels n).Waits i →
        ∃ k, n ≤ k ∧ ∀ m, k ≤ m → (interruptMachine.trace labels m).published.isSome = true
          ∧ (interruptMachine.trace labels m).resultVersion = 1)
    ∧ (Fair labels → ∀ n i, (interruptMachine.trace labels n).caller i ≠ .idle →
        ∃ k, n ≤ k ∧ (interruptMachine.trace labels k).Left i) := by
  have hinv : ∀ n, OneInterrupt (interruptMachine.trace labels n) :=
    fun n => oneInterrupt_reachable (Machine.trace_reachable labels n)
  have hgranted : ∀ n i, (interruptMachine.trace labels n).Waits i →
      ∃ j, (interruptMachine.trace labels n).grants = [j] := by
    intro n i hi
    have hne := (hinv n).started.mp ((hinv n).waits hi)
    exact List.length_eq_one_iff.mp
      (Nat.le_antisymm (hinv n).single (List.length_pos_of_ne_nil hne))
  have hpublished : Fair labels → ∀ n i, (interruptMachine.trace labels n).Waits i →
      ∃ k, n ≤ k ∧ (interruptMachine.trace labels k).published.isSome = true := by
    intro hfair n i hi
    obtain ⟨j, hj⟩ := hgranted n i hi
    exact published_eventually (i := j) hfair (by rw [hj]; exact List.mem_singleton.mpr rfl)
  refine ⟨fun n => (hinv n).single, ?_, ?_, ?_, ?_, ?_, ?_⟩
  · intro n hobs k hk
    have hboth := Machine.trace_preserves
      (fun w : InterruptWorld => w.control.providerTerminalObserved = true
        ∧ w.grants = (interruptMachine.trace labels n).grants)
      (fun w label hw hP => by
        have hw := oneInterrupt_reachable hw
        exact ⟨(grows_step hw label).observed hP.1,
          (grants_step_of_terminal hw hP.1 label).trans hP.2⟩) ⟨hobs, rfl⟩ k hk
    exact hboth.2
  · intro n i hi
    obtain ⟨j, hj⟩ := hgranted n i hi
    exact ⟨(hinv n).waits hi, j, hj,
      (hinv n).owned j (by rw [hj]; exact List.mem_singleton.mpr rfl)⟩
  · intro n i result hpc
    have hplaced := (hinv n).placed i
    rw [hpc] at hplaced
    exact hplaced
  · intro n
    rw [(hinv n).version]
    split <;> omega
  · intro hfair n i hi
    obtain ⟨k, hk, hpub⟩ := hpublished hfair n i hi
    refine ⟨k, hk, fun m hm => ?_⟩
    have hstays := published_stays hpub m hm
    exact ⟨hstays, by rw [(hinv m).version, hstays]; rfl⟩
  · intro hfair n i hi
    obtain ⟨k, hk, hentered, hwaits | hleft⟩ := decides_eventually hfair hi
    · obtain ⟨k', hk', hpub⟩ := hpublished hfair k i hwaits
      have hentered' := Machine.trace_preserves (fun w => w.caller i ≠ .idle)
        (fun w label hw hpc => entered_step (oneInterrupt_reachable hw) hpc label) hentered k' hk'
      obtain ⟨k'', hk'', hleft⟩ := leaves_eventually hfair hentered' hpub
      exact ⟨k'', by omega, hleft⟩
    · exact ⟨k, hk, hleft⟩

/-- The four things to do for a caller. -/
def duty (i : Nat) : Nat → InterruptLabel
  | 0 => .call i
  | 1 => .caller i
  | 2 => .task i
  | _ => .settle i (.ok ())

/-- Everybody calls, and everybody keeps being scheduled. -/
def everybodyCalls (n : Nat) : InterruptLabel := duty (n.unpair.1 / 4) (n.unpair.1 % 4)

theorem everybodyCalls_pair (i r n : Nat) (h : r < 4) :
    everybodyCalls (Nat.pair (4 * i + r) n) = duty i r := by
  unfold everybodyCalls
  rw [Nat.unpair_pair]
  dsimp only
  rw [show (4 * i + r) % 4 = r by omega, show (4 * i + r) / 4 = i by omega]

theorem everybodyCalls_fair : Fair everybodyCalls where
  callers i n := ⟨_, Nat.right_le_pair (4 * i + 1) n, everybodyCalls_pair i 1 n (by omega)⟩
  tasks i n := ⟨_, Nat.right_le_pair (4 * i + 2) n, everybodyCalls_pair i 2 n (by omega)⟩
  requests i n :=
    ⟨_, Nat.right_le_pair (4 * i + 3) n, Or.inr ⟨.ok (), everybodyCalls_pair i 3 n (by omega)⟩⟩

theorem one_interrupt_no_hang_everybody :
    ∃ k, 1 ≤ k ∧ (interruptMachine.trace everybodyCalls k).Left 0 := by
  obtain ⟨_, _, _, _, _, _, hleaves⟩ := one_interrupt_no_hang everybodyCalls
  refine hleaves everybodyCalls_fair 1 0 ?_
  have hfirst : everybodyCalls 0 = .call 0 := everybodyCalls_pair 0 0 0 (by omega)
  show (init.step (everybodyCalls 0)).caller 0 ≠ .idle
  rw [hfirst]
  decide

end InterruptWorld

end Vergerail
