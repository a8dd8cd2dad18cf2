import Vergerail.Proof.DiagnosticOverflow

/-!
# The byte counter under many threads

`push` holds both mutexes over its whole critical section, so at the granularity of locks it
is one step. `take` drains the items under the first mutex and resets the counter under the
second, and holds none in between: a push that gets the items there is counted, and the reset
takes its count back. The counter is right in every run in which no push gets the items
between the drain and the reset of some take. The bound on the stored bytes does not rest on
the counter: 128 items of 8 KiB are 1 MiB.
-/

namespace Vergerail

open Lib

/-! ## The bound, whatever the counter says -/

theorem evictWhile_suffix (tooMuch : List Diagnostic → Nat → Bool) (items : List Diagnostic)
    (bytes : Nat) : (evictWhile tooMuch items bytes).1 <:+ items := by
  induction items generalizing bytes with
  | nil => exact List.suffix_rfl
  | cons d items ih =>
      unfold evictWhile
      split
      · exact (ih _).trans (List.suffix_cons d items)
      · exact List.suffix_rfl

theorem evictWhile_stop (tooMuch : List Diagnostic → Nat → Bool) (items : List Diagnostic)
    (bytes : Nat) : (evictWhile tooMuch items bytes).1 = [] ∨
      tooMuch (evictWhile tooMuch items bytes).1 (evictWhile tooMuch items bytes).2 = false := by
  induction items generalizing bytes with
  | nil => exact .inl rfl
  | cons d items ih =>
      unfold evictWhile
      split
      · exact ih _
      · rename_i hnot
        exact .inr (Bool.eq_false_iff.mpr hnot)

/-- Every stored item is at most 8 KiB long. -/
def Sized (items : List Diagnostic) : Prop := ∀ item ∈ items, item.size ≤ diagnosticItemBytes

theorem makeRoom_sized {items : List Diagnostic} (h : Sized items) (size bytes : Nat) :
    Sized (makeRoom size items bytes).1 := by
  have hsuffix := evictWhile_suffix (isFullWithMarker size) items bytes
  have hmarker : overflowMarker.size ≤ diagnosticItemBytes := by decide
  unfold makeRoom
  split
  · dsimp only
    split
    · intro item hitem
      rcases List.mem_append.mp hitem with hitem | hitem
      · exact h item (hsuffix.subset hitem)
      · rw [List.mem_singleton.mp hitem]
        exact hmarker
    · exact fun item hitem => h item (hsuffix.subset hitem)
  · exact h

/-- **A push leaves at most 128 items of at most 8 KiB**, for any value of the counter. -/
theorem pushDiagnostic_sized (d : Diagnostic) {items : List Diagnostic} (h : Sized items)
    (bytes : Nat) :
    (pushDiagnostic d items bytes).1.length ≤ diagnosticCapacity ∧
      Sized (pushDiagnostic d items bytes).1 := by
  unfold pushDiagnostic
  dsimp only
  generalize hroom : makeRoom (diagnosticBytes (boundDiagnostic d)) items bytes = room
  obtain ⟨kept, count⟩ := room
  have hkept : Sized kept := by
    have hmade := makeRoom_sized h (diagnosticBytes (boundDiagnostic d)) bytes
    rw [hroom] at hmade
    exact hmade
  dsimp only
  have hsuffix := evictWhile_suffix (isFull (diagnosticBytes (boundDiagnostic d))) kept count
  have hstop := evictWhile_stop (isFull (diagnosticBytes (boundDiagnostic d))) kept count
  constructor
  · rw [List.length_append, List.length_singleton]
    rcases hstop with hnil | hnot
    · rw [hnil]
      decide
    · rw [isFull, Bool.or_eq_false_iff, decide_eq_false_iff_not] at hnot
      omega
  · intro item hitem
    rcases List.mem_append.mp hitem with hitem | hitem
    · exact hkept item (hsuffix.subset hitem)
    · rw [List.mem_singleton.mp hitem]
      exact boundDiagnostic_size d

theorem sum_size_le {items : List Diagnostic} (h : Sized items) :
    (items.map Diagnostic.size).sum ≤ items.length * diagnosticItemBytes := by
  induction items with
  | nil => exact Nat.zero_le _
  | cons d items ih =>
      have hfirst := h d List.mem_cons_self
      have hrest := ih fun item hitem => h item (List.mem_cons_of_mem d hitem)
      rw [List.map_cons, List.sum_cons, List.length_cons, Nat.succ_mul]
      omega

theorem totalBytes_eq {items : List Diagnostic} (h : Sized items) :
    totalBytes items = (items.map Diagnostic.size).sum := by
  rw [totalBytes]
  congr 1
  apply List.map_congr_left
  intro item hitem
  have hle := h item hitem
  have hitem : diagnosticItemBytes ≤ diagnosticTotalBytes := by decide
  exact diagnosticBytes_of_le (by omega)

namespace DiagnosticWorld

variable {T : Type} [DecidableEq T]

/-! ## Steps -/

/-- The points at which a thread has the items. -/
def hasItems : DiagnosticPoint → Bool
  | .pushingItems _ | .pushingBoth _ | .pushed | .pushedItems | .takingItems | .drained => true
  | _ => false

/-- The points of a push with the items. -/
def isPushing : DiagnosticPoint → Bool
  | .pushingItems _ | .pushingBoth _ | .pushed | .pushedItems => true
  | _ => false

/-- The points between the drain and the reset of a take. -/
def isMidTake : DiagnosticPoint → Bool
  | .drained | .between | .resetting => true
  | _ => false

/-- No push gets the items between the drain and the reset of some take. -/
def Undisturbed (w : DiagnosticWorld T) : Label T → Prop
  | .start _ _ => True
  | .advance t => ∀ d, w.point t = .pushing d → w.itemsLock = none →
      ∀ u, isMidTake (w.point u) = false

/-- The mutex of the items is held by the thread that has them. -/
def Owned (lock : Option T) (point : T → DiagnosticPoint) : Prop :=
  ∀ t, hasItems (point t) = true ↔ lock = some t

variable {w : DiagnosticWorld T} {t : T} {p : DiagnosticPoint}

/-- A move of one thread: it gets the mutex, gives it back, or neither. -/
theorem owned_move {lock lock' : Option T} {point : T → DiagnosticPoint} (h : Owned lock point)
    (hmove : (hasItems p = hasItems (point t) ∧ lock' = lock) ∨
      (lock = none ∧ lock' = some t ∧ hasItems p = true) ∨
      (hasItems (point t) = true ∧ lock' = none ∧ hasItems p = false)) :
    Owned lock' (fun u => if u = t then p else point u) := by
  intro u
  dsimp only
  by_cases hu : u = t
  · subst hu
    rw [if_pos rfl]
    rcases hmove with ⟨hsame, rfl⟩ | ⟨-, rfl, hp⟩ | ⟨-, rfl, hp⟩
    · rw [hsame]
      exact h u
    · simp [hp]
    · simp [hp]
  · rw [if_neg hu]
    have hother := h u
    rcases hmove with ⟨-, rfl⟩ | ⟨hfree, rfl, -⟩ | ⟨hmine, rfl, -⟩
    · exact hother
    · rw [hother, hfree]
      simp [Ne.symm hu]
    · rw [hother, (h t).mp hmine]
      simp [Ne.symm hu]

theorem owned_advance (h : Owned w.itemsLock w.point) :
    Owned (w.advance t).itemsLock (w.advance t).point := by
  unfold advance
  split
  · exact h
  · rename_i hpoint
    split
    · rename_i hfree
      exact owned_move h (.inr (.inl ⟨hfree, rfl, rfl⟩))
    · exact h
  · rename_i hpoint
    split
    · exact owned_move h (.inl ⟨by rw [hpoint]; rfl, rfl⟩)
    · exact h
  · rename_i hpoint
    exact owned_move h (.inl ⟨by rw [hpoint]; rfl, rfl⟩)
  · rename_i hpoint
    exact owned_move h (.inl ⟨by rw [hpoint]; rfl, rfl⟩)
  · rename_i hpoint
    exact owned_move h (.inr (.inr ⟨by rw [hpoint]; rfl, rfl, rfl⟩))
  · rename_i hpoint
    split
    · rename_i hfree
      exact owned_move h (.inr (.inl ⟨hfree, rfl, rfl⟩))
    · exact h
  · rename_i hpoint
    exact owned_move h (.inl ⟨by rw [hpoint]; rfl, rfl⟩)
  · rename_i hpoint
    exact owned_move h (.inr (.inr ⟨by rw [hpoint]; rfl, rfl, rfl⟩))
  · rename_i hpoint
    split
    · exact owned_move h (.inl ⟨by rw [hpoint]; rfl, rfl⟩)
    · exact h
  · rename_i hpoint
    exact owned_move h (.inl ⟨by rw [hpoint]; rfl, rfl⟩)
  · rename_i hpoint
    exact owned_move h (.inl ⟨by rw [hpoint]; rfl, rfl⟩)

theorem owned_step (h : Owned w.itemsLock w.point) (label : Label T) :
    Owned (w.step label).itemsLock (w.step label).point := by
  cases label with
  | start t call =>
      unfold step
      dsimp only
      split
      · rename_i hpoint
        exact owned_move h (.inl ⟨by rw [hpoint]; rfl, rfl⟩)
      · rename_i hpoint
        exact owned_move h (.inl ⟨by rw [hpoint]; rfl, rfl⟩)
      · exact h
  | advance t => exact owned_advance h

/-! ## The stored items -/

/-- Few items, and none too long. -/
def Stored (w : DiagnosticWorld T) : Prop :=
  w.items.length ≤ diagnosticCapacity ∧ Sized w.items

theorem stored_step (h : w.Stored) (label : Label T) : (w.step label).Stored := by
  cases label with
  | start t call =>
      unfold step
      dsimp only
      split <;> exact h
  | advance t =>
      change (w.advance t).Stored
      unfold advance
      split
      case h_4 d _ => exact pushDiagnostic_sized d h.2 w.bytes
      case h_8 => exact ⟨Nat.zero_le _, fun _ hitem => nomatch hitem⟩
      all_goals first | exact h | (split <;> exact h)

theorem stored_reachable (h : (machine T).Reachable Machine.Free w) : w.Stored := by
  refine h.invariant ⟨Nat.zero_le _, fun _ hitem => nomatch hitem⟩ ?_
  intro w label _ hstored _
  exact stored_step hstored label

omit [DecidableEq T] in
theorem Stored.small (h : w.Stored) :
    (w.items.map Diagnostic.size).sum ≤ diagnosticTotalBytes := by
  have hsum := sum_size_le h.2
  have hcount := Nat.mul_le_mul_right diagnosticItemBytes h.1
  have hall : diagnosticCapacity * diagnosticItemBytes = diagnosticTotalBytes := by decide
  omega

/-! ## The counter -/

/-- **What holds in every run without such a push.** Between the drain and the reset of some
take nothing is stored and no push has the items; else the counter is right. -/
structure Exact (w : DiagnosticWorld T) : Prop where
  owned : Owned w.itemsLock w.point
  drained : ∀ t, isMidTake (w.point t) = true →
    w.items = [] ∧ ∀ u, isPushing (w.point u) = false
  counted : (∀ t, isMidTake (w.point t) = false) → w.bytes = totalBytes w.items

omit [DecidableEq T] in
theorem exact_init : Exact (init : DiagnosticWorld T) where
  owned t := by simp [init, hasItems]
  drained t h := by simp [init, isMidTake] at h
  counted _ := rfl

/-- A move of one thread that neither drains nor resets nor pushes, and with which no push gets
the items between a drain and a reset. -/
theorem exact_move {next : DiagnosticWorld T} (h : Exact w)
    (howned : Owned next.itemsLock next.point) (hitems : next.items = w.items)
    (hbytes : next.bytes = w.bytes)
    (hpoint : next.point = fun u => if u = t then p else w.point u)
    (hmid : isMidTake p = isMidTake (w.point t))
    (hpush : isPushing p = true → isPushing (w.point t) = true ∨
      ∀ u, isMidTake (w.point u) = false) : Exact next := by
  have hsame : ∀ u, isMidTake (next.point u) = isMidTake (w.point u) := by
    intro u
    rw [hpoint]
    dsimp only
    split
    · rename_i hu
      rw [hu, hmid]
    · rfl
  refine ⟨howned, ?_, ?_⟩
  · intro u hu
    rw [hsame] at hu
    obtain ⟨hnil, hnone⟩ := h.drained u hu
    refine ⟨hitems.trans hnil, ?_⟩
    intro v
    rw [hpoint]
    dsimp only
    split
    · by_contra hp
      rw [Bool.not_eq_false] at hp
      rcases hpush hp with hbefore | hfree
      · rw [hnone t] at hbefore
        cases hbefore
      · rw [hfree u] at hu
        cases hu
    · exact hnone v
  · intro hfree
    rw [hitems, hbytes]
    exact h.counted fun u => (hsame u).symm.trans (hfree u)

theorem exact_advance (h : Exact w) (hstored : w.Stored)
    (hguard : Undisturbed w (.advance t)) : Exact (w.advance t) := by
  have howned := owned_advance (t := t) h.owned
  unfold advance at howned ⊢
  cases hpoint : w.point t with
  | idle => exact h
  | pushing d =>
      rw [hpoint] at howned
      dsimp only at howned ⊢
      by_cases hfree : w.itemsLock = none
      · rw [if_pos hfree] at howned ⊢
        exact exact_move h howned rfl rfl rfl (by rw [hpoint]; rfl)
          fun _ => .inr (hguard d hpoint hfree)
      · rw [if_neg hfree]
        exact h
  | pushingItems d =>
      rw [hpoint] at howned
      dsimp only at howned ⊢
      by_cases hfree : w.bytesLock = none
      · rw [if_pos hfree] at howned ⊢
        exact exact_move h howned rfl rfl rfl (by rw [hpoint]; rfl)
          fun _ => .inl (by rw [hpoint]; rfl)
      · rw [if_neg hfree]
        exact h
  | pushingBoth d =>
      rw [hpoint] at howned
      dsimp only at howned ⊢
      -- this push has the items, so no take is between its drain and its reset
      have hnone : ∀ u, isMidTake (w.point u) = false := by
        intro u
        rw [← Bool.not_eq_true]
        intro hu
        have hidle := (h.drained u hu).2 t
        rw [hpoint] at hidle
        cases hidle
      have hbounded : Bounded w.items := by
        refine ⟨hstored.1, ?_⟩
        rw [totalBytes_eq hstored.2]
        exact hstored.small
      obtain ⟨_, _, kept, -, hpush, -⟩ := pushDiagnostic_spec d hbounded
      rw [← h.counted hnone] at hpush
      rw [hpush] at howned ⊢
      refine ⟨howned, ?_, fun _ => rfl⟩
      intro u hu
      change isMidTake (if u = t then .pushed else w.point u) = true at hu
      split at hu
      · cases hu
      · rw [hnone u] at hu
        cases hu
  | pushed =>
      rw [hpoint] at howned
      dsimp only at howned ⊢
      exact exact_move h howned rfl rfl rfl (by rw [hpoint]; rfl)
        fun _ => .inl (by rw [hpoint]; rfl)
  | pushedItems =>
      rw [hpoint] at howned
      dsimp only at howned ⊢
      exact exact_move h howned rfl rfl rfl (by rw [hpoint]; rfl) fun hp => nomatch hp
  | taking =>
      rw [hpoint] at howned
      dsimp only at howned ⊢
      by_cases hfree : w.itemsLock = none
      · rw [if_pos hfree] at howned ⊢
        exact exact_move h howned rfl rfl rfl (by rw [hpoint]; rfl) fun hp => nomatch hp
      · rw [if_neg hfree]
        exact h
  | takingItems =>
      rw [hpoint] at howned
      dsimp only at howned ⊢
      refine ⟨howned, fun _ _ => ⟨rfl, ?_⟩, ?_⟩
      · -- this take has the items, so no push has them
        intro u
        change isPushing (if u = t then .drained else w.point u) = false
        split
        · rfl
        · rename_i hne
          rw [← Bool.not_eq_true]
          intro hpushing
          have hhas : hasItems (w.point u) = true := by
            revert hpushing
            cases w.point u <;> intro hpushing <;> first | rfl | cases hpushing
          have hmine := (h.owned t).mp (by rw [hpoint]; rfl)
          rw [(h.owned u).mp hhas] at hmine
          exact hne (Option.some.inj hmine)
      · intro hfree
        have hself := hfree t
        change isMidTake (if t = t then .drained else w.point t) = false at hself
        rw [if_pos rfl] at hself
        cases hself
  | drained =>
      rw [hpoint] at howned
      dsimp only at howned ⊢
      exact exact_move h howned rfl rfl rfl (by rw [hpoint]; rfl) fun hp => nomatch hp
  | between =>
      rw [hpoint] at howned
      dsimp only at howned ⊢
      by_cases hfree : w.bytesLock = none
      · rw [if_pos hfree] at howned ⊢
        exact exact_move h howned rfl rfl rfl (by rw [hpoint]; rfl) fun hp => nomatch hp
      · rw [if_neg hfree]
        exact h
  | resetting =>
      rw [hpoint] at howned
      dsimp only at howned ⊢
      obtain ⟨hnil, hnone⟩ := h.drained t (by rw [hpoint]; rfl)
      refine ⟨howned, fun _ _ => ⟨hnil, ?_⟩, fun _ => ?_⟩
      · intro u
        change isPushing (if u = t then .reset else w.point u) = false
        split
        · rfl
        · exact hnone u
      · change 0 = totalBytes w.items
        rw [hnil]
        rfl
  | reset =>
      rw [hpoint] at howned
      dsimp only at howned ⊢
      exact exact_move h howned rfl rfl rfl (by rw [hpoint]; rfl) fun hp => nomatch hp

theorem exact_step (h : Exact w) (hstored : w.Stored) {label : Label T}
    (hguard : Undisturbed w label) : Exact (w.step label) := by
  cases label with
  | start t call =>
      have howned := owned_step h.owned (.start t call)
      unfold step at howned ⊢
      dsimp only at howned ⊢
      split at howned
      · rename_i hpoint
        exact exact_move h howned rfl rfl rfl (by rw [hpoint]; rfl) fun hp => nomatch hp
      · rename_i hpoint
        exact exact_move h howned rfl rfl rfl (by rw [hpoint]; rfl) fun hp => nomatch hp
      · exact h
  | advance t => exact exact_advance h hstored hguard

theorem exact_reachable (h : (machine T).Reachable Undisturbed w) : Exact w := by
  refine h.invariant exact_init ?_
  intro w label hreach hexact hguard
  have hfree : (machine T).Reachable Machine.Free w := hreach.mono fun _ _ _ => trivial
  exact exact_step hexact (stored_reachable hfree) hguard

end DiagnosticWorld

open DiagnosticWorld

/-- **The byte counter.** In every run in which no push gets the items between the drain and
the reset of some take, the counter is the sum of the stored items' bytes whenever no call is
in progress. The stored items are at most 1 MiB in every run. -/
theorem byte_counter_undisturbed (T : Type) [DecidableEq T] :
    (∀ w : DiagnosticWorld T, (machine T).Reachable Undisturbed w → w.Quiet →
      w.bytes = totalBytes w.items ∧ totalBytes w.items ≤ 1024 * 1024) ∧
    ∀ w : DiagnosticWorld T, (machine T).Reachable Machine.Free w →
      totalBytes w.items ≤ 1024 * 1024 := by
  have hsmall : ∀ w : DiagnosticWorld T, (machine T).Reachable Machine.Free w →
      totalBytes w.items ≤ 1024 * 1024 := by
    intro w hreach
    have hstored := stored_reachable hreach
    rw [totalBytes_eq hstored.2]
    exact hstored.small
  refine ⟨?_, hsmall⟩
  intro w hreach hquiet
  have hfree : (machine T).Reachable Machine.Free w := hreach.mono fun _ _ _ => trivial
  refine ⟨(exact_reachable hreach).counted ?_, hsmall w hfree⟩
  intro t
  rw [hquiet t]
  rfl

/-- A warning that is not cut. -/
def shortWarning : Diagnostic where
  method := "warning"
  message := "disk"

/-- One thread pushes, and starts again while the other, which has waited for the items, takes:
the second push gets the items behind the reset. -/
def pushAroundTake : List (Label Bool) :=
  [.start false (.push shortWarning), .start true .take, .advance false, .advance true,
    .advance false, .advance false, .advance false, .advance false, .advance true, .advance true,
    .start false (.push shortWarning), .advance false, .advance true, .advance true, .advance true,
    .advance false, .advance true, .advance false, .advance false, .advance false, .advance false]

theorem byte_counter_undisturbed_push :
    ((machine Bool).run pushAroundTake).Quiet ∧
      ((machine Bool).run pushAroundTake).bytes =
        totalBytes ((machine Bool).run pushAroundTake).items ∧
      totalBytes ((machine Bool).run pushAroundTake).items ≤ 1024 * 1024 := by
  have hreach : (machine Bool).Reachable Undisturbed ((machine Bool).run pushAroundTake) := by
    refine Machine.reachable_init.respects ?_
    refine ⟨trivial, trivial, ?_, ?_, ?_, ?_, ?_, ?_, ?_, ?_, trivial, ?_, ?_, ?_, ?_, ?_, ?_, ?_, ?_,
      ?_, ?_, trivial⟩
    -- the first push, and the second behind the reset
    case refine_1 => exact fun _ _ _ u => by cases u <;> rfl
    case refine_13 => exact fun _ _ _ u => by cases u <;> rfl
    -- the second push while the take has the items
    case refine_9 => exact fun _ _ hfree => by cases hfree
    all_goals exact fun _ hpoint => by cases hpoint
  have hquiet : ((machine Bool).run pushAroundTake).Quiet := by
    intro t
    cases t <;> rfl
  exact ⟨hquiet, (byte_counter_undisturbed Bool).1 _ hreach hquiet⟩

/-- One thread takes. Between its two mutexes the other pushes. -/
def pushBetween : List (Label Bool) :=
  [.start true .take, .advance true, .advance true, .advance true,
    .start false (.push shortWarning), .advance false, .advance false, .advance false,
    .advance false, .advance false, .advance true, .advance true, .advance true]

/-- The push's bytes are stored, and not counted. -/
theorem pushBetween_miscounts :
    ¬∀ w : DiagnosticWorld Bool, (machine Bool).Reachable Machine.Free w → w.Quiet →
      w.bytes = totalBytes w.items := by
  intro h
  have hrun := h _ (Machine.reachable_run pushBetween) (by intro t; cases t <;> rfl)
  change 0 = totalBytes (pushDiagnostic shortWarning [] 0).1 at hrun
  obtain ⟨_, _, kept, -, hpush, -⟩ :=
    pushDiagnostic_spec shortWarning (⟨Nat.zero_le _, Nat.zero_le _⟩ : Bounded [])
  have hwhole : boundDiagnostic shortWarning = shortWarning := boundDiagnostic_of_le (by decide)
  have hbytes : diagnosticBytes shortWarning = 11 := by decide
  rw [totalBytes_nil] at hpush
  rw [hpush, hwhole, totalBytes_append, totalBytes_cons, hbytes] at hrun
  omega

end Vergerail
