import Vergerail.Client.Start
import Vergerail.Proof.RouteOps

/-!
# What a failed start leaves behind

A start that was refused before it registered its run leaves the session as it found it.
Once the run is registered, every failure leaves the route in the map: a failed request
marks it `TerminalBeforeStart`, and only the cancel task that the dropped guard spawns
takes it out. The session's `active` flag is already down by then, so until that task has
run the thread is refused as busy with no run on it.

The invariant follows the route of the start under way while the connection lasts: it is
in the map, without a turn of its own, unless a cancel task took it, and then the thread
is idle. Nobody else takes it out, because nothing but a cancellation, a disconnect or an
acknowledgement removes a route that owns no turn.
-/

namespace Vergerail

open Lib

namespace RunPhase

/-- No provider turn belongs to the route yet: it starts, or it ended before. -/
def isUnowned : RunPhase → Bool
  | starting _ => true
  | replaying _ _ => false
  | active _ => false
  | terminalBeforeStart _ => true

theorem setDeferred_isUnowned (self : RunPhase) (queue : List DeferredRunNotification) :
    (self.setDeferred queue).isUnowned = self.isUnowned := by cases self <;> rfl

/-- An ended route owns no turn that could still run. -/
theorem isUnowned_of_isTerminal {self : RunPhase} (h : self.isTerminal = true) :
    self.isUnowned = true := by
  cases self with
  | terminalBeforeStart _ => rfl
  | _ => simp [isTerminal] at h

end RunPhase

namespace RunSlot

/-- No run is registered on the thread and none is active. -/
def Vacated (slot : RunSlot) : Prop := slot.contains = false ∧ slot.active = false

/-- The map holds a route without a turn of its own, ended if `ended` says so. -/
def Unowned (ended : Bool) (slot : RunSlot) : Prop :=
  ∃ route, slot.route = some route ∧ route.phase.isUnowned = true
    ∧ (ended = true → route.phase.isTerminal = true)

/-- What nobody outside the start does to its route. -/
structure Spares (slot slot' : RunSlot) : Prop where
  vacated : slot.Vacated → slot'.Vacated
  unowned : ∀ ended, slot.Unowned ended → slot'.Unowned ended

theorem spares_refl (slot : RunSlot) : slot.Spares slot := ⟨id, fun _ => id⟩

variable {slot : RunSlot}

theorem Vacated.route (h : slot.Vacated) : slot.route = none := by
  simpa [contains] using h.1

/-- Rewriting a route up to its queue spares it. -/
theorem spares_store {route route' : RunRoute} (hroute : slot.route = some route)
    (hunowned : route'.phase.isUnowned = route.phase.isUnowned)
    (hended : route'.phase.isTerminal = route.phase.isTerminal) (shared : RunShared) :
    slot.Spares (slot.store route' shared) where
  vacated h := by
    rw [h.route] at hroute
    simp at hroute
  unowned ended h := by
    obtain ⟨found, hfound, hun, hend⟩ := h
    have heq : route = found := by
      rw [hroute] at hfound
      exact Option.some.inj hfound
    subst heq
    exact ⟨route', rfl, by rw [hunowned]; exact hun, fun he => by rw [hended]; exact hend he⟩

theorem spares_routeEvent (slot : RunSlot) (observed : Option String) (sourceMethod : String)
    (event : Event) (defer : Bool) (cap : Nat) :
    slot.Spares (slot.routeEvent observed sourceMethod event defer cap).2 := by
  rcases hroute : slot.route with _ | route
  · rw [routeEvent_of_none hroute]
    exact spares_refl slot
  · obtain ⟨outcome, route', shared', heq, hspec⟩ :=
      routeEvent_of_route hroute observed sourceMethod event defer cap
    rw [heq]
    rcases hspec.kept (RunPhase.deferred_of_ite defer) with
      ⟨rfl, rfl⟩ | ⟨_, _, _, ⟨queue, hphase⟩, _, _⟩
    · exact spares_store hroute rfl rfl _
    · refine spares_store hroute ?_ ?_ _
      · rw [hphase, RunPhase.setDeferred_isUnowned]
      · rw [hphase, RunPhase.setDeferred_isTerminal]

/-- A terminal for a route without a turn ends it, and leaves it in the map. -/
theorem spares_routeTerminal (slot : RunSlot) (completion : TurnCompletion) (params : Json)
    (defer : Bool) (cap : Nat) :
    slot.Spares (slot.routeTerminal completion params defer cap).2 := by
  rcases hroute : slot.route with _ | route
  · rw [routeTerminal_of_none hroute]
    exact spares_refl slot
  · have hspec := routeTerminal_of_route hroute completion params defer cap
    generalize slot.routeTerminal completion params defer cap = routed at hspec
    obtain ⟨outcome, slot'⟩ := routed
    dsimp only at hspec ⊢
    cases hspec with
    | deferred _ _ =>
        exact spares_store hroute (RunPhase.setDeferred_isUnowned ..)
          (RunPhase.setDeferred_isTerminal ..) _
    | duplicate _ => exact spares_refl slot
    | mismatch _ _ _ => exact spares_refl slot
    | mismatchFull _ _ _ _ =>
        exact spares_store hroute (RunPhase.setDeferred_isUnowned ..)
          (RunPhase.setDeferred_isTerminal ..) _
    | completed hlive _ _ =>
        refine ⟨fun hv => ?_, fun ended hun => ?_⟩
        · rw [hv.route] at hroute
          simp at hroute
        · obtain ⟨found, hfound, hunowned, _⟩ := hun
          rw [hroute] at hfound
          cases hfound
          unfold publishTerminal
          cases hphase : route.phase with
          | starting _ => exact ⟨_, rfl, rfl, fun _ => rfl⟩
          | terminalBeforeStart _ => rw [hphase] at hlive; simp [RunPhase.isTerminal] at hlive
          | replaying _ _ => rw [hphase] at hunowned; simp [RunPhase.isUnowned] at hunowned
          | active _ => rw [hphase] at hunowned; simp [RunPhase.isUnowned] at hunowned

theorem spares_failActive (slot : RunSlot) (turnId : String) (control : Nat) (error : Error) :
    slot.Spares (slot.failActive turnId control error).2 := by
  unfold failActive
  rcases hroute : slot.route with _ | route
  · exact spares_refl slot
  · dsimp only
    split
    · exact spares_refl slot
    · refine spares_store hroute ?_ ?_ _
      · rfl
      · rfl

theorem spares_abandon (slot : RunSlot) (run : Nat) : slot.Spares (slot.apply (.abandon run)) :=
  ⟨id, fun _ => id⟩

/-! ## The operations of the start and of its cancel task -/

/-- A cancel task leaves an idle thread idle, and makes one out of an unowned route. -/
theorem cancelRegistered_vacated (h : slot.Vacated ∨ ∃ ended, slot.Unowned ended) :
    slot.cancelRegistered.2.Vacated := by
  unfold cancelRegistered
  rcases h with hv | ⟨_, route, hroute, hunowned, _⟩
  · rw [hv.route]
    exact hv
  · rw [hroute]
    dsimp only
    split
    · exact ⟨rfl, rfl⟩
    · rename_i hlive
      cases hphase : route.phase with
      | starting _ => exact ⟨rfl, rfl⟩
      | terminalBeforeStart _ => rw [hphase] at hlive; simp [RunPhase.isTerminal] at hlive
      | replaying _ _ => rw [hphase] at hunowned; simp [RunPhase.isUnowned] at hunowned
      | active _ => rw [hphase] at hunowned; simp [RunPhase.isUnowned] at hunowned

/-- A failed request ends an unowned route without a turn and leaves it in the map. -/
theorem failBeforeStart_unowned (h : slot.Unowned false) (error : Error) :
    (slot.failBeforeStart error).1 ≠ .providerTurnOwned
      ∧ (slot.failBeforeStart error).2.Unowned true := by
  obtain ⟨route, hroute, hunowned, _⟩ := h
  unfold failBeforeStart
  rw [hroute]
  dsimp only
  split
  · exact ⟨by simp, _, rfl, rfl, fun _ => rfl⟩
  · rename_i hphase
    exact ⟨by simp, route, hroute, hunowned, fun _ => by rw [hphase]; rfl⟩
  · rename_i hphase
    rw [hphase] at hunowned
    simp [RunPhase.isUnowned] at hunowned
  · rename_i hphase
    rw [hphase] at hunowned
    simp [RunPhase.isUnowned] at hunowned

theorem failBeforeStart_vacated (h : slot.Vacated) (error : Error) :
    slot.failBeforeStart error = (.ignored, slot) := by
  unfold failBeforeStart
  rw [h.route]

/-- Claiming the thread succeeds exactly when no run is on it. -/
theorem startRun_ok_iff (slot : RunSlot) (cap bytes : Nat) :
    (∃ run slot', slot.startRun cap bytes = (.ok run, slot')) ↔ slot.Vacated := by
  unfold startRun register Vacated contains
  rcases slot.active <;> rcases slot.route <;> simp

/-- A claim that succeeds puts an unowned route into the map. -/
theorem startRun_unowned {cap bytes run : Nat} {slot' : RunSlot}
    (h : slot.startRun cap bytes = (.ok run, slot')) : slot'.Unowned false := by
  have hv := (startRun_ok_iff slot cap bytes).mp ⟨run, slot', h⟩
  unfold startRun register at h
  rw [hv.2, hv.route] at h
  cases h
  exact ⟨_, rfl, rfl, fun he => by simp at he⟩

/-- A refused claim finds the thread busy and leaves it busy. -/
theorem startRun_error {cap bytes : Nat} {error : Error} {slot' : RunSlot}
    (h : slot.startRun cap bytes = (.error error, slot')) : ¬ slot.Vacated ∧ ¬ slot'.Vacated := by
  have hbusy : ¬ slot.Vacated := by
    rw [← startRun_ok_iff slot cap bytes]
    rintro ⟨run, slot'', hok⟩
    rw [hok] at h
    simp at h
  refine ⟨hbusy, ?_⟩
  unfold startRun at h
  split at h
  · rename_i hactive
    cases h
    exact hbusy
  · rename_i hidle
    -- the flag was down, so it is the route in the map that refused
    unfold register at h
    rcases hroute : slot.route with _ | route
    · exact absurd ⟨by rw [contains, hroute]; rfl, by simpa using hidle⟩ hbusy
    · rw [hroute] at h
      cases h
      rintro ⟨hcontains, _⟩
      simp [contains] at hcontains

/-- A close is refused exactly on a busy thread. -/
theorem closeRefusal_none_iff (slot : RunSlot) : slot.closeRefusal = none ↔ slot.Vacated := by
  unfold closeRefusal Vacated
  rcases slot.active <;> rcases slot.contains <;> simp

end RunSlot

/-! ## The start under way -/

namespace SessionWorld

/-- While the connection lasts, the route of the start under way is in the map, unless a
cancel task took it and left the thread idle. -/
structure StartHolds (w : SessionWorld) : Prop where
  requesting : w.call = .requesting →
    if w.cancelled then w.slot.Vacated else w.slot.Unowned false
  leaving : ∀ error, w.call = .leaving error →
    if w.cancelled then w.slot.Vacated else w.slot.Unowned true

/-- The invariant speaks about a connection that is up. -/
def StartInv (w : SessionWorld) : Prop := w.failure = none → w.StartHolds

variable {env : SessionEnv} {w : SessionWorld}

theorem startInv_init (env : SessionEnv) : StartInv (init env) :=
  fun _ => ⟨fun h => by simp [init] at h, fun _ h => by simp [init] at h⟩

/-- A start that does not hold the locks holds nothing. -/
theorem startHolds_of_call {w : SessionWorld} (hreq : w.call ≠ .requesting)
    (hleave : ∀ error, w.call ≠ .leaving error) : w.StartHolds :=
  ⟨fun h => absurd h hreq, fun error h => absurd h (hleave error)⟩

/-- What others do to the route of the start under way keeps the invariant. -/
theorem startInv_spares (h : StartInv w) {slot' : RunSlot} (hs : w.slot.Spares slot') :
    StartInv { w with slot := slot' } := by
  intro hup
  refine ⟨fun hcall => ?_, fun error hcall => ?_⟩
  · have := (h hup).requesting hcall
    split at this
    · rw [if_pos ‹_›]
      exact hs.vacated this
    · rw [if_neg ‹_›]
      exact hs.unowned _ this
  · have := (h hup).leaving error hcall
    split at this
    · rw [if_pos ‹_›]
      exact hs.vacated this
    · rw [if_neg ‹_›]
      exact hs.unowned _ this

theorem startInv_disconnect (h : StartInv w) (error : Error) : StartInv (w.disconnect error) := by
  unfold disconnect
  split
  · exact h
  · intro hup
    simp at hup

/-- A disconnect is noticed. -/
theorem disconnect_failure (w : SessionWorld) (error : Error) :
    (w.disconnect error).failure ≠ none := by
  unfold disconnect
  split
  · rename_i hfailure
    rw [hfailure]
    simp
  · simp

/-- A failed request leaves an ended route, if no cancel task took it before. -/
theorem startInv_requestFailed (h : StartInv w) (hcall : w.call = .requesting) (error : Error) :
    StartInv (fail (w.failRegisteredRunBeforeTurn error) error) := by
  unfold failRegisteredRunBeforeTurn
  intro hup
  have hconnected : w.failure = none := by
    revert hup
    unfold fail
    rcases hfail : w.slot.failBeforeStart error with ⟨transition, slot⟩
    rcases transition
    · exact id
    · exact id
    · intro hup
      exact absurd hup (disconnect_failure _ _)
  have hheld := (h hconnected).requesting hcall
  refine ⟨fun hcall' => by simp [fail] at hcall', fun error' _ => ?_⟩
  split at hheld
  · rename_i hcancelled
    rw [RunSlot.failBeforeStart_vacated hheld]
    show if w.cancelled then w.slot.Vacated else w.slot.Unowned true
    rw [if_pos hcancelled]
    exact hheld
  · rename_i hcancelled
    obtain ⟨hfree, hended⟩ := RunSlot.failBeforeStart_unowned hheld error
    rcases hfail : w.slot.failBeforeStart error with ⟨transition, slot⟩
    rw [hfail] at hfree hended
    rcases transition
    · show if w.cancelled then slot.Vacated else slot.Unowned true
      rw [if_neg hcancelled]
      exact hended
    · show if w.cancelled then slot.Vacated else slot.Unowned true
      rw [if_neg hcancelled]
      exact hended
    · exact absurd rfl hfree

/-- A route that the start under way finds owns no turn. -/
theorem held_isUnowned {route : RunRoute}
    (h : if w.cancelled then w.slot.Vacated else w.slot.Unowned false)
    (hroute : w.slot.route = some route) : route.phase.isUnowned = true := by
  split at h
  · rw [h.route] at hroute
    simp at hroute
  · obtain ⟨found, hfound, hunowned, _⟩ := h
    rw [hroute] at hfound
    rw [Option.some.inj hfound]
    exact hunowned

/-- An acknowledgement fails on a connection that is up only where a cancel task took the
route. -/
theorem startInv_acknowledge (h : StartInv w) (hcall : w.call = .requesting) (turnId : String) :
    StartInv (w.acknowledge turnId).1 := by
  unfold acknowledge
  intro hup
  have hheld : w.failure = none →
      if w.cancelled then w.slot.Vacated else w.slot.Unowned false :=
    fun hconnected => (h hconnected).requesting hcall
  unfold RunSlot.acknowledgeStart at hup ⊢
  rcases hroute : w.slot.route with _ | route
  · rw [hroute] at hup
    refine ⟨fun hcall' => by simp [fail] at hcall', fun error' _ => ?_⟩
    have hvacated := hheld hup
    split at hvacated
    · rename_i hcancelled
      show if w.cancelled then w.slot.Vacated else w.slot.Unowned true
      rw [if_pos hcancelled]
      exact hvacated
    · obtain ⟨route, hfound, _⟩ := hvacated
      rw [hroute] at hfound
      simp at hfound
  · rw [hroute] at hup
    dsimp only at hup ⊢
    cases hphase : route.phase with
    | starting _ => exact startHolds_of_call (by simp) (by simp)
    | terminalBeforeStart ended =>
        rcases ended with _ | expected
        · exact startHolds_of_call (by simp) (by simp)
        · dsimp only
          rw [hphase] at hup
          dsimp only at hup
          by_cases hne : expected ≠ turnId
          · rw [if_pos hne] at hup
            exact absurd hup (disconnect_failure _ _)
          · rw [if_neg hne]
            exact startHolds_of_call (by simp) (by simp)
    | replaying _ _ =>
        rw [hphase] at hup
        have hunowned := held_isUnowned (hheld hup) hroute
        rw [hphase] at hunowned
        simp [RunPhase.isUnowned] at hunowned
    | active _ =>
        rw [hphase] at hup
        have hunowned := held_isUnowned (hheld hup) hroute
        rw [hphase] at hunowned
        simp [RunPhase.isUnowned] at hunowned

theorem startInv_answer (h : StartInv w) (response : Result Json) :
    StartInv (w.answer response).1 := by
  unfold answer
  cases hcall : w.call with
  | none => exact h
  | replaying _ _ => exact h
  | leaving _ => exact h
  | requesting =>
      dsimp only
      rcases response with error | response
      · exact startInv_requestFailed h hcall error
      · dsimp only
        split
        · intro hup
          exact absurd hup (disconnect_failure _ _)
        · exact startInv_acknowledge h hcall _

theorem startInv_start (h : StartInv w) (inputs : List TurnInput) :
    StartInv (w.start env inputs).1 := by
  unfold start
  split
  · exact h
  · cases hcall : w.call with
    | requesting => exact h
    | replaying _ _ => exact h
    | leaving _ => exact h
    | none =>
        dsimp only
        split
        · exact h
        · split
          · intro _
            exact startHolds_of_call (by simp) (by simp)
          · rename_i hclaimed
            intro _
            refine ⟨fun _ => ?_, fun _ hcall' => by simp at hcall'⟩
            exact RunSlot.startRun_unowned hclaimed

theorem startInv_replay (h : StartInv w) : StartInv (w.replay env).1 := by
  unfold replay
  cases hcall : w.call with
  | none => exact h
  | requesting => exact h
  | leaving _ => exact h
  | replaying turnId batch =>
      dsimp only
      intro _
      rcases batch with _ | ⟨notification, batch⟩
      · dsimp only
        split <;> exact startHolds_of_call (by simp) (by simp)
      · rcases notification with ⟨observed, sourceMethod, event⟩ | params
        · exact startHolds_of_call (by simp) (by simp)
        · dsimp only
          split <;> exact startHolds_of_call (by simp) (by simp)

/-- A cancel task takes the route of the start under way, whoever spawned it. -/
theorem startInv_cancelTask (h : StartInv w) :
    StartInv (w.act env .cancelTask).1 := by
  unfold act
  dsimp only
  split
  · exact h
  · intro hup
    have hvacated : ∀ ended, (if w.cancelled then w.slot.Vacated else w.slot.Unowned ended) →
        w.slot.cancelRegistered.2.Vacated := by
      intro ended hheld
      split at hheld
      · exact RunSlot.cancelRegistered_vacated (Or.inl hheld)
      · exact RunSlot.cancelRegistered_vacated (Or.inr ⟨ended, hheld⟩)
    exact ⟨fun hcall => hvacated false ((h hup).requesting hcall),
      fun error hcall => hvacated true ((h hup).leaving error hcall)⟩

theorem startInv_step (h : StartInv w) (label : SessionLabel) : StartInv (w.act env label).1 := by
  cases label with
  | start inputs => exact startInv_start h inputs
  | answer response => exact startInv_answer h response
  | replay => exact startInv_replay h
  | leave =>
      unfold act
      dsimp only
      split
      · exact fun _ => startHolds_of_call (by simp) (by simp)
      · exact h
  | dropCall =>
      unfold act
      dsimp only
      split
      · exact fun _ => startHolds_of_call (by simp) (by simp)
      · exact fun _ => startHolds_of_call (by simp) (by simp)
      · exact h
  | cancelTask => exact startInv_cancelTask h
  | routeEvent observed sourceMethod event =>
      exact startInv_spares h (RunSlot.spares_routeEvent _ observed sourceMethod event true _)
  | routeTerminal completion params =>
      exact startInv_spares h (RunSlot.spares_routeTerminal _ completion params true _)
  | failActive turnId control error =>
      exact startInv_spares h (RunSlot.spares_failActive _ turnId control error)
  | abandon run => exact startInv_spares h (RunSlot.spares_abandon _ run)
  | disconnect error => exact startInv_disconnect h error
  | close response =>
      unfold act close
      dsimp only
      split
      · split
        · intro hup
          have := h hup
          exact ⟨this.requesting, this.leaving⟩
        · exact h
      · exact h

theorem startInv_reachable (h : (sessionMachine env).Reachable Machine.Free w) : StartInv w := by
  refine h.invariant (startInv_init env) ?_
  intro w label _ hw _
  exact startInv_step hw label

/-! ## Every failed start -/

/-- The session as a start finds it that may claim it: nothing is registered, nothing
active, and neither a start nor a close is refused for a run. -/
structure LeavesIdle (env : SessionEnv) (w : SessionWorld) : Prop where
  contains : w.slot.contains = false
  active : w.slot.active = false
  start : ∃ run slot', w.slot.startRun env.eventCapacity env.maximumOutputBytes = (.ok run, slot')
  close : w.slot.closeRefusal = none

theorem leavesIdle_iff (env : SessionEnv) (w : SessionWorld) :
    LeavesIdle env w ↔ w.slot.Vacated := by
  constructor
  · intro h
    exact ⟨h.contains, h.active⟩
  · intro h
    exact ⟨h.1, h.2, (RunSlot.startRun_ok_iff ..).mpr h, (RunSlot.closeRefusal_none_iff _).mpr h⟩

/-- The start is refused before it registers a run, on an idle thread. -/
def RefusedIdle (w : SessionWorld) (label : SessionLabel) : Prop :=
  (∃ inputs, label = .start inputs) ∧ w.slot.contains = false ∧ w.slot.active = false

/-- A cancel task ran between the registration of the start's run and its return. -/
def CancelledMeanwhile (w : SessionWorld) (label : SessionLabel) : Prop :=
  label = .leave ∧ w.cancelled = true

/-- A start that returns an error at once leaves an idle thread idle, and no other. -/
theorem start_error_vacated {inputs : List TurnInput} {error : Error}
    (hret : (w.start env inputs).2 = some (.error error)) :
    (w.start env inputs).1.slot.Vacated ↔ w.slot.Vacated := by
  unfold start at hret ⊢
  split
  · rfl
  · rename_i hvalid
    rw [hvalid] at hret
    dsimp only at hret
    cases hcall : w.call with
    | requesting => rfl
    | replaying _ _ => rfl
    | leaving _ => rfl
    | none =>
        rw [hcall] at hret
        dsimp only at hret ⊢
        split
        · rfl
        · rename_i hopen
          rw [if_neg hopen] at hret
          split
          · rename_i hrefused
            exact iff_of_false (RunSlot.startRun_error hrefused).2
              (RunSlot.startRun_error hrefused).1
          · rename_i hclaimed
            rw [hclaimed] at hret
            simp at hret

theorem acknowledge_ok {turnId : String} {result : Result String}
    (hret : (w.acknowledge turnId).2 = some result) : result = .ok turnId := by
  unfold acknowledge at hret
  split at hret
  · simp at hret
  · exact (Option.some.inj hret).symm
  · simp at hret
  · simp at hret
  · simp at hret

theorem replay_ok {result : Result String} (hret : (w.replay env).2 = some result) :
    ∃ turnId, result = .ok turnId := by
  unfold replay at hret
  split at hret
  · simp at hret
  · split at hret <;> simp at hret
  · split at hret
    · simp at hret
    · exact ⟨_, (Option.some.inj hret).symm⟩
  · simp at hret

/-- A start returns an error when it is refused, or when it leaves after it failed. -/
theorem error_returned {label : SessionLabel} {error : Error}
    (hret : (w.act env label).2 = some (.error error)) :
    (∃ inputs, label = .start inputs) ∨ (label = .leave ∧ w.call = .leaving error) := by
  cases label with
  | start inputs => exact Or.inl ⟨inputs, rfl⟩
  | leave =>
      unfold act at hret
      dsimp only at hret
      split at hret
      · rename_i failed hcall
        cases hret
        exact Or.inr ⟨rfl, hcall⟩
      · simp at hret
  | answer response =>
      unfold act answer at hret
      dsimp only at hret
      split at hret
      · split at hret
        · simp at hret
        · split at hret
          · simp at hret
          · have := acknowledge_ok hret
            simp at this
      · simp at hret
  | replay =>
      obtain ⟨turnId, hok⟩ := replay_ok hret
      simp at hok
  | dropCall =>
      unfold act at hret
      dsimp only at hret
      split at hret <;> simp at hret
  | cancelTask =>
      unfold act at hret
      dsimp only at hret
      split at hret <;> simp at hret
  | routeEvent _ _ _ => simp [act] at hret
  | routeTerminal _ _ => simp [act] at hret
  | failActive _ _ _ => simp [act] at hret
  | abandon _ => simp [act] at hret
  | disconnect _ => simp [act] at hret
  | close _ => simp [act] at hret

/--
**When a failed start leaves the session idle.**

For every start that returns an error over a connection that is still up: no route is
registered and no run is active when it returns, so that neither a start nor a close is
refused for one, if and only if the start was refused on an idle thread before it
registered a run, or a cancel task ran after the registration and before the return.
-/
theorem failed_start_leaves_idle_iff (hw : (sessionMachine env).Reachable Machine.Free w)
    {label : SessionLabel} {error : Error} (hret : (w.act env label).2 = some (.error error))
    (hup : (w.act env label).1.failure = none) :
    LeavesIdle env (w.act env label).1 ↔ RefusedIdle w label ∨ CancelledMeanwhile w label := by
  rw [leavesIdle_iff]
  rcases error_returned hret with ⟨inputs, rfl⟩ | ⟨rfl, hcall⟩
  · have hiff : (w.start env inputs).1.slot.Vacated ↔ w.slot.Vacated := start_error_vacated hret
    constructor
    · intro h
      exact Or.inl ⟨⟨inputs, rfl⟩, hiff.mp h⟩
    · rintro (⟨_, hv⟩ | ⟨hlabel, _⟩)
      · exact hiff.mpr hv
      · simp at hlabel
  · have hact : (w.act env .leave).1 = { w with call := .none } := by
      unfold act
      rw [hcall]
    rw [hact] at hup ⊢
    have hheld := (startInv_reachable hw hup).leaving error hcall
    constructor
    · intro h
      refine Or.inr ⟨rfl, ?_⟩
      by_contra hcancelled
      rw [if_neg hcancelled] at hheld
      -- the ended route is still in the map
      obtain ⟨route, hroute, _⟩ := hheld
      have hnone : w.slot.route = none := RunSlot.Vacated.route h
      rw [hnone] at hroute
      simp at hroute
    · rintro (⟨⟨inputs, hlabel⟩, _⟩ | ⟨_, hcancelled⟩)
      · simp at hlabel
      · rw [if_pos hcancelled] at hheld
        exact hheld

/-- A session whose host and provider agree to everything, for runs on fixed inputs. -/
def lenient : SessionEnv :=
  { RunEnv.tight with
    inspect := fun _ => .ok ()
    validateUnsubscribe := fun _ => .ok () }

/-- The provider refuses the turn. -/
def promptRejected : Error := Error.rpc "turn.start" (-32602) "invalid prompt"

/-- A start whose request was refused and whose guard's cancel task ran at once. -/
theorem failed_start_leaves_idle_cancelled :
    LeavesIdle lenient (((sessionMachine lenient).run
      [.start [.text "go"], .answer (.error promptRejected), .cancelTask]).act lenient .leave).1 := by
  have hret : (((sessionMachine lenient).run
      [.start [.text "go"], .answer (.error promptRejected), .cancelTask]).act lenient .leave).2
        = some (.error promptRejected) := by decide
  exact (failed_start_leaves_idle_iff (Machine.reachable_run _) hret (by decide)).mpr
    (Or.inr ⟨rfl, by decide⟩)

/-- A start on a fresh session whose request the provider refuses returns before its
guard's cancel task runs: the connection is up, the route is still registered, and both
the next start and a close are refused for a run that does not exist. -/
theorem failed_start_leaves_route :
    let w := (sessionMachine lenient).run
      [.start [.text "go"], .answer (.error promptRejected)]
    (w.act lenient .leave).2 = some (.error promptRejected)
      ∧ (w.act lenient .leave).1.failure = none
      ∧ (w.act lenient .leave).1.slot.active = false
      ∧ (w.act lenient .leave).1.slot.contains = true
      ∧ ((w.act lenient .leave).1.start lenient [.text "again"]).2
        = some (.error (Error.new .invalidInput "turn.start"
            "session already has an active run"))
      ∧ (w.act lenient .leave).1.slot.closeRefusal
        = some (Error.new .invalidInput "thread.unsubscribe"
            "cannot unsubscribe a thread with an active run") := by
  decide

end SessionWorld

end Vergerail
