import Vergerail.Client.Disconnect
import Vergerail.Proof.FailedStart
import Vergerail.Proof.Terminal

/-!
# Runs that are answered

A run with a handle had its turn acknowledged, so its route is in the map until it is
published (`Answers`): no operation takes a terminal back, and none takes out the route of
an acknowledged turn without one. A thread whose route has no turn (`Turnless`) gets none
but by its own start.
-/

namespace Vergerail

open Lib

/-! ## What an operation does for a run -/

namespace RunSlot

/-- The run has its terminal, or nobody listens for it. -/
def Settled (slot : RunSlot) (n : Nat) : Prop :=
  (slot.cells n).terminal.value.isSome = true ∨ (slot.cells n).terminal.receivers = 0

/-- The run's turn is acknowledged and its route is in the map. -/
def Turned (slot : RunSlot) (n : Nat) : Prop :=
  ∃ route, slot.route = some route ∧ route.run = n ∧ route.phase.isUnowned = false

/-- What a handle relies on: its run has its terminal, or is still to get it. -/
def Answered (slot : RunSlot) (n : Nat) : Prop := slot.Settled n ∨ slot.Turned n

/-- No operation takes a terminal back, or a turn's route out without a terminal. -/
structure Answers (slot slot' : RunSlot) : Prop where
  registered : slot'.registered = slot.registered
  settled : ∀ n, slot.Settled n → slot'.Settled n
  turned : ∀ n, slot.Turned n → slot'.Answered n

theorem answers_refl (slot : RunSlot) : slot.Answers slot :=
  ⟨rfl, fun _ h => h, fun _ h => .inr h⟩

theorem Answers.answered {slot slot' : RunSlot} (h : slot.Answers slot') {n : Nat}
    (hn : slot.Answered n) : slot'.Answered n := by
  rcases hn with hn | hn
  · exact .inl (h.settled n hn)
  · exact h.turned n hn

/-- What a cell has of a terminal. -/
def CellSettled (shared : RunShared) : Prop :=
  shared.terminal.value.isSome = true ∨ shared.terminal.receivers = 0

theorem cellSettled_publish (shared : RunShared) (result : Result RunResult) :
    CellSettled (shared.publish result) := by
  unfold CellSettled RunShared.publish Watch.send
  split_ifs with h
  · exact .inr h
  · exact .inl rfl

theorem settled_update {slot slot' : RunSlot} {run : Nat} {shared : RunShared}
    (hcells : slot'.cells = Function.update slot.cells run shared)
    (hshared : CellSettled (slot.cells run) → CellSettled shared) {n : Nat}
    (h : slot.Settled n) : slot'.Settled n := by
  unfold Settled
  rw [hcells]
  by_cases hn : n = run
  · subst hn
    rw [Function.update_self]
    exact hshared h
  · rw [Function.update_of_ne hn]
    exact h

variable {slot : RunSlot} {route : RunRoute}

/-- Writing the route back, a turn it has included. -/
theorem answers_store {route' : RunRoute} {shared : RunShared} (hroute : slot.route = some route)
    (hrun : route'.run = route.run)
    (howned : route.phase.isUnowned = false → route'.phase.isUnowned = false)
    (hshared : CellSettled (slot.cells route.run) → CellSettled shared) :
    slot.Answers (slot.store route' shared) where
  registered := rfl
  settled _ h := settled_update (by unfold store; rw [hrun]) hshared h
  turned n h := by
    obtain ⟨found, hfound, hn, hun⟩ := h
    rw [hroute] at hfound
    cases hfound
    exact .inr ⟨route', rfl, hrun.trans hn, howned hun⟩

/-- The route ends with a terminal in its cell. -/
theorem answers_settle {slot' : RunSlot} {shared : RunShared} (hroute : slot.route = some route)
    (hreg : slot'.registered = slot.registered)
    (hcells : slot'.cells = Function.update slot.cells route.run shared)
    (hshared : CellSettled shared) : slot.Answers slot' where
  registered := hreg
  settled _ h := settled_update hcells (fun _ => hshared) h
  turned n h := by
    obtain ⟨found, hfound, hn, -⟩ := h
    rw [hroute] at hfound
    cases hfound
    refine .inl ?_
    unfold Settled
    rw [hcells, ← hn, Function.update_self]
    exact hshared

/-- A route without a turn goes. -/
theorem answers_unowned {slot' : RunSlot} {shared : RunShared} (hroute : slot.route = some route)
    (hunowned : route.phase.isUnowned = true) (hreg : slot'.registered = slot.registered)
    (hcells : slot'.cells = Function.update slot.cells route.run shared)
    (hshared : CellSettled (slot.cells route.run) → CellSettled shared) : slot.Answers slot' where
  registered := hreg
  settled _ h := settled_update hcells hshared h
  turned n h := by
    obtain ⟨found, hfound, -, hun⟩ := h
    rw [hroute] at hfound
    cases hfound
    rw [hunowned] at hun
    cases hun

/-- The map and the terminals stay as they are. -/
theorem answers_cells {slot' : RunSlot} (hroute : slot'.route = slot.route)
    (hreg : slot'.registered = slot.registered)
    (hcells : ∀ n, slot.Settled n → slot'.Settled n) : slot.Answers slot' where
  registered := hreg
  settled n h := hcells n h
  turned n h := by
    obtain ⟨found, hfound, hn, hun⟩ := h
    exact .inr ⟨found, hroute.trans hfound, hn, hun⟩

/-- A registration leaves the earlier runs as they are. -/
theorem startRun_answered (slot : RunSlot) (cap bytes : Nat) :
    slot.registered ≤ (slot.startRun cap bytes).2.registered ∧
      ∀ n, n < slot.registered → slot.Answered n → (slot.startRun cap bytes).2.Answered n := by
  unfold startRun
  split_ifs
  · exact ⟨Nat.le_refl _, fun _ _ h => h⟩
  · unfold register
    cases hroute : slot.route with
    | some route =>
        refine ⟨Nat.le_refl _, fun n _ h => ?_⟩
        have hanswers : slot.Answers { slot with route := some route, active := false } :=
          answers_cells hroute.symm rfl (fun _ h => h)
        exact hanswers.answered h
    | none =>
        refine ⟨Nat.le_succ _, fun n hn h => ?_⟩
        rcases h with h | ⟨found, hfound, -, -⟩
        · refine .inl ?_
          unfold Settled
          dsimp only
          rw [Function.update_of_ne (Nat.ne_of_lt hn)]
          exact h
        · rw [hroute] at hfound
          cases hfound

/-- A run that was registered is the latest. -/
theorem startRun_latest {slot : RunSlot} {cap bytes run : Nat}
    (h : (slot.startRun cap bytes).1 = .ok run) :
    run + 1 = (slot.startRun cap bytes).2.registered := by
  unfold startRun at h ⊢
  split_ifs at h ⊢
  unfold register at h ⊢
  cases hroute : slot.route with
  | some route => rw [hroute] at h; cases h
  | none => rw [hroute] at h; cases h; rfl

theorem answers_routeEvent (slot : RunSlot) (observed : Option String) (sourceMethod : String)
    (event : Event) (defer : Bool) (cap : Nat) :
    slot.Answers (slot.routeEvent observed sourceMethod event defer cap).2 := by
  cases hroute : slot.route with
  | none => rw [routeEvent_of_none hroute]; exact answers_refl slot
  | some route =>
      obtain ⟨outcome, route', shared', heq, hspec⟩ :=
        routeEvent_of_route hroute observed sourceMethod event defer cap
      rw [heq]
      rcases hspec.kept (RunPhase.deferred_of_ite defer) with
        ⟨rfl, rfl⟩ | ⟨-, -, hrun, ⟨queue, hphase⟩, hterminal, -⟩
      · exact answers_store hroute rfl (fun h => h) (fun h => h)
      · refine answers_store hroute hrun (fun h => ?_) (fun h => ?_)
        · rw [hphase, RunPhase.setDeferred_isUnowned]
          exact h
        · unfold CellSettled at h ⊢
          rw [hterminal]
          exact h

theorem answers_publishTerminal (hroute : slot.route = some route) (turnId : String)
    (result : Result RunResult) : slot.Answers (slot.publishTerminal route turnId result) := by
  unfold publishTerminal
  split
  · exact answers_settle hroute rfl rfl (cellSettled_publish _ result)
  · exact answers_settle hroute rfl rfl (cellSettled_publish _ result)

theorem answers_routeTerminal (slot : RunSlot) (completion : TurnCompletion) (params : Json)
    (defer : Bool) (cap : Nat) :
    slot.Answers (slot.routeTerminal completion params defer cap).2 := by
  cases hroute : slot.route with
  | none => rw [routeTerminal_of_none hroute]; exact answers_refl slot
  | some route =>
      have hspec := routeTerminal_of_route hroute completion params defer cap
      have hqueue : ∀ queue, (route.phase.setDeferred queue).isUnowned = route.phase.isUnowned :=
        fun queue => RunPhase.setDeferred_isUnowned route.phase queue
      generalize slot.routeTerminal completion params defer cap = routed at hspec
      obtain ⟨outcome, slot'⟩ := routed
      dsimp only at hspec ⊢
      cases hspec with
      | deferred _ _ =>
          exact answers_store hroute rfl (fun h => (hqueue _).trans h) (fun h => h)
      | duplicate _ => exact answers_refl slot
      | mismatch _ _ _ => exact answers_refl slot
      | mismatchFull _ _ _ _ =>
          exact answers_store hroute rfl (fun h => (hqueue _).trans h) (fun h => h)
      | completed _ _ _ => exact answers_publishTerminal hroute _ _

theorem answers_acknowledgeStart (slot : RunSlot) (turnId : String) :
    slot.Answers (slot.acknowledgeStart turnId).2 := by
  have hgone : ∀ route, slot.route = some route → route.phase.isUnowned = true →
      slot.Answers { slot with route := none } := by
    intro route hroute hunowned
    exact answers_unowned hroute hunowned rfl (Function.update_eq_self ..).symm (fun h => h)
  unfold acknowledgeStart
  cases hroute : slot.route with
  | none => exact answers_refl slot
  | some route =>
      dsimp only
      cases hphase : route.phase with
      | starting deferred =>
          refine answers_store hroute rfl (fun h => ?_) (fun h => h)
          rw [hphase] at h
          cases h
      | terminalBeforeStart expected =>
          cases expected with
          | none => exact hgone route hroute (by rw [hphase]; rfl)
          | some expected =>
              dsimp only
              split_ifs
              · exact answers_refl slot
              · exact hgone route hroute (by rw [hphase]; rfl)
      | replaying _ _ => exact answers_refl slot
      | active _ => exact answers_refl slot

theorem answers_replayTransition (slot : RunSlot) (turnId : String) :
    slot.Answers (slot.replayTransition turnId).2 := by
  unfold replayTransition
  cases hroute : slot.route with
  | none => exact answers_refl slot
  | some route =>
      dsimp only
      cases hphase : route.phase with
      | starting _ => exact answers_refl slot
      | active _ => exact answers_refl slot
      | terminalBeforeStart _ => exact answers_refl slot
      | replaying activeTurn deferred =>
          dsimp only
          split_ifs
          · exact answers_store hroute rfl (fun _ => rfl) (fun h => h)
          · exact answers_store hroute rfl (fun _ => rfl) (fun h => h)
          · exact answers_refl slot

theorem answers_failBeforeStart (slot : RunSlot) (error : Error) :
    slot.Answers (slot.failBeforeStart error).2 := by
  unfold failBeforeStart
  cases hroute : slot.route with
  | none => exact answers_refl slot
  | some route =>
      dsimp only
      cases hphase : route.phase with
      | terminalBeforeStart _ => exact answers_refl slot
      | replaying _ _ => exact answers_refl slot
      | active _ => exact answers_refl slot
      | starting _ => exact answers_settle hroute rfl rfl (cellSettled_publish _ _)

theorem answers_failActive (slot : RunSlot) (turnId : String) (control : Nat) (error : Error) :
    slot.Answers (slot.failActive turnId control error).2 := by
  unfold failActive
  cases hroute : slot.route with
  | none => exact answers_refl slot
  | some route =>
      dsimp only
      split_ifs
      · exact answers_refl slot
      · exact answers_store hroute rfl (fun h => h) (fun h => h)

theorem answers_cancelRegistered (slot : RunSlot) : slot.Answers slot.cancelRegistered.2 := by
  unfold cancelRegistered
  cases hroute : slot.route with
  | none => exact answers_refl slot
  | some route =>
      dsimp only
      split_ifs with hterminal
      · exact answers_unowned hroute (RunPhase.isUnowned_of_isTerminal hterminal) rfl rfl
          (fun h => h)
      · cases hphase : route.phase with
        | starting _ =>
            exact answers_unowned hroute (by rw [hphase]; rfl) rfl rfl (fun h => h)
        | terminalBeforeStart _ => rw [hphase] at hterminal; exact absurd rfl hterminal
        | replaying _ _ => exact answers_store hroute rfl (fun h => h) (fun h => h)
        | active _ => exact answers_store hroute rfl (fun h => h) (fun h => h)

/-- The drain leaves no route and no run without its terminal. -/
theorem answers_failAll (slot : RunSlot) (error : Error) :
    slot.Answers (slot.failAll error) := by
  unfold failAll
  cases hroute : slot.route with
  | none => exact answers_refl slot
  | some route =>
      refine answers_settle hroute rfl rfl ?_
      split_ifs with hnone
      · unfold CellSettled Watch.send
        split_ifs with hreceivers
        · exact .inr hreceivers
        · exact .inl rfl
      · refine .inl ?_
        rw [Option.isNone_iff_eq_none] at hnone
        exact Option.isSome_iff_ne_none.mpr hnone

theorem answers_updateCells {run : Nat} {shared : RunShared}
    (h : CellSettled (slot.cells run) → CellSettled shared) :
    slot.Answers (slot.updateCells run shared) :=
  answers_cells rfl rfl (fun _ hs => settled_update rfl h hs)

theorem answers_apply (slot : RunSlot) {op : RegistryOp}
    (hop : ∀ cap bytes, op ≠ .register cap bytes) : slot.Answers (slot.apply op) := by
  cases op with
  | register cap bytes => exact absurd rfl (hop cap bytes)
  | routeEvent observed sourceMethod event defer cap =>
      exact answers_routeEvent slot observed sourceMethod event defer cap
  | routeTerminal completion params defer cap =>
      exact answers_routeTerminal slot completion params defer cap
  | acknowledgeStart turnId => exact answers_acknowledgeStart slot turnId
  | replayTransition turnId => exact answers_replayTransition slot turnId
  | failBeforeStart error => exact answers_failBeforeStart slot error
  | failActive turnId control error => exact answers_failActive slot turnId control error
  | cancelRegistered => exact answers_cancelRegistered slot
  | failAll error => exact answers_failAll slot error
  | abandon run => exact answers_updateCells (fun h => h)
  | dropChannels run =>
      refine answers_updateCells (fun h => ?_)
      rcases h with h | h
      · exact .inl h
      · refine .inr ?_
        have hdrop : (slot.cells run).terminal.receivers - 1 = 0 := by omega
        exact hdrop

end RunSlot

/-! ## A route without a turn -/

namespace RunSlot

/-- No turn is acknowledged on the thread. -/
def Turnless (slot : RunSlot) : Prop := slot.Vacated ∨ ∃ ended, slot.Unowned ended

/-- There is nothing on the thread to acknowledge a turn for. -/
def Over (slot : RunSlot) : Prop := slot.Vacated ∨ slot.Unowned true

variable {slot slot' : RunSlot}

theorem Over.turnless (h : slot.Over) : slot.Turnless := h.imp_right (fun hu => ⟨true, hu⟩)

theorem Turnless.spares (h : slot.Turnless) (hs : slot.Spares slot') : slot'.Turnless := by
  rcases h with hv | ⟨ended, hu⟩
  · exact .inl (hs.vacated hv)
  · exact .inr ⟨ended, hs.unowned ended hu⟩

theorem Over.spares (h : slot.Over) (hs : slot.Spares slot') : slot'.Over :=
  h.imp hs.vacated (hs.unowned true)

theorem Turnless.not_turned (h : slot.Turnless) (n : Nat) : ¬ slot.Turned n := by
  rintro ⟨route, hroute, -, hun⟩
  rcases h with hv | ⟨ended, found, hfound, hunowned, -⟩
  · rw [hv.route] at hroute
    cases hroute
  · rw [hroute] at hfound
    cases hfound
    rw [hun] at hunowned
    cases hunowned

/-- Only the start itself gives a thread a turn. -/
theorem spares_others {op : RegistryOp} (hop : op.byOthers = true)
    (hcancel : op ≠ .cancelRegistered) : slot.Spares (slot.apply op) := by
  cases op with
  | routeEvent observed sourceMethod event defer cap =>
      exact spares_routeEvent slot observed sourceMethod event defer cap
  | routeTerminal completion params defer cap =>
      exact spares_routeTerminal slot completion params defer cap
  | failActive turnId control error => exact spares_failActive slot turnId control error
  | cancelRegistered => exact absurd rfl hcancel
  | abandon run => exact spares_abandon slot run
  | dropChannels run => exact ⟨fun h => h, fun _ h => h⟩
  | _ => cases hop

theorem Turnless.others (h : slot.Turnless) {op : RegistryOp} (hop : op.byOthers = true) :
    (slot.apply op).Turnless := by
  by_cases hcancel : op = .cancelRegistered
  · subst hcancel
    exact .inl (cancelRegistered_vacated h)
  · exact h.spares (spares_others hop hcancel)

theorem Over.others (h : slot.Over) {op : RegistryOp} (hop : op.byOthers = true) :
    (slot.apply op).Over := by
  by_cases hcancel : op = .cancelRegistered
  · subst hcancel
    exact .inl (cancelRegistered_vacated h.turnless)
  · exact h.spares (spares_others hop hcancel)

theorem Turnless.startRun (h : slot.Turnless) (cap bytes : Nat) :
    (slot.startRun cap bytes).2.Turnless := by
  cases hs : slot.startRun cap bytes with
  | mk result slot' =>
      cases result with
      | ok run => exact .inr ⟨false, startRun_unowned hs⟩
      | error error =>
          -- the thread was busy: its route is there, and stays
          rcases h with hv | ⟨ended, hu⟩
          · exact absurd hv (startRun_error hs).1
          · refine .inr ⟨ended, ?_⟩
            obtain ⟨route, hroute, hunowned, hend⟩ := hu
            refine ⟨route, ?_, hunowned, hend⟩
            unfold RunSlot.startRun register at hs
            rw [hroute] at hs
            split_ifs at hs
            · cases hs
              exact hroute
            · cases hs
              rfl

theorem Turnless.failBeforeStart (h : slot.Turnless) (error : Error) :
    (slot.failBeforeStart error).2.Over := by
  rcases h with hv | ⟨ended, route, hroute, hunowned, -⟩
  · rw [failBeforeStart_vacated hv]
    exact .inl hv
  · exact .inr (failBeforeStart_unowned
      ⟨route, hroute, hunowned, fun hf => absurd hf (by simp)⟩ error).2

/-- Nothing is replayed on a thread without a turn. -/
theorem Turnless.replayTransition (h : slot.Turnless) (turnId : String) :
    slot.replayTransition turnId = (.stopped, slot) := by
  unfold RunSlot.replayTransition
  rcases h with hv | ⟨ended, route, hroute, hunowned, -⟩
  · rw [hv.route]
  · rw [hroute]
    dsimp only
    cases hphase : route.phase with
    | starting _ => rfl
    | terminalBeforeStart _ => rfl
    | replaying _ _ => rw [hphase] at hunowned; cases hunowned
    | active _ => rfl

end RunSlot

/-- An acknowledgement that comes too late leaves nothing behind. -/
theorem acknowledgeStart_over {slot : RunSlot} {recorded : Nat → Option Error}
    {acknowledged : Nat → Bool} (hinv : TInv slot recorded acknowledged) (h : slot.Over)
    (turnId : String) : (slot.acknowledgeStart turnId).2.Over := by
  unfold RunSlot.acknowledgeStart
  rcases h with hv | ⟨route, hroute, hunowned, hend⟩
  · rw [hv.route]
    exact .inl hv
  · have hterminal := hend rfl
    obtain ⟨hidle, -, -⟩ := hinv.ended route hroute hterminal
    have hstay : slot.Over := .inr ⟨route, hroute, hunowned, hend⟩
    have hgone : ({ slot with route := none } : RunSlot).Over := .inl ⟨rfl, hidle⟩
    rw [hroute]
    dsimp only
    cases hphase : route.phase with
    | starting _ => rw [hphase] at hterminal; cases hterminal
    | replaying _ _ => rw [hphase] at hterminal; cases hterminal
    | active _ => rw [hphase] at hterminal; cases hterminal
    | terminalBeforeStart expected =>
        cases expected with
        | none => exact hgone
        | some expected =>
            dsimp only
            split_ifs
            · exact hstay
            · exact hgone

/-- A start that the acknowledgement ends at once has its run's terminal. -/
theorem acknowledgeStart_completed {slot : RunSlot} {recorded : Nat → Option Error}
    {acknowledged : Nat → Bool} (hinv : TInv slot recorded acknowledged) {turnId : String}
    {run : Nat} (hrun : run + 1 = slot.registered)
    (h : (slot.acknowledgeStart turnId).1 = .completedBeforeAcknowledgement) :
    slot.Settled run := by
  unfold RunSlot.acknowledgeStart at h
  cases hroute : slot.route with
  | none => rw [hroute] at h; cases h
  | some route =>
      have howner := hinv.owner route hroute
      rw [hroute] at h
      dsimp only at h
      cases hphase : route.phase with
      | starting _ => rw [hphase] at h; cases h
      | replaying _ _ => rw [hphase] at h; cases h
      | active _ => rw [hphase] at h; cases h
      | terminalBeforeStart expected =>
          obtain ⟨-, -, hsettled⟩ := hinv.ended route hroute (by rw [hphase]; rfl)
          have heq : route.run = run := by omega
          rw [heq] at hsettled
          exact hsettled

/-- A start that goes on to replay has its turn's route. -/
theorem acknowledgeStart_replay {slot : RunSlot} {recorded : Nat → Option Error}
    {acknowledged : Nat → Bool} (hinv : TInv slot recorded acknowledged) {turnId : String}
    {run : Nat} (hrun : run + 1 = slot.registered) {deferred : List DeferredRunNotification}
    (h : (slot.acknowledgeStart turnId).1 = .replay deferred) :
    (slot.acknowledgeStart turnId).2.Turned run := by
  unfold RunSlot.acknowledgeStart at h ⊢
  cases hroute : slot.route with
  | none => rw [hroute] at h; cases h
  | some route =>
      have howner := hinv.owner route hroute
      rw [hroute] at h
      dsimp only at h ⊢
      cases hphase : route.phase with
      | starting _ => exact ⟨_, rfl, by simp only [RunRoute.clearDeferredImageBytes]; omega, rfl⟩
      | replaying _ _ => rw [hphase] at h; cases h
      | active _ => rw [hphase] at h; cases h
      | terminalBeforeStart expected =>
          rw [hphase] at h
          cases expected with
          | none => cases h
          | some expected =>
              dsimp only at h
              split_ifs at h

end Vergerail
