import Vergerail.Proof.AnsweredRun

/-!
# The turn of a thread's entry

Once a turn is acknowledged its route is in the map until the provider's terminal or a
drain takes it out (`RunSlot.turn`). Only the acknowledgement gives the entry a turn
(`Follows`), only the two cancellations and the drop of a handle mark its run abandoned
(`Marks`), and a run whose turn is still there has no terminal.
-/

namespace Vergerail

/-- The acknowledged turn of a route, until it ends. -/
def RunPhase.ownTurn : RunPhase → Option String
  | replaying turnId _ => some turnId
  | active turnId => some turnId
  | starting _ => none
  | terminalBeforeStart _ => none

theorem RunPhase.setDeferred_ownTurn (self : RunPhase) (queue : List DeferredRunNotification) :
    (self.setDeferred queue).ownTurn = self.ownTurn := by cases self <;> rfl

theorem RunPhase.ownTurn_eq_some {self : RunPhase} {turnId : String}
    (h : self.ownTurn = some turnId) :
    self.turnId = some turnId ∧ self.isTerminal = false := by
  cases self with
  | replaying _ _ => exact ⟨h, rfl⟩
  | active _ => exact ⟨h, rfl⟩
  | starting _ => cases h
  | terminalBeforeStart _ => cases h

theorem RunPhase.ownTurn_of_turnId {self : RunPhase} {turnId : String}
    (h : self.turnId = some turnId) (hlive : self.isTerminal = false) :
    self.ownTurn = some turnId := by
  cases self with
  | replaying _ _ => exact h
  | active _ => exact h
  | starting _ => cases h
  | terminalBeforeStart _ => cases hlive

theorem RunPhase.ownTurn_of_isTerminal {self : RunPhase} (h : self.isTerminal = true) :
    self.ownTurn = none := by
  cases self with
  | terminalBeforeStart _ => rfl
  | _ => cases h

namespace RunSlot

/-- The acknowledged turn of the thread that has not ended, with its run. -/
def turn (slot : RunSlot) : Option (String × Nat) :=
  slot.route.bind (fun route => route.phase.ownTurn.map (fun turnId => (turnId, route.run)))

variable {slot slot' : RunSlot} {route route' : RunRoute}

theorem turn_of_none (h : slot.route = none) : slot.turn = none := by
  unfold turn
  rw [h]
  rfl

theorem turn_of_route (h : slot.route = some route) :
    slot.turn = route.phase.ownTurn.map (fun turnId => (turnId, route.run)) := by
  unfold turn
  rw [h]
  rfl

theorem turn_eq_some {turnId : String} {run : Nat} (h : slot.turn = some (turnId, run)) :
    ∃ route, slot.route = some route ∧ route.run = run ∧ route.phase.ownTurn = some turnId := by
  cases hroute : slot.route with
  | none =>
      rw [turn_of_none hroute] at h
      cases h
  | some route =>
      rw [turn_of_route hroute, Option.map_eq_some_iff] at h
      obtain ⟨turnId', hturn, heq⟩ := h
      cases heq
      exact ⟨route, rfl, rfl, hturn⟩

/-- A route that ended has no turn. -/
theorem turn_of_ended (h : slot.route = some route) (hended : route.phase.isTerminal = true) :
    slot.turn = none := by
  rw [turn_of_route h, RunPhase.ownTurn_of_isTerminal hended]
  rfl

/-- A run whose turn is still there has no terminal. -/
theorem turn_live {recorded : Nat → Option Error} {acknowledged : Nat → Bool}
    (hinv : TInv slot recorded acknowledged) {turnId : String} {run : Nat}
    (h : slot.turn = some (turnId, run)) :
    slot.active = true ∧ (slot.cells run).control.providerTerminalObserved = false := by
  obtain ⟨route, hroute, rfl, hturn⟩ := turn_eq_some h
  obtain ⟨-, hactive, hunobserved⟩ :=
    hinv.live route hroute (RunPhase.ownTurn_eq_some hturn).2
  exact ⟨hactive, hunobserved⟩

/-! ## Operations that give the entry no turn -/

/-- No route comes into the map, no turn into the entry, and a turn that goes takes its
route along. -/
structure Follows (slot slot' : RunSlot) : Prop where
  vacant : slot.route = none → slot'.route = none
  turn : ∀ p, slot'.turn = some p → slot.turn = some p
  stays : ∀ p, slot.turn = some p → slot'.turn = some p ∨ slot'.route = none

theorem Follows.refl (slot : RunSlot) : slot.Follows slot :=
  ⟨fun h => h, fun _ h => h, fun _ h => .inl h⟩

theorem Follows.turnless (h : slot.Follows slot') (hnone : slot.turn = none) :
    slot'.turn = none := by
  cases hturn : slot'.turn with
  | none => rfl
  | some p =>
      have hp := h.turn p hturn
      rw [hnone] at hp
      cases hp

theorem follows_same (h : slot'.route = slot.route) : slot.Follows slot' where
  vacant hnone := h.trans hnone
  turn p hp := by
    unfold RunSlot.turn at hp ⊢
    rw [← h]
    exact hp
  stays p hp := by
    unfold RunSlot.turn at hp ⊢
    rw [h]
    exact .inl hp

theorem follows_gone (h : slot'.route = none) : slot.Follows slot' where
  vacant _ := h
  turn p hp := by
    rw [turn_of_none h] at hp
    cases hp
  stays _ _ := .inr h

/-- The route that was there had no turn, and has none. -/
theorem follows_ended (hroute : slot.route = some route) (hnone : slot.turn = none)
    (h : slot'.turn = none) : slot.Follows slot' where
  vacant hvacant := absurd (hroute.symm.trans hvacant) (Option.some_ne_none route)
  turn p hp := by
    rw [h] at hp
    cases hp
  stays p hp := by
    rw [hnone] at hp
    cases hp

theorem follows_route (hroute : slot.route = some route) (hroute' : slot'.route = some route')
    (hrun : route'.run = route.run) (hphase : route'.phase.ownTurn = route.phase.ownTurn) :
    slot.Follows slot' where
  vacant hnone := absurd (hroute.symm.trans hnone) (Option.some_ne_none route)
  turn p hp := by
    rw [turn_of_route hroute', hrun, hphase] at hp
    rw [turn_of_route hroute]
    exact hp
  stays p hp := by
    rw [turn_of_route hroute] at hp
    rw [turn_of_route hroute', hrun, hphase]
    exact .inl hp

theorem follows_routeEvent (slot : RunSlot) (observed : Option String) (sourceMethod : String)
    (event : Event) (defer : Bool) (cap : Nat) :
    slot.Follows (slot.routeEvent observed sourceMethod event defer cap).2 := by
  cases hroute : slot.route with
  | none => rw [routeEvent_of_none hroute]; exact .refl slot
  | some route =>
      obtain ⟨outcome, route', shared', heq, hspec⟩ :=
        routeEvent_of_route hroute observed sourceMethod event defer cap
      rw [heq]
      rcases hspec.kept (RunPhase.deferred_of_ite defer) with
        ⟨rfl, rfl⟩ | ⟨-, -, hrun, ⟨queue, hphase⟩, -, -⟩
      · exact follows_route hroute rfl rfl rfl
      · refine follows_route hroute rfl hrun ?_
        rw [hphase, RunPhase.setDeferred_ownTurn]

theorem follows_publishTerminal (hroute : slot.route = some route) (turnId : String)
    (result : Result RunResult) : slot.Follows (slot.publishTerminal route turnId result) := by
  unfold publishTerminal
  cases hphase : route.phase with
  | starting _ =>
      refine follows_ended hroute ?_ (turn_of_ended rfl rfl)
      rw [turn_of_route hroute, hphase]
      rfl
  | _ => exact follows_gone rfl

theorem follows_routeTerminal (slot : RunSlot) (completion : TurnCompletion) (params : Json)
    (defer : Bool) (cap : Nat) :
    slot.Follows (slot.routeTerminal completion params defer cap).2 := by
  cases hroute : slot.route with
  | none => rw [routeTerminal_of_none hroute]; exact .refl slot
  | some route =>
      have hspec := routeTerminal_of_route hroute completion params defer cap
      generalize slot.routeTerminal completion params defer cap = routed at hspec
      obtain ⟨outcome, slot'⟩ := routed
      dsimp only at hspec ⊢
      cases hspec with
      | deferred _ _ => exact follows_route hroute rfl rfl (route.phase.setDeferred_ownTurn _)
      | duplicate _ => exact .refl slot
      | mismatch _ _ _ => exact .refl slot
      | mismatchFull _ _ _ _ =>
          exact follows_route hroute rfl rfl (route.phase.setDeferred_ownTurn _)
      | completed _ _ _ => exact follows_publishTerminal hroute _ _

theorem follows_failActive (slot : RunSlot) (turnId : String) (control : Nat) (error : Error) :
    slot.Follows (slot.failActive turnId control error).2 := by
  unfold failActive
  cases hroute : slot.route with
  | none => exact .refl slot
  | some route =>
      dsimp only
      split_ifs
      · exact .refl slot
      · exact follows_route hroute rfl rfl rfl

theorem follows_failBeforeStart (slot : RunSlot) (error : Error) :
    slot.Follows (slot.failBeforeStart error).2 := by
  unfold failBeforeStart
  cases hroute : slot.route with
  | none => exact .refl slot
  | some route =>
      dsimp only
      cases hphase : route.phase with
      | terminalBeforeStart _ => exact .refl slot
      | replaying _ _ => exact .refl slot
      | active _ => exact .refl slot
      | starting _ =>
          refine follows_ended hroute ?_ (turn_of_ended rfl rfl)
          rw [turn_of_route hroute, hphase]
          rfl

theorem follows_replayTransition (slot : RunSlot) (turnId : String) :
    slot.Follows (slot.replayTransition turnId).2 := by
  unfold replayTransition
  cases hroute : slot.route with
  | none => exact .refl slot
  | some route =>
      dsimp only
      cases hphase : route.phase with
      | starting _ => exact .refl slot
      | active _ => exact .refl slot
      | terminalBeforeStart _ => exact .refl slot
      | replaying activeTurn deferred =>
          dsimp only
          split_ifs with hturn
          · exact follows_route hroute rfl rfl (by rw [hphase, ← hturn]; rfl)
          · exact follows_route hroute rfl rfl (by rw [hphase]; rfl)
          · exact .refl slot

theorem follows_cancelRegistered (slot : RunSlot) : slot.Follows slot.cancelRegistered.2 := by
  unfold cancelRegistered
  cases hroute : slot.route with
  | none => exact .refl slot
  | some route =>
      dsimp only
      split_ifs
      · exact follows_gone rfl
      · cases hturn : route.phase.turnId with
        | none => exact follows_gone rfl
        | some turnId => exact follows_route hroute rfl rfl rfl

/-- What a response names is the turn that the entry gets, if it gets one. -/
theorem acknowledgeStart_turn (slot : RunSlot) (turnId : String) :
    (∃ deferred run, (slot.acknowledgeStart turnId).1 = .replay deferred ∧
      (slot.acknowledgeStart turnId).2.turn = some (turnId, run)) ∨
    ((∀ deferred, (slot.acknowledgeStart turnId).1 ≠ .replay deferred) ∧
      slot.Follows (slot.acknowledgeStart turnId).2) := by
  unfold acknowledgeStart
  cases hroute : slot.route with
  | none => exact .inr ⟨fun _ => by simp, .refl slot⟩
  | some route =>
      dsimp only
      cases hphase : route.phase with
      | starting deferred => exact .inl ⟨deferred, route.run, rfl, rfl⟩
      | replaying _ _ => exact .inr ⟨fun _ => by simp, .refl slot⟩
      | active _ => exact .inr ⟨fun _ => by simp, .refl slot⟩
      | terminalBeforeStart expected =>
          cases expected with
          | none => exact .inr ⟨fun _ => by simp, follows_gone rfl⟩
          | some expected =>
              dsimp only
              split_ifs
              · exact .inr ⟨fun _ => by simp, .refl slot⟩
              · exact .inr ⟨fun _ => by simp, follows_gone rfl⟩

/-- Nothing but a registration and an acknowledgement brings a turn closer. -/
theorem follows_apply (slot : RunSlot) {op : RegistryOp}
    (hregister : ∀ cap bytes, op ≠ .register cap bytes)
    (hacknowledge : ∀ turnId, op ≠ .acknowledgeStart turnId) : slot.Follows (slot.apply op) := by
  cases op with
  | register cap bytes => exact absurd rfl (hregister cap bytes)
  | acknowledgeStart turnId => exact absurd rfl (hacknowledge turnId)
  | routeEvent observed sourceMethod event defer cap =>
      exact follows_routeEvent slot observed sourceMethod event defer cap
  | routeTerminal completion params defer cap =>
      exact follows_routeTerminal slot completion params defer cap
  | replayTransition turnId => exact follows_replayTransition slot turnId
  | failBeforeStart error => exact follows_failBeforeStart slot error
  | failActive turnId control error => exact follows_failActive slot turnId control error
  | cancelRegistered => exact follows_cancelRegistered slot
  | failAll error => exact follows_gone (RunSlot.failAll_route slot error)
  | abandon run => exact follows_same rfl
  | dropChannels run => exact follows_same rfl

/-- A run that is registered has no turn yet. -/
theorem startRun_turnless {cap bytes : Nat} (h : slot.turn = none) :
    (slot.startRun cap bytes).2.turn = none := by
  unfold startRun
  split_ifs
  · exact h
  · unfold register
    cases hroute : slot.route with
    | none => rfl
    | some route =>
        rw [turn_of_route hroute] at h
        rw [turn_of_route rfl]
        exact h

/-! ## Who is marked abandoned -/

/-- The mark of every run is as it was. -/
def Marks (slot slot' : RunSlot) : Prop :=
  ∀ run, (slot'.cells run).abandoned = (slot.cells run).abandoned

theorem marks_same (h : slot'.cells = slot.cells) : slot.Marks slot' := fun run => by rw [h]

theorem marks_update {run : Nat} {shared : RunShared}
    (h : slot'.cells = Function.update slot.cells run shared)
    (hshared : shared.abandoned = (slot.cells run).abandoned) : slot.Marks slot' := by
  intro n
  rw [h]
  by_cases hn : n = run
  · subst hn
    rw [Function.update_self]
    exact hshared
  · rw [Function.update_of_ne hn]

end RunSlot

/-- Routing an event marks nobody. -/
theorem RunRoute.RouteEventSpec.marked {self route' : RunRoute} {shared shared' : RunShared}
    {observed : Option String} {sourceMethod : String} {event : Event}
    {queue : Option (List DeferredRunNotification)} {cap : Nat} {outcome : RunEventOutcome}
    (h : RouteEventSpec self shared observed sourceMethod event queue cap outcome route' shared') :
    route'.run = self.run ∧ shared'.abandoned = shared.abandoned := by
  cases h with
  | unowned _ _ _ _ _ hbase => exact ⟨hbase.run, rfl⟩
  | refusedDelivery _ _ _ _ _ _ hbase _ => exact ⟨hbase.run, rfl⟩
  | delivered _ _ _ _ _ hbase _ => exact ⟨hbase.run, rfl⟩
  | _ => exact ⟨rfl, rfl⟩

namespace RunSlot

variable {slot slot' : RunSlot} {route : RunRoute}

theorem marks_publishTerminal (slot : RunSlot) (route : RunRoute) (turnId : String)
    (result : Result RunResult) : slot.Marks (slot.publishTerminal route turnId result) := by
  unfold publishTerminal
  split
  · exact marks_update rfl rfl
  · exact marks_update rfl rfl

theorem marks_failAll (slot : RunSlot) (error : Error) : slot.Marks (slot.failAll error) := by
  unfold failAll
  cases hroute : slot.route with
  | none => exact marks_same rfl
  | some route =>
      refine marks_update rfl ?_
      split_ifs
      · rfl
      · rfl

/-- Nobody but the two cancellations marks a run, and a registration unmarks its own. -/
theorem marks_apply (slot : RunSlot) {op : RegistryOp}
    (hregister : ∀ cap bytes, op ≠ .register cap bytes) (hcancel : op ≠ .cancelRegistered)
    (habandon : ∀ run, op ≠ .abandon run) : slot.Marks (slot.apply op) := by
  cases op with
  | register cap bytes => exact absurd rfl (hregister cap bytes)
  | cancelRegistered => exact absurd rfl hcancel
  | abandon run => exact absurd rfl (habandon run)
  | dropChannels run => exact marks_update rfl rfl
  | failAll error => exact marks_failAll slot error
  | routeEvent observed sourceMethod event defer cap =>
      simp only [apply]
      cases hroute : slot.route with
      | none => rw [routeEvent_of_none hroute]; exact marks_same rfl
      | some route =>
          obtain ⟨outcome, route', shared', heq, hspec⟩ :=
            routeEvent_of_route hroute observed sourceMethod event defer cap
          obtain ⟨hrun, hmark⟩ := hspec.marked
          rw [heq]
          exact marks_update rfl (by rw [hrun]; exact hmark)
  | routeTerminal completion params defer cap =>
      simp only [apply]
      cases hroute : slot.route with
      | none => rw [routeTerminal_of_none hroute]; exact marks_same rfl
      | some route =>
          have hspec := routeTerminal_of_route hroute completion params defer cap
          generalize slot.routeTerminal completion params defer cap = routed at hspec
          obtain ⟨outcome, slot'⟩ := routed
          dsimp only at hspec ⊢
          cases hspec with
          | deferred _ _ => exact marks_update rfl rfl
          | duplicate _ => exact marks_same rfl
          | mismatch _ _ _ => exact marks_same rfl
          | mismatchFull _ _ _ _ => exact marks_update rfl rfl
          | completed _ _ _ => exact marks_publishTerminal slot route _ _
  | acknowledgeStart turnId =>
      simp only [apply, acknowledgeStart]
      cases hroute : slot.route with
      | none => exact marks_same rfl
      | some route =>
          dsimp only
          split
          · exact marks_update rfl rfl
          · split_ifs
            · exact marks_same rfl
            · exact marks_same rfl
          · exact marks_same rfl
          · exact marks_same rfl
          · exact marks_same rfl
  | replayTransition turnId =>
      simp only [apply, replayTransition]
      cases hroute : slot.route with
      | none => exact marks_same rfl
      | some route =>
          dsimp only
          split
          · split_ifs
            · exact marks_update rfl rfl
            · exact marks_update rfl rfl
            · exact marks_same rfl
          · exact marks_same rfl
          · exact marks_same rfl
          · exact marks_same rfl
  | failBeforeStart error =>
      simp only [apply, failBeforeStart]
      cases hroute : slot.route with
      | none => exact marks_same rfl
      | some route =>
          dsimp only
          split
          · exact marks_update rfl rfl
          · exact marks_same rfl
          · exact marks_same rfl
          · exact marks_same rfl
  | failActive turnId control error =>
      simp only [apply, failActive]
      cases hroute : slot.route with
      | none => exact marks_same rfl
      | some route =>
          dsimp only
          split_ifs
          · exact marks_same rfl
          · exact marks_update rfl rfl

/-- A run that is registered is not marked. -/
theorem startRun_unmarked {cap bytes run : Nat} (h : (slot.startRun cap bytes).1 = .ok run) :
    ((slot.startRun cap bytes).2.cells run).abandoned = false := by
  unfold startRun at h ⊢
  split_ifs at h ⊢
  unfold register at h ⊢
  cases hroute : slot.route with
  | some route => rw [hroute] at h; cases h
  | none =>
      rw [hroute] at h
      cases h
      dsimp only
      rw [Function.update_self]
      rfl

/-! ## The cancellation -/

/-- A cancellation that names a turn leaves it to its caller, marked. -/
theorem cancelRegistered_some {turnId : String} {run : Nat}
    (h : slot.cancelRegistered.1 = some (turnId, run)) :
    slot.cancelRegistered.2.turn = some (turnId, run) ∧
      (slot.cancelRegistered.2.cells run).abandoned = true := by
  unfold cancelRegistered at h ⊢
  cases hroute : slot.route with
  | none => rw [hroute] at h; cases h
  | some route =>
      rw [hroute] at h
      dsimp only at h ⊢
      split_ifs at h ⊢ with hterminal
      cases hturn : route.phase.turnId with
      | none => rw [hturn] at h; cases h
      | some turnId' =>
          rw [hturn] at h
          cases h
          refine ⟨?_, by rw [store_cells_self]⟩
          rw [turn_of_route rfl,
            RunPhase.ownTurn_of_turnId hturn (Bool.eq_false_of_not_eq_true hterminal)]
          rfl

/-- One that names none leaves no route. -/
theorem cancelRegistered_none (h : slot.cancelRegistered.1 = none) :
    slot.cancelRegistered.2.route = none := by
  unfold cancelRegistered at h ⊢
  cases hroute : slot.route with
  | none => exact hroute
  | some route =>
      rw [hroute] at h
      dsimp only at h ⊢
      split_ifs at h ⊢
      · rfl
      · cases hturn : route.phase.turnId with
        | none => rfl
        | some turnId => rw [hturn] at h; cases h

/-- A mark stays. -/
theorem cancelRegistered_marked {run : Nat} (h : (slot.cells run).abandoned = true) :
    (slot.cancelRegistered.2.cells run).abandoned = true := by
  unfold cancelRegistered
  cases hroute : slot.route with
  | none => exact h
  | some route =>
      have hupdate : ∀ shared : RunShared, ((slot.cells route.run).abandoned = true →
          shared.abandoned = true) →
          (Function.update slot.cells route.run shared run).abandoned = true := by
        intro shared hshared
        by_cases hrun : run = route.run
        · subst hrun
          rw [Function.update_self]
          exact hshared h
        · rw [Function.update_of_ne hrun]
          exact h
      dsimp only
      split_ifs
      · exact hupdate _ (fun hmark => hmark)
      · cases hturn : route.phase.turnId with
        | none => exact hupdate _ (fun _ => rfl)
        | some turnId => exact hupdate _ (fun _ => rfl)

end RunSlot

end Vergerail
