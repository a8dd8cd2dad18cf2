import Vergerail.Proof.Shadow

/-!
# A thread without the notifications of other turns

`SlotShadows` puts the relation of the two routes into the registry's entries of their
threads. Every operation on the two threads that carries no other turn answers the same
and keeps the relation; one that carries another turn keeps it on the first alone.
-/

namespace Vergerail

open Lib

/-! ## Two threads -/

/-- The second thread is what the first would be without the notifications of other turns. -/
def SlotShadows (env : RunEnv) (turnId : String) (slot own : RunSlot) : Prop :=
  ∃ ownRoute, own = { slot with route := ownRoute }
    ∧ Option.Rel (Shadows env turnId) slot.route ownRoute

section Slots

variable {env : RunEnv} {turnId : String} {slot own : RunSlot}

/-- Either neither thread has a route, or both have one. -/
theorem SlotShadows.cases (h : SlotShadows env turnId slot own) :
    (slot.route = none ∧ own = slot)
      ∨ ∃ route ownRoute, slot.route = some route ∧ own = { slot with route := some ownRoute }
        ∧ Shadows env turnId route ownRoute := by
  obtain ⟨ownRoute, rfl, hrel⟩ := h
  generalize hroute : slot.route = r at hrel
  cases hrel with
  | none =>
      left
      refine ⟨rfl, ?_⟩
      rw [← hroute]
  | some hshadow => exact Or.inr ⟨_, _, rfl, rfl, hshadow⟩

theorem SlotShadows.of_none (h : slot.route = none) : SlotShadows env turnId slot slot := by
  refine ⟨none, ?_, ?_⟩
  · rw [← h]
  · rw [h]; exact .none

theorem SlotShadows.of_shadows {route ownRoute : RunRoute} (hroute : slot.route = some route)
    (h : Shadows env turnId route ownRoute) :
    SlotShadows env turnId slot { slot with route := some ownRoute } := by
  refine ⟨some ownRoute, rfl, ?_⟩
  rw [hroute]
  exact .some h

/-- Both routes are written back, with the same cells. -/
theorem slotShadows_store {route ownRoute r : RunRoute} (h : Shadows env turnId route ownRoute)
    (shared : RunShared) :
    SlotShadows env turnId (slot.store route shared)
      ({ slot with route := some r }.store ownRoute shared) := by
  refine ⟨some ownRoute, ?_, .some h⟩
  unfold RunSlot.store
  rw [h.run_eq]

theorem SlotShadows.cells_eq (h : SlotShadows env turnId slot own) : own.cells = slot.cells := by
  obtain ⟨_, rfl, _⟩ := h; rfl

theorem SlotShadows.output_eq (h : SlotShadows env turnId slot own) :
    own.route.map RunRoute.output = slot.route.map RunRoute.output := by
  rcases h.cases with ⟨_, rfl⟩ | ⟨route, ownRoute, hroute, rfl, hshadow⟩
  · rfl
  · rw [hroute, Option.map_some, Option.map_some, hshadow.output_eq]

/-! ### The run's own calls -/

theorem SlotShadows.routeEvent (h : SlotShadows env turnId slot own)
    {observed : Option String} (hobs : observed = some turnId ∨ observed = none)
    (sourceMethod : String) (event : Event) (defer : Bool) (cap : Nat)
    (hroom : ∀ route waiting, defer = true → slot.route = some route →
      route.phase.deferred = some waiting → route.pendingFailure = none → observed ≠ none →
      ¬ route.RefusesDeferral event waiting cap) :
    (own.routeEvent observed sourceMethod event defer cap).1
        = (slot.routeEvent observed sourceMethod event defer cap).1
      ∧ SlotShadows env turnId (slot.routeEvent observed sourceMethod event defer cap).2
          (own.routeEvent observed sourceMethod event defer cap).2 := by
  rcases h.cases with ⟨hnone, rfl⟩ | ⟨route, ownRoute, hroute, rfl, hshadow⟩
  · rw [RunSlot.routeEvent_of_none hnone]
    exact ⟨rfl, .of_none hnone⟩
  · have hagrees := agrees_routeEvent hshadow (slot.cells route.run) hobs sourceMethod event
      defer cap (fun waiting hdef hq => hroom route waiting hdef hroute hq)
    unfold RunSlot.routeEvent
    rw [hroute]
    dsimp only
    rw [hshadow.run_eq]
    refine ⟨hagrees.outcome, ?_⟩
    rw [hagrees.shared]
    exact slotShadows_store hagrees.route _

theorem slotShadows_publishTerminal {route ownRoute : RunRoute}
    (h : Shadows env turnId route ownRoute) (turn : String) (result : Result RunResult) :
    SlotShadows env turnId (slot.publishTerminal route turn result)
      ({ slot with route := some ownRoute }.publishTerminal ownRoute turn result) := by
  have hended : Shadows env turnId
      { route with phase := .terminalBeforeStart (some turn), pendingFailure := none }
      { ownRoute with phase := .terminalBeforeStart (some turn), pendingFailure := none } :=
    shadows_undeferred h rfl rfl
  obtain ⟨queue, bytes, byId, rfl, _⟩ := h
  have hphase : (route.rebooked queue bytes byId).phase = route.phase.setDeferred queue := rfl
  unfold RunSlot.publishTerminal
  rw [hphase]
  cases route.phase with
  | starting _ => exact ⟨_, rfl, .some hended⟩
  | replaying _ _ => exact ⟨none, rfl, .none⟩
  | active _ => exact ⟨none, rfl, .none⟩
  | terminalBeforeStart _ => exact ⟨none, rfl, .none⟩

theorem terminalResult_eq {route ownRoute : RunRoute} (h : Shadows env turnId route ownRoute)
    (failure : Option Error) (completion : TurnCompletion) :
    { slot with route := some ownRoute }.terminalResult ownRoute failure completion
      = slot.terminalResult route failure completion := by
  obtain ⟨queue, bytes, byId, rfl, _⟩ := h
  rfl

theorem slotShadows_settleTerminal {route ownRoute : RunRoute}
    (h : Shadows env turnId route ownRoute) (failure : Option Error)
    (completion : TurnCompletion) :
    SlotShadows env turnId (slot.settleTerminal route failure completion).2
      ({ slot with route := some ownRoute }.settleTerminal ownRoute failure completion).2 := by
  have hchecked : SlotShadows env turnId (slot.store route (slot.cells route.run))
      ({ slot with route := some ownRoute }.store ownRoute (slot.cells ownRoute.run)) := by
    rw [h.run_eq]
    exact slotShadows_store h _
  unfold RunSlot.settleTerminal
  dsimp only
  rw [h.isTerminal_eq, h.turnId_eq, terminalResult_eq h]
  split
  · exact hchecked
  · split
    · split
      · exact hchecked
      · exact slotShadows_publishTerminal h _ _
    · exact slotShadows_publishTerminal h _ _

theorem SlotShadows.routeTerminal (h : SlotShadows env turnId slot own)
    (completion : TurnCompletion) {params : Json}
    (hown : (DeferredRunNotification.terminal params).isForeign env turnId = false)
    (defer : Bool) (cap : Nat)
    (hroom : ∀ route waiting, defer = true → slot.route = some route →
      route.phase.deferred = some waiting → route.pendingFailure = none →
      waiting.length < cap) :
    SlotShadows env turnId (slot.routeTerminal completion params defer cap).2
      (own.routeTerminal completion params defer cap).2 := by
  rcases h.cases with ⟨hnone, rfl⟩ | ⟨route, ownRoute, hroute, rfl, hshadow⟩
  · rw [RunSlot.routeTerminal_of_none hnone]
    exact .of_none hnone
  · have hcond : (defer && ownRoute.pendingFailure.isNone)
        = (defer && route.pendingFailure.isNone) := by rw [hshadow.pendingFailure_eq]
    unfold RunSlot.routeTerminal
    rw [hroute]
    dsimp only
    rw [hcond, hshadow.deferred_eq]
    by_cases hdef : (defer && route.pendingFailure.isNone) = true
    · rw [if_pos hdef, if_pos hdef]
      obtain ⟨rfl, hp⟩ := Bool.and_eq_true_iff.mp hdef
      cases hq : route.phase.deferred with
      | none => exact slotShadows_settleTerminal hshadow none completion
      | some waiting =>
          have hlt := hroom route waiting rfl hroute hq (Option.isNone_iff_eq_none.mp hp)
          have hless : (ownOf env turnId waiting).length ≤ waiting.length := ownOf_length_le _
          rw [Option.map_some]
          dsimp only
          rw [if_pos hlt, if_pos (Nat.lt_of_le_of_lt hless hlt)]
          have hcells : slot.cells ownRoute.run = slot.cells route.run := by rw [hshadow.run_eq]
          rw [hcells]
          exact slotShadows_store (hshadow.pushTerminal hq hown) _
    · rw [if_neg hdef, if_neg hdef]
      exact slotShadows_settleTerminal hshadow none completion

/-! ### Calls that carry another turn -/

theorem SlotShadows.routeEvent_foreign (h : SlotShadows env turnId slot own)
    {observed : String} (hne : observed ≠ turnId) (sourceMethod : String) (event : Event)
    (defer : Bool) (cap : Nat)
    (hlive : ∀ route, slot.route = some route → route.phase.isTerminal = false →
      (defer = true ∧ route.phase.deferred ≠ none) ∨ route.phase.turnId = some turnId)
    (hroom : ∀ route waiting, defer = true → slot.route = some route →
      route.phase.deferred = some waiting → route.pendingFailure = none →
      ¬ route.RefusesDeferral event waiting cap)
    (hspare : ∀ route waiting, defer = true → slot.route = some route →
      route.phase.deferred = some waiting → ∀ imageId, event.imageId = some imageId →
        ∀ next ∈ ownOf env turnId waiting, next.imageId ≠ some imageId) :
    let routed := slot.routeEvent (some observed) sourceMethod event defer cap
    SlotShadows env turnId routed.2 own ∧ RunWorld.interruptOf routed.1 = [] := by
  intro routed
  rcases h.cases with ⟨hnone, rfl⟩ | ⟨route, ownRoute, hroute, rfl, hshadow⟩
  · have hrouted : routed = (.unregistered, own) := RunSlot.routeEvent_of_none hnone ..
    rw [hrouted]
    exact ⟨.of_none hnone, rfl⟩
  · obtain ⟨hstill, hshared, hint⟩ := hshadow.routeEvent_foreign (slot.cells route.run) hne
      sourceMethod event defer cap (hlive route hroute)
      (fun waiting hdef hq => hroom route waiting hdef hroute hq)
      (fun waiting hdef hq => hspare route waiting hdef hroute hq)
    have hrouted : routed = ((route.routeEvent (slot.cells route.run) (some observed)
        sourceMethod event defer cap).1, slot.store (route.routeEvent (slot.cells route.run)
        (some observed) sourceMethod event defer cap).2.1 (slot.cells route.run)) := by
      show RunSlot.routeEvent .. = _
      unfold RunSlot.routeEvent
      rw [hroute]
      dsimp only
      rw [hshared]
    rw [hrouted]
    refine ⟨⟨some ownRoute, ?_, .some hstill⟩, hint⟩
    have hrun := hstill.run_eq
    rw [hshadow.run_eq] at hrun
    unfold RunSlot.store
    rw [← hrun, Function.update_eq_self]

theorem SlotShadows.routeTerminal_foreign (h : SlotShadows env turnId slot own)
    {completion : TurnCompletion} {params : Json} (hne : completion.turnId ≠ turnId)
    (hforeign : (DeferredRunNotification.terminal params).isForeign env turnId = true)
    (defer : Bool) (cap : Nat)
    (hlive : ∀ route, slot.route = some route → route.phase.isTerminal = false →
      (defer = true ∧ route.pendingFailure = none ∧ route.phase.deferred ≠ none)
        ∨ route.phase.turnId = some turnId)
    (hroom : ∀ route waiting, defer = true → slot.route = some route →
      route.phase.deferred = some waiting → route.pendingFailure = none →
      waiting.length < cap) :
    SlotShadows env turnId (slot.routeTerminal completion params defer cap).2 own := by
  rcases h.cases with ⟨hnone, rfl⟩ | ⟨route, ownRoute, hroute, rfl, hshadow⟩
  · rw [RunSlot.routeTerminal_of_none hnone]
    exact .of_none hnone
  · have hsame : SlotShadows env turnId slot { slot with route := some ownRoute } :=
      .of_shadows hroute hshadow
    have hspec := RunSlot.routeTerminal_of_route hroute completion params defer cap
    cases hq : (if defer && route.pendingFailure.isNone then route.phase.deferred else none) with
    | some waiting =>
        have hroute' : (slot.routeTerminal completion params defer cap).2
            = slot.store { route with
              phase := route.phase.setDeferred (waiting ++ [.terminal params]) }
              (slot.cells route.run) := by
          have hdef : (defer && route.pendingFailure.isNone) = true := by
            by_contra hno
            rw [if_neg hno] at hq; cases hq
          have hwaiting := hq
          rw [if_pos hdef] at hwaiting
          obtain ⟨hd, hp⟩ := Bool.and_eq_true_iff.mp hdef
          unfold RunSlot.routeTerminal
          rw [hroute]
          dsimp only
          rw [hq]
          dsimp only
          rw [if_pos (hroom route waiting hd hroute hwaiting (Option.isNone_iff_eq_none.mp hp))]
        rw [hroute']
        have hstill := hshadow.pushTerminalForeign (RunPhase.deferred_of_ite _ waiting hq)
          hforeign
        refine ⟨some ownRoute, ?_, .some hstill⟩
        unfold RunSlot.store
        dsimp only
        rw [Function.update_eq_self]
    | none =>
        rw [hq] at hspec
        cases hrouted : slot.routeTerminal completion params defer cap with
        | mk outcome slot' =>
        rw [hrouted] at hspec
        cases hspec with
        | deferred hsome _ => cases hsome
        | duplicate _ => exact hsame
        | mismatch _ _ _ => exact hsame
        | mismatchFull hsome _ _ _ => cases hsome
        | completed hl hturn _ =>
            rcases hlive route hroute hl with ⟨rfl, hp, hdef⟩ | hown
            · rw [hp] at hq
              exact absurd hq hdef
            · exact absurd (hturn turnId hown).symm hne

/-! ### The other parties -/

theorem Shadows.phase_eq {route ownRoute : RunRoute} (h : Shadows env turnId route ownRoute) :
    ∃ queue, ownRoute.phase = route.phase.setDeferred queue := by
  obtain ⟨queue, _, _, rfl, _⟩ := h
  exact ⟨queue, rfl⟩

/-- The session's flag does not matter. -/
theorem SlotShadows.setActive (h : SlotShadows env turnId slot own) (active : Bool) :
    SlotShadows env turnId { slot with active } { own with active } := by
  obtain ⟨ownRoute, rfl, hrel⟩ := h
  exact ⟨ownRoute, rfl, hrel⟩

/-- Both routes are taken out of the map, with the same last words. -/
theorem slotShadows_remove {ownRoute : Option RunRoute} (run : Nat) (shared : RunShared) :
    SlotShadows env turnId { slot.removeRoute run shared with active := false }
      { { slot with route := ownRoute }.removeRoute run shared with active := false } :=
  ⟨none, rfl, .none⟩

theorem SlotShadows.failBeforeStart (h : SlotShadows env turnId slot own) (error : Error) :
    SlotShadows env turnId (slot.failBeforeStart error).2 (own.failBeforeStart error).2 := by
  have hkeep := h
  unfold RunSlot.failBeforeStart
  rcases h.cases with ⟨hnone, rfl⟩ | ⟨route, ownRoute, hroute, rfl, hshadow⟩
  · rw [hnone]; exact .of_none hnone
  · obtain ⟨queue, hphase⟩ := hshadow.phase_eq
    have hended : Shadows env turnId { route with phase := .terminalBeforeStart none }
        { ownRoute with phase := .terminalBeforeStart none } :=
      shadows_undeferred hshadow rfl hshadow.pendingFailure_eq
    have hcells : slot.cells ownRoute.run = slot.cells route.run := by rw [hshadow.run_eq]
    rw [hroute]
    dsimp only
    rw [hphase, hcells]
    cases route.phase with
    | starting _ => exact (slotShadows_store hended _).setActive false
    | replaying _ _ => exact hkeep
    | active _ => exact hkeep
    | terminalBeforeStart _ => exact hkeep

theorem SlotShadows.cancelRegistered (h : SlotShadows env turnId slot own) :
    own.cancelRegistered.1 = slot.cancelRegistered.1
      ∧ SlotShadows env turnId slot.cancelRegistered.2 own.cancelRegistered.2 := by
  unfold RunSlot.cancelRegistered
  rcases h.cases with ⟨hnone, rfl⟩ | ⟨route, ownRoute, hroute, rfl, hshadow⟩
  · rw [hnone]
    exact ⟨rfl, .of_none hnone⟩
  · rw [hroute]
    dsimp only
    rw [hshadow.isTerminal_eq, hshadow.run_eq, hshadow.turnId_eq]
    split
    · exact ⟨rfl, slotShadows_remove _ _⟩
    · cases route.phase.turnId with
      | none => exact ⟨rfl, slotShadows_remove _ _⟩
      | some turn => exact ⟨rfl, slotShadows_store hshadow _⟩

theorem SlotShadows.failActive (h : SlotShadows env turnId slot own) (turn : String)
    (control : Nat) (error : Error) :
    (own.failActive turn control error).1 = (slot.failActive turn control error).1
      ∧ SlotShadows env turnId (slot.failActive turn control error).2
          (own.failActive turn control error).2 := by
  have hkeep := h
  unfold RunSlot.failActive
  rcases h.cases with ⟨hnone, rfl⟩ | ⟨route, ownRoute, hroute, rfl, hshadow⟩
  · rw [hnone]
    exact ⟨rfl, .of_none hnone⟩
  · rw [hroute]
    dsimp only
    rw [hshadow.isTerminal_eq, hshadow.turnId_eq, hshadow.run_eq, hshadow.pendingFailure_eq]
    split
    · exact ⟨rfl, hkeep⟩
    · refine ⟨rfl, slotShadows_store ?_ _⟩
      obtain ⟨queue, bytes, byId, rfl, hbooks⟩ := hshadow
      refine ⟨queue, bytes, byId, rfl, ?_⟩
      intro waiting hwaiting
      exact (hbooks waiting hwaiting).of_sameBooks rfl rfl

theorem SlotShadows.failAll (h : SlotShadows env turnId slot own) (error : Error) :
    SlotShadows env turnId (slot.failAll error) (own.failAll error) := by
  unfold RunSlot.failAll
  rcases h.cases with ⟨hnone, rfl⟩ | ⟨route, ownRoute, hroute, rfl, hshadow⟩
  · rw [hnone]
    exact .of_none hnone
  · rw [hroute]
    dsimp only
    rw [hshadow.run_eq, hshadow.pendingFailure_eq]
    exact slotShadows_remove _ _

theorem SlotShadows.activeTurn (h : SlotShadows env turnId slot own) :
    own.activeTurn = slot.activeTurn := by
  unfold RunSlot.activeTurn
  rcases h.cases with ⟨_, rfl⟩ | ⟨route, ownRoute, hroute, rfl, hshadow⟩
  · rfl
  · rw [hroute, Option.bind_some, Option.bind_some, hshadow.turnId_eq, hshadow.run_eq]

/-- Both routes take up the replay with nothing deferred. -/
theorem shadows_replaying {route ownRoute : RunRoute} (h : Shadows env turnId route ownRoute)
    (turn : String) :
    Shadows env turnId { route.clearDeferredImageBytes with phase := .replaying turn [] }
      { ownRoute.clearDeferredImageBytes with phase := .replaying turn [] } := by
  obtain ⟨queue, bytes, byId, rfl, _⟩ := h
  refine shadows_cleared ?_ rfl rfl
  intro waiting hwaiting
  cases hwaiting
  rfl

/-- Both threads acknowledge, or neither does; the shadow hands over the run's own queue. -/
theorem SlotShadows.acknowledgeStart (h : SlotShadows env turnId slot own) (turn : String) :
    (∃ queue slot' own', slot.acknowledgeStart turn = (.replay queue, slot')
        ∧ own.acknowledgeStart turn = (.replay (ownOf env turnId queue), own')
        ∧ SlotShadows env turnId slot' own')
      ∨ ∃ transition slot' own', (∀ queue, transition ≠ .replay queue)
        ∧ slot.acknowledgeStart turn = (transition, slot')
        ∧ own.acknowledgeStart turn = (transition, own') ∧ SlotShadows env turnId slot' own' := by
  have hkeep := h
  unfold RunSlot.acknowledgeStart
  rcases h.cases with ⟨hnone, rfl⟩ | ⟨route, ownRoute, hroute, rfl, hshadow⟩
  · rw [hnone]
    exact Or.inr ⟨_, _, _, by simp, rfl, rfl, .of_none hnone⟩
  · have hdeferred := hshadow.deferred_eq
    obtain ⟨queue, hphase⟩ := hshadow.phase_eq
    have hgone : SlotShadows env turnId { slot with route := none } { slot with route := none } :=
      .of_none rfl
    rw [hroute]
    dsimp only
    cases hp : route.phase with
    | starting waiting =>
        rw [hp] at hdeferred hphase
        rw [hphase] at hdeferred ⊢
        have hqueue : queue = ownOf env turnId waiting := Option.some.inj hdeferred
        have hcells : slot.cells ownRoute.run = slot.cells route.run := by rw [hshadow.run_eq]
        dsimp only [RunPhase.setDeferred]
        rw [hqueue, hcells]
        exact Or.inl ⟨waiting, _, _, rfl, rfl,
          slotShadows_store (shadows_replaying hshadow turn) _⟩
    | replaying active waiting =>
        rw [hphase, hp]
        exact Or.inr ⟨_, _, _, by simp, rfl, rfl, hkeep⟩
    | active active =>
        rw [hphase, hp]
        exact Or.inr ⟨_, _, _, by simp, rfl, rfl, hkeep⟩
    | terminalBeforeStart ended =>
        rw [hphase, hp]
        cases ended with
        | none => exact Or.inr ⟨_, _, _, by simp, rfl, rfl, hgone⟩
        | some expected =>
            dsimp only [RunPhase.setDeferred]
            split
            · exact Or.inr ⟨_, _, _, by simp, rfl, rfl, hkeep⟩
            · exact Or.inr ⟨_, _, _, by simp, rfl, rfl, hgone⟩

/-- Both loops go on, or neither does, unless the queue holds nothing but other turns. -/
theorem SlotShadows.replayTransition (h : SlotShadows env turnId slot own) (turn : String)
    (hmixed : ∀ route queue, slot.route = some route → route.phase = .replaying turn queue →
      queue ≠ [] → ownOf env turnId queue ≠ []) :
    (∃ queue slot' own', slot.replayTransition turn = (.next queue, slot')
        ∧ own.replayTransition turn = (.next (ownOf env turnId queue), own')
        ∧ SlotShadows env turnId slot' own')
      ∨ ∃ transition slot' own', (∀ queue, transition ≠ .next queue)
        ∧ slot.replayTransition turn = (transition, slot')
        ∧ own.replayTransition turn = (transition, own') ∧ SlotShadows env turnId slot' own' := by
  have hkeep := h
  unfold RunSlot.replayTransition
  rcases h.cases with ⟨hnone, rfl⟩ | ⟨route, ownRoute, hroute, rfl, hshadow⟩
  · rw [hnone]
    exact Or.inr ⟨_, _, _, by simp, rfl, rfl, .of_none hnone⟩
  · have hdeferred := hshadow.deferred_eq
    obtain ⟨queue, hphase⟩ := hshadow.phase_eq
    rw [hroute]
    dsimp only
    cases hp : route.phase with
    | starting waiting =>
        rw [hphase, hp]
        exact Or.inr ⟨_, _, _, by simp, rfl, rfl, hkeep⟩
    | active active =>
        rw [hphase, hp]
        exact Or.inr ⟨_, _, _, by simp, rfl, rfl, hkeep⟩
    | terminalBeforeStart ended =>
        rw [hphase, hp]
        exact Or.inr ⟨_, _, _, by simp, rfl, rfl, hkeep⟩
    | replaying active waiting =>
        rw [hp] at hdeferred hphase
        rw [hphase] at hdeferred ⊢
        have hqueue : queue = ownOf env turnId waiting := Option.some.inj hdeferred
        have hcells : slot.cells ownRoute.run = slot.cells route.run := by rw [hshadow.run_eq]
        dsimp only [RunPhase.setDeferred]
        rw [hqueue, hcells]
        by_cases hturn : active = turn
        · subst hturn
          rw [if_pos rfl, if_pos rfl]
          cases hwaiting : waiting with
          | nil =>
              refine Or.inr ⟨_, _, _, by simp, rfl, rfl, slotShadows_store ?_ _⟩
              exact shadows_undeferred hshadow rfl hshadow.pendingFailure_eq
          | cons next rest =>
              have hown := hmixed route waiting hroute hp (by rw [hwaiting]; simp)
              rw [hwaiting] at hown
              rw [if_neg (by simp), if_neg (by simpa using hown)]
              exact Or.inl ⟨_, _, _, rfl, rfl, slotShadows_store (shadows_replaying hshadow _) _⟩
        · rw [if_neg hturn, if_neg hturn]
          exact Or.inr ⟨_, _, _, by simp, rfl, rfl, hkeep⟩

/-- The loop takes over a queue of nothing but other turns. -/
theorem SlotShadows.takeForeign (h : SlotShadows env turnId slot own) {route : RunRoute}
    {turn : String} {queue : List DeferredRunNotification} (hroute : slot.route = some route)
    (hphase : route.phase = .replaying turn queue) (hempty : ownOf env turnId queue = []) :
    SlotShadows env turnId (slot.store { route.clearDeferredImageBytes with
      phase := .replaying turn [] } (slot.cells route.run)) own := by
  rcases h.cases with ⟨hnone, _⟩ | ⟨r, ownRoute, hr, rfl, hshadow⟩
  · rw [hroute] at hnone; cases hnone
  · rw [hroute] at hr; cases hr
    refine ⟨some ownRoute, ?_, .some ?_⟩
    · unfold RunSlot.store
      have hrun : ({ route.clearDeferredImageBytes with
          phase := .replaying turn [] } : RunRoute).run = route.run := rfl
      rw [hrun, Function.update_eq_self]
    · obtain ⟨waiting, bytes, byId, rfl, hbooks⟩ := hshadow
      have hb := hbooks queue (by rw [hphase]; rfl)
      have hwaiting : waiting = [] := hb.queue_eq.trans hempty
      -- nothing of the run waits, so nothing is charged for it
      have hfree : ∀ imageId, imageId ∉ byId := by
        intro imageId himage
        obtain ⟨next, hnext, _⟩ := hb.held imageId himage
        rw [hwaiting] at hnext; cases hnext
      refine ⟨[], bytes, byId, ?_, ?_⟩
      · unfold RunRoute.rebooked RunRoute.clearDeferredImageBytes
        rw [hphase, hwaiting]
        rfl
      · intro waiting' hnew
        cases hnew
        refine ⟨rfl, rfl, hb.chargedOwn, ?_, ?_⟩
        · intro imageId n hn
          rw [AList.lookup_eq_none.mpr (hfree imageId)] at hn; cases hn
        · intro imageId himage
          exact absurd himage (hfree imageId)

end Slots

end Vergerail
