import Vergerail.Proof.RouteOps

/-!
# The stages of one run

The accepted turn, the replay loop and the phase of the route are three
variables of three parties, but only eight combinations of them occur. `RunStage`
lists them, and `RunShape` adds what each says about the terminal watch: empty
while the route is live, filled as soon as an accepted run has lost its route.

Every later invariant about the handover is a case analysis on the stage.
-/

namespace Vergerail

open Lib

/-- The combinations of accepted turn, replay loop and phase that occur. -/
inductive RunStage : Option String → ReplayLoop → Option RunPhase → Prop where
  /-- Nothing was acknowledged; notifications are deferred. -/
  | starting (queue : List DeferredRunNotification) :
      RunStage none .idle (some (.starting queue))
  /-- The run ended before it was acknowledged. -/
  | ended (turnId : Option String) : RunStage none .idle (some (.terminalBeforeStart turnId))
  /-- The run was cancelled or disconnected before it was acknowledged. -/
  | lost : RunStage none .idle none
  /-- The replay loop works while the router goes on deferring. -/
  | replaying (turnId : String) (batch queue : List DeferredRunNotification) :
      RunStage (some turnId) (.running turnId batch) (some (.replaying turnId queue))
  /-- The handover is complete. -/
  | active (turnId : String) : RunStage (some turnId) .stopped (some (.active turnId))
  /-- The run ended under the replay loop. -/
  | overtaken (turnId : String) (batch : List DeferredRunNotification) :
      RunStage (some turnId) (.running turnId batch) none
  /-- The run ended. -/
  | over (turnId : String) : RunStage (some turnId) .stopped none
  /-- The acknowledgement found the run ended, so nothing was replayed. -/
  | completed (turnId : String) : RunStage (some turnId) .idle none

/-- A change of the deferred queue is no change of the stage. -/
theorem RunStage.setDeferred {accepted : Option String} {replay : ReplayLoop}
    {phase : RunPhase} (h : RunStage accepted replay (some phase))
    (queue : List DeferredRunNotification) :
    RunStage accepted replay (some (phase.setDeferred queue)) := by
  cases h with
  | starting _ => exact .starting queue
  | ended turnId => exact .ended turnId
  | replaying turnId batch _ => exact .replaying turnId batch queue
  | active turnId => exact .active turnId

/-- The loop takes the next notification out of its batch. -/
theorem RunStage.pop {accepted : Option String} {turnId : String}
    {next : DeferredRunNotification} {batch : List DeferredRunNotification}
    {phase : Option RunPhase} (h : RunStage accepted (.running turnId (next :: batch)) phase) :
    RunStage accepted (.running turnId batch) phase := by
  cases h with
  | replaying _ _ queue => exact .replaying turnId batch queue
  | overtaken _ _ => exact .overtaken turnId batch

theorem RunStage.of_starting {accepted : Option String} {replay : ReplayLoop}
    {queue : List DeferredRunNotification}
    (h : RunStage accepted replay (some (.starting queue))) :
    accepted = none ∧ replay = .idle := by
  cases h; exact ⟨rfl, rfl⟩

theorem RunStage.of_ended {accepted : Option String} {replay : ReplayLoop}
    {turnId : Option String} (h : RunStage accepted replay (some (.terminalBeforeStart turnId))) :
    accepted = none ∧ replay = .idle := by
  cases h; exact ⟨rfl, rfl⟩

theorem RunStage.of_replaying {accepted : Option String} {replay : ReplayLoop}
    {turnId : String} {queue : List DeferredRunNotification}
    (h : RunStage accepted replay (some (.replaying turnId queue))) :
    accepted = some turnId ∧ ∃ batch, replay = .running turnId batch := by
  cases h with
  | replaying _ batch _ => exact ⟨rfl, batch, rfl⟩

theorem RunStage.of_active {accepted : Option String} {replay : ReplayLoop}
    {turnId : String} (h : RunStage accepted replay (some (.active turnId))) :
    accepted = some turnId ∧ replay = .stopped := by
  cases h; exact ⟨rfl, rfl⟩

/-- The turn of a live route is the accepted one. -/
theorem RunStage.turn_of_live {accepted : Option String} {replay : ReplayLoop}
    {phase : RunPhase} (h : RunStage accepted replay (some phase))
    (hlive : phase.isTerminal = false) : phase.turnId = accepted := by
  cases h with
  | starting _ => rfl
  | ended _ => cases hlive
  | replaying _ _ _ => rfl
  | active _ => rfl

/-- A loop that is running replays the accepted turn, and owns the route if there is one. -/
theorem RunStage.of_running {accepted : Option String} {turnId : String}
    {batch : List DeferredRunNotification} {phase : Option RunPhase}
    (h : RunStage accepted (.running turnId batch) phase) :
    accepted = some turnId ∧ (phase = none ∨ ∃ queue, phase = some (.replaying turnId queue)) := by
  cases h with
  | replaying _ _ queue => exact ⟨rfl, Or.inr ⟨queue, rfl⟩⟩
  | overtaken _ _ => exact ⟨rfl, Or.inl rfl⟩

/-- What the stage of a run says about its route and its watch. -/
structure RunShape (slot : RunSlot) (replay : ReplayLoop) (accepted : Option String) : Prop where
  /-- The thread has seen one registration. -/
  owner : ∀ route, slot.route = some route → route.run = 0
  /-- The stage. -/
  stage : RunStage accepted replay (slot.route.map (·.phase))
  /-- The handle waits for the terminal. -/
  listened : (slot.cells 0).terminal.receivers ≠ 0
  /-- A live route has published nothing. -/
  unpublished : ∀ route, slot.route = some route → route.phase.isTerminal = false →
    (slot.cells 0).terminal.value = none
  /-- An ended route has published. -/
  ended : ∀ route, slot.route = some route → route.phase.isTerminal = true →
    (slot.cells 0).terminal.value.isSome
  /-- A run without a route has published, or was cancelled before it was acknowledged. -/
  gone : slot.route = none → (slot.cells 0).terminal.value.isSome
    ∨ (accepted = none ∧ (slot.cells 0).abandoned = true)

section Shape

variable {slot : RunSlot} {replay : ReplayLoop} {accepted : Option String}

/-- The stage of a run whose route is in hand. -/
theorem RunShape.stage_of (h : RunShape slot replay accepted) {route : RunRoute}
    (hroute : slot.route = some route) : RunStage accepted replay (some route.phase) := by
  have hstage := h.stage
  rw [hroute] at hstage
  exact hstage

/-- Writing a route back with another queue and the same watch. -/
theorem RunShape.store (h : RunShape slot replay accepted) {route route' : RunRoute}
    {shared : RunShared} {queue : List DeferredRunNotification}
    (hroute : slot.route = some route) (hrun : route'.run = route.run)
    (hphase : route'.phase = route.phase.setDeferred queue)
    (hterm : shared.terminal = (slot.cells 0).terminal) :
    RunShape (slot.store route' shared) replay accepted := by
  have hzero : route'.run = 0 := hrun.trans (h.owner route hroute)
  have hcells : (slot.store route' shared).cells 0 = shared := by
    rw [← hzero]; exact RunSlot.store_cells_self ..
  have ht : route'.phase.isTerminal = route.phase.isTerminal := by
    rw [hphase, RunPhase.setDeferred_isTerminal]
  constructor
  · intro r hr
    cases hr; exact hzero
  · rw [RunSlot.store_route, Option.map_some, hphase]
    exact (h.stage_of hroute).setDeferred queue
  · rw [hcells, hterm]; exact h.listened
  · intro r hr hlive
    cases hr
    rw [hcells, hterm]
    exact h.unpublished route hroute (ht.symm.trans hlive)
  · intro r hr hend
    cases hr
    rw [hcells, hterm]
    exact h.ended route hroute (ht.symm.trans hend)
  · intro hr; cases hr

/-- Removing a route leaves a stage without one. -/
theorem RunStage.remove {phase : RunPhase} (h : RunStage accepted replay (some phase)) :
    RunStage accepted replay none := by
  cases h with
  | starting _ => exact .lost
  | ended _ => exact .lost
  | replaying turnId batch _ => exact .overtaken turnId batch
  | active turnId => exact .over turnId

/-- Taking a route out of the map. -/
theorem RunShape.remove (h : RunShape slot replay accepted) {route : RunRoute}
    {slot' : RunSlot} (hroute : slot.route = some route) (hnone : slot'.route = none)
    (hrecv : (slot'.cells 0).terminal.receivers = (slot.cells 0).terminal.receivers)
    (hgone : (slot'.cells 0).terminal.value.isSome
      ∨ (accepted = none ∧ (slot'.cells 0).abandoned = true)) :
    RunShape slot' replay accepted := by
  constructor
  · intro r hr
    rw [hnone] at hr; cases hr
  · rw [hnone]; exact (h.stage_of hroute).remove
  · rw [hrecv]; exact h.listened
  · intro r hr
    rw [hnone] at hr; cases hr
  · intro r hr
    rw [hnone] at hr; cases hr
  · intro _; exact hgone

/-- A watch somebody listens to is filled by a publication. -/
theorem RunShape.publish_isSome (h : RunShape slot replay accepted)
    (result : Result RunResult) :
    ((slot.cells 0).publish result).terminal.value.isSome := by
  have hsent := Watch.send_value h.listened (some result)
  exact (congrArg Option.isSome hsent).trans rfl

/-- Publishing a terminal. -/
theorem RunShape.publishTerminal (h : RunShape slot replay accepted) {route : RunRoute}
    (hroute : slot.route = some route) (turnId : String) (result : Result RunResult) :
    RunShape (slot.publishTerminal route turnId result) replay accepted := by
  have hzero := h.owner route hroute
  have hrecv : ((slot.cells 0).publish result).terminal.receivers
      = (slot.cells 0).terminal.receivers := Watch.send_receivers ..
  have hstage := h.stage_of hroute
  -- only an unacknowledged route stays
  have hremoved : ∀ slot' : RunSlot, slot'.route = none →
      slot'.cells = Function.update slot.cells route.run
        ((slot.cells route.run).publish result) → RunShape slot' replay accepted := by
    intro slot' hnone hcells
    rw [hzero] at hcells
    refine h.remove hroute hnone ?_ ?_
    · rw [hcells, Function.update_self]; exact hrecv
    · rw [hcells, Function.update_self]; exact Or.inl (h.publish_isSome result)
  unfold RunSlot.publishTerminal
  dsimp only
  cases hphase : route.phase with
  | starting queue =>
      rw [hphase] at hstage
      cases hstage
      have hcells : Function.update slot.cells route.run
          ((slot.cells route.run).publish result) 0 = (slot.cells 0).publish result := by
        rw [hzero, Function.update_self]
      constructor
      · intro r hr
        cases hr; exact hzero
      · exact .ended (some turnId)
      · have hlistened := h.listened
        rw [← hrecv, ← hcells] at hlistened
        exact hlistened
      · intro r hr hlive
        cases hr; cases hlive
      · intro r hr _
        have hsome := h.publish_isSome result
        rw [← hcells] at hsome
        exact hsome
      · intro hr; cases hr
  | replaying _ _ => exact hremoved _ rfl rfl
  | active _ => exact hremoved _ rfl rfl
  | terminalBeforeStart _ => exact hremoved _ rfl rfl

/-! ## The registry operations -/

theorem RunShape.routeEvent (h : RunShape slot replay accepted) (observed : Option String)
    (sourceMethod : String) (event : Event) (defer : Bool) (cap : Nat) :
    RunShape (slot.routeEvent observed sourceMethod event defer cap).2 replay accepted := by
  cases hroute : slot.route with
  | none => rw [RunSlot.routeEvent_of_none hroute]; exact h
  | some route =>
      obtain ⟨outcome, route', shared', heq, hspec⟩ :=
        RunSlot.routeEvent_of_route hroute observed sourceMethod event defer cap
      rw [heq]
      rcases hspec.kept (RunPhase.deferred_of_ite defer) with
        ⟨h1, h2⟩ | ⟨_, _, hrun, ⟨queue, hphase⟩, hterm, _⟩
      · rw [h1, h2, RunSlot.store_self hroute]; exact h
      · rw [h.owner route hroute] at hterm
        exact h.store hroute hrun hphase hterm

theorem RunShape.routeTerminal (h : RunShape slot replay accepted) (completion : TurnCompletion)
    (params : Json) (defer : Bool) (cap : Nat) :
    RunShape (slot.routeTerminal completion params defer cap).2 replay accepted := by
  cases hroute : slot.route with
  | none => rw [RunSlot.routeTerminal_of_none hroute]; exact h
  | some route =>
      have hspec := RunSlot.routeTerminal_of_route hroute completion params defer cap
      have hzero := h.owner route hroute
      cases hrouted : slot.routeTerminal completion params defer cap with
      | mk outcome slot' =>
      rw [hrouted] at hspec
      cases hspec with
      | duplicate _ => exact h
      | mismatch _ _ _ => exact h
      | deferred _ _ => exact h.store hroute rfl rfl (by rw [hzero])
      | mismatchFull _ _ _ _ => exact h.store hroute rfl rfl (by rw [hzero])
      | completed _ _ _ => exact h.publishTerminal hroute _ _

theorem RunShape.failBeforeStart (h : RunShape slot replay accepted) (error : Error) :
    RunShape (slot.failBeforeStart error).2 replay accepted := by
  unfold RunSlot.failBeforeStart
  cases hroute : slot.route with
  | none => exact h
  | some route =>
      have hzero := h.owner route hroute
      have hstage := h.stage_of hroute
      dsimp only
      cases hphase : route.phase with
      | terminalBeforeStart _ => exact h
      | replaying _ _ => exact h
      | active _ => exact h
      | starting _ =>
          rw [hphase] at hstage
          cases hstage
          have hcells : (slot.store { route with phase := .terminalBeforeStart none }
              ((slot.cells route.run).publish (.error error))).cells 0
                = (slot.cells 0).publish (.error error) := by
            rw [← hzero]; exact RunSlot.store_cells_self ..
          constructor
          · intro r hr
            cases hr; exact hzero
          · exact .ended none
          · have hlistened := h.listened
            have hrecv : ((slot.cells 0).publish (.error error)).terminal.receivers
                = (slot.cells 0).terminal.receivers := Watch.send_receivers ..
            rw [← hrecv, ← hcells] at hlistened
            exact hlistened
          · intro r hr hlive
            cases hr; cases hlive
          · intro r hr _
            have hsome := h.publish_isSome (.error error)
            rw [← hcells] at hsome
            exact hsome
          · intro hr; cases hr

theorem RunShape.cancelRegistered (h : RunShape slot replay accepted) :
    RunShape slot.cancelRegistered.2 replay accepted := by
  unfold RunSlot.cancelRegistered
  cases hroute : slot.route with
  | none => exact h
  | some route =>
      have hzero := h.owner route hroute
      have hstage := h.stage_of hroute
      dsimp only
      -- a route that is removed here was never acknowledged
      have hremoved : ∀ shared : RunShared,
          shared.terminal = (slot.cells route.run).terminal →
          (shared.terminal.value.isSome ∨ (accepted = none ∧ shared.abandoned = true)) →
          RunShape { slot.removeRoute route.run shared with active := false }
            replay accepted := by
        intro shared hterm hgone
        have hcells : (slot.removeRoute route.run shared).cells 0 = shared := by
          rw [← hzero]; exact RunSlot.removeRoute_cells_self ..
        refine h.remove hroute rfl ?_ ?_
        · have hrecv := congrArg (fun s => s.terminal.receivers) hcells
          refine hrecv.trans ?_
          rw [hterm, hzero]
        · rw [← hcells] at hgone
          exact hgone
      by_cases ht : route.phase.isTerminal = true
      · rw [if_pos ht]
        refine hremoved _ rfl (Or.inl ?_)
        rw [hzero]
        exact h.ended route hroute ht
      · rw [if_neg ht]
        have hsame : route.phase = route.phase.setDeferred (route.phase.deferred.getD []) := by
          cases route.phase <;> rfl
        cases hturn : route.phase.turnId with
        | some turnId => exact h.store hroute rfl hsame (by rw [hzero])
        | none =>
            refine hremoved _ rfl (Or.inr ⟨?_, rfl⟩)
            have hlive : route.phase.isTerminal = false := by simpa using ht
            rw [← hstage.turn_of_live hlive, hturn]

theorem RunShape.failActive (h : RunShape slot replay accepted) (turnId : String)
    (control : Nat) (error : Error) :
    RunShape (slot.failActive turnId control error).2 replay accepted := by
  unfold RunSlot.failActive
  cases hroute : slot.route with
  | none => exact h
  | some route =>
      dsimp only
      have hsame : route.phase = route.phase.setDeferred (route.phase.deferred.getD []) := by
        cases route.phase <;> rfl
      split
      · exact h
      · exact h.store hroute rfl hsame (by rw [h.owner route hroute])

theorem RunShape.failAll (h : RunShape slot replay accepted) (error : Error) :
    RunShape (slot.failAll error) replay accepted := by
  unfold RunSlot.failAll
  cases hroute : slot.route with
  | none => exact h
  | some route =>
      have hzero := h.owner route hroute
      dsimp only
      rw [hzero]
      have hvalue : (slot.cells 0).observeTerminal.terminal = (slot.cells 0).terminal := rfl
      have hremoved : ∀ shared : RunShared, shared.terminal.value.isSome →
          shared.terminal.receivers = (slot.cells 0).terminal.receivers →
          RunShape { slot.removeRoute 0 shared with active := false } replay accepted := by
        intro shared hsome hrecv
        have hcells := RunSlot.removeRoute_cells_self slot 0 shared
        refine h.remove hroute rfl ?_ (Or.inl ?_)
        · exact (congrArg (fun s => s.terminal.receivers) hcells).trans hrecv
        · rw [← hcells] at hsome
          exact hsome
      by_cases hnone : (slot.cells 0).terminal.value.isNone = true
      · rw [hvalue, if_pos hnone]
        exact hremoved _ (h.publish_isSome (.error _)) (Watch.send_receivers ..)
      · rw [hvalue, if_neg hnone]
        refine hremoved _ ?_ rfl
        rw [hvalue]
        simpa [Option.isNone_iff_eq_none, Option.isSome_iff_ne_none] using hnone

end Shape

/-- An operation leaves the phase of every route that is still live alone, and fails none
whose turn is not known. -/
def RunSlot.SamePhase (slot slot' : RunSlot) : Prop :=
  ∀ route', slot'.route = some route' → route'.phase.isTerminal = false →
    ∃ route, slot.route = some route ∧ route'.phase = route.phase
      ∧ (route.phase.turnId = none → route'.pendingFailure = route.pendingFailure)

theorem samePhase_refl (slot : RunSlot) : slot.SamePhase slot := by
  intro route hroute _
  exact ⟨route, hroute, rfl, fun _ => rfl⟩

theorem samePhase_failBeforeStart (slot : RunSlot) (error : Error) :
    slot.SamePhase (slot.failBeforeStart error).2 := by
  unfold RunSlot.failBeforeStart
  cases hroute : slot.route with
  | none => exact samePhase_refl slot
  | some route =>
      dsimp only
      split
      · intro route' hr hlive
        cases hr; cases hlive
      · exact samePhase_refl slot
      · exact samePhase_refl slot
      · exact samePhase_refl slot

theorem samePhase_cancelRegistered (slot : RunSlot) :
    slot.SamePhase slot.cancelRegistered.2 := by
  unfold RunSlot.cancelRegistered
  cases hroute : slot.route with
  | none => exact samePhase_refl slot
  | some route =>
      dsimp only
      split
      · intro route' hr; cases hr
      · split
        · intro route' hr _
          cases hr
          exact ⟨route, hroute, rfl, fun _ => rfl⟩
        · intro route' hr; cases hr

theorem samePhase_failActive (slot : RunSlot) (turnId : String) (control : Nat)
    (error : Error) : slot.SamePhase (slot.failActive turnId control error).2 := by
  unfold RunSlot.failActive
  cases hroute : slot.route with
  | none => exact samePhase_refl slot
  | some route =>
      dsimp only
      split
      · exact samePhase_refl slot
      · rename_i howned
        intro route' hr _
        cases hr
        refine ⟨route, hroute, rfl, ?_⟩
        intro hnone
        -- only the owner of a known turn is failed
        rw [hnone] at howned
        simp at howned

/-! ## The start task -/

/-- What acknowledging a turn can do to a run. -/
inductive AcknowledgeSpec (w : RunWorld) (turnId : String) : RunWorld → Prop where
  /-- Nothing is left to acknowledge, or not this turn, or not any more. -/
  | refused : AcknowledgeSpec w turnId w
  /-- The replay loop takes over what was deferred. -/
  | replay {route : RunRoute} {queue : List DeferredRunNotification} :
      w.slot.route = some route → route.phase = .starting queue →
      AcknowledgeSpec w turnId { w with
        slot := w.slot.store
          { route.clearDeferredImageBytes with phase := .replaying turnId [] }
          (w.slot.cells route.run)
        replay := .running turnId queue
        accepted := some turnId }
  /-- The run ended before, with this turn or with none. -/
  | completed {route : RunRoute} {ended : Option String} : w.slot.route = some route →
      route.phase = .terminalBeforeStart ended → (∀ t, ended = some t → t = turnId) →
      AcknowledgeSpec w turnId { w with
        slot := { w.slot with route := none }
        accepted := some turnId }

theorem acknowledgeStart_spec (w : RunWorld) (turnId : String) :
    AcknowledgeSpec w turnId (w.acknowledgeStart turnId) := by
  unfold RunWorld.acknowledgeStart RunSlot.acknowledgeStart
  cases hroute : w.slot.route with
  | none => exact .refused
  | some route =>
      dsimp only
      cases hphase : route.phase with
      | starting queue => exact .replay hroute hphase
      | replaying _ _ => exact .refused
      | active _ => exact .refused
      | terminalBeforeStart ended =>
          cases ended with
          | none =>
              refine .completed hroute hphase ?_
              intro t ht; cases ht
          | some expected =>
              dsimp only
              by_cases hne : expected ≠ turnId
              · rw [if_pos hne]; exact .refused
              · rw [if_neg hne]
                refine .completed hroute hphase ?_
                intro t ht
                cases ht
                exact Classical.not_not.mp hne

/-- What one step of the replay loop can do to a run. -/
inductive ReplaySpec (env : RunEnv) (w : RunWorld) : RunWorld → Prop where
  | resting : w.replay = .idle ∨ w.replay = .stopped → ReplaySpec env w w
  | event {turnId observed sourceMethod : String} {event : Event}
      {batch : List DeferredRunNotification} :
      w.replay = .running turnId (.event observed sourceMethod event :: batch) →
      ReplaySpec env w { w with
        slot := (w.slot.routeEvent (some observed) sourceMethod event false
          env.eventCapacity).2
        replay := .running turnId batch
        interrupts := w.interrupts ++ RunWorld.interruptOf
          (w.slot.routeEvent (some observed) sourceMethod event false env.eventCapacity).1 }
  | unreadable {turnId : String} {params : Json} {batch : List DeferredRunNotification}
      {error : Error} : w.replay = .running turnId (.terminal params :: batch) →
      turnCompletion env.redactLine params = .error error →
      ReplaySpec env w { w with replay := .running turnId batch }
  | terminal {turnId : String} {params : Json} {batch : List DeferredRunNotification}
      {completion : TurnCompletion} : w.replay = .running turnId (.terminal params :: batch) →
      turnCompletion env.redactLine params = .ok completion →
      ReplaySpec env w { w with
        slot := (w.slot.routeTerminal completion params false env.eventCapacity).2
        replay := .running turnId batch }
  /-- More was deferred meanwhile. -/
  | next {turnId : String} {route : RunRoute} {queue : List DeferredRunNotification} :
      w.replay = .running turnId [] → w.slot.route = some route →
      route.phase = .replaying turnId queue → queue ≠ [] →
      ReplaySpec env w { w with
        slot := w.slot.store
          { route.clearDeferredImageBytes with phase := .replaying turnId [] }
          (w.slot.cells route.run)
        replay := .running turnId queue }
  | active {turnId : String} {route : RunRoute} : w.replay = .running turnId [] →
      w.slot.route = some route → route.phase = .replaying turnId [] →
      ReplaySpec env w { w with
        slot := w.slot.store { route with phase := .active turnId } (w.slot.cells route.run)
        replay := .stopped }
  /-- The route is gone, or is not this turn's any more. -/
  | stopped {turnId : String} : w.replay = .running turnId [] →
      (∀ route queue, w.slot.route = some route → route.phase ≠ .replaying turnId queue) →
      ReplaySpec env w { w with replay := .stopped }

theorem replayStep_spec (env : RunEnv) (w : RunWorld) :
    ReplaySpec env w (w.replayStep env) := by
  unfold RunWorld.replayStep
  cases hreplay : w.replay with
  | idle => exact .resting (Or.inl hreplay)
  | stopped => exact .resting (Or.inr hreplay)
  | running turnId batch =>
      cases batch with
      | cons next batch =>
          cases next with
          | event observed sourceMethod event => exact .event hreplay
          | terminal params =>
              dsimp only
              cases hparse : turnCompletion env.redactLine params with
              | error error => exact .unreadable hreplay hparse
              | ok completion => exact .terminal hreplay hparse
      | nil =>
          have hstopped : (∀ route queue, w.slot.route = some route →
              route.phase ≠ .replaying turnId queue) →
              ReplaySpec env w { w with replay := .stopped } := .stopped hreplay
          dsimp only
          unfold RunSlot.replayTransition
          cases hroute : w.slot.route with
          | none =>
              refine hstopped ?_
              intro route queue hr
              rw [hroute] at hr; cases hr
          | some route =>
              -- any phase but a replay of this turn stops the loop
              have hother : (∀ queue, route.phase ≠ .replaying turnId queue) →
                  ReplaySpec env w { w with replay := .stopped } := by
                intro hne
                refine hstopped ?_
                intro r queue hr
                rw [hroute] at hr; cases hr
                exact hne queue
              dsimp only
              cases hphase : route.phase with
              | starting _ => exact hother (by intro queue hq; rw [hphase] at hq; cases hq)
              | active _ => exact hother (by intro queue hq; rw [hphase] at hq; cases hq)
              | terminalBeforeStart _ =>
                  exact hother (by intro queue hq; rw [hphase] at hq; cases hq)
              | replaying activeTurn queue =>
                  dsimp only
                  by_cases hturn : activeTurn = turnId
                  · subst hturn
                    rw [if_pos rfl]
                    cases queue with
                    | nil => exact .active hreplay hroute hphase
                    | cons next rest =>
                        exact .next hreplay hroute hphase (List.cons_ne_nil _ _)
                  · rw [if_neg hturn]
                    refine hother ?_
                    intro q hq
                    rw [hphase] at hq
                    cases hq
                    exact hturn rfl

/-! ## Every run -/

/-- The invariant of a world. -/
def ShapeInv (w : RunWorld) : Prop := RunShape w.slot w.replay w.accepted

theorem init_shared (env : RunEnv) :
    (RunWorld.init env).slot.cells 0 = RunSlot.freshShared env.eventCapacity := rfl

theorem shapeInv_init (env : RunEnv) : ShapeInv (RunWorld.init env) where
  owner := by intro route hr; cases hr; rfl
  stage := .starting []
  listened := by
    intro h0
    rw [init_shared] at h0
    cases h0
  unpublished := by
    intro route _ _
    rw [init_shared]; rfl
  ended := by intro route hr hend; cases hr; cases hend
  gone := by intro hr; cases hr

theorem shapeInv_acknowledgeStart {w : RunWorld} (h : ShapeInv w) (turnId : String) :
    ShapeInv (w.acknowledgeStart turnId) := by
  have hspec := acknowledgeStart_spec w turnId
  generalize w.acknowledgeStart turnId = w' at hspec
  cases hspec with
  | refused => exact h
  | @replay route queue hroute hphase =>
      have hzero := h.owner route hroute
      have hlive : route.phase.isTerminal = false := by rw [hphase]; rfl
      have hcells : (w.slot.store { route.clearDeferredImageBytes with
          phase := .replaying turnId [] } (w.slot.cells route.run)).cells 0
            = w.slot.cells 0 := by
        rw [hzero, ← hzero]; exact RunSlot.store_cells_self ..
      constructor
      · intro r hr
        cases hr; exact hzero
      · exact .replaying turnId queue []
      · exact hcells ▸ h.listened
      · intro r _ _
        exact hcells ▸ h.unpublished route hroute hlive
      · intro r hr hend
        cases hr; cases hend
      · intro hr; cases hr
  | @completed route ended hroute hphase hturn =>
      have hend : route.phase.isTerminal = true := by rw [hphase]; rfl
      have hstage := h.stage_of hroute
      rw [hphase] at hstage
      obtain ⟨_, hidle⟩ := hstage.of_ended
      constructor
      · intro r hr; cases hr
      · have hcompleted : RunStage (some turnId) w.replay none := by
          rw [hidle]; exact .completed turnId
        exact hcompleted
      · exact h.listened
      · intro r hr; cases hr
      · intro r hr; cases hr
      · intro _
        exact Or.inl (h.ended route hroute hend)

theorem shapeInv_replayStep {env : RunEnv} {w : RunWorld} (h : ShapeInv w) :
    ShapeInv (w.replayStep env) := by
  have hspec := replayStep_spec env w
  generalize w.replayStep env = w' at hspec
  have hpop : ∀ {turnId next batch} {slot : RunSlot},
      w.replay = .running turnId (next :: batch) → RunShape slot w.replay w.accepted →
      RunShape slot (.running turnId batch) w.accepted := by
    intro turnId next batch slot hreplay hslot
    rw [hreplay] at hslot
    exact { hslot with stage := hslot.stage.pop }
  cases hspec with
  | resting _ => exact h
  | event hreplay => exact hpop hreplay (h.routeEvent ..)
  | unreadable hreplay _ => exact hpop hreplay h
  | terminal hreplay _ => exact hpop hreplay (h.routeTerminal ..)
  | @next turnId route queue hreplay hroute hphase _ =>
      have hstage := h.stage_of hroute
      rw [hphase] at hstage
      obtain ⟨hacc, _⟩ := hstage.of_replaying
      have hslot : RunShape (w.slot.store { route.clearDeferredImageBytes with
          phase := .replaying turnId [] } (w.slot.cells route.run)) w.replay w.accepted :=
        h.store hroute rfl (show RunPhase.replaying turnId [] = route.phase.setDeferred [] by
          rw [hphase]; rfl) (by rw [h.owner route hroute])
      have hnext : RunStage w.accepted (.running turnId queue) (some (.replaying turnId [])) := by
        rw [hacc]; exact .replaying turnId queue []
      exact { hslot with stage := hnext }
  | @active turnId route hreplay hroute hphase =>
      have hstage := h.stage_of hroute
      rw [hphase] at hstage
      obtain ⟨hacc, _⟩ := hstage.of_replaying
      have hzero := h.owner route hroute
      have hlive : route.phase.isTerminal = false := by rw [hphase]; rfl
      have hcells : (w.slot.store { route with phase := .active turnId }
          (w.slot.cells route.run)).cells 0 = w.slot.cells 0 := by
        rw [hzero, ← hzero]; exact RunSlot.store_cells_self ..
      constructor
      · intro r hr
        cases hr; exact hzero
      · have hactive : RunStage w.accepted .stopped (some (.active turnId)) := by
          rw [hacc]; exact .active turnId
        exact hactive
      · exact hcells ▸ h.listened
      · intro r _ _
        exact hcells ▸ h.unpublished route hroute hlive
      · intro r hr hend
        cases hr; cases hend
      · intro hr; cases hr
  | @stopped turnId hreplay hne =>
      have hstage := h.stage
      rw [hreplay] at hstage
      obtain ⟨hacc, hgone | ⟨queue, hphase⟩⟩ := hstage.of_running
      · have hover : RunStage w.accepted .stopped (w.slot.route.map (·.phase)) := by
          rw [hacc, hgone]; exact .over turnId
        exact { h with stage := hover }
      · obtain ⟨route, hroute, hr⟩ := Option.map_eq_some_iff.mp hphase
        exact absurd hr (hne route queue hroute)

theorem shapeInv_recv {w : RunWorld} (h : ShapeInv w) : ShapeInv w.recv := by
  have hcells : (w.recv.slot.cells 0).terminal = (w.slot.cells 0).terminal := rfl
  constructor
  · exact h.owner
  · exact h.stage
  · rw [hcells]; exact h.listened
  · rw [hcells]; exact h.unpublished
  · rw [hcells]; exact h.ended
  · exact h.gone

/-- **Every step keeps the stage.** -/
theorem shapeInv_step {env : RunEnv} {w : RunWorld} (h : ShapeInv w) (label : RunLabel) :
    ShapeInv (w.act env label) := by
  cases label with
  | routeEvent observed sourceMethod event => exact h.routeEvent ..
  | routeTerminal params =>
      unfold RunWorld.act RunWorld.routeTerminal
      dsimp only
      split
      · exact h
      · exact RunShape.routeTerminal h ..
  | acknowledgeStart turnId => exact shapeInv_acknowledgeStart h turnId
  | replay => exact shapeInv_replayStep h
  | failBeforeStart error => exact h.failBeforeStart error
  | cancelRegistered => exact h.cancelRegistered
  | failActive turnId error => exact h.failActive turnId 0 error
  | failAll error => exact h.failAll error
  | activeTurn => exact h
  | recv => exact shapeInv_recv h

theorem shapeInv_reachable {env : RunEnv} {guard : RunWorld → RunLabel → Prop} {w : RunWorld}
    (h : (runMachine env).Reachable guard w) : ShapeInv w := by
  refine h.invariant (shapeInv_init env) ?_
  intro s label _ hs _
  exact shapeInv_step hs label

end Vergerail
