import Vergerail.Proof.Handover
import Vergerail.Proof.SlotShadow

/-!
# Notifications of other turns cannot influence a run

Take the calls that carry another turn out of a run, together with the steps of the
replay loop that handled nothing but their notifications. The unwinding argument
follows the two runs step by step: a step that stays is taken by both and keeps the
second thread the shadow of the first, a step that goes is taken by the first alone
and keeps it too.

One branch breaks this. An image event supersedes every waiting event of the same
item, so the image of another turn may take the run's own image out of the queue; the
replay then drops the foreign one. `SparesOwnImages` says that this does not happen.
-/

namespace Vergerail

open Lib

/-! ## What is taken out -/

/-- The loop, had it never been given anything of another turn. -/
def ReplayLoop.own (env : RunEnv) (turnId : String) : ReplayLoop → ReplayLoop
  | idle => idle
  | running active batch => running active (ownOf env turnId batch)
  | stopped => stopped

/-- A router call that carries another turn. -/
def RunLabel.isForeign (env : RunEnv) (turnId : String) : RunLabel → Bool
  | routeEvent (some observed) _ _ => observed != turnId
  | routeTerminal params => (DeferredRunNotification.terminal params).isForeign env turnId
  | _ => false

/-- The next operation of the loop handles nothing but notifications of other turns: it
hands one on, or it takes over a queue of them. -/
def RunWorld.replaysForeign (env : RunEnv) (turnId : String) (w : RunWorld) : Bool :=
  match w.replay with
  | .running _ (next :: _) => next.isForeign env turnId
  | .running _ [] => !w.queue.isEmpty && (ownOf env turnId w.queue).isEmpty
  | .idle => false
  | .stopped => false

/-- The steps that are not taken when no notification carries another turn. -/
def ServesForeign (env : RunEnv) (turnId : String) (w : RunWorld) (label : RunLabel) : Bool :=
  label.isForeign env turnId || (label.isReplay && w.replaysForeign env turnId)

/-! ## What the run must meet -/

/-- Neither limit of the pre-acknowledgement queue is reached. -/
def WithinDeferral (env : RunEnv) (w : RunWorld) : RunLabel → Prop
  | .routeEvent (some _) _ event =>
      ∀ route queue, w.slot.route = some route → route.phase.deferred = some queue →
        route.pendingFailure = none → ¬ route.RefusesDeferral event queue env.eventCapacity
  | .routeTerminal params =>
      ∀ completion route queue, turnCompletion env.redactLine params = .ok completion →
        w.slot.route = some route → route.phase.deferred = some queue →
        route.pendingFailure = none → queue.length < env.eventCapacity
  | _ => True

/-- No image event of another turn finds an event of the same item waiting for the turn. -/
def SparesOwnImages (env : RunEnv) (turnId : String) (w : RunWorld) : RunLabel → Prop
  | .routeEvent (some observed) _ event =>
      observed ≠ turnId → ∀ imageId, event.imageId = some imageId →
        ∀ notification ∈ ownOf env turnId w.queue, notification.imageId ≠ some imageId
  | _ => True

/-- No other turn is acknowledged. -/
def AcknowledgesOnly (turnId : String) : RunLabel → Prop
  | .acknowledgeStart turn => turn = turnId
  | _ => True

/-- A step of a run that the unwinding can follow. -/
structure Unwinds (env : RunEnv) (turnId : String) (w : RunWorld) (label : RunLabel) : Prop where
  acknowledges : AcknowledgesOnly turnId label
  within : WithinDeferral env w label
  spares : SparesOwnImages env turnId w label

/-! ## What every followed run is like -/

/-- A run whose turn is the expected one and whose unacknowledged route never failed. -/
structure Quiet (turnId : String) (w : RunWorld) : Prop where
  /-- The stages. -/
  shape : ShapeInv w
  /-- Only this turn is accepted. -/
  turn : ∀ turn, w.accepted = some turn → turn = turnId
  /-- Nothing fails a run before its turn is known. -/
  starting : ∀ route queue, w.slot.route = some route → route.phase = .starting queue →
    route.pendingFailure = none

theorem quiet_init (env : RunEnv) (turnId : String) : Quiet turnId (RunWorld.init env) where
  shape := shapeInv_init env
  turn := by intro turn hturn; cases hturn
  starting := by intro route queue hroute _; cases hroute; rfl

section Quiet

variable {env : RunEnv} {turnId : String} {w : RunWorld}

/-- A live route is the run's, or its turn is not known and it defers. -/
theorem Quiet.live (h : Quiet turnId w) {route : RunRoute} (hroute : w.slot.route = some route)
    (hl : route.phase.isTerminal = false) :
    (route.pendingFailure = none ∧ route.phase.deferred ≠ none)
      ∨ route.phase.turnId = some turnId := by
  have hturn := (h.shape.stage_of hroute).turn_of_live hl
  cases hphase : route.phase with
  | starting queue => exact Or.inl ⟨h.starting route queue hroute hphase, by simp [RunPhase.deferred]⟩
  | replaying turn queue =>
      rw [hphase] at hturn
      exact Or.inr (congrArg some (h.turn turn hturn.symm))
  | active turn =>
      rw [hphase] at hturn
      exact Or.inr (congrArg some (h.turn turn hturn.symm))
  | terminalBeforeStart _ => rw [hphase] at hl; cases hl

theorem starting_of_setDeferred {phase : RunPhase} {queue waiting : List DeferredRunNotification}
    (h : phase.setDeferred queue = .starting waiting) : ∃ before, phase = .starting before := by
  cases phase with
  | starting before => exact ⟨before, rfl⟩
  | replaying _ _ => cases h
  | active _ => cases h
  | terminalBeforeStart _ => cases h

theorem noFailure_routeEvent (h : Quiet turnId w) {observed : Option String}
    {sourceMethod : String} {event : Event}
    (hg : WithinDeferral env w (.routeEvent observed sourceMethod event)) :
    ∀ route queue,
      (w.slot.routeEvent observed sourceMethod event true env.eventCapacity).2.route = some route →
      route.phase = .starting queue → route.pendingFailure = none := by
  intro route' queue hroute' hphase'
  cases hroute : w.slot.route with
  | none =>
      rw [RunSlot.routeEvent_of_none hroute, hroute] at hroute'
      cases hroute'
  | some route =>
      obtain ⟨outcome, after, shared', heq, hspec⟩ :=
        RunSlot.routeEvent_of_route hroute observed sourceMethod event true env.eventCapacity
      rw [heq] at hroute'
      cases hroute'
      have hbefore := h.starting route
      cases hspec with
      | afterFailure _ => exact hbefore queue hroute hphase'
      | beforeTurn _ _ => exact hbefore queue hroute hphase'
      | refusedDeferral hp hq hobs hrefuses =>
          subst hobs
          exact absurd hrefuses (hg route _ hroute hq hp)
      | deferred hp _ _ _ => exact hp
      | mismatch _ _ _ _ => exact hbefore queue hroute hphase'
      | afterTerminal _ _ => exact hbefore queue hroute hphase'
      | afterAbandon _ _ => exact hbefore queue hroute hphase'
      | unowned _ _ _ hp _ hbase => rw [hbase.pendingFailure]; exact hp
      | refusedDelivery _ hq _ _ _ _ hbase _ =>
          rw [RunRoute.failed_phase, hbase.phase] at hphase'
          obtain ⟨before, hstart⟩ := starting_of_setDeferred hphase'
          rw [if_pos rfl, hstart] at hq
          cases hq
      | delivered hp _ _ _ _ hbase _ => rw [hbase.pendingFailure]; exact hp

theorem noFailure_routeTerminal (h : Quiet turnId w) (completion : TurnCompletion)
    (params : Json) :
    ∀ route queue,
      (w.slot.routeTerminal completion params true env.eventCapacity).2.route = some route →
      route.phase = .starting queue → route.pendingFailure = none := by
  intro route' queue hroute' hphase'
  cases hroute : w.slot.route with
  | none =>
      rw [RunSlot.routeTerminal_of_none hroute, hroute] at hroute'
      cases hroute'
  | some route =>
      have hbefore := h.starting route
      have hspec := RunSlot.routeTerminal_of_route hroute completion params true
        env.eventCapacity
      cases hrouted : w.slot.routeTerminal completion params true env.eventCapacity with
      | mk outcome slot' =>
      rw [hrouted] at hspec hroute'
      cases hspec with
      | duplicate _ => rw [hroute] at hroute'; cases hroute'; exact hbefore queue hroute hphase'
      | mismatch _ _ _ => rw [hroute] at hroute'; cases hroute'; exact hbefore queue hroute hphase'
      | deferred _ _ =>
          cases hroute'
          obtain ⟨before, hstart⟩ := starting_of_setDeferred hphase'
          exact hbefore before hroute hstart
      | mismatchFull _ _ _ _ =>
          cases hroute'
          obtain ⟨before, hstart⟩ := starting_of_setDeferred hphase'
          exact hbefore before hroute hstart
      | completed _ _ _ =>
          have hended := RunSlot.publishTerminal_ended hroute'
          rw [hphase'] at hended; cases hended

/-- An operation that leaves the phases alone fails no route whose turn is not known. -/
theorem Quiet.of_samePhase (h : Quiet turnId w) {slot' : RunSlot}
    (hsame : w.slot.SamePhase slot') :
    ∀ route queue, slot'.route = some route → route.phase = .starting queue →
      route.pendingFailure = none := by
  intro route queue hroute hphase
  obtain ⟨before, hbefore, heq, hpending⟩ := hsame route hroute (by rw [hphase]; rfl)
  have hstart : before.phase = .starting queue := heq.symm.trans hphase
  rw [hpending (by rw [hstart]; rfl)]
  exact h.starting before queue hbefore hstart

/-- Every followed step keeps a quiet run quiet. -/
theorem quiet_step (h : Quiet turnId w) {label : RunLabel}
    (hg : Unwinds env turnId w label) : Quiet turnId (w.act env label) := by
  have hshape : ShapeInv (w.act env label) := shapeInv_step h.shape label
  cases label with
  | routeEvent observed sourceMethod event =>
      exact ⟨hshape, h.turn, noFailure_routeEvent h hg.within⟩
  | routeTerminal params =>
      refine ⟨hshape, ?_, ?_⟩
      · intro turn hturn
        unfold RunWorld.act RunWorld.routeTerminal at hturn
        dsimp only at hturn
        split at hturn
        · exact h.turn turn hturn
        · exact h.turn turn hturn
      · unfold RunWorld.act RunWorld.routeTerminal
        dsimp only
        split
        · exact h.starting
        · exact noFailure_routeTerminal h _ params
  | acknowledgeStart turn =>
      have hturn : turn = turnId := hg.acknowledges
      have hspec := acknowledgeStart_spec w turn
      show Quiet turnId (w.acknowledgeStart turn)
      change ShapeInv (w.acknowledgeStart turn) at hshape
      generalize w.acknowledgeStart turn = w' at hspec hshape
      cases hspec with
      | refused => exact h
      | replay _ _ =>
          refine ⟨hshape, ?_, ?_⟩
          · intro other hother
            cases hother; exact hturn
          · intro route queue hroute hphase
            cases hroute; cases hphase
      | completed _ _ _ =>
          refine ⟨hshape, ?_, ?_⟩
          · intro other hother
            cases hother; exact hturn
          · intro route queue hroute
            cases hroute
  | replay =>
      have hspec := replayStep_spec env w
      show Quiet turnId (w.replayStep env)
      change ShapeInv (w.replayStep env) at hshape
      have hacc : (w.replayStep env).accepted = w.accepted := by
        generalize w.replayStep env = w' at hspec
        cases hspec <;> rfl
      refine ⟨hshape, ?_, ?_⟩
      · rw [hacc]; exact h.turn
      · intro route queue hroute hphase
        have hstage := hshape.stage_of hroute
        rw [hphase] at hstage
        obtain ⟨_, hidle⟩ := hstage.of_starting
        generalize w.replayStep env = w' at hspec hroute hidle
        -- a loop that is idle afterwards did nothing
        cases hspec with
        | resting _ => exact h.starting route queue hroute hphase
        | event _ => cases hidle
        | unreadable _ _ => cases hidle
        | terminal _ _ => cases hidle
        | next _ _ _ _ => cases hidle
        | active _ _ _ => cases hidle
        | stopped _ _ => cases hidle
  | failBeforeStart error =>
      exact ⟨hshape, h.turn, h.of_samePhase (samePhase_failBeforeStart w.slot error)⟩
  | cancelRegistered =>
      exact ⟨hshape, h.turn, h.of_samePhase (samePhase_cancelRegistered w.slot)⟩
  | failActive turn error =>
      exact ⟨hshape, h.turn, h.of_samePhase (samePhase_failActive w.slot turn 0 error)⟩
  | failAll error =>
      refine ⟨hshape, h.turn, ?_⟩
      intro route queue hroute
      have hnone : (w.slot.failAll error).route = none := RunSlot.failAll_route w.slot error
      rw [show (w.act env (.failAll error)).slot = w.slot.failAll error from rfl, hnone] at hroute
      cases hroute
  | activeTurn => exact ⟨hshape, h.turn, h.starting⟩
  | recv => exact ⟨hshape, h.turn, h.starting⟩

end Quiet

/-! ## Unwinding -/

/-- A followed run and its partner, which never heard of another turn. -/
structure Unwound (env : RunEnv) (turnId : String) (w own : RunWorld) : Prop where
  /-- The first run is quiet. -/
  quiet : Quiet turnId w
  /-- The second thread is the shadow of the first. -/
  slot : SlotShadows env turnId w.slot own.slot
  /-- Its loop holds the run's own notifications. -/
  replay : own.replay = w.replay.own env turnId
  /-- Both accepted the same turn. -/
  accepted : own.accepted = w.accepted
  /-- Both asked for the same interrupts. -/
  interrupts : own.interrupts = w.interrupts

theorem unwound_init (env : RunEnv) (turnId : String) :
    Unwound env turnId (RunWorld.init env) (RunWorld.init env) where
  quiet := quiet_init env turnId
  slot := by
    refine ⟨some (RunSlot.freshRoute 0 env.maximumOutputBytes), rfl, .some ?_⟩
    refine shadows_cleared ?_ rfl rfl
    intro waiting hwaiting
    cases hwaiting; rfl
  replay := rfl
  accepted := rfl
  interrupts := rfl

section Unwound

variable {env : RunEnv} {turnId : String} {w own : RunWorld}

/-! ### Steps that go -/

theorem unwound_go_routeEvent (h : Unwound env turnId w own) {observed : String}
    (hne : observed ≠ turnId) {sourceMethod : String} {event : Event}
    (hg : Unwinds env turnId w (.routeEvent (some observed) sourceMethod event)) :
    Unwound env turnId (w.act env (.routeEvent (some observed) sourceMethod event)) own := by
  obtain ⟨hslot, hint⟩ := h.slot.routeEvent_foreign hne sourceMethod event true env.eventCapacity
    (fun route hroute hl => (h.quiet.live hroute hl).imp (fun hd => ⟨rfl, hd.2⟩) id)
    (fun route waiting _ hroute hq hp => hg.within route waiting hroute hq hp)
    (by
      intro route waiting _ hroute hq imageId himage next hnext
      refine hg.spares hne imageId himage next ?_
      rw [queue_of_route hroute, hq]
      exact hnext)
  refine ⟨quiet_step h.quiet hg, hslot, h.replay, h.accepted, ?_⟩
  show own.interrupts = w.interrupts ++ RunWorld.interruptOf
    (w.slot.routeEvent (some observed) sourceMethod event true env.eventCapacity).1
  rw [hint, List.append_nil]
  exact h.interrupts

theorem unwound_go_routeTerminal (h : Unwound env turnId w own) {params : Json}
    (hforeign : (DeferredRunNotification.terminal params).isForeign env turnId = true)
    (hg : Unwinds env turnId w (.routeTerminal params)) :
    Unwound env turnId (w.act env (.routeTerminal params)) own := by
  have hquiet := quiet_step h.quiet hg
  cases hparse : turnCompletion env.redactLine params with
  | error error =>
      rw [isForeign_of_error hparse] at hforeign; cases hforeign
  | ok completion =>
      have hne : completion.turnId ≠ turnId :=
        bne_iff_ne.mp ((isForeign_of_ok hparse).symm.trans hforeign)
      have hslot := h.slot.routeTerminal_foreign hne hforeign true env.eventCapacity
        (fun route hroute hl => (h.quiet.live hroute hl).imp (fun hd => ⟨rfl, hd.1, hd.2⟩) id)
        (fun route waiting _ hroute hq hp => hg.within completion route waiting hparse hroute hq hp)
      have hact : w.act env (.routeTerminal params) = { w with
          slot := (w.slot.routeTerminal completion params true env.eventCapacity).2
          deferredTerminals := w.deferredTerminals ++
            if (w.slot.routeTerminal completion params true env.eventCapacity).1 = .deferred then
              [completion.turnId] else [] } := by
        unfold RunWorld.act RunWorld.routeTerminal
        dsimp only
        rw [hparse]
      rw [hact] at hquiet ⊢
      exact ⟨hquiet, hslot, h.replay, h.accepted, h.interrupts⟩

/-- The loop's turn is the run's. -/
theorem Quiet.running (h : Quiet turnId w) {turn : String} {batch : List DeferredRunNotification}
    (hreplay : w.replay = .running turn batch) :
    turn = turnId ∧ ∀ route, w.slot.route = some route →
      ∃ queue, route.phase = .replaying turnId queue := by
  have hstage := h.shape.stage
  rw [hreplay] at hstage
  obtain ⟨hacc, hphase⟩ := hstage.of_running
  have hturn := h.turn turn hacc
  subst hturn
  refine ⟨rfl, ?_⟩
  intro route hroute
  rw [hroute] at hphase
  rcases hphase with hnone | ⟨queue, hsome⟩
  · cases hnone
  · exact ⟨queue, Option.some.inj hsome⟩

theorem unwound_go_replay (h : Unwound env turnId w own)
    (hgo : w.replaysForeign env turnId = true) :
    Unwound env turnId (w.act env .replay) own := by
  have hquiet : Quiet turnId (w.act env .replay) :=
    quiet_step h.quiet ⟨trivial, trivial, trivial⟩
  have hspec := replayStep_spec env w
  change Quiet turnId (w.replayStep env) at hquiet
  show Unwound env turnId (w.replayStep env) own
  generalize w.replayStep env = w' at hspec hquiet
  have hreplayOwn := h.replay
  unfold RunWorld.replaysForeign at hgo
  -- the loop handles a notification of another turn while the route is the run's
  have hlive : ∀ {turn batch}, w.replay = .running turn batch → ∀ route,
      w.slot.route = some route → route.phase.turnId = some turnId := by
    intro turn batch hreplay route hroute
    obtain ⟨_, hroutes⟩ := h.quiet.running hreplay
    obtain ⟨queue, hphase⟩ := hroutes route hroute
    rw [hphase]; rfl
  cases hspec with
  | resting hrest =>
      rcases hrest with hr | hr
      · rw [hr] at hgo; cases hgo
      · rw [hr] at hgo; cases hgo
  | @event turn observed sourceMethod event batch hreplay =>
      rw [hreplay] at hgo hreplayOwn
      have hne : observed ≠ turnId := bne_iff_ne.mp hgo
      obtain ⟨hslot, hint⟩ := h.slot.routeEvent_foreign hne sourceMethod event false
        env.eventCapacity (fun route hroute _ => Or.inr (hlive hreplay route hroute))
        (fun _ _ hd => by cases hd) (fun _ _ hd => by cases hd)
      refine ⟨hquiet, hslot, ?_, h.accepted, ?_⟩
      · rw [hreplayOwn]
        exact congrArg (ReplayLoop.running turn) (ownOf_cons_foreign hgo batch)
      · show own.interrupts = w.interrupts ++ _
        rw [hint, List.append_nil]
        exact h.interrupts
  | @unreadable turn params batch error hreplay hparse =>
      rw [hreplay] at hgo
      exact absurd ((isForeign_of_error hparse).symm.trans hgo) (by simp)
  | @terminal turn params batch completion hreplay hparse =>
      rw [hreplay] at hgo hreplayOwn
      have hforeign : (DeferredRunNotification.terminal params).isForeign env turnId = true := hgo
      have hne : completion.turnId ≠ turnId :=
        bne_iff_ne.mp ((isForeign_of_ok hparse).symm.trans hforeign)
      have hslot := h.slot.routeTerminal_foreign hne hforeign false env.eventCapacity
        (fun route hroute _ => Or.inr (hlive hreplay route hroute)) (fun _ _ hd => by cases hd)
      refine ⟨hquiet, hslot, ?_, h.accepted, h.interrupts⟩
      rw [hreplayOwn]
      exact congrArg (ReplayLoop.running turn) (ownOf_cons_foreign hgo batch)
  | @next turn route queue hreplay hroute hphase hne =>
      rw [hreplay] at hgo hreplayOwn
      have hqueue : w.queue = queue := by rw [queue_of_route hroute, hphase]; rfl
      dsimp only at hgo
      rw [hqueue] at hgo
      have hempty : ownOf env turnId queue = [] :=
        List.isEmpty_iff.mp (Bool.and_eq_true_iff.mp hgo).2
      refine ⟨hquiet, ?_, ?_, h.accepted, h.interrupts⟩
      · exact h.slot.takeForeign hroute hphase hempty
      · rw [hreplayOwn]
        exact congrArg (ReplayLoop.running turn) hempty.symm
  | @active turn route hreplay hroute hphase =>
      rw [hreplay] at hgo
      have hqueue : w.queue = [] := by rw [queue_of_route hroute, hphase]; rfl
      dsimp only at hgo
      rw [hqueue] at hgo
      cases hgo
  | @stopped turn hreplay hother =>
      rw [hreplay] at hgo
      have hqueue : w.queue = [] := by
        cases hroute : w.slot.route with
        | none => unfold RunWorld.queue; rw [hroute]; rfl
        | some route =>
            obtain ⟨hturn, hroutes⟩ := h.quiet.running hreplay
            obtain ⟨queue, hphase⟩ := hroutes route hroute
            subst hturn
            exact absurd hphase (hother route queue hroute)
      dsimp only at hgo
      rw [hqueue] at hgo
      cases hgo

/-! ### Steps that stay -/

theorem unwound_stay_routeEvent (h : Unwound env turnId w own) {observed : Option String}
    (hobs : observed = some turnId ∨ observed = none) {sourceMethod : String} {event : Event}
    (hg : Unwinds env turnId w (.routeEvent observed sourceMethod event)) :
    Unwound env turnId (w.act env (.routeEvent observed sourceMethod event))
      (own.act env (.routeEvent observed sourceMethod event)) := by
  obtain ⟨houtcome, hslot⟩ := h.slot.routeEvent hobs sourceMethod event true env.eventCapacity
    (by
      intro route waiting _ hroute hq hp hsome
      rcases hobs with rfl | rfl
      · exact hg.within route waiting hroute hq hp
      · exact absurd rfl hsome)
  refine ⟨quiet_step h.quiet hg, hslot, h.replay, h.accepted, ?_⟩
  show own.interrupts ++ RunWorld.interruptOf (own.slot.routeEvent ..).1
    = w.interrupts ++ RunWorld.interruptOf (w.slot.routeEvent ..).1
  rw [houtcome, h.interrupts]

theorem unwound_stay_routeTerminal (h : Unwound env turnId w own) {params : Json}
    (hown : (DeferredRunNotification.terminal params).isForeign env turnId = false)
    (hg : Unwinds env turnId w (.routeTerminal params)) :
    Unwound env turnId (w.act env (.routeTerminal params))
      (own.act env (.routeTerminal params)) := by
  have hquiet := quiet_step h.quiet hg
  unfold RunWorld.act RunWorld.routeTerminal at hquiet ⊢
  dsimp only at hquiet ⊢
  cases hparse : turnCompletion env.redactLine params with
  | error error => exact h
  | ok completion =>
      rw [hparse] at hquiet
      have hslot := h.slot.routeTerminal completion hown true env.eventCapacity
        (fun route waiting _ hroute hq hp => hg.within completion route waiting hparse hroute hq hp)
      exact ⟨hquiet, hslot, h.replay, h.accepted, h.interrupts⟩

theorem unwound_stay_acknowledgeStart (h : Unwound env turnId w own) {turn : String}
    (hg : Unwinds env turnId w (.acknowledgeStart turn)) :
    Unwound env turnId (w.act env (.acknowledgeStart turn))
      (own.act env (.acknowledgeStart turn)) := by
  have hquiet := quiet_step h.quiet hg
  show Unwound env turnId (w.acknowledgeStart turn) (own.acknowledgeStart turn)
  change Quiet turnId (w.acknowledgeStart turn) at hquiet
  unfold RunWorld.acknowledgeStart at hquiet ⊢
  rcases h.slot.acknowledgeStart turn with ⟨queue, slot', own', hw, hown, hslot⟩
      | ⟨transition, slot', own', hno, hw, hown, hslot⟩
  · rw [hw] at hquiet ⊢
    rw [hown]
    exact ⟨hquiet, hslot, rfl, rfl, h.interrupts⟩
  · rw [hw] at hquiet ⊢
    rw [hown]
    cases transition with
    | replay queue => exact absurd rfl (hno queue)
    | completedBeforeAcknowledgement => exact ⟨hquiet, hslot, h.replay, rfl, h.interrupts⟩
    | missingRoute => exact ⟨hquiet, hslot, h.replay, h.accepted, h.interrupts⟩
    | terminalTurnMismatch _ => exact ⟨hquiet, hslot, h.replay, h.accepted, h.interrupts⟩
    | alreadyAcknowledged => exact ⟨hquiet, hslot, h.replay, h.accepted, h.interrupts⟩

theorem unwound_stay_replay (h : Unwound env turnId w own)
    (hstay : w.replaysForeign env turnId = false) :
    Unwound env turnId (w.act env .replay) (own.act env .replay) := by
  have hquiet : Quiet turnId (w.act env .replay) :=
    quiet_step h.quiet ⟨trivial, trivial, trivial⟩
  have hreplayOwn := h.replay
  show Unwound env turnId (w.replayStep env) (own.replayStep env)
  change Quiet turnId (w.replayStep env) at hquiet
  unfold RunWorld.replaysForeign at hstay
  unfold RunWorld.replayStep at hquiet ⊢
  cases hreplay : w.replay with
  | idle =>
      rw [hreplay] at hreplayOwn
      rw [hreplayOwn]; exact h
  | stopped =>
      rw [hreplay] at hreplayOwn
      rw [hreplayOwn]; exact h
  | running turn batch =>
      obtain ⟨hturn, _⟩ := h.quiet.running hreplay
      subst hturn
      rw [hreplay] at hreplayOwn hstay hquiet
      cases batch with
      | cons next rest =>
          have hown : next.isForeign env turn = false := hstay
          have hreplayOwn' : own.replay = .running turn (next :: ownOf env turn rest) :=
            hreplayOwn.trans (congrArg (ReplayLoop.running turn) (ownOf_cons_own hown rest))
          rw [hreplayOwn']
          cases next with
          | event observed sourceMethod event =>
              have hobs : observed = turn := by simpa [DeferredRunNotification.isForeign] using hown
              obtain ⟨houtcome, hslot⟩ := h.slot.routeEvent (Or.inl (congrArg some hobs))
                sourceMethod event false env.eventCapacity (fun _ _ hd => by cases hd)
              refine ⟨hquiet, hslot, rfl, h.accepted, ?_⟩
              show own.interrupts ++ RunWorld.interruptOf (own.slot.routeEvent ..).1
                = w.interrupts ++ RunWorld.interruptOf (w.slot.routeEvent ..).1
              rw [houtcome, h.interrupts]
          | terminal params =>
              dsimp only at hquiet ⊢
              cases hparse : turnCompletion env.redactLine params with
              | error error =>
                  rw [hparse] at hquiet
                  exact ⟨hquiet, h.slot, rfl, h.accepted, h.interrupts⟩
              | ok completion =>
                  rw [hparse] at hquiet
                  exact ⟨hquiet, h.slot.routeTerminal completion hown false env.eventCapacity
                    (fun _ _ hd => by cases hd), rfl, h.accepted, h.interrupts⟩
      | nil =>
          have hreplayOwn' : own.replay = .running turn [] := hreplayOwn
          have hmixed : ∀ route queue, w.slot.route = some route →
              route.phase = .replaying turn queue → queue ≠ [] → ownOf env turn queue ≠ [] := by
            intro route queue hroute hphase hne hempty
            have hqueue : w.queue = queue := by rw [queue_of_route hroute, hphase]; rfl
            have hnone : (!w.queue.isEmpty && (ownOf env turn w.queue).isEmpty) = false := hstay
            rw [hqueue, hempty] at hnone
            exact hne (by simpa using hnone)
          rw [hreplayOwn']
          dsimp only at hquiet ⊢
          rcases h.slot.replayTransition turn hmixed with ⟨queue, slot', own', hw, hown, hslot⟩
              | ⟨transition, slot', own', hno, hw, hown, hslot⟩
          · rw [hw] at hquiet ⊢
            rw [hown]
            exact ⟨hquiet, hslot, rfl, h.accepted, h.interrupts⟩
          · rw [hw] at hquiet ⊢
            rw [hown]
            cases transition with
            | next queue => exact absurd rfl (hno queue)
            | active => exact ⟨hquiet, hslot, rfl, h.accepted, h.interrupts⟩
            | stopped => exact ⟨hquiet, hslot, rfl, h.accepted, h.interrupts⟩

theorem unwound_stay_recv (h : Unwound env turnId w own)
    (hg : Unwinds env turnId w .recv) :
    Unwound env turnId (w.act env .recv) (own.act env .recv) := by
  refine ⟨quiet_step h.quiet hg, ?_, h.replay, h.accepted, h.interrupts⟩
  obtain ⟨ownRoute, heq, hrel⟩ := h.slot
  refine ⟨ownRoute, ?_, hrel⟩
  show own.recv.slot = _
  unfold RunWorld.recv RunWorld.shared
  rw [heq]
  rfl

/-- A step that stays keeps the partners together. -/
theorem unwound_stay (h : Unwound env turnId w own) {label : RunLabel}
    (hg : Unwinds env turnId w label) (hstay : ServesForeign env turnId w label = false) :
    Unwound env turnId (w.act env label) (own.act env label) := by
  obtain ⟨hlabel, hreplay⟩ := Bool.or_eq_false_iff.mp hstay
  have hquiet := quiet_step h.quiet hg
  cases label with
  | routeEvent observed sourceMethod event =>
      refine unwound_stay_routeEvent h ?_ hg
      cases observed with
      | none => exact Or.inr rfl
      | some observed =>
          have heq : (observed != turnId) = false := hlabel
          exact Or.inl (congrArg some (by simpa using heq))
  | routeTerminal params => exact unwound_stay_routeTerminal h hlabel hg
  | acknowledgeStart turn => exact unwound_stay_acknowledgeStart h hg
  | replay => exact unwound_stay_replay h hreplay
  | failBeforeStart error =>
      exact ⟨hquiet, h.slot.failBeforeStart error, h.replay, h.accepted, h.interrupts⟩
  | cancelRegistered =>
      obtain ⟨hturn, hslot⟩ := h.slot.cancelRegistered
      refine ⟨hquiet, hslot, h.replay, h.accepted, ?_⟩
      show own.interrupts ++ (own.slot.cancelRegistered.1.map Prod.fst).toList
        = w.interrupts ++ (w.slot.cancelRegistered.1.map Prod.fst).toList
      rw [hturn, h.interrupts]
  | failActive turn error =>
      obtain ⟨hfailed, hslot⟩ := h.slot.failActive turn 0 error
      refine ⟨hquiet, hslot, h.replay, h.accepted, ?_⟩
      show (own.interrupts ++ if (own.slot.failActive turn 0 error).1 then [turn] else [])
        = w.interrupts ++ if (w.slot.failActive turn 0 error).1 then [turn] else []
      rw [hfailed, h.interrupts]
  | failAll error => exact ⟨hquiet, h.slot.failAll error, h.replay, h.accepted, h.interrupts⟩
  | activeTurn =>
      refine ⟨hquiet, h.slot, h.replay, h.accepted, ?_⟩
      show own.interrupts ++ (own.slot.activeTurn.map Prod.fst).toList
        = w.interrupts ++ (w.slot.activeTurn.map Prod.fst).toList
      rw [h.slot.activeTurn, h.interrupts]
  | recv => exact unwound_stay_recv h hg

/-- A step that goes leaves its partner where it is. -/
theorem unwound_go (h : Unwound env turnId w own) {label : RunLabel}
    (hg : Unwinds env turnId w label) (hgo : ServesForeign env turnId w label = true) :
    Unwound env turnId (w.act env label) own := by
  rcases Bool.or_eq_true_iff.mp hgo with hlabel | hreplay
  · cases label with
    | routeEvent observed sourceMethod event =>
        cases observed with
        | none => cases hlabel
        | some observed => exact unwound_go_routeEvent h (bne_iff_ne.mp hlabel) hg
    | routeTerminal params => exact unwound_go_routeTerminal h hlabel hg
    | _ => cases hlabel
  · obtain ⟨hlabel, hforeign⟩ := Bool.and_eq_true_iff.mp hreplay
    cases label with
    | replay => exact unwound_go_replay h hforeign
    | _ => cases hlabel

end Unwound

/-- The run without the calls that carry another turn, and without what the loop did for them. -/
def withoutForeign (env : RunEnv) (turnId : String) (labels : List RunLabel) : List RunLabel :=
  (runMachine env).purge (ServesForeign env turnId) (RunWorld.init env) labels

/--
**Notifications of other turns cannot influence a run.** As long as neither limit of the
deferred queue is reached, no other turn is acknowledged and no image event of another
turn finds an event of the same item waiting for the turn, the run without the calls that
carry another turn ends with the same cells (events delivered, terminal result, control),
the same retained output, the same accepted turn and the same interrupts. Of the calls,
only those that carry another turn were taken out.
-/
theorem foreign_notifications_irrelevant {env : RunEnv} {turnId : String}
    {labels : List RunLabel}
    (h : (runMachine env).Respects (Unwinds env turnId) (RunWorld.init env) labels) :
    let w := (runMachine env).run labels
    let own := (runMachine env).run (withoutForeign env turnId labels)
    own.shared = w.shared
      ∧ own.slot.route.map RunRoute.output = w.slot.route.map RunRoute.output
      ∧ own.accepted = w.accepted ∧ own.interrupts = w.interrupts
      ∧ own.replay = w.replay.own env turnId
      ∧ (withoutForeign env turnId labels).filter (fun label => !label.isReplay)
        = labels.filter (fun label => !label.isReplay && !label.isForeign env turnId) := by
  intro w own
  have hstay : ∀ s t i, Unwound env turnId s t → Unwinds env turnId s i →
      ServesForeign env turnId s i = false →
      Unwound env turnId ((runMachine env).step s i) ((runMachine env).step t i) :=
    fun _ _ _ hr hg hs => unwound_stay hr hg hs
  have hgo : ∀ s t i, Unwound env turnId s t → Unwinds env turnId s i →
      ServesForeign env turnId s i = true → Unwound env turnId ((runMachine env).step s i) t :=
    fun _ _ _ hr hg hs => unwound_go hr hg hs
  have hunwound : Unwound env turnId w own :=
    Machine.runFrom_purge hstay hgo (unwound_init env turnId) h
  refine ⟨?_, hunwound.slot.output_eq, hunwound.accepted, hunwound.interrupts,
    hunwound.replay, ?_⟩
  · show own.slot.cells 0 = w.slot.cells 0
    rw [hunwound.slot.cells_eq]
  · refine Machine.filter_purge _ _ _ ?_ _ _
    intro s label hcall
    have hnot : label.isReplay = false := by simpa using hcall
    unfold ServesForeign
    rw [hnot, Bool.false_and, Bool.or_false]

/-- A late event of an older turn does not show in the run. -/
theorem foreign_notifications_irrelevant_late :
    let labels : List RunLabel :=
      [.routeEvent (some "older") "item/agentMessage/delta" (.textDelta "late"),
        .acknowledgeStart "turn", .replay, .replay,
        .routeEvent (some "turn") "item/agentMessage/delta" (.textDelta "a"),
        .routeTerminal (Json.turnCompleted "turn")]
    ((runMachine RunEnv.tight).run (withoutForeign RunEnv.tight "turn" labels)).shared
      = ((runMachine RunEnv.tight).run labels).shared := by
  intro labels
  suffices hrespects : (runMachine RunEnv.tight).Respects (Unwinds RunEnv.tight "turn")
      (RunWorld.init RunEnv.tight) labels from (foreign_notifications_irrelevant hrespects).1
  refine ⟨⟨trivial, ?_, ?_⟩, ⟨rfl, trivial, trivial⟩, ⟨trivial, trivial, trivial⟩,
    ⟨trivial, trivial, trivial⟩, ⟨trivial, ?_, ?_⟩, ⟨trivial, ?_, trivial⟩, trivial⟩
  · intro route queue hroute hq _
    cases hroute; cases hq
    rintro (⟨image, himage, _⟩ | hfull)
    · cases himage
    · exact absurd hfull (by decide)
  · intro _ imageId himage
    cases himage
  · intro route queue hroute hq
    cases hroute; cases hq
  · intro _ imageId himage
    cases himage
  · intro completion route queue _ hroute hq
    cases hroute; cases hq

/-- The image of an older turn takes the run's own image of the same item out of the queue,
and the replay then drops it. -/
theorem foreign_image_replaces_own :
    ¬ ∀ (env : RunEnv) (turnId : String) (labels : List RunLabel),
      (runMachine env).Respects (fun w label => AcknowledgesOnly turnId label
          ∧ WithinDeferral env w label) (RunWorld.init env) labels →
      ((runMachine env).run (withoutForeign env turnId labels)).shared.events.sent
        = ((runMachine env).run labels).shared.events.sent := by
  intro hall
  let image : ImageGeneration := ⟨"image", "completed", none, "", none, none, none⟩
  have hsame := hall RunEnv.tight "turn"
    [.routeEvent (some "turn") "item/completed" (.imageGeneration image),
      .routeEvent (some "older") "item/completed" (.imageGeneration image),
      .acknowledgeStart "turn", .replay, .replay] ?_
  · exact absurd hsame (by decide)
  · refine ⟨⟨trivial, ?_⟩, ⟨trivial, ?_⟩, ⟨rfl, trivial⟩, ⟨trivial, trivial⟩,
      ⟨trivial, trivial⟩, trivial⟩
    · intro route queue hroute hq _
      cases hroute; cases hq
      rintro (⟨other, hother, hnot⟩ | hfull)
      · cases hother
        exact hnot ⟨_, _, rfl, rfl, by decide⟩
      · exact absurd hfull (by decide)
    · intro route queue hroute hq _
      cases hroute; cases hq
      rintro (⟨other, hother, hnot⟩ | hfull)
      · cases hother
        exact hnot ⟨_, _, rfl, rfl, by decide⟩
      · exact absurd hfull (by decide)

end Vergerail
