import Vergerail.Proof.RunStage
import Vergerail.Proof.Terminal

/-!
# The turn an interrupt names

A run's control admits one interrupt, so that one had better name the run's own
turn. Once the turn is accepted every failing path reads it off the route. Before
that, and while deferred notifications are replayed, `record_failure` takes the
turn of whatever notification it could not queue: a notification of an older turn
that trips a limit then spends the interrupt on that turn.

`NamesOwnTurn` says that this does not happen; under it every interrupt names the
turn the run is acknowledged for (`interrupt_names_own_turn`).
-/

namespace Vergerail

open Lib

/-- A notification that cannot be deferred carries the run's own turn. -/
def NamesOwnTurn (env : RunEnv) (turnId : String) (w : RunWorld) : RunLabel → Prop
  | .routeEvent (some observed) _ event =>
      ∀ route queue, w.slot.route = some route → route.pendingFailure = none →
        route.phase.deferred = some queue →
        route.RefusesDeferral event queue env.eventCapacity → observed = turnId
  | _ => True

/-- An interrupt that a step issues names a turn for one of these reasons. -/
inductive Justified (turnId : String) (w : RunWorld) (x : String) : Prop where
  /-- It is the turn the condition speaks about. -/
  | own : x = turnId → Justified turnId w x
  /-- It is the turn that was accepted. -/
  | accepted : w.accepted = some x → Justified turnId w x
  /-- Nothing is accepted yet, and only this turn can still be. -/
  | ended {route : RunRoute} : w.accepted = none → w.slot.route = some route →
      route.phase = .terminalBeforeStart (some x) → Justified turnId w x
  /-- Nothing is accepted, and nothing can be any more. -/
  | lost : w.accepted = none → w.slot.route = none → Justified turnId w x

section Steps

variable {env : RunEnv} {turnId : String} {w : RunWorld}

theorem mem_interruptOf {outcome : RunEventOutcome} {x : String}
    (h : x ∈ RunWorld.interruptOf outcome) : ∃ run, outcome = .routeFailure x run := by
  cases outcome with
  | routeFailure turn run =>
      have hx : x = turn := List.mem_singleton.mp h
      exact ⟨run, by rw [hx]⟩
  | _ => cases h

/-- A delivery is refused in the accepted turn. -/
theorem routeFailure_delivery (hw : ShapeInv w) {route route' : RunRoute}
    {observed : Option String} {sourceMethod : String} {event : Event} {cap run : Nat}
    {shared' : RunShared} {x : String} (hroute : w.slot.route = some route)
    (hacc : w.accepted ≠ none)
    (hspec : RunRoute.RouteEventSpec route (w.slot.cells route.run) observed sourceMethod event
      none cap (.routeFailure x run) route' shared') : w.accepted = some x := by
  cases hspec with
  | refusedDeferral _ hq _ _ => cases hq
  | refusedDelivery _ _ hlive _ _ hturn _ _ =>
      have hstage := (hw.stage_of hroute).turn_of_live hlive
      rw [hstage] at hturn
      cases hcase : w.accepted with
      | none => exact absurd hcase hacc
      | some turn => rw [hcase] at hturn; exact hturn

/-- What the router's events interrupt. -/
theorem justified_routeEvent (hw : ShapeInv w) {observed : Option String}
    {sourceMethod : String} {event : Event}
    (hg : NamesOwnTurn env turnId w (.routeEvent observed sourceMethod event)) {x : String}
    (hx : x ∈ RunWorld.interruptOf
      (w.slot.routeEvent observed sourceMethod event true env.eventCapacity).1) :
    Justified turnId w x := by
  obtain ⟨run, hout⟩ := mem_interruptOf hx
  cases hroute : w.slot.route with
  | none => rw [RunSlot.routeEvent_of_none hroute] at hout; cases hout
  | some route =>
      obtain ⟨outcome, route', shared', heq, hspec⟩ :=
        RunSlot.routeEvent_of_route hroute observed sourceMethod event true env.eventCapacity
      rw [heq] at hout
      obtain rfl : outcome = .routeFailure x run := hout
      rw [if_pos rfl] at hspec
      cases hqueue : route.phase.deferred with
      | some queue =>
          rw [hqueue] at hspec
          cases hspec with
          | refusedDeferral hp hq hobs hrefuses =>
              cases hq; cases hobs
              exact .own (hg route queue hroute hp hqueue hrefuses)
          | refusedDelivery _ hq _ _ _ _ _ _ => cases hq
      | none =>
          rw [hqueue] at hspec
          have hstage := hw.stage_of hroute
          refine .accepted (routeFailure_delivery hw hroute ?_ hspec)
          intro hnone
          rw [hnone] at hstage
          -- an unaccepted route that defers nothing has ended, and an ended one fails nothing
          have hend : route.phase.isTerminal = true := by
            cases hphase : route.phase with
            | starting _ => rw [hphase] at hqueue; cases hqueue
            | replaying _ _ => rw [hphase] at hqueue; cases hqueue
            | active _ => rw [hphase] at hstage; exact absurd hstage.of_active.1 (by simp)
            | terminalBeforeStart _ => rfl
          cases hspec with
          | refusedDelivery _ _ hlive _ _ _ _ _ => rw [hend] at hlive; cases hlive
          | refusedDeferral _ hq _ _ => cases hq

/-- What the replay of an event interrupts. -/
theorem accepted_replayEvent (hw : ShapeInv w) {turn observed sourceMethod : String}
    {event : Event} {batch : List DeferredRunNotification}
    (hreplay : w.replay = .running turn (.event observed sourceMethod event :: batch))
    {x : String} (hx : x ∈ RunWorld.interruptOf
      (w.slot.routeEvent (some observed) sourceMethod event false env.eventCapacity).1) :
    w.accepted = some x := by
  obtain ⟨run, hout⟩ := mem_interruptOf hx
  have hstage := hw.stage
  rw [hreplay] at hstage
  obtain ⟨hacc, _⟩ := hstage.of_running
  cases hroute : w.slot.route with
  | none => rw [RunSlot.routeEvent_of_none hroute] at hout; cases hout
  | some route =>
      obtain ⟨outcome, route', shared', heq, hspec⟩ :=
        RunSlot.routeEvent_of_route hroute (some observed) sourceMethod event false
          env.eventCapacity
      rw [heq] at hout
      obtain rfl : outcome = .routeFailure x run := hout
      refine routeFailure_delivery hw hroute ?_ hspec
      rw [hacc]; exact Option.some_ne_none turn

/-- What a cancel, a deadline or a shutdown interrupts. -/
theorem justified_turnId (hw : ShapeInv w) {route : RunRoute} {x : String}
    (hroute : w.slot.route = some route) (hturn : route.phase.turnId = some x) :
    Justified turnId w x := by
  have hstage := hw.stage_of hroute
  cases hphase : route.phase with
  | starting _ => rw [hphase] at hturn; cases hturn
  | replaying _ _ =>
      rw [hphase] at hturn hstage
      cases hturn
      exact .accepted hstage.of_replaying.1
  | active _ =>
      rw [hphase] at hturn hstage
      cases hturn
      exact .accepted hstage.of_active.1
  | terminalBeforeStart ended =>
      rw [hphase] at hturn hstage
      obtain rfl : ended = some x := hturn
      exact .ended hstage.of_ended.1 hroute hphase

/-- **Whatever a step interrupts is justified.** -/
theorem justified_step (hw : ShapeInv w) (label : RunLabel)
    (hg : NamesOwnTurn env turnId w label) {x : String}
    (hx : x ∈ (w.act env label).interrupts) : x ∈ w.interrupts ∨ Justified turnId w x := by
  cases label with
  | routeEvent observed sourceMethod event =>
      rcases List.mem_append.mp hx with hold | hnew
      · exact Or.inl hold
      · exact Or.inr (justified_routeEvent hw hg hnew)
  | routeTerminal params =>
      refine Or.inl ?_
      unfold RunWorld.act RunWorld.routeTerminal at hx
      dsimp only at hx
      split at hx <;> exact hx
  | acknowledgeStart turn =>
      refine Or.inl ?_
      have hspec := acknowledgeStart_spec w turn
      have hx' : x ∈ (w.acknowledgeStart turn).interrupts := hx
      generalize w.acknowledgeStart turn = w' at hspec hx'
      cases hspec <;> exact hx'
  | replay =>
      have hspec := replayStep_spec env w
      have hx' : x ∈ (w.replayStep env).interrupts := hx
      generalize w.replayStep env = w' at hspec hx'
      cases hspec with
      | event hreplay =>
          rcases List.mem_append.mp hx' with hold | hnew
          · exact Or.inl hold
          · exact Or.inr (.accepted (accepted_replayEvent hw hreplay hnew))
      | _ => exact Or.inl hx'
  | failBeforeStart error => exact Or.inl hx
  | cancelRegistered =>
      rcases List.mem_append.mp hx with hold | hnew
      · exact Or.inl hold
      · refine Or.inr ?_
        unfold RunSlot.cancelRegistered at hnew
        cases hroute : w.slot.route with
        | none => rw [hroute] at hnew; cases hnew
        | some route =>
            rw [hroute] at hnew
            dsimp only at hnew
            split at hnew
            · cases hnew
            · cases hturn : route.phase.turnId with
              | none => rw [hturn] at hnew; cases hnew
              | some turn =>
                  rw [hturn] at hnew
                  obtain rfl : x = turn := List.mem_singleton.mp hnew
                  exact justified_turnId hw hroute hturn
  | failActive turn error =>
      rcases List.mem_append.mp hx with hold | hnew
      · exact Or.inl hold
      · refine Or.inr ?_
        unfold RunSlot.failActive at hnew
        cases hroute : w.slot.route with
        | none => rw [hroute] at hnew; cases hnew
        | some route =>
            rw [hroute] at hnew
            dsimp only at hnew
            split at hnew
            · cases hnew
            · rename_i hskip
              obtain rfl : x = turn := List.mem_singleton.mp hnew
              simp only [Bool.or_eq_true, decide_eq_true_eq, not_or,
                Classical.not_not] at hskip
              obtain ⟨⟨⟨_, hturn⟩, _⟩, _⟩ := hskip
              exact justified_turnId hw hroute hturn
  | failAll error => exact Or.inl hx
  | activeTurn =>
      rcases List.mem_append.mp hx with hold | hnew
      · exact Or.inl hold
      · refine Or.inr ?_
        unfold RunSlot.activeTurn at hnew
        cases hroute : w.slot.route with
        | none => rw [hroute] at hnew; cases hnew
        | some route =>
            rw [hroute] at hnew
            cases hturn : route.phase.turnId with
            | none => rw [Option.bind_some, hturn] at hnew; cases hnew
            | some turn =>
                rw [Option.bind_some, hturn] at hnew
                obtain rfl : x = turn := List.mem_singleton.mp hnew
                exact justified_turnId hw hroute hturn
  | recv => exact Or.inl hx

/-! ## The reasons last -/

/-- An ended route can only be removed. -/
theorem route_settled {slot slot' : RunSlot} {route : RunRoute} (hs : slot.EntryStep slot')
    (hroute : slot.route = some route) (hend : route.phase.isTerminal = true) :
    slot'.route = none ∨ slot'.route = some route := by
  have hsome : ∀ r, slot.route = some r → r.phase.isTerminal = true := by
    intro r hr
    rw [hroute] at hr; cases hr
    exact hend
  cases hs with
  | idle hsame _ _ _ => exact Or.inr (hsame.trans hroute)
  | registered _ _ hnone _ _ _ _ => rw [hroute] at hnone; cases hnone
  | kept hr hlive _ _ _ _ _ _ => rw [hsome _ hr] at hlive; cases hlive
  | published hr hlive _ _ _ _ _ => rw [hsome _ hr] at hlive; cases hlive
  | removed _ hnone _ _ _ _ _ => exact Or.inl hnone

/-- Without a route there is nothing to act on. -/
theorem act_lost (hacc : w.accepted = none) (hw : ShapeInv w) (hnone : w.slot.route = none)
    (label : RunLabel) :
    (w.act env label).accepted = none ∧ (w.act env label).slot.route = none := by
  have hidle : w.replay = .idle := by
    have hstage := hw.stage
    rw [hnone, hacc] at hstage
    generalize w.replay = replay at hstage
    cases hstage; rfl
  cases label with
  | routeEvent observed sourceMethod event =>
      have hsame := RunSlot.routeEvent_of_none hnone observed sourceMethod event true
        env.eventCapacity
      exact ⟨hacc, (congrArg (fun routed => routed.2.route) hsame).trans hnone⟩
  | routeTerminal params =>
      unfold RunWorld.act RunWorld.routeTerminal
      dsimp only
      split
      · exact ⟨hacc, hnone⟩
      · rw [RunSlot.routeTerminal_of_none hnone]
        exact ⟨hacc, hnone⟩
  | acknowledgeStart turn =>
      have hspec := acknowledgeStart_spec w turn
      show (w.acknowledgeStart turn).accepted = none ∧ (w.acknowledgeStart turn).slot.route = none
      generalize w.acknowledgeStart turn = w' at hspec
      cases hspec with
      | refused => exact ⟨hacc, hnone⟩
      | replay hroute _ => rw [hnone] at hroute; cases hroute
      | completed hroute _ _ => rw [hnone] at hroute; cases hroute
  | replay =>
      unfold RunWorld.act RunWorld.replayStep
      dsimp only
      rw [hidle]
      exact ⟨hacc, hnone⟩
  | failBeforeStart error =>
      unfold RunWorld.act RunWorld.failBeforeStart RunSlot.failBeforeStart
      dsimp only
      rw [hnone]
      exact ⟨hacc, hnone⟩
  | cancelRegistered =>
      unfold RunWorld.act RunWorld.cancelRegistered RunSlot.cancelRegistered
      dsimp only
      rw [hnone]
      exact ⟨hacc, hnone⟩
  | failActive turn error =>
      unfold RunWorld.act RunWorld.failActive RunSlot.failActive
      dsimp only
      rw [hnone]
      exact ⟨hacc, hnone⟩
  | failAll error => exact ⟨hacc, RunSlot.failAll_route _ error⟩
  | activeTurn => exact ⟨hacc, hnone⟩
  | recv => exact ⟨hacc, hnone⟩

/-- A run that ended before it was acknowledged waits for that turn or is removed. -/
theorem act_ended (hw : ShapeInv w) {route : RunRoute} {x : String} (hacc : w.accepted = none)
    (hroute : w.slot.route = some route) (hphase : route.phase = .terminalBeforeStart (some x))
    (label : RunLabel) :
    (w.act env label).accepted = some x
      ∨ ((w.act env label).accepted = none ∧ ((w.act env label).slot.route = none
        ∨ (w.act env label).slot.route = some route)) := by
  have hend : route.phase.isTerminal = true := by rw [hphase]; rfl
  have hstage := hw.stage_of hroute
  rw [hphase] at hstage
  obtain ⟨_, hidle⟩ := hstage.of_ended
  have hsettled : ∀ {slot' : RunSlot}, w.slot.EntryStep slot' →
      slot'.route = none ∨ slot'.route = some route := by
    intro slot' hs
    exact route_settled hs hroute hend
  cases label with
  | routeEvent observed sourceMethod event =>
      exact Or.inr ⟨hacc, hsettled (entryStep_routeEvent ..)⟩
  | routeTerminal params =>
      refine Or.inr ?_
      unfold RunWorld.act RunWorld.routeTerminal
      dsimp only
      split
      · exact ⟨hacc, Or.inr hroute⟩
      · exact ⟨hacc, hsettled (entryStep_routeTerminal ..)⟩
  | acknowledgeStart turn =>
      have hspec := acknowledgeStart_spec w turn
      show (w.acknowledgeStart turn).accepted = some x ∨ ((w.acknowledgeStart turn).accepted = none
        ∧ ((w.acknowledgeStart turn).slot.route = none
          ∨ (w.acknowledgeStart turn).slot.route = some route))
      generalize w.acknowledgeStart turn = w' at hspec
      cases hspec with
      | refused => exact Or.inr ⟨hacc, Or.inr hroute⟩
      | replay hr hp =>
          rw [hroute] at hr; cases hr
          rw [hphase] at hp; cases hp
      | completed hr hp hturn =>
          rw [hroute] at hr; cases hr
          rw [hphase] at hp; cases hp
          exact Or.inl (congrArg some (hturn x rfl).symm)
  | replay =>
      refine Or.inr ?_
      unfold RunWorld.act RunWorld.replayStep
      dsimp only
      rw [hidle]
      exact ⟨hacc, Or.inr hroute⟩
  | failBeforeStart error => exact Or.inr ⟨hacc, hsettled (entryStep_failBeforeStart ..)⟩
  | cancelRegistered => exact Or.inr ⟨hacc, hsettled (entryStep_cancelRegistered _)⟩
  | failActive turn error => exact Or.inr ⟨hacc, hsettled (entryStep_failActive ..)⟩
  | failAll error => exact Or.inr ⟨hacc, Or.inl (RunSlot.failAll_route _ error)⟩
  | activeTurn => exact Or.inr ⟨hacc, Or.inr hroute⟩
  | recv => exact Or.inr ⟨hacc, Or.inr hroute⟩

/-- Once a turn is accepted it stays so. -/
theorem act_accepted (hw : ShapeInv w) {turn : String} (hacc : w.accepted = some turn)
    (label : RunLabel) : (w.act env label).accepted = some turn := by
  cases label with
  | acknowledgeStart other =>
      have hspec := acknowledgeStart_spec w other
      show (w.acknowledgeStart other).accepted = some turn
      generalize w.acknowledgeStart other = w' at hspec
      cases hspec with
      | refused => exact hacc
      | replay hroute hphase =>
          have hstage := hw.stage_of hroute
          rw [hphase, hacc] at hstage
          exact absurd hstage.of_starting.1 (by simp)
      | completed hroute hphase _ =>
          have hstage := hw.stage_of hroute
          rw [hphase, hacc] at hstage
          exact absurd hstage.of_ended.1 (by simp)
  | replay =>
      have hspec := replayStep_spec env w
      show (w.replayStep env).accepted = some turn
      generalize w.replayStep env = w' at hspec
      cases hspec <;> exact hacc
  | routeTerminal params =>
      unfold RunWorld.act RunWorld.routeTerminal
      dsimp only
      split <;> exact hacc
  | _ => exact hacc

end Steps

/-! ## Every run -/

/-- Every interrupt is justified, or was issued for a turn that is not the one in question. -/
structure InterruptInv (turnId : String) (w : RunWorld) : Prop where
  /-- The stages. -/
  shape : ShapeInv w
  /-- The interrupts. -/
  justified : ∀ x ∈ w.interrupts, Justified turnId w x ∨ ∃ other, w.accepted = some other
    ∧ other ≠ turnId

theorem interruptInv_init (env : RunEnv) (turnId : String) :
    InterruptInv turnId (RunWorld.init env) where
  shape := shapeInv_init env
  justified := by intro x hx; cases hx

/-- A reason holds on after any step. -/
theorem justified_act {env : RunEnv} {turnId : String} {w : RunWorld} (hw : ShapeInv w)
    {x : String} (hj : Justified turnId w x) (label : RunLabel) :
    Justified turnId (w.act env label) x := by
  cases hj with
  | own hx => exact .own hx
  | accepted hacc => exact .accepted (act_accepted hw hacc label)
  | lost hacc hnone =>
      obtain ⟨hacc', hnone'⟩ := act_lost hacc hw hnone label
      exact .lost hacc' hnone'
  | ended hacc hroute hphase =>
      rcases act_ended hw hacc hroute hphase label with hx | ⟨hacc', hnone | hsame⟩
      · exact .accepted hx
      · exact .lost hacc' hnone
      · exact .ended hacc' hsame hphase

/-- **Every step keeps the reasons, and only justified interrupts are added.** -/
theorem interruptInv_step {env : RunEnv} {turnId : String} {w : RunWorld}
    (h : InterruptInv turnId w) (label : RunLabel) (hg : NamesOwnTurn env turnId w label) :
    InterruptInv turnId (w.act env label) where
  shape := shapeInv_step h.shape label
  justified := by
    intro x hx
    have hold : Justified turnId w x ∨ ∃ other, w.accepted = some other ∧ other ≠ turnId := by
      rcases justified_step h.shape label hg hx with hold | hnew
      · exact h.justified x hold
      · exact Or.inl hnew
    rcases hold with hj | ⟨other, hacc, hne⟩
    · exact Or.inl (justified_act h.shape hj label)
    · exact Or.inr ⟨other, act_accepted h.shape hacc label, hne⟩

theorem interruptInv_reachable {env : RunEnv} {turnId : String} {w : RunWorld}
    (h : (runMachine env).Reachable (NamesOwnTurn env turnId) w) : InterruptInv turnId w := by
  refine h.invariant (interruptInv_init env turnId) ?_
  intro s label _ hs hg
  exact interruptInv_step hs label hg

/--
**Every interrupt of a run names the run's own turn**, in every run in which each
notification that cannot be deferred carries the turn the run is acknowledged for.
-/
theorem interrupt_names_own_turn {env : RunEnv} {turnId : String} {w : RunWorld}
    (h : (runMachine env).Reachable (NamesOwnTurn env turnId) w)
    (hacc : w.accepted = some turnId) {x : String} (hx : x ∈ w.interrupts) : x = turnId := by
  have hinv := interruptInv_reachable h
  rcases hinv.justified x hx with hj | ⟨other, hother, hne⟩
  · cases hj with
    | own heq => exact heq
    | accepted haccx =>
        rw [hacc] at haccx
        exact (Option.some.inj haccx).symm
    | ended hnone _ _ => rw [hacc] at hnone; cases hnone
    | lost hnone _ => rw [hacc] at hnone; cases hnone
  · rw [hacc] at hother
    exact absurd (Option.some.inj hother).symm hne

/-- A deadline that fires on the acknowledged turn interrupts that turn. -/
theorem interrupt_names_own_turn_deadline :
    let w := (runMachine RunEnv.tight).run
      [.routeEvent (some "turn") "turn/started" .started, .acknowledgeStart "turn",
        .failActive "turn" (Error.timeout "turn.run" 1000)]
    "turn" ∈ w.interrupts ∧ ∀ x ∈ w.interrupts, x = "turn" := by
  intro w
  have hreach : (runMachine RunEnv.tight).Reachable (NamesOwnTurn RunEnv.tight "turn") w := by
    refine Machine.Reachable.step (Machine.Reachable.step (Machine.Reachable.step
      Machine.reachable_init ?_) trivial) trivial
    intro _ _ _ _ _ _
    rfl
  exact ⟨by decide, fun x hx => interrupt_names_own_turn hreach rfl hx⟩

/-- Two notifications of an older turn, one of which no longer fits, make the run interrupt
that turn instead of its own. -/
theorem interrupt_names_older_turn :
    ¬ ∀ (env : RunEnv) (labels : List RunLabel) (turnId x : String),
      ((runMachine env).run labels).accepted = some turnId →
      x ∈ ((runMachine env).run labels).interrupts → x = turnId := by
  intro hall
  have hx := hall RunEnv.tight
    [.routeEvent (some "older") "item/agentMessage/delta" (.textDelta "a"),
      .routeEvent (some "older") "item/agentMessage/delta" (.textDelta "b"),
      .acknowledgeStart "turn"] "turn" "older" rfl (by decide)
  exact absurd hx (by decide)

end Vergerail
