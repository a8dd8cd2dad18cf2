import Vergerail.Proof.InterruptTurn

/-!
# A deferred terminal reaches the watch

A `turn/completed` that arrives before the handover is over waits in the same
bounded queue as the events. If nothing empties that queue, the terminal moves
from the queue to the batch of the replay loop, and the loop publishes it before
it can stop.

Three branches do empty the queue: `record_failure` on behalf of an event that
cannot be deferred or replayed, and `route_terminal` when the terminal of another
turn finds the queue full. `KeepsTerminal` says that none of them is taken while a
terminal of the turn waits there.
-/

namespace Vergerail

open Lib

/-- A terminal of the turn waits in a queue. -/
def HoldsTerminal (env : RunEnv) (turnId : String) (queue : List DeferredRunNotification) :
    Prop :=
  ∃ params completion, .terminal params ∈ queue
    ∧ turnCompletion env.redactLine params = .ok completion ∧ completion.turnId = turnId

/-- No step empties the queue of the route while a terminal of the turn waits there. -/
def KeepsTerminal (env : RunEnv) (turnId : String) (w : RunWorld) (label : RunLabel) : Prop :=
  ∀ route queue, w.slot.route = some route → route.phase.deferred = some queue →
    HoldsTerminal env turnId queue → route.pendingFailure = none →
    match label with
    | .routeEvent (some _) _ event => ¬ route.RefusesDeferral event queue env.eventCapacity
    | .routeTerminal params =>
        ∀ completion owner, turnCompletion env.redactLine params = .ok completion →
          route.phase.turnId = some owner → owner ≠ completion.turnId →
          queue.length < env.eventCapacity
    | .replay =>
        ∀ owner sourceMethod event batch,
          w.replay = .running owner (.event owner sourceMethod event :: batch) →
          w.shared.abandoned = false →
          ¬ route.RefusesDelivery w.shared event env.eventCapacity
    | _ => True

section Queues

variable {env : RunEnv} {turnId : String} {queue : List DeferredRunNotification}

theorem HoldsTerminal.append (h : HoldsTerminal env turnId queue)
    (more : List DeferredRunNotification) : HoldsTerminal env turnId (queue ++ more) := by
  obtain ⟨params, completion, hmem, hparse, hturn⟩ := h
  exact ⟨params, completion, List.mem_append_left _ hmem, hparse, hturn⟩

theorem not_holdsTerminal_nil : ¬ HoldsTerminal env turnId [] := by
  rintro ⟨_, _, hmem, _, _⟩
  cases hmem

/-- Superseding an image leaves the terminals alone. -/
theorem HoldsTerminal.retainOtherImages (h : HoldsTerminal env turnId queue) (event : Event) :
    HoldsTerminal env turnId (RunRoute.retainOtherImages event queue) := by
  obtain ⟨params, completion, hmem, hparse, hturn⟩ := h
  refine ⟨params, completion, ?_, hparse, hturn⟩
  unfold RunRoute.retainOtherImages
  cases event.imageId with
  | none => exact hmem
  | some imageId =>
      refine List.mem_filter.mpr ⟨hmem, ?_⟩
      simp [DeferredRunNotification.imageId]

/-- Taking out the first notification keeps a terminal, unless that was the one. -/
theorem HoldsTerminal.tail {next : DeferredRunNotification}
    (h : HoldsTerminal env turnId (next :: queue))
    (hne : ∀ params completion, next = .terminal params →
      turnCompletion env.redactLine params = .ok completion → completion.turnId ≠ turnId) :
    HoldsTerminal env turnId queue := by
  obtain ⟨params, completion, hmem, hparse, hturn⟩ := h
  rcases List.mem_cons.mp hmem with heq | hrest
  · exact absurd hturn (hne params completion heq.symm hparse)
  · exact ⟨params, completion, hrest, hparse, hturn⟩

end Queues

/-- While the route is live, a terminal of the turn waits in its queue or in the batch. -/
def TerminalHeld (env : RunEnv) (turnId : String) (slot : RunSlot) (replay : ReplayLoop) : Prop :=
  ∀ route, slot.route = some route → route.phase.isTerminal = false →
    (∃ queue, route.phase.deferred = some queue ∧ HoldsTerminal env turnId queue)
      ∨ HoldsTerminal env turnId replay.batch

section Held

variable {env : RunEnv} {turnId : String} {slot : RunSlot} {replay : ReplayLoop}

theorem terminalHeld_of_none (h : slot.route = none) : TerminalHeld env turnId slot replay := by
  intro route hroute
  rw [h] at hroute; cases hroute

/-- Writing back a route that defers what it deferred before. -/
theorem TerminalHeld.store (h : TerminalHeld env turnId slot replay) {route route' : RunRoute}
    {shared : RunShared} (hroute : slot.route = some route)
    (hlive : route.phase.isTerminal = false) (hphase : route'.phase = route.phase) :
    TerminalHeld env turnId (slot.store route' shared) replay := by
  intro r hr _
  cases hr
  rw [hphase]
  exact h route hroute hlive

/-- Publishing ends the route. -/
theorem terminalHeld_publishTerminal {route : RunRoute} {turn : String}
    {result : Result RunResult} :
    TerminalHeld env turnId (slot.publishTerminal route turn result) replay := by
  intro route' hroute' hlive'
  rw [RunSlot.publishTerminal_ended hroute'] at hlive'
  cases hlive'

/-- An event leaves a waiting terminal where it is, unless it fails the run. -/
theorem TerminalHeld.routeEvent (h : TerminalHeld env turnId slot replay)
    (observed : Option String) (sourceMethod : String) (event : Event) (defer : Bool)
    (hdefer : ∀ route queue, slot.route = some route → route.phase.deferred = some queue →
      HoldsTerminal env turnId queue → route.pendingFailure = none → defer = true →
      observed ≠ none → ¬ route.RefusesDeferral event queue env.eventCapacity)
    (hdeliver : ∀ route queue, slot.route = some route → route.phase.deferred = some queue →
      HoldsTerminal env turnId queue → route.pendingFailure = none → defer = false →
      RunRoute.SameTurn observed route.phase.turnId → (slot.cells route.run).abandoned = false →
      ¬ route.RefusesDelivery (slot.cells route.run) event env.eventCapacity) :
    TerminalHeld env turnId
      (slot.routeEvent observed sourceMethod event defer env.eventCapacity).2 replay := by
  cases hroute : slot.route with
  | none => rw [RunSlot.routeEvent_of_none hroute]; exact h
  | some route =>
      obtain ⟨outcome, route', shared', heq, hspec⟩ :=
        RunSlot.routeEvent_of_route hroute observed sourceMethod event defer env.eventCapacity
      rw [heq]
      -- what the queue held, if it is emptied, is ruled out; the batch is untouched
      have hemptied : route.phase.isTerminal = false → (∀ queue,
          route.phase.deferred = some queue → HoldsTerminal env turnId queue → False) →
          TerminalHeld env turnId (slot.store route' shared') replay := by
        intro hlive hno r hr _
        cases hr
        rcases h route hroute hlive with ⟨queue, hqueue, hholds⟩ | hbatch
        · exact absurd hholds (hno queue hqueue)
        · exact Or.inr hbatch
      cases hspec with
      | afterFailure _ => rw [RunSlot.store_self hroute]; exact h
      | beforeTurn _ _ => rw [RunSlot.store_self hroute]; exact h
      | mismatch _ _ _ _ => rw [RunSlot.store_self hroute]; exact h
      | afterTerminal _ _ => rw [RunSlot.store_self hroute]; exact h
      | afterAbandon _ _ => rw [RunSlot.store_self hroute]; exact h
      | unowned _ _ _ _ hlive hbase => exact h.store hroute hlive hbase.phase
      | delivered _ _ hlive _ _ hbase _ => exact h.store hroute hlive hbase.phase
      | @deferred waiting turn bytes byId hp hq hobs _ =>
          have hwaiting := RunPhase.deferred_of_ite defer waiting hq
          intro r hr _
          cases hr
          rcases h route hroute (RunPhase.isTerminal_of_deferred hwaiting) with
            ⟨queue, hqueue, hholds⟩ | hbatch
          · rw [hwaiting] at hqueue; cases hqueue
            exact Or.inl ⟨_, RunPhase.setDeferred_deferred hwaiting _,
              (hholds.retainOtherImages event).append _⟩
          · exact Or.inr hbatch
      | @refusedDeferral waiting turn error hp hq hobs hrefuses =>
          have hwaiting := RunPhase.deferred_of_ite defer waiting hq
          refine hemptied (RunPhase.isTerminal_of_deferred hwaiting) ?_
          intro queue hqueue hholds
          have hdef : defer = true := by
            cases defer with
            | true => rfl
            | false => cases hq
          rw [hwaiting] at hqueue; cases hqueue
          exact hdefer route waiting hroute hwaiting hholds hp hdef (by rw [hobs]; simp) hrefuses
      | refusedDelivery hp hq hlive hab hsame _ _ hrefuses =>
          refine hemptied hlive ?_
          intro queue hqueue hholds
          have hdef : defer = false := by
            cases defer with
            | true => rw [if_pos rfl, hqueue] at hq; cases hq
            | false => rfl
          exact hdeliver route queue hroute hqueue hholds hp hdef hsame hab hrefuses

/-- A terminal leaves a waiting one where it is, or joins it, or ends the run. -/
theorem TerminalHeld.routeTerminal (h : TerminalHeld env turnId slot replay)
    (completion : TurnCompletion) (params : Json) (defer : Bool)
    (hroom : ∀ route queue owner, slot.route = some route →
      route.phase.deferred = some queue → HoldsTerminal env turnId queue →
      route.pendingFailure = none → defer = true → route.phase.turnId = some owner →
      owner ≠ completion.turnId → queue.length < env.eventCapacity) :
    TerminalHeld env turnId
      (slot.routeTerminal completion params defer env.eventCapacity).2 replay := by
  cases hroute : slot.route with
  | none => rw [RunSlot.routeTerminal_of_none hroute]; exact h
  | some route =>
      have hspec := RunSlot.routeTerminal_of_route hroute completion params defer
        env.eventCapacity
      cases hrouted : slot.routeTerminal completion params defer env.eventCapacity with
      | mk outcome slot' =>
      rw [hrouted] at hspec
      cases hspec with
      | duplicate _ => exact h
      | mismatch _ _ _ => exact h
      | completed _ _ _ => exact terminalHeld_publishTerminal
      | @deferred waiting hq _ =>
          have hwaiting := RunPhase.deferred_of_ite _ waiting hq
          intro r hr _
          cases hr
          rcases h route hroute (RunPhase.isTerminal_of_deferred hwaiting) with
            ⟨queue, hqueue, hholds⟩ | hbatch
          · rw [hwaiting] at hqueue; cases hqueue
            exact Or.inl ⟨_, RunPhase.setDeferred_deferred hwaiting _, hholds.append _⟩
          · exact Or.inr hbatch
      | @mismatchFull waiting expected hq hfull hturn hne =>
          have hwaiting := RunPhase.deferred_of_ite _ waiting hq
          obtain ⟨hdef, hp⟩ : defer = true ∧ route.pendingFailure = none := by
            split at hq
            · rename_i hboth
              rw [Bool.and_eq_true, Option.isNone_iff_eq_none] at hboth
              exact hboth
            · cases hq
          intro r hr _
          cases hr
          rcases h route hroute (RunPhase.isTerminal_of_deferred hwaiting) with
            ⟨queue, hqueue, hholds⟩ | hbatch
          · rw [hwaiting] at hqueue; cases hqueue
            have hlt := hroom route waiting expected hroute hwaiting hholds hp hdef hturn hne
            omega
          · exact Or.inr hbatch

/-- A terminal that is answered `Deferred` waits in the queue. -/
theorem terminalHeld_of_deferred {completion : TurnCompletion} {params : Json}
    (hparse : turnCompletion env.redactLine params = .ok completion)
    (hturn : completion.turnId = turnId)
    (hout : (slot.routeTerminal completion params true env.eventCapacity).1 = .deferred) :
    TerminalHeld env turnId (slot.routeTerminal completion params true env.eventCapacity).2
      replay := by
  cases hroute : slot.route with
  | none => rw [RunSlot.routeTerminal_of_none hroute] at hout; cases hout
  | some route =>
      have hspec := RunSlot.routeTerminal_of_route hroute completion params true
        env.eventCapacity
      cases hrouted : slot.routeTerminal completion params true env.eventCapacity with
      | mk outcome slot' =>
      rw [hrouted] at hspec hout
      obtain rfl : outcome = .deferred := hout
      cases hspec with
      | @deferred waiting hq _ =>
          have hwaiting := RunPhase.deferred_of_ite _ waiting hq
          intro r hr _
          cases hr
          refine Or.inl ⟨_, RunPhase.setDeferred_deferred hwaiting _, params, completion, ?_,
            hparse, hturn⟩
          exact List.mem_append_right _ (List.mem_singleton.mpr rfl)

end Held

/-! ## Every run -/

/-- A deferred terminal of the turn is held until the run ends. -/
structure HeldInv (env : RunEnv) (turnId : String) (w : RunWorld) : Prop where
  /-- The stages. -/
  shape : ShapeInv w
  /-- The terminal, as long as no other turn is accepted. -/
  held : turnId ∈ w.deferredTerminals → (∀ other, w.accepted = some other → other = turnId) →
    TerminalHeld env turnId w.slot w.replay

theorem heldInv_init (env : RunEnv) (turnId : String) :
    HeldInv env turnId (RunWorld.init env) where
  shape := shapeInv_init env
  held := by intro h; cases h

section Steps

variable {env : RunEnv} {turnId : String} {w : RunWorld}

/-- Acknowledging hands the queue to the loop. -/
theorem held_acknowledgeStart (h : TerminalHeld env turnId w.slot w.replay) (hw : ShapeInv w)
    (turn : String) : TerminalHeld env turnId (w.acknowledgeStart turn).slot
      (w.acknowledgeStart turn).replay := by
  have hspec := acknowledgeStart_spec w turn
  generalize w.acknowledgeStart turn = w' at hspec
  cases hspec with
  | refused => exact h
  | completed _ _ _ => exact terminalHeld_of_none rfl
  | @replay route queue hroute hphase =>
      have hstage := hw.stage_of hroute
      rw [hphase] at hstage
      obtain ⟨_, hidle⟩ := hstage.of_starting
      intro r _ _
      rcases h route hroute (by rw [hphase]; rfl) with ⟨waiting, hwaiting, hholds⟩ | hbatch
      · rw [hphase] at hwaiting; cases hwaiting
        exact Or.inr hholds
      · rw [hidle] at hbatch
        exact absurd hbatch not_holdsTerminal_nil

/-- The loop hands a terminal on only to publish it. -/
theorem held_replayStep (h : TerminalHeld env turnId w.slot w.replay) (hw : ShapeInv w)
    (hacc : ∀ other, w.accepted = some other → other = turnId)
    (hg : KeepsTerminal env turnId w .replay) :
    TerminalHeld env turnId (w.replayStep env).slot (w.replayStep env).replay := by
  have hspec := replayStep_spec env w
  generalize w.replayStep env = w' at hspec
  -- popping anything but a terminal of the turn
  have hpop : ∀ {turn next batch}, w.replay = .running turn (next :: batch) →
      (∀ params completion, next = .terminal params →
        turnCompletion env.redactLine params = .ok completion → completion.turnId ≠ turnId) →
      ∀ {slot : RunSlot}, TerminalHeld env turnId slot w.replay →
        TerminalHeld env turnId slot (.running turn batch) := by
    intro turn next batch hreplay hne slot hslot route hroute hlive
    rw [hreplay] at hslot
    rcases hslot route hroute hlive with hqueue | hbatch
    · exact Or.inl hqueue
    · exact Or.inr (hbatch.tail hne)
  cases hspec with
  | resting _ => exact h
  | @event turn observed sourceMethod event batch hreplay =>
      refine hpop hreplay (by intro _ _ hn; cases hn) ?_
      refine h.routeEvent _ _ _ _ (by intro _ _ _ _ _ _ hdef; cases hdef) ?_
      intro route queue hroute hqueue hholds hp _ hsame hab
      have hstage := hw.stage_of hroute
      rw [hreplay] at hstage
      obtain ⟨_, hphase | ⟨waiting, hphase⟩⟩ := hstage.of_running
      · cases hphase
      · -- only an event of the run's own turn gets past the turn check
        have hturn : route.phase.turnId = some turn := by
          rw [Option.some.inj hphase]; rfl
        obtain rfl : turn = observed := hsame observed turn rfl hturn
        rw [hw.owner route hroute] at hab ⊢
        exact hg route queue hroute hqueue hholds hp turn sourceMethod event batch hreplay hab
  | @unreadable turn params batch error hreplay hparse =>
      refine hpop hreplay ?_ h
      intro params' completion hn hparse'
      cases hn
      rw [hparse] at hparse'; cases hparse'
  | @terminal turn params batch completion hreplay hparse =>
      have hslot := h.routeTerminal completion params false
        (by intro _ _ _ _ _ _ _ hdef; cases hdef)
      by_cases hown : completion.turnId = turnId
      · -- the run's own terminal ends the run
        have hstage := hw.stage
        rw [hreplay] at hstage
        obtain ⟨hsome, hphase⟩ := hstage.of_running
        have hturn : turn = turnId := hacc turn hsome
        cases hroute : w.slot.route with
        | none =>
            rw [RunSlot.routeTerminal_of_none hroute]
            exact terminalHeld_of_none hroute
        | some route =>
            rw [hroute] at hphase
            obtain hphase | ⟨queue, hphase⟩ := hphase
            · cases hphase
            have hroutePhase : route.phase = .replaying turn queue := Option.some.inj hphase
            have hterm := RunSlot.routeTerminal_of_route hroute completion params false
              env.eventCapacity
            cases hrouted : w.slot.routeTerminal completion params false env.eventCapacity with
            | mk outcome slot' =>
            rw [hrouted] at hterm
            cases hterm with
            | deferred hq _ => cases hq
            | mismatchFull hq _ _ _ => cases hq
            | completed _ _ _ => exact terminalHeld_publishTerminal
            | duplicate hend => rw [hroutePhase] at hend; cases hend
            | mismatch _ hexpected hne =>
                rw [hroutePhase] at hexpected
                cases hexpected
                exact absurd (hturn.trans hown.symm) hne
      · refine hpop hreplay ?_ hslot
        intro params' completion' hn hparse'
        cases hn
        rw [hparse] at hparse'; cases hparse'
        exact hown
  | @next turn route queue hreplay hroute hphase _ =>
      intro r _ _
      rcases h route hroute (by rw [hphase]; rfl) with ⟨waiting, hwaiting, hholds⟩ | hbatch
      · rw [hphase] at hwaiting; cases hwaiting
        exact Or.inr hholds
      · rw [hreplay] at hbatch
        exact absurd hbatch not_holdsTerminal_nil
  | @active turn route hreplay hroute hphase =>
      intro r _ _
      rcases h route hroute (by rw [hphase]; rfl) with ⟨waiting, hwaiting, hholds⟩ | hbatch
      · rw [hphase] at hwaiting; cases hwaiting
        exact absurd hholds not_holdsTerminal_nil
      · rw [hreplay] at hbatch
        exact absurd hbatch not_holdsTerminal_nil
  | @stopped turn hreplay _ =>
      intro route hroute hlive
      rcases h route hroute hlive with hqueue | hbatch
      · exact Or.inl hqueue
      · rw [hreplay] at hbatch
        exact absurd hbatch not_holdsTerminal_nil

/-- An operation that leaves the phase of a live route alone. -/
theorem TerminalHeld.of_samePhase {slot slot' : RunSlot} {replay : ReplayLoop}
    (h : TerminalHeld env turnId slot replay) (hsame : slot.SamePhase slot') :
    TerminalHeld env turnId slot' replay := by
  intro route' hroute' hlive'
  obtain ⟨route, hroute, hphase, _⟩ := hsame route' hroute' hlive'
  rw [hphase] at hlive' ⊢
  exact h route hroute hlive'

/-- **Every step that meets the condition keeps a deferred terminal in the run.** -/
theorem heldInv_step (h : HeldInv env turnId w) (label : RunLabel)
    (hg : KeepsTerminal env turnId w label) : HeldInv env turnId (w.act env label) where
  shape := shapeInv_step h.shape label
  held := by
    intro hmem hacc'
    have hacc : ∀ other, w.accepted = some other → other = turnId := by
      intro other hother
      exact hacc' other (act_accepted h.shape hother label)
    cases label with
    | routeEvent observed sourceMethod event =>
        refine (h.held hmem hacc).routeEvent observed sourceMethod event true ?_ ?_
        · intro route queue hroute hqueue hholds hp _ hobs
          cases observed with
          | none => exact absurd rfl hobs
          | some turn => exact hg route queue hroute hqueue hholds hp
        · intro _ _ _ _ _ _ hdef; cases hdef
    | routeTerminal params =>
        unfold RunWorld.act RunWorld.routeTerminal at hmem ⊢
        dsimp only at hmem ⊢
        cases hparse : turnCompletion env.redactLine params with
        | error error =>
            rw [hparse] at hmem
            exact h.held hmem hacc
        | ok completion =>
            rw [hparse] at hmem
            dsimp only at hmem ⊢
            rcases List.mem_append.mp hmem with hold | hnew
            · refine (h.held hold hacc).routeTerminal completion params true ?_
              intro route queue owner hroute hqueue hholds hp _ hturn hne
              exact hg route queue hroute hqueue hholds hp completion owner hparse hturn hne
            · split at hnew
              · rename_i hout
                exact terminalHeld_of_deferred hparse (List.mem_singleton.mp hnew).symm hout
              · cases hnew
    | acknowledgeStart turn =>
        have hspec := acknowledgeStart_spec w turn
        have hold : turnId ∈ w.deferredTerminals := by
          have hmem' : turnId ∈ (w.acknowledgeStart turn).deferredTerminals := hmem
          generalize w.acknowledgeStart turn = w' at hspec hmem'
          cases hspec <;> exact hmem'
        exact held_acknowledgeStart (h.held hold hacc) h.shape turn
    | replay =>
        have hspec := replayStep_spec env w
        have hold : turnId ∈ w.deferredTerminals := by
          have hmem' : turnId ∈ (w.replayStep env).deferredTerminals := hmem
          generalize w.replayStep env = w' at hspec hmem'
          cases hspec <;> exact hmem'
        exact held_replayStep (h.held hold hacc) h.shape hacc hg
    | failBeforeStart error =>
        exact (h.held hmem hacc).of_samePhase (samePhase_failBeforeStart w.slot error)
    | cancelRegistered => exact (h.held hmem hacc).of_samePhase (samePhase_cancelRegistered _)
    | failActive turn error =>
        exact (h.held hmem hacc).of_samePhase (samePhase_failActive w.slot turn 0 error)
    | failAll error => exact terminalHeld_of_none (RunSlot.failAll_route _ error)
    | activeTurn => exact h.held hmem hacc
    | recv => exact h.held hmem hacc

end Steps

theorem heldInv_reachable {env : RunEnv} {turnId : String} {w : RunWorld}
    (h : (runMachine env).Reachable (KeepsTerminal env turnId) w) : HeldInv env turnId w := by
  refine h.invariant (heldInv_init env turnId) ?_
  intro s label _ hs hg
  exact heldInv_step hs label hg

/--
**A deferred terminal is published.** In every run that never empties the queue of
the route while a terminal of the turn waits there: once `route_terminal` answered
`Deferred` for the turn and `acknowledge_start` accepted it, the terminal watch is
published when the replay loop has stopped.
-/
theorem deferred_terminal_published {env : RunEnv} {turnId : String} {w : RunWorld}
    (h : (runMachine env).Reachable (KeepsTerminal env turnId) w)
    (hdef : turnId ∈ w.deferredTerminals) (hacc : w.accepted = some turnId)
    (hstop : w.replay = .stopped) : w.shared.terminal.value.isSome := by
  obtain ⟨hshape, hheld⟩ := heldInv_reachable h
  have hown : ∀ other, w.accepted = some other → other = turnId := by
    intro other hother
    rw [hacc] at hother
    exact (Option.some.inj hother).symm
  cases hroute : w.slot.route with
  | none =>
      rcases hshape.gone hroute with hsome | ⟨hnone, _⟩
      · exact hsome
      · rw [hacc] at hnone; cases hnone
  | some route =>
      have hstage := hshape.stage_of hroute
      rw [hstop, hacc] at hstage
      -- a loop that stopped over a live route has nothing left to hold the terminal
      cases hphase : route.phase with
      | starting _ => rw [hphase] at hstage; exact absurd hstage.of_starting.1 (by simp)
      | terminalBeforeStart _ => rw [hphase] at hstage; exact absurd hstage.of_ended.1 (by simp)
      | replaying _ _ =>
          rw [hphase] at hstage
          obtain ⟨_, _, hrunning⟩ := hstage.of_replaying
          cases hrunning
      | active turn =>
          rcases hheld hdef hown route hroute (by rw [hphase]; rfl) with ⟨queue, hqueue, _⟩ | hbatch
          · rw [hphase] at hqueue; cases hqueue
          · rw [hstop] at hbatch
            exact absurd hbatch not_holdsTerminal_nil

/-- A terminal deferred before the acknowledgement is published by the replay. -/
theorem deferred_terminal_published_replay :
    ((runMachine RunEnv.tight).run
      [.routeTerminal (Json.turnCompleted "turn"), .acknowledgeStart "turn", .replay,
        .replay]).shared.terminal.value.isSome := by
  -- no queue of a route ever holds the terminal when the next step is taken
  have hempty : ∀ {w : RunWorld} {label : RunLabel},
      (∀ route queue, w.slot.route = some route → route.phase.deferred = some queue →
        queue = []) → KeepsTerminal RunEnv.tight "turn" w label := by
    intro w label hnil route queue hroute hqueue hholds
    rw [hnil route queue hroute hqueue] at hholds
    exact absurd hholds not_holdsTerminal_nil
  have hreach : (runMachine RunEnv.tight).Reachable (KeepsTerminal RunEnv.tight "turn")
      ((runMachine RunEnv.tight).run [.routeTerminal (Json.turnCompleted "turn"),
        .acknowledgeStart "turn", .replay, .replay]) := by
    refine Machine.Reachable.step (Machine.Reachable.step (Machine.Reachable.step
      (Machine.Reachable.step Machine.reachable_init (hempty ?_)) ?_) (hempty ?_)) (hempty ?_)
    · intro route queue hroute hqueue
      cases hroute; cases hqueue; rfl
    · intro _ _ _ _ _ _
      trivial
    · intro route queue hroute hqueue
      cases hroute; cases hqueue; rfl
    · intro route queue hroute
      cases hroute
  exact deferred_terminal_published hreach (by decide) rfl rfl

/-- A late notification of an older turn empties the queue in which the terminal waits, and the
run becomes active with nothing left to end it. -/
theorem deferred_terminal_discarded :
    ¬ ∀ (env : RunEnv) (labels : List RunLabel) (turnId : String),
      let w := (runMachine env).run labels
      turnId ∈ w.deferredTerminals → w.accepted = some turnId → w.replay = .stopped →
        w.shared.terminal.value.isSome := by
  intro hall
  have hsome := hall RunEnv.tight
    [.routeTerminal (Json.turnCompleted "turn"),
      .routeEvent (some "older") "item/agentMessage/delta" (.textDelta "late"),
      .acknowledgeStart "turn", .replay] "turn" (by decide) rfl rfl
  exact absurd hsome (by decide)

end Vergerail
