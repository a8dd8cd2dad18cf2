import Vergerail.Lib.Coalesce
import Vergerail.Proof.InterruptTurn

/-!
# The handover loses, repeats and reorders nothing

What a run has been handed, what the replay loop still holds and what the route
still defers, read in this order, are the events the router routed to the run's
turn, less image events that a later event of the turn for the same image superseded
while they waited. The router appends at the far end, the loop moves events from the
middle to the front, and the hand-over of a queue to the loop moves the boundary
between the last two parts.

The invariant is that sequence together with the boundary: `pre` is what was
handed out or is held by the loop, and behind it stands exactly the queue, since
only there may a push still supersede anything.

Two branches break it. `route_terminal` empties a full queue before it has looked
at the turn of the terminal; in the middle of a replay the terminal of another
turn then takes the run's own events with it. And `route_event` supersedes a waiting
image by its item alone; the image of another turn then takes the run's own one out
of the queue. `KeepsQueue` and `KeepsImages` say that these branches find none.
-/

namespace Vergerail

open Lib Coalesce

/-- The event a waiting notification holds for a turn, with that turn. -/
def DeferredRunNotification.eventOf (turnId : String) :
    DeferredRunNotification → Option (Option String × Event)
  | event observed _ e => if observed = turnId then some (some observed, e) else none
  | terminal _ => none

/-- The events that wait in a queue for a turn. -/
def eventsOf (turnId : String) (queue : List DeferredRunNotification) :
    List (Option String × Event) :=
  queue.filterMap (·.eventOf turnId)

/-- Image events are keyed by their item. -/
def imageKey (routed : Option String × Event) : Option String := routed.2.imageId

/-- A routed event is the turn's if it carries the turn, or none. -/
def OwnTurn (turnId : String) (routed : Option String × Event) : Prop :=
  routed.1 = some turnId ∨ routed.1 = none

namespace RunWorld

/-- The deferred queue of the run's route. -/
def queue (w : RunWorld) : List DeferredRunNotification :=
  (w.slot.route.bind (·.phase.deferred)).getD []

/-- What was handed to the run's channel, then what waits: replay batch, then queue. -/
def handedAndWaiting (turnId : String) (w : RunWorld) : List Event :=
  w.shared.events.sent ++ (eventsOf turnId w.replay.batch).map Prod.snd
    ++ (eventsOf turnId w.queue).map Prod.snd

end RunWorld

/-- A full queue that the terminal of another turn finds holds no event of the run's turn. -/
def KeepsQueue (env : RunEnv) (w : RunWorld) : RunLabel → Prop
  | .routeTerminal params =>
      ∀ completion route queue owner,
        turnCompletion env.redactLine params = .ok completion →
        w.slot.route = some route → route.pendingFailure = none →
        route.phase.deferred = some queue → route.phase.turnId = some owner →
        owner ≠ completion.turnId → env.eventCapacity ≤ queue.length →
        eventsOf owner queue = []
  | _ => True

/-- An image event of another turn that the queue accepts finds no event of its item waiting
for the turn. -/
def KeepsImages (env : RunEnv) (turnId : String) (w : RunWorld) : RunLabel → Prop
  | .routeEvent (some observed) _ event =>
      ∀ route queue, observed ≠ turnId → w.slot.route = some route →
        route.pendingFailure = none → route.phase.deferred = some queue →
        ¬ route.RefusesDeferral event queue env.eventCapacity →
        ∀ own ∈ eventsOf turnId queue, ¬ SameKey imageKey own (some observed, event)
  | _ => True

/-- A step that takes no event of the turn out of the queue for another turn. -/
structure KeepsOwnEvents (env : RunEnv) (turnId : String) (w : RunWorld) (label : RunLabel) :
    Prop where
  queue : KeepsQueue env w label
  images : KeepsImages env turnId w label

/-- A run without a recorded failure that was neither published nor abandoned, and for which
no other turn was acknowledged. -/
structure Undisturbed (turnId : String) (w : RunWorld) : Prop where
  noFailure : ∀ route, w.slot.route = some route → route.pendingFailure = none
  unpublished : w.shared.terminal.value = none
  kept : w.shared.abandoned = false
  turn : ∀ other, w.accepted = some other → other = turnId

/-- A router call that answers that its notification is not this run's, or not any more. -/
def Irrelevant (env : RunEnv) (w : RunWorld) : RunLabel → Prop
  | .routeEvent observed sourceMethod event =>
      let outcome := (w.slot.routeEvent observed sourceMethod event true env.eventCapacity).1
      (∃ expected other, outcome = .turnMismatch expected other)
        ∨ outcome = .afterTerminal ∨ outcome = .ignoredBeforeTurn
  | .routeTerminal params =>
      ∃ completion, turnCompletion env.redactLine params = .ok completion ∧
        let outcome := (w.slot.routeTerminal completion params true env.eventCapacity).1
        (∃ expected other, outcome = .turnMismatch expected other)
          ∨ ∃ turn, outcome = .duplicate turn
  | _ => False

/-- An event of the turn may supersede an earlier one of the same image. -/
def Supersedes (turnId : String) (earlier later : Option String × Event) : Prop :=
  SameKey imageKey earlier later ∧ OwnTurn turnId later

/-- The events of the turn are all there, in order, up to images the turn itself superseded. -/
def HandedOver (turnId : String) (w : RunWorld) : Prop :=
  ∃ kept, Remains (Supersedes turnId) (OwnTurn turnId) w.routed kept
    ∧ kept.map Prod.snd = w.handedAndWaiting turnId

section Queues

variable {turnId : String}

@[simp] theorem eventsOf_nil : eventsOf turnId [] = [] := rfl

@[simp] theorem eventsOf_append (q r : List DeferredRunNotification) :
    eventsOf turnId (q ++ r) = eventsOf turnId q ++ eventsOf turnId r :=
  List.filterMap_append

@[simp] theorem eventsOf_terminal (params : Json) (q : List DeferredRunNotification) :
    eventsOf turnId (.terminal params :: q) = eventsOf turnId q := rfl

theorem eventsOf_own (sourceMethod : String) (event : Event) (q : List DeferredRunNotification) :
    eventsOf turnId (.event turnId sourceMethod event :: q)
      = (some turnId, event) :: eventsOf turnId q :=
  List.filterMap_cons_some (if_pos rfl)

theorem eventsOf_foreign {observed : String} (h : observed ≠ turnId) (sourceMethod : String)
    (event : Event) (q : List DeferredRunNotification) :
    eventsOf turnId (.event observed sourceMethod event :: q) = eventsOf turnId q :=
  List.filterMap_cons_none (if_neg h)

/-- Superseding an image in the queue is superseding it among the events of the turn. -/
theorem eventsOf_retainOtherImages (observed : Option String) (event : Event)
    (q : List DeferredRunNotification) :
    eventsOf turnId (RunRoute.retainOtherImages event q)
      = retainOthers imageKey (observed, event) (eventsOf turnId q) := by
  unfold RunRoute.retainOtherImages retainOthers
  have hkey : imageKey (observed, event) = event.imageId := rfl
  rw [hkey]
  cases event.imageId with
  | none => rfl
  | some imageId =>
      dsimp only
      induction q with
      | nil => rfl
      | cons next q ih =>
          cases next with
          | terminal params =>
              rw [List.filter_cons_of_pos (by simp [DeferredRunNotification.imageId]),
                eventsOf_terminal, eventsOf_terminal]
              exact ih
          | event turn sourceMethod e =>
              by_cases hturn : turn = turnId
              · subst hturn
                rw [eventsOf_own]
                by_cases hsame : e.imageId = some imageId
                · rw [List.filter_cons_of_neg
                      (by simp [DeferredRunNotification.imageId, hsame]),
                    List.filter_cons_of_neg (by simp [imageKey, hsame])]
                  exact ih
                · rw [List.filter_cons_of_pos
                      (by simp [DeferredRunNotification.imageId, hsame]),
                    List.filter_cons_of_pos (by simp [imageKey, hsame]), eventsOf_own, ih]
              · rw [eventsOf_foreign hturn]
                by_cases hsame : e.imageId = some imageId
                · rw [List.filter_cons_of_neg
                    (by simp [DeferredRunNotification.imageId, hsame])]
                  exact ih
                · rw [List.filter_cons_of_pos
                    (by simp [DeferredRunNotification.imageId, hsame]), eventsOf_foreign hturn]
                  exact ih

end Queues

/-- The invariant, for the parts of the run that it is about. -/
def Sequenced (turnId : String) (routed : List (Option String × Event))
    (sent : List Event) (batch queue : List DeferredRunNotification) : Prop :=
  ∃ pre, Remains (Supersedes turnId) (OwnTurn turnId) routed (pre ++ eventsOf turnId queue)
    ∧ pre.map Prod.snd = sent ++ (eventsOf turnId batch).map Prod.snd

section Sequenced

variable {turnId : String} {routed : List (Option String × Event)} {sent : List Event}
  {batch queue : List DeferredRunNotification}

/-- The router defers an event of the turn. -/
theorem Sequenced.defer (h : Sequenced turnId routed sent batch queue) (sourceMethod : String)
    (event : Event) :
    Sequenced turnId (routed ++ [(some turnId, event)]) sent batch
      (RunRoute.retainOtherImages event queue ++ [.event turnId sourceMethod event]) := by
  obtain ⟨pre, hremains, hpre⟩ := h
  refine ⟨pre, ?_, hpre⟩
  rw [eventsOf_append, eventsOf_retainOtherImages (some turnId), eventsOf_own]
  exact hremains.push (Or.inl rfl) (fun a hsame => ⟨hsame, Or.inl rfl⟩) pre _ rfl

/-- An event of another turn is not the turn's. -/
theorem not_ownTurn {observed : String} (hne : observed ≠ turnId) (event : Event) :
    ¬ OwnTurn turnId (some observed, event) := by
  rintro (heq | heq)
  · exact hne (Option.some.inj heq)
  · cases heq

/-- The router defers an event of another turn that finds no waiting image of the turn. -/
theorem Sequenced.deferForeign (h : Sequenced turnId routed sent batch queue)
    {observed : String} (hne : observed ≠ turnId) (sourceMethod : String) {event : Event}
    (hspared : ∀ own ∈ eventsOf turnId queue, ¬ SameKey imageKey own (some observed, event)) :
    Sequenced turnId (routed ++ [(some observed, event)]) sent batch
      (RunRoute.retainOtherImages event queue ++ [.event observed sourceMethod event]) := by
  obtain ⟨pre, hremains, hpre⟩ := h
  refine ⟨pre, ?_, hpre⟩
  rw [eventsOf_append, eventsOf_retainOtherImages (some observed), retainOthers_of_none hspared,
    eventsOf_foreign hne, eventsOf_nil, List.append_nil]
  exact hremains.append_foreign (not_ownTurn hne event)

/-- The router meets an event of another turn after the handover. -/
theorem Sequenced.ignore (h : Sequenced turnId routed sent batch queue) {observed : String}
    (hne : observed ≠ turnId) (event : Event) :
    Sequenced turnId (routed ++ [(some observed, event)]) sent batch queue := by
  obtain ⟨pre, hremains, hpre⟩ := h
  exact ⟨pre, hremains.append_foreign (not_ownTurn hne event), hpre⟩

/-- The router delivers an event at once, which it does only when nothing waits. -/
theorem Sequenced.deliver (h : Sequenced turnId routed sent [] []) {observed : Option String}
    {event : Event} (hown : OwnTurn turnId (observed, event)) :
    Sequenced turnId (routed ++ [(observed, event)]) (sent ++ [event]) [] [] := by
  obtain ⟨pre, hremains, hpre⟩ := h
  rw [eventsOf_nil, List.append_nil] at hremains
  refine ⟨pre ++ [(observed, event)], ?_, ?_⟩
  · rw [eventsOf_nil, List.append_nil]
    exact hremains.append_own hown
  · rw [eventsOf_nil, List.map_nil, List.append_nil] at hpre ⊢
    rw [List.map_append, hpre]; rfl

/-- The queue becomes the batch. -/
theorem Sequenced.take (h : Sequenced turnId routed sent [] queue) :
    Sequenced turnId routed sent queue [] := by
  obtain ⟨pre, hremains, hpre⟩ := h
  refine ⟨pre ++ eventsOf turnId queue, ?_, ?_⟩
  · rw [eventsOf_nil, List.append_nil]; exact hremains
  · rw [eventsOf_nil, List.map_nil, List.append_nil] at hpre
    rw [List.map_append, hpre]

/-- The loop delivers the next event of its batch. -/
theorem Sequenced.hand {sourceMethod : String} {event : Event}
    (h : Sequenced turnId routed sent (.event turnId sourceMethod event :: batch) queue) :
    Sequenced turnId routed (sent ++ [event]) batch queue := by
  obtain ⟨pre, hremains, hpre⟩ := h
  refine ⟨pre, hremains, ?_⟩
  rw [hpre, eventsOf_own, List.map_cons, List.append_assoc]
  rfl

/-- The loop drops what is not an event of the turn. -/
theorem Sequenced.skip {next : DeferredRunNotification}
    (h : Sequenced turnId routed sent (next :: batch) queue)
    (hnext : eventsOf turnId (next :: batch) = eventsOf turnId batch) :
    Sequenced turnId routed sent batch queue := by
  obtain ⟨pre, hremains, hpre⟩ := h
  rw [hnext] at hpre
  exact ⟨pre, hremains, hpre⟩

/-- Only the events of the turn in the queue matter. -/
theorem Sequenced.congr {queue' : List DeferredRunNotification}
    (h : Sequenced turnId routed sent batch queue)
    (heq : eventsOf turnId queue' = eventsOf turnId queue) :
    Sequenced turnId routed sent batch queue' := by
  obtain ⟨pre, hremains, hpre⟩ := h
  rw [← heq] at hremains
  exact ⟨pre, hremains, hpre⟩

end Sequenced

/-! ## Every run -/

/-- The events of an undisturbed run are in sequence. -/
structure SequencedInv (turnId : String) (w : RunWorld) : Prop where
  /-- The stages. -/
  shape : ShapeInv w
  /-- The events. -/
  sequenced : Undisturbed turnId w →
    Sequenced turnId w.routed w.shared.events.sent w.replay.batch w.queue

theorem sequencedInv_init (env : RunEnv) (turnId : String) :
    SequencedInv turnId (RunWorld.init env) where
  shape := shapeInv_init env
  sequenced := fun _ => ⟨[], .nil, rfl⟩

section Steps

variable {env : RunEnv} {turnId : String} {w w' : RunWorld}

/-- An undisturbed run has a live route. -/
theorem Undisturbed.route (h : Undisturbed turnId w) (hw : ShapeInv w) :
    ∃ route, w.slot.route = some route ∧ route.phase.isTerminal = false := by
  have hvalue : (w.slot.cells 0).terminal.value = none := h.unpublished
  have hkept : (w.slot.cells 0).abandoned = false := h.kept
  cases hroute : w.slot.route with
  | none =>
      rcases hw.gone hroute with hsome | ⟨_, habandoned⟩
      · rw [hvalue] at hsome; cases hsome
      · rw [hkept] at habandoned; cases habandoned
  | some route =>
      refine ⟨route, rfl, ?_⟩
      by_contra hlive
      have hsome := hw.ended route hroute (by simpa using hlive)
      rw [hvalue] at hsome; cases hsome

/-- Before a step that keeps the watch, the abandonment and the accepted turn, a run that
had no failure was undisturbed if it is so after. -/
theorem Undisturbed.before (h : Undisturbed turnId w')
    (hp : ∀ route, w.slot.route = some route → route.pendingFailure = none)
    (hterm : w'.shared.terminal = w.shared.terminal)
    (hab : w'.shared.abandoned = w.shared.abandoned)
    (hacc : ∀ other, w.accepted = some other → w'.accepted = some other) :
    Undisturbed turnId w where
  noFailure := hp
  unpublished := by rw [← hterm]; exact h.unpublished
  kept := by rw [← hab]; exact h.kept
  turn := fun other hother => h.turn other (hacc other hother)

theorem queue_of_route {route : RunRoute} (h : w.slot.route = some route) :
    w.queue = route.phase.deferred.getD [] := by
  unfold RunWorld.queue
  rw [h]; rfl

/-- A step that leaves the thread's entry alone. -/
theorem Undisturbed.of_same (h : Undisturbed turnId w') (hslot : w'.slot = w.slot)
    (hacc : w'.accepted = w.accepted) : Undisturbed turnId w where
  noFailure := by rw [← hslot]; exact h.noFailure
  unpublished := by unfold RunWorld.shared; rw [← hslot]; exact h.unpublished
  kept := by unfold RunWorld.shared; rw [← hslot]; exact h.kept
  turn := by rw [← hacc]; exact h.turn

/-- Routing an event on a live route: what the step leaves, and what the run was before. -/
theorem undisturbed_routeEvent (h : Undisturbed turnId w') (hw' : ShapeInv w')
    (hw : ShapeInv w) {observed : Option String} {sourceMethod : String} {event : Event}
    {defer : Bool} (hslot : w'.slot
      = (w.slot.routeEvent observed sourceMethod event defer env.eventCapacity).2)
    (hacc : w'.accepted = w.accepted) :
    Undisturbed turnId w ∧ ∃ route route',
      w.slot.route = some route ∧ w'.slot.route = some route'
      ∧ route.phase.isTerminal = false ∧ route'.pendingFailure = none
      ∧ RunRoute.RouteEventSpec route w.shared observed sourceMethod event
          (if defer then route.phase.deferred else none) env.eventCapacity
          (w.slot.routeEvent observed sourceMethod event defer env.eventCapacity).1 route'
          w'.shared := by
  obtain ⟨route', hroute', hlive'⟩ := h.route hw'
  cases hroute : w.slot.route with
  | none =>
      rw [hslot, RunSlot.routeEvent_of_none hroute, hroute] at hroute'
      cases hroute'
  | some route =>
      have hzero := hw.owner route hroute
      obtain ⟨outcome, stored, shared', heq, hspec⟩ :=
        RunSlot.routeEvent_of_route hroute observed sourceMethod event defer env.eventCapacity
      rw [heq] at hslot
      have hstored : stored = route' := by
        rw [hslot] at hroute'
        exact Option.some.inj hroute'
      subst hstored
      have hrun : stored.run = 0 := hw'.owner stored hroute'
      have hshared : w'.shared = shared' := by
        unfold RunWorld.shared
        rw [hslot, ← hrun]
        exact RunSlot.store_cells_self ..
      have hp' := h.noFailure stored hroute'
      rw [hzero] at hspec
      have hpast : route.phase.isTerminal = false ∧ route.pendingFailure = none
          ∧ shared'.terminal = w.shared.terminal ∧ shared'.abandoned = w.shared.abandoned := by
        rcases hspec.kept (RunPhase.deferred_of_ite defer) with
          ⟨hsame, hcells⟩ | ⟨hlive, hp, _, _, hterm, _⟩
        · rw [hsame] at hlive' hp'
          exact ⟨hlive', hp', congrArg RunShared.terminal hcells,
            congrArg RunShared.abandoned hcells⟩
        · refine ⟨hlive, hp, hterm, ?_⟩
          cases hspec <;> rfl
      obtain ⟨hlive, hp, hterm, hab⟩ := hpast
      refine ⟨h.before ?_ ?_ ?_ ?_, route, stored, rfl, hroute', hlive, hp', ?_⟩
      · intro r hr
        rw [hroute] at hr; cases hr
        exact hp
      · rw [hshared]; exact hterm
      · rw [hshared]; exact hab
      · intro other hother
        rw [hacc]; exact hother
      · rw [heq, hshared]
        exact hspec

/-- The turn of an undisturbed run, once its route knows one. -/
theorem Undisturbed.turn_of_route (h : Undisturbed turnId w) (hw : ShapeInv w)
    {route : RunRoute} (hroute : w.slot.route = some route)
    (hlive : route.phase.isTerminal = false) {expected : String}
    (hexpected : route.phase.turnId = some expected) : expected = turnId := by
  have hstage := (hw.stage_of hroute).turn_of_live hlive
  exact h.turn expected (hstage.symm.trans hexpected)

/-- A live route that defers nothing is past the handover: the loop has stopped. -/
theorem ShapeInv.batch_of_active (hw : ShapeInv w) {route : RunRoute}
    (hroute : w.slot.route = some route) (hlive : route.phase.isTerminal = false)
    (hnone : route.phase.deferred = none) :
    (∃ turn, route.phase = .active turn) ∧ w.replay.batch = [] := by
  have hstage := hw.stage_of hroute
  cases hphase : route.phase with
  | starting _ => rw [hphase] at hnone; cases hnone
  | replaying _ _ => rw [hphase] at hnone; cases hnone
  | terminalBeforeStart _ => rw [hphase] at hlive; cases hlive
  | active turn =>
      rw [hphase] at hstage
      obtain ⟨_, hstopped⟩ := hstage.of_active
      exact ⟨⟨turn, rfl⟩, by rw [hstopped]; rfl⟩

/-- The router routes an event. -/
theorem sequenced_routeEvent (h : SequencedInv turnId w) (observed : Option String)
    (sourceMethod : String) (event : Event)
    (hg : KeepsImages env turnId w (.routeEvent observed sourceMethod event))
    (hu : Undisturbed turnId (w.routeEvent env observed sourceMethod event)) :
    Sequenced turnId (w.routeEvent env observed sourceMethod event).routed
      (w.routeEvent env observed sourceMethod event).shared.events.sent w.replay.batch
      (w.routeEvent env observed sourceMethod event).queue := by
  have hw' : ShapeInv (w.routeEvent env observed sourceMethod event) :=
    shapeInv_step h.shape (.routeEvent observed sourceMethod event)
  have hslot : (w.routeEvent env observed sourceMethod event).slot
      = (w.slot.routeEvent observed sourceMethod event true env.eventCapacity).2 := rfl
  obtain ⟨hbefore, route, route', hroute, hroute', hlive, hp', hspec⟩ :=
    undisturbed_routeEvent hu hw' h.shape hslot rfl
  have hseq := h.sequenced hbefore
  rw [queue_of_route hroute']
  rw [queue_of_route hroute] at hseq
  have hrouted : (w.routeEvent env observed sourceMethod event).routed = w.routed
      ++ if RunWorld.Counts observed (w.slot.routeEvent observed sourceMethod event true
          env.eventCapacity).1 then [(observed, event)] else [] := rfl
  rw [hrouted]
  generalize (w.slot.routeEvent observed sourceMethod event true env.eventCapacity).1
    = outcome at hspec
  generalize (w.routeEvent env observed sourceMethod event).shared = shared' at hspec
  rw [if_pos rfl] at hspec
  cases hspec with
  | afterFailure hsome => rw [hp'] at hsome; cases hsome
  | refusedDeferral _ _ _ _ => cases hp'
  | refusedDelivery _ _ _ _ _ _ _ _ => cases hp'
  | afterTerminal _ hend => rw [hlive] at hend; cases hend
  | afterAbandon _ hab =>
      have hkept := hbefore.kept
      rw [hkept] at hab; cases hab
  | beforeTurn _ hobs =>
      subst hobs
      rw [show RunWorld.Counts none .ignoredBeforeTurn = false from rfl, if_neg (by simp),
        List.append_nil]
      exact hseq
  | @deferred waiting turn bytes byId hp hq hobs haccepted =>
      subst hobs
      rw [hq] at hseq
      have hqueue := RunPhase.setDeferred_deferred hq
        (RunRoute.retainOtherImages event waiting ++ [.event turn sourceMethod event])
      dsimp only at hqueue ⊢
      rw [hqueue]
      by_cases hown : turn = turnId
      · subst hown
        exact hseq.defer sourceMethod event
      · exact hseq.deferForeign hown sourceMethod
          (hg route waiting hown hroute hp hq haccepted)
  | @mismatch expected turn _ hexpected hobs hne =>
      subst hobs
      have hown := hbefore.turn_of_route h.shape hroute hlive hexpected
      refine hseq.ignore ?_ event
      rw [← hown]; exact Ne.symm hne
  | unowned hq _ hturn _ _ _ =>
      -- a live route without a turn is starting, and then it defers
      obtain ⟨⟨turn, hactive⟩, _⟩ := h.shape.batch_of_active hroute hlive hq
      rw [hactive] at hturn; cases hturn
  | delivered _ hq _ _ hsame hbase _ =>
      obtain ⟨⟨turn, hactive⟩, hbatch⟩ := h.shape.batch_of_active hroute hlive hq
      have hown := hbefore.turn_of_route h.shape hroute hlive (by rw [hactive]; rfl)
      rw [hbase.phase, hq]
      rw [hq, hbatch] at hseq
      rw [hbatch]
      have hcounts : RunWorld.Counts observed .delivered = true := by
        unfold RunWorld.Counts
        rw [Bool.or_eq_true]
        exact Or.inr rfl
      rw [hcounts, if_pos rfl]
      refine hseq.deliver ?_
      cases observed with
      | none => exact Or.inr rfl
      | some o =>
          have heq : turn = o := hsame o turn rfl (by rw [hactive]; rfl)
          exact Or.inl (by rw [← heq, hown])

/-- The router routes a terminal. -/
theorem sequenced_routeTerminal (h : SequencedInv turnId w) (params : Json)
    (hg : KeepsQueue env w (.routeTerminal params))
    (hu : Undisturbed turnId (w.routeTerminal env params)) :
    Sequenced turnId w.routed (w.routeTerminal env params).shared.events.sent w.replay.batch
      (w.routeTerminal env params).queue := by
  have hw' : ShapeInv (w.routeTerminal env params) :=
    shapeInv_step h.shape (.routeTerminal params)
  obtain ⟨route', hroute', hlive'⟩ := hu.route hw'
  cases hparse : turnCompletion env.redactLine params with
  | error error =>
      have hsame : w.routeTerminal env params = w := by
        unfold RunWorld.routeTerminal; rw [hparse]
      rw [hsame] at hu ⊢
      exact h.sequenced hu
  | ok completion =>
      have hslot : (w.routeTerminal env params).slot
          = (w.slot.routeTerminal completion params true env.eventCapacity).2 := by
        unfold RunWorld.routeTerminal; rw [hparse]
      have hacc : (w.routeTerminal env params).accepted = w.accepted := by
        unfold RunWorld.routeTerminal; rw [hparse]
      generalize w.routeTerminal env params = w' at hw' hu hroute' hslot hacc
      cases hroute : w.slot.route with
      | none =>
          rw [hslot, RunSlot.routeTerminal_of_none hroute, hroute] at hroute'
          cases hroute'
      | some route =>
          have hzero := h.shape.owner route hroute
          have hspec := RunSlot.routeTerminal_of_route hroute completion params true
            env.eventCapacity
          cases hrouted : w.slot.routeTerminal completion params true env.eventCapacity with
          | mk outcome slot' =>
          rw [hrouted] at hspec hslot
          -- the steps that leave the entry alone, and those that write the queue back
          have hsame : slot' = w.slot → Sequenced turnId w.routed w'.shared.events.sent
              w.replay.batch w'.queue := by
            intro heq
            rw [heq] at hslot
            have hseq := h.sequenced (hu.of_same hslot hacc)
            unfold RunWorld.shared RunWorld.queue at hseq ⊢
            rw [hslot]; exact hseq
          have hstored : ∀ queue, slot' = w.slot.store
              { route with phase := route.phase.setDeferred queue } (w.slot.cells route.run) →
              Undisturbed turnId w ∧ w'.shared = w.shared
                ∧ w'.queue = (route.phase.setDeferred queue).deferred.getD [] := by
            intro queue heq
            rw [heq] at hslot
            have hshared : w'.shared = w.shared := by
              unfold RunWorld.shared
              rw [hslot, ← hzero]
              exact RunSlot.store_cells_self ..
            have hroutes : w'.slot.route
                = some { route with phase := route.phase.setDeferred queue } := by
              rw [hslot]; rfl
            refine ⟨hu.before ?_ (by rw [hshared]) (by rw [hshared])
              (by intro o ho; rw [hacc]; exact ho), hshared, queue_of_route hroutes⟩
            intro r hr
            rw [hroute] at hr; cases hr
            have hp := hu.noFailure _ hroutes
            exact hp
          cases hspec with
          | duplicate _ => exact hsame rfl
          | mismatch _ _ _ => exact hsame rfl
          | completed _ _ _ =>
              -- a published run is not undisturbed
              rw [hslot] at hroute'
              rw [RunSlot.publishTerminal_ended hroute'] at hlive'
              cases hlive'
          | @deferred waiting hq _ =>
              have hwaiting := RunPhase.deferred_of_ite _ waiting hq
              obtain ⟨hbefore, hshared, hqueue⟩ := hstored _ rfl
              have hseq := h.sequenced hbefore
              rw [queue_of_route hroute, hwaiting] at hseq
              rw [hshared, hqueue, RunPhase.setDeferred_deferred hwaiting]
              refine hseq.congr ?_
              rw [Option.getD_some, Option.getD_some, eventsOf_append, eventsOf_terminal,
                eventsOf_nil, List.append_nil]
          | @mismatchFull waiting expected hq hfull hexpected hne =>
              have hwaiting := RunPhase.deferred_of_ite _ waiting hq
              obtain ⟨hbefore, hshared, hqueue⟩ := hstored _ rfl
              have hseq := h.sequenced hbefore
              have hlive := RunPhase.isTerminal_of_deferred hwaiting
              have hown := hbefore.turn_of_route h.shape hroute hlive hexpected
              have hnone := hg completion route waiting expected hparse hroute
                (hbefore.noFailure route hroute) hwaiting hexpected hne hfull
              rw [queue_of_route hroute, hwaiting] at hseq
              rw [hshared, hqueue, RunPhase.setDeferred_deferred hwaiting]
              refine hseq.congr ?_
              rw [Option.getD_some, Option.getD_some, eventsOf_nil, ← hown, hnone]

/-- The turn is acknowledged. -/
theorem sequenced_acknowledgeStart (h : SequencedInv turnId w) (turn : String)
    (hu : Undisturbed turnId (w.acknowledgeStart turn)) :
    Sequenced turnId (w.acknowledgeStart turn).routed
      (w.acknowledgeStart turn).shared.events.sent (w.acknowledgeStart turn).replay.batch
      (w.acknowledgeStart turn).queue := by
  have hspec := acknowledgeStart_spec w turn
  have hw' : ShapeInv (w.acknowledgeStart turn) := shapeInv_acknowledgeStart h.shape turn
  generalize w.acknowledgeStart turn = w' at hspec hu hw'
  cases hspec with
  | refused => exact h.sequenced hu
  | completed _ _ _ =>
      obtain ⟨route', hroute', _⟩ := hu.route hw'
      cases hroute'
  | @replay route queue hroute hphase =>
      have hstage := h.shape.stage_of hroute
      rw [hphase] at hstage
      obtain ⟨hnone, hidle⟩ := hstage.of_starting
      have hcells : (w.slot.store { route.clearDeferredImageBytes with
          phase := .replaying turn [] } (w.slot.cells route.run)).cells = w.slot.cells :=
        RunSlot.store_cells_same rfl
      have hshared := congrFun hcells 0
      have hbefore : Undisturbed turnId w := by
        refine hu.before ?_ (congrArg RunShared.terminal hshared)
          (congrArg RunShared.abandoned hshared) (by intro o ho; rw [hnone] at ho; cases ho)
        intro r hr
        rw [hroute] at hr; cases hr
        have hp := hu.noFailure _ rfl
        exact hp
      have hseq := (h.sequenced hbefore)
      rw [queue_of_route hroute, hphase, hidle] at hseq
      have htaken := hseq.take
      unfold RunWorld.shared at htaken ⊢
      dsimp only
      rw [hshared]
      exact htaken

/-- The loop hands on an event of its batch. -/
theorem sequenced_replayEvent (h : SequencedInv turnId w) (hu : Undisturbed turnId w')
    (hw' : ShapeInv w') {turn observed sourceMethod : String} {event : Event}
    {batch : List DeferredRunNotification}
    (hreplay : w.replay = .running turn (.event observed sourceMethod event :: batch))
    (hslot : w'.slot
      = (w.slot.routeEvent (some observed) sourceMethod event false env.eventCapacity).2)
    (hacc : w'.accepted = w.accepted) :
    Sequenced turnId w.routed w'.shared.events.sent batch w'.queue := by
  obtain ⟨hbefore, route, route', hroute, hroute', hlive, hp', hspec⟩ :=
    undisturbed_routeEvent hu hw' h.shape hslot hacc
  have hseq := h.sequenced hbefore
  have hstage := h.shape.stage_of hroute
  rw [hreplay] at hseq hstage
  rw [queue_of_route hroute']
  rw [queue_of_route hroute] at hseq
  obtain ⟨hsome, hphase⟩ := hstage.of_running
  have hown := hbefore.turn turn hsome
  have hturn : route.phase.turnId = some turn := by
    obtain hphase | ⟨waiting, hphase⟩ := hphase
    · cases hphase
    · rw [Option.some.inj hphase]; rfl
  rw [if_neg (by simp)] at hspec
  generalize (w.slot.routeEvent (some observed) sourceMethod event false
    env.eventCapacity).1 = outcome at hspec
  generalize w'.shared = shared' at hspec
  cases hspec with
  | afterFailure hsome => rw [hp'] at hsome; cases hsome
  | beforeTurn hq _ => cases hq
  | refusedDeferral _ hq _ _ => cases hq
  | deferred _ hq _ _ => cases hq
  | refusedDelivery _ _ _ _ _ _ _ _ => cases hp'
  | afterTerminal _ hend => rw [hlive] at hend; cases hend
  | afterAbandon _ hab =>
      have hkept := hbefore.kept
      rw [hkept] at hab; cases hab
  | unowned _ hobs _ _ _ _ => cases hobs
  | @mismatch expected o _ hexpected hobs hne =>
      cases hobs
      rw [hturn] at hexpected
      cases hexpected
      refine hseq.skip (eventsOf_foreign ?_ ..)
      rw [← hown]; exact Ne.symm hne
  | delivered _ _ _ _ hsame hbase _ =>
      obtain rfl : turn = observed := hsame observed turn rfl hturn
      rw [hbase.phase]
      rw [hown] at hseq
      exact hseq.hand

/-- The loop hands on a terminal that does not end the run. -/
theorem routeTerminal_replay_same (hu : Undisturbed turnId w') (hw' : ShapeInv w')
    {completion : TurnCompletion} {params : Json}
    (hslot : w'.slot = (w.slot.routeTerminal completion params false env.eventCapacity).2) :
    w'.slot = w.slot := by
  obtain ⟨route', hroute', hlive'⟩ := hu.route hw'
  cases hroute : w.slot.route with
  | none => rw [hslot, RunSlot.routeTerminal_of_none hroute]
  | some route =>
      have hspec := RunSlot.routeTerminal_of_route hroute completion params false
        env.eventCapacity
      cases hrouted : w.slot.routeTerminal completion params false env.eventCapacity with
      | mk outcome slot' =>
      rw [hrouted] at hspec hslot
      cases hspec with
      | duplicate _ => exact hslot
      | mismatch _ _ _ => exact hslot
      | deferred hq _ => cases hq
      | mismatchFull hq _ _ _ => cases hq
      | completed _ _ _ =>
          rw [hslot] at hroute'
          rw [RunSlot.publishTerminal_ended hroute'] at hlive'
          cases hlive'

/-- The loop hands on the next notification, or takes over what was deferred meanwhile. -/
theorem sequenced_replayStep (h : SequencedInv turnId w)
    (hu : Undisturbed turnId (w.replayStep env)) :
    Sequenced turnId (w.replayStep env).routed (w.replayStep env).shared.events.sent
      (w.replayStep env).replay.batch (w.replayStep env).queue := by
  have hspec := replayStep_spec env w
  have hw' : ShapeInv (w.replayStep env) := shapeInv_replayStep h.shape
  generalize w.replayStep env = w' at hspec hu hw'
  -- writing the route back with an empty queue touches neither the cells nor the failure
  have hstored : ∀ {route route' : RunRoute}, w.slot.route = some route →
      w'.slot = w.slot.store route' (w.slot.cells route.run) → route'.run = route.run →
      route'.pendingFailure = route.pendingFailure → w'.accepted = w.accepted →
      Undisturbed turnId w ∧ w'.shared = w.shared := by
    intro route route' hroute hslot hrun hp hacc
    have hshared : w'.shared = w.shared := by
      unfold RunWorld.shared
      rw [hslot, RunSlot.store_cells_same hrun]
    refine ⟨hu.before ?_ (by rw [hshared]) (by rw [hshared])
      (by intro o ho; rw [hacc]; exact ho), hshared⟩
    intro r hr
    rw [hroute] at hr; cases hr
    rw [← hp]
    exact hu.noFailure route' (by rw [hslot]; rfl)
  cases hspec with
  | resting _ => exact h.sequenced hu
  | @unreadable turn params batch error hreplay _ =>
      have hseq := h.sequenced (hu.of_same rfl rfl)
      rw [hreplay] at hseq
      exact hseq.skip (eventsOf_terminal ..)
  | event hreplay => exact sequenced_replayEvent h hu hw' hreplay rfl rfl
  | @terminal turn params batch completion hreplay _ =>
      have hslot := routeTerminal_replay_same hu hw' rfl
      have hseq := h.sequenced (hu.of_same hslot rfl)
      rw [hreplay] at hseq
      have hskipped := hseq.skip (eventsOf_terminal ..)
      unfold RunWorld.shared RunWorld.queue at hskipped ⊢
      rw [hslot]
      exact hskipped
  | @next turn route queue hreplay hroute hphase _ =>
      obtain ⟨hbefore, hshared⟩ := hstored hroute rfl rfl rfl rfl
      have hseq := h.sequenced hbefore
      rw [hreplay, queue_of_route hroute, hphase] at hseq
      rw [hshared]
      exact hseq.take
  | @active turn route hreplay hroute hphase =>
      obtain ⟨hbefore, hshared⟩ := hstored hroute rfl rfl rfl rfl
      have hseq := h.sequenced hbefore
      rw [hreplay, queue_of_route hroute, hphase] at hseq
      rw [hshared]
      exact hseq
  | @stopped turn hreplay _ =>
      have hseq := h.sequenced (hu.of_same rfl rfl)
      rw [hreplay] at hseq
      exact hseq

/-- Failing, cancelling or ending a run disturbs it, if it does anything at all. -/
theorem undisturbed_same {slot' : RunSlot} (hslot : w'.slot = slot')
    (hu : Undisturbed turnId w') (hw' : ShapeInv w')
    (hcase : slot' = w.slot ∨ slot'.route = none
      ∨ (∀ route', slot'.route = some route' → route'.phase.isTerminal = true)
      ∨ (∃ route', slot'.route = some route' ∧ route'.pendingFailure ≠ none)
      ∨ (slot'.cells 0).abandoned = true) : w'.slot = w.slot := by
  subst hslot
  obtain ⟨route, hroute, hlive⟩ := hu.route hw'
  rcases hcase with hsame | hnone | hend | ⟨route', hroute', hp⟩ | hab
  · exact hsame
  · rw [hroute] at hnone; cases hnone
  · rw [hend route hroute] at hlive; cases hlive
  · exact absurd (hu.noFailure route' hroute') hp
  · have hkept : (w'.slot.cells 0).abandoned = false := hu.kept
    rw [hab] at hkept; cases hkept

theorem failBeforeStart_disturbs (slot : RunSlot) (error : Error) :
    (slot.failBeforeStart error).2 = slot
      ∨ ∀ route', (slot.failBeforeStart error).2.route = some route' →
          route'.phase.isTerminal = true := by
  unfold RunSlot.failBeforeStart
  cases hroute : slot.route with
  | none => exact Or.inl rfl
  | some route =>
      dsimp only
      split
      · refine Or.inr ?_
        intro route' hr
        cases hr; rfl
      · exact Or.inl rfl
      · exact Or.inl rfl
      · exact Or.inl rfl

theorem cancelRegistered_disturbs (hw : ShapeInv w) :
    w.slot.cancelRegistered.2 = w.slot ∨ w.slot.cancelRegistered.2.route = none
      ∨ (w.slot.cancelRegistered.2.cells 0).abandoned = true := by
  unfold RunSlot.cancelRegistered
  cases hroute : w.slot.route with
  | none => exact Or.inl rfl
  | some route =>
      have hzero := hw.owner route hroute
      dsimp only
      split
      · exact Or.inr (Or.inl rfl)
      · split
        · refine Or.inr (Or.inr ?_)
          exact congrArg RunShared.abandoned (RunSlot.store_cells_of_eq w.slot hzero _)
        · exact Or.inr (Or.inl rfl)

theorem failActive_disturbs (slot : RunSlot) (turn : String) (control : Nat) (error : Error) :
    (slot.failActive turn control error).2 = slot
      ∨ ∃ route', (slot.failActive turn control error).2.route = some route'
          ∧ route'.pendingFailure ≠ none := by
  unfold RunSlot.failActive
  cases hroute : slot.route with
  | none => exact Or.inl rfl
  | some route =>
      dsimp only
      split
      · exact Or.inl rfl
      · exact Or.inr ⟨_, rfl, Option.some_ne_none error⟩

/-- **Every step that meets the condition keeps the events in sequence.** -/
theorem sequencedInv_step (h : SequencedInv turnId w) (label : RunLabel)
    (hg : KeepsOwnEvents env turnId w label) : SequencedInv turnId (w.act env label) where
  shape := shapeInv_step h.shape label
  sequenced := by
    intro hu
    have hw' : ShapeInv (w.act env label) := shapeInv_step h.shape label
    -- a step that only touches the entry, and leaves an undisturbed run, left it alone
    have hsame : (w.act env label).slot = w.slot → (w.act env label).accepted = w.accepted →
        (w.act env label).routed = w.routed → (w.act env label).replay = w.replay →
        Sequenced turnId (w.act env label).routed (w.act env label).shared.events.sent
          (w.act env label).replay.batch (w.act env label).queue := by
      intro hslot hacc hrouted hreplay
      have hseq := h.sequenced (hu.of_same hslot hacc)
      unfold RunWorld.shared RunWorld.queue at hseq ⊢
      rw [hslot, hrouted, hreplay]
      exact hseq
    cases label with
    | routeEvent observed sourceMethod event =>
        exact sequenced_routeEvent h observed sourceMethod event hg.images hu
    | routeTerminal params =>
        have hrest : (w.routeTerminal env params).routed = w.routed
            ∧ (w.routeTerminal env params).replay = w.replay := by
          unfold RunWorld.routeTerminal
          split <;> exact ⟨rfl, rfl⟩
        have hseq := sequenced_routeTerminal h params hg.queue hu
        rw [← hrest.1, ← hrest.2] at hseq
        exact hseq
    | acknowledgeStart turn => exact sequenced_acknowledgeStart h turn hu
    | replay => exact sequenced_replayStep h hu
    | failBeforeStart error =>
        refine hsame (undisturbed_same rfl hu hw' ?_) rfl rfl rfl
        rcases failBeforeStart_disturbs w.slot error with heq | hend
        · exact Or.inl heq
        · exact Or.inr (Or.inr (Or.inl hend))
    | cancelRegistered =>
        refine hsame (undisturbed_same rfl hu hw' ?_) rfl rfl rfl
        rcases cancelRegistered_disturbs h.shape with heq | hnone | hab
        · exact Or.inl heq
        · exact Or.inr (Or.inl hnone)
        · exact Or.inr (Or.inr (Or.inr (Or.inr hab)))
    | failActive turn error =>
        refine hsame (undisturbed_same rfl hu hw' ?_) rfl rfl rfl
        rcases failActive_disturbs w.slot turn 0 error with heq | hp
        · exact Or.inl heq
        · exact Or.inr (Or.inr (Or.inr (Or.inl hp)))
    | failAll error =>
        exact hsame (undisturbed_same rfl hu hw' (Or.inr (Or.inl (RunSlot.failAll_route _ error))))
          rfl rfl rfl
    | activeTurn => exact hsame rfl rfl rfl rfl
    | recv =>
        have hterm : (w.recv.slot.cells 0).terminal = (w.slot.cells 0).terminal := rfl
        have hbefore : Undisturbed turnId w :=
          ⟨hu.noFailure, hu.unpublished, hu.kept, hu.turn⟩
        have hsent : w.recv.shared.events.sent = w.shared.events.sent := Mpsc.recv_sent _
        have hseq := h.sequenced hbefore
        rw [← hsent] at hseq
        exact hseq

/-- An irrelevant notification moves nothing that is handed out or waits for the turn. -/
theorem handedAndWaiting_irrelevant (h : SequencedInv turnId w) (hu : Undisturbed turnId w)
    {label : RunLabel} (hg : KeepsQueue env w label) (hi : Irrelevant env w label) :
    (w.act env label).handedAndWaiting turnId = w.handedAndWaiting turnId := by
  obtain ⟨route, hroute, hlive⟩ := hu.route h.shape
  have hzero := h.shape.owner route hroute
  have hsame : (w.act env label).slot = w.slot → (w.act env label).replay = w.replay →
      (w.act env label).handedAndWaiting turnId = w.handedAndWaiting turnId := by
    intro hslot hreplay
    unfold RunWorld.handedAndWaiting RunWorld.shared RunWorld.queue
    rw [hslot, hreplay]
  cases label with
  | routeEvent observed sourceMethod event =>
      refine hsame ?_ rfl
      obtain ⟨outcome, route', shared', heq, hspec⟩ :=
        RunSlot.routeEvent_of_route hroute observed sourceMethod event true env.eventCapacity
      have hslot : (w.act env (.routeEvent observed sourceMethod event)).slot
          = (w.slot.routeEvent observed sourceMethod event true env.eventCapacity).2 := rfl
      dsimp only [Irrelevant] at hi
      rw [heq] at hi hslot
      rw [hslot]
      rw [if_pos rfl] at hspec
      cases hspec with
      | mismatch _ _ _ _ => exact RunSlot.store_self hroute
      | afterTerminal _ _ => exact RunSlot.store_self hroute
      | beforeTurn _ _ => exact RunSlot.store_self hroute
      | afterFailure _ => exact RunSlot.store_self hroute
      | afterAbandon _ _ => exact RunSlot.store_self hroute
      | unowned hq _ hturn _ _ _ =>
          obtain ⟨⟨turn, hactive⟩, _⟩ := h.shape.batch_of_active hroute hlive hq
          rw [hactive] at hturn; cases hturn
      | refusedDeferral _ _ _ _ => rcases hi with ⟨_, _, hout⟩ | hout | hout <;> cases hout
      | deferred _ _ _ _ => rcases hi with ⟨_, _, hout⟩ | hout | hout <;> cases hout
      | refusedDelivery _ _ _ _ _ _ _ _ =>
          rcases hi with ⟨_, _, hout⟩ | hout | hout <;> cases hout
      | delivered _ _ _ _ _ _ _ => rcases hi with ⟨_, _, hout⟩ | hout | hout <;> cases hout
  | routeTerminal params =>
      obtain ⟨completion, hparse, hout⟩ := hi
      have hslot : (w.act env (.routeTerminal params)).slot
          = (w.slot.routeTerminal completion params true env.eventCapacity).2 := by
        show (w.routeTerminal env params).slot = _
        unfold RunWorld.routeTerminal
        rw [hparse]
      have hreplay : (w.act env (.routeTerminal params)).replay = w.replay := by
        show (w.routeTerminal env params).replay = _
        unfold RunWorld.routeTerminal
        rw [hparse]
      have hspec := RunSlot.routeTerminal_of_route hroute completion params true
        env.eventCapacity
      cases hrouted : w.slot.routeTerminal completion params true env.eventCapacity with
      | mk outcome slot' =>
      rw [hrouted] at hspec hslot hout
      cases hspec with
      | duplicate _ => exact hsame hslot hreplay
      | mismatch _ _ _ => exact hsame hslot hreplay
      | deferred _ _ => rcases hout with ⟨_, _, hout⟩ | ⟨_, hout⟩ <;> cases hout
      | completed _ _ _ => rcases hout with ⟨_, _, hout⟩ | ⟨_, hout⟩ <;> cases hout
      | @mismatchFull waiting expected hq hfull hexpected hne =>
          -- the queue that is emptied holds nothing for the turn
          have hwaiting := RunPhase.deferred_of_ite _ waiting hq
          have hown := hu.turn_of_route h.shape hroute hlive hexpected
          have hnone := hg completion route waiting expected hparse hroute
            (hu.noFailure route hroute) hwaiting hexpected hne hfull
          have hslot' : (w.act env (.routeTerminal params)).slot
              = w.slot.store { route with phase := route.phase.setDeferred [] }
                  (w.slot.cells route.run) := hslot
          have hqueue : (w.act env (.routeTerminal params)).queue = [] := by
            rw [queue_of_route (by rw [hslot']; rfl),
              RunPhase.setDeferred_deferred hwaiting]; rfl
          have hshared : (w.act env (.routeTerminal params)).shared = w.shared := by
            unfold RunWorld.shared
            rw [hslot']
            exact congrFun (RunSlot.store_cells_same rfl) 0
          unfold RunWorld.handedAndWaiting
          rw [hqueue, hshared, hreplay, queue_of_route hroute, hwaiting, Option.getD_some,
            ← hown, hnone]
          rfl
  | _ => exact absurd hi id

end Steps

theorem sequencedInv_reachable {env : RunEnv} {turnId : String} {w : RunWorld}
    (h : (runMachine env).Reachable (KeepsOwnEvents env turnId) w) : SequencedInv turnId w := by
  refine h.invariant (sequencedInv_init env turnId) ?_
  intro s label _ hs hg
  exact sequencedInv_step hs label hg

/-- An image event, as runs on fixed inputs use it. -/
def Event.imageCompleted (id : String) : Event :=
  .imageGeneration ⟨id, "completed", none, "", none, none, none⟩

end Vergerail
