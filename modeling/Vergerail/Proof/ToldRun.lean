import Vergerail.Proof.CoalescedOutput

/-!
# The stages of a run that is told its turn

A run that hears one turn only is in one of four stages: its events wait in the queue, the
loop replays them, they were handed on, or the run was published. In each of them the
events behind it tell what it retained. Beside them stands the run that can no longer
succeed, which no step makes succeed again.
-/

namespace Vergerail

open Lib

/-! ## Runs that can no longer succeed -/

/-- The run was published as failed, or will be: a live route has a failure pending. -/
def Failing (w : RunWorld) : Prop :=
  (∃ error, w.shared.terminal.value = some (.error error))
    ∨ ∃ route, w.slot.route = some route ∧ route.phase.isTerminal = false
      ∧ route.pendingFailure.isSome

section Failing

variable {env : RunEnv} {w w' : RunWorld}

/-- A published run has no live route. -/
theorem ShapeInv.not_live (hw : ShapeInv w) {result : Result RunResult}
    (hvalue : w.shared.terminal.value = some result) {route : RunRoute}
    (hroute : w.slot.route = some route) : route.phase.isTerminal = true := by
  by_contra hlive
  have hnone := hw.unpublished route hroute (by simpa using hlive)
  change (w.slot.cells 0).terminal.value = some result at hvalue
  rw [hnone] at hvalue; cases hvalue

/-- The watch shows what a publication wrote. -/
theorem ShapeInv.publishTerminal_value (hw : ShapeInv w) {route : RunRoute}
    (hroute : w.slot.route = some route) (turnId : String) (result : Result RunResult) :
    ((w.slot.publishTerminal route turnId result).cells 0).terminal.value = some result := by
  have hzero := hw.owner route hroute
  have hcells : (w.slot.publishTerminal route turnId result).cells
      = Function.update w.slot.cells 0 ((w.slot.cells 0).publish result) := by
    unfold RunSlot.publishTerminal
    dsimp only
    rw [← hzero]
    cases route.phase <;> rfl
  rw [hcells, Function.update_self]
  exact Watch.send_value hw.listened (some result)

theorem Failing.routeEvent (h : Failing w) (hw : ShapeInv w) {observed : Option String}
    {sourceMethod : String} {event : Event} {defer : Bool} (hslot : w'.slot
      = (w.slot.routeEvent observed sourceMethod event defer env.eventCapacity).2) :
    Failing w' := by
  unfold Failing RunWorld.shared at h ⊢
  rw [hslot]
  cases hroute : w.slot.route with
  | none =>
      rw [RunSlot.routeEvent_of_none hroute]
      rcases h with herror | ⟨route, hr, _⟩
      · exact Or.inl herror
      · rw [hroute] at hr; cases hr
  | some route =>
      obtain ⟨outcome, route', shared', heq, hspec⟩ :=
        RunSlot.routeEvent_of_route hroute observed sourceMethod event defer env.eventCapacity
      rw [heq]
      rcases hspec.kept (RunPhase.deferred_of_ite defer) with
        ⟨rfl, rfl⟩ | ⟨hlive, hpending, hrun, _, hterm, _⟩
      · dsimp only
        rw [RunSlot.store_self hroute]; exact h
      · rcases h with ⟨error, herror⟩ | ⟨r, hr, _, hsome⟩
        · have hended := hw.not_live herror hroute
          rw [hlive] at hended; cases hended
        · rw [hroute] at hr; cases hr
          rw [hpending] at hsome; cases hsome

theorem Failing.routeTerminal (h : Failing w) (hw : ShapeInv w) {completion : TurnCompletion}
    {params : Json} {defer : Bool} (hslot : w'.slot
      = (w.slot.routeTerminal completion params defer env.eventCapacity).2) :
    Failing w' := by
  unfold Failing RunWorld.shared
  rw [hslot]
  cases hroute : w.slot.route with
  | none =>
      rw [RunSlot.routeTerminal_of_none hroute]
      exact h
  | some route =>
      have hzero := hw.owner route hroute
      have hspec := RunSlot.routeTerminal_of_route hroute completion params defer
        env.eventCapacity
      -- a route that is written back with another queue keeps what makes the run fail
      have hstore : ∀ queue, Failing { w with slot := (w.slot.store
          { route with phase := route.phase.setDeferred queue } (w.slot.cells route.run)) } := by
        intro queue
        rcases h with herror | ⟨r, hr, hlive, hsome⟩
        · left
          show ∃ error, ((w.slot.store _ _).cells 0).terminal.value = some (.error error)
          rw [RunSlot.store_cells_same rfl]
          exact herror
        · rw [hroute] at hr; cases hr
          exact Or.inr ⟨_, rfl, (RunPhase.setDeferred_isTerminal ..).trans hlive, hsome⟩
      cases hrouted : w.slot.routeTerminal completion params defer env.eventCapacity with
      | mk outcome slot' =>
      rw [hrouted] at hspec
      cases hspec with
      | duplicate _ => exact h
      | mismatch _ _ _ => exact h
      | deferred _ _ => exact hstore _
      | mismatchFull _ _ _ _ => exact hstore _
      | @completed queueFailure hlive _ _ =>
          rcases h with ⟨error, herror⟩ | ⟨r, hr, _, hsome⟩
          · have hended := hw.not_live herror hroute
            rw [hlive] at hended; cases hended
          · rw [hroute] at hr; cases hr
            obtain ⟨error, herror⟩ := Option.isSome_iff_exists.mp hsome
            have hresult : w.slot.terminalResult route queueFailure completion = .error error := by
              unfold RunSlot.terminalResult
              rw [herror]; rfl
            have hvalue := hw.publishTerminal_value hroute completion.turnId
              (w.slot.terminalResult route queueFailure completion)
            exact Or.inl ⟨error, hvalue.trans (congrArg some hresult)⟩

theorem Failing.acknowledgeStart (h : Failing w) (hw : ShapeInv w) (turnId : String) :
    Failing (w.acknowledgeStart turnId) := by
  have hspec := acknowledgeStart_spec w turnId
  generalize w.acknowledgeStart turnId = w' at hspec
  cases hspec with
  | refused => exact h
  | @replay route queue hroute hphase =>
      rcases h with ⟨error, herror⟩ | ⟨r, hr, _, hsome⟩
      · have hended := hw.not_live herror hroute
        rw [hphase] at hended; cases hended
      · rw [hroute] at hr; cases hr
        exact Or.inr ⟨_, rfl, rfl, hsome⟩
  | @completed route ended hroute hphase _ =>
      rcases h with herror | ⟨r, hr, hlive, _⟩
      · exact Or.inl herror
      · rw [hroute] at hr; cases hr
        rw [hphase] at hlive; cases hlive

theorem Failing.replayStep (h : Failing w) (hw : ShapeInv w) : Failing (w.replayStep env) := by
  have hspec := replayStep_spec env w
  generalize w.replayStep env = w' at hspec
  -- taking the queue or ending the replay keeps the pending failure
  have hrest : ∀ {route route' : RunRoute}, w.slot.route = some route →
      route'.run = route.run → route.phase.isTerminal = false →
      route'.phase.isTerminal = false → route'.pendingFailure = route.pendingFailure →
      ∀ {replay : ReplayLoop}, Failing { w with
        slot := w.slot.store route' (w.slot.cells route.run), replay } := by
    intro route route' hroute hrun hlive hlive' hpending replay
    rcases h with ⟨error, herror⟩ | ⟨r, hr, _, hsome⟩
    · have hended := hw.not_live herror hroute
      rw [hlive] at hended; cases hended
    · rw [hroute] at hr; cases hr
      exact Or.inr ⟨route', rfl, hlive', by rw [hpending]; exact hsome⟩
  cases hspec with
  | resting _ => exact h
  | event _ => exact h.routeEvent hw rfl
  | unreadable _ _ => exact h
  | terminal _ _ => exact h.routeTerminal hw rfl
  | next _ hroute hphase _ =>
      refine hrest hroute ?_ ?_ ?_ ?_
      · rfl
      · rw [hphase]; rfl
      · rfl
      · rfl
  | active _ hroute hphase =>
      refine hrest hroute ?_ ?_ ?_ ?_
      · rfl
      · rw [hphase]; rfl
      · rfl
      · rfl
  | stopped _ _ => exact h

/-- The notifications of a turn, its acknowledgement, the replay and the consumer. -/
def RunLabel.ofHandover : RunLabel → Bool
  | routeEvent _ _ _ => true
  | routeTerminal _ => true
  | acknowledgeStart _ => true
  | replay => true
  | recv => true
  | _ => false

/-- **A failing run goes on failing.** -/
theorem failing_step (h : Failing w) (hw : ShapeInv w) {label : RunLabel}
    (hlabel : label.ofHandover = true) : Failing (w.act env label) := by
  cases label with
  | routeEvent observed sourceMethod event => exact h.routeEvent hw rfl
  | routeTerminal params =>
      unfold RunWorld.act RunWorld.routeTerminal
      dsimp only
      split
      · exact h
      · exact h.routeTerminal hw rfl
  | acknowledgeStart turnId => exact h.acknowledgeStart hw turnId
  | replay => exact h.replayStep hw
  | recv => exact h
  | _ => cases hlabel

theorem failing_runFrom (h : Failing w) (hw : ShapeInv w) {labels : List RunLabel}
    (hlabels : ∀ label ∈ labels, label.ofHandover = true) :
    Failing ((runMachine env).runFrom w labels) := by
  induction labels generalizing w with
  | nil => exact h
  | cons label labels ih =>
      exact ih (failing_step h hw (hlabels label List.mem_cons_self)) (shapeInv_step hw label)
        (fun other hother => hlabels other (List.mem_cons_of_mem _ hother))

/-- A failing run reports no success. -/
theorem Failing.not_ok (h : Failing w) (hw : ShapeInv w) (result : RunResult) :
    w.shared.terminal.value ≠ some (.ok result) := by
  intro hvalue
  rcases h with ⟨error, herror⟩ | ⟨route, hroute, hlive, _⟩
  · rw [hvalue] at herror; cases herror
  · have hended := hw.not_live hvalue hroute
    rw [hlive] at hended; cases hended

end Failing

/-! ## Runs that can still succeed -/

/-- The notifications of a turn that wait, oldest first: events, then at most the terminal. -/
inductive Waits (turnId : String) (params : Json) :
    List DeferredRunNotification → List Event → Bool → Prop where
  | nil : Waits turnId params [] [] false
  | terminal : Waits turnId params [.terminal params] [] true
  | event {queue : List DeferredRunNotification} {events : List Event} {ended : Bool}
      (sourceMethod : String) (event : Event) : Waits turnId params queue events ended →
      Waits turnId params (.event turnId sourceMethod event :: queue) (event :: events) ended

section Waits

variable {turnId : String} {params : Json} {queue : List DeferredRunNotification}
  {events : List Event}

theorem Waits.push (h : Waits turnId params queue events false) (sourceMethod : String)
    (event : Event) :
    Waits turnId params (queue ++ [.event turnId sourceMethod event]) (events ++ [event])
      false := by
  generalize hended : false = ended at h
  induction h with
  | nil => exact .event sourceMethod event .nil
  | terminal => cases hended
  | event method e _ ih => exact .event method e (ih hended)

theorem Waits.close (h : Waits turnId params queue events false) :
    Waits turnId params (queue ++ [.terminal params]) events true := by
  generalize hended : false = ended at h
  induction h with
  | nil => exact .terminal
  | terminal => cases hended
  | event method e _ ih => exact .event method e (ih hended)

/-- Superseding an image in the queue. -/
theorem Waits.retain (h : Waits turnId params queue events false) (event : Event) :
    Waits turnId params (RunRoute.retainOtherImages event queue)
      (Coalesce.retainOthers Event.imageId event events) false := by
  unfold RunRoute.retainOtherImages Coalesce.retainOthers
  cases event.imageId with
  | none => exact h
  | some imageId =>
      dsimp only
      generalize hended : false = ended at h ⊢
      induction h with
      | nil => exact .nil
      | terminal => cases hended
      | event method e _ ih =>
          by_cases hsame : e.imageId = some imageId
          · rw [List.filter_cons_of_neg (by simp [DeferredRunNotification.imageId, hsame]),
              List.filter_cons_of_neg (by simp [hsame])]
            exact ih hended
          · rw [List.filter_cons_of_pos (by simp [DeferredRunNotification.imageId, hsame]),
              List.filter_cons_of_pos (by simp [hsame])]
            exact .event method e (ih hended)

end Waits

/-- A run that nothing has gone wrong with, and what it retained of its channel. -/
structure Telling (env : RunEnv) (w : RunWorld) (route : RunRoute) : Prop where
  shape : ShapeInv w
  thread : w.slot.threadId = env.threadId
  route_eq : w.slot.route = some route
  live : route.phase.isTerminal = false
  noFailure : route.pendingFailure = none
  kept : w.shared.abandoned = false
  output : route.output = retained w.shared.events.sent

/-- Not acknowledged yet: everything waits. -/
structure Starting (env : RunEnv) (turnId : String) (params : Json) (events : List Event)
    (ended : Bool) (w : RunWorld) : Prop where
  telling : ∃ route queue, Telling env w route ∧ route.phase = .starting queue
    ∧ Waits turnId params queue events ended
  sent : w.shared.events.sent = []

/-- In the middle of the replay: the batch holds what was not handed on yet. -/
structure Replaying (env : RunEnv) (turnId : String) (params : Json) (events : List Event)
    (ended : Bool) (batch : List DeferredRunNotification) (w : RunWorld) : Prop where
  telling : ∃ route, Telling env w route ∧ route.phase = .replaying turnId []
  replay : w.replay = .running turnId batch
  waits : ∃ rest, Waits turnId params batch rest ended
    ∧ w.shared.events.sent ++ rest = events

/-- After the replay: everything was handed on. -/
structure Handed (env : RunEnv) (turnId : String) (events : List Event) (w : RunWorld) :
    Prop where
  telling : ∃ route, Telling env w route ∧ route.phase = .active turnId
  sent : w.shared.events.sent = events

/-- The terminal was published with what the run retained. -/
structure Published (env : RunEnv) (completion : TurnCompletion) (events : List Event)
    (w : RunWorld) : Prop where
  shape : ShapeInv w
  gone : w.slot.route = none
  value : w.shared.terminal.value = some (completion.intoResult env.threadId
    (retained events).text (retained events).usage (retained events).imageGenerations)

section Steps

variable {env : RunEnv} {turnId : String} {params : Json} {completion : TurnCompletion}
  {events : List Event} {ended : Bool} {w w' : RunWorld}

theorem starting_init : Starting env turnId params [] false (RunWorld.init env) where
  telling := by
    refine ⟨_, _, ⟨shapeInv_init env, rfl, rfl, rfl, rfl, ?_, ?_⟩, rfl, .nil⟩
    · show ((RunWorld.init env).slot.cells 0).abandoned = false
      rw [init_shared]; rfl
    · show _ = retained ((RunWorld.init env).slot.cells 0).events.sent
      rw [init_shared]; rfl
  sent := by
    show ((RunWorld.init env).slot.cells 0).events.sent = []
    rw [init_shared]; rfl

/-- Writing back a route that goes on telling. -/
theorem Telling.store {route route' : RunRoute} {shared' : RunShared} (ht : Telling env w route)
    (hshape : ShapeInv w') (hslot : w'.slot = w.slot.store route' shared')
    (hrun : route'.run = route.run) (hlive : route'.phase.isTerminal = false)
    (hfail : route'.pendingFailure = none) (hkept : shared'.abandoned = false)
    (hout : route'.output = retained shared'.events.sent) :
    Telling env w' route' ∧ w'.shared = shared' := by
  have hzero : route'.run = 0 := hrun.trans (ht.shape.owner route ht.route_eq)
  have hshared : w'.shared = shared' := by
    unfold RunWorld.shared
    rw [hslot]
    exact RunSlot.store_cells_of_eq w.slot hzero shared'
  refine ⟨⟨hshape, ?_, by rw [hslot]; rfl, hlive, hfail, ?_, ?_⟩, hshared⟩
  · rw [hslot]; exact ht.thread
  · rw [hshared]; exact hkept
  · rw [hshared]; exact hout

/-- The cells of a run that is telling, under the route's name. -/
theorem Telling.cells {route : RunRoute} (ht : Telling env w route) :
    w.slot.cells route.run = w.shared := by
  rw [ht.shape.owner route ht.route_eq]; rfl

/-- The router defers an event, or the run fails. -/
theorem starting_routeEvent (h : Starting env turnId params events false w)
    (sourceMethod : String) (event : Event) :
    Starting env turnId params (Coalesce.push Event.imageId events event) false
        (w.act env (.routeEvent (some turnId) sourceMethod event))
      ∨ Failing (w.act env (.routeEvent (some turnId) sourceMethod event)) := by
  obtain ⟨⟨route, queue, ht, hphase, hwaits⟩, hsent⟩ := h
  have hshape : ShapeInv (w.act env (.routeEvent (some turnId) sourceMethod event)) :=
    shapeInv_step ht.shape _
  have hzero := ht.shape.owner route ht.route_eq
  obtain ⟨outcome, route', shared', heq, hspec⟩ := RunSlot.routeEvent_of_route ht.route_eq
    (some turnId) sourceMethod event true env.eventCapacity
  have hslot : (w.act env (.routeEvent (some turnId) sourceMethod event)).slot
      = w.slot.store route' shared' := congrArg Prod.snd heq
  generalize w.act env (.routeEvent (some turnId) sourceMethod event) = w' at hshape hslot ⊢
  have hq : (if true = true then route.phase.deferred else none) = some queue := by
    rw [hphase]; rfl
  rw [hq] at hspec
  cases hspec with
  | afterFailure hsome => rw [ht.noFailure] at hsome; cases hsome
  | beforeTurn _ hnone => cases hnone
  | refusedDeferral _ _ _ _ =>
      right
      refine Or.inr ⟨route.failed _, by rw [hslot]; rfl, ?_, rfl⟩
      rw [RunRoute.failed_phase, RunPhase.setDeferred_isTerminal]
      exact ht.live
  | @deferred waiting turn bytes byId _ hwaiting hobs _ =>
      cases hwaiting; cases hobs
      left
      have hrun : route.run = route.run := rfl
      obtain ⟨htelling, hshared⟩ := ht.store hshape hslot hrun
        ((RunPhase.setDeferred_isTerminal ..).trans ht.live) ht.noFailure
        (by rw [ht.cells]; exact ht.kept) (by rw [ht.cells]; exact ht.output)
      refine ⟨⟨_, _, htelling, ?_, (hwaits.retain event).push sourceMethod event⟩, ?_⟩
      · show route.phase.setDeferred _ = _
        rw [hphase]; rfl
      · rw [hshared, ht.cells]; exact hsent
  | mismatch hnone _ _ _ => cases hnone
  | afterTerminal hnone _ => cases hnone
  | afterAbandon hnone _ => cases hnone
  | unowned hnone _ _ _ _ _ => cases hnone
  | refusedDelivery _ hnone _ _ _ _ _ _ => cases hnone
  | delivered _ hnone _ _ _ _ _ => cases hnone

/-- What a readable terminal notification does. -/
theorem act_routeTerminal_slot (hparse : turnCompletion env.redactLine params = .ok completion) :
    (w.act env (.routeTerminal params)).slot
      = (w.slot.routeTerminal completion params true env.eventCapacity).2 := by
  unfold RunWorld.act RunWorld.routeTerminal
  dsimp only
  rw [hparse]

/-- The router defers the terminal, or the run fails. -/
theorem starting_routeTerminal (h : Starting env turnId params events false w)
    (hparse : turnCompletion env.redactLine params = .ok completion) :
    Starting env turnId params events true (w.act env (.routeTerminal params))
      ∨ Failing (w.act env (.routeTerminal params)) := by
  obtain ⟨⟨route, queue, ht, hphase, hwaits⟩, hsent⟩ := h
  have hshape : ShapeInv (w.act env (.routeTerminal params)) := shapeInv_step ht.shape _
  have hspec := RunSlot.routeTerminal_of_route ht.route_eq completion params true
    env.eventCapacity
  have hslot := act_routeTerminal_slot (w := w) hparse
  generalize w.act env (.routeTerminal params) = w' at hshape hslot ⊢
  have hq : (if true && route.pendingFailure.isNone then route.phase.deferred else none)
      = some queue := by
    rw [ht.noFailure, hphase]; rfl
  rw [hq] at hspec
  cases hrouted : w.slot.routeTerminal completion params true env.eventCapacity with
  | mk outcome slot' =>
  rw [hrouted] at hspec hslot
  cases hspec with
  | duplicate hended => rw [ht.live] at hended; cases hended
  | mismatch hnone _ _ => cases hnone
  | mismatchFull _ _ hturn _ => rw [hphase] at hturn; cases hturn
  | @deferred waiting hwaiting _ =>
      cases hwaiting
      left
      obtain ⟨htelling, hshared⟩ := ht.store hshape hslot rfl
        ((RunPhase.setDeferred_isTerminal ..).trans ht.live) ht.noFailure
        (by rw [ht.cells]; exact ht.kept) (by rw [ht.cells]; exact ht.output)
      refine ⟨⟨_, _, htelling, ?_, hwaits.close⟩, ?_⟩
      · show route.phase.setDeferred _ = _
        rw [hphase]; rfl
      · rw [hshared, ht.cells]; exact hsent
  | @completed queueFailure _ _ hfull =>
      -- the queue is full, so the failure of the queue is published
      right
      cases queueFailure with
      | none => exact absurd (hfull.mp rfl) (by simp)
      | some error =>
          have hresult : w.slot.terminalResult route (some error) completion = .error error := by
            unfold RunSlot.terminalResult
            rw [ht.noFailure]; rfl
          have hvalue := ht.shape.publishTerminal_value ht.route_eq completion.turnId
            (w.slot.terminalResult route (some error) completion)
          refine Or.inl ⟨error, ?_⟩
          unfold RunWorld.shared
          rw [hslot, ← hresult]
          exact hvalue

/-- The acknowledgement hands everything to the replay loop. -/
theorem starting_acknowledgeStart (h : Starting env turnId params events ended w) :
    ∃ batch, Replaying env turnId params events ended batch
      (w.act env (.acknowledgeStart turnId)) := by
  obtain ⟨⟨route, queue, ht, hphase, hwaits⟩, hsent⟩ := h
  have hshape : ShapeInv (w.act env (.acknowledgeStart turnId)) := shapeInv_step ht.shape _
  have hact : w.act env (.acknowledgeStart turnId) = { w with
      slot := (w.slot.store { route.clearDeferredImageBytes with phase := .replaying turnId [] }
        (w.slot.cells route.run))
      replay := .running turnId queue
      accepted := some turnId } := by
    unfold RunWorld.act RunWorld.acknowledgeStart RunSlot.acknowledgeStart
    dsimp only
    rw [ht.route_eq]
    dsimp only
    rw [hphase]
  have hslot := congrArg RunWorld.slot hact
  have hreplay := congrArg RunWorld.replay hact
  generalize w.act env (.acknowledgeStart turnId) = w' at hshape hslot hreplay
  obtain ⟨htelling, hshared⟩ := ht.store hshape hslot rfl rfl ht.noFailure
    (by rw [ht.cells]; exact ht.kept) (by rw [ht.cells]; exact ht.output)
  refine ⟨queue, ⟨_, htelling, rfl⟩, hreplay, events, hwaits, ?_⟩
  rw [hshared, ht.cells, hsent]; rfl

/-- An event of the run's turn that does not wait is delivered, or the run fails. -/
theorem Telling.deliver {route : RunRoute} (ht : Telling env w route)
    (hturn : route.phase.turnId = some turnId) (sourceMethod : String) (event : Event)
    {defer : Bool} (hq : (if defer then route.phase.deferred else none) = none)
    (hshape : ShapeInv w')
    (hslot : w'.slot = (w.slot.routeEvent (some turnId) sourceMethod event defer
      env.eventCapacity).2) :
    (∃ route', Telling env w' route' ∧ route'.phase = route.phase
        ∧ w'.shared.events.sent = w.shared.events.sent ++ [event])
      ∨ Failing w' := by
  obtain ⟨outcome, route', shared', heq, hspec⟩ := RunSlot.routeEvent_of_route ht.route_eq
    (some turnId) sourceMethod event defer env.eventCapacity
  rw [heq] at hslot
  rw [hq, ht.cells] at hspec
  cases hspec with
  | afterFailure hsome => rw [ht.noFailure] at hsome; cases hsome
  | beforeTurn _ hnone => cases hnone
  | refusedDeferral _ hnone _ _ => cases hnone
  | deferred _ hnone _ _ => cases hnone
  | mismatch _ hexpected hobs hne =>
      rw [hturn] at hexpected
      cases hexpected; cases hobs
      exact absurd rfl hne
  | afterTerminal _ hended => rw [ht.live] at hended; cases hended
  | afterAbandon _ habandoned => rw [ht.kept] at habandoned; cases habandoned
  | unowned _ hnone _ _ _ _ => cases hnone
  | @refusedDelivery base turn error _ _ _ _ _ _ hbase _ =>
      right
      refine Or.inr ⟨base.failed error, by rw [hslot]; rfl, ?_, rfl⟩
      rw [RunRoute.failed_phase, RunPhase.setDeferred_isTerminal, hbase.phase]
      exact ht.live
  | delivered _ _ _ _ _ hbase hout =>
      left
      obtain ⟨htelling, hshared⟩ := ht.store hshape hslot hbase.run
        (by rw [hbase.phase]; exact ht.live) (hbase.pendingFailure.trans ht.noFailure) ht.kept
        (by
          rw [hout, ht.output]
          unfold retained
          rw [List.foldl_append]; rfl)
      exact ⟨route', htelling, hbase.phase, by rw [hshared]⟩

/-- The terminal of the run's turn, when it does not wait, is published. -/
theorem Telling.settle {route : RunRoute} (ht : Telling env w route)
    (hturn : route.phase.turnId = some turnId) (hcompletion : completion.turnId = turnId)
    {defer : Bool} (hq : (if defer && route.pendingFailure.isNone then route.phase.deferred
      else none) = none) (hshape : ShapeInv w')
    (hslot : w'.slot = (w.slot.routeTerminal completion params defer env.eventCapacity).2)
    (hsent : w.shared.events.sent = events) : Published env completion events w' := by
  have hspec := RunSlot.routeTerminal_of_route ht.route_eq completion params defer
    env.eventCapacity
  rw [hq] at hspec
  cases hrouted : w.slot.routeTerminal completion params defer env.eventCapacity with
  | mk outcome slot' =>
  rw [hrouted] at hspec hslot
  cases hspec with
  | deferred hsome _ => cases hsome
  | duplicate hended => rw [ht.live] at hended; cases hended
  | mismatch _ hexpected hne =>
      rw [hturn] at hexpected
      cases hexpected
      exact absurd hcompletion.symm hne
  | mismatchFull hsome _ _ _ => cases hsome
  | @completed queueFailure _ _ hnone =>
      have hfailure : queueFailure = none := hnone.mpr rfl
      subst hfailure
      have hout : (⟨route.text, route.usage, route.imageGenerations⟩ : RetainedOutput)
          = retained events := by
        rw [← hsent]; exact ht.output
      have hresult : w.slot.terminalResult route none completion = completion.intoResult
          env.threadId (retained events).text (retained events).usage
          (retained events).imageGenerations := by
        unfold RunSlot.terminalResult
        rw [ht.noFailure, ht.thread, ← hout]; rfl
      refine ⟨hshape, ?_, ?_⟩
      · rw [hslot]
        dsimp only
        split
        · rename_i hphase
          rw [hphase] at hturn; cases hturn
        · rfl
      · have hvalue := ht.shape.publishTerminal_value ht.route_eq completion.turnId
          (w.slot.terminalResult route none completion)
        unfold RunWorld.shared
        rw [hslot, ← hresult]
        exact hvalue

/-! ### Stage by stage -/

/-- What the consumer does to the cells. -/
theorem act_recv_shared (env : RunEnv) (w : RunWorld) :
    (w.act env .recv).shared = { w.shared with events := w.shared.events.recv } := by
  show Function.update w.slot.cells 0 { w.shared with events := w.shared.events.recv } 0 = _
  exact Function.update_self ..

/-- The consumer changes nothing that is told. -/
theorem Telling.recv {route : RunRoute} (ht : Telling env w route) :
    Telling env (w.act env .recv) route
      ∧ (w.act env .recv).shared.events.sent = w.shared.events.sent := by
  have hshared := act_recv_shared env w
  have hsent : (w.act env .recv).shared.events.sent = w.shared.events.sent := by
    rw [hshared]; exact Mpsc.recv_sent _
  refine ⟨⟨shapeInv_step ht.shape .recv, ht.thread, ht.route_eq, ht.live, ht.noFailure, ?_, ?_⟩,
    hsent⟩
  · rw [hshared]; exact ht.kept
  · rw [hsent]; exact ht.output

theorem starting_recv (h : Starting env turnId params events ended w) :
    Starting env turnId params events ended (w.act env .recv) := by
  obtain ⟨⟨route, queue, ht, hphase, hwaits⟩, hsent⟩ := h
  obtain ⟨htelling, hsame⟩ := ht.recv
  exact ⟨⟨route, queue, htelling, hphase, hwaits⟩, hsame.trans hsent⟩

theorem replaying_recv {batch : List DeferredRunNotification}
    (h : Replaying env turnId params events ended batch w) :
    Replaying env turnId params events ended batch (w.act env .recv) := by
  obtain ⟨⟨route, ht, hphase⟩, hreplay, rest, hwaits, hevents⟩ := h
  obtain ⟨htelling, hsame⟩ := ht.recv
  exact ⟨⟨route, htelling, hphase⟩, hreplay, rest, hwaits, by rw [hsame]; exact hevents⟩

theorem handed_recv (h : Handed env turnId events w) :
    Handed env turnId events (w.act env .recv) := by
  obtain ⟨⟨route, ht, hphase⟩, hsent⟩ := h
  obtain ⟨htelling, hsame⟩ := ht.recv
  exact ⟨⟨route, htelling, hphase⟩, hsame.trans hsent⟩

theorem published_recv (h : Published env completion events w) :
    Published env completion events (w.act env .recv) := by
  refine ⟨shapeInv_step h.shape .recv, h.gone, ?_⟩
  have hshared := act_recv_shared env w
  rw [hshared]
  exact h.value

/-- A loop that has stopped does nothing. -/
theorem handed_replay (h : Handed env turnId events w) :
    Handed env turnId events (w.act env .replay) := by
  obtain ⟨⟨route, ht, hphase⟩, hsent⟩ := h
  have hstage := ht.shape.stage_of ht.route_eq
  rw [hphase] at hstage
  have hact : w.act env .replay = w := by
    show w.replayStep env = w
    unfold RunWorld.replayStep
    rw [hstage.of_active.2]
  rw [hact]
  exact ⟨⟨route, ht, hphase⟩, hsent⟩

/-- What the loop still holds of a published run finds no route. -/
theorem published_replay (h : Published env completion events w) :
    Published env completion events (w.act env .replay) := by
  have hshape : ShapeInv (w.act env .replay) := shapeInv_step h.shape .replay
  have hsame : (w.act env .replay).slot = w.slot := by
    have hspec := replayStep_spec env w
    show (w.replayStep env).slot = w.slot
    generalize w.replayStep env = w' at hspec
    cases hspec with
    | resting _ => rfl
    | event _ => exact congrArg Prod.snd (RunSlot.routeEvent_of_none h.gone ..)
    | unreadable _ _ => rfl
    | terminal _ _ => exact congrArg Prod.snd (RunSlot.routeTerminal_of_none h.gone ..)
    | next _ hroute _ _ => rw [h.gone] at hroute; cases hroute
    | active _ hroute _ => rw [h.gone] at hroute; cases hroute
    | stopped _ _ => rfl
  refine ⟨hshape, by rw [hsame]; exact h.gone, ?_⟩
  have hvalue := h.value
  unfold RunWorld.shared at hvalue ⊢
  rw [hsame]
  exact hvalue

/-- The loop hands on what comes next, or stops. -/
theorem replaying_replay {batch : List DeferredRunNotification}
    (h : Replaying env turnId params events ended batch w)
    (hparse : turnCompletion env.redactLine params = .ok completion)
    (hcompletion : completion.turnId = turnId) :
    (∃ next rest, batch = next :: rest
        ∧ Replaying env turnId params events ended rest (w.act env .replay))
      ∨ (ended = false ∧ Handed env turnId events (w.act env .replay))
      ∨ (ended = true ∧ Published env completion events (w.act env .replay))
      ∨ Failing (w.act env .replay) := by
  obtain ⟨⟨route, ht, hphase⟩, hreplay, rest, hwaits, hevents⟩ := h
  have hshape : ShapeInv (w.act env .replay) := shapeInv_step ht.shape .replay
  have hturn : route.phase.turnId = some turnId := by rw [hphase]; rfl
  change ShapeInv (w.replayStep env) at hshape
  show (∃ next tail, _ ∧ Replaying _ _ _ _ _ tail (w.replayStep env))
    ∨ (_ ∧ Handed _ _ _ (w.replayStep env)) ∨ (_ ∧ Published _ _ _ (w.replayStep env))
    ∨ Failing (w.replayStep env)
  cases hwaits with
  | nil =>
      have hact : w.replayStep env = { w with
          slot := (w.slot.store { route with phase := .active turnId }
            (w.slot.cells route.run))
          replay := .stopped } := by
        unfold RunWorld.replayStep
        rw [hreplay]
        dsimp only
        unfold RunSlot.replayTransition
        rw [ht.route_eq]
        dsimp only
        rw [hphase]
        dsimp only
        rw [if_pos rfl]
        rfl
      have hslot := congrArg RunWorld.slot hact
      generalize w.replayStep env = w' at hshape hslot
      obtain ⟨htelling, hshared⟩ := ht.store hshape hslot rfl rfl ht.noFailure
        (by rw [ht.cells]; exact ht.kept) (by rw [ht.cells]; exact ht.output)
      refine Or.inr (Or.inl ⟨rfl, ⟨_, htelling, rfl⟩, ?_⟩)
      rw [hshared, ht.cells, ← hevents, List.append_nil]
  | terminal =>
      have hact : w.replayStep env = { w with
          slot := (w.slot.routeTerminal completion params false env.eventCapacity).2
          replay := .running turnId [] } := by
        unfold RunWorld.replayStep
        rw [hreplay]
        dsimp only
        rw [hparse]
      have hslot := congrArg RunWorld.slot hact
      generalize w.replayStep env = w' at hshape hslot
      rw [List.append_nil] at hevents
      exact Or.inr (Or.inr (Or.inl ⟨rfl, ht.settle hturn hcompletion rfl hshape hslot hevents⟩))
  | @event queue events' _ sourceMethod event hrest =>
      have hact : w.replayStep env = { w with
          slot := (w.slot.routeEvent (some turnId) sourceMethod event false env.eventCapacity).2
          replay := .running turnId queue
          interrupts := w.interrupts ++ RunWorld.interruptOf
            (w.slot.routeEvent (some turnId) sourceMethod event false env.eventCapacity).1 } := by
        unfold RunWorld.replayStep
        rw [hreplay]
      have hslot := congrArg RunWorld.slot hact
      have hreplay' := congrArg RunWorld.replay hact
      generalize w.replayStep env = w' at hshape hslot hreplay'
      rcases ht.deliver hturn sourceMethod event rfl hshape hslot with
        ⟨route', htelling, hsame, hsent⟩ | hfail
      · refine Or.inl ⟨_, queue, rfl, ⟨route', htelling, hsame.trans hphase⟩, hreplay',
          events', hrest, ?_⟩
        rw [hsent, ← hevents, List.append_assoc]; rfl
      · exact Or.inr (Or.inr (Or.inr hfail))

/-- The router delivers an event, or the run fails. -/
theorem handed_routeEvent (h : Handed env turnId events w) (sourceMethod : String)
    (event : Event) :
    Handed env turnId (events ++ [event])
        (w.act env (.routeEvent (some turnId) sourceMethod event))
      ∨ Failing (w.act env (.routeEvent (some turnId) sourceMethod event)) := by
  obtain ⟨⟨route, ht, hphase⟩, hsent⟩ := h
  have hshape : ShapeInv (w.act env (.routeEvent (some turnId) sourceMethod event)) :=
    shapeInv_step ht.shape _
  rcases ht.deliver (by rw [hphase]; rfl) sourceMethod event
      (show (if true = true then route.phase.deferred else none) = none by rw [hphase]; rfl)
      hshape rfl with ⟨route', htelling, hsame, hnew⟩ | hfail
  · exact Or.inl ⟨⟨route', htelling, hsame.trans hphase⟩, by rw [hnew, hsent]⟩
  · exact Or.inr hfail

theorem handed_routeTerminal (h : Handed env turnId events w)
    (hparse : turnCompletion env.redactLine params = .ok completion)
    (hcompletion : completion.turnId = turnId) :
    Published env completion events (w.act env (.routeTerminal params)) := by
  obtain ⟨⟨route, ht, hphase⟩, hsent⟩ := h
  have hshape : ShapeInv (w.act env (.routeTerminal params)) := shapeInv_step ht.shape _
  have hq : (if true && route.pendingFailure.isNone then route.phase.deferred else none)
      = none := by
    rw [hphase]
    split <;> rfl
  exact ht.settle (by rw [hphase]; rfl) hcompletion hq hshape (act_routeTerminal_slot hparse)
    hsent

end Steps

end Vergerail
