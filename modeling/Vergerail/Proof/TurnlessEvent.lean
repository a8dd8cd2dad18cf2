import Vergerail.Client.Router
import Vergerail.Proof.Handover

/-!
# A notification without a turn is kept once the replay is over

After the acknowledgement a thread-scoped notification without a turn id reaches the
run in one of two phases. While the replay loop still works, `route_event` has a queue
to put it in but no turn to put it under: it answers `IgnoredBeforeTurn`, and
`route_run_event` treats that like a delivery. Once the route is active the event is
handed over at the end of the channel, behind everything the turn was handed, or the
run fails.

So whether the notification leaves a trace depends on the phase and on nothing else.
-/

namespace Vergerail

open Lib

/-! ## What was handed over stays handed over -/

/-- No channel loses or reorders what it was handed. -/
structure RunSlot.SentGrows (slot slot' : RunSlot) : Prop where
  sent : ∀ n, (slot.cells n).events.sent <+: (slot'.cells n).events.sent

section Sent

variable {slot : RunSlot} {route : RunRoute}

theorem sentGrows_of_cells {slot' : RunSlot} (h : slot'.cells = slot.cells) :
    slot.SentGrows slot' := by
  constructor
  intro n
  have hn : slot'.cells n = slot.cells n := congrFun h n
  exact ⟨[], by rw [hn, List.append_nil]⟩

theorem sentGrows_refl (slot : RunSlot) : slot.SentGrows slot :=
  sentGrows_of_cells rfl

/-- One cell changes and keeps what it was handed. -/
theorem sentGrows_update {slot' : RunSlot} {n : Nat} {shared : RunShared}
    (h : slot'.cells = Function.update slot.cells n shared)
    (hs : (slot.cells n).events.sent <+: shared.events.sent) : slot.SentGrows slot' := by
  constructor
  intro m
  rw [h]
  by_cases hm : m = n
  · subst hm
    rw [Function.update_self]
    exact hs
  · exact ⟨[], by rw [Function.update_of_ne hm, List.append_nil]⟩

theorem sentGrows_routeEvent (slot : RunSlot) (observed : Option String) (sourceMethod : String)
    (event : Event) (defer : Bool) (cap : Nat) :
    slot.SentGrows (slot.routeEvent observed sourceMethod event defer cap).2 := by
  cases hroute : slot.route with
  | none =>
      rw [RunSlot.routeEvent_of_none hroute]
      exact sentGrows_refl slot
  | some route =>
      obtain ⟨outcome, route', shared', heq, hspec⟩ :=
        RunSlot.routeEvent_of_route hroute observed sourceMethod event defer cap
      rw [heq]
      have hstore : route'.run = route.run →
          (slot.cells route.run).events.sent <+: shared'.events.sent →
          slot.SentGrows (slot.store route' shared') := by
        intro hrun hsent
        refine sentGrows_update (n := route.run) ?_ hsent
        unfold RunSlot.store
        rw [hrun]
      cases hspec with
      | unowned _ _ _ _ _ hbase => exact hstore hbase.run List.prefix_rfl
      | refusedDelivery _ _ _ _ _ _ hbase _ => exact hstore hbase.run List.prefix_rfl
      | delivered _ _ _ _ _ hbase _ => exact hstore hbase.run (List.prefix_append _ _)
      | _ => exact hstore rfl List.prefix_rfl

/-- The route changes, its cells do not. -/
theorem sentGrows_kept (route : RunRoute) {route' : RunRoute} (h : route'.run = route.run) :
    slot.SentGrows (slot.store route' (slot.cells route.run)) :=
  sentGrows_of_cells (RunSlot.store_cells_same h)

theorem sentGrows_remove {run : Nat} {shared : RunShared}
    (hs : shared.events = (slot.cells run).events) :
    slot.SentGrows { slot.removeRoute run shared with active := false } :=
  sentGrows_update rfl (hs ▸ List.prefix_rfl)

theorem sentGrows_publishTerminal (slot : RunSlot) (route : RunRoute) (turnId : String)
    (result : Result RunResult) : slot.SentGrows (slot.publishTerminal route turnId result) := by
  unfold RunSlot.publishTerminal
  dsimp only
  split
  · exact sentGrows_update (n := route.run) rfl List.prefix_rfl
  · exact sentGrows_update (n := route.run) rfl List.prefix_rfl

theorem sentGrows_routeTerminal (slot : RunSlot) (completion : TurnCompletion) (params : Json)
    (defer : Bool) (cap : Nat) :
    slot.SentGrows (slot.routeTerminal completion params defer cap).2 := by
  cases hroute : slot.route with
  | none =>
      rw [RunSlot.routeTerminal_of_none hroute]
      exact sentGrows_refl slot
  | some route =>
      have hspec := RunSlot.routeTerminal_of_route hroute completion params defer cap
      revert hspec
      generalize slot.routeTerminal completion params defer cap = result
      intro hspec
      obtain ⟨outcome, slot'⟩ := result
      cases hspec with
      | deferred _ _ => exact sentGrows_kept route rfl
      | duplicate _ => exact sentGrows_refl _
      | mismatch _ _ _ => exact sentGrows_refl _
      | mismatchFull _ _ _ _ => exact sentGrows_kept route rfl
      | completed _ _ _ => exact sentGrows_publishTerminal _ route completion.turnId _

theorem sentGrows_failBeforeStart (slot : RunSlot) (error : Error) :
    slot.SentGrows (slot.failBeforeStart error).2 := by
  unfold RunSlot.failBeforeStart
  split
  · exact sentGrows_refl slot
  · rename_i route _
    split
    · exact sentGrows_update (n := route.run) rfl List.prefix_rfl
    · exact sentGrows_refl slot
    · exact sentGrows_refl slot
    · exact sentGrows_refl slot

theorem sentGrows_cancelRegistered (slot : RunSlot) :
    slot.SentGrows slot.cancelRegistered.2 := by
  unfold RunSlot.cancelRegistered
  split
  · exact sentGrows_refl slot
  · rename_i route _
    dsimp only
    split
    · exact sentGrows_remove rfl
    · split
      · exact sentGrows_update (n := route.run) rfl List.prefix_rfl
      · exact sentGrows_remove rfl

theorem sentGrows_failActive (slot : RunSlot) (turnId : String) (control : Nat) (error : Error) :
    slot.SentGrows (slot.failActive turnId control error).2 := by
  unfold RunSlot.failActive
  split
  · exact sentGrows_refl slot
  · rename_i route _
    split
    · exact sentGrows_refl slot
    · exact sentGrows_kept route rfl

theorem sentGrows_failAll (slot : RunSlot) (error : Error) :
    slot.SentGrows (slot.failAll error) := by
  unfold RunSlot.failAll
  split
  · exact sentGrows_refl slot
  · rename_i route _
    refine sentGrows_remove ?_
    split <;> rfl

end Sent

section Steps

variable {env : RunEnv} {w : RunWorld}

/-- No step takes back what a channel was handed. -/
theorem sentGrows_act (w : RunWorld) (label : RunLabel) :
    w.slot.SentGrows (w.act env label).slot := by
  cases label with
  | routeEvent observed sourceMethod event => exact sentGrows_routeEvent ..
  | routeTerminal params =>
      show w.slot.SentGrows (w.routeTerminal env params).slot
      unfold RunWorld.routeTerminal
      split
      · exact sentGrows_refl w.slot
      · exact sentGrows_routeTerminal ..
  | acknowledgeStart turnId =>
      have hspec := acknowledgeStart_spec w turnId
      show w.slot.SentGrows (w.acknowledgeStart turnId).slot
      generalize w.acknowledgeStart turnId = w' at hspec
      cases hspec with
      | refused => exact sentGrows_refl w.slot
      | @replay route _ _ _ => exact sentGrows_kept route rfl
      | completed _ _ _ => exact sentGrows_of_cells rfl
  | replay =>
      have hspec := replayStep_spec env w
      show w.slot.SentGrows (w.replayStep env).slot
      generalize w.replayStep env = w' at hspec
      cases hspec with
      | resting _ => exact sentGrows_refl w.slot
      | event _ => exact sentGrows_routeEvent ..
      | unreadable _ _ => exact sentGrows_refl w.slot
      | terminal _ _ => exact sentGrows_routeTerminal ..
      | @next _ route _ _ _ _ _ => exact sentGrows_kept route rfl
      | @active _ route _ _ _ => exact sentGrows_kept route rfl
      | stopped _ _ => exact sentGrows_refl w.slot
  | failBeforeStart error => exact sentGrows_failBeforeStart ..
  | cancelRegistered => exact sentGrows_cancelRegistered w.slot
  | failActive turnId error => exact sentGrows_failActive ..
  | failAll error => exact sentGrows_failAll ..
  | activeTurn => exact sentGrows_refl w.slot
  | recv =>
      refine sentGrows_update (n := 0) rfl ?_
      show w.shared.events.sent <+: w.shared.events.recv.sent
      exact ⟨[], by rw [Mpsc.recv_sent, List.append_nil]⟩

/-- What the run was handed is the beginning of what it will have been handed. -/
theorem sent_prefix_runFrom (w : RunWorld) (labels : List RunLabel) :
    w.shared.events.sent <+: ((runMachine env).runFrom w labels).shared.events.sent := by
  induction labels generalizing w with
  | nil => exact List.prefix_rfl
  | cons label labels ih => exact ((sentGrows_act w label).sent 0).trans (ih _)

/-! ## The notification -/

/-- The event is handed over once: behind all that the turn was handed, with nothing left
waiting that could overtake it or bring it again, and for good. -/
structure HandedInOrder (env : RunEnv) (turnId : String) (w w' : RunWorld) (event : Event) :
    Prop where
  before : w.handedAndWaiting turnId = w.shared.events.sent
  appended : w'.shared.events.sent = w.shared.events.sent ++ [event]
  after : w'.handedAndWaiting turnId = w'.shared.events.sent
  kept : ∀ labels,
    w'.shared.events.sent <+: ((runMachine env).runFrom w' labels).shared.events.sent

/-- A notification without a turn is handed over, leaves a diagnostic, or fails the run. -/
def Accounted (env : RunEnv) (turnId : String) (w : RunWorld) (sourceMethod : String)
    (event : Event) : Prop :=
  HandedInOrder env turnId w (w.act env (.routeEvent none sourceMethod event)) event
  ∨ (runEventDiagnostic env.threadId sourceMethod
      (w.slot.routeEvent none sourceMethod event true env.eventCapacity).1).isSome = true
  ∨ ∃ route, (w.act env (.routeEvent none sourceMethod event)).slot.route = some route
      ∧ route.pendingFailure.isSome = true

variable {turnId : String}

/-- An acknowledged run that is undisturbed is in one of the two phases. -/
theorem Undisturbed.phase (hu : Undisturbed turnId w) (hw : ShapeInv w)
    (hacc : w.accepted = some turnId) :
    ∃ route, w.slot.route = some route
      ∧ ((∃ queue, route.phase = .replaying turnId queue) ∨ route.phase = .active turnId) := by
  obtain ⟨route, hroute, hlive⟩ := hu.route hw
  have hturn := (hw.stage_of hroute).turn_of_live hlive
  rw [hacc] at hturn
  refine ⟨route, hroute, ?_⟩
  cases hphase : route.phase with
  | starting _ => rw [hphase] at hturn; cases hturn
  | replaying turn queue => rw [hphase] at hturn; cases hturn; exact Or.inl ⟨queue, rfl⟩
  | active turn => rw [hphase] at hturn; cases hturn; exact Or.inr rfl
  | terminalBeforeStart _ => rw [hphase] at hlive; cases hlive

/-- During the replay the notification leaves no trace. -/
theorem not_accounted_of_replaying (hu : Undisturbed turnId w) {route : RunRoute}
    (hroute : w.slot.route = some route) {queue : List DeferredRunNotification}
    (hphase : route.phase = .replaying turnId queue) (sourceMethod : String) (event : Event) :
    ¬ Accounted env turnId w sourceMethod event := by
  have hp := hu.noFailure route hroute
  have hrouted : w.slot.routeEvent none sourceMethod event true env.eventCapacity
      = (.ignoredBeforeTurn, w.slot) := by
    unfold RunSlot.routeEvent
    rw [hroute]
    unfold RunRoute.routeEvent
    have hq : route.phase.deferred = some queue := by rw [hphase]; rfl
    simp only [hp, Option.isSome_none, Bool.false_eq_true, if_false, if_true, hq,
      RunSlot.store_self hroute]
  have hslot : (w.act env (.routeEvent none sourceMethod event)).slot = w.slot :=
    congrArg Prod.snd hrouted
  rintro (hhanded | hdiagnostic | ⟨route', hroute', hfailed⟩)
  · have happended := hhanded.appended
    unfold RunWorld.shared at happended
    rw [hslot] at happended
    exact List.cons_ne_nil _ _ (List.self_eq_append_right.mp happended)
  · rw [hrouted] at hdiagnostic
    cases hdiagnostic
  · rw [hslot] at hroute'
    rw [hu.noFailure route' hroute'] at hfailed
    cases hfailed

/-- Once the route is active the notification is handed over or fails the run. -/
theorem accounted_of_active (hu : Undisturbed turnId w) (hw : ShapeInv w) {route : RunRoute}
    (hroute : w.slot.route = some route) (hphase : route.phase = .active turnId)
    (sourceMethod : String) (event : Event) : Accounted env turnId w sourceMethod event := by
  have hlive : route.phase.isTerminal = false := by rw [hphase]; rfl
  have hnone : route.phase.deferred = none := by rw [hphase]; rfl
  have hturn : route.phase.turnId = some turnId := by rw [hphase]; rfl
  obtain ⟨_, hbatch⟩ := hw.batch_of_active hroute hlive hnone
  have hzero := hw.owner route hroute
  obtain ⟨outcome, route', shared', heq, hspec⟩ :=
    RunSlot.routeEvent_of_route hroute none sourceMethod event true env.eventCapacity
  rw [if_pos rfl, hnone] at hspec
  have hslot : (w.act env (.routeEvent none sourceMethod event)).slot
      = w.slot.store route' shared' := congrArg Prod.snd heq
  cases hspec with
  | afterFailure hsome => rw [hu.noFailure route hroute] at hsome; cases hsome
  | beforeTurn hq _ => cases hq
  | refusedDeferral _ hq _ _ => cases hq
  | deferred _ hq _ _ => cases hq
  | mismatch _ _ hobserved _ => cases hobserved
  | afterTerminal _ hended => rw [hlive] at hended; cases hended
  | afterAbandon _ habandoned =>
      rw [hzero] at habandoned
      exact absurd (hu.kept.symm.trans habandoned) (by decide)
  | unowned _ _ hunowned _ _ _ => rw [hturn] at hunowned; cases hunowned
  | refusedDelivery _ _ _ _ _ _ _ _ =>
      exact Or.inr (Or.inr ⟨_, by rw [hslot]; rfl, rfl⟩)
  | delivered _ _ _ _ _ hbase _ =>
      have hqueue : w.queue = [] := by rw [queue_of_route hroute, hnone]; rfl
      have hqueue' : (w.act env (.routeEvent none sourceMethod event)).queue = [] := by
        rw [queue_of_route (by rw [hslot]; rfl), hbase.phase, hnone]
        rfl
      have hbatch' : (w.act env (.routeEvent none sourceMethod event)).replay.batch = [] := hbatch
      refine Or.inl ⟨?_, ?_, ?_, fun labels => sent_prefix_runFrom _ labels⟩
      · unfold RunWorld.handedAndWaiting
        rw [hbatch, hqueue]
        simp
      · unfold RunWorld.shared
        rw [hslot, RunSlot.store_cells_of_eq _ (hbase.run.trans hzero), hzero]
      · unfold RunWorld.handedAndWaiting
        rw [hbatch', hqueue']
        simp

end Steps

/--
**A notification without a turn is kept exactly once the replay is over.** In every
state of every run that was acknowledged for a turn and is undisturbed: a notification
without a turn id that the router routes to the run is handed over in order and once,
leaves a diagnostic or fails the run, if and only if the route is active.
-/
theorem turnless_event_accounted_iff {env : RunEnv} {turnId : String} {w : RunWorld}
    (h : (runMachine env).Reachable Machine.Free w) (hacc : w.accepted = some turnId)
    (hu : Undisturbed turnId w) (sourceMethod : String) (event : Event) :
    Accounted env turnId w sourceMethod event
      ↔ ∃ route, w.slot.route = some route ∧ route.phase = .active turnId := by
  have hw : ShapeInv w := shapeInv_reachable h
  obtain ⟨route, hroute, ⟨queue, hphase⟩ | hphase⟩ := hu.phase hw hacc
  · constructor
    · intro haccounted
      exact absurd haccounted (not_accounted_of_replaying hu hroute hphase sourceMethod event)
    · rintro ⟨route', hroute', hactive⟩
      rw [hroute] at hroute'
      cases hroute'
      rw [hphase] at hactive
      cases hactive
  · constructor
    · intro _
      exact ⟨route, hroute, hphase⟩
    · intro _
      exact accounted_of_active hu hw hroute hphase sourceMethod event

/-- A warning that arrives once the replay loop has returned. -/
theorem turnless_event_accounted_active :
    Accounted RunEnv.tight "turn"
      ((runMachine RunEnv.tight).run [.acknowledgeStart "turn", .replay]) "warning"
      (.warning "slow") := by
  have hreach : (runMachine RunEnv.tight).Reachable Machine.Free
      ((runMachine RunEnv.tight).run [.acknowledgeStart "turn", .replay]) :=
    Machine.reachable_run _
  refine (turnless_event_accounted_iff hreach rfl ?_ "warning" (.warning "slow")).mpr
    ⟨_, rfl, rfl⟩
  refine ⟨?_, rfl, rfl, ?_⟩
  · intro route hroute
    cases hroute; rfl
  · intro other hother
    cases hother; rfl

/-- A warning that arrives while the replay loop works is dropped without a trace. -/
theorem turnless_event_swallowed :
    ¬ ∀ (env : RunEnv) (labels : List RunLabel) (turnId sourceMethod : String) (event : Event),
      let w := (runMachine env).run labels
      Turnless env.redactLine env.threadId sourceMethod event →
        w.accepted = some turnId → Undisturbed turnId w →
        Accounted env turnId w sourceMethod event := by
  intro hall
  have hu : Undisturbed "turn" ((runMachine RunEnv.tight).run [.acknowledgeStart "turn"]) := by
    refine ⟨?_, rfl, rfl, ?_⟩
    · intro route hroute
      cases hroute; rfl
    · intro other hother
      cases hother; rfl
  exact not_accounted_of_replaying hu rfl rfl "warning" (.warning "slow")
    (hall RunEnv.tight [.acknowledgeStart "turn"] "turn" "warning" (.warning "slow")
      (@Turnless.warning _ _
        (.object [("threadId", .string "thread"), ("message", .string "slow")]) _ _ rfl) rfl hu)

end Vergerail
