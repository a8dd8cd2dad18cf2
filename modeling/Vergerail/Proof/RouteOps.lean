import Vergerail.Lib.Upsert
import Vergerail.Session.RunWorld

/-!
# What one registry operation can do

One inversion lemma per operation of `RunRegistry`, guards included. Every
invariant below is proved from these; nothing else unfolds `routeEvent` or
`routeTerminal`.
-/

namespace Vergerail

open Lib

/-! ## The retained output -/

/-- What a run has retained of its turn. -/
structure RetainedOutput where
  text : String
  usage : Option Usage
  imageGenerations : List ImageGeneration
  deriving DecidableEq

/-- What an event adds to the retained output. -/
def RetainedOutput.add (self : RetainedOutput) : Event → RetainedOutput
  | .textDelta delta => { self with text := self.text ++ delta }
  | .usageUpdated usage => { self with usage := some usage }
  | .imageGeneration image =>
      { self with imageGenerations := upsert (·.id) self.imageGenerations image }
  | _ => self

namespace RunRoute

/-- The retained output of a route. -/
def output (self : RunRoute) : RetainedOutput := ⟨self.text, self.usage, self.imageGenerations⟩

/-- Two routes differ in nothing but what they retained. -/
structure SameButOutput (a b : RunRoute) : Prop where
  run : b.run = a.run
  phase : b.phase = a.phase
  pendingFailure : b.pendingFailure = a.pendingFailure
  maximumOutputBytes : b.maximumOutputBytes = a.maximumOutputBytes
  deferredImageBytes : b.deferredImageBytes = a.deferredImageBytes
  deferredImageBytesById : b.deferredImageBytesById = a.deferredImageBytesById

theorem SameButOutput.refl (self : RunRoute) : SameButOutput self self :=
  ⟨rfl, rfl, rfl, rfl, rfl, rfl⟩

/-- An accepted event adds itself to the retained output and touches nothing else. -/
theorem retainOutput_ok {self retained : RunRoute} {event : Event} {cap : Nat}
    (h : self.retainOutput event cap = .ok retained) :
    retained.output = self.output.add event ∧ SameButOutput self retained := by
  unfold retainOutput at h
  split at h
  · split at h
    · exact absurd h (by simp)
    · split at h
      · exact absurd h (by simp)
      · injection h with h; subst h
        exact ⟨rfl, ⟨rfl, rfl, rfl, rfl, rfl, rfl⟩⟩
  · injection h with h; subst h
    exact ⟨rfl, ⟨rfl, rfl, rfl, rfl, rfl, rfl⟩⟩
  · split at h
    · exact absurd h (by simp)
    · dsimp only at h
      split at h
      · exact absurd h (by simp)
      · split at h
        · exact absurd h (by simp)
        · split at h
          · exact absurd h (by simp)
          · injection h with h; subst h
            exact ⟨rfl, ⟨rfl, rfl, rfl, rfl, rfl, rfl⟩⟩
  · rename_i hText hUsage hImage
    injection h with h; subst h
    refine ⟨?_, .refl self⟩
    cases event with
    | textDelta delta => exact absurd rfl (hText delta)
    | usageUpdated usage => exact absurd rfl (hUsage usage)
    | imageGeneration image => exact absurd rfl (hImage image)
    | _ => rfl

/-- Charging an image touches only the accounting of the waiting images. -/
theorem chargeDeferredImage_ok {self charged : RunRoute} {event : Event}
    (h : self.chargeDeferredImage event = .ok charged) :
    ∃ bytes byId, charged = { self with
      deferredImageBytes := bytes, deferredImageBytesById := byId } := by
  unfold chargeDeferredImage at h
  split at h
  · split at h
    · exact absurd h (by simp)
    · dsimp only at h
      split at h
      · exact absurd h (by simp)
      · split at h
        · exact absurd h (by simp)
        · injection h with h
          exact ⟨_, _, h.symm⟩
  · injection h with h
    exact ⟨_, _, h.symm⟩

theorem recordFailure_of_none {self : RunRoute} (h : self.pendingFailure = none)
    (turnId : String) (error : Error) :
    self.recordFailure turnId error = (.routeFailure turnId self.run, self.failed error) := by
  unfold recordFailure; rw [h]; rfl

@[simp] theorem failed_run (self : RunRoute) (error : Error) :
    (self.failed error).run = self.run := rfl

@[simp] theorem failed_phase (self : RunRoute) (error : Error) :
    (self.failed error).phase = self.phase.setDeferred [] := rfl

@[simp] theorem failed_pendingFailure (self : RunRoute) (error : Error) :
    (self.failed error).pendingFailure = some error := rfl

/-! ## When an event is refused -/

/-- The image still fits the pre-acknowledgement byte limit. -/
def FitsDeferredImages (self : RunRoute) (image : ImageGeneration) : Prop :=
  ∃ bytes total, image.retainedBytes = some bytes
    ∧ (checkedSub self.deferredImageBytes
        ((self.deferredImageBytesById.lookup image.id).getD 0)).bind
          (fun rest => checkedAdd rest bytes) = some total
    ∧ total ≤ self.maximumOutputBytes

/-- An event that cannot wait: the byte limit or the length of the queue forbids it. -/
def RefusesDeferral (self : RunRoute) (event : Event) (queue : List DeferredRunNotification)
    (cap : Nat) : Prop :=
  (∃ image, event.image = some image ∧ ¬ self.FitsDeferredImages image)
    ∨ cap ≤ (retainOtherImages event queue).length

/-- An event that cannot be delivered: a limit of the retained output or the channel forbids it. -/
def RefusesDelivery (self : RunRoute) (shared : RunShared) (event : Event) (cap : Nat) : Prop :=
  (∀ retained, self.retainOutput event cap ≠ .ok retained)
    ∨ shared.events.closed = true ∨ shared.events.capacity ≤ shared.events.waiting.length

theorem chargeDeferredImage_error {self : RunRoute} {event : Event} {error : Error}
    (h : self.chargeDeferredImage event = .error error) :
    ∃ image, event.image = some image ∧ ¬ self.FitsDeferredImages image := by
  unfold chargeDeferredImage at h
  split at h
  · rename_i image
    refine ⟨image, rfl, ?_⟩
    rintro ⟨bytes, total, hbytes, htotal, hle⟩
    rw [hbytes] at h
    dsimp only at h
    rw [htotal] at h
    dsimp only at h
    rw [if_neg (by omega)] at h
    exact absurd h (by simp)
  · exact absurd h (by simp)

/-- An image that was charged fits. -/
theorem chargeDeferredImage_fits {self charged : RunRoute} {event : Event}
    (h : self.chargeDeferredImage event = .ok charged) :
    ∀ image, event.image = some image → self.FitsDeferredImages image := by
  intro image himage
  unfold chargeDeferredImage at h
  split at h
  · cases himage
    split at h
    · exact absurd h (by simp)
    · rename_i bytes hbytes
      dsimp only at h
      split at h
      · exact absurd h (by simp)
      · rename_i total htotal
        split at h
        · exact absurd h (by simp)
        · rename_i hle
          exact ⟨bytes, total, hbytes, htotal, Nat.le_of_not_lt hle⟩
  · rename_i hother
    cases event with
    | imageGeneration image' => exact absurd rfl (hother image')
    | _ => cases himage

/-! ## Routing an event -/

/-- The run's own turn does not rule out the observed one. -/
def SameTurn (observed expected : Option String) : Prop :=
  ∀ o e, observed = some o → expected = some e → e = o

/--
What `RunRoute::route_event` can do. `queue` is the deferred queue the event
would wait in, `none` when it is delivered at once.
-/
inductive RouteEventSpec (self : RunRoute) (shared : RunShared) (observed : Option String)
    (sourceMethod : String) (event : Event) (queue : Option (List DeferredRunNotification))
    (cap : Nat) : RunEventOutcome → RunRoute → RunShared → Prop where
  | afterFailure : self.pendingFailure.isSome →
      RouteEventSpec self shared observed sourceMethod event queue cap
        .ignoredAfterFailure self shared
  | beforeTurn {waiting : List DeferredRunNotification} : queue = some waiting →
      observed = none → RouteEventSpec self shared observed sourceMethod event queue cap
        .ignoredBeforeTurn self shared
  | refusedDeferral {waiting : List DeferredRunNotification} {turnId : String} {error : Error} :
      self.pendingFailure = none → queue = some waiting → observed = some turnId →
      self.RefusesDeferral event waiting cap →
      RouteEventSpec self shared observed sourceMethod event queue cap
        (.routeFailure turnId self.run) (self.failed error) shared
  | deferred {waiting : List DeferredRunNotification} {turnId : String}
      {bytes : Nat} {byId : AList (fun _ : String => Nat)} :
      self.pendingFailure = none → queue = some waiting → observed = some turnId →
      ¬ self.RefusesDeferral event waiting cap →
      RouteEventSpec self shared observed sourceMethod event queue cap .deferred
        { self with
          phase := self.phase.setDeferred
            (retainOtherImages event waiting ++ [.event turnId sourceMethod event])
          deferredImageBytes := bytes
          deferredImageBytesById := byId } shared
  | mismatch {expected turnId : String} : queue = none → self.phase.turnId = some expected →
      observed = some turnId → expected ≠ turnId →
      RouteEventSpec self shared observed sourceMethod event queue cap
        (.turnMismatch expected turnId) self shared
  | afterTerminal : queue = none → self.phase.isTerminal = true →
      RouteEventSpec self shared observed sourceMethod event queue cap .afterTerminal self shared
  | afterAbandon : queue = none → shared.abandoned = true →
      RouteEventSpec self shared observed sourceMethod event queue cap
        .ignoredAfterAbandon self shared
  | unowned {base : RunRoute} : queue = none → observed = none → self.phase.turnId = none →
      self.pendingFailure = none → self.phase.isTerminal = false → SameButOutput self base →
      RouteEventSpec self shared observed sourceMethod event queue cap .afterTerminal base shared
  | refusedDelivery {base : RunRoute} {turnId : String} {error : Error} :
      self.pendingFailure = none → queue = none → self.phase.isTerminal = false →
      shared.abandoned = false → SameTurn observed self.phase.turnId →
      self.phase.turnId.or observed = some turnId → SameButOutput self base →
      self.RefusesDelivery shared event cap →
      RouteEventSpec self shared observed sourceMethod event queue cap
        (.routeFailure turnId self.run) (base.failed error) shared
  | delivered {retained : RunRoute} :
      self.pendingFailure = none → queue = none → self.phase.isTerminal = false →
      shared.abandoned = false → SameTurn observed self.phase.turnId →
      SameButOutput self retained → retained.output = self.output.add event →
      RouteEventSpec self shared observed sourceMethod event queue cap .delivered retained
        { shared with events := { shared.events with sent := shared.events.sent ++ [event] } }

/-- A failed delivery either fails a turn or, with no turn in sight, is dropped. -/
theorem failTurn_spec {self base : RunRoute} {shared : RunShared} {observed : Option String}
    {sourceMethod : String} {event : Event} {cap : Nat} {error : Error}
    (hp : self.pendingFailure = none) (ht : self.phase.isTerminal = false)
    (ha : shared.abandoned = false) (hs : SameTurn observed self.phase.turnId)
    (hb : SameButOutput self base) (hr : self.RefusesDelivery shared event cap) :
    RouteEventSpec self shared observed sourceMethod event none cap
      (base.failTurn observed error).1 (base.failTurn observed error).2 shared := by
  unfold failTurn
  rw [hb.phase]
  cases hturn : self.phase.turnId.or observed with
  | none =>
      obtain ⟨h1, h2⟩ := Option.or_eq_none_iff.mp hturn
      exact .unowned rfl h2 h1 hp ht hb
  | some turnId =>
      dsimp only
      rw [recordFailure_of_none (hb.pendingFailure.trans hp), hb.run]
      exact .refusedDelivery hp rfl ht ha hs hturn hb hr

theorem deliver_spec {self : RunRoute} {shared : RunShared} {observed : Option String}
    {sourceMethod : String} {event : Event} {cap : Nat}
    (hs : SameTurn observed self.phase.turnId) :
    RouteEventSpec self shared observed sourceMethod event none cap
      (routeEventAfterStart.deliver self shared event cap observed).1
      (routeEventAfterStart.deliver self shared event cap observed).2.1
      (routeEventAfterStart.deliver self shared event cap observed).2.2 := by
  unfold routeEventAfterStart.deliver
  split
  · exact .afterTerminal rfl ‹_›
  · rename_i ht
    split
    · exact .afterFailure ‹_›
    · rename_i hp
      have hp' : self.pendingFailure = none := by simpa using hp
      have ht' : self.phase.isTerminal = false := by simpa using ht
      split
      · exact .afterAbandon rfl ‹_›
      · rename_i ha
        have ha' : shared.abandoned = false := by simpa using ha
        cases hret : self.retainOutput event cap with
        | error error =>
            refine failTurn_spec hp' ht' ha' hs (.refl self) (Or.inl ?_)
            intro retained h
            rw [hret] at h; exact absurd h (by simp)
        | ok retained =>
            obtain ⟨hout, hsame⟩ := retainOutput_ok hret
            dsimp only
            unfold Mpsc.trySend
            split
            · rename_i hsend
              split at hsend
              · exact absurd hsend (by simp)
              · split at hsend
                · exact absurd hsend (by simp)
                · injection hsend with _ hsend; subst hsend
                  exact .delivered hp' rfl ht' ha' hs hsame hout
            · rename_i hsend
              refine failTurn_spec hp' ht' ha' hs hsame (Or.inr (Or.inr ?_))
              split at hsend
              · exact absurd hsend (by simp)
              · split at hsend
                · assumption
                · exact absurd hsend (by simp)
            · rename_i hsend
              refine failTurn_spec hp' ht' ha' hs hsame (Or.inr (Or.inl ?_))
              split at hsend
              · assumption
              · split at hsend <;> exact absurd hsend (by simp)

theorem routeEventAfterStart_spec (self : RunRoute) (shared : RunShared)
    (observed : Option String) (sourceMethod : String) (event : Event) (cap : Nat) :
    RouteEventSpec self shared observed sourceMethod event none cap
      (self.routeEventAfterStart shared observed event cap).1
      (self.routeEventAfterStart shared observed event cap).2.1
      (self.routeEventAfterStart shared observed event cap).2.2 := by
  unfold routeEventAfterStart
  split
  · rename_i turnId expected hturn
    split
    · exact .mismatch rfl hturn rfl ‹_›
    · rename_i hne
      refine deliver_spec ?_
      intro o e ho he
      rw [hturn] at he
      cases ho; cases he
      exact Classical.not_not.mp hne
  · rename_i hnone
    refine deliver_spec ?_
    intro o e ho he
    exact absurd he (hnone o e ho)

theorem pushDeferred_spec {self charged : RunRoute} {shared : RunShared} {turnId : String}
    {sourceMethod : String} {event : Event} {waiting : List DeferredRunNotification} {cap : Nat}
    (hp : self.pendingFailure = none) (hc : self.chargeDeferredImage event = .ok charged) :
    RouteEventSpec self shared (some turnId) sourceMethod event (some waiting) cap
      (charged.pushDeferred turnId sourceMethod event waiting cap).1
      (charged.pushDeferred turnId sourceMethod event waiting cap).2 shared := by
  have hfits := chargeDeferredImage_fits hc
  obtain ⟨bytes, byId, rfl⟩ := chargeDeferredImage_ok hc
  unfold pushDeferred
  dsimp only
  split
  · rename_i hfull
    rw [recordFailure_of_none (by exact hp)]
    have hphase : ∀ q, (self.phase.setDeferred q).setDeferred [] = self.phase.setDeferred [] := by
      intro q; cases self.phase <;> rfl
    have hrefused : RouteEventSpec self shared (some turnId) sourceMethod event (some waiting) cap
        (.routeFailure turnId self.run) (self.failed (Error.new .consumerLagged "run.events"
          "bounded pre-acknowledgement event queue is full; the turn will be interrupted"))
        shared := .refusedDeferral hp rfl rfl (Or.inr hfull)
    simpa only [failed, clearDeferredImageBytes, hphase] using hrefused
  · rename_i hroom
    refine .deferred hp rfl rfl ?_
    rintro (⟨image, himage, hnot⟩ | hfull)
    · exact hnot (hfits image himage)
    · exact hroom hfull

/-- **Routing an event does one of the things `RouteEventSpec` lists.** -/
theorem routeEvent_spec (self : RunRoute) (shared : RunShared) (observed : Option String)
    (sourceMethod : String) (event : Event) (defer : Bool) (cap : Nat) :
    RouteEventSpec self shared observed sourceMethod event
      (if defer then self.phase.deferred else none) cap
      (self.routeEvent shared observed sourceMethod event defer cap).1
      (self.routeEvent shared observed sourceMethod event defer cap).2.1
      (self.routeEvent shared observed sourceMethod event defer cap).2.2 := by
  unfold routeEvent
  generalize (if defer then self.phase.deferred else none) = queue
  by_cases hp : self.pendingFailure.isSome = true
  · rw [if_pos hp]
    exact .afterFailure hp
  · rw [if_neg hp]
    have hp' : self.pendingFailure = none := by simpa using hp
    cases queue with
    | none => exact routeEventAfterStart_spec self shared observed sourceMethod event cap
    | some waiting =>
        cases observed with
        | none => exact .beforeTurn rfl rfl
        | some turnId =>
            dsimp only
            cases hc : self.chargeDeferredImage event with
            | error error =>
                dsimp only
                rw [recordFailure_of_none hp']
                exact .refusedDeferral hp' rfl rfl (Or.inl (chargeDeferredImage_error hc))
            | ok charged => exact pushDeferred_spec hp' hc

/-- Routing an event leaves a route as it was, or keeps the turn and the end of a live one. -/
theorem RouteEventSpec.kept {self route' : RunRoute} {shared shared' : RunShared}
    {observed : Option String} {sourceMethod : String} {event : Event}
    {queue : Option (List DeferredRunNotification)} {cap : Nat} {outcome : RunEventOutcome}
    (hq : ∀ waiting, queue = some waiting → self.phase.deferred = some waiting)
    (h : RouteEventSpec self shared observed sourceMethod event queue cap outcome route' shared') :
    (route' = self ∧ shared' = shared)
      ∨ (self.phase.isTerminal = false ∧ self.pendingFailure = none ∧ route'.run = self.run
        ∧ (∃ queue', route'.phase = self.phase.setDeferred queue')
        ∧ shared'.terminal = shared.terminal ∧ shared'.control = shared.control) := by
  have hsame : ∃ queue', self.phase = self.phase.setDeferred queue' := by
    cases self.phase with
    | starting waiting => exact ⟨waiting, rfl⟩
    | replaying _ waiting => exact ⟨waiting, rfl⟩
    | active _ => exact ⟨[], rfl⟩
    | terminalBeforeStart _ => exact ⟨[], rfl⟩
  cases h with
  | afterFailure _ => exact Or.inl ⟨rfl, rfl⟩
  | beforeTurn _ _ => exact Or.inl ⟨rfl, rfl⟩
  | mismatch _ _ _ _ => exact Or.inl ⟨rfl, rfl⟩
  | afterTerminal _ _ => exact Or.inl ⟨rfl, rfl⟩
  | afterAbandon _ _ => exact Or.inl ⟨rfl, rfl⟩
  | refusedDeferral hp hqueue _ _ =>
      have ht := RunPhase.isTerminal_of_deferred (hq _ hqueue)
      exact Or.inr ⟨ht, hp, rfl, ⟨_, rfl⟩, rfl, rfl⟩
  | deferred hp hqueue _ _ =>
      have ht := RunPhase.isTerminal_of_deferred (hq _ hqueue)
      exact Or.inr ⟨ht, hp, rfl, ⟨_, rfl⟩, rfl, rfl⟩
  | unowned _ _ _ hp ht hbase =>
      refine Or.inr ⟨ht, hp, hbase.run, ?_, rfl, rfl⟩
      rw [hbase.phase]; exact hsame
  | refusedDelivery hp _ ht _ _ _ hbase _ =>
      refine Or.inr ⟨ht, hp, hbase.run, ⟨[], ?_⟩, rfl, rfl⟩
      rw [failed_phase, hbase.phase]
  | delivered hp _ ht _ _ hbase _ =>
      refine Or.inr ⟨ht, hp, hbase.run, ?_, rfl, rfl⟩
      rw [hbase.phase]; exact hsame

end RunRoute

/-! ## The entry of a thread -/

namespace RunSlot

variable {slot : RunSlot} {route : RunRoute}

/-- Writing back what was read changes nothing. -/
theorem store_self (h : slot.route = some route) :
    slot.store route (slot.cells route.run) = slot := by
  unfold store
  rw [Function.update_eq_self, ← h]

@[simp] theorem store_route (slot : RunSlot) (route : RunRoute) (shared : RunShared) :
    (slot.store route shared).route = some route := rfl

@[simp] theorem store_active (slot : RunSlot) (route : RunRoute) (shared : RunShared) :
    (slot.store route shared).active = slot.active := rfl

@[simp] theorem store_registered (slot : RunSlot) (route : RunRoute) (shared : RunShared) :
    (slot.store route shared).registered = slot.registered := rfl

@[simp] theorem store_threadId (slot : RunSlot) (route : RunRoute) (shared : RunShared) :
    (slot.store route shared).threadId = slot.threadId := rfl

@[simp] theorem store_cells_self (slot : RunSlot) (route : RunRoute) (shared : RunShared) :
    (slot.store route shared).cells route.run = shared := Function.update_self ..

theorem store_cells_of_ne (slot : RunSlot) (route : RunRoute) (shared : RunShared) {n : Nat}
    (h : n ≠ route.run) : (slot.store route shared).cells n = slot.cells n :=
  Function.update_of_ne h ..

theorem store_cells_of_eq (slot : RunSlot) {route : RunRoute} {n : Nat} (h : route.run = n)
    (shared : RunShared) : (slot.store route shared).cells n = shared := by
  rw [← h]; exact store_cells_self ..

/-- Writing back a changed route with the cells as they were changes no cell. -/
theorem store_cells_same {route' : RunRoute} (h : route'.run = route.run) :
    (slot.store route' (slot.cells route.run)).cells = slot.cells := by
  unfold store
  rw [h]
  exact Function.update_eq_self ..

@[simp] theorem removeRoute_route (slot : RunSlot) (run : Nat) (shared : RunShared) :
    (slot.removeRoute run shared).route = none := rfl

@[simp] theorem removeRoute_cells_self (slot : RunSlot) (run : Nat) (shared : RunShared) :
    (slot.removeRoute run shared).cells run = shared := Function.update_self ..

@[simp] theorem removeRoute_registered (slot : RunSlot) (run : Nat) (shared : RunShared) :
    (slot.removeRoute run shared).registered = slot.registered := rfl

@[simp] theorem removeRoute_threadId (slot : RunSlot) (run : Nat) (shared : RunShared) :
    (slot.removeRoute run shared).threadId = slot.threadId := rfl

/-- Routing an event on a thread with a route routes it on the route. -/
theorem routeEvent_of_route (h : slot.route = some route) (observed : Option String)
    (sourceMethod : String) (event : Event) (defer : Bool) (cap : Nat) :
    ∃ outcome route' shared',
      slot.routeEvent observed sourceMethod event defer cap
        = (outcome, slot.store route' shared')
      ∧ RunRoute.RouteEventSpec route (slot.cells route.run) observed sourceMethod event
          (if defer then route.phase.deferred else none) cap outcome route' shared' := by
  refine ⟨_, _, _, ?_, route.routeEvent_spec (slot.cells route.run) observed sourceMethod event
    defer cap⟩
  unfold routeEvent; rw [h]

theorem routeEvent_of_none (h : slot.route = none) (observed : Option String)
    (sourceMethod : String) (event : Event) (defer : Bool) (cap : Nat) :
    slot.routeEvent observed sourceMethod event defer cap = (.unregistered, slot) := by
  unfold routeEvent; rw [h]

/--
What `route_terminal` can do to a thread with a route. `queue` is the deferred
queue the terminal would wait in, `none` when it is settled at once.
-/
inductive RouteTerminalSpec (slot : RunSlot) (route : RunRoute) (completion : TurnCompletion)
    (params : Json) (queue : Option (List DeferredRunNotification)) (cap : Nat) :
    TerminalRouteOutcome → RunSlot → Prop where
  | deferred {waiting : List DeferredRunNotification} : queue = some waiting →
      waiting.length < cap → RouteTerminalSpec slot route completion params queue cap .deferred
        (slot.store { route with
          phase := route.phase.setDeferred (waiting ++ [.terminal params]) }
          (slot.cells route.run))
  | duplicate : route.phase.isTerminal = true →
      RouteTerminalSpec slot route completion params queue cap
        (.duplicate completion.turnId) slot
  | mismatch {expected : String} : queue = none → route.phase.turnId = some expected →
      expected ≠ completion.turnId → RouteTerminalSpec slot route completion params queue cap
        (.turnMismatch expected completion.turnId) slot
  | mismatchFull {waiting : List DeferredRunNotification} {expected : String} :
      queue = some waiting → cap ≤ waiting.length → route.phase.turnId = some expected →
      expected ≠ completion.turnId → RouteTerminalSpec slot route completion params queue cap
        (.turnMismatch expected completion.turnId)
        (slot.store { route with phase := route.phase.setDeferred [] } (slot.cells route.run))
  | completed {queueFailure : Option Error} : route.phase.isTerminal = false →
      (∀ expected, route.phase.turnId = some expected → expected = completion.turnId) →
      (queueFailure = none ↔ queue = none) →
      RouteTerminalSpec slot route completion params queue cap .completed
        (slot.publishTerminal route completion.turnId
          (slot.terminalResult route queueFailure completion))

theorem publishTerminal_setDeferred (slot : RunSlot) (route : RunRoute)
    (queue : List DeferredRunNotification) (turnId : String) (result : Result RunResult) :
    slot.publishTerminal { route with phase := route.phase.setDeferred queue } turnId result
      = slot.publishTerminal route turnId result := by
  unfold publishTerminal
  cases route.phase <;> rfl

/-- A route that a publication leaves in the map has ended. -/
theorem publishTerminal_ended {turnId : String} {result : Result RunResult} {route' : RunRoute}
    (h : (slot.publishTerminal route turnId result).route = some route') :
    route'.phase.isTerminal = true := by
  unfold publishTerminal at h
  dsimp only at h
  split at h
  · cases h; rfl
  · cases h

/-- **Routing a terminal does one of the things `RouteTerminalSpec` lists.** -/
theorem routeTerminal_of_route (h : slot.route = some route) (completion : TurnCompletion)
    (params : Json) (defer : Bool) (cap : Nat) :
    RouteTerminalSpec slot route completion params
      (if defer && route.pendingFailure.isNone then route.phase.deferred else none) cap
      (slot.routeTerminal completion params defer cap).1
      (slot.routeTerminal completion params defer cap).2 := by
  unfold routeTerminal
  rw [h]
  dsimp only
  cases hq : (if defer && route.pendingFailure.isNone then route.phase.deferred else none) with
  | none =>
      dsimp only
      unfold settleTerminal
      dsimp only
      split
      · rw [store_self h]; exact .duplicate ‹_›
      · rename_i ht
        have ht' : route.phase.isTerminal = false := by simpa using ht
        split
        · rename_i expected hturn
          split
          · rw [store_self h]; exact .mismatch rfl hturn ‹_›
          · rename_i hne
            refine .completed ht' ?_ (by simp)
            intro e he
            rw [hturn] at he; cases he
            exact Classical.not_not.mp hne
        · rename_i hturn
          refine .completed ht' ?_ (by simp)
          intro e he
          rw [hturn] at he; cases he
  | some waiting =>
      dsimp only
      have hdef : route.phase.deferred = some waiting := by
        split at hq
        · exact hq
        · exact absurd hq (by simp)
      split
      · exact .deferred rfl ‹_›
      · rename_i hfull
        have hfull' : cap ≤ waiting.length := Nat.le_of_not_lt hfull
        have ht' := RunPhase.isTerminal_of_deferred hdef
        unfold settleTerminal
        dsimp only
        rw [RunPhase.setDeferred_isTerminal, ht', RunPhase.setDeferred_turnId,
          publishTerminal_setDeferred]
        split
        · exact absurd ‹_› (by simp)
        · split
          · rename_i expected hturn
            split
            · exact .mismatchFull rfl hfull' hturn ‹_›
            · rename_i hne
              refine .completed ht' ?_ (by simp)
              intro e he
              rw [hturn] at he; cases he
              exact Classical.not_not.mp hne
          · rename_i hturn
            refine .completed ht' ?_ (by simp)
            intro e he
            rw [hturn] at he; cases he

theorem routeTerminal_of_none (h : slot.route = none) (completion : TurnCompletion)
    (params : Json) (defer : Bool) (cap : Nat) :
    slot.routeTerminal completion params defer cap = (.unregistered, slot) := by
  unfold routeTerminal; rw [h]

/-- `fail_all` takes whatever route is there. -/
theorem failAll_route (slot : RunSlot) (error : Error) : (slot.failAll error).route = none := by
  unfold failAll
  cases hroute : slot.route with
  | none => exact hroute
  | some route => rfl

end RunSlot

end Vergerail
