import Vergerail.Lib.Ledger
import Vergerail.Proof.RunStage

/-!
# A route without the notifications of other turns

While the turn of a run is unknown, notifications of every turn share its deferred
queue and the byte accounting of the images in it. `Shadows` compares a route with the
one that never saw another turn: it is the same route with another queue and other
books, its queue holds the run's own notifications in the same order, and its books
are within the other books. So whatever the full queue had room for, the other one
has.

An operation that carries another turn keeps the relation, on the first route alone,
unless it is an image event: that supersedes every waiting event of its item, whatever
turn it carries, and may take the run's own image out of the queue.
-/

namespace Vergerail

open Lib Ledger

/-! ## What belongs to another turn -/

/-- A waiting notification carries another turn. -/
def DeferredRunNotification.isForeign (env : RunEnv) (turnId : String) :
    DeferredRunNotification → Bool
  | event observed _ _ => observed != turnId
  | terminal params =>
    match turnCompletion env.redactLine params with
    | .error _ => false
    | .ok completion => completion.turnId != turnId

/-- The notifications of a queue that carry no other turn. -/
def ownOf (env : RunEnv) (turnId : String) (queue : List DeferredRunNotification) :
    List DeferredRunNotification :=
  queue.filter (fun notification => !notification.isForeign env turnId)

section Queues

variable {env : RunEnv} {turnId : String}

theorem isForeign_of_ok {params : Json} {completion : TurnCompletion}
    (h : turnCompletion env.redactLine params = .ok completion) :
    (DeferredRunNotification.terminal params).isForeign env turnId
      = (completion.turnId != turnId) := by
  unfold DeferredRunNotification.isForeign
  dsimp only
  rw [h]

theorem isForeign_of_error {params : Json} {error : Error}
    (h : turnCompletion env.redactLine params = .error error) :
    (DeferredRunNotification.terminal params).isForeign env turnId = false := by
  unfold DeferredRunNotification.isForeign
  dsimp only
  rw [h]

@[simp] theorem ownOf_nil : ownOf env turnId [] = [] := rfl

@[simp] theorem ownOf_append (q r : List DeferredRunNotification) :
    ownOf env turnId (q ++ r) = ownOf env turnId q ++ ownOf env turnId r :=
  List.filter_append q r

theorem ownOf_cons_own {next : DeferredRunNotification}
    (h : next.isForeign env turnId = false) (q : List DeferredRunNotification) :
    ownOf env turnId (next :: q) = next :: ownOf env turnId q :=
  List.filter_cons_of_pos (by rw [h]; rfl)

theorem ownOf_cons_foreign {next : DeferredRunNotification}
    (h : next.isForeign env turnId = true) (q : List DeferredRunNotification) :
    ownOf env turnId (next :: q) = ownOf env turnId q :=
  List.filter_cons_of_neg (by rw [h]; simp)

theorem ownOf_length_le (q : List DeferredRunNotification) :
    (ownOf env turnId q).length ≤ q.length := List.length_filter_le ..

/-- Superseding an image and leaving other turns aside commute. -/
theorem ownOf_retainOtherImages (event : Event) (q : List DeferredRunNotification) :
    ownOf env turnId (RunRoute.retainOtherImages event q)
      = RunRoute.retainOtherImages event (ownOf env turnId q) := by
  unfold RunRoute.retainOtherImages
  cases event.imageId with
  | none => rfl
  | some imageId =>
      unfold ownOf
      dsimp only
      rw [List.filter_filter, List.filter_filter]
      refine List.filter_congr ?_
      intro next _
      exact Bool.and_comm ..

/-- Nothing is superseded where nothing is about the image. -/
theorem retainOtherImages_of_spared {event : Event} {q : List DeferredRunNotification}
    (h : ∀ imageId, event.imageId = some imageId →
      ∀ notification ∈ q, notification.imageId ≠ some imageId) :
    RunRoute.retainOtherImages event q = q := by
  unfold RunRoute.retainOtherImages
  cases himage : event.imageId with
  | none => rfl
  | some imageId =>
      refine List.filter_eq_self.mpr ?_
      intro next hnext
      exact decide_eq_true (h imageId himage next hnext)

end Queues

/-! ## Two routes that differ in what is deferred -/

namespace RunRoute

/-- The route with another queue and other books. -/
def rebooked (self : RunRoute) (queue : List DeferredRunNotification) (bytes : Nat)
    (byId : AList (fun _ : String => Nat)) : RunRoute :=
  { self with
    phase := self.phase.setDeferred queue
    deferredImageBytes := bytes
    deferredImageBytesById := byId }

section Rebooked

variable (self : RunRoute) (queue : List DeferredRunNotification) (bytes : Nat)
  (byId : AList (fun _ : String => Nat))

@[simp] theorem rebooked_run : (self.rebooked queue bytes byId).run = self.run := rfl

@[simp] theorem rebooked_pendingFailure :
    (self.rebooked queue bytes byId).pendingFailure = self.pendingFailure := rfl

@[simp] theorem rebooked_output : (self.rebooked queue bytes byId).output = self.output := rfl

@[simp] theorem rebooked_turnId :
    (self.rebooked queue bytes byId).phase.turnId = self.phase.turnId :=
  RunPhase.setDeferred_turnId ..

@[simp] theorem rebooked_isTerminal :
    (self.rebooked queue bytes byId).phase.isTerminal = self.phase.isTerminal :=
  RunPhase.setDeferred_isTerminal ..

/-- A failure clears what the two routes differ in. -/
theorem failed_rebooked (error : Error) :
    (self.rebooked queue bytes byId).failed error = self.failed error := by
  have hphase : (self.phase.setDeferred queue).setDeferred [] = self.phase.setDeferred [] := by
    cases self.phase <;> rfl
  unfold failed rebooked clearDeferredImageBytes
  dsimp only
  rw [hphase]

/-- What is retained does not depend on what is deferred. -/
theorem retainOutput_rebooked (event : Event) (cap : Nat) :
    (self.rebooked queue bytes byId).retainOutput event cap
      = (self.retainOutput event cap).map (fun route => route.rebooked queue bytes byId) := by
  cases event with
  | textDelta delta =>
      unfold retainOutput rebooked
      dsimp only
      split
      · rfl
      · split <;> rfl
  | imageGeneration image =>
      unfold retainOutput rebooked
      dsimp only
      split
      · rfl
      · split
        · rfl
        · split
          · rfl
          · split <;> rfl
  | usageUpdated usage => rfl
  | _ => rfl

end Rebooked

/-- The books once an event is charged. -/
def charge (self : RunRoute) (event : Event) : Nat × AList (fun _ : String => Nat) :=
  match event.image with
  | none => (self.deferredImageBytes, self.deferredImageBytesById)
  | some image =>
      (self.deferredImageBytes - amount self.deferredImageBytesById image.id
          + image.retainedBytes.getD 0,
        self.deferredImageBytesById.insert image.id (image.retainedBytes.getD 0))

/-- An image fits if its size is known, the old amount is covered and the new sum is within
both limits. -/
theorem fitsDeferredImages_iff {self : RunRoute} {event : Event} {image : ImageGeneration}
    (h : event.image = some image) :
    self.FitsDeferredImages image ↔ (∃ bytes, image.retainedBytes = some bytes)
      ∧ amount self.deferredImageBytesById image.id ≤ self.deferredImageBytes
      ∧ (self.charge event).1 ≤ usizeMax ∧ (self.charge event).1 ≤ self.maximumOutputBytes := by
  unfold FitsDeferredImages checkedSub checkedAdd charge
  rw [h]
  dsimp only
  have hamount : (self.deferredImageBytesById.lookup image.id).getD 0
      = amount self.deferredImageBytesById image.id := rfl
  rw [hamount]
  constructor
  · rintro ⟨bytes, sum, hbytes, hsum, hle⟩
    split at hsum
    · rename_i hsub
      rw [Option.bind_some] at hsum
      split at hsum
      · rename_i hadd
        cases hsum
        rw [hbytes, Option.getD_some]
        exact ⟨⟨bytes, rfl⟩, hsub, hadd, hle⟩
      · cases hsum
    · cases hsum
  · rintro ⟨⟨bytes, hbytes⟩, hsub, hadd, hle⟩
    rw [hbytes, Option.getD_some] at hadd hle
    refine ⟨bytes, _, hbytes, ?_, hle⟩
    rw [if_pos hsub, Option.bind_some, if_pos hadd]

theorem charge_of_image {self : RunRoute} {event : Event} {image : ImageGeneration}
    {bytes : Nat} (h : event.image = some image) (hbytes : image.retainedBytes = some bytes) :
    self.charge event = (self.deferredImageBytes
        - (self.deferredImageBytesById.lookup image.id).getD 0 + bytes,
      self.deferredImageBytesById.insert image.id bytes) := by
  unfold charge
  rw [h]
  dsimp only
  rw [hbytes]
  rfl

/-- Charging an event that fits writes the books. -/
theorem chargeDeferredImage_of_fits {self : RunRoute} {event : Event}
    (h : ∀ image, event.image = some image → self.FitsDeferredImages image) :
    self.chargeDeferredImage event = .ok { self with
      deferredImageBytes := (self.charge event).1
      deferredImageBytesById := (self.charge event).2 } := by
  cases hevent : event with
  | imageGeneration image =>
      have himage : (Event.imageGeneration image).image = some image := rfl
      rw [hevent] at h
      obtain ⟨⟨bytes, hbytes⟩, hsub, hadd, hle⟩ :=
        (fitsDeferredImages_iff himage).mp (h image himage)
      have hsub' : (self.deferredImageBytesById.lookup image.id).getD 0
          ≤ self.deferredImageBytes := hsub
      rw [charge_of_image himage hbytes] at hadd hle ⊢
      unfold chargeDeferredImage checkedSub checkedAdd
      dsimp only
      rw [hbytes]
      dsimp only
      rw [if_pos hsub', Option.bind_some, if_pos hadd]
      dsimp only
      rw [if_neg (Nat.not_lt.mpr hle)]
  | _ => rfl

section Charge

variable {self other : RunRoute} {event : Event}

/-- Books that add up go on adding up. -/
theorem charge_total (h : self.deferredImageBytes = total self.deferredImageBytesById) :
    (self.charge event).1 = total (self.charge event).2 := by
  unfold charge
  cases event.image with
  | none => exact h
  | some image =>
      have hnew := total_insert self.deferredImageBytesById image.id (image.retainedBytes.getD 0)
      have hle := amount_le_total self.deferredImageBytesById image.id
      dsimp only
      omega

/-- Both books charge the event. -/
theorem charge_within (h : Within self.deferredImageBytesById other.deferredImageBytesById) :
    Within (self.charge event).2 (other.charge event).2 := by
  unfold charge
  cases event.image with
  | none => exact h
  | some image => exact h.insert image.id _

/-- Only the larger books charge the event. -/
theorem charge_within_right {small : AList (fun _ : String => Nat)}
    (h : Within small self.deferredImageBytesById)
    (hfresh : ∀ imageId, event.imageId = some imageId → imageId ∉ small) :
    Within small (self.charge event).2 := by
  unfold charge
  cases himage : event.image with
  | none => exact h
  | some image =>
      refine h.insert_right (hfresh image.id ?_) _
      show event.image.map (·.id) = some image.id
      rw [himage]; rfl

/-- A charged item was charged before, or is the event's. -/
theorem mem_charge {imageId : String} (h : imageId ∈ (self.charge event).2) :
    event.imageId = some imageId ∨ imageId ∈ self.deferredImageBytesById := by
  unfold charge at h
  unfold Event.imageId
  cases himage : event.image with
  | none => rw [himage] at h; exact Or.inr h
  | some image =>
      rw [himage] at h
      rcases (AList.mem_insert _).mp h with heq | hold
      · left; rw [heq]; rfl
      · exact Or.inr hold

end Charge

/-- A deferred event waits at the end of the queue, and is charged. -/
theorem routeEvent_of_room {self : RunRoute} {event : Event} {cap : Nat}
    {waiting : List DeferredRunNotification} (hp : self.pendingFailure = none)
    (hq : self.phase.deferred = some waiting) (hroom : ¬ self.RefusesDeferral event waiting cap)
    (shared : RunShared) (turnId sourceMethod : String) :
    self.routeEvent shared (some turnId) sourceMethod event true cap
      = (.deferred, self.rebooked
          (retainOtherImages event waiting ++ [.event turnId sourceMethod event])
          (self.charge event).1 (self.charge event).2, shared) := by
  have hfits : ∀ image, event.image = some image → self.FitsDeferredImages image := by
    intro image himage
    by_contra hnot
    exact hroom (Or.inl ⟨image, himage, hnot⟩)
  have hlength : ¬ (retainOtherImages event waiting).length ≥ cap := by
    intro hfull
    exact hroom (Or.inr hfull)
  unfold routeEvent
  rw [hp, hq, if_neg (by simp), if_pos rfl]
  dsimp only
  rw [chargeDeferredImage_of_fits hfits]
  unfold pushDeferred
  dsimp only
  rw [if_neg hlength]
  rfl

end RunRoute

/-- How the queue and the books of the purged route follow those of the other one. -/
structure Books (env : RunEnv) (turnId : String) (route : RunRoute)
    (waiting queue : List DeferredRunNotification) (bytes : Nat)
    (byId : AList (fun _ : String => Nat)) : Prop where
  /-- The run's own notifications wait in the same order. -/
  queue_eq : queue = ownOf env turnId waiting
  /-- The route's bytes are those of its entries. -/
  charged : route.deferredImageBytes = total route.deferredImageBytesById
  /-- So are the purged route's. -/
  chargedOwn : bytes = total byId
  /-- What the purged route charges, the other one charges too. -/
  within : Within byId route.deferredImageBytesById
  /-- Only waiting images of the run are charged on the purged route. -/
  held : ∀ imageId, imageId ∈ byId → ∃ next ∈ queue, next.imageId = some imageId

/-- The second route is what the first would be without the notifications of other turns. -/
def Shadows (env : RunEnv) (turnId : String) (route own : RunRoute) : Prop :=
  ∃ queue bytes byId, own = route.rebooked queue bytes byId
    ∧ ∀ waiting, route.phase.deferred = some waiting →
      Books env turnId route waiting queue bytes byId

section Shadows

variable {env : RunEnv} {turnId : String} {route own : RunRoute}

/-- Both queues are empty and nothing is charged. -/
theorem books_nil (h : route.deferredImageBytes = 0) (hbyId : route.deferredImageBytesById = ∅) :
    Books env turnId route [] [] 0 ∅ where
  queue_eq := rfl
  charged := by rw [h, hbyId, total_empty]
  chargedOwn := rfl
  within := within_empty _
  held := by intro imageId himage; exact absurd himage (AList.notMem_empty imageId)

/-- A route that was just cleared shadows itself. -/
theorem shadows_cleared (hqueue : ∀ waiting, route.phase.deferred = some waiting → waiting = [])
    (h : route.deferredImageBytes = 0) (hbyId : route.deferredImageBytesById = ∅) :
    Shadows env turnId route route := by
  have hphase : route.phase.setDeferred [] = route.phase := by
    cases hp : route.phase with
    | starting waiting => rw [hqueue waiting (by rw [hp]; rfl)]; rfl
    | replaying turn waiting => rw [hqueue waiting (by rw [hp]; rfl)]; rfl
    | active _ => rfl
    | terminalBeforeStart _ => rfl
  refine ⟨[], 0, ∅, ?_, ?_⟩
  · unfold RunRoute.rebooked
    rw [hphase, ← h, ← hbyId]
  · intro waiting hwaiting
    rw [hqueue waiting hwaiting]
    exact books_nil h hbyId

theorem shadows_failed (route : RunRoute) (error : Error) :
    Shadows env turnId (route.failed error) (route.failed error) := by
  refine shadows_cleared ?_ rfl rfl
  intro waiting hwaiting
  have hphase : (route.phase.setDeferred []).deferred = some waiting := hwaiting
  cases hp : route.phase with
  | starting _ => rw [hp] at hphase; cases hphase; rfl
  | replaying _ _ => rw [hp] at hphase; cases hphase; rfl
  | active _ => rw [hp] at hphase; cases hphase
  | terminalBeforeStart _ => rw [hp] at hphase; cases hphase

/-- Of the route the books read only what it charges. -/
theorem Books.of_sameBooks {base : RunRoute} {waiting queue : List DeferredRunNotification}
    {bytes : Nat} {byId : AList (fun _ : String => Nat)}
    (h : Books env turnId route waiting queue bytes byId)
    (hbytes : base.deferredImageBytes = route.deferredImageBytes)
    (hbyId : base.deferredImageBytesById = route.deferredImageBytesById) :
    Books env turnId base waiting queue bytes byId where
  queue_eq := h.queue_eq
  charged := by rw [hbytes, hbyId]; exact h.charged
  chargedOwn := h.chargedOwn
  within := by rw [hbyId]; exact h.within
  held := h.held

theorem Shadows.pendingFailure_eq (h : Shadows env turnId route own) :
    own.pendingFailure = route.pendingFailure := by
  obtain ⟨_, _, _, rfl, _⟩ := h; rfl

theorem Shadows.run_eq (h : Shadows env turnId route own) : own.run = route.run := by
  obtain ⟨_, _, _, rfl, _⟩ := h; rfl

theorem Shadows.output_eq (h : Shadows env turnId route own) : own.output = route.output := by
  obtain ⟨_, _, _, rfl, _⟩ := h; rfl

theorem Shadows.turnId_eq (h : Shadows env turnId route own) :
    own.phase.turnId = route.phase.turnId := by
  obtain ⟨_, _, _, rfl, _⟩ := h
  exact RunPhase.setDeferred_turnId ..

theorem Shadows.isTerminal_eq (h : Shadows env turnId route own) :
    own.phase.isTerminal = route.phase.isTerminal := by
  obtain ⟨_, _, _, rfl, _⟩ := h
  exact RunPhase.setDeferred_isTerminal ..

/-- The purged queue, where there is one. -/
theorem Shadows.deferred_eq (h : Shadows env turnId route own) :
    own.phase.deferred = route.phase.deferred.map (ownOf env turnId) := by
  obtain ⟨queue, bytes, byId, rfl, hbooks⟩ := h
  cases hwaiting : route.phase.deferred with
  | none =>
      unfold RunRoute.rebooked
      cases hp : route.phase with
      | starting _ => rw [hp] at hwaiting; cases hwaiting
      | replaying _ _ => rw [hp] at hwaiting; cases hwaiting
      | active _ => rfl
      | terminalBeforeStart _ => rfl
  | some waiting =>
      rw [Option.map_some, ← (hbooks waiting hwaiting).queue_eq]
      exact RunPhase.setDeferred_deferred hwaiting queue

/-- What a routing leaves agrees: the answer, the route up to what is deferred, the cells. -/
structure Agrees (env : RunEnv) (turnId : String)
    (routed routedOwn : RunEventOutcome × RunRoute × RunShared) : Prop where
  outcome : routedOwn.1 = routed.1
  route : Shadows env turnId routed.2.1 routedOwn.2.1
  shared : routedOwn.2.2 = routed.2.2

/-- Failing a turn agrees. -/
theorem agrees_failTurn (h : Shadows env turnId route own) (hp : route.pendingFailure = none)
    (observed : Option String) (error : Error) (shared : RunShared) :
    Agrees env turnId
      ((route.failTurn observed error).1, (route.failTurn observed error).2, shared)
      ((own.failTurn observed error).1, (own.failTurn observed error).2, shared) := by
  unfold RunRoute.failTurn
  rw [h.turnId_eq]
  cases hturn : route.phase.turnId.or observed with
  | none => exact ⟨rfl, h, rfl⟩
  | some turn =>
      dsimp only
      rw [RunRoute.recordFailure_of_none hp,
        RunRoute.recordFailure_of_none (h.pendingFailure_eq.trans hp), h.run_eq]
      obtain ⟨queue, bytes, byId, rfl, _⟩ := h
      rw [RunRoute.failed_rebooked]
      exact ⟨rfl, shadows_failed route error, rfl⟩

/-- What the routes retain of an event agrees. -/
theorem Shadows.retainOutput (h : Shadows env turnId route own) (event : Event) (cap : Nat) :
    (∃ error, route.retainOutput event cap = .error error
        ∧ own.retainOutput event cap = .error error)
      ∨ ∃ retained retainedOwn, route.retainOutput event cap = .ok retained
        ∧ own.retainOutput event cap = .ok retainedOwn
        ∧ Shadows env turnId retained retainedOwn
        ∧ retained.pendingFailure = route.pendingFailure := by
  obtain ⟨queue, bytes, byId, rfl, hbooks⟩ := h
  rw [RunRoute.retainOutput_rebooked]
  cases hret : route.retainOutput event cap with
  | error error => exact Or.inl ⟨error, rfl, rfl⟩
  | ok retained =>
      obtain ⟨_, hsame⟩ := RunRoute.retainOutput_ok hret
      refine Or.inr ⟨retained, _, rfl, rfl, ⟨queue, bytes, byId, rfl, ?_⟩, hsame.pendingFailure⟩
      intro waiting hwaiting
      rw [hsame.phase] at hwaiting
      exact (hbooks waiting hwaiting).of_sameBooks hsame.deferredImageBytes
        hsame.deferredImageBytesById

theorem agrees_deliver (h : Shadows env turnId route own) (shared : RunShared)
    (observed : Option String) (event : Event) (cap : Nat) :
    Agrees env turnId (RunRoute.routeEventAfterStart.deliver route shared event cap observed)
      (RunRoute.routeEventAfterStart.deliver own shared event cap observed) := by
  unfold RunRoute.routeEventAfterStart.deliver
  rw [h.isTerminal_eq, h.pendingFailure_eq]
  by_cases ht : route.phase.isTerminal = true
  · rw [if_pos ht, if_pos ht]; exact ⟨rfl, h, rfl⟩
  · rw [if_neg ht, if_neg ht]
    by_cases hp : route.pendingFailure.isSome = true
    · rw [if_pos hp, if_pos hp]; exact ⟨rfl, h, rfl⟩
    · rw [if_neg hp, if_neg hp]
      have hp' : route.pendingFailure = none := by simpa using hp
      by_cases ha : shared.abandoned = true
      · rw [if_pos ha, if_pos ha]; exact ⟨rfl, h, rfl⟩
      · rw [if_neg ha, if_neg ha]
        rcases h.retainOutput event cap with ⟨error, hret, hown⟩
            | ⟨retained, retainedOwn, hret, hown, hshadow, hpr⟩
        · rw [hret, hown]
          exact agrees_failTurn h hp' observed error shared
        · rw [hret, hown]
          dsimp only
          cases hsend : shared.events.trySend event with
          | mk sent events =>
          cases sent with
          | ok => exact ⟨rfl, hshadow, rfl⟩
          | full => exact agrees_failTurn hshadow (hpr.trans hp') observed _ shared
          | closed => exact agrees_failTurn hshadow (hpr.trans hp') observed _ shared

theorem agrees_routeEventAfterStart (h : Shadows env turnId route own) (shared : RunShared)
    (observed : Option String) (event : Event) (cap : Nat) :
    Agrees env turnId (route.routeEventAfterStart shared observed event cap)
      (own.routeEventAfterStart shared observed event cap) := by
  unfold RunRoute.routeEventAfterStart
  rw [h.turnId_eq]
  split
  · split
    · exact ⟨rfl, h, rfl⟩
    · exact agrees_deliver h shared _ event cap
  · exact agrees_deliver h shared _ event cap

/-- Rebooking twice is rebooking once. -/
theorem rebooked_rebooked (route : RunRoute) (q q' : List DeferredRunNotification) (n n' : Nat)
    (m m' : AList (fun _ : String => Nat)) :
    (route.rebooked q n m).rebooked q' n' m' = route.rebooked q' n' m' := by
  have hphase : (route.phase.setDeferred q).setDeferred q' = route.phase.setDeferred q' := by
    cases route.phase <;> rfl
  unfold RunRoute.rebooked
  dsimp only
  rw [hphase]

section Books

variable {waiting queue : List DeferredRunNotification} {bytes : Nat}
  {byId : AList (fun _ : String => Nat)}

/-- What fits the books of the route fits the smaller books of the purged one. -/
theorem Books.room (h : Books env turnId route waiting queue bytes byId) {event : Event}
    {cap : Nat} (hroom : ¬ route.RefusesDeferral event waiting cap) :
    ¬ (route.rebooked queue bytes byId).RefusesDeferral event queue cap := by
  rintro (⟨image, himage, hnot⟩ | hfull)
  · refine hroom (Or.inl ⟨image, himage, ?_⟩)
    intro hfits
    refine hnot ((RunRoute.fitsDeferredImages_iff himage).mpr ?_)
    obtain ⟨hbytes, _, hadd, hle⟩ := (RunRoute.fitsDeferredImages_iff himage).mp hfits
    have hown : (route.rebooked queue bytes byId).deferredImageBytes
        = total (route.rebooked queue bytes byId).deferredImageBytesById := h.chargedOwn
    have hwithin : Within ((route.rebooked queue bytes byId).charge event).2
        (route.charge event).2 := RunRoute.charge_within h.within
    have hsum : (route.charge event).1 = total (route.charge event).2 :=
      RunRoute.charge_total h.charged
    have hsumOwn : ((route.rebooked queue bytes byId).charge event).1
        = total ((route.rebooked queue bytes byId).charge event).2 := RunRoute.charge_total hown
    have hless := hwithin.total_le
    have hcover := amount_le_total byId image.id
    refine ⟨hbytes, ?_, by omega, ?_⟩
    · show amount byId image.id ≤ bytes
      rw [h.chargedOwn]; exact hcover
    · show ((route.rebooked queue bytes byId).charge event).1 ≤ route.maximumOutputBytes
      omega
  · have hless : (ownOf env turnId (RunRoute.retainOtherImages event waiting)).length
        ≤ (RunRoute.retainOtherImages event waiting).length := ownOf_length_le _
    rw [ownOf_retainOtherImages, ← h.queue_eq] at hless
    exact hroom (Or.inr (Nat.le_trans hfull hless))

/-- An event of the run's turn is charged and queued on both routes. -/
theorem Books.push (h : Books env turnId route waiting queue bytes byId) (sourceMethod : String)
    (event : Event) :
    Books env turnId
      (route.rebooked (RunRoute.retainOtherImages event waiting
        ++ [.event turnId sourceMethod event]) (route.charge event).1 (route.charge event).2)
      (RunRoute.retainOtherImages event waiting ++ [.event turnId sourceMethod event])
      (RunRoute.retainOtherImages event queue ++ [.event turnId sourceMethod event])
      ((route.rebooked queue bytes byId).charge event).1
      ((route.rebooked queue bytes byId).charge event).2 where
  queue_eq := by
    have hown : (DeferredRunNotification.event turnId sourceMethod event).isForeign env turnId
        = false := bne_self_eq_false turnId
    rw [ownOf_append, ownOf_retainOtherImages, ownOf_cons_own hown, ownOf_nil, h.queue_eq]
  charged := RunRoute.charge_total h.charged
  chargedOwn := by
    have hown : (route.rebooked queue bytes byId).deferredImageBytes
        = total (route.rebooked queue bytes byId).deferredImageBytesById := h.chargedOwn
    exact RunRoute.charge_total hown
  within := by
    have hwithin : Within (route.rebooked queue bytes byId).deferredImageBytesById
        route.deferredImageBytesById := h.within
    exact RunRoute.charge_within hwithin
  held := by
    intro imageId hcharged
    by_cases himage : event.imageId = some imageId
    · exact ⟨_, List.mem_append_right _ List.mem_cons_self, himage⟩
    · -- an older image waits on, unless the event is about it
      rcases RunRoute.mem_charge hcharged with heq | hold
      · exact absurd heq himage
      · obtain ⟨next, hnext, hid⟩ := h.held imageId hold
        refine ⟨next, List.mem_append_left _ ?_, hid⟩
        unfold RunRoute.retainOtherImages
        cases hevent : event.imageId with
        | none => exact hnext
        | some other =>
            refine List.mem_filter.mpr ⟨hnext, decide_eq_true ?_⟩
            rw [hid]
            rintro hsame
            rw [hevent] at himage
            exact himage hsame.symm

/-- An event of another turn is charged and queued on the route alone. -/
theorem Books.pushForeign (h : Books env turnId route waiting queue bytes byId)
    {observed : String} (hne : observed ≠ turnId) (sourceMethod : String) {event : Event}
    (hspare : ∀ imageId, event.imageId = some imageId →
      ∀ next ∈ ownOf env turnId waiting, next.imageId ≠ some imageId) :
    Books env turnId
      (route.rebooked (RunRoute.retainOtherImages event waiting
        ++ [.event observed sourceMethod event]) (route.charge event).1 (route.charge event).2)
      (RunRoute.retainOtherImages event waiting ++ [.event observed sourceMethod event])
      queue bytes byId where
  queue_eq := by
    have hforeign : (DeferredRunNotification.event observed sourceMethod event).isForeign env
        turnId = true := bne_iff_ne.mpr hne
    rw [ownOf_append, ownOf_retainOtherImages, ownOf_cons_foreign hforeign, ownOf_nil,
      List.append_nil, retainOtherImages_of_spared hspare, h.queue_eq]
  charged := RunRoute.charge_total h.charged
  chargedOwn := h.chargedOwn
  within := by
    refine RunRoute.charge_within_right h.within ?_
    intro imageId himage hcharged
    obtain ⟨next, hnext, hid⟩ := h.held imageId hcharged
    rw [h.queue_eq] at hnext
    exact hspare imageId himage next hnext hid
  held := h.held

end Books

/-- Routing what is the run's own, or carries no turn, agrees. -/
theorem agrees_routeEvent (h : Shadows env turnId route own) (shared : RunShared)
    {observed : Option String} (hobs : observed = some turnId ∨ observed = none)
    (sourceMethod : String)
    (event : Event) (defer : Bool) (cap : Nat)
    (hroom : ∀ waiting, defer = true → route.phase.deferred = some waiting →
      route.pendingFailure = none → observed ≠ none →
      ¬ route.RefusesDeferral event waiting cap) :
    Agrees env turnId (route.routeEvent shared observed sourceMethod event defer cap)
      (own.routeEvent shared observed sourceMethod event defer cap) := by
  by_cases hp : route.pendingFailure.isSome = true
  · unfold RunRoute.routeEvent
    rw [h.pendingFailure_eq, if_pos hp, if_pos hp]
    exact ⟨rfl, h, rfl⟩
  · have hp' : route.pendingFailure = none := by simpa using hp
    cases hq : (if defer then route.phase.deferred else none) with
    | none =>
        have hqOwn : (if defer then own.phase.deferred else none) = none := by
          rw [h.deferred_eq]
          cases defer with
          | false => rfl
          | true =>
              rw [if_pos rfl] at hq ⊢
              rw [hq]; rfl
        unfold RunRoute.routeEvent
        rw [h.pendingFailure_eq, if_neg hp, if_neg hp, hq, hqOwn]
        exact agrees_routeEventAfterStart h shared observed event cap
    | some waiting =>
        have hdef : defer = true := by
          cases defer with
          | true => rfl
          | false => cases hq
        subst hdef
        rw [if_pos rfl] at hq
        rcases hobs with hturn | hnone
        · cases hturn
          have hfits := hroom waiting rfl hq hp' (by simp)
          obtain ⟨queue, bytes, byId, rfl, hbooks⟩ := h
          have hb := hbooks waiting hq
          have hqOwn : (route.rebooked queue bytes byId).phase.deferred = some queue :=
            RunPhase.setDeferred_deferred hq queue
          rw [RunRoute.routeEvent_of_room hp' hq hfits,
            RunRoute.routeEvent_of_room (by exact hp') hqOwn (hb.room hfits), rebooked_rebooked]
          refine ⟨rfl, ⟨_, _, _, (rebooked_rebooked ..).symm, ?_⟩, rfl⟩
          intro waiting' hwaiting'
          have hnew : (route.phase.setDeferred (RunRoute.retainOtherImages event waiting
              ++ [.event turnId sourceMethod event])).deferred = some waiting' := hwaiting'
          rw [RunPhase.setDeferred_deferred hq] at hnew
          cases hnew
          exact hb.push sourceMethod event
        · cases hnone
          have hqOwn : own.phase.deferred = some (ownOf env turnId waiting) := by
            rw [h.deferred_eq, hq]; rfl
          unfold RunRoute.routeEvent
          rw [h.pendingFailure_eq, if_neg hp, if_neg hp, hq, hqOwn]
          exact ⟨rfl, h, rfl⟩

/-- What carries another turn changes the route at most in what is deferred. -/
theorem Shadows.routeEvent_foreign (h : Shadows env turnId route own) (shared : RunShared)
    {observed : String} (hne : observed ≠ turnId) (sourceMethod : String) (event : Event)
    (defer : Bool) (cap : Nat)
    (hlive : route.phase.isTerminal = false →
      (defer = true ∧ route.phase.deferred ≠ none) ∨ route.phase.turnId = some turnId)
    (hroom : ∀ waiting, defer = true → route.phase.deferred = some waiting →
      route.pendingFailure = none → ¬ route.RefusesDeferral event waiting cap)
    (hspare : ∀ waiting, defer = true → route.phase.deferred = some waiting →
      ∀ imageId, event.imageId = some imageId →
        ∀ next ∈ ownOf env turnId waiting, next.imageId ≠ some imageId) :
    let routed := route.routeEvent shared (some observed) sourceMethod event defer cap
    Shadows env turnId routed.2.1 own ∧ routed.2.2 = shared
      ∧ RunWorld.interruptOf routed.1 = [] := by
  intro routed
  by_cases hdeferred : route.pendingFailure = none ∧ defer = true ∧ route.phase.deferred ≠ none
  · obtain ⟨hp, rfl, hsome⟩ := hdeferred
    obtain ⟨waiting, hq⟩ := Option.ne_none_iff_exists'.mp hsome
    have hrouted := RunRoute.routeEvent_of_room hp hq (hroom waiting rfl hq hp) shared observed
      sourceMethod
    obtain ⟨queue, bytes, byId, rfl, hbooks⟩ := h
    show Shadows env turnId (RunRoute.routeEvent ..).2.1 _ ∧ (RunRoute.routeEvent ..).2.2 = _
      ∧ RunWorld.interruptOf (RunRoute.routeEvent ..).1 = _
    rw [hrouted]
    refine ⟨⟨queue, bytes, byId, (rebooked_rebooked ..).symm, ?_⟩, rfl, rfl⟩
    intro waiting' hwaiting'
    have hnew : (route.phase.setDeferred (RunRoute.retainOtherImages event waiting
        ++ [.event observed sourceMethod event])).deferred = some waiting' := hwaiting'
    rw [RunPhase.setDeferred_deferred hq] at hnew
    cases hnew
    exact (hbooks waiting hq).pushForeign hne sourceMethod (hspare waiting rfl hq)
  · -- nothing waits for the acknowledgement, so the turn is compared before anything is touched
    have hsame : routed = (routed.1, route, shared) ∧ RunWorld.interruptOf routed.1 = [] := by
      have hspec := route.routeEvent_spec shared (some observed) sourceMethod event defer cap
      have hother : route.pendingFailure = none → route.phase.isTerminal = false →
          (if defer then route.phase.deferred else none) = none →
          RunRoute.SameTurn (some observed) route.phase.turnId → False := by
        intro hp hl hq hsame
        rcases hlive hl with ⟨rfl, hsome⟩ | hturn
        · exact hsome hq
        · exact hne (hsame observed turnId rfl hturn).symm
      have hempty : ∀ waiting, route.pendingFailure = none →
          (if defer then route.phase.deferred else none) = some waiting → False := by
        intro waiting hp hq
        cases defer with
        | false => cases hq
        | true =>
            rw [if_pos rfl] at hq
            exact hdeferred ⟨hp, rfl, by rw [hq]; simp⟩
      generalize hr : route.routeEvent shared (some observed) sourceMethod event defer cap
        = result at hspec
      obtain ⟨outcome, route', shared'⟩ := result
      have hrouted : routed = (outcome, route', shared') := hr
      rw [hrouted]
      dsimp only at hspec ⊢
      cases hspec with
      | afterFailure _ => exact ⟨rfl, rfl⟩
      | beforeTurn _ hnone => cases hnone
      | refusedDeferral hp hq _ _ => exact absurd (hempty _ hp hq) id
      | deferred hp hq _ _ => exact absurd (hempty _ hp hq) id
      | mismatch _ _ _ _ => exact ⟨rfl, rfl⟩
      | afterTerminal _ _ => exact ⟨rfl, rfl⟩
      | afterAbandon _ _ => exact ⟨rfl, rfl⟩
      | unowned _ hnone _ _ _ _ => cases hnone
      | refusedDelivery hp hq hl _ hsame _ _ _ => exact absurd (hother hp hl hq hsame) id
      | delivered hp hq hl _ hsame _ _ => exact absurd (hother hp hl hq hsame) id
    obtain ⟨heq, hint⟩ := hsame
    rw [heq]
    exact ⟨h, rfl, hint⟩

/-- A phase without a queue leaves nothing to compare. -/
theorem shadows_undeferred {phase : RunPhase} (h : Shadows env turnId route own)
    (hphase : phase.deferred = none) {failure failureOwn : Option Error}
    (hfailure : failureOwn = failure) :
    Shadows env turnId { route with phase, pendingFailure := failure }
      { own with phase, pendingFailure := failureOwn } := by
  subst hfailure
  obtain ⟨queue, bytes, byId, rfl, _⟩ := h
  refine ⟨queue, bytes, byId, ?_, ?_⟩
  · unfold RunRoute.rebooked
    cases phase with
    | starting _ => cases hphase
    | replaying _ _ => cases hphase
    | active _ => rfl
    | terminalBeforeStart _ => rfl
  · intro waiting hwaiting
    have hnone : phase.deferred = some waiting := hwaiting
    rw [hphase] at hnone; cases hnone

/-- A terminal of the run's turn waits on both routes. -/
theorem Shadows.pushTerminal (h : Shadows env turnId route own)
    {waiting : List DeferredRunNotification} (hq : route.phase.deferred = some waiting)
    {params : Json} (hown : (DeferredRunNotification.terminal params).isForeign env turnId = false) :
    Shadows env turnId
      { route with phase := route.phase.setDeferred (waiting ++ [.terminal params]) }
      { own with
        phase := own.phase.setDeferred (ownOf env turnId waiting ++ [.terminal params]) } := by
  obtain ⟨queue, bytes, byId, rfl, hbooks⟩ := h
  have hb := hbooks waiting hq
  refine ⟨queue ++ [.terminal params], bytes, byId, ?_, ?_⟩
  · rw [← hb.queue_eq]
    unfold RunRoute.rebooked
    cases route.phase <;> rfl
  · intro waiting' hwaiting'
    have hnew : (route.phase.setDeferred (waiting ++ [.terminal params])).deferred
        = some waiting' := hwaiting'
    rw [RunPhase.setDeferred_deferred hq] at hnew
    cases hnew
    refine ⟨?_, hb.charged, hb.chargedOwn, hb.within, ?_⟩
    · rw [ownOf_append, ownOf_cons_own hown, ownOf_nil, hb.queue_eq]
    · intro imageId himage
      obtain ⟨next, hnext, hid⟩ := hb.held imageId himage
      exact ⟨next, List.mem_append_left _ hnext, hid⟩

/-- A terminal of another turn waits on the route alone. -/
theorem Shadows.pushTerminalForeign (h : Shadows env turnId route own)
    {waiting : List DeferredRunNotification} (hq : route.phase.deferred = some waiting)
    {params : Json} (hforeign : (DeferredRunNotification.terminal params).isForeign env turnId
      = true) :
    Shadows env turnId
      { route with phase := route.phase.setDeferred (waiting ++ [.terminal params]) } own := by
  obtain ⟨queue, bytes, byId, rfl, hbooks⟩ := h
  have hb := hbooks waiting hq
  refine ⟨queue, bytes, byId, ?_, ?_⟩
  · unfold RunRoute.rebooked
    cases route.phase <;> rfl
  · intro waiting' hwaiting'
    have hnew : (route.phase.setDeferred (waiting ++ [.terminal params])).deferred
        = some waiting' := hwaiting'
    rw [RunPhase.setDeferred_deferred hq] at hnew
    cases hnew
    refine ⟨?_, hb.charged, hb.chargedOwn, hb.within, hb.held⟩
    rw [ownOf_append, ownOf_cons_foreign hforeign, ownOf_nil, List.append_nil, hb.queue_eq]

end Shadows

end Vergerail
