import Vergerail.Proof.OutputBudget

/-!
# The waiting images are counted, unless a foreign terminal empties the queue

While a route defers notifications it keeps three things about the images among them:
the queue itself, the size of each waiting image by its id, and the sum of the sizes.
`Accounts` says that the three agree and stay within their limits.

Every operation writes all three or none, with one exception. `route_terminal` empties
a full queue before it has looked at the turn of the terminal, and returns when that
turn is not the route's: the sizes of the images it has just discarded stay counted,
and later images are refused for bytes that nobody waits with. `KeepsAccounts` says
that this branch finds no image.
-/

namespace Vergerail

open Lib

/-! ## The images of a queue -/

/-- The image a waiting notification reports on. -/
def DeferredRunNotification.image : DeferredRunNotification → Option ImageGeneration
  | event _ _ e => e.image
  | terminal _ => none

/-- The images that wait in a queue. -/
def waitingImages (queue : List DeferredRunNotification) : List ImageGeneration :=
  queue.filterMap (·.image)

@[simp] theorem waitingImages_nil : waitingImages [] = [] := rfl

theorem waitingImages_append (q r : List DeferredRunNotification) :
    waitingImages (q ++ r) = waitingImages q ++ waitingImages r := List.filterMap_append

theorem DeferredRunNotification.imageId_eq (notification : DeferredRunNotification) :
    notification.imageId = notification.image.map (·.id) := by
  cases notification <;> rfl

/-- What an image leaves of the waiting images. -/
theorem waitingImages_retain (event : Event) (image : ImageGeneration)
    (himage : event.image = some image) (queue : List DeferredRunNotification) :
    waitingImages (RunRoute.retainOtherImages event queue)
      = Meter.without (·.id) (waitingImages queue) image.id := by
  have hid : event.imageId = some image.id := by
    unfold Event.imageId; rw [himage]; rfl
  unfold RunRoute.retainOtherImages
  rw [hid]
  dsimp only
  induction queue with
  | nil => rfl
  | cons notification queue ih =>
      have hn := notification.imageId_eq
      unfold waitingImages Meter.without at ih ⊢
      cases hother : notification.image with
      | none =>
          rw [hother, Option.map_none] at hn
          rw [List.filter_cons_of_pos (by simp [hn]), List.filterMap_cons_none hother,
            List.filterMap_cons_none hother]
          exact ih
      | some other =>
          rw [hother, Option.map_some] at hn
          rw [List.filterMap_cons_some hother]
          by_cases hsame : other.id = image.id
          · rw [List.filter_cons_of_neg (by simp [hn, hsame]),
              List.filter_cons_of_neg (by simpa using hsame)]
            exact ih
          · rw [List.filter_cons_of_pos (by simpa [hn] using hsame),
              List.filterMap_cons_some hother, List.filter_cons_of_pos (by simpa using hsame), ih]

/-- An event without an image leaves the queue alone. -/
theorem retainOtherImages_of_none {event : Event} (himage : event.image = none)
    (queue : List DeferredRunNotification) :
    RunRoute.retainOtherImages event queue = queue := by
  unfold RunRoute.retainOtherImages Event.imageId
  rw [himage]
  rfl

/-! ## The accounts of a route -/

/-- The three accounts of the images that wait in the queue of a route. -/
structure RunRoute.Accounts (cap : Nat) (queue : List DeferredRunNotification)
    (route : RunRoute) : Prop where
  /-- The queue holds at most the event capacity. -/
  few : queue.length ≤ cap
  /-- At most one notification waits for each image. -/
  distinct : ((waitingImages queue).map (·.id)).Nodup
  /-- The count is the sum of what is on record by id. -/
  total : route.deferredImageBytes = Meter.sum route.deferredImageBytesById
  /-- On record are exactly the waiting images, with their sizes. -/
  recorded : ∀ id bytes, route.deferredImageBytesById.lookup id = some bytes ↔
    ∃ image ∈ waitingImages queue, image.id = id ∧ image.retainedBytes = some bytes
  /-- Every waiting image has a size. -/
  measured : ∀ image ∈ waitingImages queue, image.retainedBytes.isSome
  /-- The waiting images fit the output limit. -/
  bounded : route.deferredImageBytes ≤ route.maximumOutputBytes

/-- A thread's route accounts for the queue it has, if it has one. -/
def RunSlot.Accounts (cap : Nat) (slot : RunSlot) : Prop :=
  ∀ route queue, slot.route = some route → route.phase.deferred = some queue →
    route.Accounts cap queue

namespace RunRoute

variable {self charged : RunRoute} {cap : Nat} {queue : List DeferredRunNotification}

/-- Nothing waits and nothing is counted. -/
theorem accounts_nil (cap : Nat) (h0 : self.deferredImageBytes = 0)
    (hempty : self.deferredImageBytesById = ∅) : self.Accounts cap [] where
  few := Nat.zero_le _
  distinct := List.nodup_nil
  total := by rw [h0, hempty]; rfl
  recorded := by
    intro id bytes
    rw [hempty, AList.lookup_empty]
    constructor
    · intro h; cases h
    · rintro ⟨image, hmem, _⟩; cases hmem
  measured := by intro image hmem; cases hmem
  bounded := by rw [h0]; exact Nat.zero_le _

/-- The count is the size of the images that really wait. -/
theorem Accounts.waiting (h : self.Accounts cap queue) :
    self.deferredImageBytes
      = Meter.total ImageGeneration.retainedSize (waitingImages queue) := by
  rw [h.total]
  refine Meter.sum_eq_total h.distinct ?_
  intro id bytes
  rw [h.recorded]
  unfold ImageGeneration.retainedSize
  constructor
  · rintro ⟨image, hmem, hid, hbytes⟩
    exact ⟨image, hmem, hid, by rw [hbytes]; rfl⟩
  · rintro ⟨image, hmem, hid, hbytes⟩
    obtain ⟨size, hsize⟩ := Option.isSome_iff_exists.mp (h.measured image hmem)
    rw [hsize] at hbytes
    exact ⟨image, hmem, hid, hsize.trans (congrArg some hbytes)⟩

/-- What is on record for an id is the size of the image that waits with it. -/
theorem Accounts.previous (h : self.Accounts cap queue) (id : String) :
    (self.deferredImageBytesById.lookup id).getD 0
      = ((Meter.at? (·.id) (waitingImages queue) id).map ImageGeneration.retainedSize).getD 0 := by
  cases hat : Meter.at? (·.id) (waitingImages queue) id with
  | none =>
      have hnew := Meter.at?_eq_none.mp hat
      cases hlookup : self.deferredImageBytesById.lookup id with
      | none => rfl
      | some bytes =>
          obtain ⟨image, hmem, hid, _⟩ := (h.recorded id bytes).mp hlookup
          exact absurd (hid ▸ List.mem_map_of_mem hmem) hnew
  | some image =>
      obtain ⟨hmem, hid⟩ := Meter.at?_mem hat
      obtain ⟨size, hsize⟩ := Option.isSome_iff_exists.mp (h.measured image hmem)
      rw [(h.recorded id size).mpr ⟨image, hmem, hid, hsize⟩]
      unfold ImageGeneration.retainedSize
      rw [Option.map_some, hsize]
      rfl

/-! ## Deferring an event -/

/-- Charging an image sets its size in both accounts. -/
theorem charge_image {event : Event} {image : ImageGeneration}
    (himage : event.image = some image) (h : self.chargeDeferredImage event = .ok charged) :
    ∃ bytes total, image.retainedBytes = some bytes ∧ total ≤ self.maximumOutputBytes
      ∧ (self.deferredImageBytesById.lookup image.id).getD 0 ≤ self.deferredImageBytes
      ∧ total + (self.deferredImageBytesById.lookup image.id).getD 0
          = self.deferredImageBytes + bytes
      ∧ charged = { self with
          deferredImageBytes := total
          deferredImageBytesById := self.deferredImageBytesById.insert image.id bytes } := by
  cases event with
  | imageGeneration other =>
      obtain rfl := Option.some.inj himage
      unfold chargeDeferredImage at h
      dsimp only at h
      split at h
      · cases h
      · rename_i bytes hbytes
        split at h
        · cases h
        · rename_i total htotal
          split at h
          · cases h
          · rename_i hle
            unfold checkedSub at htotal
            split at htotal
            · rename_i hsub
              obtain ⟨hsum, _⟩ := checkedAdd_eq_some.mp htotal
              exact ⟨bytes, total, hbytes, Nat.le_of_not_lt hle, hsub, by omega,
                (Except.ok.inj h).symm⟩
            · cases htotal
  | _ => cases himage

theorem charge_other {event : Event} (himage : event.image = none)
    (h : self.chargeDeferredImage event = .ok charged) : charged = self := by
  cases event with
  | imageGeneration image => cases himage
  | _ => exact (Except.ok.inj h).symm

/-- The accounts after an image has taken its place at the end of the queue. -/
theorem Accounts.push_image (h : self.Accounts cap queue) {event : Event}
    {image : ImageGeneration} (himage : event.image = some image)
    (hcharged : self.chargeDeferredImage event = .ok charged) (turnId sourceMethod : String)
    (hroom : (retainOtherImages event queue).length < cap) (phase : RunPhase) :
    Accounts cap (retainOtherImages event queue ++ [.event turnId sourceMethod event])
      { charged with phase } := by
  obtain ⟨bytes, total, hbytes, hle, _, hsum, rfl⟩ := charge_image himage hcharged
  have himages : waitingImages
      (retainOtherImages event queue ++ [.event turnId sourceMethod event])
      = Meter.without (·.id) (waitingImages queue) image.id ++ [image] := by
    rw [waitingImages_append, waitingImages_retain event image himage]
    have hlast : waitingImages [.event turnId sourceMethod event] = [image] :=
      List.filterMap_cons_some himage
    rw [hlast]
  constructor
  · rw [List.length_append]
    exact hroom
  · rw [himages]
    exact Meter.nodup_replace h.distinct image
  · have hinsert := Meter.sum_insert self.deferredImageBytesById image.id bytes
    have := h.total
    show total = Meter.sum (self.deferredImageBytesById.insert image.id bytes)
    omega
  · intro id size
    rw [himages]
    show (self.deferredImageBytesById.insert image.id bytes).lookup id = some size ↔ _
    simp only [List.mem_append, Meter.mem_without, List.mem_singleton]
    by_cases hid : id = image.id
    · subst hid
      rw [AList.lookup_insert]
      constructor
      · intro hsize
        exact ⟨image, Or.inr rfl, rfl, hbytes.trans hsize⟩
      · rintro ⟨other, ⟨_, hother⟩ | rfl, hsame, hsize⟩
        · exact absurd hsame hother
        · rw [← hsize, hbytes]
    · rw [AList.lookup_insert_ne hid, h.recorded]
      constructor
      · rintro ⟨other, hmem, rfl, hsize⟩
        exact ⟨other, Or.inl ⟨hmem, hid⟩, rfl, hsize⟩
      · rintro ⟨other, ⟨hmem, _⟩ | rfl, hsame, hsize⟩
        · exact ⟨other, hmem, hsame, hsize⟩
        · exact absurd hsame.symm hid
  · intro other hmem
    rw [himages, List.mem_append, Meter.mem_without, List.mem_singleton] at hmem
    rcases hmem with ⟨hmem, _⟩ | rfl
    · exact h.measured other hmem
    · rw [hbytes]; rfl
  · exact hle

/-- A notification without an image changes no account. -/
theorem Accounts.push_other (h : self.Accounts cap queue)
    (notification : DeferredRunNotification) (hnone : notification.image = none)
    (hroom : queue.length < cap) (phase : RunPhase) :
    Accounts cap (queue ++ [notification]) { self with phase } := by
  have himages : waitingImages (queue ++ [notification]) = waitingImages queue := by
    rw [waitingImages_append]
    have hlast : waitingImages [notification] = [] := List.filterMap_cons_none hnone
    rw [hlast, List.append_nil]
  constructor
  · rw [List.length_append]
    exact hroom
  · rw [himages]; exact h.distinct
  · exact h.total
  · rw [himages]; exact h.recorded
  · rw [himages]; exact h.measured
  · exact h.bounded

theorem accounts_failed (error : Error) {queue : List DeferredRunNotification}
    (hq : (self.failed error).phase.deferred = some queue) :
    (self.failed error).Accounts cap queue := by
  have hnil : queue = [] := by
    rw [failed_phase] at hq
    cases hphase : self.phase with
    | starting _ => rw [hphase] at hq; exact (Option.some.inj hq).symm
    | replaying _ _ => rw [hphase] at hq; exact (Option.some.inj hq).symm
    | active _ => rw [hphase] at hq; cases hq
    | terminalBeforeStart _ => rw [hphase] at hq; cases hq
  subst hnil
  exact accounts_nil cap rfl rfl

/-- Deferring an event keeps the accounts. -/
theorem Accounts.pushDeferred (h : self.Accounts cap queue) (hp : self.pendingFailure = none)
    (hphase : self.phase.deferred = some queue) {event : Event}
    (hcharged : self.chargeDeferredImage event = .ok charged) (turnId sourceMethod : String)
    {queue' : List DeferredRunNotification}
    (hq : (charged.pushDeferred turnId sourceMethod event queue cap).2.phase.deferred
      = some queue') :
    (charged.pushDeferred turnId sourceMethod event queue cap).2.Accounts cap queue' := by
  have hsame : charged.phase = self.phase ∧ charged.pendingFailure = none := by
    obtain ⟨_, _, rfl⟩ := chargeDeferredImage_ok hcharged
    exact ⟨rfl, hp⟩
  unfold RunRoute.pushDeferred at hq ⊢
  dsimp only at hq ⊢
  split at hq
  · rename_i hfull
    rw [if_pos hfull]
    rw [recordFailure_of_none (by exact hsame.2)] at hq ⊢
    exact accounts_failed _ hq
  · rename_i hroom
    rw [if_neg hroom]
    dsimp only at hq ⊢
    rw [hsame.1, RunPhase.setDeferred_deferred hphase] at hq
    obtain rfl := Option.some.inj hq
    have hroom' : (retainOtherImages event queue).length < cap := Nat.lt_of_not_le hroom
    cases himage : event.image with
    | none =>
        obtain rfl := charge_other himage hcharged
        rw [retainOtherImages_of_none himage] at hroom' ⊢
        exact h.push_other (.event turnId sourceMethod event) himage hroom' _
    | some image => exact h.push_image himage hcharged turnId sourceMethod hroom' _

/-- Two routes defer the same and count it the same. -/
theorem Accounts.of_same (h : self.Accounts cap queue) {other : RunRoute}
    (hs : SameButOutput self other) : other.Accounts cap queue where
  few := h.few
  distinct := h.distinct
  total := by rw [hs.deferredImageBytes, hs.deferredImageBytesById]; exact h.total
  recorded := by rw [hs.deferredImageBytesById]; exact h.recorded
  measured := h.measured
  bounded := by rw [hs.deferredImageBytes, hs.maximumOutputBytes]; exact h.bounded

/-- **Routing an event keeps the accounts.** -/
theorem routeEvent_accounts
    (h : ∀ queue, self.phase.deferred = some queue → self.Accounts cap queue)
    (shared : RunShared) (observed : Option String) (sourceMethod : String) (event : Event)
    (defer : Bool) {queue' : List DeferredRunNotification}
    (hq : (self.routeEvent shared observed sourceMethod event defer cap).2.1.phase.deferred
      = some queue') :
    (self.routeEvent shared observed sourceMethod event defer cap).2.1.Accounts cap queue' := by
  unfold routeEvent at hq ⊢
  cases hqueue : (if defer then self.phase.deferred else none) with
  | none =>
      -- the event does not wait: the route fails, or only its output changes
      simp only [hqueue] at hq ⊢
      split at hq
      · rename_i hp
        rw [if_pos hp]
        exact h _ hq
      · rename_i hp
        rw [if_neg hp]
        have hspec := routeEventAfterStart_spec self shared observed sourceMethod event cap
        revert hspec hq
        generalize self.routeEventAfterStart shared observed event cap = result
        intro hq hspec
        obtain ⟨outcome, route', shared'⟩ := result
        cases hspec with
        | afterFailure _ => exact h _ hq
        | beforeTurn hnone _ => cases hnone
        | refusedDeferral _ hnone _ _ => cases hnone
        | deferred _ hnone _ _ => cases hnone
        | mismatch _ _ _ _ => exact h _ hq
        | afterTerminal _ _ => exact h _ hq
        | afterAbandon _ _ => exact h _ hq
        | unowned _ _ _ _ _ hs => exact (h _ (by rw [← hs.phase]; exact hq)).of_same hs
        | refusedDelivery _ _ _ _ _ _ _ _ => exact accounts_failed _ hq
        | delivered _ _ _ _ _ hs _ => exact (h _ (by rw [← hs.phase]; exact hq)).of_same hs
  | some queue =>
      have hphase := RunPhase.deferred_of_ite defer queue hqueue
      simp only [hqueue] at hq ⊢
      split at hq
      · rename_i hp
        rw [if_pos hp]
        exact h _ hq
      · rename_i hp
        rw [if_neg hp]
        have hp' : self.pendingFailure = none := by simpa using hp
        cases observed with
        | none => exact h _ hq
        | some turnId =>
            dsimp only at hq ⊢
            cases hc : self.chargeDeferredImage event with
            | error error =>
                simp only [hc] at hq ⊢
                rw [recordFailure_of_none hp'] at hq ⊢
                exact accounts_failed _ hq
            | ok charged =>
                simp only [hc] at hq ⊢
                exact (h queue hphase).pushDeferred hp' hphase hc turnId sourceMethod hq

end RunRoute

/-! ## The other operations -/

/-- A full queue that a foreign terminal empties holds no image. -/
def KeepsAccounts (w : RegistryWorld) : RegistryOp → Prop
  | .routeTerminal completion _ defer eventCapacity =>
      ∀ route queue owner, defer = true → w.slot.route = some route →
        route.pendingFailure = none → route.phase.deferred = some queue →
        route.phase.turnId = some owner → owner ≠ completion.turnId →
        eventCapacity ≤ queue.length → waitingImages queue = []
  | _ => True

namespace RunSlot

variable {slot : RunSlot} {cap : Nat}

theorem Accounts.routeTerminal (h : slot.Accounts cap) (completion : TurnCompletion)
    (params : Json) (defer : Bool)
    (hg : ∀ route queue owner, defer = true → slot.route = some route →
      route.pendingFailure = none → route.phase.deferred = some queue →
      route.phase.turnId = some owner → owner ≠ completion.turnId →
      cap ≤ queue.length → waitingImages queue = []) :
    (slot.routeTerminal completion params defer cap).2.Accounts cap := by
  intro route' queue' hroute' hq'
  cases hroute : slot.route with
  | none =>
      rw [routeTerminal_of_none hroute, hroute] at hroute'
      cases hroute'
  | some route =>
      have hspec := routeTerminal_of_route hroute completion params defer cap
      revert hspec hroute'
      generalize slot.routeTerminal completion params defer cap = result
      intro hroute' hspec
      obtain ⟨outcome, slot'⟩ := result
      cases hspec with
      | @deferred waiting hqueue hroom =>
          obtain rfl := Option.some.inj hroute'
          have hphase := RunPhase.deferred_of_ite _ waiting hqueue
          rw [RunPhase.setDeferred_deferred hphase] at hq'
          obtain rfl := Option.some.inj hq'
          exact (h route waiting hroute hphase).push_other (.terminal params)
            rfl hroom _
      | duplicate _ => exact h route' queue' hroute' hq'
      | mismatch _ _ _ => exact h route' queue' hroute' hq'
      | @mismatchFull waiting expected hqueue hfull hturn hne =>
          obtain rfl := Option.some.inj hroute'
          have hphase := RunPhase.deferred_of_ite _ waiting hqueue
          rw [RunPhase.setDeferred_deferred hphase] at hq'
          obtain rfl := Option.some.inj hq'
          -- the emptied queue held no image, so nothing was counted either
          have hcond : (defer && route.pendingFailure.isNone) = true := by
            by_contra hc
            rw [if_neg hc] at hqueue; cases hqueue
          rw [Bool.and_eq_true, Option.isNone_iff_eq_none] at hcond
          have hnone := hg route waiting expected hcond.1 hroute hcond.2 hphase hturn hne hfull
          have hbefore := h route waiting hroute hphase
          constructor
          · exact Nat.zero_le _
          · exact List.nodup_nil
          · exact hbefore.total
          · intro id bytes
            have := hbefore.recorded id bytes
            rw [hnone] at this
            exact this
          · intro image hmem; cases hmem
          · exact hbefore.bounded
      | completed hlive _ _ =>
          exfalso
          have hended := publishTerminal_ended hroute'
          rw [RunPhase.isTerminal_of_deferred hq'] at hended
          cases hended

/-- **Every other operation keeps the accounts.** -/
theorem Accounts.apply {w : RegistryWorld} (h : w.slot.Accounts cap) {op : RegistryOp}
    (hcap : FixedCapacity cap w op) (hg : KeepsAccounts w op) : (w.slot.apply op).Accounts cap := by
  intro route' queue' hroute' hq'
  cases op with
  | register eventCapacity bytes =>
      simp only [RunSlot.apply, startRun] at hroute'
      split at hroute'
      · exact h route' queue' hroute' hq'
      · unfold register at hroute'
        cases hroute : w.slot.route with
        | some route =>
            simp only [hroute] at hroute'
            obtain rfl := Option.some.inj hroute'
            exact h route queue' hroute hq'
        | none =>
            simp only [hroute] at hroute'
            obtain rfl := Option.some.inj hroute'
            obtain rfl := Option.some.inj hq'
            exact RunRoute.accounts_nil cap rfl rfl
  | routeEvent observed sourceMethod event defer eventCapacity =>
      obtain rfl : eventCapacity = cap := hcap
      simp only [RunSlot.apply, routeEvent] at hroute'
      split at hroute'
      · exact h route' queue' hroute' hq'
      · rename_i route hroute
        obtain rfl := Option.some.inj hroute'
        exact RunRoute.routeEvent_accounts (fun queue hq => h route queue hroute hq) _ observed
          sourceMethod event defer hq'
  | routeTerminal completion params defer eventCapacity =>
      obtain rfl : eventCapacity = cap := hcap
      exact h.routeTerminal completion params defer hg route' queue' hroute' hq'
  | acknowledgeStart turnId =>
      simp only [RunSlot.apply, acknowledgeStart] at hroute'
      split at hroute'
      · exact h route' queue' hroute' hq'
      · split at hroute'
        · obtain rfl := Option.some.inj hroute'
          obtain rfl := Option.some.inj hq'
          exact RunRoute.accounts_nil cap rfl rfl
        · split at hroute'
          · exact h route' queue' hroute' hq'
          · cases hroute'
        · cases hroute'
        · exact h route' queue' hroute' hq'
        · exact h route' queue' hroute' hq'
  | replayTransition turnId =>
      simp only [RunSlot.apply, replayTransition] at hroute'
      split at hroute'
      · exact h route' queue' hroute' hq'
      · split at hroute'
        · split at hroute'
          · split at hroute'
            · obtain rfl := Option.some.inj hroute'
              cases hq'
            · obtain rfl := Option.some.inj hroute'
              obtain rfl := Option.some.inj hq'
              exact RunRoute.accounts_nil cap rfl rfl
          · exact h route' queue' hroute' hq'
        · exact h route' queue' hroute' hq'
        · exact h route' queue' hroute' hq'
        · exact h route' queue' hroute' hq'
  | failBeforeStart error =>
      simp only [RunSlot.apply, failBeforeStart] at hroute'
      split at hroute'
      · exact h route' queue' hroute' hq'
      · split at hroute'
        · obtain rfl := Option.some.inj hroute'
          cases hq'
        · exact h route' queue' hroute' hq'
        · exact h route' queue' hroute' hq'
        · exact h route' queue' hroute' hq'
  | failActive turnId control error =>
      simp only [RunSlot.apply, failActive] at hroute'
      split at hroute'
      · exact h route' queue' hroute' hq'
      · rename_i route hroute
        split at hroute'
        · exact h route' queue' hroute' hq'
        · obtain rfl := Option.some.inj hroute'
          obtain ⟨h1, h2, h3, h4, h5, h6⟩ := h route queue' hroute hq'
          exact ⟨h1, h2, h3, h4, h5, h6⟩
  | cancelRegistered =>
      simp only [RunSlot.apply, cancelRegistered] at hroute'
      split at hroute'
      · exact h route' queue' hroute' hq'
      · rename_i route hroute
        split at hroute'
        · cases hroute'
        · split at hroute'
          · obtain rfl := Option.some.inj hroute'
            exact h route queue' hroute hq'
          · cases hroute'
  | failAll error =>
      simp only [RunSlot.apply, failAll] at hroute'
      split at hroute'
      · exact h route' queue' hroute' hq'
      · cases hroute'
  | abandon run => exact h route' queue' hroute' hq'
  | dropChannels run => exact h route' queue' hroute' hq'

/-- A foreign terminal that empties a queue with an image leaves its bytes counted. -/
theorem not_accounts_of_emptied (h : slot.Accounts cap) {completion : TurnCompletion}
    (params : Json) {route : RunRoute} {queue : List DeferredRunNotification} {owner : String}
    (hroute : slot.route = some route) (hp : route.pendingFailure = none)
    (hq : route.phase.deferred = some queue) (hturn : route.phase.turnId = some owner)
    (hne : owner ≠ completion.turnId) (hfull : cap ≤ queue.length)
    (hwaiting : waitingImages queue ≠ []) :
    ¬ (slot.routeTerminal completion params true cap).2.Accounts cap := by
  intro hafter
  have hbefore := h route queue hroute hq
  obtain ⟨image, hmem⟩ := List.exists_mem_of_ne_nil _ hwaiting
  obtain ⟨bytes, hbytes⟩ := Option.isSome_iff_exists.mp (hbefore.measured image hmem)
  have hrecorded := (hbefore.recorded image.id bytes).mpr ⟨image, hmem, rfl, hbytes⟩
  have hresult : (slot.routeTerminal completion params true cap).2
      = slot.store { route with phase := route.phase.setDeferred [] } (slot.cells route.run) := by
    unfold RunSlot.routeTerminal
    rw [hroute]
    simp only [Bool.true_and, hp, Option.isNone_none, if_true, hq, if_neg (Nat.not_lt.mpr hfull)]
    unfold settleTerminal
    have hlive := RunPhase.isTerminal_of_deferred hq
    simp only [RunPhase.setDeferred_isTerminal, hlive, RunPhase.setDeferred_turnId, hturn,
      if_pos hne, Bool.false_eq_true, if_false]
  rw [hresult] at hafter
  have hempty := hafter _ [] rfl (RunPhase.setDeferred_deferred hq [])
  obtain ⟨other, hother, _⟩ := (hempty.recorded image.id bytes).mp hrecorded
  cases hother

/-- The images that wait and the new one are over the limit, if it is refused for it. -/
theorem Accounts.refused (h : slot.Accounts cap) {route route' : RunRoute}
    {queue : List DeferredRunNotification} (hroute : slot.route = some route)
    (hq : route.phase.deferred = some queue) (hp : route.pendingFailure = none)
    {turnId sourceMethod : String} {image : ImageGeneration} {error : Error}
    (hroute' : (slot.routeEvent (some turnId) sourceMethod (.imageGeneration image) true cap).2.route
      = some route')
    (herror : route'.pendingFailure = some error) (hkind : error.kind = .resourceLimit) :
    min route.maximumOutputBytes usizeMax
      < Meter.total ImageGeneration.retainedSize
          (Meter.without (·.id) (waitingImages queue) image.id) + image.payloadBytes := by
  have hacc := h route queue hroute hq
  unfold RunSlot.routeEvent at hroute'
  rw [hroute] at hroute'
  have hrouted := Option.some.inj hroute'
  unfold RunRoute.routeEvent at hrouted
  simp only [hp, Option.isSome_none, Bool.false_eq_true, if_false, if_true, hq] at hrouted
  have hwaiting := hacc.waiting
  have hprevious := hacc.previous image.id
  have hwithout := Meter.total_without ImageGeneration.retainedSize hacc.distinct image.id
  have hsize := image.retainedBytes_eq
  by_contra hle
  -- below both limits the charge succeeds, and only the length of the queue can refuse
  have hfits : image.payloadBytes ≤ usizeMax := by omega
  rw [if_pos hfits] at hsize
  have hcharge : ∃ charged,
      route.chargeDeferredImage (.imageGeneration image) = .ok charged := by
    unfold RunRoute.chargeDeferredImage
    simp only [hsize]
    rw [checkedSub, if_pos (by omega), Option.bind_some, checkedAdd, if_pos (by omega)]
    dsimp only
    rw [if_neg (by omega)]
    exact ⟨_, rfl⟩
  obtain ⟨charged, hcharged⟩ := hcharge
  have hpcharged : charged.pendingFailure = none := by
    obtain ⟨_, _, rfl⟩ := RunRoute.chargeDeferredImage_ok hcharged
    exact hp
  rw [hcharged] at hrouted
  dsimp only at hrouted
  unfold RunRoute.pushDeferred at hrouted
  dsimp only at hrouted
  split at hrouted
  · rw [RunRoute.recordFailure_of_none (by exact hpcharged)] at hrouted
    rw [← hrouted, RunRoute.failed_pendingFailure] at herror
    rw [← Option.some.inj herror] at hkind
    cases hkind
  · rw [← hrouted] at herror
    rw [show (_ : Option Error) = none from hpcharged] at herror
    cases herror

end RunSlot

/-! ## Every run of operations -/

theorem accounts_reachable {threadId : String} {cap : Nat} {w : RegistryWorld}
    (h : (registryMachine threadId).Reachable
      (fun w op => FixedCapacity cap w op ∧ KeepsAccounts w op) w) : w.slot.Accounts cap := by
  refine h.invariant (P := fun w => w.slot.Accounts cap) ?_ ?_
  · intro route queue hroute
    cases hroute
  · intro s op _ ih hg
    exact RunSlot.Accounts.apply ih hg.1 hg.2

/--
**The waiting images are accounted for.** In every run under one event capacity in
which no terminal of another turn finds a full queue with an image in it, in every
state: the queue of the thread's route holds at most the capacity and one image per
id, the bytes on record are exactly those of the waiting images, the count is their
sum and within the limit. Such a terminal is the only operation after which this
fails. And an image is refused for its bytes only if the other images that really
wait, with it, exceed the limit.
-/
theorem waiting_images_accounted {threadId : String} {cap : Nat} {w : RegistryWorld}
    (h : (registryMachine threadId).Reachable
      (fun w op => FixedCapacity cap w op ∧ KeepsAccounts w op) w) :
    w.slot.Accounts cap
    ∧ (∀ op, FixedCapacity cap w op → ((w.act op).slot.Accounts cap ↔ KeepsAccounts w op))
    ∧ ∀ route route' queue turnId sourceMethod image error,
        w.slot.route = some route → route.phase.deferred = some queue →
        route.pendingFailure = none →
        (w.slot.routeEvent (some turnId) sourceMethod (.imageGeneration image) true cap).2.route
          = some route' →
        route'.pendingFailure = some error → error.kind = .resourceLimit →
        min route.maximumOutputBytes usizeMax
          < Meter.total ImageGeneration.retainedSize
              (Meter.without (·.id) (waitingImages queue) image.id) + image.payloadBytes := by
  have hacc := accounts_reachable h
  refine ⟨hacc, ?_, ?_⟩
  · intro op hcap
    constructor
    · intro hafter
      cases op with
      | routeTerminal completion params defer eventCapacity =>
          obtain rfl : eventCapacity = cap := hcap
          intro route queue owner hdefer hroute hp hq hturn hne hfull
          subst hdefer
          by_contra hwaiting
          exact RunSlot.not_accounts_of_emptied hacc params hroute hp hq hturn hne hfull hwaiting
            hafter
      | _ => trivial
    · intro hg
      exact RunSlot.Accounts.apply hacc hcap hg
  · intro route route' queue turnId sourceMethod image error hroute hq hp hroute' herror hkind
    exact hacc.refused hroute hq hp hroute' herror hkind

/-- An image that is seen twice before the acknowledgement, and the terminal of an older turn. -/
theorem waiting_images_accounted_replaced :
    let started : ImageGeneration := ⟨"image", "inProgress", none, "", none, none, none⟩
    let w := (registryMachine "thread").run
      [.register 2 64, .routeEvent (some "turn") "item/started" (.imageGeneration started) true 2,
        .routeEvent (some "turn") "item/completed"
          (.imageGeneration { started with status := "completed", resultBase64 := "iVBORw0KGgo=" })
          true 2,
        .routeTerminal (.completed "older") (Json.turnCompleted "older") true 2]
    w.slot.Accounts 2
      ∧ w.slot.route.map (fun route => (route.deferredImageBytes,
          (route.phase.deferred.map (fun queue => (queue.length, waitingImages queue)))))
        = some (26, some (2,
            [{ started with status := "completed", resultBase64 := "iVBORw0KGgo=" }])) := by
  intro started w
  have hreach : (registryMachine "thread").Reachable
      (fun w op => FixedCapacity 2 w op ∧ KeepsAccounts w op) w := by
    refine Machine.Reachable.step (Machine.Reachable.step (Machine.Reachable.step
      (Machine.Reachable.step Machine.reachable_init ⟨rfl, trivial⟩) ⟨rfl, trivial⟩)
      ⟨rfl, trivial⟩) ⟨rfl, ?_⟩
    intro route queue owner _ hroute _ hqueue hturn _ _
    -- the route is not acknowledged, so it has no turn that could differ
    have hnone : ((((registryMachine "thread").run
        [.register 2 64, .routeEvent (some "turn") "item/started" (.imageGeneration started) true 2,
          .routeEvent (some "turn") "item/completed"
            (.imageGeneration { started with
              status := "completed", resultBase64 := "iVBORw0KGgo=" })
            true 2]).slot.route).bind (·.phase.turnId)) = none := by decide +kernel
    have hsome : (((registryMachine "thread").run
        [.register 2 64, .routeEvent (some "turn") "item/started" (.imageGeneration started) true 2,
          .routeEvent (some "turn") "item/completed"
            (.imageGeneration { started with
              status := "completed", resultBase64 := "iVBORw0KGgo=" })
            true 2]).slot.route).bind (·.phase.turnId) = some owner :=
      Option.bind_eq_some_iff.mpr ⟨route, hroute, hturn⟩
    rw [hnone] at hsome
    cases hsome
  exact ⟨(waiting_images_accounted hreach).1, by decide +kernel⟩

/-- A terminal of an older turn empties a full queue in the middle of a replay: nothing waits,
and the bytes of the discarded image are still counted. -/
theorem waiting_images_miscounted :
    ¬ ∀ (threadId : String) (cap : Nat) (w : RegistryWorld),
      (registryMachine threadId).Reachable (FixedCapacity cap) w → w.slot.Accounts cap := by
  intro hall
  let started : ImageGeneration := ⟨"image", "inProgress", none, "", none, none, none⟩
  let w := (registryMachine "thread").run
    [.register 1 64, .acknowledgeStart "turn",
      .routeEvent (some "turn") "item/started" (.imageGeneration started) true 1,
      .routeTerminal (.completed "older") (Json.turnCompleted "older") true 1]
  have hreach : (registryMachine "thread").Reachable (FixedCapacity 1) w :=
    Machine.Reachable.step (Machine.Reachable.step (Machine.Reachable.step
      (Machine.Reachable.step Machine.reachable_init rfl) trivial) rfl) rfl
  have hbytes : w.slot.route.map (·.deferredImageBytes) = some 15 := by decide +kernel
  have hqueue : w.slot.route.bind (·.phase.deferred.map waitingImages) = some [] := by
    decide +kernel
  obtain ⟨route, hroute, hcount⟩ := Option.map_eq_some_iff.mp hbytes
  rw [hroute, Option.bind_some] at hqueue
  obtain ⟨queue, hdeferred, hempty⟩ := Option.map_eq_some_iff.mp hqueue
  have hwaiting := (hall "thread" 1 w hreach route queue hroute hdeferred).waiting
  rw [hcount, hempty] at hwaiting
  cases hwaiting

end Vergerail
