import Vergerail.Lib.Meter
import Vergerail.Proof.RouteOps
import Vergerail.Session.Registry

/-!
# The retained output stays within its budget

A route retains text and images up to `maximum_output_bytes`, and counts the bytes of
its images in `image_generation_bytes`. Only `route_event_after_start` changes what is
retained, so `OutputStep` says what routing an event can do to it; every other
operation leaves it alone or starts a fresh route.

An event whose size or count limit refuses it is refused before anything is written.
An event that the run's channel refuses is already retained by then: that refusal is
the consumer's lag, not a limit of the output.
-/

namespace Vergerail

open Lib

/-! ## The size of an image -/

/-- The bytes `retained_bytes` adds up, without the platform limit. -/
def ImageGeneration.payloadBytes (self : ImageGeneration) : Nat :=
  self.id.utf8ByteSize + self.status.utf8ByteSize + self.resultBase64.utf8ByteSize
    + (self.revisedPrompt.map String.utf8ByteSize).getD 0
    + (self.savedPath.map String.utf8ByteSize).getD 0
    + (self.failure.map ImageGenerationFailure.retainedBytes).getD 0

theorem checkedAdd_eq_some {a b c : Nat} :
    checkedAdd a b = some c ↔ c = a + b ∧ a + b ≤ usizeMax := by
  unfold checkedAdd
  split
  · rename_i h
    simp only [Option.some.injEq, h, and_true]
    exact eq_comm
  · rename_i h
    simp [h]

theorem checkedAdd_bind {β : Type} (a b : Nat) (f : Nat → Option β) :
    (checkedAdd a b).bind f = if a + b ≤ usizeMax then f (a + b) else none := by
  unfold checkedAdd
  split <;> rfl

/-- `retained_bytes` is the sum of the parts while the platform can count it. -/
theorem ImageGeneration.retainedBytes_eq (self : ImageGeneration) :
    self.retainedBytes
      = if self.payloadBytes ≤ usizeMax then some self.payloadBytes else none := by
  obtain ⟨id, status, prompt, result, background, failure, path⟩ := self
  unfold retainedBytes payloadBytes
  cases prompt <;> cases path <;> cases failure <;>
    simp only [bind, pure, checkedAdd_bind, Option.map_none, Option.map_some,
      Option.getD_none, Option.getD_some] <;>
    split_ifs <;> first | rfl | omega

/-- What an image counts for in the output of a run. -/
def ImageGeneration.retainedSize (self : ImageGeneration) : Nat := self.retainedBytes.getD 0

namespace RunRoute

/-- The output of a route is within its budget and counted right. -/
structure WithinBudget (cap : Nat) (route : RunRoute) : Prop where
  bounded : route.text.utf8ByteSize + route.imageGenerationBytes ≤ route.maximumOutputBytes
  measured : ∀ image ∈ route.imageGenerations, image.retainedBytes.isSome
  counted : route.imageGenerationBytes
    = Meter.total ImageGeneration.retainedSize route.imageGenerations
  distinct : (route.imageGenerations.map (·.id)).Nodup
  few : route.imageGenerations.length ≤ cap

/-- Two routes retain the same output and count it the same. -/
structure SameOutput (a b : RunRoute) : Prop where
  output : b.output = a.output
  imageGenerationBytes : b.imageGenerationBytes = a.imageGenerationBytes
  maximumOutputBytes : b.maximumOutputBytes = a.maximumOutputBytes

theorem SameOutput.refl (self : RunRoute) : SameOutput self self := ⟨rfl, rfl, rfl⟩

theorem WithinBudget.of_same {cap : Nat} {a b : RunRoute} (h : a.WithinBudget cap)
    (hs : SameOutput a b) : b.WithinBudget cap := by
  have htext : b.text = a.text := congrArg RetainedOutput.text hs.output
  have himages : b.imageGenerations = a.imageGenerations :=
    congrArg RetainedOutput.imageGenerations hs.output
  constructor
  · rw [htext, hs.imageGenerationBytes, hs.maximumOutputBytes]; exact h.bounded
  · rw [himages]; exact h.measured
  · rw [himages, hs.imageGenerationBytes]; exact h.counted
  · rw [himages]; exact h.distinct
  · rw [himages]; exact h.few

/-! ## What one event does to the output -/

section Retain

variable {self retained : RunRoute} {cap : Nat}

/-- The previous bytes of an image are those of the state it replaces. -/
theorem previousBytes_eq (images : List ImageGeneration) (id : String) :
    (((images.findIdx? (fun candidate => candidate.id == id)).bind
        (fun index => images[index]?)).bind ImageGeneration.retainedBytes).getD 0
      = ((Meter.at? (·.id) images id).map ImageGeneration.retainedSize).getD 0 := by
  rw [← List.find?_eq_bind_findIdx?_getElem?]
  unfold Meter.at?
  cases images.find? (fun candidate => candidate.id == id) <;> rfl

/-- An image seen for the first time. -/
theorem findIdx?_image_isNone {images : List ImageGeneration} {id : String} :
    (images.findIdx? (fun candidate => candidate.id == id)).isNone = true
      ↔ id ∉ images.map (·.id) := by
  rw [Option.isNone_iff_eq_none, List.findIdx?_eq_none_iff, List.mem_map]
  constructor
  · rintro h ⟨image, hmem, rfl⟩
    simpa using h image hmem
  · intro h image hmem
    simpa using fun hid => h ⟨image, hmem, hid⟩

theorem retainText_within (h : self.WithinBudget cap) {delta : String}
    (hr : self.retainOutput (.textDelta delta) cap = .ok retained) :
    retained.WithinBudget cap := by
  unfold retainOutput at hr
  dsimp only at hr
  split at hr
  · cases hr
  · rename_i outputBytes hbytes
    split at hr
    · cases hr
    · rename_i hle
      obtain rfl := Except.ok.inj hr
      rw [checkedAdd_bind] at hbytes
      split at hbytes
      · obtain ⟨hsum, _⟩ := checkedAdd_eq_some.mp hbytes
        refine ⟨?_, h.measured, h.counted, h.distinct, h.few⟩
        show (self.text ++ delta).utf8ByteSize + self.imageGenerationBytes
          ≤ self.maximumOutputBytes
        rw [String.utf8ByteSize_append]
        omega
      · cases hbytes

theorem retainImage_within (h : self.WithinBudget cap) {image : ImageGeneration}
    (hr : self.retainOutput (.imageGeneration image) cap = .ok retained) :
    retained.WithinBudget cap := by
  unfold retainOutput at hr
  dsimp only at hr
  split at hr
  · cases hr
  · rename_i imageBytes himage
    split at hr
    · cases hr
    · rename_i hroom
      rw [previousBytes_eq] at hr
      split at hr
      · cases hr
      · rename_i retainedBytes hbytes
        split at hr
        · cases hr
        · rename_i hfits
          obtain rfl := Except.ok.inj hr
          -- the count after the replacement
          have hsize : image.retainedSize = imageBytes := by
            unfold ImageGeneration.retainedSize; rw [himage]; rfl
          have htotal := Meter.total_upsert (·.id) ImageGeneration.retainedSize
            self.imageGenerations image
          have hcount : retainedBytes
              = Meter.total ImageGeneration.retainedSize
                  (upsert (·.id) self.imageGenerations image) := by
            unfold checkedSub at hbytes
            split at hbytes
            · obtain ⟨hsum, _⟩ := checkedAdd_eq_some.mp hbytes
              have := h.counted
              omega
            · cases hbytes
          have hlength := length_upsert (·.id) self.imageGenerations image
          refine ⟨?_, ?_, hcount, nodup_upsert h.distinct image, ?_⟩
          · show self.text.utf8ByteSize + retainedBytes ≤ self.maximumOutputBytes
            unfold checkedAdd at hfits
            split at hfits
            · simpa using hfits
            · exact absurd rfl hfits
          · intro other hmem
            rcases mem_upsert hmem with hold | rfl
            · exact h.measured other hold
            · rw [himage]; rfl
          · have hfew := h.few
            show (upsert (·.id) self.imageGenerations image).length ≤ cap
            rw [hlength]
            split
            · exact hfew
            · rename_i hnew
              have hnone := findIdx?_image_isNone.mpr hnew
              rw [hnone, Bool.true_and, decide_eq_true_eq] at hroom
              omega

/-- **What is retained stays within the budget.** -/
theorem retainOutput_within (h : self.WithinBudget cap) {event : Event}
    (hr : self.retainOutput event cap = .ok retained) : retained.WithinBudget cap := by
  cases event with
  | textDelta delta => exact retainText_within h hr
  | imageGeneration image => exact retainImage_within h hr
  | usageUpdated usage =>
      obtain rfl := Except.ok.inj hr
      exact ⟨h.bounded, h.measured, h.counted, h.distinct, h.few⟩
  | _ =>
      obtain rfl := Except.ok.inj hr
      exact h

end Retain

/-! ## What one operation does to the output -/

/-- What routing an event can do to the output of a route. `queue` is the queue the event
would wait in. -/
inductive OutputStep (self : RunRoute) (event : Event) (cap : Nat)
    (queue : Option (List DeferredRunNotification)) (route' : RunRoute) : Prop where
  /-- The event is refused before anything is written, waits, or is not the run's. -/
  | kept : SameOutput self route' → OutputStep self event cap queue route'
  /-- The event is retained. A failure recorded now is the channel's. -/
  | retained {base : RunRoute} : queue = none → self.retainOutput event cap = .ok base →
      SameOutput base route' →
      (∀ error, route'.pendingFailure = some error → error.kind ≠ .resourceLimit) →
      OutputStep self event cap queue route'

theorem sameOutput_recordFailure (self : RunRoute) (turnId : String) (error : Error) :
    SameOutput self (self.recordFailure turnId error).2 := by
  unfold recordFailure
  split <;> exact ⟨rfl, rfl, rfl⟩

theorem sameOutput_failTurn (self : RunRoute) (observed : Option String) (error : Error) :
    SameOutput self (self.failTurn observed error).2 := by
  unfold failTurn
  split
  · exact .refl self
  · exact sameOutput_recordFailure ..

/-- A route without a failure fails with the error it is given, if it fails. -/
theorem failTurn_pendingFailure {self : RunRoute} (hp : self.pendingFailure = none)
    (observed : Option String) {error recorded : Error}
    (h : (self.failTurn observed error).2.pendingFailure = some recorded) : recorded = error := by
  unfold failTurn at h
  split at h
  · rw [hp] at h; cases h
  · rw [recordFailure_of_none hp] at h
    exact (Option.some.inj h).symm

theorem sameOutput_pushDeferred (self : RunRoute) (turnId sourceMethod : String) (event : Event)
    (queue : List DeferredRunNotification) (cap : Nat) :
    SameOutput self (self.pushDeferred turnId sourceMethod event queue cap).2 := by
  unfold pushDeferred
  dsimp only
  split
  · obtain ⟨h1, h2, h3⟩ := sameOutput_recordFailure
      { self with phase := self.phase.setDeferred (retainOtherImages event queue) } turnId
      (Error.new .consumerLagged "run.events"
        "bounded pre-acknowledgement event queue is full; the turn will be interrupted")
    exact ⟨h1, h2, h3⟩
  · exact ⟨rfl, rfl, rfl⟩

theorem deliver_outputStep {self : RunRoute} (shared : RunShared) (event : Event) (cap : Nat)
    (observed : Option String) :
    OutputStep self event cap none
      (routeEventAfterStart.deliver self shared event cap observed).2.1 := by
  unfold routeEventAfterStart.deliver
  split
  · exact .kept (.refl self)
  · split
    · exact .kept (.refl self)
    · rename_i hp
      have hp' : self.pendingFailure = none := by simpa using hp
      split
      · exact .kept (.refl self)
      · cases hr : self.retainOutput event cap with
        | error error => exact .kept (sameOutput_failTurn ..)
        | ok base =>
            have hbase : base.pendingFailure = none :=
              (retainOutput_ok hr).2.pendingFailure.trans hp'
            dsimp only
            split
            · refine .retained rfl hr (.refl base) ?_
              intro error herror
              rw [hbase] at herror; cases herror
            · refine .retained rfl hr (sameOutput_failTurn ..) ?_
              intro error herror
              rw [failTurn_pendingFailure hbase observed herror]
              exact fun hkind => ErrorKind.noConfusion hkind
            · refine .retained rfl hr (sameOutput_failTurn ..) ?_
              intro error herror
              rw [failTurn_pendingFailure hbase observed herror]
              exact fun hkind => ErrorKind.noConfusion hkind

theorem routeEvent_outputStep (self : RunRoute) (shared : RunShared) (observed : Option String)
    (sourceMethod : String) (event : Event) (defer : Bool) (cap : Nat) :
    OutputStep self event cap (if defer then self.phase.deferred else none)
      (self.routeEvent shared observed sourceMethod event defer cap).2.1 := by
  unfold routeEvent
  generalize (if defer then self.phase.deferred else none) = queue
  split
  · exact .kept (.refl self)
  · cases queue with
    | none =>
        dsimp only
        unfold routeEventAfterStart
        split
        · split
          · exact .kept (.refl self)
          · exact deliver_outputStep ..
        · exact deliver_outputStep ..
    | some waiting =>
        cases observed with
        | none => exact .kept (.refl self)
        | some turnId =>
            dsimp only
            cases hc : self.chargeDeferredImage event with
            | error error => exact .kept (sameOutput_recordFailure ..)
            | ok charged =>
                -- the accounting of the waiting images is no part of the output
                obtain ⟨bytes, byId, rfl⟩ := chargeDeferredImage_ok hc
                obtain ⟨h1, h2, h3⟩ := sameOutput_pushDeferred
                  { self with deferredImageBytes := bytes, deferredImageBytesById := byId }
                  turnId sourceMethod event waiting cap
                exact .kept ⟨h1, h2, h3⟩

end RunRoute

/-- The output of the thread's route after an operation: a fresh one's, what routing an event
made of it, or what it was. -/
inductive RunSlot.OutputOrigin (slot : RunSlot) (op : RegistryOp) (route' : RunRoute) : Prop where
  | fresh {cap bytes : Nat} : op = .register cap bytes →
      route' = RunSlot.freshRoute slot.registered bytes → OutputOrigin slot op route'
  | routed {observed : Option String} {sourceMethod : String} {event : Event} {defer : Bool}
      {cap : Nat} {route : RunRoute} :
      op = .routeEvent observed sourceMethod event defer cap → slot.route = some route →
      route.OutputStep event cap (if defer then route.phase.deferred else none) route' →
      OutputOrigin slot op route'
  | same {route : RunRoute} : slot.route = some route → route.SameOutput route' →
      OutputOrigin slot op route'

namespace RunSlot

variable {slot : RunSlot} {route' : RunRoute}

theorem outputOrigin_startRun {cap bytes : Nat}
    (h : (slot.startRun cap bytes).2.route = some route') :
    OutputOrigin slot (.register cap bytes) route' := by
  unfold startRun at h
  split at h
  · exact .same h (.refl _)
  · unfold register at h
    cases hroute : slot.route with
    | some route =>
        simp only [hroute] at h
        exact .same hroute (by obtain rfl := Option.some.inj h; exact .refl _)
    | none =>
        simp only [hroute] at h
        exact .fresh rfl (Option.some.inj h).symm

theorem outputOrigin_routeEvent {observed : Option String} {sourceMethod : String}
    {event : Event} {defer : Bool} {cap : Nat}
    (h : (slot.routeEvent observed sourceMethod event defer cap).2.route = some route') :
    OutputOrigin slot (.routeEvent observed sourceMethod event defer cap) route' := by
  unfold routeEvent at h
  cases hroute : slot.route with
  | none => rw [hroute] at h; exact absurd (hroute.symm.trans h) (by simp)
  | some route =>
      rw [hroute] at h
      obtain rfl := Option.some.inj h
      exact .routed rfl hroute (route.routeEvent_outputStep ..)

theorem outputOrigin_routeTerminal {completion : TurnCompletion} {params : Json} {defer : Bool}
    {cap : Nat}
    (h : (slot.routeTerminal completion params defer cap).2.route = some route') :
    OutputOrigin slot (.routeTerminal completion params defer cap) route' := by
  cases hroute : slot.route with
  | none =>
      rw [routeTerminal_of_none hroute, hroute] at h
      cases h
  | some route =>
      have hspec := routeTerminal_of_route hroute completion params defer cap
      revert hspec h
      generalize slot.routeTerminal completion params defer cap = result
      intro h hspec
      obtain ⟨outcome, slot'⟩ := result
      cases hspec with
      | deferred _ _ =>
          obtain rfl := Option.some.inj h
          exact .same hroute ⟨rfl, rfl, rfl⟩
      | duplicate _ => exact .same h (.refl _)
      | mismatch _ _ _ => exact .same h (.refl _)
      | mismatchFull _ _ _ _ =>
          obtain rfl := Option.some.inj h
          exact .same hroute ⟨rfl, rfl, rfl⟩
      | completed _ _ _ =>
          dsimp only at h
          split at h
          · obtain rfl := Option.some.inj h
            exact .same hroute ⟨rfl, rfl, rfl⟩
          · cases h

/-- **Only a registration and a routed event change what is retained.** -/
theorem outputOrigin_apply {op : RegistryOp} (h : (slot.apply op).route = some route') :
    OutputOrigin slot op route' := by
  cases op with
  | register cap bytes => exact outputOrigin_startRun h
  | routeEvent observed sourceMethod event defer cap => exact outputOrigin_routeEvent h
  | routeTerminal completion params defer cap => exact outputOrigin_routeTerminal h
  | acknowledgeStart turnId =>
      simp only [apply, acknowledgeStart] at h
      split at h
      · exact .same h (.refl _)
      · rename_i route hroute
        split at h
        · obtain rfl := Option.some.inj h
          exact .same hroute ⟨rfl, rfl, rfl⟩
        · split at h
          · exact .same h (.refl _)
          · cases h
        · cases h
        · exact .same h (.refl _)
        · exact .same h (.refl _)
  | replayTransition turnId =>
      simp only [apply, replayTransition] at h
      split at h
      · exact .same h (.refl _)
      · rename_i route hroute
        split at h
        · split at h
          · split at h
            · obtain rfl := Option.some.inj h
              exact .same hroute ⟨rfl, rfl, rfl⟩
            · obtain rfl := Option.some.inj h
              exact .same hroute ⟨rfl, rfl, rfl⟩
          · exact .same h (.refl _)
        · exact .same h (.refl _)
        · exact .same h (.refl _)
        · exact .same h (.refl _)
  | failBeforeStart error =>
      simp only [apply, failBeforeStart] at h
      split at h
      · exact .same h (.refl _)
      · rename_i route hroute
        split at h
        · obtain rfl := Option.some.inj h
          exact .same hroute ⟨rfl, rfl, rfl⟩
        · exact .same h (.refl _)
        · exact .same h (.refl _)
        · exact .same h (.refl _)
  | failActive turnId control error =>
      simp only [apply, failActive] at h
      split at h
      · exact .same h (.refl _)
      · rename_i route hroute
        split at h
        · exact .same h (.refl _)
        · obtain rfl := Option.some.inj h
          exact .same hroute ⟨rfl, rfl, rfl⟩
  | cancelRegistered =>
      simp only [apply, cancelRegistered] at h
      split at h
      · exact .same h (.refl _)
      · rename_i route hroute
        split at h
        · cases h
        · split at h
          · obtain rfl := Option.some.inj h
            exact .same hroute ⟨rfl, rfl, rfl⟩
          · cases h
  | failAll error =>
      simp only [apply, failAll] at h
      split at h
      · exact .same h (.refl _)
      · cases h
  | abandon run => exact .same h (.refl _)
  | dropChannels run => exact .same h (.refl _)

end RunSlot

/-! ## Every run of operations -/

theorem withinBudget_freshRoute (cap run bytes : Nat) :
    (RunSlot.freshRoute run bytes).WithinBudget cap where
  bounded := Nat.zero_le _
  measured := by intro image h; cases h
  counted := rfl
  distinct := List.nodup_nil
  few := Nat.zero_le _

theorem RunRoute.OutputStep.within {route route' : RunRoute} {event : Event} {cap : Nat}
    {queue : Option (List DeferredRunNotification)} (h : route.WithinBudget cap)
    (hs : route.OutputStep event cap queue route') : route'.WithinBudget cap := by
  cases hs with
  | kept hsame => exact h.of_same hsame
  | retained _ hr hsame _ => exact (RunRoute.retainOutput_within h hr).of_same hsame

theorem withinBudget_reachable {threadId : String} {cap : Nat} {w : RegistryWorld}
    (h : (registryMachine threadId).Reachable (FixedCapacity cap) w) :
    ∀ route, w.slot.route = some route → route.WithinBudget cap := by
  refine h.invariant (P := fun w => ∀ route, w.slot.route = some route →
    route.WithinBudget cap) ?_ ?_
  · intro route hroute
    cases hroute
  · intro s op _ ih hcap route' hroute'
    have horigin : s.slot.OutputOrigin op route' := RunSlot.outputOrigin_apply hroute'
    cases horigin with
    | fresh _ hroute => rw [hroute]; exact withinBudget_freshRoute ..
    | routed hop hroute hstep =>
        subst hop
        obtain rfl : _ = cap := hcap
        exact hstep.within (ih _ hroute)
    | same hroute hsame => exact (ih _ hroute).of_same hsame

/--
**The retained output stays within its budget.** In every reachable state of a
thread's entry under one event capacity: text and images together fit the limit, the
byte count of the images is the sum of their sizes, their ids are distinct and at most
the capacity many; and an event refused because of a size or count limit, or while it
would have had to wait, leaves what is retained and its count as they were.
-/
theorem retained_output_within_budget {threadId : String} {cap : Nat} {w : RegistryWorld}
    (h : (registryMachine threadId).Reachable (FixedCapacity cap) w) {route : RunRoute}
    (hroute : w.slot.route = some route) :
    route.WithinBudget cap
    ∧ ∀ observed sourceMethod event defer turnId control route' error,
        (w.slot.routeEvent observed sourceMethod event defer cap).1 = .routeFailure turnId control →
        (w.slot.routeEvent observed sourceMethod event defer cap).2.route = some route' →
        route'.pendingFailure = some error →
        error.kind = .resourceLimit ∨ (defer = true ∧ route.phase.deferred.isSome = true) →
        route.SameOutput route' := by
  refine ⟨withinBudget_reachable h route hroute, ?_⟩
  intro observed sourceMethod event defer turnId control route' error _ hroute' herror hlimit
  have hstep := route.routeEvent_outputStep (w.slot.cells route.run) observed sourceMethod event
    defer cap
  have hroute'' : (route.routeEvent (w.slot.cells route.run) observed sourceMethod event
      defer cap).2.1 = route' := by
    unfold RunSlot.routeEvent at hroute'
    rw [hroute] at hroute'
    exact Option.some.inj hroute'
  rw [hroute''] at hstep
  cases hstep with
  | kept hsame => exact hsame
  | retained hqueue _ _ hkind =>
      rcases hlimit with hlimit | ⟨rfl, hsome⟩
      · exact absurd hlimit (hkind error herror)
      · rw [if_pos rfl] at hqueue
        rw [hqueue] at hsome; cases hsome

/-- A text delta that fills the budget, and one that no longer fits. -/
theorem retained_output_within_budget_full :
    let w := (registryMachine "thread").run
      [.register 4 4, .acknowledgeStart "turn", .replayTransition "turn",
        .routeEvent (some "turn") "item/agentMessage/delta" (.textDelta "1234") true 4]
    let refused := w.slot.routeEvent (some "turn") "item/agentMessage/delta" (.textDelta "5") true 4
    ∃ route route', w.slot.route = some route ∧ refused.2.route = some route'
      ∧ route.WithinBudget 4 ∧ route.SameOutput route' ∧ route'.text = "1234" := by
  intro w refused
  have hreach : (registryMachine "thread").Reachable (FixedCapacity 4) w := by
    refine Machine.reachable_init.runFrom ?_
    intro pre i post hsplit
    have hmem : i ∈ pre ++ i :: post := List.mem_append_right _ (List.mem_cons_self ..)
    rw [← hsplit] at hmem
    simp only [List.mem_cons, List.not_mem_nil, or_false] at hmem
    rcases hmem with rfl | rfl | rfl | rfl <;> first | rfl | trivial
  have hbefore : (w.slot.route.map (·.text)) = some "1234" := by decide +kernel
  have hafter : (refused.2.route.bind (·.pendingFailure)).map (·.kind) = some .resourceLimit := by
    decide +kernel
  have houtcome : refused.1 = .routeFailure "turn" 0 := by decide +kernel
  obtain ⟨route, hroute, htext⟩ := Option.map_eq_some_iff.mp hbefore
  obtain ⟨error, hfailure, hkind⟩ := Option.map_eq_some_iff.mp hafter
  obtain ⟨route', hroute', herror⟩ := Option.bind_eq_some_iff.mp hfailure
  obtain ⟨hwithin, hrefused⟩ := retained_output_within_budget hreach hroute
  have hsame := hrefused _ _ _ _ _ _ _ _ houtcome hroute' herror (Or.inl hkind)
  refine ⟨route, route', hroute, hroute', hwithin, hsame, ?_⟩
  rw [← htext]
  exact congrArg RetainedOutput.text hsame.output

end Vergerail
