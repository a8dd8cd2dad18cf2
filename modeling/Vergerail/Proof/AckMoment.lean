import Vergerail.Proof.ToldRun

/-!
# The moment of the acknowledgement

One turn, its notifications in order, and the acknowledgement with the whole replay at
one position among them. Before that position the events go through the coalescing
queue, after it straight to the channel, and the retained output is the fold over what
reached the channel. So a run that publishes `Ok` reports the fold over the coalesced
front and the plain rest.

Text and usage do not notice the queue. The images do: the queue keeps the latest
state of an image where the image was last seen, the result promises the order in
which the images were first seen. `FirstSeenOrder` says that the two orders agree on
what was queued, and then only then does the position not show.
-/

namespace Vergerail

open Lib

/-! ## Whole runs -/

/-- The router's call for an event of a turn, with the method it came under. -/
def eventLabel (turnId : String) (event : String × Event) : RunLabel :=
  .routeEvent (some turnId) event.1 event.2

/-- The router's calls for one turn: its events, and its terminal at the end. -/
def notifications (turnId : String) (events : List (String × Event)) (params : Json) :
    List RunLabel :=
  events.map (eventLabel turnId) ++ [.routeTerminal params]

/-- A run in which the turn is acknowledged, and the loop replays, just before the router's
call at a position; the consumer takes its events at any time. -/
inductive AcknowledgedAt (turnId : String) (calls : List RunLabel) (position : Nat) :
    List RunLabel → Prop where
  | intro {before replays after : List RunLabel} :
      before.filter (fun label => !label.isRecv) = calls.take position →
      (∀ label ∈ replays, label.isReplay = true ∨ label.isRecv = true) →
      position < replays.countP RunLabel.isReplay →
      after.filter (fun label => !label.isRecv) = calls.drop position →
      AcknowledgedAt turnId calls position
        (before ++ .acknowledgeStart turnId :: (replays ++ after))

section Runs

variable {env : RunEnv} {turnId : String} {params : Json} {completion : TurnCompletion}
  {events : List Event} {ended : Bool} {w : RunWorld} {labels : List RunLabel}

theorem eq_recv_of_isRecv {label : RunLabel} (h : label.isRecv = true) : label = .recv := by
  cases label with
  | recv => rfl
  | _ => cases h

theorem eq_replay_of_isReplay {label : RunLabel} (h : label.isReplay = true) :
    label = .replay := by
  cases label with
  | replay => rfl
  | _ => cases h

theorem shapeInv_runFrom (hw : ShapeInv w) (labels : List RunLabel) :
    ShapeInv ((runMachine env).runFrom w labels) := by
  induction labels generalizing w with
  | nil => exact hw
  | cons label labels ih => exact ih (shapeInv_step hw label)

/-- Whoever is not the consumer being of the handover, everybody is. -/
theorem ofHandover_of_filter
    (h : ∀ label ∈ labels.filter (fun label => !label.isRecv), label.ofHandover = true) :
    ∀ label ∈ labels, label.ofHandover = true := by
  intro label hlabel
  by_cases hrecv : label.isRecv = true
  · rw [eq_recv_of_isRecv hrecv]; rfl
  · exact h label (List.mem_filter.mpr ⟨hlabel, by simpa using hrecv⟩)

theorem ofHandover_notifications (events : List (String × Event)) :
    ∀ label ∈ notifications turnId events params, label.ofHandover = true := by
  intro label hlabel
  rcases List.mem_append.mp hlabel with hevent | hterminal
  · obtain ⟨event, _, rfl⟩ := List.mem_map.mp hevent; rfl
  · rw [List.mem_singleton] at hterminal
    rw [hterminal]; rfl

theorem ofHandover_replays (h : ∀ label ∈ labels, label.isReplay = true ∨ label.isRecv = true) :
    ∀ label ∈ labels, label.ofHandover = true := by
  intro label hlabel
  rcases h label hlabel with hreplay | hrecv
  · rw [eq_replay_of_isReplay hreplay]; rfl
  · rw [eq_recv_of_isRecv hrecv]; rfl

/-- A stage that the consumer does not end. -/
theorem runFrom_recvs {stage : RunWorld → Prop} (hrecv : ∀ w, stage w → stage (w.act env .recv))
    (h : stage w) (hlabels : labels.filter (fun label => !label.isRecv) = []) :
    stage ((runMachine env).runFrom w labels) := by
  induction labels generalizing w with
  | nil => exact h
  | cons label labels ih =>
      have hlabel : label.isRecv = true := by
        by_contra hno
        have hmem : label ∈ (label :: labels).filter (fun label => !label.isRecv) :=
          List.mem_filter.mpr ⟨List.mem_cons_self, by simpa using hno⟩
        rw [hlabels] at hmem; cases hmem
      rw [List.filter_cons_of_neg (by simp [hlabel])] at hlabels
      rw [eq_recv_of_isRecv hlabel]
      exact ih (hrecv w h) hlabels

/-- A stage that neither the loop nor the consumer ends. -/
theorem runFrom_replays {stage : RunWorld → Prop}
    (hrecv : ∀ w, stage w → stage (w.act env .recv))
    (hreplay : ∀ w, stage w → stage (w.act env .replay)) (h : stage w)
    (hlabels : ∀ label ∈ labels, label.isReplay = true ∨ label.isRecv = true) :
    stage ((runMachine env).runFrom w labels) := by
  induction labels generalizing w with
  | nil => exact h
  | cons label labels ih =>
      have hrest := fun other hother => hlabels other (List.mem_cons_of_mem label hother)
      rcases hlabels label List.mem_cons_self with hlabel | hlabel
      · rw [eq_replay_of_isReplay hlabel]
        exact ih (hreplay w h) hrest
      · rw [eq_recv_of_isRecv hlabel]
        exact ih (hrecv w h) hrest

/-- A stage that each event carries on, unless the run fails. -/
theorem runFrom_events (stage : List Event → RunWorld → Prop)
    (next : List Event → Event → List Event)
    (hrecv : ∀ events w, stage events w → stage events (w.act env .recv))
    (hevent : ∀ events w sourceMethod event, stage events w →
      stage (next events event) (w.act env (.routeEvent (some turnId) sourceMethod event))
        ∨ Failing (w.act env (.routeEvent (some turnId) sourceMethod event)))
    (hw : ShapeInv w) (h : stage events w) {rest : List (String × Event)}
    (hlabels : labels.filter (fun label => !label.isRecv) = rest.map (eventLabel turnId)) :
    stage ((rest.map Prod.snd).foldl next events) ((runMachine env).runFrom w labels)
      ∨ Failing ((runMachine env).runFrom w labels) := by
  induction labels generalizing w events rest with
  | nil =>
      cases rest with
      | nil => exact Or.inl h
      | cons event rest => cases hlabels
  | cons label labels ih =>
      by_cases hlabel : label.isRecv = true
      · rw [List.filter_cons_of_neg (by simp [hlabel])] at hlabels
        rw [eq_recv_of_isRecv hlabel]
        exact ih (shapeInv_step hw .recv) (hrecv events w h) hlabels
      · rw [List.filter_cons_of_pos (by simpa using hlabel)] at hlabels
        cases rest with
        | nil => cases hlabels
        | cons event rest =>
            obtain ⟨rfl, hrest⟩ := List.cons.inj hlabels
            have hshape : ShapeInv (w.act env (eventLabel turnId event)) := shapeInv_step hw _
            rcases hevent events w event.1 event.2 h with hstage | hfail
            · exact ih hshape hstage hrest
            · refine Or.inr (failing_runFrom hfail hshape (ofHandover_of_filter ?_))
              rw [hrest]
              intro other hother
              obtain ⟨e, _, rfl⟩ := List.mem_map.mp hother; rfl

/-- The same for all notifications of a turn, the terminal closing the stage. -/
theorem runFrom_notifications (stage closed : List Event → RunWorld → Prop)
    (next : List Event → Event → List Event)
    (hrecv : ∀ events w, stage events w → stage events (w.act env .recv))
    (hevent : ∀ events w sourceMethod event, stage events w →
      stage (next events event) (w.act env (.routeEvent (some turnId) sourceMethod event))
        ∨ Failing (w.act env (.routeEvent (some turnId) sourceMethod event)))
    (hclose : ∀ events w, stage events w → closed events (w.act env (.routeTerminal params))
      ∨ Failing (w.act env (.routeTerminal params)))
    (hclosed : ∀ events w, closed events w → closed events (w.act env .recv))
    (hw : ShapeInv w) (h : stage events w) {rest : List (String × Event)}
    (hlabels : labels.filter (fun label => !label.isRecv) = notifications turnId rest params) :
    closed ((rest.map Prod.snd).foldl next events) ((runMachine env).runFrom w labels)
      ∨ Failing ((runMachine env).runFrom w labels) := by
  obtain ⟨front, back, rfl, hfront, hback⟩ := List.filter_eq_append_iff.mp hlabels
  obtain ⟨gap, last, rfl, hgap, _, hlast⟩ := List.filter_eq_cons_iff.mp hback
  have hgap' : gap.filter (fun label => !label.isRecv) = [] :=
    List.filter_eq_nil_iff.mpr hgap
  have hhandover : ∀ label ∈ gap ++ .routeTerminal params :: last, label.ofHandover = true := by
    refine ofHandover_of_filter ?_
    rw [hback]
    intro label hlabel
    rw [List.mem_singleton] at hlabel
    rw [hlabel]; rfl
  rw [Machine.runFrom_append]
  have hshape : ShapeInv ((runMachine env).runFrom w front) := shapeInv_runFrom hw front
  rcases runFrom_events stage next hrecv hevent hw h hfront with hstage | hfail
  · have hstage' := runFrom_recvs (hrecv _) hstage hgap'
    have hshape' : ShapeInv ((runMachine env).runFrom ((runMachine env).runFrom w front) gap) :=
      shapeInv_runFrom hshape gap
    rw [Machine.runFrom_append, Machine.runFrom_cons]
    rcases hclose _ _ hstage' with hend | hfail
    · exact Or.inl (runFrom_recvs (hclosed _) hend hlast)
    · exact Or.inr (failing_runFrom hfail (shapeInv_step hshape' _)
        (fun label hlabel => hhandover label
          (List.mem_append_right _ (List.mem_cons_of_mem _ hlabel))))
  · exact Or.inr (failing_runFrom hfail hshape hhandover)

theorem Waits.length_eq {queue : List DeferredRunNotification}
    (h : Waits turnId params queue events ended) :
    queue.length = events.length + if ended then 1 else 0 := by
  induction h with
  | nil => rfl
  | terminal => rfl
  | event _ _ _ ih =>
      rw [List.length_cons, List.length_cons, ih]
      omega

theorem Replaying.length_le {batch : List DeferredRunNotification}
    (h : Replaying env turnId params events ended batch w) :
    batch.length ≤ events.length + if ended then 1 else 0 := by
  obtain ⟨rest, hwaits, hevents⟩ := h.waits
  rw [hwaits.length_eq, ← hevents, List.length_append]
  omega

/-- The loop hands everything on, or the run fails. -/
theorem replaying_runFrom {batch : List DeferredRunNotification}
    (h : Replaying env turnId params events ended batch w)
    (hparse : turnCompletion env.redactLine params = .ok completion)
    (hcompletion : completion.turnId = turnId)
    (hlabels : ∀ label ∈ labels, label.isReplay = true ∨ label.isRecv = true)
    (hcount : batch.length < labels.countP RunLabel.isReplay) :
    (ended = false ∧ Handed env turnId events ((runMachine env).runFrom w labels))
      ∨ (ended = true ∧ Published env completion events ((runMachine env).runFrom w labels))
      ∨ Failing ((runMachine env).runFrom w labels) := by
  induction labels generalizing w batch with
  | nil => exact absurd hcount (Nat.not_lt_zero _)
  | cons label labels ih =>
      have hrest := fun other hother => hlabels other (List.mem_cons_of_mem label hother)
      obtain ⟨route, ht, _⟩ := h.telling
      rcases hlabels label List.mem_cons_self with hlabel | hlabel
      · have hstep : labels.countP RunLabel.isReplay + 1
            = (label :: labels).countP RunLabel.isReplay :=
          (List.countP_cons_of_pos hlabel).symm
        rw [eq_replay_of_isReplay hlabel]
        rcases replaying_replay h hparse hcompletion with
          ⟨next, rest, rfl, hnext⟩ | ⟨rfl, hhanded⟩ | ⟨rfl, hpublished⟩ | hfail
        · rw [List.length_cons] at hcount
          exact ih hnext hrest (by omega)
        · have hstays := runFrom_replays (fun _ => handed_recv) (fun _ => handed_replay)
            hhanded hrest
          exact Or.inl ⟨rfl, hstays⟩
        · have hstays := runFrom_replays (fun _ => published_recv) (fun _ => published_replay)
            hpublished hrest
          exact Or.inr (Or.inl ⟨rfl, hstays⟩)
        · exact Or.inr (Or.inr (failing_runFrom hfail (shapeInv_step ht.shape .replay)
            (ofHandover_replays hrest)))
      · have hlabel' := eq_recv_of_isRecv hlabel
        subst hlabel'
        exact ih (replaying_recv h) hrest hcount

/-- Before the acknowledgement the queue takes in what the router hands over. -/
theorem starting_run {events : List (String × Event)} {position : Nat}
    (hparse : turnCompletion env.redactLine params = .ok completion)
    (hlabels : labels.filter (fun label => !label.isRecv)
      = (notifications turnId events params).take position) :
    Starting env turnId params (coalesceEvents ((events.take position).map Prod.snd))
        (decide (events.length < position)) ((runMachine env).run labels)
      ∨ Failing ((runMachine env).run labels) := by
  have hlength : (events.map (eventLabel turnId)).length = events.length := List.length_map ..
  by_cases hend : events.length < position
  · rw [List.take_of_length_le (by unfold notifications; simp; omega)] at hlabels
    rw [List.take_of_length_le (by omega), decide_eq_true hend]
    exact runFrom_notifications (fun events => Starting env turnId params events false)
      (fun events => Starting env turnId params events true) (Coalesce.push Event.imageId)
      (fun _ _ => starting_recv)
      (fun _ _ method event hs => starting_routeEvent hs method event)
      (fun _ _ hs => starting_routeTerminal hs hparse) (fun _ _ => starting_recv)
      (shapeInv_init env) starting_init hlabels
  · unfold notifications at hlabels
    rw [List.take_append_of_le_length (by omega), ← List.map_take] at hlabels
    rw [decide_eq_false hend]
    exact runFrom_events (fun events => Starting env turnId params events false)
      (Coalesce.push Event.imageId) (fun _ _ => starting_recv)
      (fun _ _ method event hs => starting_routeEvent hs method event)
      (shapeInv_init env) starting_init hlabels

/-- **What a run of one turn publishes, if it does not fail.** -/
theorem told_run {events : List (String × Event)} {position : Nat}
    (h : AcknowledgedAt turnId (notifications turnId events params) position labels)
    (hparse : turnCompletion env.redactLine params = .ok completion)
    (hcompletion : completion.turnId = turnId) :
    Published env completion (coalesceEvents ((events.take position).map Prod.snd)
        ++ (events.drop position).map Prod.snd) ((runMachine env).run labels)
      ∨ Failing ((runMachine env).run labels) := by
  obtain @⟨before, replays, after, hbefore, hreplays, hcount, hafter⟩ := h
  have hcalls : ∀ label ∈ notifications turnId events params, label.ofHandover = true :=
    ofHandover_notifications events
  have hrest : ∀ label ∈ replays ++ after, label.ofHandover = true := by
    intro label hlabel
    rcases List.mem_append.mp hlabel with hin | hin
    · exact ofHandover_replays hreplays label hin
    · refine ofHandover_of_filter ?_ label hin
      rw [hafter]
      exact fun other hother => hcalls other (List.mem_of_mem_drop hother)
  have hsplit : (runMachine env).run (before ++ .acknowledgeStart turnId :: (replays ++ after))
      = (runMachine env).runFrom (((runMachine env).run before).act env (.acknowledgeStart turnId))
          (replays ++ after) := Machine.runFrom_append ..
  have hshape : ShapeInv ((runMachine env).run before) := shapeInv_runFrom (shapeInv_init env) before
  rw [hsplit]
  rcases starting_run hparse hbefore with hstart | hfail
  · obtain ⟨batch, hreplaying⟩ := starting_acknowledgeStart hstart
    have hbatch := hreplaying.length_le
    have hqueue := coalesceEvents_length_le ((events.take position).map Prod.snd)
    rw [List.length_map, List.length_take] at hqueue
    have hlength : (events.map (eventLabel turnId)).length = events.length := List.length_map ..
    have hshape' : ShapeInv ((runMachine env).runFrom
        (((runMachine env).run before).act env (.acknowledgeStart turnId)) replays) :=
      shapeInv_runFrom (shapeInv_step hshape _) replays
    rw [Machine.runFrom_append]
    by_cases hend : events.length < position
    · -- the terminal waited too, so nothing follows
      rw [decide_eq_true hend] at hbatch hreplaying
      rw [List.drop_of_length_le (by unfold notifications; simp; omega)] at hafter
      rw [List.drop_of_length_le (show events.length ≤ position by omega), List.map_nil,
        List.append_nil]
      rcases replaying_runFrom hreplaying hparse hcompletion hreplays
          (by rw [if_pos rfl] at hbatch; omega) with ⟨hno, _⟩ | ⟨_, hpublished⟩ | hfail
      · cases hno
      · exact Or.inl (runFrom_recvs (fun _ => published_recv) hpublished hafter)
      · exact Or.inr (failing_runFrom hfail hshape' (fun label hlabel =>
          hrest label (List.mem_append_right _ hlabel)))
    · rw [decide_eq_false hend] at hbatch hreplaying
      unfold notifications at hafter
      rw [List.drop_append_of_le_length (by omega), ← List.map_drop] at hafter
      rcases replaying_runFrom hreplaying hparse hcompletion hreplays
          (by rw [if_neg (by simp)] at hbatch; omega) with ⟨_, hhanded⟩ | ⟨hno, _⟩ | hfail
      · have hpublished := runFrom_notifications (Handed env turnId) (Published env completion)
          (fun events event => events ++ [event]) (fun _ _ => handed_recv)
          (fun _ _ method event hs => handed_routeEvent hs method event)
          (fun _ _ hs => Or.inl (handed_routeTerminal hs hparse hcompletion))
          (fun _ _ => published_recv) hshape' hhanded hafter
        rw [foldl_concat] at hpublished
        exact hpublished
      · cases hno
      · exact Or.inr (failing_runFrom hfail hshape' (fun label hlabel =>
          hrest label (List.mem_append_right _ hlabel)))
  · have hshape' : ShapeInv (((runMachine env).run before).act env (.acknowledgeStart turnId)) :=
      shapeInv_step hshape _
    exact Or.inr (failing_runFrom (hfail.acknowledgeStart hshape turnId) hshape' hrest)

/-- A run that publishes `Ok` reports what it retained. -/
theorem result_of_ok {events : List (String × Event)} {position : Nat}
    (h : AcknowledgedAt turnId (notifications turnId events params) position labels)
    (hparse : turnCompletion env.redactLine params = .ok completion)
    (hcompletion : completion.turnId = turnId) {result : RunResult}
    (hok : ((runMachine env).run labels).shared.terminal.value = some (.ok result)) :
    completion.intoResult env.threadId
        (retained (coalesceEvents ((events.take position).map Prod.snd)
          ++ (events.drop position).map Prod.snd)).text
        (retained (coalesceEvents ((events.take position).map Prod.snd)
          ++ (events.drop position).map Prod.snd)).usage
        (retained (coalesceEvents ((events.take position).map Prod.snd)
          ++ (events.drop position).map Prod.snd)).imageGenerations = .ok result := by
  rcases told_run h hparse hcompletion with hpublished | hfail
  · exact Option.some.inj (hpublished.value.symm.trans hok)
  · exact absurd hok (hfail.not_ok (shapeInv_runFrom (shapeInv_init env) labels) result)

end Runs

/-- Two results made of the same completion agree where their parts agree. -/
theorem intoResult_ok {completion : TurnCompletion} {threadId text : String}
    {usage : Option Usage} {images images' : List ImageGeneration} {a b : RunResult}
    (ha : completion.intoResult threadId text usage images = .ok a)
    (hb : completion.intoResult threadId text usage images' = .ok b) :
    a.imageGenerations = images ∧ b.imageGenerations = images' ∧ (images = images' → a = b) := by
  have hsame : images = images' → a = b := by
    intro himages
    rw [himages, hb] at ha
    exact (Except.ok.inj ha).symm
  unfold TurnCompletion.intoResult at ha hb
  cases houtcome : completion.outcome with
  | error error => rw [houtcome] at ha; cases ha
  | ok outcome =>
      rw [houtcome] at ha hb
      cases outcome with
      | failed message => cases ha
      | completed => cases ha; cases hb; exact ⟨rfl, rfl, hsame⟩
      | interrupted => cases ha; cases hb; exact ⟨rfl, rfl, hsame⟩

/--
**When the moment of the acknowledgement does not show.** One turn, its notifications
in order, acknowledged and replayed at two positions, the consumer taking its events at
any time. If both runs publish `Ok`, then the two results are equal and list the latest
state of each image in first-seen order exactly if, in front of both positions, the
images were last seen in the order in which they were first seen.
-/
theorem acknowledgement_moment {env : RunEnv} {turnId : String} {params : Json}
    {completion : TurnCompletion} {events : List (String × Event)} {p q : Nat}
    {labelsP labelsQ : List RunLabel} {a b : RunResult}
    (hparse : turnCompletion env.redactLine params = .ok completion)
    (hcompletion : completion.turnId = turnId)
    (hp : AcknowledgedAt turnId (notifications turnId events params) p labelsP)
    (hq : AcknowledgedAt turnId (notifications turnId events params) q labelsQ)
    (ha : ((runMachine env).run labelsP).shared.terminal.value = some (.ok a))
    (hb : ((runMachine env).run labelsQ).shared.terminal.value = some (.ok b)) :
    (a = b ∧ a.imageGenerations = latestImages (events.map Prod.snd)
        ∧ b.imageGenerations = latestImages (events.map Prod.snd))
      ↔ FirstSeenOrder ((events.take p).map Prod.snd)
        ∧ FirstSeenOrder ((events.take q).map Prod.snd) := by
  have hA := result_of_ok hp hparse hcompletion ha
  have hB := result_of_ok hq hparse hcompletion hb
  have hwhole : ∀ n, (events.take n).map Prod.snd ++ (events.drop n).map Prod.snd
      = events.map Prod.snd := by
    intro n
    rw [← List.map_append, List.take_append_drop]
  obtain ⟨htextP, husageP, himagesP⟩ := retained_coalesced ((events.take p).map Prod.snd)
    ((events.drop p).map Prod.snd)
  obtain ⟨htextQ, husageQ, himagesQ⟩ := retained_coalesced ((events.take q).map Prod.snd)
    ((events.drop q).map Prod.snd)
  rw [hwhole p] at htextP husageP himagesP
  rw [hwhole q] at htextQ husageQ himagesQ
  rw [htextP, husageP] at hA
  rw [htextQ, husageQ] at hB
  obtain ⟨hlistA, hlistB, hequal⟩ := intoResult_ok hA hB
  rw [hlistA, hlistB]
  constructor
  · rintro ⟨_, himageA, himageB⟩
    exact ⟨himagesP.mp himageA, himagesQ.mp himageB⟩
  · rintro ⟨horderP, horderQ⟩
    have himageA := himagesP.mpr horderP
    have himageB := himagesQ.mpr horderQ
    exact ⟨hequal (himageA.trans himageB.symm), himageA, himageB⟩

/-- A client with room for a few events, for runs on fixed inputs. -/
def RunEnv.roomy : RunEnv := { RunEnv.tight with eventCapacity := 4 }

/-- An image item without contents, for runs on fixed inputs. -/
def ImageGeneration.blank (id status : String) : ImageGeneration :=
  ⟨id, status, none, "", none, none, none⟩

/-- One image, updated once: acknowledged before or after the turn, the result is the same. -/
theorem acknowledgement_moment_one_image :
    let generating : Event := .imageGeneration (.blank "image" "generating")
    let completed : Event := .imageGeneration (.blank "image" "completed")
    let calls := notifications "turn" [("item/started", generating), ("item/completed", completed)]
      (Json.turnCompleted "turn")
    ∃ result, ((runMachine RunEnv.roomy).run
          (.acknowledgeStart "turn" :: .replay :: calls)).shared.terminal.value = some (.ok result)
      ∧ ((runMachine RunEnv.roomy).run (calls ++
          [.acknowledgeStart "turn", .replay, .replay, .replay, .replay])).shared.terminal.value
        = some (.ok result)
      ∧ result.imageGenerations = latestImages [generating, completed] := by
  intro generating completed calls
  let result : RunResult :=
    ⟨"thread", "turn", "", .completed, none, [.blank "image" "completed"]⟩
  have hp : AcknowledgedAt "turn" calls 0 (.acknowledgeStart "turn" :: .replay :: calls) :=
    @AcknowledgedAt.intro "turn" calls 0 [] [.replay] calls rfl (by decide) (by decide) rfl
  have hq : AcknowledgedAt "turn" calls 3
      (calls ++ [.acknowledgeStart "turn", .replay, .replay, .replay, .replay]) :=
    @AcknowledgedAt.intro "turn" calls 3 calls [.replay, .replay, .replay, .replay] [] rfl
      (by decide) (by decide) rfl
  have ha : ((runMachine RunEnv.roomy).run
      (.acknowledgeStart "turn" :: .replay :: calls)).shared.terminal.value
        = some (.ok result) := by decide
  have hb : ((runMachine RunEnv.roomy).run (calls ++
      [.acknowledgeStart "turn", .replay, .replay, .replay, .replay])).shared.terminal.value
        = some (.ok result) := by decide
  have hparse : turnCompletion RunEnv.roomy.redactLine (Json.turnCompleted "turn")
      = .ok (.completed "turn") := rfl
  exact ⟨result, ha, hb,
    ((acknowledgement_moment hparse rfl hp hq ha hb).mpr ⟨by decide, by decide⟩).2.1⟩

/-- Two images, the first of them updated after the second was seen: acknowledged before the
turn the result lists them as first seen, acknowledged after the turn as last seen. -/
theorem acknowledgement_moment_shows :
    ¬ ∀ (env : RunEnv) (turnId : String) (params : Json) (completion : TurnCompletion)
      (events : List (String × Event)) (p q : Nat) (labelsP labelsQ : List RunLabel)
      (a b : RunResult),
      turnCompletion env.redactLine params = .ok completion → completion.turnId = turnId →
      AcknowledgedAt turnId (notifications turnId events params) p labelsP →
      AcknowledgedAt turnId (notifications turnId events params) q labelsQ →
      ((runMachine env).run labelsP).shared.terminal.value = some (.ok a) →
      ((runMachine env).run labelsQ).shared.terminal.value = some (.ok b) → a = b := by
  intro hall
  let first : ImageGeneration := .blank "first" "generating"
  let second : ImageGeneration := .blank "second" "completed"
  let done : ImageGeneration := .blank "first" "completed"
  let events : List (String × Event) := [("item/started", .imageGeneration first),
    ("item/completed", .imageGeneration second), ("item/completed", .imageGeneration done)]
  let calls := notifications "turn" events (Json.turnCompleted "turn")
  have hp : AcknowledgedAt "turn" calls 0 (.acknowledgeStart "turn" :: .replay :: calls) :=
    @AcknowledgedAt.intro "turn" calls 0 [] [.replay] calls rfl (by decide) (by decide) rfl
  have hq : AcknowledgedAt "turn" calls 4
      (calls ++ [.acknowledgeStart "turn", .replay, .replay, .replay, .replay, .replay]) :=
    @AcknowledgedAt.intro "turn" calls 4 calls [.replay, .replay, .replay, .replay, .replay] []
      rfl (by decide) (by decide) rfl
  have hsame := hall RunEnv.roomy "turn" (Json.turnCompleted "turn") (.completed "turn") events
    0 4 _ _ ⟨"thread", "turn", "", .completed, none, [done, second]⟩
    ⟨"thread", "turn", "", .completed, none, [second, done]⟩ rfl rfl hp hq (by decide) (by decide)
  exact absurd hsame (by decide)

end Vergerail
