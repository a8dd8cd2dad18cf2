import Vergerail.Proof.FirstCause

/-!
# What becomes of a dispatched request

A non-idempotent request whose frame is queued is followed by the entry in the pending
map and the flag that marks a successful response: as long as neither an error response
came nor the connection is disconnected, the entry is pending, or the router holds a
success for it, or the success is marked (`Live`). Whoever ends the call looks at exactly
these two, so the caller has its success, or an unknown outcome, or the client
disconnects.

One way out of the call looks at neither: the deadline that ends between the queueing and
the wait for the acknowledgement. Runs in which that happens are left aside.
-/

namespace Vergerail

open Lib

/-! ## What an operation on the registry leaves alone -/

namespace PendingRequest

/-- The caller's marks: what the registry reads and never writes. -/
structure Same (p q : PendingRequest) : Prop where
  nonIdempotent : q.nonIdempotent = p.nonIdempotent
  dispatched : q.dispatched = p.dispatched
  receiving : q.receiving = p.receiving
  cancelled : q.cancelled = p.cancelled

theorem Same.refl (p : PendingRequest) : p.Same p := ⟨rfl, rfl, rfl, rfl⟩

theorem same_remove (p : PendingRequest) : p.Same p.remove := by
  unfold remove
  split_ifs
  · exact ⟨rfl, rfl, rfl, rfl⟩
  · exact .refl p

theorem same_fail (p : PendingRequest) (error : Error) : p.Same (p.fail error) := by
  unfold fail
  split
  · exact ⟨rfl, rfl, rfl, rfl⟩
  · exact .refl p

theorem same_takeForFailure (p : PendingRequest) : p.Same p.takeForFailure := by
  unfold takeForFailure
  split_ifs
  · exact ⟨rfl, rfl, rfl, rfl⟩
  · exact .refl p

theorem isPending_iff (p : PendingRequest) : p.isPending = true ↔ p.entry = .pending := by
  unfold isPending
  split
  · rename_i h
    exact ⟨fun _ => h, fun _ => rfl⟩
  · rename_i h
    exact ⟨by simp, fun hp => absurd hp h⟩

@[simp] theorem isPending_of_entry {p : PendingRequest} (h : p.entry = .pending) :
    p.isPending = true := p.isPending_iff.mpr h

/-- The entry is taken for a response, or it was not there. -/
theorem takeForCompletion_cases (p : PendingRequest) (response : Result Json) :
    (p.entry = .pending ∧ p.takeForCompletion response = (true, { p with
      entry := .completing response
      successfulResponse := p.successfulResponse || response.isOk })) ∨
    (p.entry ≠ .pending ∧ p.takeForCompletion response = (false, p)) := by
  unfold takeForCompletion
  split_ifs with h
  · exact .inl ⟨p.isPending_iff.mp h, rfl⟩
  · exact .inr ⟨fun he => h (p.isPending_iff.mpr he), rfl⟩

/-- An orphan is a success for a dispatched request whose caller is gone. -/
theorem handOver_cases (p : PendingRequest) (response : Result Json) :
    (∃ operation, p.handOver response = (.orphanedSuccess operation, p.send response) ∧
      p.dispatched = true ∧ (p.receiving = false ∨ p.cancelled = true)) ∨
    p.handOver response = (.delivered, p.send response) := by
  unfold handOver
  dsimp only
  split_ifs with h
  · refine .inl ⟨p.operation, rfl, ?_⟩
    unfold nonIdempotentOutcomeMayBeOrphaned at h
    grind
  · exact .inr rfl

end PendingRequest

/-! ## What is known of one request -/

theorem CancelTask.none_ne : CancelTask.none ≠ .disconnecting := by decide

theorem CancelTask.spawned_ne : CancelTask.spawned ≠ .disconnecting := by decide

namespace RequestCell

/-- What a step of the others leaves alone. -/
structure Frame (c d : RequestCell) : Prop where
  call : d.call = c.call
  request : c.request.Same d.request
  registered : d.registered = c.registered
  enqueued : d.enqueued = c.enqueued

theorem Frame.refl (c : RequestCell) : c.Frame c := ⟨rfl, .refl _, rfl, rfl⟩

/-- The receiver is there and nobody gave up on it. -/
def Attended (c : RequestCell) : Prop :=
  c.request.receiving = true ∧ c.request.cancelled = false

/-- The marks of the send: first the flag, then the frame, and both from then on. -/
def Marked (c : RequestCell) : Prop :=
  match c.call with
  | .idle | .checkingDeadline | .checkingClosing | .checkingDisconnected | .readingFailure
  | .registering =>
      c.request.dispatched = false ∧ c.enqueued = false ∧ c.request.cancelled = false
  | .entering | .reserving | .admitted | .marking =>
      c.request.dispatched = false ∧ c.enqueued = false ∧ c.Attended
  | .queueing => c.request.dispatched = true ∧ c.enqueued = false ∧ c.Attended
  | .dispatched | .acknowledging | .terminating _ | .waiting | .timedOut | .disconnecting _
  | .cleaning _ => c.request.dispatched = true ∧ c.enqueued = true
  | _ => c.enqueued = c.request.dispatched

/-- The call is over. -/
def Ended (c : RequestCell) : Prop :=
  match c.call with
  | .returned _ => True
  | .dropped => True
  | _ => False

/-- An error response came, or the connection is gone. -/
def Lost (s : ClientShared) (c : RequestCell) : Prop :=
  (∃ error, .error error ∈ c.responses) ∨ s.connection.disconnected = true

/-- Nobody took the request for anything but a success. -/
def Live (c : RequestCell) : Prop :=
  c.request.entry = .pending ∨ c.request.successfulResponse = true

/-- Where a success can be on its way to the caller. -/
inductive OnItsWay (c : RequestCell) : Prop where
  | pending (entry : c.request.entry = .pending) (waiter : c.request.waiter = .empty)
  | taken (v : Json) (came : .ok v ∈ c.responses) (entry : c.request.entry = .completing (.ok v))
      (waiter : c.request.waiter = .empty)
  | sent (v : Json) (came : .ok v ∈ c.responses) (entry : c.request.entry = .absent)
      (waiter : c.request.waiter = .value (.ok v))

/-- The caller listens, and hears a success if it hears anything. -/
structure Heard (c : RequestCell) : Prop where
  receiving : c.request.receiving = true
  way : c.OnItsWay
  live : c.Live

/-- The success that came, or an unknown outcome. -/
def Obtained (c : RequestCell) (result : Result Json) : Prop :=
  (∃ v, result = .ok v ∧ .ok v ∈ c.responses) ∨
    ∃ error : Error, result = .error error ∧ error.kind = .outcomeUnknown

/-- What is true of a request that is not lost. -/
def Good (c : RequestCell) : Prop :=
  match c.call with
  | .entering | .reserving | .admitted | .marking | .queueing | .dispatched | .acknowledging
  | .terminating _ | .waiting => c.Heard
  | .sendFailed error => c.enqueued = true → error.kind = .outcomeUnknown
  | .timedOut => c.Live
  | .leaving result _ => c.enqueued = true → c.Obtained result
  | .returned result => c.enqueued = true → c.Obtained result
  | .unwinding => c.enqueued = true → c.Live
  | .dropped => c.enqueued = true →
      (c.cancelTask = .spawned ∧ c.Live) ∨ c.cancelTask = .disconnecting
  | _ => True

/-- How a call ends whose frame was never queued: not with an unknown outcome, unless it
was turned away with the failure of a connection that was gone already. -/
def Refused (s : ClientShared) (c : RequestCell) : Prop :=
  match c.call with
  | .idle | .checkingDeadline | .checkingClosing | .checkingDisconnected | .registering =>
      c.registered = false
  | .readingFailure => c.registered = false ∧ s.connection.disconnected = true
  | .sendFailed error => c.enqueued = false → error.kind ≠ .outcomeUnknown
  | .leaving result _ => c.enqueued = false →
      ∃ error : Error, result = .error error ∧ error.kind ≠ .outcomeUnknown
  | .returned result => c.enqueued = false →
      ∃ error : Error, result = .error error ∧ (error.kind ≠ .outcomeUnknown ∨
        (c.registered = false ∧ ∃ f, s.firstCause = some f ∧ error.SameCause f))
  | _ => True

/-- Nobody disconnects for a request whose frame was never queued. -/
def Quiet (c : RequestCell) : Prop :=
  c.enqueued = false → c.cancelTask ≠ .disconnecting ∧ c.orphaned = false

/-- What every step keeps of a request. -/
structure Tracked (s : ClientShared) (c : RequestCell) : Prop where
  marked : c.Marked
  task : c.cancelTask = .none ∨ c.Ended
  quiet : c.Quiet
  refused : c.Refused s
  fate : c.request.nonIdempotent = true → c.Lost s ∨ c.Good

theorem Refused.mono {s t : ClientShared} {c : RequestCell} (h : c.Refused s) (hg : s.Grows t) :
    c.Refused t := by
  unfold Refused at h ⊢
  cases hc : c.call <;> rw [hc] at h <;> dsimp only at h ⊢
  case readingFailure => exact ⟨h.1, hg.disconnected h.2⟩
  case returned result =>
    intro hq
    obtain ⟨error, he, hkind | ⟨hreg, f, hf, hsame⟩⟩ := h hq
    · exact ⟨error, he, .inl hkind⟩
    · exact ⟨error, he, .inr ⟨hreg, f, hg.firstCause f hf, hsame⟩⟩
  all_goals exact h

theorem Lost.mono {s t : ClientShared} {c d : RequestCell} (h : c.Lost s) (hg : s.Grows t)
    (hr : ∀ response ∈ c.responses, response ∈ d.responses) : d.Lost t :=
  h.imp (fun ⟨error, he⟩ => ⟨error, hr _ he⟩) hg.disconnected

theorem Tracked.mono {s t : ClientShared} {c : RequestCell} (h : c.Tracked s) (hg : s.Grows t) :
    c.Tracked t where
  marked := h.marked
  task := h.task
  quiet := h.quiet
  refused := h.refused.mono hg
  fate hn := (h.fate hn).imp_left (fun hl => hl.mono hg (fun _ hr => hr))

theorem tracked_idle (s : ClientShared) : idle.Tracked s where
  marked := ⟨rfl, rfl, rfl⟩
  task := .inl rfl
  quiet _ := ⟨CancelTask.none_ne, rfl⟩
  refused := rfl
  fate hn := by cases hn

theorem Marked.frame {c d : RequestCell} (h : c.Marked) (hf : c.Frame d) : d.Marked := by
  unfold Marked Attended at h ⊢
  rw [hf.call, hf.enqueued, hf.request.dispatched, hf.request.receiving, hf.request.cancelled]
  exact h

theorem Refused.frame {s : ClientShared} {c d : RequestCell} (h : c.Refused s)
    (hf : c.Frame d) : d.Refused s := by
  unfold Refused at h ⊢
  rw [hf.call, hf.enqueued, hf.registered]
  exact h

theorem Ended.frame {c d : RequestCell} (h : c.Ended) (hcall : d.call = c.call) : d.Ended := by
  unfold Ended at h ⊢
  rw [hcall]
  exact h

/-- A step of somebody else than the caller. -/
theorem Tracked.frame {s t : ClientShared} {c d : RequestCell} (h : c.Tracked s)
    (hg : s.Grows t) (hf : c.Frame d) (htask : c.cancelTask = .none → d.cancelTask = .none)
    (hquiet : d.Quiet) (hr : ∀ response ∈ c.responses, response ∈ d.responses)
    (hgood : c.request.nonIdempotent = true → c.Good → d.Lost t ∨ d.Good) : d.Tracked t where
  marked := h.marked.frame hf
  task := h.task.imp htask (fun he => he.frame hf.call)
  quiet := hquiet
  refused := (h.refused.mono hg).frame hf
  fate hn := by
    rw [hf.request.nonIdempotent] at hn
    rcases h.fate hn with hlost | hgood'
    · exact .inl (hlost.mono hg hr)
    · exact hgood hn hgood'

/-- The frame is queued in every state of a call that has marked it, except one. -/
theorem Marked.enqueued {c : RequestCell} (h : c.Marked) (hd : c.request.dispatched = true) :
    c.enqueued = true ∨ c.Attended := by
  unfold Marked at h
  cases hc : c.call <;> rw [hc] at h <;> dsimp only at h <;> grind

/-! ## The steps of the others -/

theorem Good.frame {c d : RequestCell} (h : c.Good) (hf : c.Frame d)
    (hheard : c.Heard → d.Heard) (hlive : c.Live → d.Live)
    (hr : ∀ response ∈ c.responses, response ∈ d.responses)
    (htask : d.cancelTask = c.cancelTask) : d.Good := by
  have hobtained : ∀ result, c.Obtained result → d.Obtained result := by
    intro result hres
    exact hres.imp_left (fun ⟨v, hv, hmem⟩ => ⟨v, hv, hr _ hmem⟩)
  unfold Good at h ⊢
  rw [hf.call, hf.enqueued, htask]
  cases hc : c.call <;> rw [hc] at h <;> dsimp only at h ⊢
  case timedOut => exact hlive h
  case sendFailed error => exact h
  case leaving result resolved => exact fun hq => hobtained result (h hq)
  case returned result => exact fun hq => hobtained result (h hq)
  case unwinding => exact fun hq => hlive (h hq)
  case dropped => exact fun hq => (h hq).imp_left (fun ⟨hs, hl⟩ => ⟨hs, hlive hl⟩)
  all_goals exact hheard h

theorem respond_cases (c : RequestCell) (response : Result Json) :
    (c.request.entry = .pending ∧ c.respond response = { c with
      request := { c.request with
        entry := .completing response
        successfulResponse := c.request.successfulResponse || response.isOk }
      responses := response :: c.responses }) ∨
    c.respond response = c := by
  unfold respond
  rcases c.request.takeForCompletion_cases response with ⟨hentry, ht⟩ | ⟨-, ht⟩
  · exact .inl ⟨hentry, by rw [ht]⟩
  · exact .inr (by rw [ht])

theorem tracked_respond {s : ClientShared} {c : RequestCell} (h : c.Tracked s)
    (response : Result Json) : (c.respond response).Tracked s := by
  rcases c.respond_cases response with ⟨hentry, hs⟩ | hs
  · rw [hs]
    refine h.frame (.refl s) ⟨rfl, ⟨rfl, rfl, rfl, rfl⟩, rfl, rfl⟩ (fun ht => ht) h.quiet
      (fun _ hr => List.mem_cons_of_mem _ hr) (fun _ hgood => ?_)
    cases response with
    | error error => exact .inl (.inl ⟨error, List.mem_cons_self⟩)
    | ok v =>
        refine .inr (hgood.frame ⟨rfl, ⟨rfl, rfl, rfl, rfl⟩, rfl, rfl⟩ (fun hheard => ?_)
          (fun _ => .inr (Bool.or_true _)) (fun _ hr => List.mem_cons_of_mem _ hr) rfl)
        cases hheard.way with
        | pending _ hwaiter =>
            exact ⟨hheard.receiving, .taken v List.mem_cons_self rfl hwaiter,
              .inr (Bool.or_true _)⟩
        | taken v _ he => rw [he] at hentry; cases hentry
        | sent v _ he => rw [he] at hentry; cases hentry
  · rw [hs]; exact h

/-- What `handOver` does to a request it holds a response for. -/
theorem handOver_cell_cases (c : RequestCell) :
    (∃ response, c.request.entry = .completing response ∧
      (c.handOver = { c with request := c.request.send response } ∨
        (c.handOver = { c with request := c.request.send response, orphaned := true } ∧
          c.request.dispatched = true ∧ ¬ c.Attended))) ∨
    c.handOver = c := by
  unfold handOver
  split
  · rename_i response hentry
    refine .inl ⟨response, hentry, ?_⟩
    rcases c.request.handOver_cases response with ⟨operation, ho, hd, hgone⟩ | ho
    · refine .inr ⟨by rw [ho], hd, fun ha => ?_⟩
      rcases hgone with hgone | hgone
      · rw [ha.1] at hgone; cases hgone
      · rw [ha.2] at hgone; cases hgone
    · exact .inl (by rw [ho])
  · exact .inr rfl

/-- A success that is handed over stays on its way. -/
theorem Heard.send {c : RequestCell} (h : c.Heard) {response : Result Json}
    (hentry : c.request.entry = .completing response) (orphaned : Bool) :
    ({ c with request := c.request.send response, orphaned } : RequestCell).Heard := by
  have hlive : c.request.successfulResponse = true := by
    rcases h.live with hl | hl
    · rw [hentry] at hl; cases hl
    · exact hl
  refine ⟨h.receiving, ?_, .inr hlive⟩
  cases h.way with
  | pending he => rw [hentry] at he; cases he
  | taken v hcame he =>
      rw [hentry] at he
      cases he
      refine .sent v hcame rfl ?_
      simp only [PendingRequest.send, h.receiving, if_true]
  | sent v _ he => rw [hentry] at he; cases he

theorem Live.send {c : RequestCell} (h : c.Live) {response : Result Json}
    (hentry : c.request.entry = .completing response) (orphaned : Bool) :
    ({ c with request := c.request.send response, orphaned } : RequestCell).Live := by
  rcases h with hl | hl
  · rw [hentry] at hl; cases hl
  · exact .inr hl

theorem tracked_handOver {s : ClientShared} {c : RequestCell} (h : c.Tracked s) :
    c.handOver.Tracked s := by
  rcases c.handOver_cell_cases with ⟨response, hentry, hs | ⟨hs, hd, hgone⟩⟩ | hs
  · rw [hs]
    refine h.frame (.refl s) ⟨rfl, ⟨rfl, rfl, rfl, rfl⟩, rfl, rfl⟩ (fun ht => ht) h.quiet
      (fun _ hr => hr) (fun _ hgood => .inr ?_)
    exact hgood.frame ⟨rfl, ⟨rfl, rfl, rfl, rfl⟩, rfl, rfl⟩
      (fun hheard => hheard.send hentry c.orphaned) (fun hlive => hlive.send hentry c.orphaned)
      (fun _ hr => hr) rfl
  · rw [hs]
    refine h.frame (.refl s) ⟨rfl, ⟨rfl, rfl, rfl, rfl⟩, rfl, rfl⟩ (fun ht => ht) ?_
      (fun _ hr => hr) (fun _ hgood => .inr ?_)
    · -- an orphan is dispatched, and its caller gone: the frame is queued
      intro hq
      rcases h.marked.enqueued hd with he | ha
      · rw [he] at hq; cases hq
      · exact absurd ha hgone
    · exact hgood.frame ⟨rfl, ⟨rfl, rfl, rfl, rfl⟩, rfl, rfl⟩
        (fun hheard => hheard.send hentry true) (fun hlive => hlive.send hentry true)
        (fun _ hr => hr) rfl
  · rw [hs]; exact h

theorem tracked_disconnectOrphan {s : ClientShared} {c : RequestCell} (h : c.Tracked s)
    (hs : s.Sound) :
    (c.disconnectOrphan s).2.Tracked (c.disconnectOrphan s).1 := by
  unfold disconnectOrphan
  split_ifs
  · refine h.frame (ClientShared.grows_beginDisconnect hs none _) ⟨rfl, .refl _, rfl, rfl⟩
      (fun ht => ht) (fun hq => ⟨(h.quiet hq).1, rfl⟩) (fun _ hr => hr) (fun _ _ => .inl (.inr ?_))
    exact s.beginDisconnect_disconnected none _
  · exact h

/-- A cancelled request that is live is found to be. -/
theorem Live.cancel {c : RequestCell} (h : c.Live) (hn : c.request.nonIdempotent = true)
    (hd : c.request.dispatched = true) : c.request.cancel.1 = true := by
  unfold PendingRequest.cancel nonIdempotentOutcomeMayBeOrphaned
  rcases h with hl | hl
  · simp [hn, hd, PendingRequest.isPending_of_entry hl]
  · simp [hn, hd, hl]

theorem cancel_cases (p : PendingRequest) :
    (p.cancel = (true, p.remove) ∧ p.dispatched = true) ∨ p.cancel = (false, p.remove) := by
  unfold PendingRequest.cancel
  cases h : nonIdempotentOutcomeMayBeOrphaned p.nonIdempotent p.dispatched p.isPending
      p.successfulResponse true with
  | false => exact .inr rfl
  | true =>
      refine .inl ⟨rfl, ?_⟩
      unfold nonIdempotentOutcomeMayBeOrphaned at h
      simp only [Bool.and_eq_true] at h
      exact h.1.2

/-- A call that is over has queued what it marked. -/
theorem Marked.of_ended {c : RequestCell} (h : c.Marked) (he : c.Ended) :
    c.enqueued = c.request.dispatched := by
  unfold Marked at h
  unfold Ended at he
  cases hc : c.call <;> rw [hc] at h he <;> dsimp only at h he
  case returned result => exact h
  case dropped => exact h

/-- The cancel task looks at the request of a call that is over. -/
theorem Good.cancelled {c d : RequestCell} (h : c.Good) (hf : c.Frame d) (he : c.Ended)
    (hr : ∀ response ∈ c.responses, response ∈ d.responses)
    (htask : c.enqueued = true → c.cancelTask = .spawned ∧ c.Live → d.cancelTask = .disconnecting)
    (hdone : c.cancelTask ≠ .disconnecting) : d.Good := by
  unfold Good at h ⊢
  unfold Ended at he
  rw [hf.call, hf.enqueued]
  cases hc : c.call <;> rw [hc] at h he <;> dsimp only at h he ⊢
  case returned result =>
    exact fun hq => (h hq).imp_left (fun ⟨v, hv, hmem⟩ => ⟨v, hv, hr _ hmem⟩)
  case dropped =>
    intro hq
    rcases h hq with hlive | hdisc
    · exact .inr (htask hq hlive)
    · exact absurd hdisc hdone

theorem tracked_runCancel {s : ClientShared} {c : RequestCell} (h : c.Tracked s)
    (hs : s.Sound) : (c.runCancel s).2.Tracked (c.runCancel s).1 := by
  have hended : c.cancelTask ≠ .none → c.Ended := fun hne => h.task.resolve_left hne
  cases htask : c.cancelTask with
  | none => simp only [runCancel, htask]; exact h
  | done => simp only [runCancel, htask]; exact h
  | disconnecting =>
      simp only [runCancel, htask]
      refine h.frame (ClientShared.grows_beginDisconnect hs none _) ⟨rfl, .refl _, rfl, rfl⟩
        (fun hnone => ?_) (fun hq => absurd htask (h.quiet hq).1) (fun _ hr => hr)
        (fun _ _ => .inl (.inr ?_))
      · rw [htask] at hnone; cases hnone
      · exact s.beginDisconnect_disconnected none _
  | spawned =>
      have he : c.Ended := hended (by simp [htask])
      have hnone : ∀ task : CancelTask, c.cancelTask = .none → task = .none := by
        intro task hnone
        rw [htask] at hnone
        cases hnone
      simp only [runCancel, htask]
      rcases cancel_cases c.request with ⟨hcancel, hd⟩ | hcancel
      · rw [hcancel]
        have hf : c.Frame { c with request := c.request.remove, cancelTask := .disconnecting } :=
          ⟨rfl, c.request.same_remove, rfl, rfl⟩
        refine h.frame (.refl s) hf (hnone _) (fun hq => ?_) (fun _ hr => hr)
          (fun _ hgood => .inr ?_)
        · rw [h.marked.of_ended he, hd] at hq
          cases hq
        · exact hgood.cancelled hf he (fun _ hr => hr) (fun _ _ => rfl) (by simp [htask])
      · rw [hcancel]
        have hf : c.Frame { c with request := c.request.remove, cancelTask := .done } :=
          ⟨rfl, c.request.same_remove, rfl, rfl⟩
        refine h.frame (.refl s) hf (hnone _) (fun hq => ⟨by simp, (h.quiet hq).2⟩)
          (fun _ hr => hr) (fun hn hgood => .inr ?_)
        refine hgood.cancelled hf he (fun _ hr => hr) (fun hq hlive => ?_) (by simp [htask])
        rw [h.marked.of_ended he] at hq
        have := hlive.2.cancel hn hq
        rw [hcancel] at this
        cases this

theorem tracked_failOne {s : ClientShared} {c : RequestCell} (i : Nat) (h : c.Tracked s) :
    (c.failOne i s).2.Tracked (c.failOne i s).1 := by
  have hg : s.Grows (c.failOne i s).1 := (c.failOne_shared i s).grows
  unfold failOne at hg ⊢
  split at hg
  · rename_i error remaining hstage
    split_ifs at hg ⊢
    · have hf : c.Frame { c with request := c.request.fail error } :=
        ⟨rfl, c.request.same_fail error, rfl, rfl⟩
      refine h.frame hg hf (fun ht => ht) h.quiet (fun _ hr => hr) (fun _ hgood => .inr ?_)
      -- what the caller waits for is not among the entries that are failed
      have hkept : c.request.entry ≠ .failing → c.request.fail error = c.request := by
        intro hne
        unfold PendingRequest.fail
        split
        · rename_i he
          exact absurd he hne
        · rfl
      refine hgood.frame hf (fun hheard => ?_) (fun hlive => ?_) (fun _ hr => hr) rfl
      · have hne : c.request.entry ≠ .failing := by
          cases hheard.way with
          | pending he => simp [he]
          | taken v _ he => simp [he]
          | sent v _ he => simp [he]
        rw [hkept hne]
        exact hheard
      · rcases hlive with hl | hl
        · rw [hkept (by simp [hl])]
          exact .inl hl
        · refine .inr ?_
          unfold PendingRequest.fail
          split
          · exact hl
          · exact hl
    · exact h
  · exact h

/-- `fail_all` takes the entries of a connection that is gone. -/
theorem tracked_takeForFailure {s t : ClientShared} {c : RequestCell} (h : c.Tracked s)
    (hg : s.Grows t) (hd : t.connection.disconnected = true) :
    ({ c with request := c.request.takeForFailure } : RequestCell).Tracked t :=
  h.frame hg ⟨rfl, c.request.same_takeForFailure, rfl, rfl⟩ (fun ht => ht) h.quiet
    (fun _ hr => hr) (fun _ _ => .inl (.inr hd))

/-! ## The caller's steps -/

/-- A step of a caller that is still at work. -/
theorem Tracked.goto {s t : ClientShared} {c d : RequestCell} (h : c.Tracked s) (hg : s.Grows t)
    (hne : ¬ c.Ended) (hn : d.request.nonIdempotent = c.request.nonIdempotent)
    (hr : d.responses = c.responses) (htask : d.cancelTask = c.cancelTask)
    (horphaned : d.orphaned = c.orphaned) (hq : d.enqueued = false → c.enqueued = false)
    (hmarked : d.Marked) (hrefused : d.Refused t)
    (hgood : c.request.nonIdempotent = true → c.Good → d.Lost t ∨ d.Good) : d.Tracked t where
  marked := hmarked
  task := .inl (htask.trans (h.task.resolve_right hne))
  quiet henq := by
    rw [htask, horphaned]
    exact h.quiet (hq henq)
  refused := hrefused
  fate hnon := by
    rw [hn] at hnon
    rcases h.fate hnon with hlost | hgood'
    · exact .inl (hlost.mono hg (fun _ hmem => by rw [hr]; exact hmem))
    · exact hgood hnon hgood'

theorem not_ended_of {c : RequestCell} (h : c.call ≠ .dropped)
    (h' : ∀ result, c.call ≠ .returned result) : ¬ c.Ended := by
  unfold Ended
  split
  · rename_i result hc
    exact absurd hc (h' result)
  · rename_i hc
    exact absurd hc h
  · exact fun hf => hf

section Proceed

variable {env : ClientEnv} {i : Nat} {s : ClientShared} {c : RequestCell} {event : SendEvent}

/-- The call goes on to `call`. -/
theorem Tracked.stay (h : c.Tracked s) (hne : ¬ c.Ended) (call : RequestCall)
    (hmarked : (c.goto call).Marked) (hrefused : (c.goto call).Refused s)
    (hgood : c.request.nonIdempotent = true → c.Good → (c.goto call).Lost s ∨ (c.goto call).Good) :
    (c.goto call).Tracked s :=
  h.goto (.refl s) hne rfl rfl rfl rfl (fun hq => hq) hmarked hrefused hgood

/-- The call turns back before it registers. -/
theorem Tracked.refuse (h : c.Tracked s) (hne : ¬ c.Ended) {error : Error}
    (hd : c.request.dispatched = false) (hq : c.enqueued = false)
    (he : error.kind ≠ .outcomeUnknown ∨
      (c.registered = false ∧ ∃ f, s.firstCause = some f ∧ error.SameCause f)) :
    (c.refuse error).Tracked s := by
  refine h.goto (.refl s) hne rfl rfl rfl rfl (fun hq => hq) (hq.trans hd.symm)
    (fun _ => ⟨error, rfl, he⟩) (fun _ _ => .inr (fun henq => ?_))
  have hfalse : c.enqueued = true := henq
  rw [hq] at hfalse
  cases hfalse

theorem tracked_before (h : c.Tracked s) (hs : s.Sound)
    (hc : c.call = .checkingDeadline ∨ c.call = .checkingClosing ∨
      c.call = .checkingDisconnected ∨ c.call = .readingFailure) :
    (c.proceed env i s event).2.Tracked (c.proceed env i s event).1 := by
  have hmarked := h.marked
  have hrefused := h.refused
  have hne : ¬ c.Ended := by
    rcases hc with hc | hc | hc | hc
    all_goals exact not_ended_of (by simp [hc]) (fun _ => by simp [hc])
  unfold Marked at hmarked
  unfold Refused at hrefused
  rcases hc with hc | hc | hc | hc
  · rw [hc] at hmarked hrefused
    simp only [proceed, hc]
    split_ifs
    · exact h.refuse hne hmarked.1 hmarked.2.1 (.inl (by simp [Error.timeout, Error.new]))
    · exact h.stay hne _ hmarked hrefused (fun _ _ => .inr trivial)
  · rw [hc] at hmarked hrefused
    simp only [proceed, hc]
    split_ifs
    · exact h.refuse hne hmarked.1 hmarked.2.1 (.inl (by simp [Error.new]))
    · exact h.stay hne _ hmarked hrefused (fun _ _ => .inr trivial)
  · rw [hc] at hmarked hrefused
    simp only [proceed, hc]
    split_ifs with hd
    · exact h.stay hne _ hmarked ⟨hrefused, hd⟩ (fun _ _ => .inr trivial)
    · exact h.stay hne _ hmarked hrefused (fun _ _ => .inr trivial)
  · rw [hc] at hmarked hrefused
    simp only [proceed, hc]
    obtain ⟨first, failure, hp, -⟩ := hs.disconnected hrefused.2
    rw [hp.failure]
    exact h.refuse hne hmarked.1 hmarked.2.1 (.inr ⟨hrefused.1, first, hp.firstCause, hp.same⟩)

theorem tracked_registering (h : c.Tracked s) (hc : c.call = .registering) :
    (c.proceed env i s event).2.Tracked (c.proceed env i s event).1 := by
  have hmarked := h.marked
  have hne : ¬ c.Ended := not_ended_of (by simp [hc]) (fun _ => by simp [hc])
  unfold Marked at hmarked
  rw [hc] at hmarked
  obtain ⟨hd, hq, hcancelled⟩ := hmarked
  simp only [proceed, hc]
  split_ifs
  · exact h.refuse hne hd hq (.inl (by simp [Error.new]))
  · refine h.goto (.of_eq rfl rfl) hne rfl rfl rfl rfl (fun hq => hq) ⟨hd, hq, rfl, hcancelled⟩
      trivial (fun _ _ => .inr ?_)
    exact ⟨rfl, .pending rfl rfl, .inl rfl⟩

theorem Heard.of_request {c d : RequestCell} (h : c.Heard) (hq : d.request = c.request)
    (hr : d.responses = c.responses) : d.Heard where
  receiving := by rw [hq]; exact h.receiving
  live := by unfold Live; rw [hq]; exact h.live
  way := by
    cases h.way with
    | pending he hw => exact .pending (by rw [hq]; exact he) (by rw [hq]; exact hw)
    | taken v hcame he hw =>
        exact .taken v (by rw [hr]; exact hcame) (by rw [hq]; exact he) (by rw [hq]; exact hw)
    | sent v hcame he hw =>
        exact .sent v (by rw [hr]; exact hcame) (by rw [hq]; exact he) (by rw [hq]; exact hw)

/-- `send_tracked` fails before it marks the request. -/
theorem Tracked.sendFailed (h : c.Tracked s) (hne : ¬ c.Ended)
    (hd : c.request.dispatched = false) (hq : c.enqueued = false) {error : Error}
    (he : error.kind ≠ .outcomeUnknown) : (c.goto (.sendFailed error)).Tracked s := by
  refine h.goto (.refl s) hne rfl rfl rfl rfl (fun hq => hq) (hq.trans hd.symm) (fun _ => he)
    (fun _ _ => .inr (fun henq => ?_))
  have hfalse : c.enqueued = true := henq
  rw [hq] at hfalse
  cases hfalse

theorem tracked_unsent (h : c.Tracked s)
    (hc : c.call = .entering ∨ c.call = .reserving ∨ c.call = .admitted) :
    (c.proceed env i s event).2.Tracked (c.proceed env i s event).1 := by
  have hmarked := h.marked
  have hne : ¬ c.Ended := by
    rcases hc with hc | hc | hc
    all_goals exact not_ended_of (by simp [hc]) (fun _ => by simp [hc])
  have hfail : ∀ error : Error, c.request.dispatched = false ∧ c.enqueued = false ∧ c.Attended →
      error.kind ≠ .outcomeUnknown → (c.goto (.sendFailed error)).Tracked s :=
    fun error hm he => h.sendFailed hne hm.1 hm.2.1 he
  have hgood : c.Good → c.Heard := by
    intro hgood
    unfold Good at hgood
    rcases hc with hc | hc | hc
    all_goals rw [hc] at hgood; exact hgood
  unfold Marked at hmarked
  rcases hc with hc | hc | hc
  · rw [hc] at hmarked
    simp only [proceed, hc]
    split_ifs
    · exact hfail _ hmarked (by simp [Error.new])
    · exact hfail _ hmarked (by simp [Error.new])
    · exact hfail _ hmarked (by simp [Error.timeout, Error.new])
    · exact h.stay hne _ hmarked trivial (fun _ hg => .inr ((hgood hg).of_request rfl rfl))
  · rw [hc] at hmarked
    simp only [proceed, hc]
    split_ifs
    · exact hfail _ hmarked (by simp [Error.new])
    · exact hfail _ hmarked (by simp [Error.timeout, Error.new])
    · exact h.stay hne _ hmarked trivial (fun _ hg => .inr ((hgood hg).of_request rfl rfl))
  · rw [hc] at hmarked
    simp only [proceed, hc]
    split_ifs
    · exact hfail _ hmarked (by simp [Error.new])
    · exact h.stay hne _ hmarked trivial (fun _ hg => .inr ((hgood hg).of_request rfl rfl))

theorem tracked_marking (h : c.Tracked s) (hc : c.call = .marking) :
    (c.proceed env i s event).2.Tracked (c.proceed env i s event).1 := by
  have hmarked := h.marked
  have hne : ¬ c.Ended := not_ended_of (by simp [hc]) (fun _ => by simp [hc])
  unfold Marked at hmarked
  rw [hc] at hmarked
  simp only [proceed, hc]
  refine h.goto (.refl s) hne rfl rfl rfl rfl (fun hq => hq) ⟨rfl, hmarked.2.1, hmarked.2.2⟩
    trivial (fun _ hgood => .inr ?_)
  unfold Good at hgood
  rw [hc] at hgood
  refine ⟨hgood.receiving, ?_, hgood.live⟩
  cases hgood.way with
  | pending he hw => exact .pending he hw
  | taken v hcame he hw => exact .taken v hcame he hw
  | sent v hcame he hw => exact .sent v hcame he hw

theorem tracked_queueing (h : c.Tracked s) (hc : c.call = .queueing) :
    (c.proceed env i s event).2.Tracked (c.proceed env i s event).1 := by
  have hmarked := h.marked
  have hne : ¬ c.Ended := not_ended_of (by simp [hc]) (fun _ => by simp [hc])
  unfold Marked at hmarked
  rw [hc] at hmarked
  simp only [proceed, hc]
  refine h.goto (.refl s) hne rfl rfl rfl rfl (fun _ => hmarked.2.1) ⟨hmarked.1, rfl⟩ trivial
    (fun _ hgood => .inr ?_)
  unfold Good at hgood
  rw [hc] at hgood
  exact hgood.of_request rfl rfl

/-- The frame is queued, and the time is not up. -/
theorem tracked_dispatched (h : c.Tracked s) (hc : c.call = .dispatched)
    (hin : event ≠ .expired) :
    (c.proceed env i s event).2.Tracked (c.proceed env i s event).1 := by
  have hmarked := h.marked
  have hne : ¬ c.Ended := not_ended_of (by simp [hc]) (fun _ => by simp [hc])
  unfold Marked at hmarked
  rw [hc] at hmarked
  simp only [proceed, hc, if_neg hin]
  refine h.stay hne _ hmarked trivial (fun _ hgood => .inr ?_)
  unfold Good at hgood
  rw [hc] at hgood
  exact hgood.of_request rfl rfl

theorem tracked_acknowledging (h : c.Tracked s) (hc : c.call = .acknowledging) :
    (c.proceed env i s event).2.Tracked (c.proceed env i s event).1 := by
  have hmarked := h.marked
  have hne : ¬ c.Ended := not_ended_of (by simp [hc]) (fun _ => by simp [hc])
  have hgood : c.Good → c.Heard := by
    intro hgood
    unfold Good at hgood
    rw [hc] at hgood
    exact hgood
  unfold Marked at hmarked
  rw [hc] at hmarked
  simp only [proceed, hc]
  split
  · exact h.goto (.of_eq rfl rfl) hne rfl rfl rfl rfl (fun hq => hq) hmarked trivial
      (fun _ hg => .inr ((hgood hg).of_request rfl rfl))
  · exact h.stay hne _ hmarked trivial (fun _ hg => .inr ((hgood hg).of_request rfl rfl))

theorem terminationError_kind (reason : String) (event : SendEvent) :
    (terminationError reason event).kind = .outcomeUnknown := by
  unfold terminationError
  split
  · rfl
  · rfl

theorem tracked_terminating (h : c.Tracked s) {reason : String}
    (hc : c.call = .terminating reason) :
    (c.proceed env i s event).2.Tracked (c.proceed env i s event).1 := by
  have hmarked := h.marked
  have hne : ¬ c.Ended := not_ended_of (by simp [hc]) (fun _ => by simp [hc])
  unfold Marked at hmarked
  rw [hc] at hmarked
  simp only [proceed, hc]
  refine h.stay hne _ (hmarked.2.trans hmarked.1.symm) (fun hq => ?_)
    (fun _ _ => .inr (fun _ => terminationError_kind reason event))
  have hfalse : c.enqueued = false := hq
  rw [hmarked.2] at hfalse
  cases hfalse

/-- A send that failed with an unknown outcome has queued its frame. -/
theorem tracked_sendFailed (h : c.Tracked s) {error : Error} (hc : c.call = .sendFailed error) :
    (c.proceed env i s event).2.Tracked (c.proceed env i s event).1 := by
  have hmarked := h.marked
  have hrefused := h.refused
  have hne : ¬ c.Ended := not_ended_of (by simp [hc]) (fun _ => by simp [hc])
  have hsame := c.request.same_remove
  unfold Marked at hmarked
  unfold Refused at hrefused
  rw [hc] at hmarked hrefused
  simp only [proceed, hc, afterSendFailure]
  split_ifs with hkind
  · have hq : c.enqueued = true := by
      cases hq : c.enqueued with
      | true => rfl
      | false => exact absurd hkind (hrefused hq)
    have hd : c.request.dispatched = true := hmarked.symm.trans hq
    exact h.goto (.refl s) hne hsame.nonIdempotent rfl rfl rfl (fun hq => hq)
      ⟨hsame.dispatched.trans hd, hq⟩ trivial (fun _ _ => .inr trivial)
  · refine h.goto (.refl s) hne hsame.nonIdempotent rfl rfl rfl (fun hq => hq)
      (hmarked.trans hsame.dispatched.symm) (fun _ => ⟨_, rfl, hkind⟩)
      (fun _ hgood => .inr (fun hq => ?_))
    unfold Good at hgood
    rw [hc] at hgood
    exact absurd (hgood hq) hkind

/-- The caller takes what the channel holds, or stops listening. -/
theorem tracked_waiting (h : c.Tracked s) (hc : c.call = .waiting) :
    (c.proceed env i s event).2.Tracked (c.proceed env i s event).1 := by
  have hmarked := h.marked
  have hne : ¬ c.Ended := not_ended_of (by simp [hc]) (fun _ => by simp [hc])
  have hgood : c.Good → c.Heard := by
    intro hgood
    unfold Good at hgood
    rw [hc] at hgood
    exact hgood
  unfold Marked at hmarked
  rw [hc] at hmarked
  obtain ⟨hd, hq⟩ := hmarked
  have hrefused : ∀ result resolved, (c.goto (.leaving result resolved)).Refused s := by
    intro result resolved hfalse
    have hfalse' : c.enqueued = false := hfalse
    rw [hq] at hfalse'
    cases hfalse'
  simp only [proceed, hc]
  split_ifs
  · exact h.goto (.refl s) hne rfl rfl rfl rfl (fun hq => hq) ⟨hd, hq⟩ trivial
      (fun _ hg => .inr (hgood hg).live)
  · split
    · exact h
    · rename_i result hwaiter
      refine h.stay hne _ (hq.trans hd.symm) (hrefused _ _) (fun _ hg => .inr (fun _ => ?_))
      cases (hgood hg).way with
      | pending _ hw => rw [hw] at hwaiter; cases hwaiter
      | taken v _ _ hw => rw [hw] at hwaiter; cases hwaiter
      | sent v hcame _ hw =>
          rw [hw] at hwaiter
          cases hwaiter
          exact .inl ⟨v, rfl, hcame⟩
    · rename_i hwaiter
      refine h.stay hne _ (hq.trans hd.symm) (hrefused _ _) (fun _ hg => .inr (fun _ => ?_))
      cases (hgood hg).way with
      | pending _ hw => rw [hw] at hwaiter; cases hwaiter
      | taken v _ _ hw => rw [hw] at hwaiter; cases hwaiter
      | sent v _ _ hw => rw [hw] at hwaiter; cases hwaiter

/-- A live request that times out has an unknown outcome. -/
theorem Live.timeout (h : c.Live) (hn : c.request.nonIdempotent = true)
    (hd : c.request.dispatched = true) :
    c.request.timeout = (.outcomeUnknown, c.request.remove) := by
  unfold PendingRequest.timeout
  refine if_pos ?_
  rcases h with hl | hl
  · simp [hn, hd, PendingRequest.isPending_of_entry hl]
  · simp [hn, hd, hl]

theorem timeout_cases (p : PendingRequest) :
    p.timeout = (.outcomeUnknown, p.remove) ∨ p.timeout = (.timedOut, p.remove) := by
  unfold PendingRequest.timeout
  split_ifs
  · exact .inl rfl
  · exact .inr rfl

theorem tracked_timedOut (h : c.Tracked s) (hc : c.call = .timedOut) :
    (c.proceed env i s event).2.Tracked (c.proceed env i s event).1 := by
  have hmarked := h.marked
  have hne : ¬ c.Ended := not_ended_of (by simp [hc]) (fun _ => by simp [hc])
  have hsame := c.request.same_remove
  unfold Marked at hmarked
  rw [hc] at hmarked
  obtain ⟨hd, hq⟩ := hmarked
  simp only [proceed, hc, afterTimeout]
  rcases timeout_cases c.request with ht | ht
  · rw [ht]
    exact h.goto (.refl s) hne hsame.nonIdempotent rfl rfl rfl (fun hq => hq)
      ⟨hsame.dispatched.trans hd, hq⟩ trivial (fun _ _ => .inr trivial)
  · rw [ht]
    refine h.goto (.refl s) hne hsame.nonIdempotent rfl rfl rfl (fun hq => hq)
      (hq.trans (hsame.dispatched.trans hd).symm) (fun hfalse => ?_) (fun hn hgood => ?_)
    · have hfalse' : c.enqueued = false := hfalse
      rw [hq] at hfalse'
      cases hfalse'
    · unfold Good at hgood
      rw [hc] at hgood
      have hlive : c.Live := hgood
      rw [hlive.timeout hn hd] at ht
      cases ht

/-- The call reports the outcome it disconnected for. -/
theorem tracked_outcome (h : c.Tracked s) (hs : s.Sound) (hout : c.Outcome) {outcome : Error}
    (hc : c.call = .disconnecting outcome ∨ c.call = .cleaning outcome) :
    (c.proceed env i s event).2.Tracked (c.proceed env i s event).1 := by
  have hmarked : c.request.dispatched = true ∧ c.enqueued = true := by
    have hm := h.marked
    unfold Marked at hm
    rcases hc with hc | hc
    all_goals rw [hc] at hm; exact hm
  have hkind : outcome.kind = .outcomeUnknown := by
    unfold Outcome at hout
    rcases hc with hc | hc
    all_goals rw [hc] at hout; exact hout
  have hne : ¬ c.Ended := by
    rcases hc with hc | hc
    all_goals exact not_ended_of (by simp [hc]) (fun _ => by simp [hc])
  have hleave : (c.goto (.leaving (.error outcome) false)).Tracked s := by
    refine h.stay hne _ (hmarked.2.trans hmarked.1.symm) (fun hfalse => ?_)
      (fun _ _ => .inr (fun _ => .inr ⟨outcome, rfl, hkind⟩))
    have hfalse' : c.enqueued = false := hfalse
    rw [hmarked.2] at hfalse'
    cases hfalse'
  rcases hc with hc | hc
  · simp only [proceed, hc]
    rcases s.beginDisconnect_cases (some i) outcome with ⟨-, hb⟩ | ⟨-, hb⟩
    · rw [hb]
      exact hleave
    · have hg := ClientShared.grows_beginDisconnect hs (some i) outcome
      rw [hb] at hg ⊢
      exact h.goto hg hne rfl rfl rfl rfl (fun hq => hq) hmarked trivial
        (fun _ _ => .inr trivial)
  · simp only [proceed, hc]
    split
    · exact hleave
    · exact h

/-- The call returns; the guard of one that did not resolve its ownership is armed. -/
theorem tracked_leaving (h : c.Tracked s) {result : Result Json} {resolved : Bool}
    (hc : c.call = .leaving result resolved) :
    (c.proceed env i s event).2.Tracked (c.proceed env i s event).1 := by
  have hmarked := h.marked
  have hrefused := h.refused
  have hfate := h.fate
  have hne : ¬ c.Ended := not_ended_of (by simp [hc]) (fun _ => by simp [hc])
  have htask : c.cancelTask = .none := h.task.resolve_right hne
  have hquiet := h.quiet
  unfold Marked at hmarked
  unfold Refused at hrefused
  unfold Good at hfate
  rw [hc] at hmarked hrefused hfate
  have hturned : c.enqueued = false → ∃ error : Error, result = .error error ∧
      (error.kind ≠ .outcomeUnknown ∨
        (c.registered = false ∧ ∃ f, s.firstCause = some f ∧ error.SameCause f)) := by
    intro hq
    obtain ⟨error, he, hkind⟩ := hrefused hq
    exact ⟨error, he, .inl hkind⟩
  simp only [proceed, hc]
  split_ifs
  · exact ⟨hmarked, .inl htask, hquiet, hturned, hfate⟩
  · exact ⟨hmarked, .inr trivial, fun hq => ⟨CancelTask.spawned_ne, (hquiet hq).2⟩, hturned,
      hfate⟩

theorem tracked_unwinding (h : c.Tracked s) (hc : c.call = .unwinding) :
    (c.proceed env i s event).2.Tracked (c.proceed env i s event).1 := by
  have hmarked := h.marked
  have hfate := h.fate
  have hquiet := h.quiet
  unfold Marked at hmarked
  unfold Good at hfate
  rw [hc] at hmarked hfate
  simp only [proceed, hc]
  refine ⟨hmarked, .inr trivial, fun hq => ⟨CancelTask.spawned_ne, (hquiet hq).2⟩, trivial,
    fun hn => ?_⟩
  exact (hfate hn).imp_right (fun hlive hq => .inl ⟨rfl, hlive hq⟩)

/-- Every step of the caller keeps track, if the time does not end between the queueing and
the wait for the acknowledgement. -/
theorem tracked_proceed (h : c.Tracked s) (hs : s.Sound) (hout : c.Outcome)
    (hin : c.call = .dispatched → event ≠ .expired) :
    (c.proceed env i s event).2.Tracked (c.proceed env i s event).1 := by
  cases hc : c.call with
  | idle => simp only [proceed, hc]; exact h
  | returned result => simp only [proceed, hc]; exact h
  | dropped => simp only [proceed, hc]; exact h
  | checkingDeadline => exact tracked_before h hs (.inl hc)
  | checkingClosing => exact tracked_before h hs (.inr (.inl hc))
  | checkingDisconnected => exact tracked_before h hs (.inr (.inr (.inl hc)))
  | readingFailure => exact tracked_before h hs (.inr (.inr (.inr hc)))
  | registering => exact tracked_registering h hc
  | entering => exact tracked_unsent h (.inl hc)
  | reserving => exact tracked_unsent h (.inr (.inl hc))
  | admitted => exact tracked_unsent h (.inr (.inr hc))
  | marking => exact tracked_marking h hc
  | queueing => exact tracked_queueing h hc
  | dispatched => exact tracked_dispatched h hc (hin hc)
  | acknowledging => exact tracked_acknowledging h hc
  | terminating reason => exact tracked_terminating h hc
  | sendFailed error => exact tracked_sendFailed h hc
  | waiting => exact tracked_waiting h hc
  | timedOut => exact tracked_timedOut h hc
  | disconnecting outcome => exact tracked_outcome h hs hout (.inl hc)
  | cleaning outcome => exact tracked_outcome h hs hout (.inr hc)
  | leaving result resolved => exact tracked_leaving h hc
  | unwinding => exact tracked_unwinding h hc

/-- The caller's future is dropped while it listens. -/
theorem tracked_unwound (h : c.Tracked s) (hne : ¬ c.Ended)
    (hmarked : c.enqueued = c.request.dispatched) (hgood : c.Good → c.Heard) :
    ({ c with request := c.request.dropReceiver, call := .unwinding } : RequestCell).Tracked s :=
  h.goto (.refl s) hne rfl rfl rfl rfl (fun hq => hq) hmarked trivial
    (fun _ hg => .inr (fun _ => (hgood hg).live))

theorem tracked_drop (i : Nat) (h : c.Tracked s) (hs : s.Sound) :
    (c.drop i s).2.Tracked (c.drop i s).1 := by
  have hmarked := h.marked
  unfold Marked at hmarked
  have hgood : c.Good → c.call = .reserving ∨ c.call = .acknowledging ∨
      (∃ reason, c.call = .terminating reason) ∨ c.call = .waiting → c.Heard := by
    intro hgood hc
    unfold Good at hgood
    rcases hc with hc | hc | ⟨reason, hc⟩ | hc
    all_goals rw [hc] at hgood; exact hgood
  cases hc : c.call with
  | reserving =>
      have hne : ¬ c.Ended := not_ended_of (by simp [hc]) (fun _ => by simp [hc])
      rw [hc] at hmarked
      simp only [drop, hc]
      exact tracked_unwound h hne (hmarked.2.1.trans hmarked.1.symm) (fun hg => hgood hg (.inl hc))
  | acknowledging =>
      have hne : ¬ c.Ended := not_ended_of (by simp [hc]) (fun _ => by simp [hc])
      rw [hc] at hmarked
      simp only [drop, hc]
      exact tracked_unwound h hne (hmarked.2.trans hmarked.1.symm)
        (fun hg => hgood hg (.inr (.inl hc)))
  | terminating reason =>
      have hne : ¬ c.Ended := not_ended_of (by simp [hc]) (fun _ => by simp [hc])
      rw [hc] at hmarked
      simp only [drop, hc]
      exact tracked_unwound h hne (hmarked.2.trans hmarked.1.symm)
        (fun hg => hgood hg (.inr (.inr (.inl ⟨reason, hc⟩))))
  | waiting =>
      have hne : ¬ c.Ended := not_ended_of (by simp [hc]) (fun _ => by simp [hc])
      rw [hc] at hmarked
      simp only [drop, hc]
      exact tracked_unwound h hne (hmarked.2.trans hmarked.1.symm)
        (fun hg => hgood hg (.inr (.inr (.inr hc))))
  | cleaning outcome =>
      have hne : ¬ c.Ended := not_ended_of (by simp [hc]) (fun _ => by simp [hc])
      rw [hc] at hmarked
      simp only [drop, hc]
      split
      · rename_i error hstage
        split_ifs
        · -- its disconnect goes on without it, but it has begun
          have hd : s.connection.disconnected = true := by
            cases hd : s.connection.disconnected with
            | true => rfl
            | false =>
                have := (hs.connected hd).1
                rw [hstage] at this
                cases this
          exact h.goto (.of_eq rfl rfl) hne rfl rfl rfl rfl (fun hq => hq)
            (hmarked.2.trans hmarked.1.symm) trivial (fun _ _ => .inl (.inr hd))
        · exact h
      · exact h
  | _ => simp only [drop, hc]; exact h

end Proceed

end RequestCell

/-! ## Every run -/

namespace ClientWorld

/-- The time of request `i` does not end between the queueing of its frame and the wait for
the acknowledgement. -/
def InTime (i : Nat) (w : ClientWorld) (label : ClientLabel) : Prop :=
  label = .request i (.proceed .expired) → (w.requests i).call ≠ .dispatched

theorem tracked_actRequest (env : ClientEnv) (i : Nat) {s : ClientShared} {c : RequestCell}
    (h : c.Tracked s) (hs : s.Sound) (hout : c.Outcome) {label : RequestLabel}
    (hin : label = .proceed .expired → c.call ≠ .dispatched) :
    (actRequest env i s c label).2.Tracked (actRequest env i s c label).1 := by
  cases label with
  | call nonIdempotent allowClosing operation method params requestTimeout =>
      cases hc : c.call with
      | idle =>
          simp only [actRequest, hc]
          exact ⟨⟨rfl, rfl, rfl⟩, .inl rfl, fun _ => ⟨CancelTask.none_ne, rfl⟩, rfl,
            fun _ => .inr trivial⟩
      | _ => simp only [actRequest, hc]; exact h
  | proceed event =>
      refine RequestCell.tracked_proceed h hs hout (fun hc he => ?_)
      exact hin (by rw [he]) hc
  | drop => exact RequestCell.tracked_drop i h hs
  | succeed result => exact RequestCell.tracked_respond h _
  | reject code message => exact RequestCell.tracked_respond h _
  | handOver => exact RequestCell.tracked_handOver h
  | disconnectOrphan => exact RequestCell.tracked_disconnectOrphan h hs
  | runCancel => exact RequestCell.tracked_runCancel h hs
  | failOne => exact RequestCell.tracked_failOne i h

/-- The disconnect under way touches a request only when it takes the entries. -/
theorem goOn_request (w : ClientWorld) (termination : Termination) (i : Nat) :
    (w.goOn termination).requests i = w.requests i ∨
      ((w.goOn termination).requests i = { w.requests i with
        request := (w.requests i).request.takeForFailure } ∧
        w.shared.stage ≠ .connected ∧
        (w.goOn termination).shared.connection = w.shared.connection) := by
  unfold goOn
  split
  · exact .inl rfl
  · exact .inl rfl
  · exact .inl rfl
  · rename_i error hstage
    exact .inr ⟨rfl, by simp [hstage], rfl⟩
  · split
    · exact .inl rfl
    · exact .inl rfl
  · exact .inl rfl
  · exact .inl rfl
  · exact .inl rfl

theorem tracked_goOn {w : ClientWorld} {i : Nat} (h : (w.requests i).Tracked w.shared)
    (hs : w.shared.Sound) (termination : Termination) :
    ((w.goOn termination).requests i).Tracked (w.goOn termination).shared := by
  have hg : w.shared.Grows (w.goOn termination).shared := (w.goOn_shared termination hs).1
  rcases w.goOn_request termination i with hr | ⟨hr, hstage, hconn⟩
  · rw [hr]
    exact h.mono hg
  · rw [hr]
    refine RequestCell.tracked_takeForFailure h hg ?_
    rw [hconn]
    cases hd : w.shared.connection.disconnected with
    | true => rfl
    | false => exact absurd (hs.connected hd).1 hstage

theorem tracked_act (env : ClientEnv) {w : ClientWorld} {i : Nat} {label : ClientLabel}
    (hc : w.Caused) (h : (w.requests i).Tracked w.shared) (hin : w.InTime i label) :
    ((w.act env label).requests i).Tracked (w.act env label).shared := by
  have hg : w.shared.Grows (w.act env label).shared := (act_shared env label hc).1
  cases label with
  | request j label =>
      by_cases hij : i = j
      · subst hij
        simp only [act, Function.update_self]
        exact tracked_actRequest env i h hc.sound (hc.outcome i)
          (fun hl => hin (by rw [hl]))
      · simp only [act, Function.update_of_ne hij] at hg ⊢
        exact h.mono hg
  | goOn termination => exact tracked_goOn h hc.sound termination
  | dropOwner =>
      have hr : (w.act env .dropOwner).requests i = w.requests i := by
        simp only [act]
        split
        · rfl
        · rfl
      rw [hr]
      exact h.mono hg
  | disconnect error => exact h.mono hg
  | beginClosing => exact h.mono hg
  | stopProcess => exact h.mono hg

/-- Every request is tracked in every run. -/
theorem tracked_reachable (env : ClientEnv) {i : Nat} {w : ClientWorld}
    (h : (clientMachine env).Reachable (InTime i) w) :
    w.Caused ∧ (w.requests i).Tracked w.shared := by
  refine h.invariant (P := fun w => w.Caused ∧ (w.requests i).Tracked w.shared)
    ⟨caused_init, RequestCell.tracked_idle _⟩ ?_
  intro w label _ hw hin
  exact ⟨hw.1.act env label, tracked_act env hw.1 hw.2 hin⟩

/-- The connection is gone, and its failure is the first cause: an unknown outcome, or what
somebody else than the requests disconnected for. -/
def Gone (w : ClientWorld) : Prop :=
  w.shared.connection.disconnected = true ∧ ∃ first failure, w.shared.Published first failure

theorem Caused.gone {w : ClientWorld} (h : w.Caused)
    (hd : w.shared.connection.disconnected = true) : w.Gone := by
  obtain ⟨first, failure, hp, -⟩ := h.sound.disconnected hd
  exact ⟨hd, first, failure, hp⟩

/--
**A dispatched non-idempotent request is not forgotten.** Once its frame is queued and as
long as no error response came for it, a call that returned has the success that came or an
unknown outcome, or the connection is gone; the connection is gone also when the call was
dropped and its cancel task has run. A request whose frame was never queued is no unknown
outcome to anybody: only a call that was turned away before it registered may report one,
the first cause of a connection that was gone already.
-/
theorem dispatched_request_not_forgotten (env : ClientEnv) {i : Nat} {w : ClientWorld}
    (h : (clientMachine env).Reachable (InTime i) w)
    (hn : (w.requests i).request.nonIdempotent = true) :
    ((w.requests i).enqueued = true → (∀ error, .error error ∉ (w.requests i).responses) →
      (∀ result, (w.requests i).call = .returned result →
        (w.requests i).Obtained result ∨ w.Gone) ∧
      ((w.requests i).call = .dropped → (w.requests i).cancelTask = .done → w.Gone)) ∧
    ((w.requests i).enqueued = false →
      (∀ error, (w.requests i).call = .returned (.error error) → error.kind = .outcomeUnknown →
        (w.requests i).registered = false ∧
          ∃ first, w.shared.firstCause = some first ∧ error.SameCause first) ∧
      (w.requests i).cancelTask ≠ .disconnecting ∧ (w.requests i).orphaned = false) := by
  obtain ⟨hcaused, ht⟩ := tracked_reachable env h
  refine ⟨fun hq hno => ?_, fun hq => ⟨?_, ht.quiet hq⟩⟩
  · have hfate : w.Gone ∨ (w.requests i).Good := by
      rcases ht.fate hn with (⟨error, he⟩ | hd) | hgood
      · exact absurd he (hno error)
      · exact .inl (hcaused.gone hd)
      · exact .inr hgood
    rcases hfate with hgone | hgood
    · exact ⟨fun _ _ => .inr hgone, fun _ _ => hgone⟩
    · unfold RequestCell.Good at hgood
      refine ⟨fun result hc => ?_, fun hc hdone => ?_⟩
      · rw [hc] at hgood
        exact .inl (hgood hq)
      · rw [hc] at hgood
        rcases hgood hq with ⟨hspawned, -⟩ | hdisc
        · rw [hdone] at hspawned; cases hspawned
        · rw [hdone] at hdisc; cases hdisc
  · intro error hc hkind
    have hrefused := ht.refused
    unfold RequestCell.Refused at hrefused
    rw [hc] at hrefused
    obtain ⟨e, he, hne | hturned⟩ := hrefused hq
    · cases he
      exact absurd hkind hne
    · cases he
      exact hturned

/-! ## Two runs -/

/-- A client that sends small frames. -/
def roomyClient : ClientEnv where
  maxFrameBytes := 65536
  sendTimeout := 1000
  redactLine := fun line => line

/-- A `thread/start` up to the wait for its response. -/
def startedCall : List ClientLabel :=
  .request 0 (.call true false "thread.start" "thread/start" (.object []) 1000)
    :: List.replicate 11 (.request 0 (.proceed .ready))

/-- The success comes and the caller takes it. -/
def answeredCall : List ClientLabel :=
  startedCall ++ [.request 0 (.succeed .null), .request 0 .handOver,
    .request 0 (.proceed .ready), .request 0 (.proceed .ready)]

/-- The app-server's output ends, and the caller goes away. -/
def droppedCall : List ClientLabel :=
  startedCall ++ [
    .disconnect (Error.new .disconnected "process.stdout" "app-server stdout reached EOF"),
    .request 0 .drop, .request 0 (.proceed .ready), .request 0 .runCancel, .request 0 .runCancel]

/-- The caller goes away, which disconnects the client; then there is another call. -/
def lateCall : List ClientLabel :=
  startedCall ++ [
    .request 0 .drop, .request 0 (.proceed .ready), .request 0 .runCancel, .request 0 .runCancel,
    .request 1 (.call true false "turn.start" "turn/start" (.object []) 1000)] ++
    List.replicate 4 (.request 1 (.proceed .ready))

/-- A run in which no time ends is in time. -/
theorem reachable_inTime (env : ClientEnv) (i : Nat) {labels : List ClientLabel}
    (h : .request i (.proceed .expired) ∉ labels) :
    (clientMachine env).Reachable (InTime i) ((clientMachine env).run labels) := by
  refine Machine.reachable_init.runFrom ?_
  intro pre label post hsplit hl
  rw [hl] at hsplit
  exact absurd (by rw [hsplit]; simp) h

/-- The caller of an answered `thread/start` has the answer. -/
theorem answered_call_obtains :
    (((clientMachine roomyClient).run answeredCall).requests 0).Obtained (.ok .null) ∨
      ((clientMachine roomyClient).run answeredCall).Gone :=
  ((dispatched_request_not_forgotten roomyClient
    (reachable_inTime roomyClient 0
      (by simp [answeredCall, startedCall])) rfl).1 rfl
    (fun error hmem => by cases List.mem_singleton.mp hmem)).1 _ rfl

/-- The frame is queued and no response came, the caller is gone, and the connection is
disconnected for the end of the output: there is no unknown outcome anywhere. And a call that
was turned away before it registered has the unknown outcome of another one. -/
theorem dropped_call_after_eof :
    (let w := (clientMachine roomyClient).run droppedCall;
      (w.requests 0).request.nonIdempotent = true ∧ (w.requests 0).enqueued = true ∧
        (w.requests 0).responses = [] ∧ (w.requests 0).call = .dropped ∧
        (w.requests 0).cancelTask = .done ∧
        ∃ failure, w.shared.connection.failure = some failure ∧ failure.kind = .disconnected) ∧
    let w := (clientMachine roomyClient).run lateCall
    (w.requests 1).request.nonIdempotent = true ∧ (w.requests 1).enqueued = false ∧
      (w.requests 1).registered = false ∧
      ∃ error, (w.requests 1).call = .returned (.error error) ∧ error.kind = .outcomeUnknown :=
  ⟨⟨rfl, rfl, rfl, rfl, rfl, _, rfl, rfl⟩, rfl, rfl, rfl, _, rfl, rfl⟩

end ClientWorld

end Vergerail
