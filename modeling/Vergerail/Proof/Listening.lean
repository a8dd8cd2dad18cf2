import Vergerail.Proof.RequestFate

/-!
# What a caller listens to

A call that holds its receiver has an entry that somebody owes it an end of, or something in
its channel already. A success it finds there, or tells its own caller, is one that the
router took for it. `Sane` says this of one call; every step keeps it.
-/

namespace Vergerail

open Lib

namespace PendingRequest

/-- An operation that puts nothing into the entry or the channel. -/
structure Quieter (p q : PendingRequest) : Prop where
  entry : ∀ response, q.entry = .completing response → p.entry = .completing response
  waiter : ∀ result, q.waiter = .value result → p.waiter = .value result

theorem Quieter.refl (p : PendingRequest) : p.Quieter p := ⟨fun _ h => h, fun _ h => h⟩

theorem remove_cases (p : PendingRequest) :
    (p.entry = .pending ∧ p.remove = p.dropSender) ∨ (p.entry ≠ .pending ∧ p.remove = p) := by
  unfold remove isPending
  split
  · rename_i h
    exact .inl ⟨h, rfl⟩
  · rename_i h
    exact .inr ⟨h, rfl⟩

theorem dropSender_waiter (p : PendingRequest) : p.dropSender.waiter ≠ .empty := by
  unfold dropSender
  cases hw : p.waiter with
  | empty => simp
  | value result => simp
  | closed => simp

theorem quieter_dropSender (p : PendingRequest) : p.Quieter p.dropSender where
  entry response h := by cases h
  waiter result h := by
    unfold dropSender at h
    cases hw : p.waiter with
    | empty => simp [hw] at h
    | value result' => simpa [hw] using h
    | closed => simp [hw] at h

theorem quieter_remove (p : PendingRequest) : p.Quieter p.remove := by
  rcases p.remove_cases with ⟨-, h⟩ | ⟨-, h⟩
  · rw [h]; exact p.quieter_dropSender
  · rw [h]; exact .refl p

end PendingRequest

namespace RequestCell

@[simp] theorem goto_call (c : RequestCell) (call : RequestCall) : (c.goto call).call = call := rfl

/-- The call holds its receiver. -/
def Listening (c : RequestCell) : Prop :=
  match c.call with
  | .entering | .reserving | .admitted | .marking | .queueing | .dispatched | .acknowledging
  | .terminating _ | .waiting => True
  | _ => False

/-- What the call tells its caller. -/
def Tells (c : RequestCell) (result : Result Json) : Prop :=
  (∃ resolved, c.call = .leaving result resolved) ∨ c.call = .returned result

/-- A caller that listens is owed an end or has it, and a success it hears came. -/
structure Sane (c : RequestCell) : Prop where
  held : c.Listening → c.request.receiving = true ∧
    (c.request.entry = .absent → c.request.waiter ≠ .empty)
  taken : ∀ v, c.request.entry = .completing (.ok v) → .ok v ∈ c.responses
  sent : ∀ v, c.request.waiter = .value (.ok v) → .ok v ∈ c.responses
  told : ∀ v, c.Tells (.ok v) → .ok v ∈ c.responses

theorem sane_idle : idle.Sane where
  held h := by cases h
  taken v h := by cases h
  sent v h := by cases h
  told v h := by
    rcases h with ⟨resolved, h⟩ | h
    · cases h
    · cases h

/-- A step of the caller. -/
theorem Sane.move {c d : RequestCell} (h : c.Sane) (hr : d.responses = c.responses)
    (hq : c.request.Quieter d.request)
    (hheld : d.Listening → d.request.receiving = true ∧
      (d.request.entry = .absent → d.request.waiter ≠ .empty))
    (htold : ∀ v, d.Tells (.ok v) → c.Tells (.ok v) ∨ c.request.waiter = .value (.ok v)) :
    d.Sane where
  held := hheld
  taken v he := by
    rw [hr]
    exact h.taken v (hq.entry _ he)
  sent v hw := by
    rw [hr]
    exact h.sent v (hq.waiter _ hw)
  told v ht := by
    rw [hr]
    rcases htold v ht with ht | hw
    · exact h.told v ht
    · exact h.sent v hw

/-- The call goes on without its receiver, or it goes on listening as before. -/
theorem Sane.goto {c : RequestCell} (h : c.Sane) {call : RequestCall}
    (hlisten : (c.goto call).Listening → c.Listening)
    (htold : ∀ v, (c.goto call).Tells (.ok v) → c.Tells (.ok v) ∨
      c.request.waiter = .value (.ok v)) : (c.goto call).Sane :=
  h.move rfl (.refl _) (fun hl => h.held (hlisten hl)) htold

theorem not_tells {c : RequestCell} {result : Result Json}
    (h : ∀ resolved, c.call ≠ .leaving result resolved) (h' : c.call ≠ .returned result) :
    ¬ c.Tells result := by
  rintro (⟨resolved, hc⟩ | hc)
  · exact h resolved hc
  · exact h' hc

theorem sane_afterSendFailure {c : RequestCell} (h : c.Sane) (error : Error) :
    (c.afterSendFailure error).Sane := by
  unfold afterSendFailure
  split_ifs
  · exact h.move rfl c.request.quieter_remove (fun hl => hl.elim)
      (fun v ht => absurd ht (not_tells (by simp) (by simp)))
  · exact h.move rfl c.request.quieter_remove (fun hl => hl.elim)
      (fun v ht => absurd ht (not_tells (by simp) (by simp)))

theorem sane_afterTimeout {c : RequestCell} (h : c.Sane) : c.afterTimeout.Sane := by
  unfold afterTimeout PendingRequest.timeout
  split_ifs
  · exact h.move rfl c.request.quieter_remove (fun hl => hl.elim)
      (fun v ht => absurd ht (not_tells (by simp) (by simp)))
  · exact h.move rfl c.request.quieter_remove (fun hl => hl.elim)
      (fun v ht => absurd ht (not_tells (by simp) (by simp)))

/-- A call that goes on listening. -/
theorem Sane.listen {c : RequestCell} (h : c.Sane) (hl : c.Listening) {call : RequestCall}
    (hcall : ∀ result : Result Json, (∀ resolved, call ≠ .leaving result resolved) ∧
      call ≠ .returned result) : (c.goto call).Sane :=
  h.goto (fun _ => hl)
    (fun v ht => absurd ht (not_tells (hcall (.ok v)).1 (hcall (.ok v)).2))

/-- A call that holds no receiver from here on. -/
theorem Sane.leave {c : RequestCell} (h : c.Sane) {call : RequestCall}
    (hl : ¬ (c.goto call).Listening) (htold : ∀ v, ¬ (c.goto call).Tells (.ok v)) :
    (c.goto call).Sane :=
  h.goto (fun h' => absurd h' hl) (fun v ht => absurd ht (htold v))

theorem listening_of {c : RequestCell} {call : RequestCall} (hc : c.call = call)
    (h : (c.goto call).Listening) : c.Listening := by
  unfold Listening goto at *
  rw [hc]
  exact h

/-- The call turns back. -/
theorem Sane.refuse {c : RequestCell} (h : c.Sane) (error : Error) : (c.refuse error).Sane :=
  h.leave (fun hf => hf) (fun v => not_tells (by simp) (by simp))

/-- The call goes on before it registers. -/
theorem Sane.check {c : RequestCell} (h : c.Sane) {call : RequestCall}
    (hcall : call = .checkingClosing ∨ call = .checkingDisconnected ∨ call = .readingFailure ∨
      call = .registering) : (c.goto call).Sane := by
  rcases hcall with rfl | rfl | rfl | rfl
  all_goals exact h.leave (fun hf => hf) (fun v => not_tells (by simp) (by simp))

theorem Sane.sendFailed {c : RequestCell} (h : c.Sane) (error : Error) :
    (c.goto (.sendFailed error)).Sane :=
  h.leave (fun hf => hf) (fun v => not_tells (by simp) (by simp))

theorem Sane.fails {c : RequestCell} (h : c.Sane) (error : Error) (resolved : Bool) :
    (c.goto (.leaving (.error error) resolved)).Sane :=
  h.leave (fun hf => hf) (fun v => not_tells (by simp) (by simp))

/-- The caller's marks are not what its sanity is about. -/
theorem Sane.marks {c : RequestCell} (h : c.Sane) (cancelled dispatched enqueued : Bool)
    (task : CancelTask) :
    ({ c with
      request := { c.request with cancelled, dispatched }
      enqueued
      cancelTask := task } : RequestCell).Sane :=
  ⟨h.held, h.taken, h.sent, h.told⟩

theorem Sane.proceed {c : RequestCell} (h : c.Sane) (env : ClientEnv) (i : Nat)
    (s : ClientShared) (event : SendEvent) : (c.proceed env i s event).2.Sane := by
  have hlisten : ∀ {call : RequestCall}, c.call = call → (c.goto call).Listening → c.Listening :=
    fun hc hl => listening_of hc hl
  cases hc : c.call with
  | idle => simp only [RequestCell.proceed, hc]; exact h
  | returned result => simp only [RequestCell.proceed, hc]; exact h
  | dropped => simp only [RequestCell.proceed, hc]; exact h
  | checkingDeadline =>
      simp only [RequestCell.proceed, hc]
      split_ifs
      · exact h.refuse _
      · exact h.check (by simp)
  | checkingClosing =>
      simp only [RequestCell.proceed, hc]
      split_ifs
      · exact h.refuse _
      · exact h.check (by simp)
  | checkingDisconnected =>
      simp only [RequestCell.proceed, hc]
      split_ifs
      · exact h.check (by simp)
      · exact h.check (by simp)
  | readingFailure => simp only [RequestCell.proceed, hc]; exact h.refuse _
  | registering =>
      simp only [RequestCell.proceed, hc]
      split_ifs
      · exact h.refuse _
      · have hquiet : c.request.Quieter c.request.register := {
          entry := fun _ he => by cases he
          waiter := fun _ hw => by cases hw }
        refine h.move rfl hquiet (fun _ => ⟨rfl, fun he => by cases he⟩) (fun v ht => ?_)
        exact absurd ht (not_tells (by simp) (by simp))
  | entering =>
      simp only [RequestCell.proceed, hc]
      split_ifs
      · exact h.sendFailed _
      · exact h.sendFailed _
      · exact h.sendFailed _
      · exact h.listen (hlisten hc trivial) (by simp)
  | reserving =>
      simp only [RequestCell.proceed, hc]
      split_ifs
      · exact h.sendFailed _
      · exact h.sendFailed _
      · exact h.listen (hlisten hc trivial) (by simp)
  | admitted =>
      simp only [RequestCell.proceed, hc]
      split_ifs
      · exact h.sendFailed _
      · exact h.listen (hlisten hc trivial) (by simp)
  | marking =>
      simp only [RequestCell.proceed, hc]
      have hgo : (c.goto .queueing).Sane := h.listen (hlisten hc trivial) (by simp)
      exact hgo.marks c.request.cancelled true c.enqueued c.cancelTask
  | queueing =>
      simp only [RequestCell.proceed, hc]
      have hgo : (c.goto .dispatched).Sane := h.listen (hlisten hc trivial) (by simp)
      exact hgo.marks c.request.cancelled c.request.dispatched true c.cancelTask
  | dispatched =>
      simp only [RequestCell.proceed, hc]
      split_ifs
      · exact h.sendFailed _
      · exact h.listen (hlisten hc trivial) (by simp)
  | acknowledging =>
      simp only [RequestCell.proceed, hc]
      split
      · exact h.listen (hlisten hc trivial) (by simp)
      · exact h.listen (hlisten hc trivial) (by simp)
  | terminating reason => simp only [RequestCell.proceed, hc]; exact h.sendFailed _
  | sendFailed error => simp only [RequestCell.proceed, hc]; exact sane_afterSendFailure h error
  | waiting =>
      simp only [RequestCell.proceed, hc]
      split_ifs
      · exact h.move rfl ⟨fun _ he => he, fun _ hw => hw⟩ (fun hl => hl.elim)
          (fun v ht => absurd ht (not_tells (by simp) (by simp)))
      · split
        · exact h
        · rename_i result hwaiter
          refine h.goto (fun hf => hf.elim) (fun v ht => .inr ?_)
          rcases ht with ⟨resolved, ht⟩ | ht
          · cases ht
            exact hwaiter
          · cases ht
        · exact h.fails _ _
  | timedOut => simp only [RequestCell.proceed, hc]; exact sane_afterTimeout h
  | disconnecting outcome =>
      simp only [RequestCell.proceed, hc]
      split
      · exact h.leave (fun hf => hf) (fun v => not_tells (by simp) (by simp))
      · exact h.fails _ _
  | cleaning outcome =>
      simp only [RequestCell.proceed, hc]
      split
      · exact h.fails _ _
      · exact h
  | leaving result resolved =>
      have hleft : ({ c with request := c.request.dropReceiver, call := .returned result } :
          RequestCell).Sane := by
        refine h.move rfl ⟨fun _ he => he, fun _ hw => hw⟩ (fun hf => hf.elim) (fun v ht => .inl ?_)
        rcases ht with ⟨resolved', ht⟩ | ht
        · cases ht
        · cases ht
          exact .inl ⟨resolved, hc⟩
      simp only [RequestCell.proceed, hc]
      split_ifs
      · exact hleft
      · exact hleft.marks true c.request.dispatched c.enqueued .spawned
  | unwinding =>
      simp only [RequestCell.proceed, hc]
      have hgo : (c.goto .dropped).Sane :=
        h.leave (fun hf => hf) (fun v => not_tells (by simp) (by simp))
      exact hgo.marks true c.request.dispatched c.enqueued .spawned

/-- A step of somebody else that changes only the request. -/
theorem Sane.request {c : RequestCell} (h : c.Sane) {request : PendingRequest}
    {responses : List (Result Json)} {task : CancelTask} {orphaned : Bool}
    (hr : ∀ response ∈ c.responses, response ∈ responses)
    (hheld : c.Listening → request.receiving = true ∧
      (request.entry = .absent → request.waiter ≠ .empty))
    (htaken : ∀ v, request.entry = .completing (.ok v) → .ok v ∈ responses)
    (hsent : ∀ v, request.waiter = .value (.ok v) → .ok v ∈ responses) :
    ({ c with request, responses, cancelTask := task, orphaned } : RequestCell).Sane where
  held := hheld
  taken := htaken
  sent := hsent
  told v ht := hr _ (h.told v ht)

theorem Sane.send {c : RequestCell} (h : c.Sane) {response : Result Json}
    (hcame : ∀ v, response = .ok v → .ok v ∈ c.responses) (orphaned : Bool) :
    ({ c with request := c.request.send response, orphaned } : RequestCell).Sane := by
  refine h.request (fun _ hr => hr) (fun hl => ?_) (fun v he => by cases he) (fun v hw => ?_)
  · have hreceiving := (h.held hl).1
    refine ⟨hreceiving, fun _ => ?_⟩
    simp only [PendingRequest.send, hreceiving, if_true]
    simp
  · simp only [PendingRequest.send] at hw
    split_ifs at hw
    · cases hw
      exact hcame v rfl
    · exact h.sent v hw

theorem Sane.respond {c : RequestCell} (h : c.Sane) (response : Result Json) :
    (c.respond response).Sane := by
  rcases c.respond_cases response with ⟨hentry, hs⟩ | hs
  · rw [hs]
    refine h.request (fun _ hr => List.mem_cons_of_mem _ hr) (fun hl => ?_) (fun v he => ?_)
      (fun v hw => List.mem_cons_of_mem _ (h.sent v hw))
    · exact ⟨(h.held hl).1, fun he => by cases he⟩
    · cases he
      exact List.mem_cons_self
  · rw [hs]; exact h

theorem Sane.handOver {c : RequestCell} (h : c.Sane) : c.handOver.Sane := by
  rcases c.handOver_cell_cases with ⟨response, hentry, hs | ⟨hs, -, -⟩⟩ | hs
  · rw [hs]
    exact h.send (fun v hv => h.taken v (by rw [hentry, hv])) c.orphaned
  · rw [hs]
    exact h.send (fun v hv => h.taken v (by rw [hentry, hv])) true
  · rw [hs]; exact h

theorem Sane.remove {c : RequestCell} (h : c.Sane) (task : CancelTask) :
    ({ c with request := c.request.remove, cancelTask := task } : RequestCell).Sane := by
  have hq := c.request.quieter_remove
  refine h.request (fun _ hr => hr) (fun hl => ?_) (fun v he => h.taken v (hq.entry _ he))
    (fun v hw => h.sent v (hq.waiter _ hw))
  have hheld := h.held hl
  rcases c.request.remove_cases with ⟨-, hr⟩ | ⟨-, hr⟩
  · rw [hr]
    exact ⟨hheld.1, fun _ => c.request.dropSender_waiter⟩
  · rw [hr]
    exact hheld

theorem Sane.disconnectOrphan {c : RequestCell} (h : c.Sane) (s : ClientShared) :
    (c.disconnectOrphan s).2.Sane := by
  unfold RequestCell.disconnectOrphan
  split_ifs
  · exact h.request (fun _ hr => hr) h.held h.taken h.sent
  · exact h

theorem Sane.runCancel {c : RequestCell} (h : c.Sane) (s : ClientShared) :
    (c.runCancel s).2.Sane := by
  unfold RequestCell.runCancel
  split
  · rcases cancel_cases c.request with ⟨hcancel, -⟩ | hcancel
    · rw [hcancel]
      exact h.remove .disconnecting
    · rw [hcancel]
      exact h.remove .done
  · exact h.request (fun _ hr => hr) h.held h.taken h.sent
  · exact h

theorem Sane.fail {c : RequestCell} (h : c.Sane) (error : Error) :
    ({ c with request := c.request.fail error } : RequestCell).Sane := by
  unfold PendingRequest.fail
  split
  · exact h.send (fun v hv => by cases hv) c.orphaned
  · exact h

theorem Sane.failOne {c : RequestCell} (h : c.Sane) (i : Nat) (s : ClientShared) :
    (c.failOne i s).2.Sane := by
  unfold RequestCell.failOne
  split
  · split_ifs
    · exact h.fail _
    · exact h
  · exact h

theorem Sane.takeForFailure {c : RequestCell} (h : c.Sane) :
    ({ c with request := c.request.takeForFailure } : RequestCell).Sane := by
  unfold PendingRequest.takeForFailure
  split_ifs
  · exact h.request (fun _ hr => hr) (fun hl => ⟨(h.held hl).1, fun he => by cases he⟩)
      (fun v he => by cases he) h.sent
  · exact h

theorem Sane.drop {c : RequestCell} (h : c.Sane) (i : Nat) (s : ClientShared) :
    (c.drop i s).2.Sane := by
  have hunwound : ({ c with request := c.request.dropReceiver, call := .unwinding } :
      RequestCell).Sane :=
    h.move rfl ⟨fun _ he => he, fun _ hw => hw⟩ (fun hf => hf.elim)
      (fun v ht => absurd ht (not_tells (by simp) (by simp)))
  cases hc : c.call with
  | reserving => simp only [RequestCell.drop, hc]; exact hunwound
  | acknowledging => simp only [RequestCell.drop, hc]; exact hunwound
  | terminating reason => simp only [RequestCell.drop, hc]; exact hunwound
  | waiting => simp only [RequestCell.drop, hc]; exact hunwound
  | cleaning outcome =>
      simp only [RequestCell.drop, hc]
      split
      · split_ifs
        · exact hunwound
        · exact h
      · exact h
  | _ => simp only [RequestCell.drop, hc]; exact h

end RequestCell

end Vergerail
