import Mathlib.Tactic.ByContra
import Vergerail.Approval.Respond

/-!
# Every reverse request gets one response

A request is answered by one of two parties: the handler, when the request is refused, or
the task of the approval object. The task is created only when nothing is refused, so at
most one of them ever passes a frame to the writer, and each of them does so once.

Which result the task sends is decided by its select, once. An explicit result reaches
the select only through the one command the responder can send, and only the delivery of
an explicit result is acknowledged; so an acknowledged caller knows whose result was
written.

The writer may refuse a frame before it is queued. Nothing is written then, and whoever
sent the frame takes the connection down.
-/

namespace Vergerail

open Lib

namespace Approval

variable {env : ApprovalEnv} {w : ApprovalWorld}

/-! ## What is to be answered -/

/-- The failure a request is refused with, if it is refused. -/
def refusal (env : ApprovalEnv) : Option Json :=
  match decode env.method env.params with
  | none =>
      some (wireFailure env.id (-32601) "Vergerail does not enable this app-server capability")
  | some (.error error) => some (wireFailure env.id (-32602) error.message)
  | some (.ok _) => none

/-- The response a request gets: its refusal, the explicit result that won, or the fallback. -/
def response (env : ApprovalEnv) (w : ApprovalWorld) : Json :=
  match decode env.method env.params with
  | none => wireFailure env.id (-32601) "Vergerail does not enable this app-server capability"
  | some (.error error) => wireFailure env.id (-32602) error.message
  | some (.ok decoded) => wireSuccess env.id (w.won.getD decoded.fallback)

/-- Both parties are through. -/
def Answered (w : ApprovalWorld) : Prop :=
  w.handler = .done ∧ (w.task = .absent ∨ w.task = .done)

/-- The one frame was passed to a send that is still under way. -/
def Sending (w : ApprovalWorld) (frame : Json) (call : SendCall) : Prop :=
  w.submitted = [frame] ∧ w.writer.queued = if call.isQueued then [frame] else []

/-- The one frame was passed to a send that is over: it is queued, or the connection is
going down. -/
def Settled (w : ApprovalWorld) (frame : Json) : Prop :=
  w.submitted = [frame] ∧
    (w.writer.queued = [frame] ∨ w.writer.queued = [] ∧ w.writer.shutdownStarted = true)

/-- What the handler has done so far. -/
def HandlerInv (env : ApprovalEnv) (w : ApprovalWorld) : Prop :=
  match w.handler with
  | .received => w.submitted = [] ∧ w.writer.queued = []
  | .replying frame _ _ call => refusal env = some frame ∧ Sending w frame call
  | .disconnecting _ => ∃ frame, refusal env = some frame ∧ w.submitted = [frame] ∧
      (w.writer.queued = [frame] ∨ w.writer.queued = [])
  | .done => ∀ frame, refusal env = some frame → Settled w frame

/-- What the task has done so far. -/
def TaskInv (env : ApprovalEnv) (w : ApprovalWorld) : Prop :=
  match w.task with
  | .absent => w.handler = .done → refusal env ≠ none
  | .selecting => w.submitted = [] ∧ w.writer.queued = [] ∧ w.won = none
  | .sending result explicit call => Sending w (wireSuccess env.id result) call ∧
      (explicit = true → w.won = some result) ∧
      (explicit = false → w.won = none ∧ result = w.fallback)
  | .killing _ explicit => Settled w (wireSuccess env.id (w.won.getD w.fallback)) ∧
      (explicit = true → w.won ≠ none)
  | .done => Settled w (wireSuccess env.id (w.won.getD w.fallback))

/-- The invariant of one request. -/
structure Inv (env : ApprovalEnv) (w : ApprovalWorld) : Prop where
  handler : HandlerInv env w
  task : TaskInv env w
  /-- The task exists only for a request that was decoded. -/
  born : w.task ≠ .absent → w.handler = .done ∧
    ∃ decoded, decode env.method env.params = some (.ok decoded) ∧ w.decoded = some decoded
  /-- Before there is a task there is nothing to decide. -/
  unborn : w.task = .absent →
    w.held = false ∧ w.commands = .empty ∧ w.acknowledgement = .empty ∧ w.caller = .idle ∧
      w.won = none ∧ w.decided = none
  /-- An object that is still held was not resolved. -/
  held : w.held = true → w.decided = none ∧ w.won = none ∧
    ∀ result, w.commands ≠ .full (.explicit result)
  /-- An explicit command comes from the caller. -/
  waiting : ∀ result, w.commands = .full (.explicit result) →
    w.decided = some result ∧ w.won = none
  /-- The result that won comes from the caller. -/
  won : ∀ result, w.won = some result → w.decided = some result
  /-- A delivery that is acknowledged is the delivery of the result that won. -/
  delivered : w.caller = .returned (.ok ()) ∨ w.acknowledgement = .full (.ok ()) →
    w.task = .done ∧ ∃ result, w.won = some result ∧
      w.writer.queued = [wireSuccess env.id result]

/-! ## Small steps -/

theorem refusal_eq_none {decoded : Decoded}
    (h : decode env.method env.params = some (.ok decoded)) : refusal env = none := by
  simp [refusal, h]

/-- A send that goes on keeps its one frame. -/
theorem Sending.step {frame : Json} {call : SendCall} (h : Sending w frame call)
    (event : SendEvent) :
    match w.writer.sendStep frame call event with
    | (writer, .pending next) =>
        Sending { w with writer } frame next
    | (writer, .finished (.ok _)) => writer = w.writer ∧ w.writer.queued = [frame]
    | (writer, .finished (.error _)) => writer = w.writer ∧
        (w.writer.queued = [frame] ∨ w.writer.queued = []) := by
  obtain ⟨hsubmitted, hqueued⟩ := h
  rcases w.writer.sendStep_cases frame call event with ⟨next, hstep, hsame, -⟩ |
      ⟨next, hstep, hnext, hcall, -⟩ | ⟨next, hstep, hnext, hcall, -, -⟩ | ⟨result, hstep, hok⟩
  · rw [hstep]
    exact ⟨hsubmitted, by rw [hsame]; exact hqueued⟩
  · rw [hstep]
    rw [hcall] at hqueued
    exact ⟨hsubmitted, by rw [hnext]; exact hqueued⟩
  · rw [hstep]
    rw [hcall] at hqueued
    refine ⟨hsubmitted, ?_⟩
    simp [hnext, Writer.queue, hqueued]
  · rw [hstep]
    cases result with
    | ok u =>
      rw [hok rfl] at hqueued
      exact ⟨rfl, hqueued⟩
    | error error =>
      refine ⟨rfl, ?_⟩
      cases hcall : call.isQueued with
      | true => exact .inl (by rw [hqueued, hcall]; rfl)
      | false => exact .inr (by rw [hqueued, hcall]; rfl)

theorem inv_init (env : ApprovalEnv) : Inv env (ApprovalWorld.init env) where
  handler := ⟨rfl, rfl⟩
  task := by intro h; cases h
  born := by intro h; exact absurd rfl h
  unborn := fun _ => ⟨rfl, rfl, rfl, rfl, rfl, rfl⟩
  held := by intro h; cases h
  waiting := by intro result h; cases h
  won := by intro result h; cases h
  delivered := by rintro (h | h) <;> cases h

/-! ## The handler -/

/-- A request that was not handled yet has no task. -/
theorem Inv.unborn_of_handler (h : Inv env w) (hpc : w.handler ≠ .done) : w.task = .absent := by
  by_contra htask
  exact hpc (h.born htask).1

/-- As long as there is no task, a step of the handler only has to account for itself. -/
theorem Inv.of_handler (h : Inv env w) (htask : w.task = .absent) {w' : ApprovalWorld}
    (hhandler : HandlerInv env w') (hnone : w'.handler = .done → refusal env ≠ none)
    (hsame : w'.task = w.task ∧ w'.held = w.held ∧ w'.commands = w.commands ∧
      w'.acknowledgement = w.acknowledgement ∧ w'.caller = w.caller ∧ w'.won = w.won ∧
      w'.decided = w.decided) : Inv env w' := by
  obtain ⟨htask', hheld, hcommands, hack, hcaller, hwon, hdecided⟩ := hsame
  have hunborn := h.unborn htask
  rw [htask] at htask'
  refine ⟨hhandler, ?_, ?_, ?_, ?_, ?_, ?_, ?_⟩
  · unfold TaskInv
    rw [htask']
    exact hnone
  · intro hborn
    exact absurd htask' hborn
  · intro _
    rw [hheld, hcommands, hack, hcaller, hwon, hdecided]
    exact hunborn
  · intro hh
    rw [hheld, hunborn.1] at hh
    cases hh
  · intro result hr
    rw [hcommands, hunborn.2.1] at hr
    cases hr
  · intro result hr
    rw [hwon, hunborn.2.2.2.2.1] at hr
    cases hr
  · rw [hack, hcaller, hunborn.2.2.1, hunborn.2.2.2.1]
    rintro (hr | hr) <;> cases hr

theorem inv_reply (h : Inv env w) (hpc : w.handler = .received) {frame : Json}
    (hframe : refusal env = some frame) (operation : String) (diagnostic : String × String) :
    Inv env (w.reply frame operation diagnostic) := by
  have htask := h.unborn_of_handler (by rw [hpc]; simp)
  have hempty := h.handler
  rw [HandlerInv, hpc] at hempty
  refine h.of_handler htask ⟨hframe, ?_, ?_⟩ (by intro hd; cases hd)
    ⟨rfl, rfl, rfl, rfl, rfl, rfl, rfl⟩
  · simp [ApprovalWorld.reply, hempty.1]
  · simp [ApprovalWorld.reply, hempty.2, SendCall.isQueued]

/-- Dropping an object that is held leaves the fallback to the select. -/
theorem inv_dropResponder (h : Inv env w) (hheld : w.held = true) : Inv env w.dropResponder := by
  obtain ⟨hdecided, hwon, hcommands⟩ := h.held hheld
  have htask : w.task ≠ .absent := by
    intro htask
    rw [(h.unborn htask).1] at hheld
    cases hheld
  have hnot : ∀ result, (w.commands.send .fallback).2 ≠ .full (.explicit result) := by
    intro result
    have hno := hcommands result
    cases hc : w.commands with
    | empty => simp [Oneshot.send]
    | _ => rw [hc] at hno; exact hno
  refine ⟨h.handler, h.task, h.born, fun hu => absurd hu htask, ?_, ?_, h.won, h.delivered⟩
  · intro hh
    cases hh
  · intro result hr
    exact absurd hr (hnot result)

theorem inv_build (h : Inv env w) (hpc : w.handler = .received) {decoded : Decoded}
    (hdecode : decode env.method env.params = some (.ok decoded)) :
    Inv env (w.build env decoded) := by
  have htask := h.unborn_of_handler (by rw [hpc]; simp)
  obtain ⟨-, hcommands, hack, hcaller, hwon, hdecided⟩ := h.unborn htask
  have hempty := h.handler
  rw [HandlerInv, hpc] at hempty
  have hbuilt : Inv env { w with
      handler := .done, decoded := some decoded, held := true, task := .selecting } := by
    refine ⟨?_, ⟨hempty.1, hempty.2, hwon⟩, fun _ => ⟨rfl, decoded, hdecode, rfl⟩,
      (fun hu => by cases hu), fun _ => ⟨hdecided, hwon, ?_⟩, ?_, ?_, ?_⟩
    · intro frame hframe
      rw [refusal_eq_none hdecode] at hframe
      cases hframe
    · intro result hr
      rw [hcommands] at hr
      cases hr
    · intro result hr
      rw [hcommands] at hr
      cases hr
    · intro result hr
      rw [hwon] at hr
      cases hr
    · rw [hack, hcaller]
      rintro (hr | hr) <;> cases hr
  unfold ApprovalWorld.build
  cases (env.params.get "threadId").bind Json.asStr with
  | some thread => exact hbuilt
  | none => exact inv_dropResponder hbuilt rfl

theorem inv_handle (h : Inv env w) (event : SendEvent) : Inv env (w.handle env event) := by
  unfold ApprovalWorld.handle
  cases hpc : w.handler with
  | received =>
    cases hdecode : decode env.method env.params with
    | none => exact inv_reply h hpc (by simp [refusal, hdecode]) _ _
    | some decoded =>
      cases decoded with
      | error error => exact inv_reply h hpc (by simp [refusal, hdecode]) _ _
      | ok decoded => exact inv_build h hpc hdecode
  | replying frame operation diagnostic call =>
    have htask := h.unborn_of_handler (by rw [hpc]; simp)
    have hsending := h.handler
    rw [HandlerInv, hpc] at hsending
    obtain ⟨hframe, hsending⟩ := hsending
    have hstep := hsending.step event
    have hsome : ∀ frame', refusal env = some frame' → frame' = frame := by
      intro frame' hf
      rw [hframe] at hf
      exact (Option.some.inj hf).symm
    rcases hs : w.writer.sendStep frame call event with ⟨writer, next | result⟩
    · rw [hs] at hstep
      simp only [hs]
      exact h.of_handler htask ⟨hframe, hstep⟩ (by intro hd; cases hd)
        ⟨rfl, rfl, rfl, rfl, rfl, rfl, rfl⟩
    · rw [hs] at hstep
      simp only [hs]
      cases result with
      | ok u =>
        obtain ⟨rfl, hqueued⟩ := hstep
        refine h.of_handler htask ?_ (fun _ => by rw [hframe]; simp)
          ⟨rfl, rfl, rfl, rfl, rfl, rfl, rfl⟩
        intro frame' hf
        obtain rfl := hsome frame' hf
        exact ⟨hsending.1, .inl hqueued⟩
      | error error =>
        obtain ⟨rfl, hqueued⟩ := hstep
        exact h.of_handler htask ⟨frame, hframe, hsending.1, hqueued⟩ (by intro hd; cases hd)
          ⟨rfl, rfl, rfl, rfl, rfl, rfl, rfl⟩
  | disconnecting error =>
    have htask := h.unborn_of_handler (by rw [hpc]; simp)
    have hsent := h.handler
    rw [HandlerInv, hpc] at hsent
    obtain ⟨frame, hframe, hsubmitted, hqueued⟩ := hsent
    refine h.of_handler htask ?_ (fun _ => by rw [hframe]; simp)
      ⟨rfl, rfl, rfl, rfl, rfl, rfl, rfl⟩
    intro frame' hf
    rw [hframe] at hf
    obtain rfl := Option.some.inj hf
    exact ⟨hsubmitted, hqueued.imp id (fun hq => ⟨hq, rfl⟩)⟩
  | done => exact h

/-! ## The holder and the caller -/

/-- A step that leaves the handler, the task and the writer alone. -/
theorem Inv.of_holder (h : Inv env w) {w' : ApprovalWorld} (htask : w.task ≠ .absent)
    (hsame : w'.writer = w.writer ∧ w'.handler = w.handler ∧ w'.task = w.task ∧
      w'.decoded = w.decoded ∧ w'.submitted = w.submitted ∧ w'.won = w.won)
    (hheld : w'.held = true → w'.decided = none ∧ w'.won = none ∧
      ∀ result, w'.commands ≠ .full (.explicit result))
    (hwaiting : ∀ result, w'.commands = .full (.explicit result) →
      w'.decided = some result ∧ w'.won = none)
    (hwon : ∀ result, w'.won = some result → w'.decided = some result)
    (hdelivered : w'.caller = .returned (.ok ()) ∨ w'.acknowledgement = .full (.ok ()) →
      w.caller = .returned (.ok ()) ∨ w.acknowledgement = .full (.ok ())) : Inv env w' := by
  obtain ⟨hwriter, hhandler, htask', hdecoded, hsubmitted, hwonsame⟩ := hsame
  refine ⟨?_, ?_, ?_, ?_, hheld, hwaiting, hwon, ?_⟩
  · have := h.handler
    unfold HandlerInv Sending Settled at this ⊢
    rw [hhandler, hsubmitted, hwriter]
    exact this
  · have := h.task
    unfold TaskInv Sending Settled ApprovalWorld.fallback at this ⊢
    rw [htask', hhandler, hsubmitted, hwriter, hwonsame, hdecoded]
    exact this
  · rw [htask', hhandler, hdecoded]
    exact h.born
  · intro hu
    rw [htask'] at hu
    exact absurd hu htask
  · intro hd
    rw [htask', hwonsame, hwriter]
    exact h.delivered (hdelivered hd)

theorem Inv.task_of_held (h : Inv env w) (hheld : w.held = true) : w.task ≠ .absent := by
  intro htask
  rw [(h.unborn htask).1] at hheld
  cases hheld

/-- The responder hands one command over, or learns that the task is gone. -/
theorem inv_respond (h : Inv env w) (hheld : w.held = true) (result : Json) :
    Inv env (w.respond result) := by
  obtain ⟨hdecided, hwon, hcommands⟩ := h.held hheld
  unfold ApprovalWorld.respond
  rcases hsend : w.commands.send (.explicit result) with ⟨alive, commands⟩
  cases alive with
  | true =>
    refine h.of_holder (h.task_of_held hheld) ⟨rfl, rfl, rfl, rfl, rfl, rfl⟩
      (fun hh => by cases hh) ?_ ?_ ?_
    · intro result' hr
      have hfull : commands = .full (.explicit result) := by
        cases hc : w.commands <;> simp [hc, Oneshot.send] at hsend
        exact hsend.symm
      rw [show commands = .full (.explicit result') from hr] at hfull
      cases hfull
      exact ⟨rfl, hwon⟩
    · intro result' hr
      rw [show w.won = some result' from hr] at hwon
      cases hwon
    · rintro (hr | hr)
      · cases hr
      · exact .inr hr
  | false =>
    have hsame : commands = w.commands := by
      cases hc : w.commands <;> simp [hc, Oneshot.send] at hsend <;> exact hsend.symm
    refine h.of_holder (h.task_of_held hheld) ⟨rfl, rfl, rfl, rfl, rfl, rfl⟩
      (fun hh => by cases hh) ?_ ?_ ?_
    · intro result' hr
      exact absurd (hsame ▸ hr) (hcommands result')
    · intro result' hr
      rw [show w.won = some result' from hr] at hwon
      cases hwon
    · rintro (hr | hr)
      · cases hr
      · exact .inr hr

theorem inv_decide (h : Inv env w) (decision : Decision) : Inv env (w.decide decision) := by
  unfold ApprovalWorld.decide
  by_cases hheld : w.held = true
  · rw [if_pos hheld]
    cases w.decoded.bind (·.resolve decision) with
    | none => exact h
    | some result =>
      cases result with
      | ok result => exact inv_respond h hheld result
      | error error =>
        have hd := inv_dropResponder h hheld
        refine hd.of_holder (h.task_of_held hheld) ⟨rfl, rfl, rfl, rfl, rfl, rfl⟩ hd.held
          hd.waiting hd.won ?_
        rintro (hr | hr)
        · cases hr
        · exact .inr hr
  · rw [if_neg hheld]
    exact h

theorem inv_dropCaller (h : Inv env w) : Inv env w.dropCaller := by
  unfold ApprovalWorld.dropCaller
  cases hcaller : w.caller with
  | waiting result =>
    have htask : w.task ≠ .absent := by
      intro htask
      rw [(h.unborn htask).2.2.2.1] at hcaller
      cases hcaller
    refine h.of_holder htask ⟨rfl, rfl, rfl, rfl, rfl, rfl⟩ h.held h.waiting h.won ?_
    rintro (hr | hr) <;> cases hr
  | idle => exact h
  | returned result => exact h
  | dropped => exact h

theorem inv_wake (h : Inv env w) : Inv env w.wake := by
  unfold ApprovalWorld.wake
  have htask : w.caller ≠ .idle → w.task ≠ .absent :=
    fun hc hu => hc (h.unborn hu).2.2.2.1
  split
  · rename_i hcaller hack
    refine h.of_holder (htask (by rw [hcaller]; simp)) ⟨rfl, rfl, rfl, rfl, rfl, rfl⟩ h.held
      h.waiting h.won ?_
    rintro (hr | hr)
    · injection hr with hr
      rw [hr] at hack
      exact .inr hack
    · cases hr
  · rename_i hcaller hack
    refine h.of_holder (htask (by rw [hcaller]; simp)) ⟨rfl, rfl, rfl, rfl, rfl, rfl⟩ h.held
      h.waiting h.won ?_
    rintro (hr | hr)
    · cases hr
    · exact .inr hr
  · exact h

/-! ## The task -/

/-- The select ends with this result: what it needs, and what it leaves. -/
theorem Inv.of_select (h : Inv env w) (hpc : w.task = .selecting) {w' : ApprovalWorld}
    {result : Json} {explicit : Bool}
    (hsame : w'.writer = w.writer ∧ w'.handler = w.handler ∧ w'.decoded = w.decoded ∧
      w'.submitted = w.submitted ∧ w'.held = w.held ∧ w'.decided = w.decided ∧
      w'.caller = w.caller)
    (hack : w'.acknowledgement = .full (.ok ()) → w.acknowledgement = .full (.ok ()))
    (hcommands : ∀ r, w'.commands ≠ .full (.explicit r))
    (hexplicit : explicit = true → w'.won = some result ∧ w.decided = some result)
    (hfallback : explicit = false → w'.won = none ∧ result = w.fallback)
    (hheld : w.held = true → explicit = false) :
    Inv env (w'.startSending env result explicit) := by
  obtain ⟨hwriter, hhandler, hdecoded, hsubmitted, hheldsame, hdecided, hcaller⟩ := hsame
  have hborn := h.born (by rw [hpc]; simp)
  have hempty := h.task
  rw [TaskInv, hpc] at hempty
  refine ⟨?_, ⟨⟨?_, ?_⟩, ?_, ?_⟩, ?_, ?_, ?_, ?_, ?_, ?_⟩
  · have hhand := h.handler
    rw [HandlerInv, hborn.1] at hhand
    unfold HandlerInv
    rw [show (w'.startSending env result explicit).handler = .done from hhandler.trans hborn.1]
    obtain ⟨decoded, hdecode, -⟩ := hborn.2
    intro frame hframe
    rw [refusal_eq_none hdecode] at hframe
    cases hframe
  · simp [ApprovalWorld.startSending, hsubmitted, hempty.1]
  · simp [ApprovalWorld.startSending, hwriter, hempty.2.1, SendCall.isQueued]
  · exact fun he => (hexplicit he).1
  · intro he
    obtain ⟨hwon, hresult⟩ := hfallback he
    refine ⟨hwon, ?_⟩
    rw [hresult]
    unfold ApprovalWorld.fallback ApprovalWorld.startSending
    rw [hdecoded]
  · intro _
    refine ⟨hhandler.trans hborn.1, ?_⟩
    obtain ⟨decoded, hdecode, hd⟩ := hborn.2
    exact ⟨decoded, hdecode, hdecoded.trans hd⟩
  · intro hu
    cases hu
  · intro hh
    have hh : w.held = true := hheldsame ▸ hh
    exact ⟨hdecided.trans (h.held hh).1, (hfallback (hheld hh)).1, hcommands⟩
  · intro r hr
    exact absurd hr (hcommands r)
  · intro r hr
    cases explicit with
    | true =>
      obtain ⟨hwon, hd⟩ := hexplicit rfl
      rw [show w'.won = some r from hr] at hwon
      rw [Option.some.inj hwon]
      exact hdecided.trans hd
    | false =>
      rw [show w'.won = some r from hr] at hfallback
      cases (hfallback rfl).1
  · intro hd
    have hold := h.delivered (hd.imp (fun hc => hcaller ▸ hc) hack)
    rw [hpc] at hold
    cases hold.1

theorem inv_takeCommand (h : Inv env w) : Inv env (w.takeCommand env) := by
  unfold ApprovalWorld.takeCommand
  split
  · rename_i result hpc hcommands
    obtain ⟨hdecided, -⟩ := h.waiting result hcommands
    refine h.of_select hpc ⟨rfl, rfl, rfl, rfl, rfl, rfl, rfl⟩ id (fun r hr => by cases hr)
      (fun _ => ⟨rfl, hdecided⟩) (fun he => by cases he) ?_
    intro hh
    rw [(h.held hh).1] at hdecided
    cases hdecided
  · rename_i hpc hcommands
    have hwon := h.task
    rw [TaskInv, hpc] at hwon
    exact h.of_select hpc ⟨rfl, rfl, rfl, rfl, rfl, rfl, rfl⟩ id (fun r hr => by cases hr)
      (fun he => by cases he) (fun _ => ⟨hwon.2.2, rfl⟩) (fun _ => rfl)
  · rename_i hpc hcommands
    have hwon := h.task
    rw [TaskInv, hpc] at hwon
    exact h.of_select hpc ⟨rfl, rfl, rfl, rfl, rfl, rfl, rfl⟩ id
      (fun r hr => by rw [hcommands] at hr; cases hr) (fun he => by cases he)
      (fun _ => ⟨hwon.2.2, rfl⟩) (fun _ => rfl)
  · exact h

/-- Dropping the receiver leaves no command, and makes no acknowledgement. -/
theorem dropReceiver_cases (w : ApprovalWorld) :
    ∃ acknowledgement, w.dropReceiver =
        { w with commands := .receiverDropped, acknowledgement } ∧
      (acknowledgement = .full (.ok ()) → w.acknowledgement = .full (.ok ())) := by
  unfold ApprovalWorld.dropReceiver
  split
  · refine ⟨_, rfl, fun ha => ?_⟩
    cases hack : w.acknowledgement with
    | full delivery => simpa [hack] using ha
    | _ => simp [hack] at ha
  · exact ⟨w.acknowledgement, rfl, id⟩

theorem inv_timeOut (h : Inv env w) : Inv env (w.timeOut env) := by
  unfold ApprovalWorld.timeOut
  cases hpc : w.task with
  | selecting =>
    have hwon := h.task
    rw [TaskInv, hpc] at hwon
    obtain ⟨acknowledgement, hdrop, hack⟩ := dropReceiver_cases w
    simp only [hdrop]
    exact h.of_select hpc ⟨rfl, rfl, rfl, rfl, rfl, rfl, rfl⟩ hack (fun r hr => by cases hr)
      (fun he => by cases he) (fun _ => ⟨hwon.2.2, rfl⟩) (fun _ => rfl)
  | absent => exact h
  | sending result explicit call => exact h
  | killing delivery explicit => exact h
  | done => exact h

/-- A step of the task after its select: only the writer, the task and the
acknowledgement change. -/
theorem Inv.of_task (h : Inv env w) (hpc : w.task ≠ .absent) {w' : ApprovalWorld}
    (htask' : w'.task ≠ .absent) (htask : TaskInv env w')
    (hsame : w'.handler = w.handler ∧ w'.decoded = w.decoded ∧ w'.held = w.held ∧
      w'.commands = w.commands ∧ w'.decided = w.decided ∧ w'.won = w.won)
    (hdelivered : w'.caller = .returned (.ok ()) ∨ w'.acknowledgement = .full (.ok ()) →
      w'.task = .done ∧ ∃ result, w'.won = some result ∧
        w'.writer.queued = [wireSuccess env.id result]) : Inv env w' := by
  obtain ⟨hhandler, hdecoded, hheld, hcommands, hdecided, hwon⟩ := hsame
  have hborn := h.born hpc
  refine ⟨?_, htask, ?_, fun hu => absurd hu htask', ?_, ?_, ?_, hdelivered⟩
  · unfold HandlerInv
    rw [hhandler, hborn.1]
    obtain ⟨decoded, hdecode, -⟩ := hborn.2
    intro frame hframe
    rw [refusal_eq_none hdecode] at hframe
    cases hframe
  · intro _
    rw [hhandler, hdecoded]
    exact hborn
  · rw [hheld, hdecided, hwon, hcommands]
    exact h.held
  · rw [hcommands, hdecided, hwon]
    exact h.waiting
  · rw [hdecided, hwon]
    exact h.won

/-- The frame the task sends is the response. -/
theorem wireSuccess_of_sending (h : Inv env w) {result : Json} {explicit : Bool} {call : SendCall}
    (hpc : w.task = .sending result explicit call) :
    result = w.won.getD w.fallback := by
  have htask := h.task
  rw [TaskInv, hpc] at htask
  cases explicit with
  | true => rw [htask.2.1 rfl, Option.getD_some]
  | false =>
    obtain ⟨hwon, hresult⟩ := htask.2.2 rfl
    rw [hwon, Option.getD_none]
    exact hresult

theorem inv_deliver (h : Inv env w) (event : SendEvent) : Inv env (w.deliver env event) := by
  unfold ApprovalWorld.deliver
  have hnot : w.task ≠ .done →
      ¬(w.caller = .returned (.ok ()) ∨ w.acknowledgement = .full (.ok ())) :=
    fun hpc hd => hpc (h.delivered hd).1
  cases hpc : w.task with
  | sending result explicit call =>
    have hresult := wireSuccess_of_sending h hpc
    have hquiet := hnot (by rw [hpc]; simp)
    have htask := h.task
    rw [TaskInv, hpc] at htask
    obtain ⟨hsending, hexplicit, hfallback⟩ := htask
    have hstep := hsending.step event
    rcases hs : w.writer.sendStep (wireSuccess env.id result) call event with ⟨writer, next | ended⟩
    · rw [hs] at hstep
      simp only [hs]
      exact h.of_task (by rw [hpc]; simp) (by simp) ⟨hstep, hexplicit, hfallback⟩
        ⟨rfl, rfl, rfl, rfl, rfl, rfl⟩ (fun hd => absurd hd hquiet)
    · rw [hs] at hstep
      simp only [hs]
      cases ended with
      | ok u =>
        obtain ⟨rfl, hqueued⟩ := hstep
        have hsettled : Settled w (wireSuccess env.id (w.won.getD w.fallback)) := by
          rw [← hresult]
          exact ⟨hsending.1, .inl hqueued⟩
        cases explicit with
        | true =>
          show Inv env { w with
            task := .done, acknowledgement := (w.acknowledgement.send (.ok ())).2 }
          refine h.of_task (by rw [hpc]; simp) (by simp) hsettled ⟨rfl, rfl, rfl, rfl, rfl, rfl⟩ ?_
          intro _
          exact ⟨rfl, result, hexplicit rfl, hqueued⟩
        | false =>
          show Inv env { w with task := .done }
          exact h.of_task (by rw [hpc]; simp) (by simp) hsettled ⟨rfl, rfl, rfl, rfl, rfl, rfl⟩
            (fun hd => absurd hd hquiet)
      | error error =>
        obtain ⟨rfl, hqueued⟩ := hstep
        refine h.of_task (by rw [hpc]; simp) (by simp) ⟨?_, ?_⟩ ⟨rfl, rfl, rfl, rfl, rfl, rfl⟩
          (fun hd => absurd hd hquiet)
        · show Settled _ (wireSuccess env.id (w.won.getD w.fallback))
          rw [← hresult]
          exact ⟨hsending.1, hqueued.imp id (fun hq => ⟨hq, rfl⟩)⟩
        · intro he
          rw [show _ = some result from hexplicit he]
          simp
  | killing delivery explicit =>
    have hquiet := hnot (by rw [hpc]; simp)
    have htask := h.task
    rw [TaskInv, hpc] at htask
    cases explicit with
    | true =>
      show Inv env { w with
        task := .done, acknowledgement := (w.acknowledgement.send (.error delivery)).2 }
      refine h.of_task (by rw [hpc]; simp) (by simp) htask.1 ⟨rfl, rfl, rfl, rfl, rfl, rfl⟩ ?_
      rintro (hd | hd)
      · exact absurd (.inl hd) hquiet
      · refine absurd (.inr ?_) hquiet
        cases hack : w.acknowledgement with
        | empty => simp [hack, Oneshot.send] at hd
        | full d => simpa [hack, Oneshot.send] using hd
        | senderDropped => simp [hack, Oneshot.send] at hd
        | taken => simp [hack, Oneshot.send] at hd
        | receiverDropped => simp [hack, Oneshot.send] at hd
    | false =>
      show Inv env { w with task := .done }
      exact h.of_task (by rw [hpc]; simp) (by simp) htask.1 ⟨rfl, rfl, rfl, rfl, rfl, rfl⟩
        (fun hd => absurd hd hquiet)
  | absent => exact h
  | selecting => exact h
  | done => exact h

/-- A shutdown only raises the flag. -/
theorem inv_shutdown (h : Inv env w) :
    Inv env { w with writer := w.writer.startShutdown } := by
  have hsettled : ∀ frame, Settled w frame →
      Settled { w with writer := w.writer.startShutdown } frame :=
    fun frame hs => ⟨hs.1, hs.2.imp id (fun hq => ⟨hq.1, rfl⟩)⟩
  refine ⟨?_, ?_, h.born, h.unborn, h.held, h.waiting, h.won, h.delivered⟩
  · have hh := h.handler
    unfold HandlerInv at hh ⊢
    cases hpc : w.handler with
    | received => rw [hpc] at hh; exact hh
    | replying frame operation diagnostic call => rw [hpc] at hh; exact hh
    | disconnecting error => rw [hpc] at hh; exact hh
    | done =>
      rw [hpc] at hh
      exact fun frame hf => hsettled frame (hh frame hf)
  · have ht := h.task
    unfold TaskInv at ht ⊢
    cases hpc : w.task with
    | absent => rw [hpc] at ht; exact ht
    | selecting => rw [hpc] at ht; exact ht
    | sending result explicit call => rw [hpc] at ht; exact ht
    | killing delivery explicit =>
      rw [hpc] at ht
      exact ⟨hsettled _ ht.1, ht.2⟩
    | done =>
      rw [hpc] at ht
      exact hsettled _ ht

/-- **Every step keeps the invariant.** -/
theorem inv_step (h : Inv env w) (label : ApprovalLabel) : Inv env (w.act env label) := by
  cases label with
  | handle event => exact inv_handle h event
  | decide decision => exact inv_decide h decision
  | dropObject =>
    show Inv env (if w.held then w.dropResponder else w)
    by_cases hheld : w.held = true
    · rw [if_pos hheld]
      exact inv_dropResponder h hheld
    · rw [if_neg hheld]
      exact h
  | dropCaller => exact inv_dropCaller h
  | takeCommand => exact inv_takeCommand h
  | timeOut => exact inv_timeOut h
  | deliver event => exact inv_deliver h event
  | wake => exact inv_wake h
  | shutdown => exact inv_shutdown h

theorem inv_reachable (hr : (approvalMachine env).Reachable Machine.Free w) : Inv env w :=
  hr.invariant (P := Inv env) (inv_init env) (fun _ label _ h _ => inv_step h label)

/-! ## Progress -/

/-- How much is left to do. -/
def remaining (w : ApprovalWorld) : Nat :=
  match w.handler with
  | .received => 40
  | .replying _ _ _ call => 20 + call.rank
  | .disconnecting _ => 20
  | .done =>
    match w.task with
    | .absent => 0
    | .selecting => 10
    | .sending _ _ call => 2 + call.rank
    | .killing _ _ => 1
    | .done => 0

theorem remaining_congr {w' : ApprovalWorld} (hhandler : w'.handler = w.handler)
    (htask : w'.task = w.task) : remaining w' = remaining w := by
  unfold remaining
  rw [hhandler, htask]

/-- The task is at most selecting. -/
theorem remaining_le_of_done (h : w.handler = .done) : remaining w ≤ 10 := by
  unfold remaining
  rw [h]
  cases w.task with
  | sending result explicit call =>
    have := call.rank_le
    simp only
    omega
  | _ => simp

theorem remaining_handle (w : ApprovalWorld) (event : SendEvent) (h : w.handler ≠ .done) :
    remaining (w.handle env event) < remaining w := by
  unfold ApprovalWorld.handle
  cases hpc : w.handler with
  | received =>
    have hold : remaining w = 40 := by unfold remaining; rw [hpc]
    have hreply : ∀ frame operation diagnostic,
        remaining (w.reply frame operation diagnostic) < 40 := by
      intro frame operation diagnostic
      show 20 + SendCall.entering.rank < 40
      decide
    have hbuild : ∀ decoded, remaining (w.build env decoded) < 40 := by
      intro decoded
      have hdone : (w.build env decoded).handler = .done := by
        unfold ApprovalWorld.build
        cases (env.params.get "threadId").bind Json.asStr <;> rfl
      have := remaining_le_of_done hdone
      omega
    rw [hold]
    cases decode env.method env.params with
    | none => exact hreply _ _ _
    | some decoded =>
      cases decoded with
      | error error => exact hreply _ _ _
      | ok decoded => exact hbuild decoded
  | replying frame operation diagnostic call =>
    have hold : remaining w = 20 + call.rank := by unfold remaining; rw [hpc]
    have hpos := call.rank_pos
    rw [hold]
    rcases w.writer.sendStep_cases frame call event with ⟨next, hs, -, hlt⟩ |
        ⟨next, hs, -, -, hlt⟩ | ⟨next, hs, -, -, hlt, -⟩ | ⟨result, hs, -⟩
    · simp only [hs, remaining]
      omega
    · simp only [hs, remaining]
      omega
    · simp only [hs, remaining]
      omega
    · cases result with
      | ok u =>
        have := remaining_le_of_done (w := { w with
          writer := w.writer, handler := .done, diagnostics := w.diagnostics ++ [diagnostic] }) rfl
        simp only [hs]
        omega
      | error error =>
        simp only [hs, remaining]
        omega
  | disconnecting error =>
    have hold : remaining w = 20 := by unfold remaining; rw [hpc]
    have := remaining_le_of_done (w := { w with
      writer := w.writer.startShutdown, handler := .done }) rfl
    rw [hold]
    simp only
    omega
  | done => exact absurd hpc h

theorem remaining_select (hpc : w.task = .selecting) {w' : ApprovalWorld} {result : Json}
    {explicit : Bool} (hhandler : w'.handler = w.handler) (hdone : w.handler = .done) :
    remaining (w'.startSending env result explicit) < remaining w := by
  unfold remaining ApprovalWorld.startSending
  rw [hhandler, hdone, hpc]
  show 2 + SendCall.entering.rank < 10
  decide

theorem remaining_takeCommand (h : Inv env w) :
    remaining (w.takeCommand env) ≤ remaining w := by
  unfold ApprovalWorld.takeCommand
  split
  · rename_i hpc _
    exact Nat.le_of_lt (remaining_select hpc rfl (h.born (by rw [hpc]; simp)).1)
  · rename_i hpc _
    exact Nat.le_of_lt (remaining_select hpc rfl (h.born (by rw [hpc]; simp)).1)
  · rename_i hpc _
    exact Nat.le_of_lt (remaining_select hpc rfl (h.born (by rw [hpc]; simp)).1)
  · exact Nat.le_refl _

theorem remaining_timeOut (h : Inv env w) (hpc : w.task = .selecting) :
    remaining (w.timeOut env) < remaining w := by
  obtain ⟨acknowledgement, hdrop, -⟩ := dropReceiver_cases w
  unfold ApprovalWorld.timeOut
  simp only [hpc, hdrop]
  exact remaining_select hpc rfl (h.born (by rw [hpc]; simp)).1

theorem remaining_acknowledge {explicit : Bool} {delivery : Result Unit}
    (h : w.handler = .done) : remaining (w.acknowledge explicit delivery) = 0 := by
  unfold remaining ApprovalWorld.acknowledge
  cases explicit <;> simp [h]

theorem remaining_deliver (h : Inv env w) (event : SendEvent) (hnot : w.task ≠ .absent)
    (hselect : w.task ≠ .selecting) (hdone : w.task ≠ .done) :
    remaining (w.deliver env event) < remaining w := by
  have hhandler := (h.born hnot).1
  unfold ApprovalWorld.deliver
  cases hpc : w.task with
  | sending result explicit call =>
    have hold : remaining w = 2 + call.rank := by unfold remaining; rw [hhandler, hpc]
    rw [hold]
    rcases w.writer.sendStep_cases (wireSuccess env.id result) call event with
      ⟨next, hs, -, hlt⟩ | ⟨next, hs, -, -, hlt⟩ | ⟨next, hs, -, -, hlt, -⟩ | ⟨ended, hs, -⟩
    · simp only [hs, remaining, hhandler]
      omega
    · simp only [hs, remaining, hhandler]
      omega
    · simp only [hs, remaining, hhandler]
      omega
    · cases ended with
      | ok u =>
        simp only [hs]
        rw [remaining_acknowledge (by exact hhandler)]
        omega
      | error error =>
        simp only [hs, remaining, hhandler]
        omega
  | killing delivery explicit =>
    have hold : remaining w = 1 := by unfold remaining; rw [hhandler, hpc]
    rw [hold]
    simp only [remaining_acknowledge hhandler]
    omega
  | absent => exact absurd hpc hnot
  | selecting => exact absurd hpc hselect
  | done => exact absurd hpc hdone

/-- The steps that leave the handler and the task alone. -/
theorem act_idle (env : ApprovalEnv) (w : ApprovalWorld) (label : ApprovalLabel)
    (hhandle : ∀ event, label ≠ .handle event) (htake : label ≠ .takeCommand)
    (htime : label ≠ .timeOut) (hdeliver : ∀ event, label ≠ .deliver event) :
    (w.act env label).handler = w.handler ∧ (w.act env label).task = w.task := by
  cases label with
  | handle event => exact absurd rfl (hhandle event)
  | takeCommand => exact absurd rfl htake
  | timeOut => exact absurd rfl htime
  | deliver event => exact absurd rfl (hdeliver event)
  | decide decision =>
    show (w.decide decision).handler = w.handler ∧ (w.decide decision).task = w.task
    unfold ApprovalWorld.decide
    split
    · split
      · exact ⟨rfl, rfl⟩
      · unfold ApprovalWorld.respond
        split <;> exact ⟨rfl, rfl⟩
      · exact ⟨rfl, rfl⟩
    · exact ⟨rfl, rfl⟩
  | dropObject =>
    show (if w.held then w.dropResponder else w).handler = w.handler ∧
      (if w.held then w.dropResponder else w).task = w.task
    split <;> exact ⟨rfl, rfl⟩
  | dropCaller =>
    show w.dropCaller.handler = w.handler ∧ w.dropCaller.task = w.task
    unfold ApprovalWorld.dropCaller
    split <;> exact ⟨rfl, rfl⟩
  | wake =>
    show w.wake.handler = w.handler ∧ w.wake.task = w.task
    unfold ApprovalWorld.wake
    split <;> exact ⟨rfl, rfl⟩
  | shutdown => exact ⟨rfl, rfl⟩

/-- No step adds work. -/
theorem remaining_act_le (h : Inv env w) (label : ApprovalLabel) :
    remaining (w.act env label) ≤ remaining w := by
  cases label with
  | handle event =>
    by_cases hpc : w.handler = .done
    · show remaining (w.handle env event) ≤ remaining w
      simp [ApprovalWorld.handle, hpc]
    · exact Nat.le_of_lt (remaining_handle w event hpc)
  | takeCommand => exact remaining_takeCommand h
  | timeOut =>
    by_cases hpc : w.task = .selecting
    · exact Nat.le_of_lt (remaining_timeOut h hpc)
    · have hsame : w.timeOut env = w := by
        unfold ApprovalWorld.timeOut
        split
        · rename_i hselecting
          exact absurd hselecting hpc
        · rfl
      exact Nat.le_of_eq (congrArg remaining hsame)
  | deliver event =>
    by_cases hpc : w.task ≠ .absent ∧ w.task ≠ .selecting ∧ w.task ≠ .done
    · exact Nat.le_of_lt (remaining_deliver h event hpc.1 hpc.2.1 hpc.2.2)
    · have hsame : w.deliver env event = w := by
        unfold ApprovalWorld.deliver
        split
        · rename_i htask
          exact absurd ⟨by rw [htask]; simp, by rw [htask]; simp, by rw [htask]; simp⟩ hpc
        · rename_i htask
          exact absurd ⟨by rw [htask]; simp, by rw [htask]; simp, by rw [htask]; simp⟩ hpc
        · rfl
      exact Nat.le_of_eq (congrArg remaining hsame)
  | decide decision =>
    have := act_idle env w (.decide decision) (by simp) (by simp) (by simp)
      (by simp)
    exact Nat.le_of_eq (remaining_congr this.1 this.2)
  | dropObject =>
    have := act_idle env w .dropObject (by simp) (by simp) (by simp) (by simp)
    exact Nat.le_of_eq (remaining_congr this.1 this.2)
  | dropCaller =>
    have := act_idle env w .dropCaller (by simp) (by simp) (by simp) (by simp)
    exact Nat.le_of_eq (remaining_congr this.1 this.2)
  | wake =>
    have := act_idle env w .wake (by simp) (by simp) (by simp) (by simp)
    exact Nat.le_of_eq (remaining_congr this.1 this.2)
  | shutdown => exact Nat.le_refl _

/-! ## Whole runs -/

/-- Everybody who has something to do keeps being scheduled, and the timeout ends. -/
structure Fair (labels : Nat → ApprovalLabel) : Prop where
  handler : Machine.Recurs labels (fun label => ∃ event, label = .handle event)
  timer : Machine.Recurs labels (fun label => label = .timeOut)
  task : Machine.Recurs labels (fun label => ∃ event, label = .deliver event)

/-- The label that helps when this much is left to do. -/
def Helps (left : Nat) (label : ApprovalLabel) : Prop :=
  if 20 ≤ left then ∃ event, label = .handle event
  else if left = 10 then label = .timeOut
  else ∃ event, label = .deliver event

theorem Fair.helps {labels : Nat → ApprovalLabel} (h : Fair labels) (left : Nat) :
    Machine.Recurs labels (Helps left) := by
  unfold Helps
  by_cases h20 : 20 ≤ left
  · simpa only [if_pos h20] using h.handler
  · by_cases h10 : left = 10
    · simpa only [if_neg h20, if_pos h10] using h.timer
    · simpa only [if_neg h20, if_neg h10] using h.task

/-- The helpful label makes progress. -/
theorem remaining_act_lt (h : Inv env w) (hpos : 0 < remaining w) {label : ApprovalLabel}
    (hlabel : Helps (remaining w) label) : remaining (w.act env label) < remaining w := by
  by_cases hdone : w.handler = .done
  · have hle := remaining_le_of_done hdone
    unfold Helps at hlabel
    rw [if_neg (by omega)] at hlabel
    have hvalue : remaining w = match w.task with
        | .absent => 0
        | .selecting => 10
        | .sending _ _ call => 2 + call.rank
        | .killing _ _ => 1
        | .done => 0 := by
      unfold remaining
      rw [hdone]
    cases hpc : w.task with
    | absent => rw [hpc] at hvalue; simp only at hvalue; omega
    | done => rw [hpc] at hvalue; simp only at hvalue; omega
    | selecting =>
      rw [hpc] at hvalue
      rw [if_pos hvalue] at hlabel
      subst hlabel
      exact remaining_timeOut h hpc
    | sending result explicit call =>
      rw [hpc] at hvalue
      have hcall := call.rank_le
      simp only at hvalue
      rw [if_neg (by omega)] at hlabel
      obtain ⟨event, rfl⟩ := hlabel
      exact remaining_deliver h event (by rw [hpc]; simp) (by rw [hpc]; simp) (by rw [hpc]; simp)
    | killing delivery explicit =>
      rw [hpc] at hvalue
      simp only at hvalue
      rw [if_neg (by omega)] at hlabel
      obtain ⟨event, rfl⟩ := hlabel
      exact remaining_deliver h event (by rw [hpc]; simp) (by rw [hpc]; simp) (by rw [hpc]; simp)
  · have hge : 20 ≤ remaining w := by
      unfold remaining
      cases hpc : w.handler with
      | done => exact absurd hpc hdone
      | _ => simp
    unfold Helps at hlabel
    rw [if_pos hge] at hlabel
    obtain ⟨event, rfl⟩ := hlabel
    exact remaining_handle w event hdone

/-- What holds of the response in every state. -/
structure OneResponse (env : ApprovalEnv) (w : ApprovalWorld) : Prop where
  /-- At most one response is passed to the writer's send, and nothing else is queued. -/
  atMostOne : w.submitted.length ≤ 1 ∧ (w.writer.queued = [] ∨ w.writer.queued = w.submitted)
  /-- Once both parties are through it is the response of the request. It is queued, or
  the send refused it and the connection is taken down. -/
  answered : Answered w → w.submitted = [response env w] ∧
    (w.writer.queued = [response env w] ∨
      w.writer.queued = [] ∧ w.writer.shutdownStarted = true)
  /-- The result that won the select is the one the caller handed over. -/
  own : ∀ result, w.won = some result → w.decided = some result
  /-- `respond` answers `Ok` only for its own result, which is queued. -/
  acknowledged : w.caller = .returned (.ok ()) → ∃ result, w.decided = some result ∧
    w.won = some result ∧ w.writer.queued = [wireSuccess env.id result]

theorem Inv.oneResponse (h : Inv env w) : OneResponse env w := by
  have hsettled : ∀ {frame}, Settled w frame →
      w.submitted.length ≤ 1 ∧ (w.writer.queued = [] ∨ w.writer.queued = w.submitted) := by
    rintro frame ⟨hsubmitted, hqueued⟩
    rw [hsubmitted]
    exact ⟨Nat.le_refl 1, hqueued.elim .inr (fun hq => .inl hq.1)⟩
  have hsending : ∀ {frame call}, Sending w frame call →
      w.submitted.length ≤ 1 ∧ (w.writer.queued = [] ∨ w.writer.queued = w.submitted) := by
    rintro frame call ⟨hsubmitted, hqueued⟩
    rw [hsubmitted, hqueued]
    refine ⟨Nat.le_refl 1, ?_⟩
    cases call.isQueued with
    | true => exact .inr rfl
    | false => exact .inl rfl
  refine ⟨?_, ?_, h.won, ?_⟩
  · have hhandler := h.handler
    have htask := h.task
    cases hpc : w.handler with
    | received =>
      rw [HandlerInv, hpc] at hhandler
      rw [hhandler.1, hhandler.2]
      exact ⟨Nat.zero_le 1, .inl rfl⟩
    | replying frame operation diagnostic call =>
      rw [HandlerInv, hpc] at hhandler
      exact hsending hhandler.2
    | disconnecting error =>
      rw [HandlerInv, hpc] at hhandler
      obtain ⟨frame, -, hsubmitted, hqueued⟩ := hhandler
      rw [hsubmitted]
      exact ⟨Nat.le_refl 1, hqueued.elim .inr .inl⟩
    | done =>
      rw [HandlerInv, hpc] at hhandler
      cases htaskpc : w.task with
      | absent =>
        rw [TaskInv, htaskpc] at htask
        obtain ⟨frame, hframe⟩ := Option.ne_none_iff_exists'.mp (htask hpc)
        exact hsettled (hhandler frame hframe)
      | selecting =>
        rw [TaskInv, htaskpc] at htask
        rw [htask.1, htask.2.1]
        exact ⟨Nat.zero_le 1, .inl rfl⟩
      | sending result explicit call =>
        rw [TaskInv, htaskpc] at htask
        exact hsending htask.1
      | killing delivery explicit =>
        rw [TaskInv, htaskpc] at htask
        exact hsettled htask.1
      | done =>
        rw [TaskInv, htaskpc] at htask
        exact hsettled htask
  · rintro ⟨hdone, habsent | hthrough⟩
    · have hhandler := h.handler
      have htask := h.task
      rw [HandlerInv, hdone] at hhandler
      rw [TaskInv, habsent] at htask
      obtain ⟨frame, hframe⟩ := Option.ne_none_iff_exists'.mp (htask hdone)
      have hresponse : response env w = frame := by
        unfold refusal at hframe
        unfold response
        cases hdecode : decode env.method env.params with
        | none =>
          rw [hdecode] at hframe
          exact Option.some.inj hframe
        | some decoded =>
          rw [hdecode] at hframe
          cases decoded with
          | error error => exact Option.some.inj hframe
          | ok decoded => cases hframe
      rw [hresponse]
      exact hhandler frame hframe
    · have htask := h.task
      rw [TaskInv, hthrough] at htask
      obtain ⟨-, decoded, hdecode, hdecoded⟩ := h.born (by rw [hthrough]; simp)
      have hresponse : response env w = wireSuccess env.id (w.won.getD w.fallback) := by
        simp [response, hdecode, ApprovalWorld.fallback, hdecoded]
      rw [hresponse]
      exact htask
  · intro hcaller
    obtain ⟨-, result, hwon, hqueued⟩ := h.delivered (.inl hcaller)
    exact ⟨result, h.won result hwon, hwon, hqueued⟩

/-- **Every reverse request gets one response**: in every state of every run there is at
most one, and a fair run comes to a state in which both parties are through. -/
theorem every_request_one_response (env : ApprovalEnv) (labels : Nat → ApprovalLabel) :
    (∀ n, OneResponse env ((approvalMachine env).trace labels n)) ∧
      (Fair labels → ∃ n, ∀ k, n ≤ k → Answered ((approvalMachine env).trace labels k)) := by
  refine ⟨fun n => (inv_reachable (Machine.trace_reachable labels n)).oneResponse, fun hfair => ?_⟩
  obtain ⟨n, -, -, hzero⟩ := Machine.trace_rank_zero (m := approvalMachine env)
    (fun _ => True) remaining (fun left _ => hfair.helps left) (fun _ _ _ _ => trivial)
    (fun _ label hw _ => remaining_act_le (inv_reachable hw) label)
    (fun _ _ hw _ hpos hlabel => remaining_act_lt (inv_reachable hw) hpos hlabel)
    (n := 0) trivial
  have hstays : ∀ k, n ≤ k → remaining ((approvalMachine env).trace labels k) = 0 := by
    refine Machine.trace_preserves (fun w => remaining w = 0) ?_ hzero
    intro w label hw hz
    have := remaining_act_le (inv_reachable hw) label
    show remaining (w.act env label) = 0
    omega
  refine ⟨n, fun k hk => ?_⟩
  have hz := hstays k hk
  generalize (approvalMachine env).trace labels k = w at hz
  unfold remaining at hz
  cases hpc : w.handler with
  | done =>
    rw [hpc] at hz
    cases htask : w.task with
    | absent => exact ⟨hpc, .inl htask⟩
    | done => exact ⟨hpc, .inr htask⟩
    | _ => rw [htask] at hz; simp at hz
  | _ => rw [hpc] at hz; simp at hz

/-! ## Fixed runs -/

/-- A question for the user, on a connection with the smallest frames. -/
def userQuestion : ApprovalEnv where
  id := .number 7
  method := "item/tool/requestUserInput"
  params := .object [("threadId", .string "thread"), ("turnId", .string "turn"),
    ("itemId", .string "item"), ("isBlocking", .bool true),
    ("questions", .array [.object [("id", .string "name"), ("header", .string "Name"),
      ("question", .string "Which name?")]])]
  shutdownStarted := false
  maxFrameBytes := 64 * 1024
  sendTimeout := 30000

/-- Everybody is scheduled in turn. -/
def inTurn (n : Nat) : ApprovalLabel :=
  match n % 3 with
  | 0 => .handle .ready
  | 1 => .timeOut
  | _ => .deliver .ready

theorem fair_inTurn : Fair inTurn where
  handler n := ⟨3 * n, by omega, .ready, by simp [inTurn]⟩
  timer n := ⟨3 * n + 1, by omega, by simp [inTurn, Nat.add_mod]⟩
  task n := ⟨3 * n + 2, by omega, .ready, by simp [inTurn, Nat.add_mod]⟩

/-- The question is answered when nobody resolves it. -/
theorem every_request_one_response_question :
    ∃ n, ∀ k, n ≤ k → Answered ((approvalMachine userQuestion).trace inTurn k) :=
  (every_request_one_response userQuestion inTurn).2 fair_inTurn

/-- A name of `n` letters. -/
def nameOf (n : Nat) : String := String.ofList (List.replicate n 'a')

theorem stringBytes_nameOf (n : Nat) : stringBytes (nameOf n) = 2 + n := by
  have ha : charBytes 'a' = 1 := by decide
  unfold stringBytes nameOf
  rw [String.toList_ofList, List.map_replicate, List.sum_replicate_nat, ha, Nat.mul_one]

/-- The answer that gives one name. -/
def nameAnswer (n : Nat) : Json := answersResult [("name", answerResult [nameOf n])]

/-- A name as long as a frame does not fit into one. -/
theorem nameAnswer_oversized (n : Nat) : n < (wireSuccess (.number 7) (nameAnswer n)).encodedBytes := by
  simp only [wireSuccess, nameAnswer, answersResult, answerResult, List.map_cons, List.map_nil,
    Json.encodedBytes, membersBytes, itemsBytes, stringBytes_nameOf]
  omega

/-- The caller answers with a name of `n` letters, and the select takes the answer. -/
def longAnswerWins (n : Nat) : List ApprovalLabel :=
  [.handle .ready, .decide (.answer [⟨"name", [nameOf n]⟩]), .takeCommand]

/-- The task delivers the answer then. -/
def longAnswer (n : Nat) : List ApprovalLabel :=
  longAnswerWins n ++ [.deliver .ready, .deliver .ready]

/-- The state before the delivery. -/
def longAnswerTaken (n : Nat) : ApprovalWorld :=
  (approvalMachine userQuestion).run (longAnswerWins n)

theorem longAnswer_refused {n : Nat} (hn : 64 * 1024 ≤ n) :
    (longAnswerTaken n).deliver userQuestion .ready =
      { longAnswerTaken n with
        writer := (longAnswerTaken n).writer.startShutdown
        task := .killing (Error.new .protocol "jsonl.write" ("frame exceeds "
          ++ toString (longAnswerTaken n).writer.maxFrameBytes ++ " bytes")) true } := by
  have hstep := (longAnswerTaken n).writer.sendStep_oversized .ready rfl
    (Nat.lt_of_le_of_lt hn (nameAnswer_oversized n))
  unfold ApprovalWorld.deliver
  rw [show (longAnswerTaken n).task = .sending (nameAnswer n) true .entering from rfl]
  simp only [show userQuestion.id = .number 7 from rfl, hstep]

theorem longAnswer_run {n : Nat} (hn : 64 * 1024 ≤ n) :
    Answered ((approvalMachine userQuestion).run (longAnswer n)) ∧
      ((approvalMachine userQuestion).run (longAnswer n)).won ≠ none ∧
      ((approvalMachine userQuestion).run (longAnswer n)).writer.queued = [] ∧
      ((approvalMachine userQuestion).run (longAnswer n)).writer.shutdownStarted = true := by
  have hact : ∀ w event, (approvalMachine userQuestion).step w (.deliver event) =
      w.deliver userQuestion event := fun _ _ => rfl
  have hrun : (approvalMachine userQuestion).run (longAnswer n) =
      ((longAnswerTaken n).deliver userQuestion .ready).deliver userQuestion .ready := by
    rw [longAnswer, Machine.run, Machine.runFrom_append, Machine.runFrom_cons,
      Machine.runFrom_cons, Machine.runFrom_nil, hact, hact, longAnswerTaken, Machine.run]
  have hhandler : (longAnswerTaken n).handler = .done := rfl
  have hwon : (longAnswerTaken n).won = some (nameAnswer n) := rfl
  have hqueued : (longAnswerTaken n).writer.queued = [] := rfl
  rw [hrun, longAnswer_refused hn]
  generalize longAnswerTaken n = taken at hhandler hwon hqueued
  refine ⟨⟨hhandler, .inr rfl⟩, ?_, hqueued, rfl⟩
  intro hno
  cases hwon.symm.trans hno

/-- An answer over the frame limit wins the select and is refused by the send: nothing is
handed to the writer, and the process is killed. -/
theorem long_answer_not_written :
    Answered ((approvalMachine userQuestion).run (longAnswer (64 * 1024))) ∧
      ((approvalMachine userQuestion).run (longAnswer (64 * 1024))).won ≠ none ∧
      ((approvalMachine userQuestion).run (longAnswer (64 * 1024))).writer.queued = [] ∧
      ((approvalMachine userQuestion).run (longAnswer (64 * 1024))).writer.shutdownStarted
        = true :=
  longAnswer_run (Nat.le_refl _)

end Approval

end Vergerail
