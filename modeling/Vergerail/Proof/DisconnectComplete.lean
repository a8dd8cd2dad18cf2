import Vergerail.Client.Disconnect
import Vergerail.Proof.AnsweredRun
import Vergerail.Proof.DrainedRequests
import Vergerail.Proof.LoginTerminal

/-!
# Nobody is left behind a disconnect

The disconnect drains the runs and the logins once. A run whose start began later has a
request that turns back at the flag, so its turn is never acknowledged and no handle of it
is given out; a run with a handle is answered, and the drain leaves no route to wait for.
A login that registered later finds the flag set and is completed by its own call.
-/

namespace Vergerail

open Lib

/-! ## What the client's steps leave alone -/

/-- The runs are drained. -/
def DisconnectStage.cleared : DisconnectStage → Bool
  | .runsFailed _ => true
  | .finished => true
  | _ => false

namespace ClientShared

/-- A step that does not bring the disconnect closer to its end. -/
structure Lags (s t : ClientShared) : Prop where
  cleared : t.stage.cleared = true → s.stage.cleared = true
  finished : t.stage = .finished → s.stage = .finished

theorem Lags.of_stage {s t : ClientShared} (h : t.stage = s.stage) : s.Lags t :=
  ⟨fun hc => by rw [← h]; exact hc, fun hf => h ▸ hf⟩

theorem Lags.refl (s : ClientShared) : s.Lags s := .of_stage rfl

theorem lags_beginDisconnect (s : ClientShared) (owner : Option Nat) (error : Error) :
    s.Lags (s.beginDisconnect owner error).2 := by
  rcases s.beginDisconnect_cases owner error with ⟨-, hs⟩ | ⟨-, hs⟩
  · rw [hs]
    exact .refl s
  · rw [hs]
    refine ⟨fun hc => ?_, fun hf => ?_⟩
    · cases hc
    · cases hf

end ClientShared

theorem RequestCell.lags_drop (i : Nat) (s : ClientShared) (c : RequestCell) :
    s.Lags (c.drop i s).1 := by
  have hrefl := ClientShared.Lags.refl s
  cases hc : c.call with
  | cleaning outcome =>
      simp only [drop, hc]
      split
      · split_ifs
        · refine ⟨fun hc => ?_, fun hf => ?_⟩
          · cases hc
          · cases hf
        · exact hrefl
      · exact hrefl
  | _ => simp only [drop, hc]; exact hrefl

theorem ClientWorld.lags_actRequest (env : ClientEnv) (i : Nat) (s : ClientShared)
    (c : RequestCell) (label : RequestLabel) : s.Lags (actRequest env i s c label).1 := by
  have hrefl := ClientShared.Lags.refl s
  cases label with
  | call nonIdempotent allowClosing operation method params requestTimeout =>
      cases hc : c.call with
      | idle => simp only [actRequest, hc]; exact hrefl
      | _ => simp only [actRequest, hc]; exact hrefl
  | proceed event =>
      rcases c.proceed_stage env i s event with hstays | ⟨owner, error, hb⟩
      · exact .of_stage hstays.stage
      · simp only [actRequest, hb]
        exact s.lags_beginDisconnect owner error
  | drop => exact c.lags_drop i s
  | succeed result => exact hrefl
  | reject code message => exact hrefl
  | handOver => exact hrefl
  | disconnectOrphan =>
      simp only [actRequest, RequestCell.disconnectOrphan]
      split_ifs
      · exact s.lags_beginDisconnect none _
      · exact hrefl
  | runCancel =>
      simp only [actRequest, RequestCell.runCancel]
      split
      · split
        · exact hrefl
        · exact hrefl
      · exact s.lags_beginDisconnect none _
      · exact hrefl
  | failOne =>
      simp only [actRequest, RequestCell.failOne]
      split
      · split_ifs
        · refine ⟨fun hc => ?_, fun hf => ?_⟩
          · cases hc
          · cases hf
        · exact hrefl
      · exact hrefl

/-- Only the owner of the disconnect brings it to its end. -/
theorem ClientWorld.lags_act (env : ClientEnv) (w : ClientWorld) {label : ClientLabel}
    (hlabel : ∀ termination, label ≠ .goOn termination) :
    w.shared.Lags (w.act env label).shared := by
  cases label with
  | request i label => exact lags_actRequest env i w.shared (w.requests i) label
  | disconnect error =>
      have hb := (w.shared.blame error).lags_beginDisconnect none error
      exact ⟨hb.cleared, hb.finished⟩
  | goOn termination => exact absurd rfl (hlabel termination)
  | dropOwner =>
      simp only [act]
      split
      · refine ⟨fun hc => ?_, fun hf => ?_⟩
        · cases hc
        · cases hf
      · exact .refl _
  | beginClosing => exact .of_stage rfl
  | stopProcess => exact .of_stage rfl

namespace RequestCell

/-- The call is before the flag, or turned back at it. -/
def Late (c : RequestCell) : Prop :=
  match c.call with
  | .checkingDeadline => True
  | .checkingClosing => True
  | .checkingDisconnected => True
  | .readingFailure => True
  | .returned (.error _) => True
  | _ => False

theorem Late.of_call {c d : RequestCell} (h : c.Late) (hcall : d.call = c.call) : d.Late := by
  unfold Late at h ⊢
  rw [hcall]
  exact h

/-- A call that is before the flag turns back at it. -/
theorem Late.proceed {c : RequestCell} {s : ClientShared} (h : c.Late)
    (hd : s.connection.disconnected = true) (env : ClientEnv) (i : Nat) (event : SendEvent) :
    (c.proceed env i s event).2.Late := by
  cases hc : c.call with
  | checkingDeadline => simp only [RequestCell.proceed, hc]; split_ifs <;> exact trivial
  | checkingClosing => simp only [RequestCell.proceed, hc]; split_ifs <;> exact trivial
  | checkingDisconnected => simp only [RequestCell.proceed, hc, if_pos hd]; exact trivial
  | readingFailure => simp only [RequestCell.proceed, hc]; exact trivial
  | returned result => simp only [RequestCell.proceed, hc]; exact h
  | _ =>
      unfold Late at h
      rw [hc] at h
      exact h.elim

theorem Late.drop {c : RequestCell} {s : ClientShared} (h : c.Late) (i : Nat) :
    (c.drop i s).2.Late := by
  unfold Late at h
  cases hc : c.call with
  | reserving => rw [hc] at h; exact h.elim
  | acknowledging => rw [hc] at h; exact h.elim
  | terminating reason => rw [hc] at h; exact h.elim
  | waiting => rw [hc] at h; exact h.elim
  | cleaning outcome => rw [hc] at h; exact h.elim
  | _ => simp only [RequestCell.drop, hc]; exact h

theorem Late.act {c : RequestCell} {s : ClientShared} (h : c.Late)
    (hd : s.connection.disconnected = true) (env : ClientEnv) (i : Nat) (label : RequestLabel) :
    (ClientWorld.actRequest env i s c label).2.Late := by
  cases label with
  | call nonIdempotent allowClosing operation method params requestTimeout =>
      cases hc : c.call with
      | idle => simp only [ClientWorld.actRequest, hc]; exact trivial
      | _ => simp only [ClientWorld.actRequest, hc]; exact h
  | proceed event => exact h.proceed hd env i event
  | drop => exact h.drop i
  | succeed result => exact h.of_call (c.respond_call _)
  | reject code message => exact h.of_call (c.respond_call _)
  | handOver => exact h.of_call c.handOver_call
  | disconnectOrphan => exact h.of_call (c.disconnectOrphan_call s)
  | runCancel => exact h.of_call (c.runCancel_call s)
  | failOne => exact h.of_call (c.failOne_call i s)

end RequestCell

/-- A late call stays late on a connection that is gone. -/
theorem ClientWorld.late_act (env : ClientEnv) {w : ClientWorld} {k : Nat}
    (h : (w.requests k).Late) (hd : w.shared.connection.disconnected = true)
    (label : ClientLabel) : ((w.act env label).requests k).Late := by
  cases label with
  | request i label =>
      by_cases hki : k = i
      · subst hki
        simp only [act, Function.update_self]
        exact h.act hd env k label
      · simp only [act, Function.update_of_ne hki]
        exact h
  | goOn termination => exact h.of_call (w.goOn_call termination k)
  | dropOwner =>
      simp only [act]
      split
      · exact h
      · exact h
  | disconnect error => exact h
  | beginClosing => exact h
  | stopProcess => exact h

/-! ## One start -/

namespace RunStart

/-- Where a start is once it has disconnected. -/
def ahead : RunStart → RunStart
  | .disconnecting _ next => next.ahead
  | start => start

/-- The run a start is still to acknowledge. -/
def awaits : RunStart → Option Nat
  | .registered run => some run
  | .requesting run _ => some run
  | .acknowledging run _ => some run
  | _ => .none

/-- The run a start replays what was deferred for. -/
def replays : RunStart → Option Nat
  | .replaying run _ _ => some run
  | _ => .none

end RunStart

namespace ThreadCell

/-- The thread relies on the run: a handle of it was given out, or is about to be. -/
def Relies (t : ThreadCell) (run : Nat) : Prop :=
  run ∈ t.handles ∨ t.start.ahead.replays = some run

/-- What every step keeps of a thread. -/
structure Served (t : ThreadCell) : Prop where
  terminal : TerminalInv t.registry
  /-- The run that is still to be acknowledged is the latest. -/
  latest : ∀ run, t.start.ahead.awaits = some run → run + 1 = t.registry.slot.registered
  answered : ∀ run, t.Relies run →
    run < t.registry.slot.registered ∧ t.registry.slot.Answered run

variable {t : ThreadCell}

theorem served_vacant (threadId : String) : (vacant threadId).Served where
  terminal := terminalInv_init threadId
  latest run h := by cases h
  answered run h := by
    rcases h with h | h
    · cases h
    · cases h

theorem Served.operate (h : t.Served) (op : RegistryOp)
    (hop : ∀ cap bytes, op ≠ .register cap bytes) : (t.operate op).Served := by
  have hanswers := RunSlot.answers_apply t.registry.slot hop
  have hreg : (t.operate op).registry.slot.registered = t.registry.slot.registered :=
    hanswers.registered
  refine ⟨terminalInv_step h.terminal op, fun run hrun => ?_, fun run hrun => ?_⟩
  · rw [hreg]
    exact h.latest run hrun
  · rw [hreg]
    obtain ⟨hlt, hanswered⟩ := h.answered run hrun
    exact ⟨hlt, hanswers.answered hanswered⟩

theorem Served.goto (h : t.Served) {start : RunStart}
    (hlatest : ∀ run, start.ahead.awaits = some run → run + 1 = t.registry.slot.registered)
    (hreplays : ∀ run, start.ahead.replays = some run → t.Relies run) :
    (t.goto start).Served where
  terminal := h.terminal
  latest := hlatest
  answered run hrun := by
    rcases hrun with hrun | hrun
    · exact h.answered run (.inl hrun)
    · exact h.answered run (hreplays run hrun)

/-- A start that goes nowhere near a run. -/
theorem Served.leave (h : t.Served) {start : RunStart} (hawaits : start.ahead.awaits = none)
    (hreplays : start.ahead.replays = none) : (t.goto start).Served := by
  refine h.goto (fun run hrun => ?_) (fun run hrun => ?_)
  · rw [hawaits] at hrun
    cases hrun
  · rw [hreplays] at hrun
    cases hrun

/-- A handle is given out of a run that is answered. -/
theorem Served.handOut (h : t.Served) {run : Nat} (hlt : run < t.registry.slot.registered)
    (hrun : t.registry.slot.Answered run) : (t.handOut run).Served where
  terminal := h.terminal
  latest _ hawaits := by cases hawaits
  answered n hn := by
    rcases hn with hn | hn
    · rcases List.mem_cons.mp hn with rfl | hn
      · exact ⟨hlt, hrun⟩
      · exact h.answered n (.inl hn)
    · cases hn

theorem Served.begin (h : t.Served) (env : PartiesEnv) : (t.begin env).Served := by
  unfold ThreadCell.begin
  cases hs : t.start with
  | none =>
      obtain ⟨hle, hanswered⟩ :=
        t.registry.slot.startRun_answered env.eventCapacity env.maximumOutputBytes
      have hregistered : (t.operate (.register env.eventCapacity env.maximumOutputBytes)).Served := by
        refine ⟨terminalInv_step h.terminal _, fun run hrun => ?_, fun run hrun => ?_⟩
        · have hnone : t.start.ahead.awaits = some run := hrun
          rw [hs] at hnone
          cases hnone
        · obtain ⟨hlt, hrun⟩ := h.answered run hrun
          exact ⟨Nat.lt_of_lt_of_le hlt hle, hanswered run hlt hrun⟩
      dsimp only
      split
      · rename_i run hok
        refine hregistered.goto (fun n hn => ?_) (fun n hn => ?_)
        · cases hn
          exact RunSlot.startRun_latest hok
        · cases hn
      · exact hregistered
  | _ => exact h

theorem Served.failRegistered (h : t.Served) (error : Error) : (t.failRegistered error).Served := by
  have hfailed := h.operate (.failBeforeStart error) (fun _ _ => by simp)
  unfold ThreadCell.failRegistered
  split
  · exact hfailed.leave rfl rfl
  · exact hfailed.leave rfl rfl

/-- **A handle comes from an acknowledgement that found its run's terminal, or from a
replay of its turn.** -/
theorem Served.acknowledge (h : t.Served) {run : Nat} {turnId : String}
    (hs : t.start = .acknowledging run turnId) : (t.acknowledge run turnId).Served := by
  have hlatest : run + 1 = t.registry.slot.registered := h.latest run (by rw [hs]; rfl)
  have hreg : (t.operate (.acknowledgeStart turnId)).registry.slot.registered
      = t.registry.slot.registered := (RunSlot.answers_acknowledgeStart _ turnId).registered
  have hlt : run < (t.operate (.acknowledgeStart turnId)).registry.slot.registered := by omega
  have hack := h.operate (.acknowledgeStart turnId) (fun _ _ => by simp)
  unfold ThreadCell.acknowledge
  dsimp only
  split
  · rename_i deferred hreplay
    have hturned := acknowledgeStart_replay h.terminal hlatest hreplay
    refine ⟨hack.terminal, fun n hn => ?_, fun n hn => ?_⟩
    · cases hn
    · rcases hn with hn | hn
      · exact hack.answered n (.inl hn)
      · cases hn
        exact ⟨hlt, .inr hturned⟩
  · rename_i hcompleted
    have hsettled := acknowledgeStart_completed h.terminal hlatest hcompleted
    refine hack.handOut hlt (.inl ?_)
    exact (RunSlot.answers_acknowledgeStart _ turnId).settled run hsettled
  · exact hack.leave rfl rfl
  · exact hack.leave rfl rfl
  · exact hack.leave rfl rfl

theorem Served.replay (h : t.Served) (env : PartiesEnv) {run : Nat} {turnId : String}
    {batch : List DeferredRunNotification} (hs : t.start = .replaying run turnId batch) :
    (t.replay env run turnId batch).Served := by
  have hrelies : t.Relies run := .inr (by rw [hs]; rfl)
  have hstill : ∀ (t' : ThreadCell) (batch' : List DeferredRunNotification) (start : RunStart),
      t'.Served → t'.Relies run → start.ahead = .replaying run turnId batch' →
      (t'.goto start).Served := by
    intro t' batch' start hserved hrelies' hstart
    refine hserved.goto (fun n hn => ?_) (fun n hn => ?_)
    · rw [hstart] at hn
      cases hn
    · rw [hstart] at hn
      cases hn
      exact hrelies'
  cases batch with
  | nil =>
      have hnext := h.operate (.replayTransition turnId) (fun _ _ => by simp)
      simp only [ThreadCell.replay]
      split
      · exact hstill _ _ _ hnext hrelies rfl
      · obtain ⟨hlt, hanswered⟩ := hnext.answered run hrelies
        exact hnext.handOut hlt hanswered
  | cons deferred batch =>
      cases deferred with
      | event observed sourceMethod event =>
          exact hstill _ batch _ (h.operate _ (fun _ _ => by simp)) hrelies rfl
      | terminal params =>
          simp only [ThreadCell.replay]
          split
          · exact hstill _ batch _ h hrelies rfl
          · exact hstill _ batch _ (h.operate _ (fun _ _ => by simp)) hrelies rfl

theorem Served.takeAnswer (h : t.Served) {run k : Nat} (hs : t.start = .requesting run k)
    (result : Result Json) : (t.takeAnswer run result).Served := by
  have hlatest : run + 1 = t.registry.slot.registered := h.latest run (by rw [hs]; rfl)
  unfold ThreadCell.takeAnswer
  split
  · exact h.leave rfl rfl
  · split
    · exact h.leave rfl rfl
    · refine h.goto (fun n hn => ?_) (fun n hn => ?_)
      · cases hn
        exact hlatest
      · cases hn

theorem Served.dropStart (h : t.Served) : t.dropStart.Served := by
  unfold ThreadCell.dropStart
  split
  · exact h.leave rfl rfl
  · exact h.leave rfl rfl
  · exact h.leave rfl rfl
  · exact h

theorem others_ne_register {op : RegistryOp} (hop : op.byOthers = true) (cap bytes : Nat) :
    op ≠ .register cap bytes := by
  rintro rfl
  cases hop

/-- **Every step of a start keeps its thread served.** -/
theorem Served.act (h : t.Served) (env : PartiesEnv) (client : ClientWorld)
    (label : ThreadLabel) : (PartiesWorld.actThread env client t label).2.Served := by
  cases label with
  | begin => exact h.begin env
  | request k params =>
      simp only [PartiesWorld.actThread]
      split
      · rename_i run hs _
        refine h.goto (fun n hn => ?_) (fun n hn => ?_)
        · cases hn
          exact h.latest run (by rw [hs]; rfl)
        · cases hn
      · exact h
  | proceed =>
      simp only [PartiesWorld.actThread]
      cases hs : t.start with
      | requesting run k =>
          dsimp only
          split
          · exact h.takeAnswer hs _
          · exact h
      | failing error => exact h.failRegistered error
      | acknowledging run turnId => exact h.acknowledge hs
      | replaying run turnId batch => exact h.replay env hs
      | disconnecting error next =>
          have hahead : t.start.ahead = next.ahead := by rw [hs]; rfl
          refine h.goto (fun n hn => ?_) (fun n hn => ?_)
          · exact h.latest n (by rw [hahead]; exact hn)
          · exact .inr (by rw [hahead]; exact hn)
      | leaving error => exact h.leave rfl rfl
      | none => exact h
      | registered run => exact h
  | dropStart => exact h.dropStart
  | others op =>
      simp only [PartiesWorld.actThread]
      split_ifs with hop
      · exact h.operate op (others_ne_register hop)
      · exact h

end ThreadCell

/-! ## A thread whose run was drained -/

namespace ThreadCell

/-- What every step keeps of a thread once the runs are drained: a request that may still
bring a turn was made for a run that is over. -/
structure Cleared (requests : Nat → RequestCell) (t : ThreadCell) : Prop where
  turnless : t.registry.slot.Turnless
  requesting : ∀ run k, t.start.ahead = .requesting run k →
    (requests k).Late ∨ t.registry.slot.Over
  acknowledging : ∀ run turnId, t.start.ahead = .acknowledging run turnId →
    t.registry.slot.Over

variable {t : ThreadCell} {requests : Nat → RequestCell}

theorem cleared_of_over (h : t.registry.slot.Over) : t.Cleared requests :=
  ⟨h.turnless, fun _ _ _ => .inr h, fun _ _ _ => h⟩

/-- A start without a request or a turn in hand. -/
theorem cleared_of_turnless (h : t.registry.slot.Turnless)
    (hrequesting : ∀ run k, t.start.ahead ≠ .requesting run k)
    (hacknowledging : ∀ run turnId, t.start.ahead ≠ .acknowledging run turnId) :
    t.Cleared requests :=
  ⟨h, fun run k hs => absurd hs (hrequesting run k),
    fun run turnId hs => absurd hs (hacknowledging run turnId)⟩

/-- The drain leaves nothing on the thread. -/
theorem Served.drained (h : t.Served) (error : Error) :
    (t.operate (.failAll error)).Cleared requests := by
  have hfailed := h.operate (.failAll error) (fun _ _ => by simp)
  have hroute : (t.operate (.failAll error)).registry.slot.route = none :=
    RunSlot.failAll_route t.registry.slot error
  refine cleared_of_over (.inl ⟨?_, hfailed.terminal.vacant hroute⟩)
  unfold RunSlot.contains
  rw [hroute]
  rfl

theorem Cleared.mono {requests' : Nat → RequestCell} (h : t.Cleared requests)
    (hlate : ∀ k, (requests k).Late → (requests' k).Late) : t.Cleared requests' where
  turnless := h.turnless
  requesting run k hs := (h.requesting run k hs).imp_left (hlate k)
  acknowledging := h.acknowledging

theorem Cleared.others (h : t.Cleared requests) {op : RegistryOp} (hop : op.byOthers = true) :
    (t.operate op).Cleared requests where
  turnless := h.turnless.others hop
  requesting run k hs := (h.requesting run k hs).imp_right (fun hover => hover.others hop)
  acknowledging run turnId hs := (h.acknowledging run turnId hs).others hop

theorem Cleared.begin (h : t.Cleared requests) (env : PartiesEnv) :
    (t.begin env).Cleared requests := by
  have hregistered := h.turnless.startRun env.eventCapacity env.maximumOutputBytes
  unfold ThreadCell.begin
  cases hs : t.start with
  | none =>
      dsimp only
      split
      · exact cleared_of_turnless hregistered (fun _ _ => by simp [goto, RunStart.ahead])
          (fun _ _ => by simp [goto, RunStart.ahead])
      · refine cleared_of_turnless hregistered (fun _ _ => ?_) (fun _ _ => ?_)
        · simp [operate, hs, RunStart.ahead]
        · simp [operate, hs, RunStart.ahead]
  | _ => exact h

theorem Cleared.failRegistered (h : t.Cleared requests) (error : Error) :
    (t.failRegistered error).Cleared requests := by
  have hover := h.turnless.failBeforeStart error
  unfold ThreadCell.failRegistered
  split
  · exact cleared_of_over hover
  · exact cleared_of_over hover

/-- An acknowledgement after the drain comes for a run that is over. -/
theorem Cleared.acknowledge (h : t.Cleared requests) (hserved : t.Served) {run : Nat}
    {turnId : String} (hs : t.start = .acknowledging run turnId) :
    (t.acknowledge run turnId).Cleared requests := by
  have hover := h.acknowledging run turnId (by rw [hs]; rfl)
  have hstays := acknowledgeStart_over hserved.terminal hover turnId
  unfold ThreadCell.acknowledge
  dsimp only
  split <;> exact cleared_of_over hstays

theorem Cleared.replay (h : t.Cleared requests) (env : PartiesEnv) (run : Nat) (turnId : String)
    (batch : List DeferredRunNotification) : (t.replay env run turnId batch).Cleared requests := by
  cases batch with
  | nil =>
      have hsame : (t.registry.slot.apply (.replayTransition turnId)).Turnless := by
        have hstopped := h.turnless.replayTransition turnId
        simp only [RunSlot.apply, hstopped]
        exact h.turnless
      simp only [ThreadCell.replay]
      split
      · exact cleared_of_turnless hsame (fun _ _ => by simp [goto, RunStart.ahead])
          (fun _ _ => by simp [goto, RunStart.ahead])
      · exact cleared_of_turnless hsame (fun _ _ => by simp [handOut, RunStart.ahead])
          (fun _ _ => by simp [handOut, RunStart.ahead])
  | cons deferred batch =>
      cases deferred with
      | event observed sourceMethod event =>
          refine cleared_of_turnless ?_ (fun _ _ => by simp [ThreadCell.replay, goto, RunStart.ahead])
            (fun _ _ => by simp [ThreadCell.replay, goto, RunStart.ahead])
          have hothers : (RegistryOp.routeEvent (some observed) sourceMethod event false
              env.eventCapacity).byOthers = true := rfl
          exact h.turnless.others hothers
      | terminal params =>
          simp only [ThreadCell.replay]
          split
          · exact cleared_of_turnless h.turnless (fun _ _ => by simp [goto, RunStart.ahead])
              (fun _ _ => by simp [goto, RunStart.ahead])
          · rename_i completion _
            refine cleared_of_turnless ?_ (fun _ _ => by simp [goto, RunStart.ahead])
              (fun _ _ => by simp [goto, RunStart.ahead])
            have hothers : (RegistryOp.routeTerminal completion params false
                env.eventCapacity).byOthers = true := rfl
            exact h.turnless.others hothers

end ThreadCell

/-! ## The client's part of a step -/

namespace PartiesWorld

/-- A start does nothing to the client but what anybody may do. -/
theorem actThread_client (env : PartiesEnv) (client : ClientWorld) (t : ThreadCell)
    (label : ThreadLabel) : (actThread env client t label).1 = client ∨
      ∃ l, (∀ termination, l ≠ .goOn termination) ∧
        (actThread env client t label).1 = client.act env.toClientEnv l := by
  cases label with
  | request k params =>
      simp only [actThread]
      split
      · refine .inr ⟨.request k (.call true false "turn.start" "turn/start" params
          env.requestTimeout), fun _ => ?_, rfl⟩
        simp
      · exact .inl rfl
  | proceed =>
      cases hs : t.start with
      | requesting run k =>
          simp only [actThread, hs]
          split
          · exact .inl rfl
          · exact .inl rfl
      | disconnecting error next =>
          simp only [actThread, hs]
          exact .inr ⟨.disconnect error, fun _ => by simp, rfl⟩
      | _ => exact .inl (by simp only [actThread, hs])
  | begin => exact .inl rfl
  | dropStart => exact .inl rfl
  | others op => exact .inl rfl

theorem actRegistration_client (env : PartiesEnv) (client : ClientWorld) (logins : LoginWorld)
    (call : LoginCall) (label : LoginLabel) :
    (actRegistration env client logins call label).1 = client ∨
      ∃ l, (∀ termination, l ≠ .goOn termination) ∧
        (actRegistration env client logins call label).1 = client.act env.toClientEnv l := by
  cases label with
  | register loginId =>
      cases call with
      | idle =>
          simp only [actRegistration]
          split_ifs
          · exact .inl rfl
          · exact .inl rfl
      | _ => exact .inl rfl
  | proceed =>
      cases call with
      | checking loginId =>
          simp only [actRegistration]
          split_ifs
          · exact .inl rfl
          · exact .inl rfl
      | refusing => exact .inr ⟨.disconnect _, fun _ => by simp, rfl⟩
      | _ => exact .inl rfl

theorem goOn_client (w : PartiesWorld) (termination : Termination) :
    (w.goOn termination).client = w.client.goOn termination := by
  unfold goOn
  dsimp only
  split
  · rfl
  · rfl
  · rfl

theorem act_client (env : PartiesEnv) (w : PartiesWorld) (label : ClientLabel) :
    (w.act env (.client label)).client = w.client.act env.toClientEnv label := by
  cases label with
  | goOn termination => exact w.goOn_client termination
  | _ => rfl

/-- **The client takes part as it is:** whatever the parties do, what happens to it is a run
of its own machine. -/
theorem client_reachable (env : PartiesEnv) {w : PartiesWorld}
    (h : (partiesMachine env).Reachable Machine.Free w) :
    (clientMachine env.toClientEnv).Reachable Machine.Free w.client := by
  refine h.invariant (P := fun w => (clientMachine env.toClientEnv).Reachable Machine.Free w.client)
    Machine.reachable_init (fun w label _ hw _ => ?_)
  have hact : ∀ l, (clientMachine env.toClientEnv).Reachable Machine.Free
      (w.client.act env.toClientEnv l) := fun l => hw.step (i := l) trivial
  have hstep : ∀ client', client' = w.client ∨ (∃ l, (∀ termination, l ≠ .goOn termination) ∧
      client' = w.client.act env.toClientEnv l) →
      (clientMachine env.toClientEnv).Reachable Machine.Free client' := by
    rintro client' (rfl | ⟨l, -, rfl⟩)
    · exact hw
    · exact hact l
  cases label with
  | client label =>
      have hclient := act_client env w label
      simp only [partiesMachine, hclient]
      exact hact label
  | thread threadId label => exact hstep _ (actThread_client env _ _ label)
  | registration j label => exact hstep _ (actRegistration_client env _ _ _ label)
  | login op =>
      simp only [partiesMachine, act]
      split_ifs
      · exact hw
      · exact hw

end PartiesWorld

namespace ThreadCell

/-- **Every step of a start keeps its thread cleared.** -/
theorem Cleared.act {t : ThreadCell} {client : ClientWorld} (h : t.Cleared client.requests)
    (hserved : t.Served) (env : PartiesEnv) (label : ThreadLabel) :
    (PartiesWorld.actThread env client t label).2.Cleared
      (PartiesWorld.actThread env client t label).1.requests := by
  cases label with
  | begin => exact h.begin env
  | request k params =>
      simp only [PartiesWorld.actThread]
      split
      · rename_i run _ hidle
        refine ⟨h.turnless, fun n k' hs => .inl ?_, fun n turnId hs => ?_⟩
        · -- the call has only begun
          cases hs
          simp only [ClientWorld.act, ClientWorld.actRequest, hidle, Function.update_self]
          exact trivial
        · cases hs
      · exact h
  | proceed =>
      simp only [PartiesWorld.actThread]
      cases hs : t.start with
      | requesting run k =>
          dsimp only
          split
          · rename_i result hreturned
            unfold takeAnswer
            cases result with
            | error error =>
                exact cleared_of_turnless h.turnless (fun _ _ => by simp [goto, RunStart.ahead])
                  (fun _ _ => by simp [goto, RunStart.ahead])
            | ok response =>
                -- a late call brings no response
                have hover : t.registry.slot.Over := by
                  rcases h.requesting run k (by rw [hs]; rfl) with hlate | hover
                  · unfold RequestCell.Late at hlate
                    rw [hreturned] at hlate
                    exact hlate.elim
                  · exact hover
                dsimp only
                split
                · exact cleared_of_over hover
                · exact cleared_of_over hover
          · exact h
      | failing error => exact h.failRegistered error
      | acknowledging run turnId => exact h.acknowledge hserved hs
      | replaying run turnId batch => exact h.replay env run turnId batch
      | disconnecting error next =>
          have hahead : t.start.ahead = next.ahead := by rw [hs]; rfl
          refine ⟨h.turnless, fun run k hstart => ?_, fun run turnId hstart => ?_⟩
          · exact h.requesting run k (hahead.trans hstart)
          · exact h.acknowledging run turnId (hahead.trans hstart)
      | leaving error =>
          exact cleared_of_turnless h.turnless (fun _ _ => by simp [goto, RunStart.ahead])
            (fun _ _ => by simp [goto, RunStart.ahead])
      | none => exact h
      | registered run => exact h
  | dropStart =>
      have hnone : (t.goto .none).Cleared client.requests :=
        cleared_of_turnless h.turnless (fun _ _ => by simp [goto, RunStart.ahead])
          (fun _ _ => by simp [goto, RunStart.ahead])
      simp only [PartiesWorld.actThread, dropStart]
      split
      · exact hnone
      · exact hnone
      · exact hnone
      · exact h
  | others op =>
      simp only [PartiesWorld.actThread]
      split_ifs with hop
      · exact h.others hop
      · exact h

end ThreadCell

/-! ## Logins without a result -/

/-- The login is registered and has no result. -/
def LoginState.Open (s : LoginState) (id : String) : Prop :=
  ∃ entry, s.entry id = some entry ∧ entry.terminal = none

/-- A completed login has its result. -/
theorem LoginWorld.not_open_complete (w : LoginWorld) (id : String) (result : Result Unit) :
    ¬ (w.act (.complete id result)).state.Open id := by
  rintro ⟨entry, hentry, hnone⟩
  cases hbefore : w.state.entry id with
  | none =>
      have hactive : (w.state.cacheEarlyLoginResult id result).entry id = none :=
        (congrArg (List.lookup id)
          (LoginState.active_cacheEarlyLoginResult w.state id result)).trans hbefore
      simp only [act, LoginState.complete_of_vacant hbefore, hactive] at hentry
      cases hentry
  | some before =>
      by_cases hsome : before.terminal.isSome
      · simp only [act, LoginState.complete_of_some hbefore hsome, hbefore] at hentry
        cases hentry
        rw [hnone] at hsome
        cases hsome
      · have hopen : before.terminal = none := by simpa using hsome
        have hafter : (w.act (.complete id result)).state.entry id = some ⟨some result, []⟩ := by
          simp only [act, LoginState.complete_of_none hbefore hopen]
          exact SortedMap.lookup_insert_self ..
        rw [hafter] at hentry
        cases hentry
        cases hnone

/-- The drain leaves no login without a result. -/
theorem LoginWorld.not_open_failActive (w : LoginWorld) (id : String) (error : Error) :
    ¬ (w.act (.failActive error)).state.Open id := by
  rintro ⟨entry, hentry, hnone⟩
  have hmap := LoginState.entry_failActive w.state id error
  simp only [act] at hentry
  rw [hmap] at hentry
  cases hbefore : w.state.entry id with
  | none => rw [hbefore] at hentry; cases hentry
  | some before =>
      rw [hbefore] at hentry
      cases hentry
      simp only [LoginState.failEntry] at hnone
      split_ifs at hnone with hterminal
      rw [hnone] at hterminal
      exact hterminal rfl

/-- Only a registration opens a login. -/
theorem LoginWorld.open_act {w : LoginWorld} {op : LoginOp} {id : String}
    (h : (w.act op).state.Open id) : w.state.Open id ∨ op = .register id := by
  obtain ⟨entry, hentry, hnone⟩ := h
  cases op with
  | register id' =>
      by_cases hid : id' = id
      · exact .inr (by rw [hid])
      · refine .inl ⟨entry, ?_, hnone⟩
        simp only [act, LoginState.register] at hentry
        split at hentry
        · exact hentry
        · exact (SortedMap.lookup_insert_ne (Ne.symm hid) _ _).symm.trans hentry
  | wait id' =>
      refine .inl ?_
      cases hbefore : w.state.entry id with
      | none =>
          have hvacant := (LoginWorld.vacant_wait hbefore id').1
          simp only [act, hvacant] at hentry
          cases hentry
      | some before =>
          obtain ⟨waiters, hafter, -⟩ := LoginState.entry_wait hbefore id'
          simp only [act, hafter] at hentry
          cases hentry
          exact ⟨before, hbefore, hnone⟩
  | removeWaiter id' n =>
      refine .inl ?_
      cases hbefore : w.state.entry id with
      | none =>
          have hvacant := (LoginWorld.vacant_removeWaiter hbefore id' n).1
          simp only [act, hvacant] at hentry
          cases hentry
      | some before =>
          obtain ⟨waiters, hafter, -⟩ := LoginState.entry_removeWaiter hbefore id' n
          simp only [act, hafter] at hentry
          cases hentry
          exact ⟨before, hbefore, hnone⟩
  | complete id' result =>
      by_cases hid : id = id'
      · subst hid
        exact absurd ⟨entry, hentry, hnone⟩ (not_open_complete w id result)
      · exact .inl ⟨entry, (LoginState.entry_complete_ne hid result).symm.trans hentry, hnone⟩
  | failActive error => exact absurd ⟨entry, hentry, hnone⟩ (not_open_failActive w id error)
  | release id' =>
      by_cases hid : id = id'
      · subst hid
        have hgone : (w.state.release id).entry id = none := SortedMap.lookup_erase_self _ _
        simp only [act, hgone] at hentry
        cases hentry
      · exact .inl ⟨entry, (LoginState.entry_release_ne hid).symm.trans hentry, hnone⟩

/-! ## Every run -/

/-- The runs are drained for good. -/
theorem ClientShared.Sound.gone {s : ClientShared} (h : s.Sound) (hc : s.stage.cleared = true) :
    s.connection.disconnected = true := by
  by_contra hd
  have hstage := (h.connected (by simpa using hd)).1
  rw [hstage] at hc
  cases hc

theorem ClientWorld.caused_reachable (env : ClientEnv) {w : ClientWorld}
    (h : (clientMachine env).Reachable Machine.Free w) : w.Caused :=
  h.invariant caused_init (fun _ label _ hw _ => hw.act env label)

/-- What a step of anybody but the owner of the disconnect leaves as it was. -/
theorem ClientWorld.Caused.follows {client client' : ClientWorld} (h : client.Caused)
    (env : ClientEnv) (hstep : client' = client ∨
      ∃ l, (∀ termination, l ≠ .goOn termination) ∧ client' = client.act env l) :
    client.shared.Lags client'.shared ∧ (client.shared.stage.cleared = true →
      ∀ k, (client.requests k).Late → (client'.requests k).Late) := by
  rcases hstep with rfl | ⟨l, hl, rfl⟩
  · exact ⟨.refl _, fun _ _ h => h⟩
  · exact ⟨client.lags_act env hl, fun hc k hlate => late_act env hlate (h.sound.gone hc) l⟩

namespace PartiesWorld

/-- What every step keeps of all parties. -/
structure Served (w : PartiesWorld) : Prop where
  threads : ∀ threadId, (w.threads threadId).Served
  cleared : w.client.shared.stage.cleared = true →
    ∀ threadId, (w.threads threadId).Cleared w.client.requests
  /-- A login without a result is one that its call of `register_login` is to complete. -/
  logins : w.client.shared.stage = .finished →
    ∀ id, w.logins.state.Open id → ∃ j, (w.registrations j).At id

theorem served_init : init.Served where
  threads threadId := ThreadCell.served_vacant threadId
  cleared h := by cases h
  logins h := by cases h

variable {w : PartiesWorld}

/-- The drain of the runs clears every thread, that of the logins completes every login. -/
theorem Served.goOn (h : w.Served) (termination : Termination) : (w.goOn termination).Served := by
  unfold PartiesWorld.goOn
  cases hs : w.client.shared.stage with
  | requestsFailed error =>
      dsimp only
      refine ⟨fun threadId => ?_, fun _ threadId => ?_, fun hf => ?_⟩
      · exact (h.threads threadId).operate _ (fun _ _ => by simp)
      · exact (h.threads threadId).drained error
      · simp only [failRuns, ClientWorld.goOn, hs] at hf
        cases hf
  | runsFailed error =>
      dsimp only
      have hc := h.cleared (by rw [hs]; rfl)
      refine ⟨h.threads, fun _ threadId => ?_, fun _ id hopen => ?_⟩
      · simp only [failLogins, ClientWorld.goOn, hs]
        exact hc threadId
      · exact absurd hopen (w.logins.not_open_failActive id error)
  | finished =>
      dsimp only
      have hsame : w.client.goOn termination = w.client := by simp only [ClientWorld.goOn, hs]
      rw [hsame]
      exact ⟨h.threads, h.cleared, h.logins⟩
  | failing error remaining =>
      dsimp only
      have hstage : (w.client.goOn termination).shared.stage.cleared = false := by
        cases remaining with
        | nil => simp only [ClientWorld.goOn, hs, DisconnectStage.cleared]
        | cons i rest => simp only [ClientWorld.goOn, hs, DisconnectStage.cleared]
      refine ⟨h.threads, fun hc => ?_, fun hf => ?_⟩
      · rw [hstage] at hc
        cases hc
      · rw [hf] at hstage
        cases hstage
  | _ =>
      dsimp only
      have hstage : (w.client.goOn termination).shared.stage.cleared = false := by
        simp only [ClientWorld.goOn, ClientWorld.takePending, hs, DisconnectStage.cleared]
      refine ⟨h.threads, fun hc => ?_, fun hf => ?_⟩
      · rw [hstage] at hc
        cases hc
      · rw [hf] at hstage
        cases hstage

theorem Served.actThread (h : w.Served) (hcaused : w.client.Caused) (env : PartiesEnv)
    (threadId : String) (label : ThreadLabel) : (w.act env (.thread threadId label)).Served := by
  obtain ⟨hlags, hlate⟩ := hcaused.follows env.toClientEnv
    (actThread_client env w.client (w.threads threadId) label)
  refine ⟨fun other => ?_, fun hc other => ?_, fun hf => h.logins (hlags.finished hf)⟩
  · by_cases hid : other = threadId
    · subst hid
      simp only [act, Function.update_self]
      exact (h.threads other).act env w.client label
    · simp only [act, Function.update_of_ne hid]
      exact h.threads other
  · have hbefore := hlags.cleared hc
    by_cases hid : other = threadId
    · subst hid
      simp only [act, Function.update_self]
      exact (h.cleared hbefore other).act (h.threads other) env label
    · simp only [act, Function.update_of_ne hid]
      exact (h.cleared hbefore other).mono (hlate hbefore)

/-- A call of `register_login` that passed the flag did so before the logins were drained. -/
theorem Served.actRegistration (h : w.Served) (hcaused : w.client.Caused) (env : PartiesEnv)
    (j : Nat) (label : LoginLabel) : (w.act env (.registration j label)).Served := by
  obtain ⟨hlags, hlate⟩ := hcaused.follows env.toClientEnv
    (actRegistration_client env w.client w.logins (w.registrations j) label)
  refine ⟨h.threads, fun hc threadId => ?_, fun hf id hopen => ?_⟩
  · exact (h.cleared (hlags.cleared hc) threadId).mono (hlate (hlags.cleared hc))
  · have hfinished := hlags.finished hf
    have hd := hcaused.sound.gone (by rw [hfinished]; rfl)
    have hlogins := h.logins hfinished id
    -- the call that is to complete the login goes on to be one
    have hkeep : ∀ call, (w.logins.state.Open id → (w.registrations j).At id → call.At id) →
        w.logins.state.Open id → ∃ i, (Function.update w.registrations j call i).At id := by
      intro call hcall hbefore
      obtain ⟨i, hi⟩ := hlogins hbefore
      by_cases hij : i = j
      · subst hij
        exact ⟨i, by rw [Function.update_self]; exact hcall hbefore hi⟩
      · exact ⟨i, by rw [Function.update_of_ne hij]; exact hi⟩
    cases label with
    | register loginId =>
        cases hcall : w.registrations j with
        | idle =>
            simp only [act, PartiesWorld.actRegistration, hcall] at hopen ⊢
            have hno : ∀ call : LoginCall, w.logins.state.Open id →
                (w.registrations j).At id → call.At id := by
              intro call _ hat
              rw [hcall] at hat
              rcases hat with hat | hat
              · cases hat
              · cases hat
            split_ifs at hopen ⊢
            · rcases LoginWorld.open_act hopen with hbefore | hregister
              · exact hkeep _ (hno _) hbefore
              · cases hregister
                exact ⟨j, by rw [Function.update_self]; exact .inl rfl⟩
            · exact hkeep _ (hno _) hopen
        | _ =>
            simp only [act, PartiesWorld.actRegistration, hcall] at hopen ⊢
            exact hkeep _ (fun _ hat => hcall ▸ hat) hopen
    | proceed =>
        cases hcall : w.registrations j with
        | checking loginId =>
            simp only [act, PartiesWorld.actRegistration, hcall, if_pos hd] at hopen ⊢
            refine hkeep _ (fun _ hat => ?_) hopen
            rw [hcall] at hat
            rcases hat with hat | hat
            · cases hat
              exact .inr rfl
            · cases hat
        | completing loginId =>
            simp only [act, PartiesWorld.actRegistration, hcall] at hopen ⊢
            rcases LoginWorld.open_act hopen with hbefore | hregister
            · refine hkeep _ (fun _ hat => ?_) hbefore
              rw [hcall] at hat
              rcases hat with hat | hat
              · cases hat
              · -- its own login is completed by this step
                cases hat
                exact absurd hopen (LoginWorld.not_open_complete _ _ _)
            · cases hregister
        | refusing =>
            simp only [act, PartiesWorld.actRegistration, hcall] at hopen ⊢
            refine hkeep _ (fun _ hat => ?_) hopen
            rw [hcall] at hat
            rcases hat with hat | hat
            · cases hat
            · cases hat
        | idle =>
            simp only [act, PartiesWorld.actRegistration, hcall] at hopen ⊢
            exact hkeep _ (fun _ hat => hcall ▸ hat) hopen
        | returned result =>
            simp only [act, PartiesWorld.actRegistration, hcall] at hopen ⊢
            exact hkeep _ (fun _ hat => hcall ▸ hat) hopen

theorem Served.act (h : w.Served) (hcaused : w.client.Caused) (env : PartiesEnv)
    (label : PartiesLabel) : (w.act env label).Served := by
  have hclient : ∀ l : ClientLabel, (∀ termination, l ≠ .goOn termination) →
      ({ w with client := w.client.act env.toClientEnv l } : PartiesWorld).Served := by
    intro l hl
    obtain ⟨hlags, hlate⟩ := hcaused.follows env.toClientEnv (.inr ⟨l, hl, rfl⟩)
    refine ⟨h.threads, fun hc threadId => ?_, fun hf => h.logins (hlags.finished hf)⟩
    exact (h.cleared (hlags.cleared hc) threadId).mono (hlate (hlags.cleared hc))
  cases label with
  | client label =>
      cases label with
      | goOn termination => exact h.goOn termination
      | request i label => exact hclient (.request i label) (fun _ => by simp)
      | disconnect error => exact hclient (.disconnect error) (fun _ => by simp)
      | dropOwner => exact hclient .dropOwner (fun _ => by simp)
      | beginClosing => exact hclient .beginClosing (fun _ => by simp)
      | stopProcess => exact hclient .stopProcess (fun _ => by simp)
  | thread threadId label => exact h.actThread hcaused env threadId label
  | registration j label => exact h.actRegistration hcaused env j label
  | login op =>
      simp only [PartiesWorld.act]
      split_ifs with hop
      · refine ⟨h.threads, h.cleared, fun hf id hopen => ?_⟩
        rcases LoginWorld.open_act hopen with hbefore | rfl
        · exact h.logins hf id hbefore
        · cases hop
      · exact h

theorem served_reachable (env : PartiesEnv)
    (h : (partiesMachine env).Reachable Machine.Free w) : w.Served := by
  refine h.invariant served_init (fun w label hr hw _ => ?_)
  exact hw.act (ClientWorld.caused_reachable env.toClientEnv (client_reachable env hr)) env label

/-- A call of `register_login` that finds the connection gone completes its login. -/
theorem registration_completes (env : PartiesEnv)
    (hd : w.client.shared.connection.disconnected = true) {j : Nat} {loginId : String}
    (hat : (w.registrations j).At loginId) :
    ¬ ((partiesMachine env).runFrom w
      [.registration j .proceed, .registration j .proceed]).logins.state.Open loginId := by
  simp only [Machine.runFrom_cons, Machine.runFrom_nil, partiesMachine]
  rcases hat with hcall | hcall
  · simp only [act, PartiesWorld.actRegistration, hcall, if_pos hd, Function.update_self]
    exact LoginWorld.not_open_complete _ _ _
  · simp only [act, PartiesWorld.actRegistration, hcall, Function.update_self]
    exact LoginWorld.not_open_complete _ _ _

/--
**Nobody is left behind a disconnect.** Once the disconnect is over, however its drains
interleaved with starts, registrations of logins and everybody else: its first cause is
published; every run whose handle a start returned, before or since, has its terminal or
nobody listens for it; and a login without a result is one whose call of `register_login`
has not returned, and completes it with its next two steps at the latest.
-/
theorem disconnect_leaves_nobody (env : PartiesEnv)
    (h : (partiesMachine env).Reachable Machine.Free w)
    (hf : w.client.shared.stage = .finished) :
    (∃ first failure, w.client.shared.Published first failure) ∧
    (∀ threadId run, run ∈ (w.threads threadId).handles →
      (w.threads threadId).registry.slot.Settled run) ∧
    ∀ loginId, w.logins.state.Open loginId → ∃ j, (w.registrations j).At loginId ∧
      ¬ ((partiesMachine env).runFrom w
        [.registration j .proceed, .registration j .proceed]).logins.state.Open loginId := by
  have hserved := served_reachable env h
  have hcaused := ClientWorld.caused_reachable env.toClientEnv (client_reachable env h)
  have hd := hcaused.sound.gone (by rw [hf]; rfl)
  refine ⟨?_, fun threadId run hrun => ?_, fun loginId hopen => ?_⟩
  · obtain ⟨first, failure, hpublished, -⟩ := hcaused.sound.disconnected hd
    exact ⟨first, failure, hpublished⟩
  · have hcleared := hserved.cleared (by rw [hf]; rfl) threadId
    rcases ((hserved.threads threadId).answered run (.inl hrun)).2 with hsettled | hturned
    · exact hsettled
    · exact absurd hturned (hcleared.turnless.not_turned run)
  · obtain ⟨j, hat⟩ := hserved.logins hf loginId hopen
    exact ⟨j, hat, registration_completes env hd hat⟩

/-! ## A run -/

/-- A client as in `roomyClient`, with room for one run. -/
def roomyParties : PartiesEnv where
  toClientEnv := ClientWorld.roomyClient
  eventCapacity := 4
  maximumOutputBytes := 1024
  requestTimeout := 1000

/-- A start that returns its handle, a disconnect, and a login that registers after it. -/
def disconnectedParties : List PartiesLabel :=
  [.thread "t" .begin, .thread "t" (.request 0 (.object []))]
    ++ List.replicate 11 (.client (.request 0 (.proceed .ready)))
    ++ [.client (.request 0 (.succeed (.object [("turn", .object [("id", .string "u")])]))),
      .client (.request 0 .handOver), .client (.request 0 (.proceed .ready)),
      .client (.request 0 (.proceed .ready)), .thread "t" .proceed, .thread "t" .proceed,
      .thread "t" .proceed,
      .client (.disconnect
        (Error.new .disconnected "process.stdout" "app-server stdout reached EOF"))]
    ++ List.replicate 7 (.client (.goOn ⟨none, none⟩))
    ++ [.registration 0 (.register "l")]

/-- The handle has its terminal, and the login gets its result. -/
theorem disconnected_parties_served :
    let w := (partiesMachine roomyParties).run disconnectedParties
    (w.threads "t").registry.slot.Settled 0 ∧
      ∃ j, (w.registrations j).At "l" ∧
        ¬ ((partiesMachine roomyParties).runFrom w
          [.registration j .proceed, .registration j .proceed]).logins.state.Open "l" := by
  obtain ⟨-, hruns, hlogins⟩ := disconnect_leaves_nobody roomyParties
    (Machine.reachable_run disconnectedParties) rfl
  exact ⟨hruns "t" 0 List.mem_cons_self, hlogins "l" ⟨_, rfl, rfl⟩⟩

end PartiesWorld

end Vergerail
