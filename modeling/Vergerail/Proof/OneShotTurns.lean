import Vergerail.Proof.OneShotPoints

/-!
# The turn of a one-shot run

A turn acknowledged on the thread has an owner until it ends (`Tracks`): the start that was
told of it, the handle, or one of the tasks that end it. The call that drops its start
leaves the turn to the task of `RegisteredRunGuard`, the call that drops its handle to the
task of the handle, and a task that cannot end it disconnects.
-/

namespace Vergerail

open Lib

/-! ## Who ends a turn -/

/-- The task is to end the turn: it will come across it, or has it in hand. -/
def RunTask.Ends (slot : RunSlot) (turnId : String) (run : Nat) : RunTask → Prop
  | cancelling => True
  | abandoning id n => id = turnId ∧ n = run ∧ (slot.cells run).abandoned = true
  | tracking id n => id = turnId ∧ n = run ∧ (slot.cells run).abandoned = true
  | interrupting id n => id = turnId ∧ n = run
  | failing _ => True
  | _ => False

theorem RunTask.Ends.mono {task : RunTask} {slot slot' : RunSlot} {turnId : String} {run : Nat}
    (h : task.Ends slot turnId run)
    (hmarks : (slot.cells run).abandoned = true → (slot'.cells run).abandoned = true) :
    task.Ends slot' turnId run := by
  cases task with
  | abandoning id n => exact ⟨h.1, h.2.1, hmarks h.2.2⟩
  | tracking id n => exact ⟨h.1, h.2.1, hmarks h.2.2⟩
  | _ => exact h

/-- The call starts its run, or has its handle. -/
def OneShotCall.runs : OneShotCall → Bool
  | starting _ => true
  | waiting _ _ => true
  | _ => false

namespace OneShotWorld

/-- Somebody has the turn: the start that was told of it, the handle, or a task. -/
inductive HasOwner (w : OneShotWorld) (turnId : String) (run : Nat) : Prop
  | start {known : Option String} {batch : List DeferredRunNotification} :
      w.call = .starting known → w.thread.start.ahead = .replaying run turnId batch →
      HasOwner w turnId run
  | handle : w.call = .waiting run turnId → HasOwner w turnId run
  | task (owner : RunTaskOwner) : (w.runTask owner).Ends w.slot turnId run →
      HasOwner w turnId run

/-- While the connection is there, an acknowledged turn that has not ended has an owner. -/
def Tracks (w : OneShotWorld) : Prop :=
  w.failure = none → ∀ turnId run, w.slot.turn = some (turnId, run) → w.HasOwner turnId run

variable {w w' : OneShotWorld} {turnId : String} {run : Nat}

theorem tracks_init (env : OneShotEnv) : (init env).Tracks := by
  intro _ turnId run hturn
  cases hturn

theorem tracks_of_failure (h : w.failure ≠ none) : w.Tracks := fun hnone => absurd hnone h

theorem tracks_of_turnless (h : w.failure = none → w.slot.turn = none) : w.Tracks := by
  intro hnone turnId run hturn
  rw [h hnone] at hturn
  cases hturn

/-- The entry gets no turn, the tasks stay, and a call that has a run goes on with it. -/
theorem Tracks.moves (h : w.Tracks) (hfailure : w'.failure = w.failure)
    (hcall : w.call.runs = false ∨ w'.call = w.call)
    (hstart : w'.thread.start = w.thread.start) (hfollows : w.slot.Follows w'.slot)
    (hmarks : ∀ run, (w.slot.cells run).abandoned = true → (w'.slot.cells run).abandoned = true)
    (hguard : w'.guardTask = w.guardTask) (hhandle : w'.handleTask = w.handleTask) :
    w'.Tracks := by
  intro hnone turnId run hturn
  have hidle : ∀ {call : OneShotCall}, w.call = call → call.runs = true → w'.call = call := by
    intro call hc hruns
    rcases hcall with hcall | hcall
    · rw [hc, hruns] at hcall
      cases hcall
    · exact hcall.trans hc
  cases h (hfailure ▸ hnone) turnId run (hfollows.turn _ hturn) with
  | start hc hahead => exact .start (hidle hc rfl) (by rw [hstart]; exact hahead)
  | handle hc => exact .handle (hidle hc rfl)
  | task owner hends =>
      refine .task owner ?_
      have hsame : w'.runTask owner = w.runTask owner := by
        cases owner with
        | guard => exact hguard
        | handle => exact hhandle
      rw [hsame]
      exact hends.mono (hmarks run)

/-- Only who is where changes. -/
theorem Tracks.goes (h : w.Tracks) (hthread : w'.thread = w.thread)
    (hfailure : w'.failure = w.failure) (hcall : w.call.runs = false ∨ w'.call = w.call)
    (hguard : w'.guardTask = w.guardTask) (hhandle : w'.handleTask = w.handleTask) :
    w'.Tracks := by
  have hslot : w'.slot = w.slot := by
    unfold slot
    rw [hthread]
  refine h.moves hfailure hcall (by rw [hthread]) ?_ ?_ hguard hhandle
  · rw [hslot]
    exact .refl _
  · rw [hslot]
    exact fun _ hmark => hmark

theorem Tracks.disconnect (w : OneShotWorld) (error : Error) : (w.disconnect error).Tracks :=
  tracks_of_failure (w.disconnect_failure error)

/-- Before it is over, the call alone can have a turn. -/
theorem Tracks.start (h : w.Tracks) (hk : w.Kept) {known : Option String}
    (hc : w.call = .starting known) (hnone : w.failure = none)
    (hturn : w.slot.turn = some (turnId, run)) :
    ∃ batch, w.thread.start.ahead = .replaying run turnId batch := by
  obtain ⟨hcalm, -⟩ := hk.fitsAt hc
  cases h hnone turnId run hturn with
  | start _ hahead => exact ⟨_, hahead⟩
  | handle hc' =>
      rw [hc] at hc'
      cases hc'
  | task owner hends =>
      cases owner with
      | guard => simp only [runTask, hcalm.guardTask, RunTask.Ends] at hends
      | handle => simp only [runTask, hcalm.handleTask, RunTask.Ends] at hends

theorem Tracks.handle (h : w.Tracks) (hk : w.Kept) {n : Nat} {id : String}
    (hc : w.call = .waiting n id) (hnone : w.failure = none)
    (hturn : w.slot.turn = some (turnId, run)) : n = run ∧ id = turnId := by
  obtain ⟨hcalm, -⟩ := hk.fitsAt hc
  cases h hnone turnId run hturn with
  | start hc' _ =>
      rw [hc] at hc'
      cases hc'
  | handle hc' =>
      rw [hc] at hc'
      cases hc'
      exact ⟨rfl, rfl⟩
  | task owner hends =>
      cases owner with
      | guard => simp only [runTask, hcalm.guardTask, RunTask.Ends] at hends
      | handle => simp only [runTask, hcalm.handleTask, RunTask.Ends] at hends

/-- A call that has not started its run has no turn. -/
theorem Tracks.early (h : w.Tracks) (hk : w.Kept) (hearly : w.call.early = true)
    (hidle : w.call.runs = false) (hnone : w.failure = none) : w.slot.turn = none := by
  cases hturn : w.slot.turn with
  | none => rfl
  | some p =>
      cases h hnone p.1 p.2 hturn with
      | start hc _ => rw [hc] at hidle; cases hidle
      | handle hc => rw [hc] at hidle; cases hidle
      | task owner hends =>
          have htask : w.runTask owner ≠ .none := by
            intro htask
            rw [htask] at hends
            exact hends
          have hlate := hk.task_late htask
          rw [hearly] at hlate
          cases hlate

end OneShotWorld

/-- A step of the replay goes on with its turn, or hands it out. -/
theorem ThreadCell.replay_start (env : PartiesEnv) (t : ThreadCell) (run : Nat) (turnId : String)
    (batch : List DeferredRunNotification) :
    (t.replay env run turnId batch).start = .none ∨
      ∃ batch', (t.replay env run turnId batch).start.ahead = .replaying run turnId batch' := by
  cases batch with
  | nil =>
      simp only [replay]
      split
      · exact .inr ⟨_, rfl⟩
      · exact .inl rfl
  | cons deferred batch =>
      cases deferred with
      | event observed sourceMethod event => exact .inr ⟨batch, rfl⟩
      | terminal params =>
          simp only [replay]
          split
          · exact .inr ⟨batch, rfl⟩
          · exact .inr ⟨batch, rfl⟩

/-- A start whose response names a turn goes on with it, or there is no turn. -/
theorem ThreadCell.Served.acknowledge_turn {t : ThreadCell} (h : t.Served) {run : Nat}
    {turnId : String} (hs : t.start = .acknowledging run turnId) (hturnless : t.registry.slot.turn = none) :
    (t.acknowledge run turnId).registry.slot.turn = none ∨
      ((t.acknowledge run turnId).registry.slot.turn = some (turnId, run) ∧
        ∃ batch, (t.acknowledge run turnId).start = .replaying run turnId batch) := by
  have hlatest := h.latest run (by rw [hs]; rfl)
  rw [acknowledge_registry]
  rcases t.registry.slot.acknowledgeStart_turn turnId with
    ⟨deferred, n, hreplay, hturn⟩ | ⟨-, hfollows⟩
  · refine .inr ⟨?_, deferred, ?_⟩
    · -- the turn is that of the run that was registered last
      obtain ⟨route, hroute, rfl, -⟩ := acknowledgeStart_replay h.terminal hlatest hreplay
      obtain ⟨route', hroute', rfl, -⟩ := RunSlot.turn_eq_some hturn
      rw [hroute] at hroute'
      cases hroute'
      exact hturn
    · unfold ThreadCell.acknowledge
      dsimp only
      rw [hreplay]
      rfl
  · exact .inl (hfollows.turnless hturnless)

namespace OneShotWorld

variable {w w' : OneShotWorld} {turnId : String} {run : Nat}

theorem Tracks.goOn (h : w.Tracks) (hk : w.Kept) (env : OneShotEnv) {known : Option String}
    (hc : w.call = .starting known) : (w.goOn env known).Tracks := by
  -- a start that replays nothing has no turn
  have hturnless : (∀ run turnId batch, w.thread.start.ahead ≠ .replaying run turnId batch) →
      w.failure = none → w.slot.turn = none := by
    intro hother hnone
    cases hturn : w.slot.turn with
    | none => rfl
    | some p =>
        obtain ⟨batch, hahead⟩ := h.start hk hc hnone hturn
        exact absurd hahead (hother _ _ _)
  unfold OneShotWorld.goOn
  cases hs : w.thread.start with
  | registered run =>
      have hturnless := hturnless (by simp [hs, RunStart.ahead])
      dsimp only
      split
      · exact tracks_of_turnless hturnless
      · exact tracks_of_turnless hturnless
  | failing error =>
      refine tracks_of_turnless (fun hnone => ?_)
      have hfollows := RunSlot.follows_failBeforeStart w.slot error
      simp only [OneShotWorld.slot, ThreadCell.failRegistered_registry]
      exact hfollows.turnless (hturnless (by simp [hs, RunStart.ahead]) hnone)
  | acknowledging run turnId =>
      have hturnless := hturnless (by simp [hs, RunStart.ahead])
      dsimp only
      split
      · rename_i hidle
        refine tracks_of_turnless (fun hnone => ?_)
        rcases hk.served.acknowledge_turn hs (hturnless hnone) with hgone | ⟨-, batch, hstart⟩
        · exact hgone
        · rw [hstart] at hidle
          cases hidle
      · intro hnone id n hturn
        rcases hk.served.acknowledge_turn hs (hturnless hnone) with hgone | ⟨hsome, batch, hstart⟩
        · exact absurd (hgone.symm.trans hturn) (by simp)
        · cases hsome.symm.trans hturn
          exact .start rfl (by rw [hstart]; rfl)
  | replaying run turnId batch =>
      have hsame : ∀ id n, w.failure = none →
          (w.thread.replay env.toPartiesEnv run turnId batch).registry.slot.turn = some (id, n) →
          id = turnId ∧ n = run := by
        intro id n hnone hturn
        have hbefore := (w.thread.replay_slot env.toPartiesEnv run turnId batch).1.turn _ hturn
        obtain ⟨batch', hahead⟩ := h.start hk hc hnone hbefore
        rw [hs] at hahead
        cases hahead
        exact ⟨rfl, rfl⟩
      dsimp only
      split
      · intro hnone id n hturn
        obtain ⟨rfl, rfl⟩ := hsame id n hnone hturn
        exact .handle rfl
      · rename_i hgoes
        intro hnone id n hturn
        obtain ⟨rfl, rfl⟩ := hsame id n hnone hturn
        rcases w.thread.replay_start env.toPartiesEnv n id batch with hidle | ⟨batch', hahead⟩
        · exact absurd hidle hgoes
        · exact .start hc hahead
  | disconnecting error next => exact tracks_of_failure (w.disconnect_failure error)
  | leaving error => exact tracks_of_turnless (hturnless (by simp [hs, RunStart.ahead]))
  | none => exact h
  | requesting run request => exact h

/-- Whatever the call does next, the handle it drops leaves its turn to a task. -/
theorem Tracks.dropHandle (h : w.Tracks) (hk : w.Kept) {n : Nat} {id : String}
    (hc : w.call = .waiting n id) (hfailure : w'.failure = w.failure)
    (hthread : w'.thread = (w.dropHandle n id).thread)
    (hhandle : w'.handleTask = (w.dropHandle n id).handleTask) : w'.Tracks := by
  obtain ⟨-, -, hunmarked⟩ := hk.fitsAt hc
  obtain ⟨thread, task, heq, -, -, hroute, htask⟩ := w.dropHandle_eq n id
  rw [heq] at hthread hhandle
  intro hnone turnId run hturn
  have hnone' : w.failure = none := hfailure ▸ hnone
  have hslot : w'.slot = thread.registry.slot := by
    unfold slot
    rw [hthread]
  have hbefore : w.slot.turn = some (turnId, run) := by
    rw [hslot] at hturn
    exact (RunSlot.follows_same hroute).turn _ hturn
  obtain ⟨rfl, rfl⟩ := h.handle hk hc hnone' hbefore
  obtain ⟨htask, hmarked⟩ := htask ⟨(RunSlot.turn_live hk.served.terminal hbefore).1, hunmarked⟩
  refine .task .handle ?_
  rw [hslot]
  simp only [runTask, hhandle, htask]
  exact ⟨rfl, rfl, hmarked⟩

/-- A task that goes on and still ends what it was to end. -/
theorem Tracks.setRunTask (h : w.Tracks) {task : RunTask} {owner : RunTaskOwner}
    (hends : ∀ turnId run, w.slot.turn = some (turnId, run) →
      (w.runTask owner).Ends w.slot turnId run → task.Ends w.slot turnId run) :
    (w.setRunTask task owner).Tracks := by
  have hothers : (w.setRunTask task owner).failure = w.failure ∧
      (w.setRunTask task owner).slot = w.slot ∧ (w.setRunTask task owner).call = w.call ∧
      (w.setRunTask task owner).thread = w.thread ∧
      (w.setRunTask task owner).runTask owner = task ∧
      ∀ other, other ≠ owner → (w.setRunTask task owner).runTask other = w.runTask other := by
    cases owner with
    | guard =>
        refine ⟨rfl, rfl, rfl, rfl, rfl, fun other hne => ?_⟩
        cases other with
        | guard => exact absurd rfl hne
        | handle => rfl
    | handle =>
        refine ⟨rfl, rfl, rfl, rfl, rfl, fun other hne => ?_⟩
        cases other with
        | guard => rfl
        | handle => exact absurd rfl hne
  obtain ⟨hfailure, hslot, hcall, hthread, hself, hother⟩ := hothers
  intro hnone turnId run hturn
  rw [hfailure] at hnone
  rw [hslot] at hturn
  cases h hnone turnId run hturn with
  | start hc hahead => exact .start (hcall.trans hc) (by rw [hthread]; exact hahead)
  | handle hc => exact .handle (hcall.trans hc)
  | task other hother' =>
      refine .task other ?_
      rw [hslot]
      by_cases hne : other = owner
      · subst hne
        rw [hself]
        exact hends turnId run hturn hother'
      · rw [hother other hne]
        exact hother'

/-- The cancellation of a run, by whichever task. -/
theorem Tracks.cancelRegistered (h : w.Tracks) : (w.operate .cancelRegistered).Tracks :=
  h.moves rfl (.inr rfl) rfl (RunSlot.follows_cancelRegistered _)
    (fun _ hmark => RunSlot.cancelRegistered_marked hmark) rfl rfl

theorem Tracks.stepTask (h : w.Tracks) (owner : RunTaskOwner) : (w.stepTask owner).Tracks := by
  unfold OneShotWorld.stepTask
  cases hs : w.runTask owner with
  | cancelling =>
      dsimp only
      split
      · rename_i turnId run hsome
        obtain ⟨hturn, hmarked⟩ := RunSlot.cancelRegistered_some hsome
        refine h.cancelRegistered.setRunTask (fun id n hid _ => ?_)
        cases hturn.symm.trans hid
        exact ⟨rfl, rfl, hmarked⟩
      · rename_i hgone
        refine h.cancelRegistered.setRunTask (fun id n hid _ => ?_)
        have hturnless := RunSlot.turn_of_none (RunSlot.cancelRegistered_none hgone)
        exact absurd (hturnless.symm.trans hid) (by simp)
  | abandoning turnId run =>
      dsimp only
      split_ifs with hfailed
      · intro hnone
        have hnone' : w.failure = none := by
          cases owner with
          | guard => exact hnone
          | handle => exact hnone
        rw [hnone'] at hfailed
        cases hfailed
      · refine h.setRunTask (fun id n _ hends => ?_)
        rw [hs] at hends
        exact hends
  | tracking turnId run =>
      refine h.setRunTask (fun id n hid hends => ?_)
      rw [hs] at hends
      obtain ⟨rfl, rfl, hmarked⟩ := hends
      obtain ⟨route, hroute, rfl, hown⟩ := RunSlot.turn_eq_some hid
      have htracks : w.slot.tracksAbandonedTurn turnId route.run = true := by
        unfold RunSlot.tracksAbandonedTurn
        rw [hroute]
        dsimp only
        rw [hmarked, (RunPhase.ownTurn_eq_some hown).1]
        simp
      rw [if_pos htracks]
      exact ⟨rfl, rfl⟩
  | failing error =>
      refine tracks_of_failure ?_
      cases owner with
      | guard => exact w.disconnect_failure _
      | handle => exact w.disconnect_failure _
  | _ => exact h

theorem Tracks.taskTurn (h : w.Tracks) (hk : w.Kept) (owner : RunTaskOwner)
    (ended : Result Unit) : (w.taskTurn owner ended).Tracks := by
  unfold OneShotWorld.taskTurn
  cases hs : w.runTask owner with
  | interrupting turnId run =>
      dsimp only
      split
      · rename_i u hends
        refine h.setRunTask (fun id n hid howned => ?_)
        rw [hs] at howned
        obtain ⟨rfl, rfl⟩ := howned
        exact absurd hid (turnEnds_ok hk hends)
      · exact h.setRunTask (fun _ _ _ _ => trivial)
      · exact h
  | _ => exact h

/-- The call goes on without a run, or returns. -/
theorem Tracks.finish (h : w.Tracks) (hidle : w.call.runs = false) (result : Result RunResult)
    (closed : Result Unit) : (w.finish result closed).Tracks := by
  cases closed with
  | ok _ => exact h.goes rfl rfl (.inl hidle) rfl rfl
  | error error => exact h.goes rfl rfl (.inl hidle) rfl rfl

theorem Tracks.proceed (h : w.Tracks) (hk : w.Kept) (env : OneShotEnv) :
    (w.proceed env).Tracks := by
  unfold OneShotWorld.proceed
  cases hc : w.call with
  | locking =>
      dsimp only
      split_ifs
      · exact h.goes rfl rfl (.inl (by rw [hc]; rfl)) rfl rfl
      · exact h
  | startLocking =>
      have hturnless := h.early hk (by rw [hc]; rfl) (by rw [hc]; rfl)
      obtain ⟨-, hidle⟩ := hk.fitsAt hc
      dsimp only
      split
      · exact h.goes rfl rfl (.inl (by rw [hc]; rfl)) rfl rfl
      · split_ifs
        · split
          · rename_i error herror
            obtain ⟨-, hslot⟩ := ThreadCell.begin_error hidle herror
            refine tracks_of_turnless (fun hnone => ?_)
            simp only [slot, hslot]
            exact RunSlot.startRun_turnless (hturnless hnone)
          · rename_i run hok
            obtain ⟨-, hslot⟩ := ThreadCell.begin_ok hidle hok
            refine tracks_of_turnless (fun hnone => ?_)
            simp only [slot, hslot]
            exact RunSlot.startRun_turnless (hturnless hnone)
        · exact h
  | starting known => exact h.goOn hk env hc
  | closing result =>
      have hruns : w.call.runs = false := by rw [hc]; rfl
      dsimp only
      split_ifs
      · exact h.finish hruns result _
      · exact h.goes rfl rfl (.inl hruns) rfl rfl
  | closeLocking result =>
      have hruns : w.call.runs = false := by rw [hc]; rfl
      dsimp only
      split_ifs
      · exact h.finish hruns result _
      · split
        · exact h.finish hruns result _
        · exact h.goes rfl rfl (.inl hruns) rfl rfl
      · exact h
  | _ => exact h

theorem Tracks.prepare (h : w.Tracks) (checked : Result Unit) : (w.prepare checked).Tracks := by
  unfold OneShotWorld.prepare
  cases hc : w.call with
  | preparing =>
      have hruns : w.call.runs = false := by rw [hc]; rfl
      cases checked with
      | error error => exact h.goes rfl rfl (.inl hruns) rfl rfl
      | ok _ =>
          dsimp only
          split
          · exact h.goes rfl rfl (.inl hruns) rfl rfl
          · exact h.goes rfl rfl (.inl hruns) rfl rfl
  | _ => exact h

theorem Tracks.send (h : w.Tracks) : w.send.Tracks := by
  unfold OneShotWorld.send
  split
  · rename_i hc
    exact h.goes rfl rfl (.inl (by rw [hc]; rfl)) rfl rfl
  · exact h

theorem tracks_failCreation (w : OneShotWorld) (error : Error) : (w.failCreation error).Tracks :=
  tracks_of_failure (w.disconnect_failure error)

/-- The result of `turn/start` is no acknowledgement yet. -/
theorem Tracks.takeAnswer (h : w.Tracks) (hk : w.Kept) {known : Option String}
    (hc : w.call = .starting known) {run request : Nat}
    (hs : w.thread.start = .requesting run request) (response : Result Json) :
    ({ w with thread := w.thread.takeAnswer run response } : OneShotWorld).Tracks := by
  intro hnone turnId n hturn
  simp only [slot, ThreadCell.takeAnswer_registry] at hturn
  obtain ⟨batch, hahead⟩ := h.start hk hc hnone hturn
  rw [hs] at hahead
  cases hahead

theorem Tracks.answer (h : w.Tracks) (hk : w.Kept) (env : OneShotEnv) (response : Result Json) :
    (w.answer env response).Tracks := by
  unfold OneShotWorld.answer
  split
  · rename_i hc
    have hruns : w.call.runs = false := by rw [hc]; rfl
    unfold OneShotWorld.created
    split
    · exact h.goes rfl rfl (.inl hruns) rfl rfl
    · split
      · exact tracks_failCreation w _
      · split_ifs
        · exact tracks_failCreation w _
        · exact h.goes rfl rfl (.inl hruns) rfl rfl
  · rename_i known hc
    split
    · rename_i run request hs
      exact h.takeAnswer hk hc hs response
    · exact h
  · rename_i result hc
    have hruns : w.call.runs = false := by rw [hc]; rfl
    split
    · exact h.goes rfl rfl (.inl hruns) rfl rfl
    · exact h.goes rfl rfl (.inl hruns) rfl rfl
  · exact h

theorem Tracks.giveUp (h : w.Tracks) (hk : w.Kept) (error : Error) (expired : Bool) :
    (w.giveUp error expired).Tracks := by
  unfold OneShotWorld.giveUp
  split
  · rename_i hc
    split_ifs
    · exact h.goes rfl rfl (.inl (by rw [hc]; rfl)) rfl rfl
    · exact tracks_failCreation w error
  · rename_i hc
    exact h.goes rfl rfl (.inl (by rw [hc]; rfl)) rfl rfl
  · rename_i known hc
    split
    · rename_i run request hs
      exact h.takeAnswer hk hc hs (.error error)
    · exact h
  · rename_i result hc
    exact h.goes rfl rfl (.inl (by rw [hc]; rfl)) rfl rfl
  · exact h

theorem Tracks.waitEnds (h : w.Tracks) (hk : w.Kept) (denied : Option Error) :
    (w.waitEnds denied).Tracks := by
  unfold OneShotWorld.waitEnds
  split
  · rename_i run turnId hc
    obtain ⟨thread, task, heq, -⟩ := w.dropHandle_eq run turnId
    have hfailure : (w.dropHandle run turnId).failure = w.failure := by rw [heq]
    split
    · exact h.dropHandle hk hc hfailure rfl rfl
    · exact h.dropHandle hk hc hfailure rfl rfl
    · exact h
  · exact h

theorem Tracks.dropCall (h : w.Tracks) (hk : w.Kept) : w.dropCall.Tracks := by
  unfold OneShotWorld.dropCall
  cases hc : w.call with
  | starting known =>
      dsimp only
      split
      · exact fun _ _ _ _ => .task .guard trivial
      · exact h
  | waiting run turnId =>
      obtain ⟨thread, task, heq, -⟩ := w.dropHandle_eq run turnId
      have hfailure : (w.dropHandle run turnId).failure = w.failure := by rw [heq]
      exact h.dropHandle hk hc hfailure rfl rfl
  | returned result => exact h
  | dropped => exact h
  | _ => exact h.goes rfl rfl (.inl (by rw [hc]; rfl)) rfl rfl

theorem Tracks.abort (h : w.Tracks) (refused : Bool) : (w.abort refused).Tracks := by
  unfold OneShotWorld.abort
  split_ifs
  · exact h.goes rfl rfl (.inr rfl) rfl rfl
  · exact tracks_of_failure (w.disconnect_failure _)
  · exact h

theorem Tracks.disconnectTurn (h : w.Tracks) (env : OneShotEnv) :
    (w.disconnectTurn env).Tracks := by
  unfold OneShotWorld.disconnectTurn
  split
  · exact tracks_of_failure (w.disconnect_failure _)
  · exact h

theorem Tracks.stepCleanup (h : w.Tracks) : w.stepCleanup.Tracks := by
  unfold OneShotWorld.stepCleanup
  cases hs : w.cleanup with
  | locking =>
      dsimp only
      split_ifs
      · exact h.goes rfl rfl (.inr rfl) rfl rfl
      · exact h
  | cancelling =>
      dsimp only
      split
      · exact h.cancelRegistered.goes rfl rfl (.inr rfl) rfl rfl
      · exact h.cancelRegistered.goes rfl rfl (.inr rfl) rfl rfl
  | failing error => exact tracks_of_failure (w.disconnect_failure error)
  | checkingOwner =>
      dsimp only
      split_ifs
      · exact h.goes rfl rfl (.inr rfl) rfl rfl
      · exact h.goes rfl rfl (.inr rfl) rfl rfl
  | checkingConnection =>
      dsimp only
      split_ifs
      · exact h.goes rfl rfl (.inr rfl) rfl rfl
      · exact h.goes rfl rfl (.inr rfl) rfl rfl
  | recheckingConnection =>
      dsimp only
      split_ifs
      · exact h.goes rfl rfl (.inr rfl) rfl rfl
      · exact h.goes rfl rfl (.inr rfl) rfl rfl
  | _ => exact h

theorem Tracks.cleanupTurn (h : w.Tracks) (ended : Result Unit) :
    (w.cleanupTurn ended).Tracks := by
  unfold OneShotWorld.cleanupTurn
  split
  · split
    · exact h.goes rfl rfl (.inr rfl) rfl rfl
    · exact h.goes rfl rfl (.inr rfl) rfl rfl
    · exact h
  · exact h

theorem Tracks.cleanupAnswer (h : w.Tracks) (env : OneShotEnv) (response : Result Json) :
    (w.cleanupAnswer env response).Tracks := by
  unfold OneShotWorld.cleanupAnswer
  split
  · split
    · exact h.goes rfl rfl (.inr rfl) rfl rfl
    · exact h.goes rfl rfl (.inr rfl) rfl rfl
  · exact h

theorem Tracks.stepShutdown (h : w.Tracks) (deadlineExpired : Bool) :
    (w.stepShutdown deadlineExpired).Tracks := by
  have hgoes : ∀ (lock : Option LockHolder) (tracked : Bool) (shutdown : ShutdownTask),
      ({ w with lock, tracked, shutdown } : OneShotWorld).Tracks :=
    fun _ _ _ => h.goes rfl rfl (.inr rfl) rfl rfl
  unfold OneShotWorld.stepShutdown
  cases w.shutdown with
  | checking =>
      dsimp only
      split_ifs
      · exact hgoes _ _ _
      · exact hgoes _ _ _
  | locking =>
      dsimp only
      split_ifs
      · exact hgoes _ _ _
      · exact hgoes _ _ _
      · exact h
  | visiting =>
      dsimp only
      split
      · exact hgoes _ _ _
      · exact hgoes _ _ _
  | leaving => exact hgoes _ _ _
  | terminating => exact hgoes _ _ _
  | _ => exact h

theorem Tracks.act (h : w.Tracks) (hk : w.Kept) (env : OneShotEnv) (label : OneShotLabel) :
    (w.act env label).Tracks := by
  cases label with
  | proceed => exact h.proceed hk env
  | prepare checked => exact h.prepare checked
  | send => exact h.send
  | answer response => exact h.answer hk env response
  | giveUp error expired => exact h.giveUp hk error expired
  | waitEnds denied => exact h.waitEnds hk denied
  | dropCall => exact h.dropCall hk
  | abort refused => exact h.abort refused
  | disconnectTurn => exact h.disconnectTurn env
  | task owner => exact h.stepTask owner
  | taskTurn owner ended => exact h.taskTurn hk owner ended
  | cleanup => exact h.stepCleanup
  | cleanupTurn ended => exact h.cleanupTurn ended
  | cleanupAnswer response => exact h.cleanupAnswer env response
  | close =>
      simp only [OneShotWorld.act, OneShotWorld.close]
      split
      · exact h.goes rfl rfl (.inr rfl) rfl rfl
      · exact h
  | shutdown deadlineExpired => exact h.stepShutdown deadlineExpired
  | shutdownTurn ended =>
      simp only [OneShotWorld.act, OneShotWorld.shutdownTurn]
      split
      · split
        · exact h.goes rfl rfl (.inr rfl) rfl rfl
        · exact h
      · exact h
  | shutdownAnswer response =>
      simp only [OneShotWorld.act, OneShotWorld.shutdownAnswer]
      split
      · split
        · exact h.goes rfl rfl (.inr rfl) rfl rfl
        · exact h.goes rfl rfl (.inr rfl) rfl rfl
      · exact h
  | others op =>
      simp only [OneShotWorld.act]
      split_ifs with hop
      · obtain ⟨-, hfollows, hmarks⟩ := byProvider_spares hop w.slot
        exact h.moves rfl (.inr rfl) rfl hfollows (fun run hmark => (hmarks run).trans hmark)
          rfl rfl
      · exact h
  | disconnect error => exact .disconnect w error
  | othersLock =>
      simp only [OneShotWorld.act]
      split_ifs
      · exact h.goes rfl rfl (.inr rfl) rfl rfl
      · exact h
  | othersUnlock =>
      simp only [OneShotWorld.act]
      split_ifs
      · exact h.goes rfl rfl (.inr rfl) rfl rfl
      · exact h

theorem tracks_reachable (env : OneShotEnv)
    (h : (oneShotMachine env).Reachable Machine.Free w) : w.Tracks :=
  h.invariant (tracks_init env)
    (fun _ label hr hw _ => hw.act (kept_reachable env hr) env label)

end OneShotWorld

end Vergerail
