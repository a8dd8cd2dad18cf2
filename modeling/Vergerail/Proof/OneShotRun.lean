import Vergerail.Proof.OneShotTurns

/-!
# One-shot runs leave nobody behind

Wherever the future of `Codex::run` ends or is dropped, its thread has an owner until the
provider confirmed its unsubscription or the connection is gone (`Accounted`): the call, or
the cleanup that an armed `EphemeralSessionCleanupGuard` spawns. A cleanup that fails
disconnects, and so does the task of a dropped `thread/start`.
-/

namespace Vergerail

open Lib

/-! ## Who has the thread -/

/-- The call has the thread's session. -/
def OneShotCall.owns : OneShotCall → Bool
  | startLocking => true
  | starting _ => true
  | waiting _ _ => true
  | closing _ => true
  | closeLocking _ => true
  | unsubscribing _ => true
  | _ => false

/-- The cleanup is to see to the thread. -/
def CleanupTask.pending : CleanupTask → Bool
  | none => false
  | done => false
  | _ => true

/-- The shutdown is past its threads. -/
def ShutdownTask.past : ShutdownTask → Bool
  | terminating => true
  | done => true
  | _ => false

namespace OneShotWorld

/-- Somebody is to unsubscribe the thread. -/
def Owned (w : OneShotWorld) : Prop := w.call.owns = true ∨ w.cleanup.pending = true

/-- Why a thread that the provider may have created is there. -/
def Excused (w : OneShotWorld) : Prop :=
  w.call = .creating true ∨ w.aborting = true ∨ w.expired = true ∨
    (w.tracked = true ∧ w.Owned) ∨ w.shutdown.past = true

/-- While the connection is there, every thread is accounted for. -/
structure Accounted (env : OneShotEnv) (w : OneShotWorld) : Prop where
  loaded : w.failure = none → w.loaded = true → w.Excused
  tracked : w.failure = none → w.tracked = true → env.loadedBefore = true ∨ w.Owned

variable {env : OneShotEnv} {w w' : OneShotWorld}

theorem accounted_init (env : OneShotEnv) : Accounted env (init env) where
  loaded _ h := by cases h
  tracked _ h := .inl h

theorem accounted_of_failure (h : w.failure ≠ none) : Accounted env w :=
  ⟨fun hnone => absurd hnone h, fun hnone => absurd hnone h⟩

/-- Nothing changes but who has the thread, and nobody gives it up. -/
theorem Accounted.goes (h : Accounted env w) (hfailure : w'.failure = none → w.failure = none)
    (hloaded : w'.loaded = w.loaded) (htracked : w'.tracked = w.tracked)
    (hcreates : w.call = .creating true → w'.call = .creating true)
    (haborting : w'.aborting = w.aborting) (hexpired : w'.expired = w.expired)
    (howned : w.Owned → w'.Owned) (hpast : w.shutdown.past = true → w'.shutdown.past = true) :
    Accounted env w' := by
  refine ⟨fun hnone hl => ?_, fun hnone ht => ?_⟩
  · rw [hloaded] at hl
    rcases h.loaded (hfailure hnone) hl with hc | ha | he | ⟨ht, ho⟩ | hp
    · exact .inl (hcreates hc)
    · exact .inr (.inl (haborting.trans ha))
    · exact .inr (.inr (.inl (hexpired.trans he)))
    · exact .inr (.inr (.inr (.inl ⟨htracked.trans ht, howned ho⟩)))
    · exact .inr (.inr (.inr (.inr (hpast hp))))
  · rw [htracked] at ht
    exact (h.tracked (hfailure hnone) ht).imp_right howned

/-- The call moves between two points, or only the tasks that end turns move. -/
theorem Accounted.moves (h : Accounted env w) (hfailure : w'.failure = none → w.failure = none)
    (hloaded : w'.loaded = w.loaded) (htracked : w'.tracked = w.tracked)
    (hcall : w'.call = w.call ∨ w'.call.owns = true ∧ w.call ≠ .creating true)
    (haborting : w'.aborting = w.aborting) (hexpired : w'.expired = w.expired)
    (hcleanup : w'.cleanup = w.cleanup) (hshutdown : w'.shutdown = w.shutdown) :
    Accounted env w' := by
  refine h.goes hfailure hloaded htracked (fun hc => ?_) haborting hexpired (fun ho => ?_)
    (fun hp => by rw [hshutdown]; exact hp)
  · rcases hcall with hcall | ⟨-, hne⟩
    · exact hcall.trans hc
    · exact absurd hc hne
  · rcases hcall with hcall | ⟨howns, -⟩
    · rcases ho with ho | ho
      · exact .inl (by rw [hcall]; exact ho)
      · exact .inr (by rw [hcleanup]; exact ho)
    · exact .inl howns

/-- There is no thread any more. -/
theorem accounted_of_gone (hloaded : w.loaded = false)
    (htracked : w.failure = none → w.tracked = true → env.loadedBefore = true ∨ w.Owned) :
    Accounted env w where
  loaded _ hl := by
    rw [hloaded] at hl
    cases hl
  tracked := htracked

theorem accounted_disconnect (env : OneShotEnv) (w : OneShotWorld) (error : Error) :
    Accounted env (w.disconnect error) :=
  accounted_of_failure (w.disconnect_failure error)

/-- The call returns; a thread it could not close is the cleanup's. -/
theorem Accounted.fail (h : Accounted env w) (hcall : w.call ≠ .creating true)
    (result : Result RunResult) (error : Error) :
    Accounted env (w.finish result (.error error)) :=
  h.goes (fun hnone => hnone) rfl rfl (fun hc => absurd hc hcall) rfl rfl
    (fun _ => .inr rfl) (fun hp => hp)

theorem Accounted.goOn (h : Accounted env w) {known : Option String}
    (hc : w.call = .starting known) : Accounted env (w.goOn env known) := by
  have hne : w.call ≠ .creating true := by rw [hc]; simp
  unfold OneShotWorld.goOn
  cases w.thread.start with
  | registered run =>
      dsimp only
      split
      · exact h.moves (fun hnone => hnone) rfl rfl (.inl rfl) rfl rfl rfl rfl
      · exact h.moves (fun hnone => hnone) rfl rfl (.inl rfl) rfl rfl rfl rfl
  | failing error => exact h.moves (fun hnone => hnone) rfl rfl (.inl rfl) rfl rfl rfl rfl
  | acknowledging run turnId =>
      dsimp only
      split
      · exact h.moves (fun hnone => hnone) rfl rfl (.inr ⟨rfl, hne⟩) rfl rfl rfl rfl
      · exact h.moves (fun hnone => hnone) rfl rfl (.inr ⟨rfl, hne⟩) rfl rfl rfl rfl
  | replaying run turnId batch =>
      dsimp only
      split
      · exact h.moves (fun hnone => hnone) rfl rfl (.inr ⟨rfl, hne⟩) rfl rfl rfl rfl
      · exact h.moves (fun hnone => hnone) rfl rfl (.inl rfl) rfl rfl rfl rfl
  | disconnecting error next => exact accounted_of_failure (w.disconnect_failure error)
  | leaving error =>
      exact h.moves (fun hnone => hnone) rfl rfl (.inr ⟨rfl, hne⟩) rfl rfl rfl rfl
  | none => exact h
  | requesting run request => exact h

theorem Accounted.proceed (h : Accounted env w) : Accounted env (w.proceed env) := by
  unfold OneShotWorld.proceed
  cases hc : w.call with
  | locking =>
      dsimp only
      split_ifs
      · exact h.goes (fun hnone => hnone) rfl rfl (by simp [hc]) rfl rfl
          (fun ho => .inr (ho.resolve_left (by simp [hc, OneShotCall.owns]))) (fun hp => hp)
      · exact h
  | startLocking =>
      have hne : w.call ≠ .creating true := by rw [hc]; simp
      dsimp only
      split
      · exact h.moves (fun hnone => hnone) rfl rfl (.inr ⟨rfl, hne⟩) rfl rfl rfl rfl
      · split_ifs
        · split
          · exact h.moves (fun hnone => hnone) rfl rfl (.inr ⟨rfl, hne⟩) rfl rfl rfl rfl
          · exact h.moves (fun hnone => hnone) rfl rfl (.inr ⟨rfl, hne⟩) rfl rfl rfl rfl
        · exact h
  | starting known => exact h.goOn hc
  | closing result =>
      have hne : w.call ≠ .creating true := by rw [hc]; simp
      dsimp only
      split_ifs
      · exact h.fail hne result _
      · exact h.moves (fun hnone => hnone) rfl rfl (.inr ⟨rfl, hne⟩) rfl rfl rfl rfl
  | closeLocking result =>
      have hne : w.call ≠ .creating true := by rw [hc]; simp
      dsimp only
      split_ifs
      · exact h.fail hne result _
      · split
        · exact h.fail hne result _
        · exact h.moves (fun hnone => hnone) rfl rfl (.inr ⟨rfl, hne⟩) rfl rfl rfl rfl
      · exact h
  | _ => exact h

/-- The call moves on, or ends, without a session. -/
theorem Accounted.passes (h : Accounted env w) (hcall : w.call.owns = false)
    (hne : w.call ≠ .creating true) (hthread : w'.failure = w.failure)
    (hloaded : w'.loaded = w.loaded) (htracked : w'.tracked = w.tracked)
    (haborting : w.aborting = true → w'.aborting = true) (hexpired : w'.expired = w.expired)
    (hcleanup : w'.cleanup = w.cleanup) (hshutdown : w'.shutdown = w.shutdown) :
    Accounted env w' := by
  have howned : w.Owned → w'.Owned := by
    rintro (ho | ho)
    · rw [hcall] at ho
      cases ho
    · exact .inr (by rw [hcleanup]; exact ho)
  refine ⟨fun hnone hl => ?_, fun hnone ht => ?_⟩
  · rw [hloaded] at hl
    rcases h.loaded (hthread ▸ hnone) hl with hc | ha | he | ⟨ht, ho⟩ | hp
    · exact absurd hc hne
    · exact .inr (.inl (haborting ha))
    · exact .inr (.inr (.inl (hexpired.trans he)))
    · exact .inr (.inr (.inr (.inl ⟨htracked.trans ht, howned ho⟩)))
    · exact .inr (.inr (.inr (.inr (by rw [hshutdown]; exact hp))))
  · rw [htracked] at ht
    exact (h.tracked (hthread ▸ hnone) ht).imp_right howned

theorem Accounted.prepare (h : Accounted env w) (checked : Result Unit) :
    Accounted env (w.prepare checked) := by
  unfold OneShotWorld.prepare
  cases hc : w.call with
  | preparing =>
      have hcall : w.call.owns = false := by rw [hc]; rfl
      have hne : w.call ≠ .creating true := by rw [hc]; simp
      cases checked with
      | error error => exact h.passes hcall hne rfl rfl rfl (fun ha => ha) rfl rfl rfl
      | ok _ =>
          dsimp only
          split
          · exact h.passes hcall hne rfl rfl rfl (fun ha => ha) rfl rfl rfl
          · exact h.passes hcall hne rfl rfl rfl (fun ha => ha) rfl rfl rfl
  | _ => exact h

theorem Accounted.send (h : Accounted env w) : Accounted env w.send := by
  unfold OneShotWorld.send
  split
  · rename_i hc
    refine ⟨fun _ _ => .inl rfl, fun hnone ht => (h.tracked hnone ht).imp_right (fun ho => ?_)⟩
    rcases ho with ho | ho
    · rw [hc] at ho
      cases ho
    · exact .inr ho
  · exact h

/-- A thread that the call ends up with nobody for was there before. -/
theorem Accounted.unowned (h : Accounted env w) (hcall : w.call.owns = false)
    (hcleanup : w'.cleanup = w.cleanup) (hfailure : w'.failure = w.failure)
    (htracked : w'.tracked = w.tracked) :
    w'.failure = none → w'.tracked = true → env.loadedBefore = true ∨ w'.Owned := by
  intro hnone ht
  rw [htracked] at ht
  refine (h.tracked (hfailure ▸ hnone) ht).imp_right (fun ho => ?_)
  rcases ho with ho | ho
  · rw [hcall] at ho
    cases ho
  · exact .inr (by rw [hcleanup]; exact ho)

theorem Accounted.answer (h : Accounted env w) (response : Result Json) :
    Accounted env (w.answer env response) := by
  unfold OneShotWorld.answer
  split
  · rename_i hc
    have hcall : w.call.owns = false := by rw [hc]; rfl
    unfold OneShotWorld.created
    split
    · exact accounted_of_gone rfl (h.unowned hcall rfl rfl rfl)
    · split
      · exact accounted_of_failure (w.disconnect_failure _)
      · split_ifs with htracked
        · exact accounted_of_failure (w.disconnect_failure _)
        · exact ⟨fun _ _ => .inr (.inr (.inr (.inl ⟨rfl, .inl rfl⟩))), fun _ _ => .inr (.inl rfl)⟩
  · rename_i known hc
    split
    · exact h.moves (fun hnone => hnone) rfl rfl (.inl rfl) rfl rfl rfl rfl
    · exact h
  · rename_i result hc
    have hne : w.call ≠ .creating true := by rw [hc]; simp
    split
    · exact accounted_of_gone rfl (fun _ ht => by cases ht)
    · exact h.goes (fun hnone => hnone) rfl rfl (fun hc => absurd hc hne) rfl rfl
        (fun _ => .inr rfl) (fun hp => hp)
  · exact h

theorem Accounted.giveUp (h : Accounted env w) (error : Error) (expired : Bool) :
    Accounted env (w.giveUp error expired) := by
  unfold OneShotWorld.giveUp
  split
  · rename_i hc
    have hcall : w.call.owns = false := by rw [hc]; rfl
    split_ifs
    · exact ⟨fun _ _ => .inr (.inr (.inl rfl)), h.unowned hcall rfl rfl rfl⟩
    · exact accounted_of_failure (w.disconnect_failure _)
  · rename_i hc
    exact h.passes (by rw [hc]; rfl) (by rw [hc]; simp) rfl rfl rfl (fun ha => ha) rfl rfl rfl
  · rename_i known hc
    split
    · exact h.moves (fun hnone => hnone) rfl rfl (.inl rfl) rfl rfl rfl rfl
    · exact h
  · rename_i result hc
    have hne : w.call ≠ .creating true := by rw [hc]; simp
    exact h.goes (fun hnone => hnone) rfl rfl (fun hc => absurd hc hne) rfl rfl
      (fun _ => .inr rfl) (fun hp => hp)
  · exact h

theorem Accounted.waitEnds (h : Accounted env w) (denied : Option Error) :
    Accounted env (w.waitEnds denied) := by
  unfold OneShotWorld.waitEnds
  split
  · rename_i run turnId hc
    have hne : w.call ≠ .creating true := by rw [hc]; simp
    have hends : ∀ result,
        Accounted env { w.dropHandle run turnId with call := .closing result } := by
      intro result
      obtain ⟨thread, task, heq, -⟩ := w.dropHandle_eq run turnId
      rw [heq]
      exact h.moves (fun hnone => hnone) rfl rfl (.inr ⟨rfl, hne⟩) rfl rfl rfl rfl
    split
    · exact hends _
    · exact hends _
    · exact h
  · exact h

theorem Accounted.dropCall (h : Accounted env w) : Accounted env w.dropCall := by
  unfold OneShotWorld.dropCall
  cases hc : w.call with
  | locking =>
      exact h.passes (by rw [hc]; rfl) (by rw [hc]; simp) rfl rfl rfl (fun ha => ha) rfl rfl rfl
  | preparing =>
      exact h.passes (by rw [hc]; rfl) (by rw [hc]; simp) rfl rfl rfl (fun ha => ha) rfl rfl rfl
  | creating sent =>
      have hcall : w.call.owns = false := by rw [hc]; rfl
      cases sent with
      | true =>
          refine ⟨fun _ _ => .inr (.inl ?_), h.unowned hcall rfl rfl rfl⟩
          simp
      | false =>
          exact h.passes hcall (by rw [hc]; simp) rfl rfl rfl (fun ha => by simp [ha]) rfl rfl rfl
  | starting known =>
      dsimp only
      split
      · exact h.goes (fun hnone => hnone) rfl rfl (by simp [hc]) rfl rfl (fun _ => .inr rfl)
          (fun hp => hp)
      · exact h
  | waiting run turnId =>
      obtain ⟨thread, task, heq, -⟩ := w.dropHandle_eq run turnId
      dsimp only
      rw [heq]
      exact h.goes (fun hnone => hnone) rfl rfl (by simp [hc]) rfl rfl (fun _ => .inr rfl)
        (fun hp => hp)
  | returned result => exact h
  | dropped => exact h
  | _ =>
      exact h.goes (fun hnone => hnone) rfl rfl (by simp [hc]) rfl rfl (fun _ => .inr rfl)
        (fun hp => hp)

theorem Accounted.abort (h : Accounted env w) (refused : Bool) :
    Accounted env (w.abort refused) := by
  unfold OneShotWorld.abort
  split_ifs
  · exact accounted_of_gone rfl h.tracked
  · exact accounted_of_failure (w.disconnect_failure _)
  · exact h

/-- A task that ends a turn goes on. -/
theorem Accounted.setRunTask (h : Accounted env w) (task : RunTask) (owner : RunTaskOwner) :
    Accounted env (w.setRunTask task owner) := by
  cases owner with
  | guard => exact h.moves (fun hnone => hnone) rfl rfl (.inl rfl) rfl rfl rfl rfl
  | handle => exact h.moves (fun hnone => hnone) rfl rfl (.inl rfl) rfl rfl rfl rfl

theorem Accounted.operate (h : Accounted env w) (op : RegistryOp) :
    Accounted env (w.operate op) :=
  h.moves (fun hnone => hnone) rfl rfl (.inl rfl) rfl rfl rfl rfl

theorem Accounted.stepTask (h : Accounted env w) (owner : RunTaskOwner) :
    Accounted env (w.stepTask owner) := by
  unfold OneShotWorld.stepTask
  cases w.runTask owner with
  | cancelling =>
      dsimp only
      split
      · exact (h.operate .cancelRegistered).setRunTask _ owner
      · exact (h.operate .cancelRegistered).setRunTask _ owner
  | abandoning turnId run => exact h.setRunTask _ owner
  | tracking turnId run => exact h.setRunTask _ owner
  | failing error => exact (accounted_disconnect env w _).setRunTask _ owner
  | _ => exact h

theorem Accounted.taskTurn (h : Accounted env w) (owner : RunTaskOwner) (ended : Result Unit) :
    Accounted env (w.taskTurn owner ended) := by
  unfold OneShotWorld.taskTurn
  split
  · split
    · exact h.setRunTask _ owner
    · exact h.setRunTask _ owner
    · exact h
  · exact h

/-- The cleanup goes on. -/
theorem Accounted.cleansOn (h : Accounted env w) {cleanup : CleanupTask}
    (hpending : cleanup.pending = true) (lock : Option LockHolder) :
    Accounted env { w with lock, cleanup } :=
  h.goes (fun hnone => hnone) rfl rfl (fun hc => hc) rfl rfl (fun _ => .inr hpending)
    (fun hp => hp)

theorem Accounted.stepCleanup (h : Accounted env w) : Accounted env w.stepCleanup := by
  unfold OneShotWorld.stepCleanup
  cases w.cleanup with
  | locking =>
      dsimp only
      split_ifs
      · exact h.cleansOn rfl _
      · exact h
  | checkingOwner =>
      dsimp only
      split_ifs with htracked
      · exact h.cleansOn rfl _
      · -- somebody else has unsubscribed the thread
        refine ⟨fun hnone hl => ?_, fun _ ht => absurd ht htracked⟩
        rcases h.loaded hnone hl with hc | ha | he | ⟨ht, -⟩ | hp
        · exact .inl hc
        · exact .inr (.inl ha)
        · exact .inr (.inr (.inl he))
        · exact absurd ht htracked
        · exact .inr (.inr (.inr (.inr hp)))
  | checkingConnection =>
      dsimp only
      split_ifs with hfailed
      · exact accounted_of_failure (Option.isSome_iff_ne_none.mp hfailed)
      · exact h.cleansOn rfl _
  | cancelling =>
      dsimp only
      split
      · exact (h.operate .cancelRegistered).cleansOn rfl _
      · exact (h.operate .cancelRegistered).cleansOn rfl _
  | recheckingConnection =>
      dsimp only
      split_ifs with hfailed
      · exact accounted_of_failure (Option.isSome_iff_ne_none.mp hfailed)
      · exact h.cleansOn rfl _
  | failing error => exact accounted_of_failure (w.disconnect_failure error)
  | _ => exact h

theorem Accounted.cleanupTurn (h : Accounted env w) (ended : Result Unit) :
    Accounted env (w.cleanupTurn ended) := by
  unfold OneShotWorld.cleanupTurn
  split
  · split
    · exact h.cleansOn rfl _
    · exact h.cleansOn rfl _
    · exact h
  · exact h

theorem Accounted.cleanupAnswer (h : Accounted env w) (response : Result Json) :
    Accounted env (w.cleanupAnswer env response) := by
  unfold OneShotWorld.cleanupAnswer
  split
  · split
    · exact accounted_of_gone rfl (fun _ ht => by cases ht)
    · exact h.cleansOn rfl _
  · exact h

/-- The shutdown goes on with the thread as it is. -/
theorem Accounted.shutsOn (h : Accounted env w) {shutdown : ShutdownTask}
    (hpast : w.shutdown.past = true → shutdown.past = true) (lock : Option LockHolder) :
    Accounted env { w with lock, shutdown } :=
  h.goes (fun hnone => hnone) rfl rfl (fun hc => hc) rfl rfl (fun ho => ho) hpast

theorem Accounted.stepShutdown (h : Accounted env w) (deadlineExpired : Bool) :
    Accounted env (w.stepShutdown deadlineExpired) := by
  unfold OneShotWorld.stepShutdown
  cases hs : w.shutdown with
  | checking =>
      dsimp only
      split_ifs
      · exact ⟨fun _ _ => .inr (.inr (.inr (.inr rfl))), fun _ ht => by cases ht⟩
      · exact h.shutsOn (fun hp => by rw [hs] at hp; cases hp) _
  | locking =>
      dsimp only
      split_ifs
      · exact h.shutsOn (fun hp => by rw [hs] at hp; cases hp) _
      · exact h.shutsOn (fun hp => by rw [hs] at hp; cases hp) _
      · exact h
  | visiting =>
      dsimp only
      split
      · exact h.shutsOn (fun hp => by rw [hs] at hp; cases hp) _
      · exact h.shutsOn (fun hp => by rw [hs] at hp; cases hp) _
  | leaving => exact h.shutsOn (fun _ => rfl) _
  | terminating => exact h.shutsOn (fun _ => rfl) _
  | _ => exact h

theorem Accounted.act (h : Accounted env w) (label : OneShotLabel) :
    Accounted env (w.act env label) := by
  cases label with
  | proceed => exact h.proceed
  | prepare checked => exact h.prepare checked
  | send => exact h.send
  | answer response => exact h.answer response
  | giveUp error expired => exact h.giveUp error expired
  | waitEnds denied => exact h.waitEnds denied
  | dropCall => exact h.dropCall
  | abort refused => exact h.abort refused
  | disconnectTurn =>
      simp only [OneShotWorld.act, OneShotWorld.disconnectTurn]
      split
      · exact accounted_of_failure (w.disconnect_failure _)
      · exact h
  | task owner => exact h.stepTask owner
  | taskTurn owner ended => exact h.taskTurn owner ended
  | cleanup => exact h.stepCleanup
  | cleanupTurn ended => exact h.cleanupTurn ended
  | cleanupAnswer response => exact h.cleanupAnswer response
  | close =>
      simp only [OneShotWorld.act, OneShotWorld.close]
      split
      · rename_i hs
        exact h.shutsOn (fun hp => by rw [hs] at hp; cases hp) _
      · exact h
  | shutdown deadlineExpired => exact h.stepShutdown deadlineExpired
  | shutdownTurn ended =>
      simp only [OneShotWorld.act, OneShotWorld.shutdownTurn]
      split
      · rename_i turnId run hs
        split
        · exact h.shutsOn (fun hp => by rw [hs] at hp; cases hp) _
        · exact h
      · exact h
  | shutdownAnswer response =>
      simp only [OneShotWorld.act, OneShotWorld.shutdownAnswer]
      split
      · rename_i hs
        split
        · exact accounted_of_gone rfl (fun _ ht => by cases ht)
        · exact h.shutsOn (fun hp => by rw [hs] at hp; cases hp) _
      · exact h
  | others op =>
      simp only [OneShotWorld.act]
      split_ifs
      · exact h.operate op
      · exact h
  | disconnect error => exact accounted_disconnect env w error
  | othersLock =>
      simp only [OneShotWorld.act]
      split_ifs
      · exact h.moves (fun hnone => hnone) rfl rfl (.inl rfl) rfl rfl rfl rfl
      · exact h
  | othersUnlock =>
      simp only [OneShotWorld.act]
      split_ifs
      · exact h.moves (fun hnone => hnone) rfl rfl (.inl rfl) rfl rfl rfl rfl
      · exact h

theorem accounted_reachable (h : (oneShotMachine env).Reachable Machine.Free w) :
    Accounted env w :=
  h.invariant (accounted_init env) (fun _ label _ hw _ => hw.act label)

/-! ## Every run -/

/-- The call, its aborted request, its cleanup and a shutdown that began are over. -/
structure Rests (w : OneShotWorld) : Prop where
  call : w.call.ended = true
  aborting : w.aborting = false
  cleanup : w.cleanup.pending = false
  shutdown : w.shutdown = .none ∨ w.shutdown = .done

/-- `thread/unsubscribe` is under way, sent by `close_session` or by the cleanup. The one
that `ClientInner::shutdown` sends is left out: it goes out after an interrupt that failed,
too, with the run still registered. -/
def Unsubscribes (w : OneShotWorld) : Prop :=
  (∃ result, w.call = .unsubscribing result) ∨ w.cleanup = .unsubscribing

theorem Unsubscribes.vacant (h : w.Unsubscribes) (hk : w.Kept) : w.slot.contains = false := by
  have hroute : w.slot.route = none := by
    rcases h with ⟨result, hc⟩ | hs
    · exact (hk.fitsAt hc).2.2
    · have hknows := hk.knows
      rw [hs] at hknows
      exact hknows
  unfold RunSlot.contains
  rw [hroute]
  rfl

/-- Where everybody rests, nobody is excused. -/
theorem Rests.not_excused (h : w.Rests) (hopen : w.shutdown ≠ .done)
    (hexpired : w.expired = false) : ¬ w.Excused := by
  have hunowned : ¬ w.Owned := by
    intro ho
    rcases ho with ho | ho
    · have hended := h.call
      cases hc : w.call with
      | returned result => rw [hc] at ho; cases ho
      | dropped => rw [hc] at ho; cases ho
      | _ => rw [hc] at hended; cases hended
    · rw [h.cleanup] at ho
      cases ho
  intro hexcused
  rcases hexcused with hc | ha | he | ⟨-, ho⟩ | hp
  · have hended := h.call
    rw [hc] at hended
    cases hended
  · rw [h.aborting] at ha
    cases ha
  · rw [hexpired] at he
    cases he
  · exact hunowned ho
  · rcases h.shutdown with hs | hs
    · rw [hs] at hp
      cases hp
    · exact hopen hs

/--
**One-shot runs leave nobody behind.** Wherever the call of `Codex::run` ended or was
dropped, and however its guards' tasks, the provider, a shutdown and others interleaved:

* once the call, its aborted request and its cleanup are over, the connection is gone, or
  shut down, or the operation deadline cut `thread/start` off between its queueing and the
  wait for its writer; or the provider confirmed that the thread it may have created is
  unsubscribed, and the client no longer tracks it, unless another session had it before;
* neither `close_session` nor the cleanup asks the provider to unsubscribe the thread while
  a run is registered on it;
* while the connection is there, a turn that was acknowledged on the thread and has not
  ended has an owner: the start that replays it, the live handle, or a task that ends it.
-/
theorem one_shot_leaves_nobody (env : OneShotEnv)
    (h : (oneShotMachine env).Reachable Machine.Free w) :
    (w.Rests → w.failure.isSome = true ∨ w.shutdown = .done ∨ w.expired = true ∨
      w.loaded = false ∧ (w.tracked = true → env.loadedBefore = true)) ∧
    (w.Unsubscribes → w.slot.contains = false) ∧
    (w.failure = none → ∀ turnId run, w.slot.turn = some (turnId, run) →
      w.HasOwner turnId run) := by
  have hkept := kept_reachable env h
  have haccounted := accounted_reachable h
  refine ⟨fun hrests => ?_, fun hunsubscribes => hunsubscribes.vacant hkept,
    tracks_reachable env h⟩
  cases hfailure : w.failure with
  | some error => exact .inl rfl
  | none =>
      by_cases hdone : w.shutdown = .done
      · exact .inr (.inl hdone)
      · cases hexpired : w.expired with
        | true => exact .inr (.inr (.inl rfl))
        | false =>
            have hnot := hrests.not_excused hdone hexpired
            refine .inr (.inr (.inr ⟨?_, fun ht => ?_⟩))
            · by_contra hloaded
              rw [Bool.not_eq_false] at hloaded
              exact hnot (haccounted.loaded hfailure hloaded)
            · rcases haccounted.tracked hfailure ht with hbefore | howned
              · exact hbefore
              · exact absurd (.inr (.inr (.inr (.inl ⟨ht, howned⟩)))) hnot

/-! ## A run -/

/-- A run of one text input on a client with room for it. -/
def roomyRun : OneShotEnv where
  toPartiesEnv := PartiesWorld.roomyParties
  threadId := "t"
  inputs := [.text "hello"]
  inspect := fun _ => .ok ()
  validateUnsubscribe := fun _ => .ok ()
  loadedBefore := false

/-- The call is dropped while its turn runs. -/
def droppedRun : List OneShotLabel :=
  [.proceed, .prepare (.ok ()), .send,
    .answer (.ok (.object [("thread", .object [("id", .string "t")])])),
    .proceed, .proceed, .answer (.ok (.object [("turn", .object [("id", .string "u")])])),
    .proceed, .proceed, .dropCall]

/-- Its cleanup interrupts the turn and unsubscribes the thread. -/
def cleanedRun : List OneShotLabel :=
  [.cleanup, .cleanup, .cleanup, .cleanup,
    .others (.routeTerminal (.interrupted "u") (.object []) true 4),
    .cleanupTurn (.ok ()), .cleanup, .cleanupAnswer (.ok (.object []))]

/-- The dropped turn has an owner, and in the end its thread is gone. -/
theorem dropped_run_cleaned :
    ((oneShotMachine roomyRun).run droppedRun).HasOwner "u" 0 ∧
      ((oneShotMachine roomyRun).run (droppedRun ++ cleanedRun)).loaded = false := by
  obtain ⟨-, -, howner⟩ := one_shot_leaves_nobody roomyRun (Machine.reachable_run droppedRun)
  obtain ⟨hrests, -, -⟩ :=
    one_shot_leaves_nobody roomyRun (Machine.reachable_run (droppedRun ++ cleanedRun))
  refine ⟨howner rfl "u" 0 rfl, ?_⟩
  rcases hrests ⟨rfl, rfl, rfl, .inl rfl⟩ with hfailed | hdone | hexpired | ⟨hgone, -⟩
  · cases hfailed
  · cases hdone
  · cases hexpired
  · exact hgone

end OneShotWorld

end Vergerail
