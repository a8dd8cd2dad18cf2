import Vergerail.Client.OneShot
import Vergerail.Proof.DisconnectComplete
import Vergerail.Proof.RunningTurn

/-!
# What each point of a one-shot run relies on

`Kept` says who holds the lifecycle lock, where a start can be under way and which of the
tasks can be there, point by point. In particular nobody but the shutdown unsubscribes the
thread while a run is registered on it: `close_session` looks before it asks the provider,
`cleanup_abandoned_ephemeral_session` cancels the run and waits for its turn to end, and
both hold the lock that a start would need.
-/

namespace Vergerail

open Lib

/-! ## The lifecycle lock -/

/-- Who is at a point that needs the lock holds it. -/
structure Locked (lock : Option LockHolder) (call : OneShotCall) (cleanup : CleanupTask)
    (shutdown : ShutdownTask) : Prop where
  call : call.holds = true ↔ lock = some .call
  cleanup : cleanup.holds = true ↔ lock = some .cleanup
  shutdown : shutdown.holds = true ↔ lock = some .shutdown

namespace Locked

variable {lock : Option LockHolder} {call call' : OneShotCall} {cleanup cleanup' : CleanupTask}
  {shutdown shutdown' : ShutdownTask}

theorem callMoves (h : Locked lock call cleanup shutdown) (hsame : call'.holds = call.holds) :
    Locked lock call' cleanup shutdown :=
  ⟨by rw [hsame]; exact h.call, h.cleanup, h.shutdown⟩

theorem callTakes (h : Locked lock call cleanup shutdown) (hfree : lock.isNone = true)
    (hholds : call'.holds = true) : Locked (some .call) call' cleanup shutdown := by
  rw [Option.isNone_iff_eq_none] at hfree
  subst hfree
  exact ⟨by simp [hholds], by simpa using h.cleanup, by simpa using h.shutdown⟩

theorem callReleases (h : Locked lock call cleanup shutdown) (hholds : call.holds = true)
    (hleft : call'.holds = false) : Locked none call' cleanup shutdown := by
  obtain rfl := h.call.mp hholds
  exact ⟨by simp [hleft], by simpa using h.cleanup, by simpa using h.shutdown⟩

theorem cleanupMoves (h : Locked lock call cleanup shutdown)
    (hsame : cleanup'.holds = cleanup.holds) : Locked lock call cleanup' shutdown :=
  ⟨h.call, by rw [hsame]; exact h.cleanup, h.shutdown⟩

theorem cleanupTakes (h : Locked lock call cleanup shutdown) (hfree : lock.isNone = true)
    (hholds : cleanup'.holds = true) : Locked (some .cleanup) call cleanup' shutdown := by
  rw [Option.isNone_iff_eq_none] at hfree
  subst hfree
  exact ⟨by simpa using h.call, by simp [hholds], by simpa using h.shutdown⟩

theorem cleanupReleases (h : Locked lock call cleanup shutdown) (hholds : cleanup.holds = true)
    (hleft : cleanup'.holds = false) : Locked none call cleanup' shutdown := by
  obtain rfl := h.cleanup.mp hholds
  exact ⟨by simpa using h.call, by simp [hleft], by simpa using h.shutdown⟩

/-- The cleanup is spawned. -/
theorem spawnsCleanup (h : Locked lock call cleanup shutdown) (hclean : cleanup = .none) :
    Locked lock call .locking shutdown :=
  h.cleanupMoves (by rw [hclean]; rfl)

theorem shutdownMoves (h : Locked lock call cleanup shutdown)
    (hsame : shutdown'.holds = shutdown.holds) : Locked lock call cleanup shutdown' :=
  ⟨h.call, h.cleanup, by rw [hsame]; exact h.shutdown⟩

theorem shutdownTakes (h : Locked lock call cleanup shutdown) (hfree : lock.isNone = true)
    (hholds : shutdown'.holds = true) : Locked (some .shutdown) call cleanup shutdown' := by
  rw [Option.isNone_iff_eq_none] at hfree
  subst hfree
  exact ⟨by simpa using h.call, by simpa using h.cleanup, by simp [hholds]⟩

theorem shutdownReleases (h : Locked lock call cleanup shutdown)
    (hholds : shutdown.holds = true) (hleft : shutdown'.holds = false) :
    Locked none call cleanup shutdown' := by
  obtain rfl := h.shutdown.mp hholds
  exact ⟨by simpa using h.call, by simpa using h.cleanup, by simp [hleft]⟩

theorem othersTake (h : Locked lock call cleanup shutdown) (hfree : lock.isNone = true) :
    Locked (some .other) call cleanup shutdown := by
  rw [Option.isNone_iff_eq_none] at hfree
  subst hfree
  exact ⟨by simpa using h.call, by simpa using h.cleanup, by simpa using h.shutdown⟩

theorem othersRelease (h : Locked (some .other) call cleanup shutdown) :
    Locked none call cleanup shutdown :=
  ⟨by simpa using h.call, by simpa using h.cleanup, by simpa using h.shutdown⟩

end Locked

/-! ## What holds at each point -/

/-- The run a start is about. -/
def RunStart.Concerns (start : RunStart) (run : Nat) : Prop :=
  start.awaits = some run ∨ start.replays = some run

/-- What the cleanup knows about the thread's entry. -/
def CleanupTask.Knows (slot : RunSlot) : CleanupTask → Prop
  | .interrupting turnId run => slot.route = .none ∨ slot.turn = some (turnId, run)
  | .recheckingConnection => slot.route = .none
  | .unsubscribing => slot.route = .none
  | _ => True

/-- What the cleanup knows stays true while nobody starts a run. -/
theorem CleanupTask.Knows.follows {slot slot' : RunSlot} {cleanup : CleanupTask}
    (h : cleanup.Knows slot) (hs : slot.Follows slot') : cleanup.Knows slot' := by
  cases cleanup with
  | interrupting turnId run =>
      rcases h with h | h
      · exact .inl (hs.vacant h)
      · exact (hs.stays _ h).symm
  | recheckingConnection => exact hs.vacant h
  | unsubscribing => exact hs.vacant h
  | _ => exact trivial

/-- The call has not got past its run. -/
def OneShotCall.early : OneShotCall → Bool
  | closing _ => false
  | closeLocking _ => false
  | unsubscribing _ => false
  | returned _ => false
  | dropped => false
  | _ => true

/-- The call has returned or was dropped. -/
def OneShotCall.ended : OneShotCall → Bool
  | returned _ => true
  | dropped => true
  | _ => false

/-- No task of the call is there yet. -/
structure Calm (guardTask handleTask : RunTask) (cleanup : CleanupTask) : Prop where
  guardTask : guardTask = .none
  handleTask : handleTask = .none
  cleanup : cleanup = .none

/-- What the call relies on at a point. -/
def OneShotCall.Fits (thread : ThreadCell) (guardTask handleTask : RunTask)
    (cleanup : CleanupTask) : OneShotCall → Prop
  | starting _ => Calm guardTask handleTask cleanup ∧ ∀ run, thread.start.ahead.Concerns run →
      (thread.registry.slot.cells run).abandoned = false
  | waiting run _ => Calm guardTask handleTask cleanup ∧ thread.start = .none ∧
      (thread.registry.slot.cells run).abandoned = false
  | closing _ => thread.start = .none ∧ cleanup = .none
  | closeLocking _ => thread.start = .none ∧ cleanup = .none
  | unsubscribing _ => thread.start = .none ∧ cleanup = .none ∧
      thread.registry.slot.route = none
  | returned _ => thread.start = .none
  | dropped => thread.start = .none
  | _ => Calm guardTask handleTask cleanup ∧ thread.start = .none

namespace OneShotCall

variable {thread thread' : ThreadCell} {guardTask handleTask guardTask' handleTask' : RunTask}
  {cleanup cleanup' : CleanupTask} {call : OneShotCall}

/-- The thread's entry changes in a way that starts nothing and marks nobody. -/
theorem Fits.moves (h : call.Fits thread guardTask handleTask cleanup)
    (hstart : thread'.start = thread.start)
    (hfollows : thread.registry.slot.Follows thread'.registry.slot)
    (hmarks : thread.registry.slot.Marks thread'.registry.slot) :
    call.Fits thread' guardTask handleTask cleanup := by
  have hnone : thread.start = .none → thread'.start = .none := fun hnone => hstart.trans hnone
  cases call with
  | starting known =>
      obtain ⟨hcalm, hunmarked⟩ := h
      refine ⟨hcalm, fun run hrun => ?_⟩
      rw [hstart] at hrun
      exact (hmarks run).trans (hunmarked run hrun)
  | waiting run turnId =>
      obtain ⟨hcalm, hidle, hunmarked⟩ := h
      exact ⟨hcalm, hnone hidle, (hmarks run).trans hunmarked⟩
  | closing result => exact ⟨hnone h.1, h.2⟩
  | closeLocking result => exact ⟨hnone h.1, h.2⟩
  | unsubscribing result => exact ⟨hnone h.1, h.2.1, hfollows.vacant h.2.2⟩
  | returned result => exact hnone h
  | dropped => exact hnone h
  | _ => exact ⟨h.1, hnone h.2⟩

/-- Once the call is past its run, its tasks may move and mark its thread, too. -/
theorem Fits.late (h : call.Fits thread guardTask handleTask cleanup) (hlate : call.early = false)
    (hstart : thread'.start = thread.start)
    (hfollows : thread.registry.slot.Follows thread'.registry.slot) :
    call.Fits thread' guardTask' handleTask' cleanup := by
  cases call with
  | closing result => exact ⟨hstart.trans h.1, h.2⟩
  | closeLocking result => exact ⟨hstart.trans h.1, h.2⟩
  | unsubscribing result => exact ⟨hstart.trans h.1, h.2.1, hfollows.vacant h.2.2⟩
  | returned result => exact hstart.trans h
  | dropped => exact hstart.trans h
  | _ => cases hlate

/-- Once the call is over, only the start matters. -/
theorem Fits.over (h : call.Fits thread guardTask handleTask cleanup) (hover : call.ended = true)
    (hstart : thread'.start = thread.start) :
    call.Fits thread' guardTask' handleTask' cleanup' := by
  cases call with
  | returned result => exact hstart.trans h
  | dropped => exact hstart.trans h
  | _ => cases hover

/-- A task of the call is there, so the call is past its run. -/
theorem Fits.is_late (h : call.Fits thread guardTask handleTask cleanup)
    (htask : guardTask ≠ .none ∨ handleTask ≠ .none) : call.early = false := by
  have hcalm : ¬ Calm guardTask handleTask cleanup := by
    intro hcalm
    rcases htask with htask | htask
    · exact htask hcalm.guardTask
    · exact htask hcalm.handleTask
  cases call with
  | closing result => rfl
  | closeLocking result => rfl
  | unsubscribing result => rfl
  | returned result => rfl
  | dropped => rfl
  | _ => exact absurd h.1 hcalm

/-- The cleanup is there, so the call is over. -/
theorem Fits.is_over (h : call.Fits thread guardTask handleTask cleanup)
    (hcleanup : cleanup ≠ .none) : call.ended = true := by
  cases call with
  | returned result => rfl
  | dropped => rfl
  | closing result => exact absurd h.2 hcleanup
  | closeLocking result => exact absurd h.2 hcleanup
  | unsubscribing result => exact absurd h.2.1 hcleanup
  | _ => exact absurd h.1.cleanup hcleanup

end OneShotCall

namespace OneShotWorld

/-- What every step keeps. -/
structure Kept (w : OneShotWorld) : Prop where
  served : w.thread.Served
  locked : Locked w.lock w.call w.cleanup w.shutdown
  fits : w.call.Fits w.thread w.guardTask w.handleTask w.cleanup
  knows : w.cleanup.Knows w.slot

variable {w : OneShotWorld}

theorem kept_init (env : OneShotEnv) : (init env).Kept where
  served := ThreadCell.served_vacant env.threadId
  locked := ⟨by simp [init, OneShotCall.holds], by simp [init, CleanupTask.holds],
    by simp [init, ShutdownTask.holds]⟩
  fits := ⟨⟨rfl, rfl, rfl⟩, rfl⟩
  knows := trivial

theorem Kept.fitsAt (h : w.Kept) {call : OneShotCall} (hc : w.call = call) :
    call.Fits w.thread w.guardTask w.handleTask w.cleanup :=
  hc ▸ h.fits

theorem Kept.lockedAt (h : w.Kept) {call : OneShotCall} (hc : w.call = call) :
    Locked w.lock call w.cleanup w.shutdown :=
  hc ▸ h.locked

theorem Kept.operate (h : w.Kept) (op : RegistryOp)
    (hregister : ∀ cap bytes, op ≠ .register cap bytes)
    (hfollows : w.slot.Follows (w.slot.apply op)) (hmarks : w.slot.Marks (w.slot.apply op)) :
    (w.operate op).Kept where
  served := h.served.operate op hregister
  locked := h.locked
  fits := h.fits.moves rfl hfollows hmarks
  knows := h.knows.follows hfollows

theorem disconnect_cases (w : OneShotWorld) (error : Error) :
    (w.failure.isSome = true ∧ w.disconnect error = w) ∨ (w.failure = none ∧
      w.disconnect error = { w.operate (.failAll error) with failure := some error }) := by
  unfold disconnect
  cases w.failure with
  | none => exact .inr ⟨rfl, rfl⟩
  | some first => exact .inl ⟨rfl, rfl⟩

@[simp] theorem disconnect_call (w : OneShotWorld) (error : Error) :
    (w.disconnect error).call = w.call := by
  unfold disconnect
  split
  · rfl
  · rfl

@[simp] theorem disconnect_start (w : OneShotWorld) (error : Error) :
    (w.disconnect error).thread.start = w.thread.start := by
  unfold disconnect
  split
  · rfl
  · rfl

@[simp] theorem disconnect_cleanup (w : OneShotWorld) (error : Error) :
    (w.disconnect error).cleanup = w.cleanup := by
  unfold disconnect
  split
  · rfl
  · rfl

@[simp] theorem disconnect_guardTask (w : OneShotWorld) (error : Error) :
    (w.disconnect error).guardTask = w.guardTask := by
  unfold disconnect
  split
  · rfl
  · rfl

@[simp] theorem disconnect_handleTask (w : OneShotWorld) (error : Error) :
    (w.disconnect error).handleTask = w.handleTask := by
  unfold disconnect
  split
  · rfl
  · rfl

/-- A disconnect is on record from then on. -/
theorem disconnect_failure (w : OneShotWorld) (error : Error) :
    (w.disconnect error).failure ≠ none := by
  rcases w.disconnect_cases error with ⟨hsome, heq⟩ | ⟨-, heq⟩
  · rw [heq]
    exact Option.isSome_iff_ne_none.mp hsome
  · rw [heq]
    exact Option.some_ne_none error

theorem Kept.disconnect (h : w.Kept) (error : Error) : (w.disconnect error).Kept := by
  rcases w.disconnect_cases error with ⟨-, heq⟩ | ⟨-, heq⟩
  · rw [heq]
    exact h
  · have hdrained := h.operate (.failAll error) (fun _ _ => by simp)
      (RunSlot.follows_gone (RunSlot.failAll_route _ _)) (RunSlot.marks_failAll _ _)
    rw [heq]
    exact ⟨hdrained.served, hdrained.locked, hdrained.fits, hdrained.knows⟩

end OneShotWorld

/-! ## A start -/

namespace ThreadCell

variable {t : ThreadCell} {run n : Nat} {turnId : String}

theorem acknowledge_registry (t : ThreadCell) (run : Nat) (turnId : String) :
    (t.acknowledge run turnId).registry = (t.operate (.acknowledgeStart turnId)).registry := by
  unfold acknowledge
  dsimp only
  split
  · rfl
  · rfl
  · rfl
  · rfl
  · rfl

theorem acknowledge_concerns (h : (t.acknowledge run turnId).start.ahead.Concerns n) :
    n = run := by
  unfold acknowledge at h
  dsimp only at h
  split at h
  · rcases h with h | h
    · cases h
    · exact (Option.some.inj h).symm
  · rcases h with h | h
    · cases h
    · cases h
  · rcases h with h | h
    · cases h
    · cases h
  · rcases h with h | h
    · cases h
    · cases h
  · rcases h with h | h
    · cases h
    · cases h

theorem takeAnswer_registry (t : ThreadCell) (run : Nat) (response : Result Json) :
    (t.takeAnswer run response).registry = t.registry := by
  unfold takeAnswer
  split
  · rfl
  · split
    · rfl
    · rfl

theorem takeAnswer_concerns {response : Result Json}
    (h : (t.takeAnswer run response).start.ahead.Concerns n) : n = run := by
  unfold takeAnswer at h
  split at h
  · rcases h with h | h
    · cases h
    · cases h
  · split at h
    · rcases h with h | h
      · cases h
      · cases h
    · rcases h with h | h
      · exact (Option.some.inj h).symm
      · cases h

theorem failRegistered_registry (t : ThreadCell) (error : Error) :
    (t.failRegistered error).registry = (t.operate (.failBeforeStart error)).registry := by
  unfold failRegistered
  split
  · rfl
  · rfl

theorem failRegistered_concerns {error : Error}
    (h : (t.failRegistered error).start.ahead.Concerns n) : False := by
  unfold failRegistered at h
  split at h
  · rcases h with h | h
    · cases h
    · cases h
  · rcases h with h | h
    · cases h
    · cases h

/-- A step of the replay neither gives the entry a turn nor marks a run. -/
theorem replay_slot (env : PartiesEnv) (t : ThreadCell) (run : Nat) (turnId : String)
    (batch : List DeferredRunNotification) :
    t.registry.slot.Follows (t.replay env run turnId batch).registry.slot ∧
      t.registry.slot.Marks (t.replay env run turnId batch).registry.slot := by
  have hop : ∀ op : RegistryOp, (∀ cap bytes, op ≠ .register cap bytes) →
      (∀ turnId, op ≠ .acknowledgeStart turnId) → op ≠ .cancelRegistered →
      (∀ run, op ≠ .abandon run) →
      t.registry.slot.Follows (t.registry.slot.apply op) ∧
        t.registry.slot.Marks (t.registry.slot.apply op) := by
    intro op hregister hacknowledge hcancel habandon
    exact ⟨RunSlot.follows_apply _ hregister hacknowledge,
      RunSlot.marks_apply _ hregister hcancel habandon⟩
  cases batch with
  | nil =>
      simp only [replay]
      split
      · exact hop (.replayTransition turnId) (by simp) (by simp) (by simp) (by simp)
      · exact hop (.replayTransition turnId) (by simp) (by simp) (by simp) (by simp)
  | cons deferred batch =>
      cases deferred with
      | event observed sourceMethod event =>
          exact hop (.routeEvent (some observed) sourceMethod event false env.eventCapacity)
            (by simp) (by simp) (by simp) (by simp)
      | terminal params =>
          simp only [replay]
          split
          · exact ⟨.refl _, fun _ => rfl⟩
          · exact hop (.routeTerminal _ params false env.eventCapacity)
              (by simp) (by simp) (by simp) (by simp)

theorem replay_concerns {env : PartiesEnv} {batch : List DeferredRunNotification}
    (h : (t.replay env run turnId batch).start.ahead.Concerns n) : n = run := by
  have hstill : ∀ {start : RunStart} {batch' : List DeferredRunNotification},
      start.ahead = .replaying run turnId batch' → start.ahead.Concerns n → n = run := by
    intro start batch' hahead hn
    rw [hahead] at hn
    rcases hn with hn | hn
    · cases hn
    · exact (Option.some.inj hn).symm
  cases batch with
  | nil =>
      simp only [replay] at h
      split at h
      · exact hstill rfl h
      · rcases h with h | h
        · cases h
        · cases h
  | cons deferred batch =>
      cases deferred with
      | event observed sourceMethod event => exact hstill rfl h
      | terminal params =>
          simp only [replay] at h
          split at h
          · exact hstill rfl h
          · exact hstill rfl h

/-- A start that registers its run goes on with it. -/
theorem begin_ok {env : PartiesEnv} (hidle : t.start = .none)
    (hok : (t.registry.slot.startRun env.eventCapacity env.maximumOutputBytes).1 = .ok run) :
    (t.begin env).start = .registered run ∧ (t.begin env).registry.slot
      = (t.registry.slot.startRun env.eventCapacity env.maximumOutputBytes).2 := by
  unfold begin
  rw [hidle]
  dsimp only
  rw [hok]
  exact ⟨rfl, rfl⟩

theorem begin_error {env : PartiesEnv} {error : Error} (hidle : t.start = .none)
    (herror : (t.registry.slot.startRun env.eventCapacity env.maximumOutputBytes).1
      = .error error) :
    (t.begin env).start = .none ∧ (t.begin env).registry.slot
      = (t.registry.slot.startRun env.eventCapacity env.maximumOutputBytes).2 := by
  unfold begin
  rw [hidle]
  dsimp only
  rw [herror]
  exact ⟨hidle, rfl⟩

theorem Served.dropReceivers (h : t.Served) : t.dropReceivers.Served :=
  h.operate (.dropChannels _) (by simp)

end ThreadCell

namespace OneShotWorld

variable {w : OneShotWorld}

/-! ## What the call keeps -/

/-- The start goes on, with the run it is about. -/
theorem Kept.startsOn (h : w.Kept) {known known' : Option String}
    (hc : w.call = .starting known) {thread : ThreadCell} (hserved : thread.Served)
    (hunmarked : ∀ run, thread.start.ahead.Concerns run →
      (thread.registry.slot.cells run).abandoned = false) :
    ({ w with thread, call := .starting known' } : OneShotWorld).Kept := by
  obtain ⟨hcalm, -⟩ := h.fitsAt hc
  refine ⟨hserved, (h.lockedAt hc).callMoves rfl, ⟨hcalm, hunmarked⟩, ?_⟩
  rw [hcalm.cleanup]
  exact trivial

/-- The start returns its run. -/
theorem Kept.handOut (h : w.Kept) {known : Option String} (hc : w.call = .starting known)
    {thread : ThreadCell} {run : Nat} {turnId : String} (hserved : thread.Served)
    (hidle : thread.start = .none)
    (hunmarked : (thread.registry.slot.cells run).abandoned = false) :
    (w.handOut thread run turnId).Kept := by
  obtain ⟨hcalm, -⟩ := h.fitsAt hc
  refine ⟨hserved, (h.lockedAt hc).callReleases rfl rfl, ⟨hcalm, hidle, hunmarked⟩, ?_⟩
  rw [OneShotWorld.handOut, hcalm.cleanup]
  exact trivial

/-- The start goes on as it was. -/
theorem Kept.startsAt (h : w.Kept) {known : Option String} (hc : w.call = .starting known)
    {thread : ThreadCell} (hserved : thread.Served)
    (hunmarked : ∀ run, thread.start.ahead.Concerns run →
      (thread.registry.slot.cells run).abandoned = false) :
    ({ w with thread } : OneShotWorld).Kept := by
  have hsame : ({ w with thread } : OneShotWorld) = { w with thread, call := .starting known } := by
    rw [← hc]
  rw [hsame]
  exact h.startsOn hc hserved hunmarked

theorem Kept.goOn (h : w.Kept) (env : OneShotEnv) {known : Option String}
    (hc : w.call = .starting known) : (w.goOn env known).Kept := by
  obtain ⟨hcalm, hunmarked⟩ := h.fitsAt hc
  unfold OneShotWorld.goOn
  cases hs : w.thread.start with
  | registered run =>
      have hrun := hunmarked run (.inl (by rw [hs]; rfl))
      dsimp only
      split
      · refine h.startsAt hc (h.served.leave rfl rfl) (fun n hn => ?_)
        rcases hn with hn | hn
        · cases hn
        · cases hn
      · refine h.startsAt hc (h.served.goto (fun n hn => ?_) (fun n hn => ?_)) (fun n hn => ?_)
        · exact h.served.latest n (by rw [hs]; exact hn)
        · cases hn
        · rcases hn with hn | hn
          · cases hn
            exact hrun
          · cases hn
  | failing error =>
      refine h.startsAt hc (h.served.failRegistered error) (fun n hn => ?_)
      exact (ThreadCell.failRegistered_concerns hn).elim
  | acknowledging run turnId =>
      have hrun := hunmarked run (.inl (by rw [hs]; rfl))
      have hserved := h.served.acknowledge hs
      have hmarks : w.slot.Marks (w.slot.apply (.acknowledgeStart turnId)) :=
        RunSlot.marks_apply _ (by simp) (by simp) (by simp)
      have hunmarked : ((w.thread.acknowledge run turnId).registry.slot.cells run).abandoned
          = false := by
        rw [ThreadCell.acknowledge_registry]
        exact (hmarks run).trans hrun
      dsimp only
      split
      · rename_i hidle
        exact h.handOut hc hserved hidle hunmarked
      · refine h.startsOn hc hserved (fun n hn => ?_)
        rw [ThreadCell.acknowledge_concerns hn]
        exact hunmarked
  | replaying run turnId batch =>
      have hrun := hunmarked run (.inr (by rw [hs]; rfl))
      have hserved := h.served.replay env.toPartiesEnv hs
      have hunmarked := ((w.thread.replay_slot env.toPartiesEnv run turnId batch).2 run).trans hrun
      dsimp only
      split
      · rename_i hidle
        exact h.handOut hc hserved hidle hunmarked
      · refine h.startsAt hc hserved (fun n hn => ?_)
        rw [ThreadCell.replay_concerns hn]
        exact hunmarked
  | disconnecting error next =>
      have hdown := h.disconnect error
      have hcall : (w.disconnect error).call = .starting known := by
        rw [disconnect_call]
        exact hc
      have hahead : (w.disconnect error).thread.start.ahead = next.ahead := by
        rw [disconnect_start, hs]
        rfl
      obtain ⟨-, hstill⟩ := hdown.fitsAt hcall
      rw [hahead] at hstill
      refine hdown.startsAt hcall (hdown.served.goto (fun n hn => ?_) (fun n hn => ?_)) hstill
      · exact hdown.served.latest n (by rw [hahead]; exact hn)
      · exact .inr (by rw [hahead]; exact hn)
  | leaving error =>
      have hserved : (w.thread.goto .none).Served := h.served.leave rfl rfl
      exact ⟨hserved.dropReceivers, (h.lockedAt hc).callReleases rfl rfl, ⟨rfl, hcalm.cleanup⟩,
        h.knows.follows (RunSlot.follows_same rfl)⟩
  | none => exact h
  | requesting run request => exact h

/-- The call returns, and leaves its thread to the cleanup if it could not close it. -/
theorem Kept.finish (h : w.Kept) {lock : Option LockHolder} (hidle : w.thread.start = .none)
    (hclean : w.cleanup = .none)
    (hlocked : ∀ result, Locked lock (.returned result) w.cleanup w.shutdown)
    (result : Result RunResult) (closed : Result Unit) :
    ({ w.finish result closed with lock } : OneShotWorld).Kept := by
  cases closed with
  | ok _ => exact ⟨h.served, hlocked result, hidle, h.knows⟩
  | error error =>
      exact ⟨h.served, (hlocked _).spawnsCleanup hclean, hidle, trivial⟩

/-- A call without the lock returns so. -/
theorem Kept.finishes (h : w.Kept) (hidle : w.thread.start = .none) (hclean : w.cleanup = .none)
    (hholds : w.call.holds = false) (result : Result RunResult) (closed : Result Unit) :
    (w.finish result closed).Kept := by
  have hdone := h.finish hidle hclean (fun _ => h.locked.callMoves hholds.symm) result closed
  cases closed with
  | ok _ => exact hdone
  | error error => exact hdone

theorem Kept.proceed (h : w.Kept) (env : OneShotEnv) : (w.proceed env).Kept := by
  unfold OneShotWorld.proceed
  cases hc : w.call with
  | locking =>
      have hfits := h.fitsAt hc
      dsimp only
      split_ifs with hfree
      · exact ⟨h.served, (h.lockedAt hc).callTakes hfree rfl, hfits, h.knows⟩
      · exact h
  | startLocking =>
      obtain ⟨hcalm, hidle⟩ := h.fitsAt hc
      have hknows : ∀ slot, w.cleanup.Knows slot := by
        intro slot
        rw [hcalm.cleanup]
        exact trivial
      have hserved := h.served.begin env.toPartiesEnv
      dsimp only
      split
      · exact ⟨h.served, (h.lockedAt hc).callMoves rfl, ⟨hidle, hcalm.cleanup⟩, h.knows⟩
      · split_ifs with hfree
        · split
          · rename_i error herror
            obtain ⟨hstart, -⟩ := ThreadCell.begin_error hidle herror
            exact ⟨hserved, (h.lockedAt hc).callMoves rfl, ⟨hstart, hcalm.cleanup⟩, hknows _⟩
          · rename_i run hok
            obtain ⟨hstart, hslot⟩ := ThreadCell.begin_ok hidle hok
            refine ⟨hserved, (h.lockedAt hc).callTakes hfree rfl, ⟨hcalm, fun n hn => ?_⟩,
              hknows _⟩
            rw [hstart] at hn
            rcases hn with hn | hn
            · cases hn
              rw [hslot]
              exact RunSlot.startRun_unmarked hok
            · cases hn
        · exact h
  | starting known => exact h.goOn env hc
  | closing result =>
      obtain ⟨hidle, hclean⟩ := h.fitsAt hc
      dsimp only
      split_ifs
      · exact h.finishes hidle hclean (by rw [hc]; rfl) result _
      · exact ⟨h.served, (h.lockedAt hc).callMoves rfl, ⟨hidle, hclean⟩, h.knows⟩
  | closeLocking result =>
      obtain ⟨hidle, hclean⟩ := h.fitsAt hc
      dsimp only
      split_ifs with hfree hcontains
      · exact h.finishes hidle hclean (by rw [hc]; rfl) result _
      · split
        · exact h.finishes hidle hclean (by rw [hc]; rfl) result _
        · have hroute : w.slot.route = none := by
            unfold RunSlot.contains at hcontains
            exact Option.not_isSome_iff_eq_none.mp hcontains
          exact ⟨h.served, (h.lockedAt hc).callTakes hfree rfl, ⟨hidle, hclean, hroute⟩, h.knows⟩
      · exact h
  | _ => exact h

theorem Kept.prepare (h : w.Kept) (checked : Result Unit) : (w.prepare checked).Kept := by
  unfold OneShotWorld.prepare
  cases hc : w.call with
  | preparing =>
      obtain ⟨hcalm, hidle⟩ := h.fitsAt hc
      cases checked with
      | error error => exact ⟨h.served, (h.lockedAt hc).callReleases rfl rfl, hidle, h.knows⟩
      | ok _ =>
          dsimp only
          split
          · exact ⟨h.served, (h.lockedAt hc).callReleases rfl rfl, hidle, h.knows⟩
          · exact ⟨h.served, (h.lockedAt hc).callMoves rfl, ⟨hcalm, hidle⟩, h.knows⟩
  | _ => exact h

theorem Kept.send (h : w.Kept) : w.send.Kept := by
  unfold OneShotWorld.send
  split
  · rename_i hc
    have hfits := h.fitsAt hc
    exact ⟨h.served, (h.lockedAt hc).callMoves rfl, hfits, h.knows⟩
  · exact h

theorem Kept.failCreation (h : w.Kept) {sent : Bool} (hc : w.call = .creating sent)
    (error : Error) : (w.failCreation error).Kept := by
  have hdown := h.disconnect error
  have hcall : (w.disconnect error).call = .creating sent := by
    rw [disconnect_call]
    exact hc
  exact ⟨hdown.served, (hdown.lockedAt hcall).callReleases rfl rfl, (hdown.fitsAt hcall).2,
    hdown.knows⟩

/-- `turn/start` ends. -/
theorem Kept.takeAnswer (h : w.Kept) {known : Option String} (hc : w.call = .starting known)
    {run request : Nat} (hs : w.thread.start = .requesting run request)
    (response : Result Json) :
    ({ w with thread := w.thread.takeAnswer run response } : OneShotWorld).Kept := by
  obtain ⟨-, hunmarked⟩ := h.fitsAt hc
  refine h.startsAt hc (h.served.takeAnswer hs response) (fun n hn => ?_)
  rw [ThreadCell.takeAnswer_registry, ThreadCell.takeAnswer_concerns hn]
  exact hunmarked run (.inl (by rw [hs]; rfl))

theorem Kept.answer (h : w.Kept) (env : OneShotEnv) (response : Result Json) :
    (w.answer env response).Kept := by
  unfold OneShotWorld.answer
  split
  · rename_i hc
    obtain ⟨hcalm, hidle⟩ := h.fitsAt hc
    unfold OneShotWorld.created
    split
    · exact ⟨h.served, (h.lockedAt hc).callReleases rfl rfl, hidle, h.knows⟩
    · split
      · exact h.failCreation hc _
      · split_ifs
        · exact h.failCreation hc _
        · exact ⟨h.served, (h.lockedAt hc).callReleases rfl rfl, ⟨hcalm, hidle⟩, h.knows⟩
  · rename_i known hc
    split
    · rename_i run request hs
      exact h.takeAnswer hc hs response
    · exact h
  · rename_i result hc
    obtain ⟨hidle, hclean, -⟩ := h.fitsAt hc
    split
    · have hdone := h.finish hidle hclean (fun _ => (h.lockedAt hc).callReleases rfl rfl) result
        (.ok ())
      exact ⟨hdone.served, hdone.locked, hdone.fits, hdone.knows⟩
    · exact h.finish hidle hclean (fun _ => (h.lockedAt hc).callReleases rfl rfl) result _
  · exact h

theorem Kept.giveUp (h : w.Kept) (error : Error) (expired : Bool) :
    (w.giveUp error expired).Kept := by
  unfold OneShotWorld.giveUp
  split
  · rename_i hc
    obtain ⟨hcalm, hidle⟩ := h.fitsAt hc
    split_ifs
    · exact ⟨h.served, (h.lockedAt hc).callReleases rfl rfl, hidle, h.knows⟩
    · exact h.failCreation hc error
  · rename_i hc
    obtain ⟨hcalm, hidle⟩ := h.fitsAt hc
    exact ⟨h.served, (h.lockedAt hc).callReleases rfl rfl, hidle, h.knows⟩
  · rename_i known hc
    split
    · rename_i run request hs
      exact h.takeAnswer hc hs (.error error)
    · exact h
  · rename_i result hc
    obtain ⟨hidle, hclean, -⟩ := h.fitsAt hc
    exact h.finish hidle hclean (fun _ => (h.lockedAt hc).callReleases rfl rfl) result _
  · exact h

/-- Dropping a handle leaves a live run marked, with a task that ends it. -/
theorem dropHandle_eq (w : OneShotWorld) (run : Nat) (turnId : String) :
    ∃ thread task, w.dropHandle run turnId = { w with thread, handleTask := task } ∧
      thread.start = w.thread.start ∧ (w.thread.Served → thread.Served) ∧
      thread.registry.slot.route = w.slot.route ∧
      ((w.slot.active = true ∧ (w.slot.cells run).abandoned = false) →
        task = .abandoning turnId run ∧ (thread.registry.slot.cells run).abandoned = true) := by
  have hdrop : ∀ slot : RunSlot, slot.Marks (slot.apply (.dropChannels run)) := by
    intro slot
    exact RunSlot.marks_apply _ (by simp) (by simp) (by simp)
  unfold OneShotWorld.dropHandle
  dsimp only
  split_ifs with hlive
  · refine ⟨_, _, rfl, rfl, fun hserved => ?_, rfl, fun _ => ⟨rfl, ?_⟩⟩
    · exact (hserved.operate (.abandon run) (by simp)).operate (.dropChannels run) (by simp)
    · refine (hdrop (w.slot.apply (.abandon run)) run).trans ?_
      simp only [RunSlot.apply, RunSlot.updateCells, Function.update_self]
  · refine ⟨_, w.handleTask, rfl, rfl, fun hserved => ?_, rfl, fun hboth => ?_⟩
    · exact hserved.operate (.dropChannels run) (by simp)
    · exact absurd (by simp [hboth.1, hboth.2]) hlive

theorem Kept.waitEnds (h : w.Kept) (denied : Option Error) : (w.waitEnds denied).Kept := by
  unfold OneShotWorld.waitEnds
  split
  · rename_i run turnId hc
    obtain ⟨hcalm, hidle, -⟩ := h.fitsAt hc
    have hends : ∀ result, ({ w.dropHandle run turnId with call := .closing result } :
        OneShotWorld).Kept := by
      intro result
      obtain ⟨thread, task, heq, hstart, hserved, hroute, -⟩ := w.dropHandle_eq run turnId
      rw [heq]
      exact ⟨hserved h.served, (h.lockedAt hc).callMoves rfl, ⟨hstart.trans hidle, hcalm.cleanup⟩,
        h.knows.follows (RunSlot.follows_same hroute)⟩
    split
    · exact hends _
    · exact hends _
    · exact h
  · exact h

theorem Kept.dropCall (h : w.Kept) : w.dropCall.Kept := by
  have hreleases : ∀ {call : OneShotCall}, w.call = call → call.holds = true →
      Locked none .dropped w.cleanup w.shutdown :=
    fun hc hholds => (h.lockedAt hc).callReleases hholds rfl
  have hmoves : ∀ {call : OneShotCall}, w.call = call → call.holds = false →
      Locked w.lock .dropped w.cleanup w.shutdown :=
    fun hc hholds => (h.lockedAt hc).callMoves hholds.symm
  unfold OneShotWorld.dropCall
  split
  · rename_i hc
    exact ⟨h.served, hmoves hc rfl, (h.fitsAt hc).2, h.knows⟩
  · rename_i hc
    exact ⟨h.served, hreleases hc rfl, (h.fitsAt hc).2, h.knows⟩
  · rename_i sent hc
    exact ⟨h.served, hreleases hc rfl, (h.fitsAt hc).2, h.knows⟩
  · rename_i hc
    obtain ⟨hcalm, hidle⟩ := h.fitsAt hc
    exact ⟨h.served, (hmoves hc rfl).spawnsCleanup hcalm.cleanup, hidle, trivial⟩
  · rename_i known hc
    obtain ⟨hcalm, -⟩ := h.fitsAt hc
    split
    · rename_i hidle
      exact ⟨h.served.dropStart.dropReceivers, (hreleases hc rfl).spawnsCleanup hcalm.cleanup,
        hidle, trivial⟩
    · exact h
  · rename_i run turnId hc
    obtain ⟨hcalm, hidle, -⟩ := h.fitsAt hc
    obtain ⟨thread, task, heq, hstart, hserved, -, -⟩ := w.dropHandle_eq run turnId
    rw [heq]
    exact ⟨hserved h.served, (hmoves hc rfl).spawnsCleanup hcalm.cleanup, hstart.trans hidle,
      trivial⟩
  · rename_i result hc
    obtain ⟨hidle, hclean⟩ := h.fitsAt hc
    exact ⟨h.served, (hmoves hc rfl).spawnsCleanup hclean, hidle, trivial⟩
  · rename_i result hc
    obtain ⟨hidle, hclean⟩ := h.fitsAt hc
    exact ⟨h.served, (hmoves hc rfl).spawnsCleanup hclean, hidle, trivial⟩
  · rename_i result hc
    obtain ⟨hidle, hclean, -⟩ := h.fitsAt hc
    exact ⟨h.served, (hreleases hc rfl).spawnsCleanup hclean, hidle, trivial⟩
  · exact h

/-! ## What the tasks keep -/

theorem Kept.abort (h : w.Kept) (refused : Bool) : (w.abort refused).Kept := by
  unfold OneShotWorld.abort
  split_ifs
  · exact ⟨h.served, h.locked, h.fits, h.knows⟩
  · have hdown := fun error => h.disconnect error
    exact ⟨(hdown _).served, (hdown _).locked, (hdown _).fits, (hdown _).knows⟩
  · exact h

theorem Kept.disconnectTurn (h : w.Kept) (env : OneShotEnv) : (w.disconnectTurn env).Kept := by
  unfold OneShotWorld.disconnectTurn
  split
  · have hdown := fun error => h.disconnect error
    exact ⟨(hdown _).served, (hdown _).locked, (hdown _).fits, (hdown _).knows⟩
  · exact h

/-- A task goes on. -/
theorem Kept.setRunTask (h : w.Kept) (hlate : w.call.early = false) (task : RunTask)
    (owner : RunTaskOwner) : (w.setRunTask task owner).Kept := by
  have hfits : ∀ guardTask handleTask,
      w.call.Fits w.thread guardTask handleTask w.cleanup := by
    intro guardTask handleTask
    exact h.fits.late hlate rfl (.refl _)
  cases owner with
  | guard => exact ⟨h.served, h.locked, hfits _ _, h.knows⟩
  | handle => exact ⟨h.served, h.locked, hfits _ _, h.knows⟩

/-- The cancellation of a run by a task. -/
theorem Kept.cancelRegistered (h : w.Kept) (hlate : w.call.early = false) :
    (w.operate .cancelRegistered).Kept := by
  have hfollows := RunSlot.follows_cancelRegistered w.slot
  exact ⟨h.served.operate .cancelRegistered (by simp), h.locked, h.fits.late hlate rfl hfollows,
    h.knows.follows hfollows⟩

theorem Kept.task_late (h : w.Kept) {owner : RunTaskOwner} (htask : w.runTask owner ≠ .none) :
    w.call.early = false := by
  cases owner with
  | guard => exact h.fits.is_late (.inl htask)
  | handle => exact h.fits.is_late (.inr htask)

theorem Kept.stepTask (h : w.Kept) (owner : RunTaskOwner) : (w.stepTask owner).Kept := by
  have hlate : w.runTask owner ≠ .none → w.call.early = false := h.task_late
  unfold OneShotWorld.stepTask
  cases hs : w.runTask owner with
  | cancelling =>
      have hlate := hlate (by rw [hs]; simp)
      dsimp only
      split
      · exact (h.cancelRegistered hlate).setRunTask hlate _ owner
      · exact (h.cancelRegistered hlate).setRunTask hlate _ owner
  | abandoning turnId run => exact h.setRunTask (hlate (by rw [hs]; simp)) _ owner
  | tracking turnId run => exact h.setRunTask (hlate (by rw [hs]; simp)) _ owner
  | failing error =>
      have hlate := hlate (by rw [hs]; simp)
      refine (h.disconnect _).setRunTask ?_ _ owner
      rw [disconnect_call]
      exact hlate
  | _ => exact h

theorem Kept.taskTurn (h : w.Kept) (owner : RunTaskOwner) (ended : Result Unit) :
    (w.taskTurn owner ended).Kept := by
  have hlate : w.runTask owner ≠ .none → w.call.early = false := h.task_late
  unfold OneShotWorld.taskTurn
  cases hs : w.runTask owner with
  | interrupting turnId run =>
      have hlate := hlate (by rw [hs]; simp)
      dsimp only
      split
      · exact h.setRunTask hlate _ owner
      · exact h.setRunTask hlate _ owner
      · exact h
  | _ => exact h

/-! ## What the cleanup and the shutdown keep -/

theorem Kept.cleanedUp (h : w.Kept) (hholds : w.cleanup.holds = true) : w.cleanedUp.Kept := by
  have hover := h.fits.is_over (fun hnone => by rw [hnone] at hholds; cases hholds)
  exact ⟨h.served, h.locked.cleanupReleases hholds rfl, h.fits.over hover rfl, trivial⟩

/-- The cleanup forgets the thread. -/
theorem Kept.untracked (h : w.Kept) : ({ w with tracked := false } : OneShotWorld).Kept :=
  ⟨h.served, h.locked, h.fits, h.knows⟩

/-- The cleanup goes on, with what it knows. -/
theorem Kept.cleansOn (h : w.Kept) {cleanup : CleanupTask} (hcleanup : w.cleanup ≠ .none)
    (hsame : cleanup.holds = w.cleanup.holds) (hknows : cleanup.Knows w.slot) :
    ({ w with cleanup } : OneShotWorld).Kept :=
  ⟨h.served, h.locked.cleanupMoves hsame, h.fits.over (h.fits.is_over hcleanup) rfl, hknows⟩

theorem Kept.stepCleanup (h : w.Kept) : w.stepCleanup.Kept := by
  have hover : w.cleanup ≠ .none → w.call.ended = true := h.fits.is_over
  unfold OneShotWorld.stepCleanup
  cases hs : w.cleanup with
  | locking =>
      have hover := hover (by rw [hs]; simp)
      dsimp only
      split_ifs with hfree
      · exact ⟨h.served, h.locked.cleanupTakes hfree rfl, h.fits.over hover rfl, trivial⟩
      · exact h
  | checkingOwner =>
      dsimp only
      split_ifs
      · exact h.cleansOn (by rw [hs]; simp) (by rw [hs]; rfl) trivial
      · exact h.cleanedUp (by rw [hs]; rfl)
  | checkingConnection =>
      dsimp only
      split_ifs
      · exact h.untracked.cleanedUp (by rw [hs]; rfl)
      · exact h.cleansOn (by rw [hs]; simp) (by rw [hs]; rfl) trivial
  | cancelling =>
      have hlate : w.call.early = false := by
        have hover := hover (by rw [hs]; simp)
        cases hc : w.call with
        | returned result => rfl
        | dropped => rfl
        | _ => rw [hc] at hover; cases hover
      have hcancelled := h.cancelRegistered hlate
      dsimp only
      split
      · rename_i turnId run hsome
        exact hcancelled.cleansOn (by simp [OneShotWorld.operate, hs])
          (by simp [OneShotWorld.operate, hs, CleanupTask.holds])
          (.inr (RunSlot.cancelRegistered_some hsome).1)
      · rename_i hnone
        exact hcancelled.cleansOn (by simp [OneShotWorld.operate, hs])
          (by simp [OneShotWorld.operate, hs, CleanupTask.holds])
          (RunSlot.cancelRegistered_none hnone)
  | recheckingConnection =>
      have hknows := h.knows
      rw [hs] at hknows
      dsimp only
      split_ifs
      · exact h.untracked.cleanedUp (by rw [hs]; rfl)
      · exact h.cleansOn (by rw [hs]; simp) (by rw [hs]; rfl) hknows
  | failing error =>
      exact (h.disconnect error).cleanedUp (by rw [disconnect_cleanup, hs]; rfl)
  | _ => exact h

/-- A turn that ended is not on the thread. -/
theorem turnEnds_ok (h : w.Kept) {turnId : String} {run : Nat} {ended : Result Unit} {u : Unit}
    (hends : w.turnEnds run ended = some (.ok u)) : w.slot.turn ≠ some (turnId, run) := by
  intro hturn
  have hunobserved : (w.slot.cells run).control.providerTerminalObserved = false :=
    (RunSlot.turn_live h.served.terminal hturn).2
  unfold turnEnds at hends
  cases ended with
  | ok _ =>
      dsimp only at hends
      split_ifs at hends with hobserved
      rw [hunobserved] at hobserved
      cases hobserved
  | error error => cases hends

theorem Kept.cleanupTurn (h : w.Kept) (ended : Result Unit) : (w.cleanupTurn ended).Kept := by
  unfold OneShotWorld.cleanupTurn
  cases hs : w.cleanup with
  | interrupting turnId run =>
      have hknows := h.knows
      rw [hs] at hknows
      dsimp only
      split
      · rename_i u hends
        refine h.cleansOn (by rw [hs]; simp) (by rw [hs]; rfl) ?_
        exact hknows.resolve_right (turnEnds_ok h hends)
      · exact h.cleansOn (by rw [hs]; simp) (by rw [hs]; rfl) trivial
      · exact h
  | _ => exact h

theorem Kept.cleanupAnswer (h : w.Kept) (env : OneShotEnv) (response : Result Json) :
    (w.cleanupAnswer env response).Kept := by
  unfold OneShotWorld.cleanupAnswer
  cases hs : w.cleanup with
  | unsubscribing =>
      dsimp only
      split
      · have hdone : ({ w with tracked := false, loaded := false } : OneShotWorld).Kept :=
          ⟨h.served, h.locked, h.fits, h.knows⟩
        exact hdone.cleanedUp (by rw [hs]; rfl)
      · exact h.cleansOn (by rw [hs]; simp) (by rw [hs]; rfl) trivial
  | _ => exact h

theorem Kept.stepShutdown (h : w.Kept) (deadlineExpired : Bool) :
    (w.stepShutdown deadlineExpired).Kept := by
  have hmoves : ∀ shutdown : ShutdownTask, shutdown.holds = w.shutdown.holds →
      Locked w.lock w.call w.cleanup shutdown := fun _ hsame => h.locked.shutdownMoves hsame
  unfold OneShotWorld.stepShutdown
  cases hs : w.shutdown with
  | checking =>
      dsimp only
      split_ifs
      · exact ⟨h.served, hmoves _ (by rw [hs]; rfl), h.fits, h.knows⟩
      · exact ⟨h.served, hmoves _ (by rw [hs]; rfl), h.fits, h.knows⟩
  | locking =>
      dsimp only
      split_ifs with hfree htracked
      · exact ⟨h.served, h.locked.shutdownTakes hfree rfl, h.fits, h.knows⟩
      · exact ⟨h.served, h.locked.shutdownTakes hfree rfl, h.fits, h.knows⟩
      · exact h
  | visiting =>
      dsimp only
      split
      · exact ⟨h.served, hmoves _ (by rw [hs]; rfl), h.fits, h.knows⟩
      · exact ⟨h.served, hmoves _ (by rw [hs]; rfl), h.fits, h.knows⟩
  | leaving =>
      exact ⟨h.served, h.locked.shutdownReleases (by rw [hs]; rfl) rfl, h.fits, h.knows⟩
  | terminating => exact ⟨h.served, hmoves _ (by rw [hs]; rfl), h.fits, h.knows⟩
  | _ => exact h

theorem Kept.shutdownTurn (h : w.Kept) (ended : Result Unit) : (w.shutdownTurn ended).Kept := by
  unfold OneShotWorld.shutdownTurn
  cases hs : w.shutdown with
  | interrupting turnId run =>
      dsimp only
      split
      · exact ⟨h.served, h.locked.shutdownMoves (by rw [hs]; rfl), h.fits, h.knows⟩
      · exact h
  | _ => exact h

theorem Kept.shutdownAnswer (h : w.Kept) (env : OneShotEnv) (response : Result Json) :
    (w.shutdownAnswer env response).Kept := by
  unfold OneShotWorld.shutdownAnswer
  cases hs : w.shutdown with
  | unsubscribing =>
      dsimp only
      split
      · exact ⟨h.served, h.locked.shutdownMoves (by rw [hs]; rfl), h.fits, h.knows⟩
      · exact ⟨h.served, h.locked.shutdownMoves (by rw [hs]; rfl), h.fits, h.knows⟩
  | _ => exact h

/-- The provider starts nothing and marks nobody. -/
theorem byProvider_spares {op : RegistryOp} (hop : op.byProvider = true) (slot : RunSlot) :
    (∀ cap bytes, op ≠ .register cap bytes) ∧ slot.Follows (slot.apply op) ∧
      slot.Marks (slot.apply op) := by
  have hne : (∀ cap bytes, op ≠ .register cap bytes) ∧
      (∀ turnId, op ≠ .acknowledgeStart turnId) ∧ op ≠ .cancelRegistered ∧
      ∀ run, op ≠ .abandon run := by
    cases op with
    | routeEvent _ _ _ _ _ => simp
    | routeTerminal _ _ _ _ => simp
    | failActive _ _ _ => simp
    | _ => cases hop
  obtain ⟨hregister, hacknowledge, hcancel, habandon⟩ := hne
  exact ⟨hregister, RunSlot.follows_apply slot hregister hacknowledge,
    RunSlot.marks_apply slot hregister hcancel habandon⟩

theorem Kept.act (h : w.Kept) (env : OneShotEnv) (label : OneShotLabel) :
    (w.act env label).Kept := by
  cases label with
  | proceed => exact h.proceed env
  | prepare checked => exact h.prepare checked
  | send => exact h.send
  | answer response => exact h.answer env response
  | giveUp error expired => exact h.giveUp error expired
  | waitEnds denied => exact h.waitEnds denied
  | dropCall => exact h.dropCall
  | abort refused => exact h.abort refused
  | disconnectTurn => exact h.disconnectTurn env
  | task owner => exact h.stepTask owner
  | taskTurn owner ended => exact h.taskTurn owner ended
  | cleanup => exact h.stepCleanup
  | cleanupTurn ended => exact h.cleanupTurn ended
  | cleanupAnswer response => exact h.cleanupAnswer env response
  | close =>
      simp only [OneShotWorld.act, OneShotWorld.close]
      cases hs : w.shutdown with
      | none => exact ⟨h.served, h.locked.shutdownMoves (by rw [hs]; rfl), h.fits, h.knows⟩
      | _ => exact h
  | shutdown deadlineExpired => exact h.stepShutdown deadlineExpired
  | shutdownTurn ended => exact h.shutdownTurn ended
  | shutdownAnswer response => exact h.shutdownAnswer env response
  | others op =>
      simp only [OneShotWorld.act]
      split_ifs with hop
      · obtain ⟨hregister, hfollows, hmarks⟩ := byProvider_spares hop w.slot
        exact h.operate op hregister hfollows hmarks
      · exact h
  | disconnect error => exact h.disconnect error
  | othersLock =>
      simp only [OneShotWorld.act]
      split_ifs with hfree
      · exact ⟨h.served, h.locked.othersTake hfree, h.fits, h.knows⟩
      · exact h
  | othersUnlock =>
      simp only [OneShotWorld.act]
      split_ifs with hlock
      · have hlocked := h.locked
        rw [hlock] at hlocked
        exact ⟨h.served, hlocked.othersRelease, h.fits, h.knows⟩
      · exact h

theorem kept_reachable (env : OneShotEnv)
    (h : (oneShotMachine env).Reachable Machine.Free w) : w.Kept :=
  h.invariant (kept_init env) (fun _ label _ hw _ => hw.act env label)

end OneShotWorld

end Vergerail
