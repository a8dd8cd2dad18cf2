import Vergerail.Client.GenerateImage

/-!
# A billed image is never lost silently

What has to be shown: whatever the worker, the retry loop and the guard do in whatever
order, an operation whose request may have been billed is either answered with its image
or reported with an open outcome.

The proof follows the dispatches. `WorkerAt` says, for each place of the worker, what the
current round has dispatched and which phases are possible; the phase is cancelled only
when the future is over. A phase before the dispatch means that every earlier request was
refused, so a guard that finds one has nothing to report, and a guard that finds any other
does report.
-/

namespace Vergerail

open Lib

namespace ImageOperationPhase

/-- What `cancel` decides. -/
theorem cancel_cases (phase : ImageOperationPhase) :
    (phase.isDispatched = false ∧ phase.cancel = (false, cancelledBeforeDispatch)) ∨
    (phase.isDispatched = true ∧ phase.cancel = (true, cancelledAfterDispatch)) := by
  cases phase with
  | pending => exact .inl ⟨rfl, rfl⟩
  | cancelledBeforeDispatch => exact .inl ⟨rfl, rfl⟩
  | dispatched => exact .inr ⟨rfl, rfl⟩
  | cancelledAfterDispatch => exact .inr ⟨rfl, rfl⟩
  | finished => exact .inr ⟨rfl, rfl⟩

end ImageOperationPhase

/-- The endpoint refused: 401, or another status that is not 200. -/
def Refused (answer : Option Nat) : Prop := ∃ status, answer = some status ∧ status ≠ 200

/-- The future is over. -/
def ImageCaller.IsOver : ImageCaller → Prop
  | returned _ | dropped => True
  | _ => False

namespace ImageWorld

variable {env : ImageEnv} {w : ImageWorld}

/-- A request may have been billed. -/
def Unresolved (w : ImageWorld) : Prop := ∃ answer ∈ w.dispatches, ¬Refused answer

/-- The future is over and the task of its guard, if there is one, has run. -/
def Settled (w : ImageWorld) : Prop := w.caller.IsOver ∧ ∀ error, w.task ≠ .spawned error

/-- The future returned because its worker died. -/
def AnsweredByDeath (w : ImageWorld) : Prop :=
  (∃ result, w.caller = .returned result) ∧ ∃ reason, w.worker = .ended (.died reason)

/-- The caller has the validated image. -/
def Obtained (w : ImageWorld) : Prop := ∃ response, w.caller = .returned (.ok response)

/-- The caller is told that the outcome is open. -/
def CallerTold (w : ImageWorld) : Prop :=
  ∃ error, w.caller = .returned (.error error) ∧ error.kind = .outcomeUnknown

/-- The client is disconnected; the cause is an open outcome, or somebody disconnected for
that cause before. -/
def ClientTold (w : ImageWorld) : Prop :=
  w.connection.disconnected = true ∧ ∃ failure, w.connection.failure = some failure ∧
    (failure.kind = .outcomeUnknown ∨ ∃ error ∈ w.others, error.SameCause failure)

/-! ## The worker and the phase -/

/-- Nothing of this round is dispatched. -/
def Fresh (phase : ImageOperationPhase) (isOver : Prop) : Prop :=
  phase = .pending ∨ isOver ∧ phase = .cancelledBeforeDispatch

/-- This round's request is under way. -/
def Sent (phase : ImageOperationPhase) (isOver : Prop) : Prop :=
  phase = .dispatched ∨ isOver ∧ phase = .cancelledAfterDispatch

/-- This round is over. -/
def Closed (phase : ImageOperationPhase) (isOver : Prop) : Prop :=
  phase = .finished ∨ isOver ∧ phase = .cancelledAfterDispatch

/-- What a failure of the worker says about its round. -/
def FailedAt (error : Error) (phase : ImageOperationPhase) (isOver : Prop)
    (last : List (Option Nat)) : Prop :=
  (last = [] ∧ Fresh phase isOver ∧ error.kind ≠ .outcomeUnknown) ∨
  (∃ status, last = [some status] ∧ status ≠ 200 ∧ Closed phase isOver ∧
    error.kind ≠ .outcomeUnknown) ∨
  (∃ answer, last = [answer] ∧ Sent phase isOver ∧ error.kind = .outcomeUnknown)

/-- What the worker's round has dispatched, and the phases it may find. -/
def WorkerAt (worker : ImageWorker) (phase : ImageOperationPhase) (isOver : Prop)
    (last : List (Option Nat)) : Prop :=
  match worker with
  | .idle | .queued | .encoded => last = [] ∧ Fresh phase isOver
  | .sending | .refused _ => last = [none] ∧ Sent phase isOver
  | .answered status => last = [some status] ∧ Sent phase isOver
  | .reading | .received _ | .parsed _ | .finishing _ => last = [some 200] ∧ Sent phase isOver
  | .abandoned => last = [some 200] ∧ isOver ∧ phase = .cancelledAfterDispatch
  | .ended (.returned (.ok _)) => last = [some 200] ∧ Closed phase isOver
  | .ended (.returned (.error .unauthorized)) =>
      last = [some 401] ∧ (Fresh phase isOver ∨ isOver ∧ phase = .cancelledAfterDispatch)
  | .ended (.returned (.error (.failed error))) => FailedAt error phase isOver last
  | .ended (.died _) =>
      (last = [] ∧ Fresh phase isOver) ∨ ∃ answer, last = [answer] ∧ Sent phase isOver

section Phase

variable {phase : ImageOperationPhase} {isOver : Prop} {last : List (Option Nat)}
  {worker : ImageWorker}

theorem Fresh.cancel (h : Fresh phase isOver) : Fresh phase.cancel.2 True := by
  rcases h with rfl | ⟨-, rfl⟩ <;> exact .inr ⟨trivial, rfl⟩

theorem Sent.cancel (h : Sent phase isOver) : Sent phase.cancel.2 True := by
  rcases h with rfl | ⟨-, rfl⟩ <;> exact .inr ⟨trivial, rfl⟩

theorem Closed.cancel (h : Closed phase isOver) : Closed phase.cancel.2 True := by
  rcases h with rfl | ⟨-, rfl⟩ <;> exact .inr ⟨trivial, rfl⟩

theorem Sent.finish (h : Sent phase isOver) : Closed phase.finish isOver := by
  rcases h with rfl | ⟨hover, rfl⟩
  · exact .inl rfl
  · exact .inr ⟨hover, rfl⟩

theorem Sent.reset (h : Sent phase isOver) :
    Fresh phase.resetAfterUnauthorized isOver ∨
      isOver ∧ phase.resetAfterUnauthorized = .cancelledAfterDispatch := by
  rcases h with rfl | ⟨hover, rfl⟩
  · exact .inl (.inl rfl)
  · exact .inr ⟨hover, rfl⟩

theorem Fresh.isDispatched (h : Fresh phase isOver) : phase.isDispatched = false := by
  rcases h with rfl | ⟨-, rfl⟩ <;> rfl

theorem Sent.isDispatched (h : Sent phase isOver) : phase.isDispatched = true := by
  rcases h with rfl | ⟨-, rfl⟩ <;> rfl

theorem Closed.isDispatched (h : Closed phase isOver) : phase.isDispatched = true := by
  rcases h with rfl | ⟨-, rfl⟩ <;> rfl

/-- A cancelled phase of a request under way. -/
theorem Sent.of_cancelled (h : Sent phase isOver) (hc : phase.isCancelled = true) :
    isOver ∧ phase = .cancelledAfterDispatch := by
  rcases h with rfl | h
  · simp [ImageOperationPhase.isCancelled] at hc
  · exact h

/-- Another phase, or another future, that keeps what the stages of a round allow. -/
theorem WorkerAt.imp {phase' : ImageOperationPhase} {isOver' : Prop}
    (hfresh : Fresh phase isOver → Fresh phase' isOver') (hsent : Sent phase isOver → Sent phase' isOver')
    (hclosed : Closed phase isOver → Closed phase' isOver')
    (hafter : isOver ∧ phase = .cancelledAfterDispatch → isOver' ∧ phase' = .cancelledAfterDispatch)
    (h : WorkerAt worker phase isOver last) : WorkerAt worker phase' isOver' last := by
  cases worker with
  | idle => exact ⟨h.1, hfresh h.2⟩
  | queued => exact ⟨h.1, hfresh h.2⟩
  | encoded => exact ⟨h.1, hfresh h.2⟩
  | sending => exact ⟨h.1, hsent h.2⟩
  | refused error => exact ⟨h.1, hsent h.2⟩
  | answered status => exact ⟨h.1, hsent h.2⟩
  | reading => exact ⟨h.1, hsent h.2⟩
  | received bytes => exact ⟨h.1, hsent h.2⟩
  | parsed response => exact ⟨h.1, hsent h.2⟩
  | finishing response => exact ⟨h.1, hsent h.2⟩
  | abandoned => exact ⟨h.1, hafter h.2⟩
  | ended result =>
    cases result with
    | died reason =>
        rcases h with ⟨hlast, hf⟩ | ⟨answer, hlast, hs⟩
        · exact .inl ⟨hlast, hfresh hf⟩
        · exact .inr ⟨answer, hlast, hsent hs⟩
    | returned result =>
      cases result with
      | ok response => exact ⟨h.1, hclosed h.2⟩
      | error error =>
        cases error with
        | unauthorized => exact ⟨h.1, h.2.imp hfresh hafter⟩
        | failed error =>
            rcases h with ⟨hlast, hf, hk⟩ | ⟨status, hlast, hne, hc, hk⟩ | ⟨answer, hlast, hs, hk⟩
            · exact .inl ⟨hlast, hfresh hf, hk⟩
            · exact .inr (.inl ⟨status, hlast, hne, hclosed hc, hk⟩)
            · exact .inr (.inr ⟨answer, hlast, hsent hs, hk⟩)

/-- The guard cancels. -/
theorem WorkerAt.cancel (h : WorkerAt worker phase isOver last) :
    WorkerAt worker phase.cancel.2 True last := by
  refine h.imp Fresh.cancel Sent.cancel Closed.cancel ?_
  rintro ⟨-, rfl⟩
  exact ⟨trivial, rfl⟩

/-- The future ends without its guard. -/
theorem WorkerAt.leave (h : WorkerAt worker phase False last) :
    WorkerAt worker phase True last :=
  h.imp (Or.imp_right fun h => h.1.elim) (Or.imp_right fun h => h.1.elim)
    (Or.imp_right fun h => h.1.elim) fun h => h.1.elim

/-- **The three stages of a round**: nothing dispatched, a request that may be billed, or a
request that was answered 401. -/
theorem WorkerAt.stage (h : WorkerAt worker phase isOver last) :
    (last = [] ∧ Fresh phase isOver) ∨
    (∃ answer, last = [answer] ∧ (Sent phase isOver ∨ Closed phase isOver)) ∨
    (last = [some 401] ∧ Fresh phase isOver) := by
  have hsent : ∀ {answer}, last = [answer] ∧ Sent phase isOver → ∃ answer, last = [answer] ∧
      (Sent phase isOver ∨ Closed phase isOver) := fun h => ⟨_, h.1, .inl h.2⟩
  cases worker with
  | idle => exact .inl h
  | queued => exact .inl h
  | encoded => exact .inl h
  | sending => exact .inr (.inl (hsent h))
  | refused error => exact .inr (.inl (hsent h))
  | answered status => exact .inr (.inl (hsent h))
  | reading => exact .inr (.inl (hsent h))
  | received bytes => exact .inr (.inl (hsent h))
  | parsed response => exact .inr (.inl (hsent h))
  | finishing response => exact .inr (.inl (hsent h))
  | abandoned => exact .inr (.inl (hsent ⟨h.1, .inr h.2⟩))
  | ended result =>
    cases result with
    | died reason =>
        rcases h with h | ⟨answer, h⟩
        · exact .inl h
        · exact .inr (.inl (hsent h))
    | returned result =>
      cases result with
      | ok response => exact .inr (.inl ⟨_, h.1, .inr h.2⟩)
      | error error =>
        cases error with
        | unauthorized =>
            obtain ⟨hlast, hf | hs⟩ := h
            · exact .inr (.inr ⟨hlast, hf⟩)
            · exact .inr (.inl (hsent ⟨hlast, .inr hs⟩))
        | failed error =>
            rcases h with ⟨hlast, hf, -⟩ | ⟨status, hlast, -, hc, -⟩ | ⟨answer, hlast, hs, -⟩
            · exact .inl ⟨hlast, hf⟩
            · exact .inr (.inl ⟨_, hlast, .inr hc⟩)
            · exact .inr (.inl (hsent ⟨hlast, hs⟩))

/-- A phase before the dispatch means that the round's request, if any, was refused. -/
theorem WorkerAt.refused (h : WorkerAt worker phase isOver last)
    (hphase : phase.isDispatched = false) : ∀ answer ∈ last, Refused answer := by
  rcases h.stage with ⟨rfl, -⟩ | ⟨answer, -, hs | hc⟩ | ⟨rfl, -⟩
  · simp
  · rw [hs.isDispatched] at hphase
    cases hphase
  · rw [hc.isDispatched] at hphase
    cases hphase
  · intro answer hmem
    rw [List.mem_singleton] at hmem
    exact ⟨401, hmem, by decide⟩

/-- A dispatched phase belongs to a dispatch. -/
theorem WorkerAt.ne_nil (h : WorkerAt worker phase isOver last)
    (hphase : phase.isDispatched = true) : last ≠ [] := by
  rcases h.stage with ⟨-, hf⟩ | ⟨answer, rfl, -⟩ | ⟨rfl, -⟩
  · rw [hf.isDispatched] at hphase
    cases hphase
  · simp
  · simp

theorem WorkerAt.length_le (h : WorkerAt worker phase isOver last) : last.length ≤ 1 := by
  rcases h.stage with ⟨rfl, -⟩ | ⟨answer, rfl, -⟩ | ⟨rfl, -⟩ <;> simp

/-- The phase is cancelled only when the future is over. -/
theorem WorkerAt.live (h : WorkerAt worker phase False last) : phase.isCancelled = false := by
  rcases h.stage with ⟨-, h | h⟩ | ⟨answer, -, (h | h) | (h | h)⟩ | ⟨-, h | h⟩
  · rw [h]; rfl
  · exact h.1.elim
  · rw [h]; rfl
  · exact h.1.elim
  · rw [h]; rfl
  · exact h.1.elim
  · rw [h]; rfl
  · exact h.1.elim

end Phase

/-! ## What the worker does -/

/-- There is no worker, or it has ended. -/
def Stopped (w : ImageWorld) : Prop := w.worker = .idle ∨ ∃ result, w.worker = .ended result

theorem stopped_of_ite {after : Bool} {result : WorkerEnd}
    (h : w.worker = if after then .ended result else .idle) : w.Stopped := by
  cases after with
  | false => exact .inl h
  | true => exact .inr ⟨result, h⟩

/-- A move of the worker. -/
structure WorkerMoves (w w' : ImageWorld) (isOver : Prop) (pre : List (Option Nat)) : Prop where
  caller : w'.caller = w.caller
  task : w'.task = w.task
  connection : w'.connection = w.connection
  forced : w'.forced = w.forced
  authErrors : w'.authErrors = w.authErrors
  others : w'.others = w.others
  idle : w'.worker = .idle → w.worker = .idle
  stopped : w.Stopped → w' = w
  grows : w.dispatches ≠ [] → w'.dispatches ≠ []
  cancelled : w'.phase.isCancelled = w.phase.isCancelled
  cancelledPhase : w.phase.isCancelled = true → w'.phase = w.phase
  round : ∃ last, w'.dispatches = pre ++ last ∧ WorkerAt w'.worker w'.phase isOver last

section Moves

variable {isOver : Prop} {pre last : List (Option Nat)}

/-- A move that leaves the phase and the dispatches alone. -/
theorem workerMoves_stay {worker : ImageWorker} (hidle : worker ≠ .idle)
    (hended : ¬w.Stopped) (hd : w.dispatches = pre ++ last)
    (h : WorkerAt worker w.phase isOver last) : WorkerMoves w { w with worker } isOver pre where
  caller := rfl
  task := rfl
  connection := rfl
  forced := rfl
  authErrors := rfl
  others := rfl
  idle := fun h => absurd h hidle
  stopped := fun h => absurd h hended
  grows := id
  cancelled := rfl
  cancelledPhase := fun _ => rfl
  round := ⟨last, hd, h⟩

/-- A move that leaves everything alone. -/
theorem workerMoves_refl (hd : w.dispatches = pre ++ last)
    (h : WorkerAt w.worker w.phase isOver last) : WorkerMoves w w isOver pre where
  caller := rfl
  task := rfl
  connection := rfl
  forced := rfl
  authErrors := rfl
  others := rfl
  idle := id
  stopped := fun _ => rfl
  grows := id
  cancelled := rfl
  cancelledPhase := fun _ => rfl
  round := ⟨last, hd, h⟩

/-- A move that ends the worker and moves the phase on. -/
theorem workerMoves_phase {worker : ImageWorker} {phase : ImageOperationPhase}
    {dispatches last' : List (Option Nat)} (hidle : worker ≠ .idle)
    (hended : ¬w.Stopped) (hlast : last' ≠ [])
    (hcancelled : phase.isCancelled = w.phase.isCancelled)
    (hphase : w.phase.isCancelled = true → phase = w.phase) (hd : dispatches = pre ++ last')
    (h : WorkerAt worker phase isOver last') :
    WorkerMoves w { w with worker, phase, dispatches } isOver pre where
  caller := rfl
  task := rfl
  connection := rfl
  forced := rfl
  authErrors := rfl
  others := rfl
  idle := fun h => absurd h hidle
  stopped := fun h => absurd h hended
  grows := fun _ => by rw [hd]; simp [hlast]
  cancelled := hcancelled
  cancelledPhase := hphase
  round := ⟨last', hd, h⟩

theorem work_sending (hs : w.worker = .sending) (event : WorkerEvent)
    (hd : w.dispatches = pre ++ last) (h : WorkerAt w.worker w.phase isOver last) :
    WorkerMoves w (w.work env event) isOver pre := by
  have hended : ¬w.Stopped := by simp [Stopped, hs]
  obtain ⟨hlast, hsent⟩ : last = [none] ∧ Sent w.phase isOver := by rw [hs] at h; exact h
  subst hlast
  cases event with
  | go =>
      simp only [work, hs]
      exact workerMoves_refl hd h
  | body bytes =>
      simp only [work, hs]
      exact workerMoves_refl hd h
  | response status =>
    cases status with
    | error error =>
        simp only [work, hs]
        exact workerMoves_stay (by simp) hended hd ⟨rfl, hsent⟩
    | ok status =>
        simp only [work, hs]
        refine workerMoves_phase (by simp) hended (by simp) rfl (fun _ => rfl) ?_ ⟨rfl, hsent⟩
        rw [hd, List.dropLast_concat]

theorem work_answered {status : Nat} (hs : w.worker = .answered status) (event : WorkerEvent)
    (hd : w.dispatches = pre ++ last) (h : WorkerAt w.worker w.phase isOver last) :
    WorkerMoves w (w.work env event) isOver pre := by
  have hended : ¬w.Stopped := by simp [Stopped, hs]
  obtain ⟨hlast, hsent⟩ : last = [some status] ∧ Sent w.phase isOver := by rw [hs] at h; exact h
  subst hlast
  simp only [work, hs]
  split
  · rename_i h401
    subst h401
    refine workerMoves_phase (by simp) hended (by simp) ?_ ?_ hd ⟨rfl, hsent.reset⟩
    · rcases hsent with hp | ⟨-, hp⟩ <;> rw [hp] <;> rfl
    · rcases hsent with hp | ⟨-, hp⟩ <;> rw [hp] <;> simp [ImageOperationPhase.isCancelled,
        ImageOperationPhase.resetAfterUnauthorized]
  · split
    · rename_i hne
      refine workerMoves_phase (by simp) hended (by simp) ?_ ?_ hd
        (.inr (.inl ⟨status, rfl, hne, hsent.finish, by simp [Error.new]⟩))
      · rcases hsent with hp | ⟨-, hp⟩ <;> rw [hp] <;> rfl
      · rcases hsent with hp | ⟨-, hp⟩ <;> rw [hp] <;> simp [ImageOperationPhase.isCancelled,
          ImageOperationPhase.finish]
    · rename_i h200
      have h200 : status = 200 := by simpa using h200
      subst h200
      exact workerMoves_stay (by simp) hended hd ⟨rfl, hsent⟩

/-- A worker that reads or validates the answer. -/
theorem work_reading (event : WorkerEvent) (hsent : Sent w.phase isOver)
    (hd : w.dispatches = pre ++ [some 200])
    (hs : w.worker = .reading ∨ (∃ bytes, w.worker = .received bytes) ∨
      (∃ response, w.worker = .parsed response) ∨ ∃ response, w.worker = .finishing response) :
    WorkerMoves w (w.work env event) isOver pre := by
  have hended : ¬w.Stopped := by
    rcases hs with hs | ⟨_, hs⟩ | ⟨_, hs⟩ | ⟨_, hs⟩ <;> simp [Stopped, hs]
  have hfailed : ∀ error : Error, error.kind = .outcomeUnknown →
      WorkerMoves w (w.endWorker (.error (.failed error))) isOver pre := fun error hk =>
    workerMoves_stay (by simp) hended hd (.inr (.inr ⟨_, rfl, hsent, hk⟩))
  have habandoned : w.phase.isCancelled = true →
      WorkerMoves w { w with worker := .abandoned } isOver pre := fun hc =>
    workerMoves_stay (by simp) hended hd ⟨rfl, hsent.of_cancelled hc⟩
  rcases hs with hs | ⟨bytes, hs⟩ | ⟨response, hs⟩ | ⟨response, hs⟩
  · have hat : WorkerAt w.worker w.phase isOver [some 200] := by rw [hs]; exact ⟨rfl, hsent⟩
    cases event with
    | go =>
        simp only [work, hs]
        exact workerMoves_refl hd hat
    | response status =>
        simp only [work, hs]
        exact workerMoves_refl hd hat
    | body bytes =>
      cases bytes with
      | error error =>
          simp only [work, hs]
          exact hfailed _ rfl
      | ok bytes =>
          simp only [work, hs]
          exact workerMoves_stay (by simp) hended hd ⟨rfl, hsent⟩
  · simp only [work, hs]
    split
    · rename_i hc
      exact habandoned hc
    · split
      · exact workerMoves_stay (by simp) hended hd ⟨rfl, hsent⟩
      · exact hfailed _ rfl
  · simp only [work, hs]
    split
    · rename_i hc
      exact habandoned hc
    · exact workerMoves_stay (by simp) hended hd ⟨rfl, hsent⟩
  · simp only [work, hs]
    refine workerMoves_phase (by simp) hended (by simp) ?_ ?_ hd ⟨rfl, hsent.finish⟩
    · rcases hsent with hp | ⟨-, hp⟩ <;> rw [hp] <;> rfl
    · rcases hsent with hp | ⟨-, hp⟩ <;> rw [hp] <;> simp [ImageOperationPhase.isCancelled,
        ImageOperationPhase.finish]

/-- **The worker keeps its round in order.** -/
theorem work_moves (event : WorkerEvent) (hd : w.dispatches = pre ++ last)
    (h : WorkerAt w.worker w.phase isOver last) : WorkerMoves w (w.work env event) isOver pre := by
  cases hs : w.worker with
  | idle =>
      have hstay : w.work env event = w := by unfold work; simp only [hs]
      rw [hstay]
      exact workerMoves_refl hd h
  | queued =>
      rw [hs] at h
      simp only [work, hs]
      split
      · exact workerMoves_stay (by simp) (by simp [Stopped, hs]) hd
          (.inl ⟨h.1, h.2, by simp [Error.new]⟩)
      · exact workerMoves_stay (by simp) (by simp [Stopped, hs]) hd h
  | encoded =>
      rw [hs] at h
      obtain ⟨rfl, hp | ⟨hover, hp⟩⟩ := h
      · simp only [work, hs, hp, ImageOperationPhase.beginDispatch]
        refine workerMoves_phase (by simp) (by simp [Stopped, hs]) (by simp) (by rw [hp]; rfl)
          (by rw [hp]; simp [ImageOperationPhase.isCancelled]) ?_ ⟨rfl, .inl rfl⟩
        rw [hd, List.append_nil]
      · simp only [work, hs, hp, ImageOperationPhase.beginDispatch]
        exact workerMoves_stay (by simp) (by simp [Stopped, hs]) hd
          (.inl ⟨rfl, .inr ⟨hover, hp⟩, by simp [Error.new]⟩)
  | sending => exact work_sending hs event hd h
  | refused error =>
      rw [hs] at h
      have hk : w.phase.isDispatched = true := h.2.isDispatched
      simp only [work, hs, hk, if_true]
      exact workerMoves_stay (by simp) (by simp [Stopped, hs]) hd (.inr (.inr ⟨_, h.1, h.2, rfl⟩))
  | answered status => exact work_answered hs event hd h
  | reading =>
      rw [hs] at h
      obtain ⟨rfl, hsent⟩ := h
      exact work_reading event hsent hd (.inl hs)
  | received bytes =>
      rw [hs] at h
      obtain ⟨rfl, hsent⟩ := h
      exact work_reading event hsent hd (.inr (.inl ⟨_, hs⟩))
  | parsed response =>
      rw [hs] at h
      obtain ⟨rfl, hsent⟩ := h
      exact work_reading event hsent hd (.inr (.inr (.inl ⟨_, hs⟩)))
  | finishing response =>
      rw [hs] at h
      obtain ⟨rfl, hsent⟩ := h
      exact work_reading event hsent hd (.inr (.inr (.inr ⟨_, hs⟩)))
  | abandoned =>
      rw [hs] at h
      obtain ⟨rfl, hover, hp⟩ := h
      simp only [work, hs]
      refine workerMoves_stay (by simp) (by simp [Stopped, hs]) hd
        (.inr (.inr ⟨_, rfl, .inr ⟨hover, hp⟩, ?_⟩))
      rw [hp]
      rfl
  | ended result =>
      have hstay : w.work env event = w := by unfold work; simp only [hs]
      rw [hstay]
      exact workerMoves_refl hd h

theorem workerDies_moves (reason : String) (hd : w.dispatches = pre ++ last)
    (h : WorkerAt w.worker w.phase isOver last) : WorkerMoves w (w.workerDies reason) isOver pre := by
  have hlost : ¬w.Stopped →
      ((last = [] ∧ Fresh w.phase isOver) ∨ ∃ answer, last = [answer] ∧ Sent w.phase isOver) →
      WorkerMoves w { w with worker := .ended (.died reason) } isOver pre :=
    fun hended hat => workerMoves_stay (by simp) hended hd hat
  have hsent : ∀ {answer}, last = [answer] ∧ Sent w.phase isOver →
      (last = [] ∧ Fresh w.phase isOver) ∨ ∃ answer, last = [answer] ∧ Sent w.phase isOver :=
    fun h => .inr ⟨_, h⟩
  cases hs : w.worker with
  | idle =>
      simp only [workerDies, hs]
      exact workerMoves_refl hd h
  | ended result =>
      simp only [workerDies, hs]
      exact workerMoves_refl hd h
  | queued => rw [hs] at h; simp only [workerDies, hs]; exact hlost (by simp [Stopped, hs]) (.inl h)
  | encoded => rw [hs] at h; simp only [workerDies, hs]; exact hlost (by simp [Stopped, hs]) (.inl h)
  | sending => rw [hs] at h; simp only [workerDies, hs]; exact hlost (by simp [Stopped, hs]) (hsent h)
  | refused error => rw [hs] at h; simp only [workerDies, hs]; exact hlost (by simp [Stopped, hs]) (hsent h)
  | answered status =>
      rw [hs] at h; simp only [workerDies, hs]; exact hlost (by simp [Stopped, hs]) (hsent h)
  | reading => rw [hs] at h; simp only [workerDies, hs]; exact hlost (by simp [Stopped, hs]) (hsent h)
  | received bytes =>
      rw [hs] at h; simp only [workerDies, hs]; exact hlost (by simp [Stopped, hs]) (hsent h)
  | parsed response =>
      rw [hs] at h; simp only [workerDies, hs]; exact hlost (by simp [Stopped, hs]) (hsent h)
  | finishing response =>
      rw [hs] at h; simp only [workerDies, hs]; exact hlost (by simp [Stopped, hs]) (hsent h)
  | abandoned =>
      rw [hs] at h
      simp only [workerDies, hs]
      exact hlost (by simp [Stopped, hs]) (hsent ⟨h.1, .inr h.2⟩)

end Moves

/-! ## The invariant -/

/-- What the rounds before this one dispatched. -/
def before (again : Bool) : List (Option Nat) := if again then [some 401] else []

/-- The worker each place of the future goes with; `again` in the second round. -/
def CallerAt (caller : ImageCaller) (again : Bool) (w : ImageWorld) : Prop :=
  match caller with
  | .entering => again = false ∧ w.worker = .idle
  | .checking after | .authenticating after | .authenticated after =>
      again = false ∧
        w.worker = if after then .ended (.returned (.error .unauthorized)) else .idle
  | .waiting after => after = again ∧ w.worker ≠ .idle
  | .returned _ => w.Stopped
  | .dropped => True

/-- An error the future returned. -/
structure ReturnedAt (w : ImageWorld) (error : Error) : Prop where
  told : error.kind = .outcomeUnknown ∨ (∀ answer ∈ w.dispatches, Refused answer) ∨
    ∃ reason, w.worker = .ended (.died reason)
  blame : error.kind = .outcomeUnknown → error ∈ w.authErrors ∨ w.dispatches ≠ []

structure Inv (w : ImageWorld) : Prop where
  round : ∃ again last, w.dispatches = before again ++ last ∧ CallerAt w.caller again w ∧
    WorkerAt w.worker w.phase w.caller.IsOver last
  guarded : w.caller = .dropped →
    w.phase.isCancelled = true ∨ w.worker = .idle ∧ w.dispatches = []
  spoken : w.caller = .dropped → w.phase = .cancelledAfterDispatch →
    w.task ≠ .absent ∨ w.forced = true
  silent : w.task ≠ .absent ∨ w.forced = true → w.dispatches ≠ []
  task : ∀ error, w.task = .spawned error ∨ w.task = .done error → error.kind = .outcomeUnknown
  done : ∀ error, w.task = .done error → w.connection.disconnected = true
  owned : w.connection.Owned
  cause : ∀ failure, w.connection.failure = some failure →
    failure.kind = .outcomeUnknown ∧ w.task ≠ .absent ∨ ∃ error ∈ w.others, error.SameCause failure
  answered : ∀ error, w.caller = .returned (.error error) → ReturnedAt w error

theorem inv_init : Inv ImageWorld.init where
  round := ⟨false, [], rfl, ⟨rfl, rfl⟩, rfl, .inl rfl⟩
  guarded h := by cases h
  spoken h := by cases h
  silent h := by rcases h with h | h <;> simp [ImageWorld.init] at h
  task _ h := by rcases h with h | h <;> simp [ImageWorld.init] at h
  done _ h := by simp [ImageWorld.init] at h
  owned := ConnectionLifecycle.owned_new
  cause _ h := by simp [ImageWorld.init, ConnectionLifecycle.new] at h
  answered _ h := by simp [ImageWorld.init] at h

/-- Before its first dispatch an operation has a phase that says so. -/
theorem Inv.refused (h : Inv w) (hphase : w.phase.isDispatched = false) :
    ∀ answer ∈ w.dispatches, Refused answer := by
  obtain ⟨again, last, hd, -, hat⟩ := h.round
  rw [hd]
  intro answer hmem
  rcases List.mem_append.1 hmem with hmem | hmem
  · cases again with
    | false => simp [before] at hmem
    | true => exact ⟨401, by simpa [before] using hmem, by decide⟩
  · exact hat.refused hphase answer hmem

theorem Inv.dispatched (h : Inv w) (hphase : w.phase.isDispatched = true) :
    w.dispatches ≠ [] := by
  obtain ⟨again, last, hd, -, hat⟩ := h.round
  rw [hd]
  simp [hat.ne_nil hphase]

theorem Inv.live (h : Inv w) (hlive : ¬w.caller.IsOver) : w.phase.isCancelled = false := by
  obtain ⟨again, last, -, -, hat⟩ := h.round
  rw [eq_false hlive] at hat
  exact hat.live

/-- A move of the worker keeps the invariant. -/
theorem inv_moves (h : Inv w) {w' : ImageWorld}
    (hmoves : ∀ pre last, w.dispatches = pre ++ last →
      WorkerAt w.worker w.phase w.caller.IsOver last → WorkerMoves w w' w.caller.IsOver pre) :
    Inv w' := by
  obtain ⟨again, last, hd, hcaller, hat⟩ := h.round
  have hm := hmoves _ _ hd hat
  by_cases hstopped : w.Stopped
  · rw [hm.stopped hstopped]
    exact h
  obtain ⟨last', hd', hat'⟩ := hm.round
  have hplace : CallerAt w.caller again w' := by
    cases hc : w.caller with
    | entering => rw [hc] at hcaller; exact absurd (.inl hcaller.2) hstopped
    | checking after => rw [hc] at hcaller; exact absurd (stopped_of_ite hcaller.2) hstopped
    | authenticating after => rw [hc] at hcaller; exact absurd (stopped_of_ite hcaller.2) hstopped
    | authenticated after => rw [hc] at hcaller; exact absurd (stopped_of_ite hcaller.2) hstopped
    | waiting after => rw [hc] at hcaller; exact ⟨hcaller.1, fun hi => hcaller.2 (hm.idle hi)⟩
    | returned result => rw [hc] at hcaller; exact absurd hcaller hstopped
    | dropped => trivial
  constructor
  case round => exact ⟨again, last', hd', by rw [hm.caller]; exact hplace, by
    rw [hm.caller]; exact hat'⟩
  case guarded =>
    rw [hm.caller]
    intro hc
    rcases h.guarded hc with hp | ⟨hidle, -⟩
    · exact .inl (hm.cancelled.trans hp)
    · exact absurd (.inl hidle) hstopped
  case spoken =>
    rw [hm.caller, hm.task, hm.forced]
    intro hc hp
    have hcancelled : w.phase.isCancelled = true := by rw [← hm.cancelled, hp]; rfl
    exact h.spoken hc ((hm.cancelledPhase hcancelled).symm.trans hp)
  case silent =>
    rw [hm.task, hm.forced]
    exact fun hs => hm.grows (h.silent hs)
  case task => rw [hm.task]; exact h.task
  case done => rw [hm.task, hm.connection]; exact h.done
  case owned => rw [hm.connection]; exact h.owned
  case cause => rw [hm.connection, hm.task, hm.others]; exact h.cause
  case answered =>
    rw [hm.caller]
    intro error hc
    rw [hc] at hcaller
    exact absurd hcaller hstopped

/-! ## What the future does -/

/-- The future ends; its guard may have spoken. -/
theorem Inv.close (h : Inv w) (hlive : ¬w.caller.IsOver) {caller : ImageCaller}
    {phase : ImageOperationPhase} {task : GuardTask} (forced : Bool) (hover : caller.IsOver)
    (hat : ∀ last, WorkerAt w.worker w.phase False last → WorkerAt w.worker phase True last)
    (hstop : (∃ result, caller = .returned result) → w.Stopped)
    (hguard : caller = .dropped → phase.isCancelled = true)
    (hspoken : phase = .cancelledAfterDispatch → task ≠ .absent ∨ forced = true)
    (hsilent : task ≠ .absent ∨ forced = true → w.dispatches ≠ [])
    (htask : ∀ error, task = .spawned error ∨ task = .done error →
      error.kind = .outcomeUnknown)
    (hdone : ∀ error, task = .done error → w.connection.disconnected = true)
    (hkept : w.task ≠ .absent → task ≠ .absent)
    (hanswer : ∀ error, caller = .returned (.error error) → ReturnedAt w error) :
    Inv { w with caller, phase, task, forced } := by
  obtain ⟨again, last, hd, -, hworker⟩ := h.round
  rw [eq_false hlive] at hworker
  refine ⟨⟨again, last, hd, ?_, ?_⟩, ?_, fun _ => hspoken, hsilent, htask, hdone, h.owned, ?_, ?_⟩
  · cases caller with
    | returned result => exact hstop ⟨result, rfl⟩
    | dropped => trivial
    | _ => exact hover.elim
  · rw [eq_true hover]
    exact hat last hworker
  · exact fun hc => .inl (hguard hc)
  · intro failure hf
    exact (h.cause failure hf).imp (fun hk => ⟨hk.1, hkept hk.2⟩) id
  · intro error hc
    exact ⟨(hanswer error hc).told, (hanswer error hc).blame⟩

/-- The future ends and its guard is dropped armed. -/
theorem inv_dropGuard (h : Inv w) (hlive : ¬w.caller.IsOver) {caller : ImageCaller}
    (runtime : Bool) (hover : caller.IsOver)
    (hstop : (∃ result, caller = .returned result) → w.Stopped)
    (hanswer : ∀ error, caller = .returned (.error error) → ReturnedAt w error) :
    Inv ({ w with caller }.dropGuard env runtime) := by
  have hat : ∀ last, WorkerAt w.worker w.phase False last →
      WorkerAt w.worker w.phase.cancel.2 True last := fun last hw => hw.cancel
  unfold dropGuard
  rcases w.phase.cancel_cases with ⟨hp, hc⟩ | ⟨hp, hc⟩
  · simp only [hc]
    rw [hc] at hat
    exact h.close hlive w.forced hover hat hstop (fun _ => rfl) (by simp) h.silent h.task h.done id
      hanswer
  · simp only [hc]
    rw [hc] at hat
    have hne := h.dispatched hp
    cases runtime with
    | true =>
        refine h.close hlive w.forced hover hat hstop (fun _ => rfl) (by simp) (fun _ => hne) ?_ (by simp)
          (by simp) hanswer
        intro error herror
        obtain rfl : _ = error := by simpa using herror
        rfl
    | false =>
        exact h.close hlive true hover hat hstop (fun _ => rfl) (by simp) (fun _ => hne) h.task h.done
          id hanswer

theorem inv_settle (h : Inv w) (hlive : ¬w.caller.IsOver) (hstop : w.Stopped)
    {result : Result DirectImageResponse}
    (hanswer : ∀ error, result = .error error → ReturnedAt w error) :
    Inv (w.settle env result) := by
  have hplain : Inv { w with caller := .returned result } :=
    h.close hlive w.forced trivial (fun last hw => hw.leave) (fun _ => hstop) (by simp)
      (fun hp => by have := h.live hlive; rw [hp] at this; cases this)
      h.silent h.task h.done id (fun error he => hanswer error (by simpa using he))
  cases result with
  | ok response => exact hplain
  | error error =>
    unfold settle
    by_cases hk : error.kind = .outcomeUnknown
    · simp only [hk, if_true]
      exact inv_dropGuard h hlive true trivial (fun _ => hstop)
        (fun error he => hanswer error (by simpa using he))
    · simp only [hk, if_false]
      exact hplain

/-- The future goes on. -/
theorem Inv.advance (h : Inv w) {caller : ImageCaller} (worker : ImageWorker)
    (hlive : ¬caller.IsOver) {again : Bool} {last : List (Option Nat)}
    (hd : w.dispatches = before again ++ last)
    (hcaller : CallerAt caller again { w with caller, worker })
    (hat : WorkerAt worker w.phase False last) : Inv { w with caller, worker } where
  round := ⟨again, last, hd, hcaller, by rw [eq_false hlive]; exact hat⟩
  guarded hc := by
    obtain rfl : caller = .dropped := hc
    exact absurd trivial hlive
  spoken hc := by
    obtain rfl : caller = .dropped := hc
    exact absurd trivial hlive
  silent := h.silent
  task := h.task
  done := h.done
  owned := h.owned
  cause := h.cause
  answered error hc := by
    obtain rfl : caller = .returned (.error error) := hc
    exact absurd trivial hlive

/-- Between the rounds. -/
theorem Inv.between (h : Inv w) (after : Bool) (hlive : ¬w.caller.IsOver)
    (hcaller : ∀ again, CallerAt w.caller again w → again = false ∧
      w.worker = if after then .ended (.returned (.error .unauthorized)) else .idle) :
    w.Stopped ∧ w.phase = .pending ∧ w.dispatches = before after := by
  obtain ⟨again, last, hd, hc, hat⟩ := h.round
  obtain ⟨rfl, hworker⟩ := hcaller again hc
  rw [eq_false hlive, hworker] at hat
  refine ⟨stopped_of_ite hworker, ?_⟩
  cases after with
  | false =>
      obtain ⟨rfl, hp | hp⟩ := hat
      · exact ⟨hp, hd⟩
      · exact hp.1.elim
  | true =>
      obtain ⟨rfl, (hp | hp) | hp⟩ := hat
      · exact ⟨hp, hd⟩
      · exact hp.1.elim
      · exact hp.1.elim

/-- An error of the future's own between the rounds. -/
theorem Inv.returnedAt (h : Inv w) (hphase : w.phase = .pending) {error : Error}
    (hk : error.kind ≠ .outcomeUnknown) : ReturnedAt w error where
  told := .inr (.inl (h.refused (by rw [hphase]; rfl)))
  blame hk' := absurd hk' hk

theorem inv_entering (h : Inv w) (hs : w.caller = .entering) (event : CallerEvent) :
    Inv (w.call env event) := by
  have hlive : ¬w.caller.IsOver := by rw [hs]; exact id
  obtain ⟨hstop, hphase, hd⟩ := h.between false hlive
    (fun again hc => by rw [hs] at hc; exact hc)
  have hworker : w.worker = .idle := by
    obtain ⟨again, last, -, hc, -⟩ := h.round
    rw [hs] at hc
    exact hc.2
  have hreturn : ∀ error : Error, error.kind ≠ .outcomeUnknown →
      Inv { w with caller := .returned (.error error) } := by
    intro error hk
    refine h.close hlive w.forced trivial (fun last hw => hw.leave) (fun _ => hstop)
      (by simp) (by rw [hphase]; simp) h.silent h.task h.done id ?_
    intro error' he
    obtain rfl : error = error' := by simpa using he
    exact h.returnedAt hphase hk
  have hgo : Inv { w with caller := .checking false } := by
    refine h.advance w.worker id (show w.dispatches = before false ++ [] from hd)
      ⟨rfl, by simpa using hworker⟩ ?_
    rw [hworker]
    exact ⟨rfl, .inl hphase⟩
  simp only [call, hs]
  split
  · rename_i error hv
    refine hreturn error ?_
    unfold DirectImageRequest.validate at hv
    split at hv
    · obtain rfl : _ = error := by simpa using hv
      simp [Error.new]
    · split at hv
      · obtain rfl : _ = error := by simpa using hv
        simp [Error.new]
      · cases hv
  · split
    · exact hreturn _ (by simp [Error.new])
    · exact hgo

theorem inv_checking (h : Inv w) {after : Bool} (hs : w.caller = .checking after)
    (event : CallerEvent) : Inv (w.call env event) := by
  have hlive : ¬w.caller.IsOver := by rw [hs]; exact id
  have hplace : ∀ again, CallerAt w.caller again w → again = false ∧
      w.worker = if after then .ended (.returned (.error .unauthorized)) else .idle :=
    fun again hc => by rw [hs] at hc; exact hc
  obtain ⟨hstop, hphase, hd⟩ := h.between after hlive hplace
  have hcancel : w.phase.isCancelled = false := by rw [hphase]; rfl
  have hgo : Inv { w with caller := .authenticating after } := by
    obtain ⟨again, last, hd', hc, hat⟩ := h.round
    rw [eq_false hlive] at hat
    exact h.advance w.worker id hd' (hplace again hc) hat
  cases event with
  | expired =>
      simp only [call, hs, hcancel, Bool.false_eq_true, if_false]
      refine inv_settle h hlive hstop ?_
      intro error he
      obtain rfl : deadlineError = error := by simpa using he
      exact h.returnedAt hphase (by simp [deadlineError, Error.timeout, Error.new])
  | inTime => simpa only [call, hs, hcancel, Bool.false_eq_true, if_false] using hgo
  | noDeadline => simpa only [call, hs, hcancel, Bool.false_eq_true, if_false] using hgo
  | auth result => simpa only [call, hs, hcancel, Bool.false_eq_true, if_false] using hgo

/-- The history of the auth requests is all that changes. -/
theorem Inv.record (h : Inv w) (error : Error) :
    Inv { w with authErrors := w.authErrors ++ [error] } where
  round := h.round
  guarded := h.guarded
  spoken := h.spoken
  silent := h.silent
  task := h.task
  done := h.done
  owned := h.owned
  cause := h.cause
  answered error' hc :=
    { told := (h.answered error' hc).told
      blame := fun hk => ((h.answered error' hc).blame hk).imp (List.mem_append_left _) id }

theorem inv_authenticating (h : Inv w) {after : Bool} (hs : w.caller = .authenticating after)
    (event : CallerEvent) : Inv (w.call env event) := by
  have hlive : ¬w.caller.IsOver := by rw [hs]; exact id
  have hplace : ∀ again, CallerAt w.caller again w → again = false ∧
      w.worker = if after then .ended (.returned (.error .unauthorized)) else .idle :=
    fun again hc => by rw [hs] at hc; exact hc
  obtain ⟨hstop, hphase, hd⟩ := h.between after hlive hplace
  cases event with
  | expired => simpa only [call, hs] using h
  | inTime => simpa only [call, hs] using h
  | noDeadline => simpa only [call, hs] using h
  | auth result =>
    cases result with
    | ok auth =>
        simp only [call, hs]
        obtain ⟨again, last, hd', hc, hat⟩ := h.round
        rw [eq_false hlive] at hat
        exact h.advance w.worker id hd' (hplace again hc) hat
    | error error =>
        have hearly : w.phase.isDispatched = false := by rw [hphase]; rfl
        have hend : Inv ({ w with authErrors := w.authErrors ++ [error] }.settle env
            (.error error)) := by
          refine inv_settle (h.record error) hlive hstop ?_
          intro error' he
          obtain rfl : error = error' := by simpa using he
          exact
            { told := .inr (.inl ((h.record error).refused hearly))
              blame := fun _ => .inl (List.mem_append_right _ (List.mem_singleton.2 rfl)) }
        simpa only [call, hs] using hend

theorem inv_authenticated (h : Inv w) {after : Bool} (hs : w.caller = .authenticated after)
    (event : CallerEvent) : Inv (w.call env event) := by
  have hlive : ¬w.caller.IsOver := by rw [hs]; exact id
  obtain ⟨hstop, hphase, hd⟩ := h.between after hlive
    (fun again hc => by rw [hs] at hc; exact hc)
  have hcancel : w.phase.isCancelled = false := by rw [hphase]; rfl
  have hgo : Inv { w with caller := .waiting after, worker := .queued } :=
    h.advance .queued id (show w.dispatches = before after ++ [] by rw [hd, List.append_nil])
      ⟨rfl, by simp⟩
      ⟨rfl, .inl hphase⟩
  cases event with
  | expired =>
      simp only [call, hs, hcancel, Bool.false_eq_true, if_false]
      refine inv_settle h hlive hstop ?_
      intro error he
      obtain rfl : deadlineError = error := by simpa using he
      exact h.returnedAt hphase (by simp [deadlineError, Error.timeout, Error.new])
  | inTime => simpa only [call, hs, hcancel, Bool.false_eq_true, if_false] using hgo
  | noDeadline => simpa only [call, hs, hcancel, Bool.false_eq_true, if_false] using hgo
  | auth result => simpa only [call, hs, hcancel, Bool.false_eq_true, if_false] using hgo

/-- The future takes what the worker left. -/
theorem inv_waiting (h : Inv w) {after : Bool} (hs : w.caller = .waiting after)
    (event : CallerEvent) : Inv (w.call env event) := by
  have hlive : ¬w.caller.IsOver := by rw [hs]; exact id
  obtain ⟨again, last, hd, hc, hat⟩ := h.round
  rw [hs] at hc
  obtain ⟨rfl, -⟩ := hc
  rw [eq_false hlive] at hat
  have hsettle : ∀ {result error}, w.worker = .ended result → ReturnedAt w error →
      Inv (w.settle env (.error error)) := by
    intro result error hworker hat
    refine inv_settle h hlive (.inr ⟨_, hworker⟩) ?_
    intro error' he
    obtain rfl : error = error' := by simpa using he
    exact hat
  have hrefused : (∀ answer ∈ last, Refused answer) → ∀ answer ∈ w.dispatches, Refused answer := by
    intro hl answer hmem
    rw [hd] at hmem
    rcases List.mem_append.1 hmem with hmem | hmem
    · cases after with
      | false => simp [before] at hmem
      | true => exact ⟨401, by simpa [before] using hmem, by decide⟩
    · exact hl answer hmem
  simp only [call, hs]
  split
  · rename_i response hworker
    exact inv_settle h hlive (.inr ⟨_, hworker⟩) (fun error he => by cases he)
  · rename_i hworker
    rw [hworker] at hat
    obtain ⟨hlast, hp | hp⟩ := hat
    · cases after with
      | true =>
          have hl : ∀ answer ∈ last, Refused answer := by
            rw [hlast]
            intro answer hmem
            exact ⟨401, List.mem_singleton.1 hmem, by decide⟩
          rw [if_pos rfl]
          refine hsettle hworker ⟨.inr (.inl (hrefused hl)), fun hk => ?_⟩
          cases hk
      | false =>
          refine h.advance w.worker id hd ⟨rfl, hworker⟩ ?_
          rw [hworker]
          exact ⟨hlast, .inl hp⟩
    · exact hp.1.elim
  · rename_i error hworker
    rw [hworker] at hat
    refine hsettle hworker ?_
    rcases hat with ⟨hlast, -, hk⟩ | ⟨status, hlast, hne, -, hk⟩ | ⟨answer, hlast, -, hk⟩
    · exact ⟨.inr (.inl (hrefused (by simp [hlast]))), fun hk' => absurd hk' hk⟩
    · refine ⟨.inr (.inl (hrefused ?_)), fun hk' => absurd hk' hk⟩
      rw [hlast]
      intro answer hmem
      exact ⟨status, List.mem_singleton.1 hmem, hne⟩
    · exact ⟨.inl hk, fun _ => .inr (by rw [hd, hlast]; simp)⟩
  · rename_i reason hworker
    exact hsettle hworker ⟨.inr (.inr ⟨reason, hworker⟩), by simp [Error.new]⟩
  · exact h

theorem inv_call (h : Inv w) (event : CallerEvent) : Inv (w.call env event) := by
  cases hs : w.caller with
  | entering => exact inv_entering h hs event
  | checking after => exact inv_checking h hs event
  | authenticating after => exact inv_authenticating h hs event
  | authenticated after => exact inv_authenticated h hs event
  | waiting after => exact inv_waiting h hs event
  | returned result => simpa only [call, hs] using h
  | dropped => simpa only [call, hs] using h

theorem inv_dropCaller (h : Inv w) (runtime : Bool) : Inv (w.dropCaller env runtime) := by
  have hdrop : ¬w.caller.IsOver → Inv ({ w with caller := .dropped }.dropGuard env runtime) :=
    fun hlive => inv_dropGuard h hlive runtime trivial (by simp) (by simp)
  cases hs : w.caller with
  | returned result => simpa only [dropCaller, hs] using h
  | dropped => simpa only [dropCaller, hs] using h
  | checking after => simpa only [dropCaller, hs] using hdrop (by rw [hs]; exact id)
  | authenticating after => simpa only [dropCaller, hs] using hdrop (by rw [hs]; exact id)
  | authenticated after => simpa only [dropCaller, hs] using hdrop (by rw [hs]; exact id)
  | waiting after => simpa only [dropCaller, hs] using hdrop (by rw [hs]; exact id)
  | entering =>
      simp only [dropCaller, hs]
      obtain ⟨again, last, hd, hc, hat⟩ := h.round
      rw [hs] at hc
      obtain ⟨rfl, hidle⟩ := hc
      have hlive : ¬w.caller.IsOver := by rw [hs]; exact id
      rw [eq_false hlive] at hat
      have hnil : last = [] := by rw [hidle] at hat; exact hat.1
      constructor
      case round => exact ⟨false, last, hd, trivial, hat.imp (Or.imp_right fun h => h.1.elim)
        (Or.imp_right fun h => h.1.elim) (Or.imp_right fun h => h.1.elim) fun h => h.1.elim⟩
      case guarded => exact fun _ => .inr ⟨hidle, by rw [hd, hnil]; rfl⟩
      case spoken =>
        intro _ hp
        have := hat.live
        rw [show w.phase = _ from hp] at this
        cases this
      case silent => exact h.silent
      case task => exact h.task
      case done => exact h.done
      case owned => exact h.owned
      case cause => exact h.cause
      case answered => intro error hc; cases hc

/-! ## What the others do -/

theorem inv_runTask (h : Inv w) : Inv w.runTask := by
  unfold runTask
  split
  · rename_i error hs
    constructor
    case round => exact h.round
    case guarded => exact h.guarded
    case spoken => exact fun _ _ => .inl (by simp [disconnect])
    case silent => exact fun _ => h.silent (.inl (by rw [hs]; simp))
    case task =>
      intro error' he
      obtain rfl : error = error' := by simpa [disconnect] using he
      exact h.task error (.inl hs)
    case done => exact fun _ _ => w.connection.disconnected_beginDisconnect error
    case owned => exact ConnectionLifecycle.owned_beginDisconnect h.owned error
    case cause =>
      intro failure hf
      rcases w.connection.beginDisconnect_cases error with ⟨-, hb⟩ | ⟨-, hb⟩
      · simp only [disconnect, hb] at hf
        exact (h.cause failure hf).imp (fun hk => ⟨hk.1, by simp [disconnect]⟩) id
      · simp only [disconnect, hb] at hf
        obtain rfl : error = failure := by simpa using hf
        exact .inl ⟨h.task error (.inl hs), by simp [disconnect]⟩
    case answered =>
      exact fun error' hc => ⟨(h.answered error' hc).told, (h.answered error' hc).blame⟩
  · exact h

theorem inv_disconnect (h : Inv w) (error : Error) :
    Inv ({ w with others := w.others ++ [error] }.disconnect error) where
  round := h.round
  guarded := h.guarded
  spoken := h.spoken
  silent := h.silent
  task := h.task
  done _ _ := w.connection.disconnected_beginDisconnect error
  owned := ConnectionLifecycle.owned_beginDisconnect h.owned error
  cause failure hf := by
    rcases w.connection.beginDisconnect_cases error with ⟨-, hb⟩ | ⟨-, hb⟩
    · simp only [disconnect, hb] at hf
      rcases h.cause failure hf with hk | ⟨other, hmem, hsame⟩
      · exact .inl hk
      · exact .inr ⟨other, List.mem_append_left _ hmem, hsame⟩
    · simp only [disconnect, hb] at hf
      obtain rfl : error = failure := by simpa using hf
      exact .inr ⟨error, List.mem_append_right _ (List.mem_singleton.2 rfl), .refl error⟩
  answered error' hc := ⟨(h.answered error' hc).told, (h.answered error' hc).blame⟩

theorem inv_enrich (h : Inv w) (message : String) (stderrTail : Option String) :
    Inv (w.enrich message stderrTail) := by
  unfold enrich
  split
  · exact h
  · rename_i error hf
    constructor
    case round => exact h.round
    case guarded => exact h.guarded
    case spoken => exact h.spoken
    case silent => exact h.silent
    case task => exact h.task
    case done => exact h.done
    case owned =>
      have hd : w.connection.disconnected = true := h.owned.2 ⟨error, hf⟩
      simp [ConnectionLifecycle.Owned, ConnectionLifecycle.replaceFailure, hd]
    case cause =>
      intro failure hf'
      obtain rfl : _ = failure := by simpa [ConnectionLifecycle.replaceFailure] using hf'
      rcases h.cause error hf with hk | ⟨other, hmem, hsame⟩
      · exact .inl hk
      · exact .inr ⟨other, hmem, hsame⟩
    case answered =>
      exact fun error' hc => ⟨(h.answered error' hc).told, (h.answered error' hc).blame⟩

/-- **One step keeps the invariant.** -/
theorem inv_step (h : Inv w) (label : ImageLabel) : Inv (w.step env label) := by
  cases label with
  | call event => exact inv_call h event
  | work event => exact inv_moves h (fun _ _ => work_moves event)
  | workerDies reason => exact inv_moves h (fun _ _ => workerDies_moves reason)
  | dropCaller runtime => exact inv_dropCaller h runtime
  | runTask => exact inv_runTask h
  | disconnect error => exact inv_disconnect h error
  | enrich message stderrTail => exact inv_enrich h message stderrTail

theorem inv_reachable (h : (imageMachine env).Reachable Machine.Free w) : Inv w := by
  refine h.invariant (P := Inv) inv_init ?_
  intro s label _ hinv _
  exact inv_step hinv label

/-! ## The outcome of a billed request -/

theorem Inv.dispatches_le (h : Inv w) : w.dispatches.length ≤ 2 ∧
    ∀ first second, w.dispatches = [first, second] → first = some 401 := by
  obtain ⟨again, last, hd, -, hat⟩ := h.round
  have hlen := hat.length_le
  cases again with
  | false =>
      rw [hd]
      refine ⟨by simpa [before] using Nat.le_succ_of_le hlen, ?_⟩
      intro first second heq
      rw [show before false ++ last = last from rfl] at heq
      rw [heq] at hlen
      simp at hlen
  | true =>
      rw [hd]
      refine ⟨by simpa [before, Nat.add_comm] using hlen, ?_⟩
      intro first second heq
      rw [show before true ++ last = some 401 :: last from rfl, List.cons.injEq] at heq
      exact heq.1.symm

/-- A future that was dropped with a request open has its guard's word. -/
theorem Inv.dropped (h : Inv w) (hc : w.caller = .dropped) (hopen : w.Unresolved) :
    w.task ≠ .absent ∨ w.forced = true := by
  obtain ⟨answer, hmem, hnot⟩ := hopen
  refine h.spoken hc ?_
  cases hphase : w.phase with
  | cancelledAfterDispatch => rfl
  | cancelledBeforeDispatch =>
      exact absurd (h.refused (by rw [hphase]; rfl) answer hmem) hnot
  | _ =>
      rcases h.guarded hc with hp | ⟨-, hnil⟩
      · rw [hphase] at hp
        cases hp
      · rw [hnil] at hmem
        cases hmem

/-- The task has run: the client knows. -/
theorem Inv.clientTold (h : Inv w) (htask : w.task ≠ .absent)
    (hrun : ∀ error, w.task ≠ .spawned error) : w.ClientTold := by
  cases hs : w.task with
  | absent => exact absurd hs htask
  | spawned error => exact absurd hs (hrun error)
  | done error =>
      have hdown := h.done error hs
      obtain ⟨failure, hf⟩ := h.owned.1 hdown
      exact ⟨hdown, failure, hf, (h.cause failure hf).imp And.left id⟩

/--
**A billed request is dispatched at most twice, a second time only after a 401, and its
outcome is not lost.** A request that may have been billed and whose image the caller does
not get is reported: the caller's error says so, or the client is disconnected, for that
cause unless somebody else disconnected first, or, when the future was dropped outside a
runtime, the shutdown is forced. A worker that dies under a waiting caller is left out. An
operation without a dispatch reports nothing of its own; the error of an auth request is
handed on.
-/
theorem billed_image_never_lost (env : ImageEnv) {w : ImageWorld}
    (h : (imageMachine env).Reachable Machine.Free w) :
    (w.dispatches.length ≤ 2 ∧
      ∀ first second, w.dispatches = [first, second] → first = some 401) ∧
    (w.Settled → ¬w.AnsweredByDeath → w.Unresolved → ¬w.Obtained →
      w.CallerTold ∨ w.ClientTold ∨ w.forced = true) ∧
    (w.dispatches = [] →
      (∀ error, w.caller = .returned (.error error) → error.kind = .outcomeUnknown →
        error ∈ w.authErrors) ∧
      w.task = .absent ∧ w.forced = false) := by
  have hinv := inv_reachable h
  refine ⟨hinv.dispatches_le, ?_, ?_⟩
  · rintro ⟨hover, hrun⟩ hdeath hopen hobtained
    cases hc : w.caller with
    | returned result =>
      cases result with
      | ok response => exact absurd ⟨response, hc⟩ hobtained
      | error error =>
        rcases (hinv.answered error hc).told with hk | hrefused | hdied
        · exact .inl ⟨error, hc, hk⟩
        · obtain ⟨answer, hmem, hnot⟩ := hopen
          exact absurd (hrefused answer hmem) hnot
        · exact absurd ⟨⟨_, hc⟩, hdied⟩ hdeath
    | dropped =>
        rcases hinv.dropped hc hopen with htask | hforced
        · exact .inr (.inl (hinv.clientTold htask hrun))
        · exact .inr (.inr hforced)
    | _ => rw [hc] at hover; exact hover.elim
  · intro hnil
    have hquiet : ¬(w.task ≠ .absent ∨ w.forced = true) := fun hs => hinv.silent hs hnil
    refine ⟨?_, ?_, ?_⟩
    · intro error hc hk
      exact ((hinv.answered error hc).blame hk).resolve_right (fun hne => hne hnil)
    · by_cases ht : w.task = .absent
      · exact ht
      · exact absurd (.inl ht) hquiet
    · cases hf : w.forced with
      | false => rfl
      | true => exact absurd (.inr hf) hquiet

/-- A request for one picture; the endpoint's bytes are never valid. -/
def sunset : ImageEnv where
  request := ⟨"sunset", .auto, .auto, .auto⟩
  turnId := "vergerail-image-1"
  parseImageEndpointResponse _ _ :=
    .error (Error.new .protocol "image.http" "image response is not a PNG")

/-- The request is on its way. -/
def dispatchedOnce : List ImageLabel :=
  [.call .inTime, .call .inTime, .call (.auth (.ok ())), .call .inTime, .work .go, .work .go]

/-- The future is dropped and the task of its guard runs. -/
def abandonedRun : List ImageLabel := dispatchedOnce ++ [.dropCaller true, .runTask]

/-- What is left when the future was dropped with its request on its way. -/
theorem dropped_open (error : Error) (hcaller : w.caller = .dropped)
    (hdispatch : w.dispatches = [none]) (htask : w.task = .done error) :
    w.Settled ∧ ¬w.AnsweredByDeath ∧ w.Unresolved ∧ ¬w.Obtained ∧ ¬w.CallerTold := by
  have hnot : ∀ result, w.caller ≠ .returned result := by rw [hcaller]; simp
  refine ⟨⟨by rw [hcaller]; trivial, by rw [htask]; simp⟩, ?_, ⟨none, ?_, ?_⟩, ?_, ?_⟩
  · rintro ⟨⟨result, hr⟩, -⟩
    exact hnot _ hr
  · rw [hdispatch]
    exact List.mem_singleton.2 rfl
  · rintro ⟨status, hs, -⟩
    cases hs
  · rintro ⟨response, hr⟩
    exact hnot _ hr
  · rintro ⟨error, hr, -⟩
    exact hnot _ hr

theorem billed_image_never_lost_sunset :
    ((imageMachine sunset).run abandonedRun).CallerTold ∨
      ((imageMachine sunset).run abandonedRun).ClientTold ∨
      ((imageMachine sunset).run abandonedRun).forced = true := by
  obtain ⟨hsettled, hdeath, hopen, hobtained, -⟩ :=
    dropped_open (w := (imageMachine sunset).run abandonedRun)
      (ImageOperationPhase.cancelledAfterDispatch.cancellationError sunset.turnId)
      (by decide +kernel) (by decide +kernel) (by decide +kernel)
  exact (billed_image_never_lost sunset (Machine.reachable_run abandonedRun)).2.1 hsettled hdeath
    hopen hobtained

/-- The process ends before the future is dropped. -/
def earlierCauseRun : List ImageLabel :=
  dispatchedOnce ++ [.disconnect (Error.new .disconnected "app-server.stdout" "closed stdout"),
    .dropCaller true, .runTask]

/-- The connection was lost before, for an open outcome; the auth request says so. -/
def lostBeforeRun : List ImageLabel :=
  [.call .inTime, .call .inTime,
    .call (.auth (.error (Error.new .outcomeUnknown "turn.start" "outcome is unknown")))]

/-- A cause that was recorded before stays, and an operation that never dispatched hands on
the open outcome that its auth request was answered with. -/
theorem first_cause_hides_billed_image :
    (((imageMachine sunset).run earlierCauseRun).Settled ∧
      ((imageMachine sunset).run earlierCauseRun).Unresolved ∧
      ¬((imageMachine sunset).run earlierCauseRun).Obtained ∧
      ¬((imageMachine sunset).run earlierCauseRun).CallerTold ∧
      ((imageMachine sunset).run earlierCauseRun).connection.failure =
        some (Error.new .disconnected "app-server.stdout" "closed stdout")) ∧
    ((imageMachine sunset).run lostBeforeRun).dispatches = [] ∧
      ((imageMachine sunset).run lostBeforeRun).CallerTold := by
  obtain ⟨hsettled, -, hopen, hobtained, htold⟩ :=
    dropped_open (w := (imageMachine sunset).run earlierCauseRun)
      (ImageOperationPhase.cancelledAfterDispatch.cancellationError sunset.turnId)
      (by decide +kernel) (by decide +kernel) (by decide +kernel)
  refine ⟨⟨hsettled, hopen, hobtained, htold, by decide +kernel⟩, by decide +kernel, ?_⟩
  exact ⟨Error.new .outcomeUnknown "turn.start" "outcome is unknown", by decide +kernel, rfl⟩

end ImageWorld

end Vergerail
