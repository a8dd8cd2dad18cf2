import Mathlib.Tactic.ByContra
import Vergerail.Native.Monitor
import Vergerail.Proof.Teardown

/-!
# Stop requests and stale signals

What has to be shown: a stop signal that reaches the monitor reaches the worker, and nobody
signals a process that was waited for.

The handler knows the worker by `worker_pid` alone, and `main` writes that variable after
the `fork` and clears it after the `waitpid`. A signal between the `fork` and the first of
these writes finds nobody to tell, and `main` never looks at `stop_requested` again; a
signal between the `waitpid` and the second finds a pid that may belong to somebody else.
Outside of these two windows the globals are right whenever a handler starts, and `main`
stands still until it ends.
-/

namespace Vergerail

open Lib

/-! ## The teardown signals an unreaped leader -/

namespace Custody

/-- `c'` comes after `c`, without a reap, and its signals say so. -/
def Keeps (c c' : Custody) : Prop :=
  c'.reaped = c.reaped ∧ ∃ calls, c'.log = c.log ++ calls ∧
    ∀ signal reaped, .signalled signal reaped ∈ calls → reaped = c.reaped

theorem Keeps.refl (c : Custody) : Keeps c c := ⟨rfl, [], by simp, by simp⟩

theorem Keeps.trans {a b c : Custody} (h : Keeps a b) (h' : Keeps b c) : Keeps a c := by
  obtain ⟨hr, calls, hl, hs⟩ := h
  obtain ⟨hr', calls', hl', hs'⟩ := h'
  refine ⟨hr'.trans hr, calls ++ calls', by rw [hl', hl, List.append_assoc], ?_⟩
  intro signal reaped hmem
  rcases List.mem_append.1 hmem with hmem | hmem
  · exact hs signal reaped hmem
  · exact (hs' signal reaped hmem).trans hr

/-- Only the history and the flag matter. -/
theorem Keeps.of_eq {c c' : Custody} (hr : c'.reaped = c.reaped) (hl : c'.log = c.log) :
    Keeps c c' := ⟨hr, [], by rw [hl, List.append_nil], by simp⟩

theorem keeps_observeLeader (c : Custody) : Keeps c c.observeLeader.1 := by
  obtain ⟨exited, -, -, -, hr, hl, -⟩ := c.observeLeader_spec
  exact ⟨hr, _, hl, by simp⟩

theorem keeps_scan (c : Custody) : Keeps c c.groupHasNoOtherMember.1 := by
  obtain ⟨other, -, -, -, hr, hl, -⟩ := scan_spec c
  exact ⟨hr, _, hl, by simp⟩

theorem keeps_killpgChecked (c : Custody) (signal : Signal) :
    Keeps c (c.killpgChecked signal).1 := by
  obtain ⟨-, hr, hl, -, -⟩ := c.killpgChecked_spec signal
  refine ⟨hr, _, hl, ?_⟩
  intro signal' reaped hmem
  have heq := List.mem_singleton.1 hmem
  simp only [Call.signalled.injEq] at heq
  exact heq.2

theorem keeps_getpgid (c : Custody) : Keeps c c.getpgid.1 := by
  unfold getpgid
  simp only
  split
  · exact .of_eq rfl rfl
  · exact .of_eq rfl rfl

theorem keeps_signalPrivateGroup (c : Custody) (signal : Signal) (leaderExited : Bool) :
    Keeps c (c.signalPrivateGroup signal leaderExited).1 := by
  have hg := c.keeps_getpgid
  unfold signalPrivateGroup
  generalize c.getpgid = asked at hg
  obtain ⟨c1, group⟩ := asked
  cases group with
  | none =>
      simp only
      split
      · exact hg
      · split
        · exact hg.trans (.of_eq rfl rfl)
        · have hscan := hg.trans c1.keeps_scan
          split
          · exact hscan.trans (keeps_killpgChecked _ signal)
          · exact hscan
  | some group =>
      simp only
      split
      · exact hg.trans (.of_eq rfl rfl)
      · exact hg.trans (keeps_killpgChecked _ signal)

theorem keeps_awaitExit (attempts : Nat) (c : Custody) : Keeps c (awaitExit attempts c).1 := by
  induction attempts generalizing c with
  | zero => exact .of_eq rfl rfl
  | succ attempts ih =>
      rw [awaitExit_succ]
      split
      · exact c.keeps_observeLeader
      · exact c.keeps_observeLeader.trans (ih _)

theorem keeps_waitForLeaderExit (c : Custody) (forceKill : Bool) :
    Keeps c (c.waitForLeaderExit forceKill).1 := by
  have ho := c.keeps_observeLeader
  rw [waitForLeaderExit_eq]
  generalize (if forceKill then Signal.sigkill else Signal.sigterm) = signal
  split
  · exact ho
  · simp only
    have hs := ho.trans (c.observeLeader.1.keeps_signalPrivateGroup signal false)
    split
    · exact hs
    · exact hs.trans (keeps_awaitExit _ _)

theorem keeps_rounds (attempts : Nat) (c : Custody) : Keeps c (rounds attempts c).1 := by
  induction attempts generalizing c with
  | zero => exact .of_eq rfl rfl
  | succ attempts ih =>
      have hkill : ∀ {c1 : Custody}, Keeps c c1 →
          Keeps c (let sent := c1.signalPrivateGroup .sigkill true
            if sent.2 < 0 then (sent.1, (-1 : Int)) else rounds attempts sent.1).1 := by
        intro c1 h1
        have hs := h1.trans (c1.keeps_signalPrivateGroup .sigkill true)
        simp only
        split
        · exact hs
        · exact hs.trans (ih _)
      have ho := c.keeps_observeLeader
      rw [rounds]
      generalize c.observeLeader = observed at ho
      obtain ⟨c1, exited⟩ := observed
      cases exited with
      | false => exact ho.trans (.of_eq rfl rfl)
      | true =>
          have hscan := ho.trans c1.keeps_scan
          simp only
          generalize c1.groupHasNoOtherMember = scan at hscan
          obtain ⟨c2, other⟩ := scan
          cases other with
          | true => exact hkill hscan
          | false =>
              have hagain := hscan.trans c2.keeps_scan
              simp only
              generalize c2.groupHasNoOtherMember = again at hagain
              obtain ⟨c3, other⟩ := again
              cases other with
              | true => exact hkill hagain
              | false =>
                  have hlast := hagain.trans c3.keeps_observeLeader
                  simp only
                  generalize c3.observeLeader = last at hlast
                  obtain ⟨c4, exited⟩ := last
                  cases exited with
                  | true => exact hlast
                  | false => exact hlast.trans (.of_eq rfl rfl)

theorem keeps_terminatePrivateGroup (c : Custody) : Keeps c c.terminatePrivateGroup.1 := by
  have hfirst := c.keeps_waitForLeaderExit false
  unfold terminatePrivateGroup
  simp only
  split
  · exact hfirst
  · split
    · have hsecond := hfirst.trans (keeps_waitForLeaderExit (c.waitForLeaderExit false).1 true)
      split
      · exact hsecond
      · exact hsecond.trans (keeps_rounds _ _)
    · exact hfirst.trans (keeps_rounds _ _)

/-- Every signal of this custody was sent before the leader was reaped. -/
def Fresh (c : Custody) : Prop := ∀ signal reaped, .signalled signal reaped ∈ c.log → reaped = false

theorem Keeps.fresh {c c' : Custody} (h : Keeps c c') (hr : c.reaped = false) (hf : c.Fresh) :
    c'.reaped = false ∧ c'.Fresh := by
  obtain ⟨hr', calls, hl, hs⟩ := h
  refine ⟨hr'.trans hr, ?_⟩
  intro signal reaped hmem
  rw [hl] at hmem
  rcases List.mem_append.1 hmem with hmem | hmem
  · exact hf signal reaped hmem
  · exact (hs signal reaped hmem).trans hr

/-- A reap is no signal. -/
theorem fresh_reapLeader {c : Custody} (hf : c.Fresh) : c.reapLeader.1.Fresh := by
  unfold reapLeader
  simp only
  split
  · exact hf
  · split
    · exact hf
    · intro signal reaped hmem
      rcases List.mem_append.1 hmem with hmem | hmem
      · exact hf signal reaped hmem
      · simp at hmem

end Custody

/-! ## The worker -/

namespace WorkerProcess

/-- The worker's globals name nobody, and its custody signals only an unreaped leader. -/
structure Sound (worker : WorkerProcess) : Prop where
  alone : worker.process.workerPid = none
  unreaped : ∀ custody, worker.custody = some custody →
    (∃ status, worker.pc = .exited status) ∨ custody.reaped = false
  fresh : ∀ custody, worker.custody = some custody → custody.Fresh

/-- What a step of the worker's main code leaves alone. -/
structure SameFate (worker worker' : WorkerProcess) : Prop where
  pid : worker'.pid = worker.pid
  reaped : worker'.reaped = worker.reaped
  startedStopped : worker'.startedStopped = worker.startedStopped
  sigtermSent : worker'.sigtermSent = worker.sigtermSent
  process : worker'.process = worker.process

open MonitorWorld (turns)

variable {w : MonitorWorld}

theorem sameFate_runWorker (worker : WorkerProcess) (event : GuardEvent) :
    SameFate worker (w.runWorker worker event) := by
  unfold MonitorWorld.runWorker
  split
  · split <;> exact ⟨rfl, rfl, rfl, rfl, rfl⟩
  · split <;> exact ⟨rfl, rfl, rfl, rfl, rfl⟩
  · split <;> exact ⟨rfl, rfl, rfl, rfl, rfl⟩
  · split <;> exact ⟨rfl, rfl, rfl, rfl, rfl⟩
  · split <;> exact ⟨rfl, rfl, rfl, rfl, rfl⟩
  · exact ⟨rfl, rfl, rfl, rfl, rfl⟩
  · exact ⟨rfl, rfl, rfl, rfl, rfl⟩
  · exact ⟨rfl, rfl, rfl, rfl, rfl⟩

theorem turns_reaped (event : GuardEvent) (custody : Custody) :
    (turns event custody).reaped = custody.reaped := by
  cases event <;> rfl

theorem turns_log (event : GuardEvent) (custody : Custody) :
    (turns event custody).log = custody.log := by
  cases event <;> rfl

/-- A step that moves on with the same custody. -/
theorem Sound.goOn {worker : WorkerProcess} (h : Sound worker) {pc : WorkerPc}
    (hpc : ∀ status, worker.pc ≠ .exited status) : Sound { worker with pc } where
  alone := h.alone
  unreaped custody hc := .inr ((h.unreaped custody hc).resolve_left fun ⟨status, hs⟩ => hpc status hs)
  fresh := h.fresh

/-- A step that observes or tears down. -/
theorem Sound.keep {worker : WorkerProcess} (h : Sound worker) {custody custody' : Custody}
    {pc : WorkerPc} (event : GuardEvent) (hcustody : worker.custody = some custody)
    (hpc : ∀ status, worker.pc ≠ .exited status)
    (hkeeps : (turns event custody).Keeps custody') :
    Sound { worker with pc, custody := some custody' } := by
  have hr : custody.reaped = false :=
    (h.unreaped custody hcustody).resolve_left fun ⟨status, hs⟩ => hpc status hs
  obtain ⟨hr', hf'⟩ := hkeeps.fresh ((turns_reaped event custody).trans hr)
    (by rw [Custody.Fresh, turns_log]; exact h.fresh custody hcustody)
  refine ⟨h.alone, ?_, ?_⟩
  · intro custody'' hc
    obtain rfl : custody' = custody'' := by simpa using hc
    exact .inr hr'
  · intro custody'' hc
    obtain rfl : custody' = custody'' := by simpa using hc
    exact hf'

theorem sound_runWorker {worker : WorkerProcess} (h : Sound worker) (event : GuardEvent) :
    Sound (w.runWorker worker event) := by
  unfold MonitorWorld.runWorker
  split
  · rename_i hpc
    have hne : ∀ status, worker.pc ≠ .exited status := by rw [hpc]; simp
    split
    · exact h.goOn hne
    · refine ⟨h.alone, ?_, ?_⟩
      · intro custody hc
        obtain rfl : _ = custody := by simpa using hc
        exact .inr rfl
      · intro custody hc
        obtain rfl : _ = custody := by simpa using hc
        intro signal reaped hmem
        cases hmem
    · exact h
  · rename_i hpc
    have hne : ∀ status, worker.pc ≠ .exited status := by rw [hpc]; simp
    split <;> exact h.goOn hne
  · rename_i custody hpc hcustody
    have hne : ∀ status, worker.pc ≠ .exited status := by rw [hpc]; simp
    have hkeeps := (turns event custody).keeps_observeLeader
    split
    · rename_i custody' ho
      rw [ho] at hkeeps
      exact h.keep event hcustody hne hkeeps
    · rename_i custody' ho
      rw [ho] at hkeeps
      exact h.keep event hcustody hne hkeeps
  · rename_i hpc
    have hne : ∀ status, worker.pc ≠ .exited status := by rw [hpc]; simp
    split <;> exact h.goOn hne
  · rename_i hpc
    have hne : ∀ status, worker.pc ≠ .exited status := by rw [hpc]; simp
    split <;> exact h.goOn hne
  · rename_i started custody hpc hcustody
    have hne : ∀ status, worker.pc ≠ .exited status := by rw [hpc]; simp
    exact h.keep event hcustody hne (turns event custody).keeps_terminatePrivateGroup
  · rename_i started custody hpc hcustody
    refine ⟨h.alone, fun custody' _ => .inl ⟨_, rfl⟩, ?_⟩
    intro custody' hc
    obtain rfl : _ = custody' := by simpa using hc
    refine Custody.fresh_reapLeader ?_
    rw [Custody.Fresh, turns_log]
    exact h.fresh custody hcustody
  · exact h

end WorkerProcess

open WorkerProcess (Sound)

namespace Process

/-- **What a statement of the handler can do**: it moves on with the flag, the check or the
descriptor, or it sends the signal. -/
theorem handle_cases (self : Process) :
    ((self.handle).1.workerPid = self.workerPid) ∧
    ((self.handle).2 = .none ∨ (self.handle).2 = .closePipe ∨
      ∃ pid frames, self.workerPid = some pid ∧ self.frames = .signalling :: frames ∧
        self.handle = ({ self with frames := .signalled :: frames }, .kill pid)) := by
  unfold handle
  split
  · exact ⟨rfl, .inl rfl⟩
  · exact ⟨rfl, .inl rfl⟩
  · split <;> exact ⟨rfl, .inl rfl⟩
  · rename_i frames hframes
    split
    · rename_i pid hpid
      exact ⟨rfl, .inr (.inr ⟨pid, frames, hpid, hframes, rfl⟩)⟩
    · exact ⟨rfl, .inl rfl⟩
  · split <;> exact ⟨rfl, .inl rfl⟩
  · split
    · exact ⟨rfl, .inr (.inl rfl)⟩
    · exact ⟨rfl, .inl rfl⟩
  · exact ⟨rfl, .inl rfl⟩

end Process

/-! ## The invariant -/

namespace MonitorWorld

variable {w : MonitorWorld}

/-- A handler that has not yet passed its `kill`. -/
def Pending (frames : List HandlerPc) : Prop :=
  ∃ frame ∈ frames, frame = .entered ∨ frame = .requested ∨ frame = .signalling

/-- The worker is forked and its pid is in `worker_pid`. -/
def Held (main : MainPc) : Prop := main = .assigned ∨ main = .armed ∨ main = .waiting

/-- No worker yet. -/
def Early (main : MainPc) : Prop := main = .installed ∨ main = .piped

/-- The two windows. -/
def InWindow (main : MainPc) : Prop := main = .forked ∨ ∃ status, main = .reaped status

/-- The signal was passed on. -/
def Heard (w : MonitorWorld) (worker : WorkerProcess) : Prop :=
  worker.startedStopped = true ∨ worker.sigtermSent = true ∨ Pending w.monitor.frames

structure Inv (w : MonitorWorld) : Prop where
  early : Early w.main → w.worker = none ∧
    (w.delivered = true → w.monitor.stopRequested = true ∨ .entered ∈ w.monitor.frames)
  window : InWindow w.main → w.monitor.frames = []
  held : Held w.main → ∃ worker, w.worker = some worker ∧
    w.monitor.workerPid = some worker.pid ∧ worker.reaped = false
  heard : w.main = .forked ∨ Held w.main → ∃ worker, w.worker = some worker ∧
    (w.delivered = true → w.Heard worker)
  pid : (∀ status, w.main ≠ .reaped status) → ¬Held w.main → w.monitor.workerPid = none
  unreaped : w.main = .forked → ∀ worker, w.worker = some worker → worker.reaped = false
  signalling : .signalling ∈ w.monitor.frames → Held w.main
  kills : ∀ kill ∈ w.kills, kill.reaped = false
  worker : ∀ worker, w.worker = some worker → Sound worker

theorem not_held_of_early {main : MainPc} (h : Early main) : ¬Held main := by
  rcases h with rfl | rfl <;> rintro (h | h | h) <;> cases h

theorem inv_init : Inv MonitorWorld.init where
  early _ := ⟨rfl, fun h => by cases h⟩
  window h := by rcases h with h | ⟨status, h⟩ <;> cases h
  held h := absurd h (not_held_of_early (.inl rfl))
  heard h := by
    rcases h with h | h
    · cases h
    · exact absurd h (not_held_of_early (.inl rfl))
  pid _ _ := rfl
  unreaped h := by cases h
  signalling h := by cases h
  kills _ h := by cases h
  worker _ h := by cases h

/-- A step of `main` to a place where nobody knows the worker. -/
theorem Inv.leave (h : Inv w) {main : MainPc} (pipeOpen : Bool) (monitor : Process)
    (hframes : monitor.frames = []) (hpid : monitor.workerPid = none)
    (hmain : ¬Early main ∧ ¬Held main ∧ main ≠ .forked) :
    Inv { w with main, pipeOpen, monitor } where
  early hm := absurd hm hmain.1
  window _ := hframes
  held hm := absurd hm hmain.2.1
  heard hm := by
    rcases hm with hm | hm
    · exact absurd hm hmain.2.2
    · exact absurd hm hmain.2.1
  pid _ _ := hpid
  unreaped hm := absurd hm hmain.2.2
  signalling hm := by
    have hmem : HandlerPc.signalling ∈ monitor.frames := hm
    rw [hframes] at hmem
    cases hmem
  kills := h.kills
  worker := h.worker

/-- A step of `main` while the worker is known. -/
theorem Inv.hold (h : Inv w) {main : MainPc} {monitor : Process} {worker : WorkerProcess}
    (hframes : monitor.frames = []) (hold : w.monitor.frames = [])
    (hworker : w.worker = some worker) (hpid : monitor.workerPid = some worker.pid)
    (hreaped : worker.reaped = false) (hmain : Held main)
    (hheard : w.main = .forked ∨ Held w.main) : Inv { w with main, monitor } where
  early hm := absurd hmain (not_held_of_early hm)
  window _ := hframes
  held _ := ⟨worker, hworker, hpid, hreaped⟩
  heard _ := by
    obtain ⟨worker', hw', hd⟩ := h.heard hheard
    refine ⟨worker', hw', fun hdelivered => (hd hdelivered).imp_right (Or.imp_right ?_)⟩
    rintro ⟨frame, hmem, -⟩
    rw [hold] at hmem
    cases hmem
  pid _ hm := absurd hmain hm
  unreaped hm := by
    obtain rfl : main = .forked := hm
    rcases hmain with hm | hm | hm <;> cases hm
  signalling _ := hmain
  kills := h.kills
  worker := h.worker

theorem inv_fork (h : Inv w) (hs : w.main = .piped) (hframes : w.monitor.frames = [])
    (pid : Pid) : Inv (w.fork pid) := by
  have hpid := h.pid (by simp [hs]) (not_held_of_early (.inr hs))
  constructor
  case early => intro hm; rcases hm with hm | hm <;> cases hm
  case window => exact fun _ => hframes
  case held => intro hm; rcases hm with hm | hm | hm <;> cases hm
  case heard =>
    refine fun _ => ⟨_, rfl, fun hd => .inl ?_⟩
    rcases (h.early (.inr hs)).2 hd with hstop | hmem
    · exact hstop
    · rw [hframes] at hmem
      cases hmem
  case pid => exact fun _ _ => hpid
  case unreaped =>
    intro _ worker hw
    obtain rfl : _ = worker := by simpa [fork] using hw
    rfl
  case signalling =>
    intro hm
    have hmem : HandlerPc.signalling ∈ w.monitor.frames := hm
    rw [hframes] at hmem
    cases hmem
  case kills => exact h.kills
  case worker =>
    intro worker hw
    obtain rfl : _ = worker := by simpa [fork] using hw
    exact { alone := hpid, unreaped := by simp, fresh := by simp }

theorem inv_wait (h : Inv w) (hframes : w.monitor.frames = []) :
    Inv w.wait := by
  unfold wait
  split
  · rename_i worker hworker
    split
    · rename_i status hpc
      constructor
      case early => intro hm; rcases hm with hm | hm <;> cases hm
      case window => exact fun _ => hframes
      case held => intro hm; rcases hm with hm | hm | hm <;> cases hm
      case heard => intro hm; rcases hm with hm | hm | hm | hm <;> cases hm
      case pid => exact fun hm => absurd rfl (hm status)
      case unreaped => intro hm; cases hm
      case signalling =>
        intro hm
        have hmem : HandlerPc.signalling ∈ w.monitor.frames := hm
        rw [hframes] at hmem
        cases hmem
      case kills => exact h.kills
      case worker =>
        intro worker' hw
        obtain rfl : _ = worker' := by simpa using hw
        have hsound := h.worker worker hworker
        exact { alone := hsound.alone, unreaped := hsound.unreaped, fresh := hsound.fresh }
    · exact h
  · exact h

/-- `main` keeps the invariant. -/
theorem inv_mainStep (h : Inv w) (event : MainEvent) : Inv (w.mainStep event) := by
  unfold mainStep
  by_cases hframes : w.monitor.frames = []
  · rw [if_neg (by simpa using hframes)]
    split
    · rename_i hs
      exact h.leave w.pipeOpen w.monitor hframes
        (h.pid (by simp [hs]) (not_held_of_early (.inl hs))) (by simp [Early, Held])
    · rename_i hs _
      obtain ⟨hnone, hdelivered⟩ := h.early (.inl hs)
      have hpid := h.pid (by simp [hs]) (not_held_of_early (.inl hs))
      constructor
      case early => exact fun _ => ⟨hnone, hdelivered⟩
      case window => exact fun _ => hframes
      case held => intro hm; rcases hm with hm | hm | hm <;> cases hm
      case heard => intro hm; rcases hm with hm | hm | hm | hm <;> cases hm
      case pid => exact fun _ _ => hpid
      case unreaped => intro hm; cases hm
      case signalling => exact fun hm => absurd (h.signalling hm) (not_held_of_early (.inl hs))
      case kills => exact h.kills
      case worker => exact h.worker
    · rename_i pid hs
      exact inv_fork h hs hframes pid
    · rename_i hs
      exact h.leave false w.monitor hframes
        (h.pid (by simp [hs]) (not_held_of_early (.inr hs))) (by simp [Early, Held])
    · rename_i hs
      obtain ⟨worker, hworker, -⟩ := h.heard (.inl hs)
      exact h.hold hframes hframes hworker (by simp [hworker]) (h.unreaped hs worker hworker)
        (.inl rfl) (.inl hs)
    · rename_i hs
      obtain ⟨worker, hworker, hpid, hreaped⟩ := h.held (.inl hs)
      exact h.hold hframes hframes hworker hpid hreaped (.inr (.inl rfl)) (.inr (.inl hs))
    · rename_i hs
      obtain ⟨worker, hworker, hpid, hreaped⟩ := h.held (.inr (.inl hs))
      exact h.hold hframes hframes hworker hpid hreaped (.inr (.inr rfl)) (.inr (.inr (.inl hs)))
    · exact inv_wait h hframes
    · exact h.leave w.pipeOpen _ hframes rfl (by simp [Early, Held])
    · rename_i status hs
      exact h.leave (w.pipeOpen && !w.monitor.livenessFd) w.monitor hframes
        (h.pid (by simp [hs]) (by simp [Held, hs])) (by simp [Early, Held])
    · rename_i status hs
      exact h.leave w.pipeOpen _ hframes
        (h.pid (by simp [hs]) (by simp [Held, hs])) (by simp [Early, Held])
    · exact h
  · rw [if_pos hframes]
    exact h

/-! ## The handlers -/

/-- A signal is delivered outside of the windows. -/
theorem inv_deliver (h : Inv w) (hwindow : ¬InWindow w.main) :
    Inv { w with monitor := w.monitor.deliver, delivered := true } where
  early hm := ⟨(h.early hm).1, fun _ => .inr List.mem_cons_self⟩
  window hm := absurd hm hwindow
  held := h.held
  heard hm := by
    obtain ⟨worker, hworker, -⟩ := h.heard hm
    exact ⟨worker, hworker, fun _ => .inr (.inr ⟨.entered, List.mem_cons_self, .inl rfl⟩)⟩
  pid := h.pid
  unreaped := h.unreaped
  signalling hm := by
    rcases List.mem_cons.1 hm with hm | hm
    · cases hm
    · exact h.signalling hm
  kills := h.kills
  worker := h.worker

/-- A statement of the handler that sends nothing. -/
theorem Inv.handled (h : Inv w) {pipeOpen stopRequested livenessFd : Bool}
    {frames : List HandlerPc} (hne : w.monitor.frames ≠ [])
    (hearly : w.monitor.stopRequested = true ∨ .entered ∈ w.monitor.frames →
      stopRequested = true ∨ .entered ∈ frames)
    (hpending : Held w.main → Pending w.monitor.frames → Pending frames)
    (hsignalling : .signalling ∈ frames → Held w.main) :
    Inv { w with
      pipeOpen, monitor := { w.monitor with stopRequested, livenessFd, frames } } where
  early hm := ⟨(h.early hm).1, fun hd => hearly ((h.early hm).2 hd)⟩
  window hm := absurd (h.window hm) hne
  held := h.held
  heard hm := by
    obtain ⟨worker, hworker, hd⟩ := h.heard hm
    refine ⟨worker, hworker, fun hdelivered => (hd hdelivered).imp_right (Or.imp_right ?_)⟩
    rcases hm with hm | hm
    · exact absurd (h.window (.inl hm)) hne
    · exact hpending hm
  pid := h.pid
  unreaped := h.unreaped
  signalling := hsignalling
  kills := h.kills
  worker := h.worker

/-- The innermost handler moves on. -/
theorem pending_next {frame : HandlerPc} {frames frames' : List HandlerPc}
    (hnext : frame = .entered ∨ frame = .requested ∨ frame = .signalling → Pending frames')
    (hrest : ∀ f ∈ frames, f ∈ frames') (h : Pending (frame :: frames)) : Pending frames' := by
  obtain ⟨f, hmem, hf⟩ := h
  rcases List.mem_cons.1 hmem with rfl | hmem
  · exact hnext hf
  · exact ⟨f, hrest f hmem, hf⟩

theorem inv_handle (h : Inv w) : Inv w.handle := by
  cases hframes : w.monitor.frames with
  | nil =>
      have hstay : w.handle = w := by simp only [handle, Process.handle, hframes]
      rw [hstay]
      exact h
  | cons frame frames =>
      have hne : w.monitor.frames ≠ [] := by rw [hframes]; simp
      have hheld : .signalling ∈ frames → Held w.main := fun hm =>
        h.signalling (by rw [hframes]; exact List.mem_cons_of_mem _ hm)
      have hsig : ∀ {f}, f ≠ HandlerPc.signalling → .signalling ∈ f :: frames → Held w.main := by
        intro f hf hm
        rcases List.mem_cons.1 hm with hm | hm
        · exact absurd hm.symm hf
        · exact hheld hm
      have hrest : ∀ {f : HandlerPc}, ∀ g ∈ frames, g ∈ f :: frames :=
        fun g hg => List.mem_cons_of_mem _ hg
      have hearly : ∀ {frames' : List HandlerPc}, frame ≠ .entered → (∀ g ∈ frames, g ∈ frames') →
          w.monitor.stopRequested = true ∨ .entered ∈ w.monitor.frames →
          w.monitor.stopRequested = true ∨ .entered ∈ frames' := by
        intro frames' hf hsub hold
        refine hold.imp id fun hmem => ?_
        rw [hframes] at hmem
        rcases List.mem_cons.1 hmem with hm | hm
        · exact absurd hm.symm hf
        · exact hsub _ hm
      cases frame with
      | entered =>
          simp only [handle, Process.handle, hframes]
          refine h.handled hne (fun _ => .inl rfl) ?_ (hsig (by simp))
          rw [hframes]
          exact fun _ => pending_next (fun _ => ⟨.requested, List.mem_cons_self, .inr (.inl rfl)⟩) hrest
      | requested =>
          by_cases hpid : w.monitor.workerPid = none
          · have hs : w.monitor.handle =
                ({ w.monitor with frames := .signalled :: frames }, .none) := by
              unfold Process.handle
              rw [hframes]
              exact if_neg (by simp [hpid])
            simp only [handle, hs]
            refine h.handled hne (hearly (by simp) hrest) (fun hm => ?_) (hsig (by simp))
            obtain ⟨worker, -, hp, -⟩ := h.held hm
            rw [hpid] at hp
            cases hp
          · -- somebody to tell: the pid is the worker's
            have hs : w.monitor.handle =
                ({ w.monitor with frames := .signalling :: frames }, .none) := by
              unfold Process.handle
              rw [hframes]
              exact if_pos hpid
            have hm : Held w.main := by
              by_contra hm
              refine hpid (h.pid ?_ hm)
              intro status hs
              exact hne (h.window (.inr ⟨status, hs⟩))
            simp only [handle, hs]
            refine h.handled hne (hearly (by simp) hrest) ?_ (fun _ => hm)
            rw [hframes]
            exact fun _ => pending_next
              (fun _ => ⟨.signalling, List.mem_cons_self, .inr (.inr rfl)⟩) hrest
      | signalling =>
          have hm : Held w.main := h.signalling (by rw [hframes]; exact List.mem_cons_self)
          obtain ⟨worker, hworker, hpid, hreaped⟩ := h.held hm
          simp only [handle, Process.handle, hframes, hpid, signalWorker, hworker, if_true]
          constructor
          case early => exact fun he => absurd hm (not_held_of_early he)
          case window => exact fun hw => absurd (h.window hw) hne
          case held => exact fun _ => ⟨_, rfl, rfl, hreaped⟩
          case heard => exact fun _ => ⟨_, rfl, fun _ => .inr (.inl rfl)⟩
          case pid => exact fun _ hnot => absurd hm hnot
          case unreaped =>
            intro _ worker' hw
            obtain rfl : _ = worker' := by simpa using hw
            exact hreaped
          case signalling => exact hsig (by simp)
          case kills =>
            intro kill hmem
            rcases List.mem_append.1 hmem with hmem | hmem
            · exact h.kills kill hmem
            · rw [List.mem_singleton.1 hmem]
              exact hreaped
          case worker =>
            intro worker' hw
            obtain rfl : _ = worker' := by simpa using hw
            have hsound := h.worker worker hworker
            exact { alone := hsound.alone, unreaped := hsound.unreaped, fresh := hsound.fresh }
      | signalled =>
          have hnot : HandlerPc.signalled = .entered ∨ HandlerPc.signalled = .requested ∨
              HandlerPc.signalled = .signalling → False := by simp
          by_cases hfd : w.monitor.livenessFd = true
          · have hs : w.monitor.handle =
                ({ w.monitor with frames := .closing :: frames }, .none) := by
              unfold Process.handle
              rw [hframes]
              exact if_pos hfd
            simp only [handle, hs]
            refine h.handled hne (hearly (by simp) hrest) ?_ (hsig (by simp))
            rw [hframes]
            exact fun _ => pending_next (fun hf => (hnot hf).elim) hrest
          · have hs : w.monitor.handle = ({ w.monitor with frames := frames }, .none) := by
              unfold Process.handle
              rw [hframes]
              exact if_neg hfd
            simp only [handle, hs]
            refine h.handled hne (hearly (by simp) fun _ hg => hg) ?_ hheld
            rw [hframes]
            exact fun _ => pending_next (fun hf => (hnot hf).elim) fun _ hg => hg
      | closing =>
          have hnot : HandlerPc.closing = .entered ∨ HandlerPc.closing = .requested ∨
              HandlerPc.closing = .signalling → False := by simp
          by_cases hfd : w.monitor.livenessFd = true
          · simp only [handle, Process.handle, hframes, hfd, if_true]
            refine h.handled hne (hearly (by simp) hrest) ?_ (hsig (by simp))
            rw [hframes]
            exact fun _ => pending_next (fun hf => (hnot hf).elim) hrest
          · simp only [handle, Process.handle, hframes, hfd]
            refine h.handled hne (hearly (by simp) hrest) ?_ (hsig (by simp))
            rw [hframes]
            exact fun _ => pending_next (fun hf => (hnot hf).elim) hrest
      | closed =>
          have hnot : HandlerPc.closed = .entered ∨ HandlerPc.closed = .requested ∨
              HandlerPc.closed = .signalling → False := by simp
          simp only [handle, Process.handle, hframes]
          refine h.handled hne (hearly (by simp) fun _ hg => hg) ?_ hheld
          rw [hframes]
          exact fun _ => pending_next (fun hf => (hnot hf).elim) fun _ hg => hg

/-! ## The worker's side -/

/-- Another worker with the same fate. -/
theorem Inv.replace (h : Inv w) {worker worker' : WorkerProcess} (hworker : w.worker = some worker)
    (hpid : worker'.pid = worker.pid) (hreaped : worker'.reaped = worker.reaped)
    (hstarted : worker'.startedStopped = worker.startedStopped)
    (hsent : worker'.sigtermSent = worker.sigtermSent) (hsound : Sound worker') :
    Inv { w with worker := some worker' } where
  early hm := by
    have hnone := (h.early hm).1
    rw [hworker] at hnone
    cases hnone
  window := h.window
  held hm := by
    obtain ⟨worker'', hw, hp, hr⟩ := h.held hm
    obtain rfl : worker = worker'' := by simpa [hworker] using hw
    exact ⟨worker', rfl, by rw [hpid]; exact hp, hreaped.trans hr⟩
  heard hm := by
    obtain ⟨worker'', hw, hd⟩ := h.heard hm
    obtain rfl : worker = worker'' := by simpa [hworker] using hw
    refine ⟨worker', rfl, fun hdelivered => ?_⟩
    rw [Heard, hstarted, hsent]
    exact hd hdelivered
  pid := h.pid
  unreaped hm worker'' hw := by
    obtain rfl : worker' = worker'' := by simpa using hw
    exact hreaped.trans (h.unreaped hm worker hworker)
  signalling := h.signalling
  kills := h.kills
  worker worker'' hw := by
    obtain rfl : worker' = worker'' := by simpa using hw
    exact hsound

theorem inv_workerStep (h : Inv w) (event : GuardEvent) : Inv (w.workerStep event) := by
  unfold workerStep
  split
  · rename_i worker hworker
    split
    · exact h
    · have hsame := WorkerProcess.sameFate_runWorker (w := w) worker event
      exact h.replace hworker hsame.pid hsame.reaped hsame.startedStopped hsame.sigtermSent
        (WorkerProcess.sound_runWorker (h.worker worker hworker) event)
  · exact h

/-- A change of the worker's process that leaves its globals without a pid. -/
theorem inv_withWorker (h : Inv w) {worker : WorkerProcess} (hworker : w.worker = some worker)
    {process : Process} (hpid : process.workerPid = worker.process.workerPid) :
    Inv (w.withWorker worker process) := by
  have hsound := h.worker worker hworker
  exact h.replace hworker rfl rfl rfl rfl
    { alone := hpid.trans hsound.alone, unreaped := hsound.unreaped, fresh := hsound.fresh }

theorem inv_deliverWorker (h : Inv w) : Inv w.deliverWorker := by
  unfold deliverWorker
  split
  · rename_i worker hworker
    exact inv_withWorker h hworker rfl
  · exact h

theorem inv_handleWorker (h : Inv w) : Inv w.handleWorker := by
  unfold handleWorker
  split
  · rename_i worker hworker
    obtain ⟨hpid, heffect⟩ := worker.process.handle_cases
    split
    · rename_i process target hs
      -- its globals hold no pid
      rcases heffect with he | he | ⟨pid, frames, hp, -⟩
      · rw [hs] at he
        cases he
      · rw [hs] at he
        cases he
      · rw [(h.worker worker hworker).alone] at hp
        cases hp
    · rename_i process effect _ hs
      rw [hs] at hpid
      exact inv_withWorker h hworker hpid
  · exact h

/-! ## Every run -/

/-- No stop signal is delivered in a window. -/
def OutsideWindows (w : MonitorWorld) (label : MonitorLabel) : Prop :=
  label = .deliver → ¬InWindow w.main

/-- **One step keeps the invariant.** -/
theorem inv_step (h : Inv w) {label : MonitorLabel} (hlabel : OutsideWindows w label) :
    Inv (w.step label) := by
  cases label with
  | main event => exact inv_mainStep h event
  | deliver => exact inv_deliver h (hlabel rfl)
  | handle => exact inv_handle h
  | worker event => exact inv_workerStep h event
  | deliverWorker => exact inv_deliverWorker h
  | handleWorker => exact inv_handleWorker h

theorem inv_reachable (h : monitorMachine.Reachable OutsideWindows w) : Inv w := by
  refine h.invariant (P := Inv) inv_init ?_
  intro s label _ hinv hlabel
  exact inv_step hinv hlabel

/-- The monitor is blocked after a stop signal: the worker was told. -/
def StopHeeded (w : MonitorWorld) : Prop :=
  w.main = .waiting → w.monitor.frames = [] → w.delivered = true →
    ∃ worker, w.worker = some worker ∧
      (worker.sigtermSent = true ∨ worker.startedStopped = true ∨ w.pipeOpen = false)

/-- Nobody was signalled after being waited for. -/
def NoStaleSignal (w : MonitorWorld) : Prop :=
  (∀ kill ∈ w.kills, kill.reaped = false) ∧
    ∀ worker custody, w.worker = some worker → worker.custody = some custody →
      ∀ signal reaped, .signalled signal reaped ∈ custody.log → reaped = false

/--
**Outside of the two windows the guardian loses no stop request and signals no recycled
process.**
-/
theorem stop_request_not_lost (h : monitorMachine.Reachable OutsideWindows w) :
    StopHeeded w ∧ NoStaleSignal w := by
  have hinv := inv_reachable h
  refine ⟨?_, hinv.kills, ?_⟩
  · intro hmain hframes hdelivered
    obtain ⟨worker, hworker, hd⟩ := hinv.heard (.inr (.inr (.inr hmain)))
    refine ⟨worker, hworker, ?_⟩
    rcases hd hdelivered with hs | hs | ⟨frame, hmem, -⟩
    · exact .inr (.inl hs)
    · exact .inl hs
    · rw [hframes] at hmem
      cases hmem
  · intro worker custody hworker hcustody
    exact (hinv.worker worker hworker).fresh custody hcustody

/-- The monitor forks worker 20 and waits for it. -/
def waitingRun : List MonitorLabel :=
  [.main .go, .main (.child 20), .main .go, .main .go, .main .go]

/-- A stop signal finds the monitor waiting; its handler runs to its end. -/
def toldRun : List MonitorLabel :=
  waitingRun ++ [.deliver, .handle, .handle, .handle, .handle, .handle, .handle]

theorem toldRun_reachable : monitorMachine.Reachable OutsideWindows (monitorMachine.run toldRun) := by
  have hquiet : ∀ {s : MonitorWorld} {label : MonitorLabel}, label ≠ .deliver →
      OutsideWindows s label := fun hne heq => absurd heq hne
  have hwaiting : monitorMachine.Reachable OutsideWindows (monitorMachine.run waitingRun) := by
    refine Machine.reachable_init.runFrom ?_
    intro pre label post hsplit
    refine hquiet ?_
    rintro rfl
    have hmem : MonitorLabel.deliver ∈ waitingRun := by rw [hsplit]; simp
    simp [waitingRun] at hmem
  have hdeliver := hwaiting.step (i := .deliver) fun _ hw => by
    rcases hw with hw | ⟨status, hw⟩ <;> cases hw
  have hrun : ∀ {labels : List MonitorLabel}, .deliver ∉ labels → monitorMachine.Reachable
      OutsideWindows (monitorMachine.runFrom
        (monitorMachine.step (monitorMachine.run waitingRun) .deliver) labels) := by
    intro labels hnot
    refine hdeliver.runFrom ?_
    intro pre label post hsplit
    refine hquiet ?_
    rintro rfl
    exact hnot (by rw [hsplit]; simp)
  exact hrun (by simp : .deliver ∉ ([.handle, .handle, .handle, .handle, .handle, .handle] :
    List MonitorLabel))

theorem stop_request_not_lost_waiting :
    StopHeeded (monitorMachine.run toldRun) ∧ NoStaleSignal (monitorMachine.run toldRun) :=
  stop_request_not_lost toldRun_reachable

/-- The signal is delivered before `main` has stored the worker's pid. -/
def lostRun : List MonitorLabel :=
  [.main .go, .main (.child 20), .deliver, .handle, .handle, .handle,
    .main .go, .main .go, .main .go]

/-- The worker has exited and `waitpid` has returned when the signal is delivered. -/
def staleRun : List MonitorLabel :=
  waitingRun ++ [.worker .fail, .main .go, .deliver, .handle, .handle, .handle]

/-- In the first window the request is lost, in the second the handler signals a pid whose
owner is gone. -/
theorem signal_in_window :
    ¬StopHeeded (monitorMachine.run lostRun) ∧ ¬NoStaleSignal (monitorMachine.run staleRun) := by
  constructor
  · intro h
    obtain ⟨worker, hworker, htold⟩ := h rfl rfl rfl
    have hw : some worker = (monitorMachine.run lostRun).worker := hworker.symm
    obtain rfl := Option.some.inj hw
    rcases htold with h | h | h <;> cases h
  · intro h
    have hkill := h.1 ⟨20, true⟩ (by decide)
    cases hkill

end MonitorWorld

end Vergerail
