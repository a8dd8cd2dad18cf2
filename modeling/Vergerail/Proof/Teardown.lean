import Mathlib.Data.List.Chain
import Mathlib.Tactic.ByContra
import Vergerail.Native.Guardian

/-!
# The guardian's teardown

What has to be shown: whatever the leader and the other members of its group do between
the guardian's system calls, a teardown that reports success leaves nobody behind, and one
that gives up had a leader that outlived both signals, or killed the group round after round
and still met a member in every round, one that joined after the last kill or outlived it.

It is not so. `signal_private_group` takes a leader that is gone for an error unless its
caller has seen it dead, and `wait_for_leader_exit` has just seen it alive. A leader that
exits between these two looks makes the teardown give up at once. That is the only way:
the calls before the last of these looks leave the group alone, so the schedule alone says
whether it happens.
-/

namespace Vergerail

namespace Group

/-! ## What the group can do by itself -/

variable {g : Group}

/-- A dead leader stays dead. -/
theorem leaderEnd_move (h : g.leaderEnd ≠ none) (m : Move) : (g.move m).leaderEnd ≠ none := by
  cases m with
  | leaderForks child =>
      simp only [move]
      split
      · split <;> exact h
      · exact h
  | memberForks parent child =>
      simp only [move]
      split
      · split <;> exact h
      · exact h
  | memberExits pid => exact h
  | leaderExits how =>
      simp only [move]
      rw [if_neg h]
      exact h

/-- Nobody is left to fork. -/
theorem members_move (h : g.leaderEnd ≠ none) (hnil : g.members = []) (m : Move) :
    (g.move m).members = [] := by
  -- a fork needs a parent that is alive
  cases m with
  | leaderForks child =>
      simp only [move]
      split
      · rw [if_neg (by simp [h])]
        exact hnil
      · exact hnil
  | memberForks parent child =>
      simp only [move]
      split
      · rw [if_neg (by simp [hnil])]
        exact hnil
      · exact hnil
  | memberExits pid => simp [move, hnil]
  | leaderExits how =>
      simp only [move]
      rw [if_neg h]
      exact hnil

theorem leaderEnd_moves (h : g.leaderEnd ≠ none) (ms : List Move) :
    (g.moves ms).leaderEnd ≠ none := by
  induction ms generalizing g with
  | nil => exact h
  | cons m ms ih => exact ih (leaderEnd_move h m)

theorem members_moves (h : g.leaderEnd ≠ none) (hnil : g.members = []) (ms : List Move) :
    (g.moves ms).members = [] := by
  induction ms generalizing g with
  | nil => exact hnil
  | cons m ms ih => exact ih (leaderEnd_move h m) (members_move h hnil m)

/-- A member was one before or joined. -/
theorem mem_moves {pid : Pid} {ms : List Move} (h : pid ∈ (g.moves ms).members) :
    pid ∈ g.members ∨ pid ∈ g.joins ms := by
  induction ms generalizing g with
  | nil => exact .inl h
  | cons m ms ih =>
      rcases ih h with hmem | hjoin
      · -- after the first move: it was there before, or this move brought it
        by_cases hold : pid ∈ g.members
        · exact .inl hold
        · exact .inr (List.mem_append_left _ (List.mem_filter.2 ⟨hmem, by simpa using hold⟩))
      · exact .inr (List.mem_append_right _ hjoin)

/-- Dead after some of the turns is dead after more of them. -/
theorem leaderEnd_after_mono {schedule : List Turn} {j k : Nat} (hjk : j ≤ k)
    (h : (g.after (schedule.take j)).leaderEnd ≠ none) :
    (g.after (schedule.take k)).leaderEnd ≠ none := by
  have hsplit : schedule.take k = schedule.take j ++ (schedule.drop j).take (k - j) := by
    rw [← List.take_add, Nat.add_sub_cancel' hjk]
  rw [hsplit, after, List.foldl_append]
  generalize (schedule.drop j).take (k - j) = rest
  change (g.after (schedule.take j)).leaderEnd ≠ none at h
  generalize hg : g.after (schedule.take j) = g' at h
  rw [after] at hg
  rw [hg]
  clear hg hsplit
  induction rest generalizing g' with
  | nil => exact h
  | cons turn rest ih => exact ih _ (leaderEnd_moves h turn.moves)

end Group

namespace Custody

variable {c : Custody} {g : Group} {schedule : List Turn} {k : Nat}

/-! ## What the calls report -/

/-- `c` has made `k` calls, none of which touched the group. -/
def Track (g : Group) (schedule : List Turn) (k : Nat) (c : Custody) : Prop :=
  c.group = g.after (schedule.take k) ∧ c.schedule = schedule.drop k

theorem track_start (g : Group) (schedule : List Turn) : Track g schedule 0 (start g schedule) :=
  ⟨rfl, rfl⟩

theorem Track.enter (h : Track g schedule k c) : Track g schedule (k + 1) c.enter := by
  obtain ⟨hg, hs⟩ := h
  refine ⟨?_, by show c.schedule.tail = _; rw [hs, List.tail_drop]⟩
  show c.group.moves c.turn.moves = _
  rw [turn, hs, hg, List.headD_eq_head?_getD, List.head?_drop, List.take_add_one, Group.after,
    Group.after, List.foldl_append]
  cases schedule[k]? with
  | none => rfl
  | some turn => rfl

theorem Track.congr {c' : Custody} (h : Track g schedule k c) (hg : c'.group = c.group)
    (hs : c'.schedule = c.schedule) : Track g schedule k c' := ⟨hg.trans h.1, hs.trans h.2⟩

theorem enter_dead (h : c.group.leaderEnd ≠ none) : c.enter.group.leaderEnd ≠ none :=
  Group.leaderEnd_moves h _

/-- What `observe_leader` reports. -/
theorem observeLeader_spec (c : Custody) : ∃ exited, c.observeLeader.2 = exited ∧
    c.observeLeader.1.group = c.enter.group ∧ c.observeLeader.1.schedule = c.enter.schedule ∧
    c.observeLeader.1.reaped = c.reaped ∧ c.observeLeader.1.log = c.log ++ [.observed exited] ∧
    (exited = true ↔ c.enter.group.leaderEnd ≠ none) := by
  cases h : c.enter.group.leaderEnd with
  | none =>
      simp only [observeLeader, h]
      exact ⟨false, rfl, rfl, rfl, rfl, rfl, by simp⟩
  | some how =>
      simp only [observeLeader, h]
      exact ⟨true, rfl, rfl, rfl, rfl, rfl, by simp⟩

theorem observeLeader_incidents (c : Custody) :
    c.observeLeader.1.incidents = c.incidents ++ c.joined := by
  cases h : c.enter.group.leaderEnd with
  | none =>
      simp only [observeLeader, h]
      rfl
  | some how =>
      simp only [observeLeader, h]
      rfl

/-- A member at the next call is one now or joins before it. -/
theorem mem_enter {pid : Pid} (h : pid ∈ c.enter.group.members) :
    pid ∈ c.group.members ∨ .joined pid ∈ c.joined :=
  (Group.mem_moves h).imp id List.mem_map_of_mem

/-- The buffer holds another pid if there is another member. -/
theorem listpgrppids_any (c : Custody) :
    c.listpgrppids.any (fun pid => pid ≠ c.group.leader) = true ↔ c.group.members ≠ [] := by
  unfold listpgrppids maxGroupMembers
  rw [List.any_eq_true]
  constructor
  · rintro ⟨pid, hmem, hne⟩ hnil
    rw [hnil] at hmem
    have : pid = c.group.leader := by simpa using hmem
    simp [this] at hne
  · intro hne
    -- the buffer has room for two, so the leader cannot crowd the first member out
    obtain ⟨pid, rest, hm⟩ := List.exists_cons_of_ne_nil hne
    refine ⟨pid, by rw [hm]; simp, ?_⟩
    have hmem : pid ∈ c.group.members := by rw [hm]; simp
    have : pid ≠ c.group.leader := fun h => c.group.apart (h ▸ hmem)
    simpa using this

/-- What the scan reports. -/
theorem scan_spec (c : Custody) : ∃ other, c.groupHasNoOtherMember.2 = other ∧
    c.groupHasNoOtherMember.1.group = c.enter.group ∧
    c.groupHasNoOtherMember.1.schedule = c.enter.schedule ∧
    c.groupHasNoOtherMember.1.reaped = c.reaped ∧
    c.groupHasNoOtherMember.1.log = c.log ++ [.scanned other] ∧
    (other = true ↔ c.enter.group.members ≠ []) :=
  ⟨_, rfl, rfl, rfl, rfl, rfl, c.enter.listpgrppids_any⟩

/-- What the scan meets. -/
theorem scan_incidents (c : Custody) : ∃ others,
    c.groupHasNoOtherMember.1.incidents = c.incidents ++ c.joined ++ [.met others] ∧
    (∀ pid ∈ others, pid ∈ c.enter.group.members) ∧
    (c.groupHasNoOtherMember.2 = true → others ≠ []) := by
  refine ⟨_, rfl, fun pid hmem => ?_, fun hother hnil => ?_⟩
  · obtain ⟨hlisted, hne⟩ := List.mem_filter.1 hmem
    rcases List.mem_cons.1 (List.mem_of_mem_take hlisted) with rfl | hmember
    · simp at hne
    · exact hmember
  · obtain ⟨pid, hmem, hne⟩ := List.any_eq_true.1 hother
    exact List.ne_nil_of_mem (List.mem_filter.2 ⟨hmem, hne⟩) hnil

/-! ## What the signals do -/

/-- `killpg` finds nobody at worst. -/
theorem killpgChecked_spec (c : Custody) (signal : Signal) :
    (c.killpgChecked signal).2 = 0 ∧ (c.killpgChecked signal).1.reaped = c.reaped ∧
    (c.killpgChecked signal).1.log = c.log ++ [.signalled signal c.reaped] ∧
    (c.killpgChecked signal).1.schedule = c.enter.schedule ∧
    ((c.killpgChecked signal).1.group = c.enter.group ∧
        (c.killpgChecked signal).1.incidents = c.incidents ++ c.joined ∧
        (signal = .sigkill → c.enter.group.members = []) ∨
      signal = .sigkill ∧ (c.killpgChecked signal).1.group = c.enter.group.kill c.turn ∧
        (c.killpgChecked signal).1.incidents =
          c.incidents ++ c.joined ++ [.killed (c.enter.group.kill c.turn).members]) := by
  by_cases hempty : c.enter.group.leaderEnd ≠ none ∧ c.enter.group.members = []
  · -- `ESRCH` is taken for an empty group, and so for a success
    have hk : c.killpg signal =
        ({ c.enter.record (.signalled signal c.reaped) with errno := .esrch }, -1) := if_pos hempty
    have hc : c.killpgChecked signal =
        ({ c.enter.record (.signalled signal c.reaped) with errno := .esrch }, 0) := by
      simp only [killpgChecked, hk]
      exact if_neg (fun hne => hne.2 rfl)
    rw [hc]
    exact ⟨rfl, rfl, rfl, rfl, .inl ⟨rfl, rfl, fun _ => hempty.2⟩⟩
  · cases signal with
    | sigterm =>
        have hk : c.killpg .sigterm = (c.enter.record (.signalled .sigterm c.reaped), 0) :=
          if_neg hempty
        have hc : c.killpgChecked .sigterm = (c.enter.record (.signalled .sigterm c.reaped), 0) := by
          simp only [killpgChecked, hk]
          exact if_neg (fun hneg => absurd hneg.1 (by decide))
        rw [hc]
        exact ⟨rfl, rfl, rfl, rfl, .inl ⟨rfl, rfl, fun h => by cases h⟩⟩
    | sigkill =>
        have hk : c.killpg .sigkill = (({ c.enter.record (.signalled .sigkill c.reaped) with
            group := c.enter.group.kill c.turn } : Custody).note
              (.killed (c.enter.group.kill c.turn).members), 0) := if_neg hempty
        have hc : c.killpgChecked .sigkill = (({ c.enter.record (.signalled .sigkill c.reaped) with
            group := c.enter.group.kill c.turn } : Custody).note
              (.killed (c.enter.group.kill c.turn).members), 0) := by
          simp only [killpgChecked, hk]
          exact if_neg (fun hneg => absurd hneg.1 (by decide))
        rw [hc]
        exact ⟨rfl, rfl, rfl, rfl, .inr ⟨rfl, rfl, rfl⟩⟩

theorem kill_dead (h : g.leaderEnd ≠ none) (turn : Turn) : (g.kill turn).leaderEnd ≠ none := by
  show (if _ then _ else _) ≠ none
  rw [if_neg (fun hk => h hk.1)]
  exact h

/-- A leader that is alive at `getpgid` is signalled. -/
theorem signal_alive (h : c.enter.group.leaderEnd = none) (signal : Signal)
    (leaderExited : Bool) :
    c.signalPrivateGroup signal leaderExited = c.enter.killpgChecked signal := by
  have hg : c.getpgid = (c.enter, some c.enter.group.leader) := by simp only [getpgid, h]
  simp only [signalPrivateGroup, hg]
  exact if_neg (fun hne => hne rfl)

/-- **The slip.** A leader that died since it was seen alive is an error. -/
theorem signal_slipped (h : c.enter.group.leaderEnd ≠ none) (signal : Signal) :
    (c.signalPrivateGroup signal false).2 = -1 ∧
      (c.signalPrivateGroup signal false).1.log = c.log := by
  obtain ⟨how, hhow⟩ := Option.ne_none_iff_exists'.1 h
  have hg : c.getpgid = ({ c.enter with errno := .esrch }, none) := by simp only [getpgid, hhow]
  simp only [signalPrivateGroup, hg]
  exact ⟨rfl, rfl⟩

/--
A leader that is known to be dead does not stop the `SIGKILL`. It reaches the other members,
unless they are gone by then.
-/
theorem signal_exited (h : c.group.leaderEnd ≠ none) :
    (c.signalPrivateGroup .sigkill true).2 = 0 ∧
    (c.signalPrivateGroup .sigkill true).1.group.leaderEnd ≠ none ∧
    (c.signalPrivateGroup .sigkill true).1.reaped = c.reaped ∧
    ∃ calls befell, (c.signalPrivateGroup .sigkill true).1.log = c.log ++ calls ∧
      (c.signalPrivateGroup .sigkill true).1.incidents = c.incidents ++ befell ∧
      ((c.signalPrivateGroup .sigkill true).1.group.members = [] ∨
        .signalled .sigkill c.reaped ∈ calls ∧ ∃ before, befell =
          before ++ [.killed (c.signalPrivateGroup .sigkill true).1.group.members]) := by
  -- `getpgid` does not know the zombie: the scan decides whether `killpg` is called
  obtain ⟨how, hhow⟩ := Option.ne_none_iff_exists'.1 (enter_dead h)
  have hg : c.getpgid = ({ c.enter with errno := .esrch }, none) := by simp only [getpgid, hhow]
  generalize hc' : ({ c.enter with errno := .esrch } : Custody) = c' at hg
  have hdead' : c'.group.leaderEnd ≠ none := by rw [← hc']; exact enter_dead h
  have hesrch : c'.errno = .esrch := by rw [← hc']
  have hlog' : c'.log = c.log := by rw [← hc']; rfl
  have hinc' : c'.incidents = c.incidents ++ c.joined := by rw [← hc']; rfl
  have hreaped' : c'.reaped = c.reaped := by rw [← hc']; rfl
  obtain ⟨other, hother, hgroup, -, hreaped, hlog, hiff⟩ := scan_spec c'
  obtain ⟨others, hinc, -, -⟩ := scan_incidents c'
  rw [hlog'] at hlog
  rw [hinc', List.append_assoc, List.append_assoc] at hinc
  have hs : c.signalPrivateGroup .sigkill true =
      if other then c'.groupHasNoOtherMember.1.killpgChecked .sigkill
      else (c'.groupHasNoOtherMember.1, 0) := by
    simp only [signalPrivateGroup, hg, hesrch, ← hother]
    rfl
  generalize c'.groupHasNoOtherMember.1 = scan at hgroup hreaped hlog hinc hs
  have hdead : scan.group.leaderEnd ≠ none := by
    rw [hgroup]
    exact enter_dead hdead'
  cases other with
  | false =>
      rw [hs]
      refine ⟨rfl, hdead, hreaped.trans hreaped', _, _, hlog, hinc, .inl ?_⟩
      rw [if_neg Bool.false_ne_true, hgroup]
      by_contra hne
      exact Bool.false_ne_true (hiff.2 hne)
  | true =>
      -- between the scan and the kill the others may go by themselves
      obtain ⟨hz, hkr, hkl, -, hkg⟩ := scan.killpgChecked_spec .sigkill
      rw [hs, if_pos rfl]
      rw [hlog, hreaped.trans hreaped', List.append_assoc] at hkl
      rw [hinc, List.append_assoc] at hkg
      rcases hkg with ⟨hkg, hki, hgone⟩ | ⟨-, hkg, hki⟩
      · refine ⟨hz, by rw [hkg]; exact enter_dead hdead, hkr.trans (hreaped.trans hreaped'), _, _,
          hkl, hki, .inl ?_⟩
        rw [hkg]
        exact hgone rfl
      · refine ⟨hz, by rw [hkg]; exact kill_dead (enter_dead hdead) _,
          hkr.trans (hreaped.trans hreaped'), _, _, hkl,
          hki.trans (List.append_assoc _ _ _), .inr ⟨by simp,
            c.joined ++ (c'.joined ++ [.met others]) ++ scan.joined, by rw [hkg]⟩⟩

/-! ## Waiting for the leader -/

theorem awaitExit_succ (attempts : Nat) (c : Custody) : awaitExit (attempts + 1) c =
    if c.observeLeader.2 then (c.observeLeader.1, 0) else awaitExit attempts c.observeLeader.1 := by
  rw [awaitExit]
  generalize c.observeLeader = observed
  cases observed with
  | mk c' exited => cases exited <;> rfl

theorem awaitExit_spec (attempts : Nat) (c : Custody) :
    (awaitExit attempts c).1.reaped = c.reaped ∧
    (((awaitExit attempts c).2 = 0 ∧ (awaitExit attempts c).1.group.leaderEnd ≠ none) ∨
      ((awaitExit attempts c).2 = 1 ∧
        (awaitExit attempts c).1.log = c.log ++ List.replicate attempts (.observed false))) := by
  induction attempts generalizing c with
  | zero => exact ⟨rfl, .inr ⟨rfl, by simp [awaitExit]⟩⟩
  | succ attempts ih =>
      obtain ⟨exited, hexited, hgroup, -, hreaped, hlog, hiff⟩ := c.observeLeader_spec
      have hs := awaitExit_succ attempts c
      rw [hexited] at hs
      cases exited with
      | true =>
          rw [hs]
          refine ⟨hreaped, .inl ⟨rfl, ?_⟩⟩
          rw [if_pos rfl, hgroup]
          exact hiff.1 rfl
      | false =>
          obtain ⟨hr, hout⟩ := ih c.observeLeader.1
          rw [hs]
          refine ⟨hr.trans hreaped, hout.imp id fun hout => ⟨hout.1, ?_⟩⟩
          rw [if_neg Bool.false_ne_true, hout.2, hlog, List.replicate_succ]
          simp

/-- The loop leaves the group alone. -/
theorem awaitExit_track (attempts : Nat) {c : Custody} (h : Track g schedule k c) :
    ((awaitExit attempts c).2 = 0 →
      (g.after (schedule.take (k + attempts))).leaderEnd ≠ none) ∧
    ((awaitExit attempts c).2 = 1 → Track g schedule (k + attempts) (awaitExit attempts c).1) := by
  induction attempts generalizing c k with
  | zero => exact ⟨fun h0 => absurd (show (1 : Int) = 0 from h0) (by decide), fun _ => h.congr rfl rfl⟩
  | succ attempts ih =>
      obtain ⟨exited, hexited, hgroup, hschedule, -, -, hiff⟩ := c.observeLeader_spec
      have hs := awaitExit_succ attempts c
      rw [hexited] at hs
      have htrack := h.enter
      rw [hs, show k + (attempts + 1) = k + 1 + attempts by omega]
      cases exited with
      | true =>
          refine ⟨fun _ => ?_, fun h1 => absurd (show (0 : Int) = 1 from h1) (by decide)⟩
          have hdead := hiff.1 rfl
          rw [htrack.1] at hdead
          exact Group.leaderEnd_after_mono (Nat.le_add_right _ _) hdead
      | false => exact ih (htrack.congr hgroup hschedule)

/-- The leader is alive after `calls` calls and dead before the next one. -/
def SlipsAway (g : Group) (schedule : List Turn) (calls : Nat) : Prop :=
  (g.after (schedule.take calls)).leaderEnd = none ∧
    (g.after (schedule.take (calls + 1))).leaderEnd ≠ none

/-- The calls of one wait that the leader outlives. -/
def outlived (signal : Signal) : List Call :=
  .observed false :: .signalled signal false :: List.replicate scanAttempts (.observed false)

theorem waitForLeaderExit_eq (c : Custody) (forceKill : Bool) : c.waitForLeaderExit forceKill =
    if c.observeLeader.2 then (c.observeLeader.1, 0)
    else
      let signalled := c.observeLeader.1.signalPrivateGroup
        (if forceKill then .sigkill else .sigterm) false
      if signalled.2 < 0 then (signalled.1, -1) else awaitExit scanAttempts signalled.1 := by
  unfold waitForLeaderExit
  generalize c.observeLeader = observed
  cases observed with
  | mk c' exited => cases exited <;> rfl

/--
**One wait for the leader.** It sees the leader dead, or the leader slips away between the
observation and the signal, or the leader outlives every attempt.
-/
theorem waitForLeaderExit_spec (forceKill : Bool) (h : Track g schedule k c)
    (hreaped : c.reaped = false) :
    ((c.waitForLeaderExit forceKill).2 = 0 ∧ ¬SlipsAway g schedule (k + 1) ∧
      (c.waitForLeaderExit forceKill).1.group.leaderEnd ≠ none ∧
      (c.waitForLeaderExit forceKill).1.reaped = false ∧
      (forceKill = false →
        (g.after (schedule.take (k + 3 + scanAttempts))).leaderEnd ≠ none)) ∨
    ((c.waitForLeaderExit forceKill).2 = -1 ∧ SlipsAway g schedule (k + 1) ∧
      (c.waitForLeaderExit forceKill).1.log = c.log ++ [.observed false]) ∨
    ((c.waitForLeaderExit forceKill).2 = 1 ∧ ¬SlipsAway g schedule (k + 1) ∧
      (c.waitForLeaderExit forceKill).1.log =
        c.log ++ outlived (if forceKill then .sigkill else .sigterm) ∧
      (c.waitForLeaderExit forceKill).1.reaped = false ∧
      (forceKill = false →
        Track g schedule (k + 3 + scanAttempts) (c.waitForLeaderExit forceKill).1)) := by
  obtain ⟨exited, hexited, hgroup, hschedule, hr, hlog, hiff⟩ := c.observeLeader_spec
  rw [waitForLeaderExit_eq, hexited]
  have ht1 : Track g schedule (k + 1) c.observeLeader.1 := h.enter.congr hgroup hschedule
  cases exited with
  | true =>
      have hdead := hiff.1 rfl
      have hdead' : (g.after (schedule.take (k + 1))).leaderEnd ≠ none := by
        rw [← h.enter.1]
        exact hdead
      refine .inl ⟨rfl, fun hs => hdead' hs.1, ?_, hr.trans hreaped, fun _ => ?_⟩
      · show c.observeLeader.1.group.leaderEnd ≠ none
        rw [hgroup]
        exact hdead
      · exact Group.leaderEnd_after_mono (by omega) hdead'
  | false =>
      generalize hc1 : c.observeLeader.1 = c1 at ht1 hr hlog hgroup
      have halive : (g.after (schedule.take (k + 1))).leaderEnd = none := by
        rw [← h.enter.1]
        by_contra hne
        exact Bool.false_ne_true (hiff.2 hne)
      rw [if_neg Bool.false_ne_true]
      have ht2 := ht1.enter
      by_cases hslip : c1.enter.group.leaderEnd = none
      · -- the signal is sent
        have hnot : ¬SlipsAway g schedule (k + 1) := fun hs => hs.2 (by rw [← ht2.1]; exact hslip)
        obtain ⟨hz, hkr, hkl, hks, hkg⟩ :=
          c1.enter.killpgChecked_spec (if forceKill then .sigkill else .sigterm)
        simp only [signal_alive hslip]
        generalize hc2 : c1.enter.killpgChecked (if forceKill then .sigkill else .sigterm) = sent
          at hz hkr hkl hks hkg
        rw [if_neg (by rw [hz]; decide)]
        obtain ⟨har, hout⟩ := awaitExit_spec scanAttempts sent.1
        have hreaped' : sent.1.reaped = false := by rw [hkr]; exact hr.trans hreaped
        -- a `SIGTERM` moves nobody, so the schedule alone still says where the group is
        have htrack : forceKill = false → Track g schedule (k + 3) sent.1 := by
          rintro rfl
          rcases hkg with ⟨hkg, -⟩ | ⟨hk, -⟩
          · exact ht2.enter.congr hkg hks
          · cases hk
        rcases hout with ⟨h0, hdead⟩ | ⟨h1, hlog'⟩
        · refine .inl ⟨h0, hnot, hdead, har.trans hreaped', fun hf => ?_⟩
          exact (awaitExit_track scanAttempts (htrack hf)).1 h0
        · refine .inr (.inr ⟨h1, hnot, ?_, har.trans hreaped', fun hf => ?_⟩)
          · have hc1r : c1.enter.reaped = false := hr.trans hreaped
            rw [hlog', hkl, hc1r]
            show (c1.log ++ _) ++ _ = _
            rw [hlog, outlived]
            simp
          · exact (awaitExit_track scanAttempts (htrack hf)).2 h1
      · -- it slipped away
        obtain ⟨hneg, hkl⟩ := signal_slipped hslip (if forceKill then .sigkill else .sigterm)
        refine .inr (.inl ?_)
        simp only
        rw [if_pos (by rw [hneg]; decide)]
        exact ⟨rfl, ⟨halive, by rw [← ht2.1]; exact hslip⟩, hkl.trans hlog⟩

/-! ## The rounds -/

/-- The leader is a zombie and nobody else is left, now or later. -/
def Clean (c : Custody) : Prop :=
  c.group.leaderEnd ≠ none ∧ c.reaped = false ∧ c.group.members = [] ∧
    ∀ later, (c.group.moves later).members = []

/-- What happened in one round. -/
structure Round where
  calls : List Call
  incidents : List Incident

/-- The round starts from a dead leader and meets another member. -/
def Round.MeetsOthers (round : Round) : Prop :=
  round.calls.head? = some (.observed true) ∧ .scanned true ∈ round.calls

/-- The round ends with a `SIGKILL` to the group, which `survivors` outlive. -/
def Round.Kills (round : Round) (survivors : List Pid) : Prop :=
  .signalled .sigkill false ∈ round.calls ∧
    ∃ before, round.incidents = before ++ [.killed survivors]

/-- The round meets a member that is one of `survivors` or joined since they were left. -/
def Round.MeetsAfter (round : Round) (survivors : List Pid) : Prop :=
  ∃ before others after pid, round.incidents = before ++ .met others :: after ∧ pid ∈ others ∧
    (pid ∈ survivors ∨ .joined pid ∈ before)

/-- `round` kills the group, and `next` meets a member that outlived it or joined after it. -/
def KillsInVain (round next : Round) : Prop :=
  ∃ survivors, round.Kills survivors ∧ next.MeetsAfter survivors

/--
`SCAN_ATTEMPTS` rounds met other members. Each of them but the last killed the group in vain;
what the last one met may be gone by itself.
-/
def Crowded (c : Custody) : Prop :=
  ∃ (calls : List Call) (incidents : List Incident) (met : List Round),
    c.log = calls ++ (met.map Round.calls).flatten ∧
    c.incidents = incidents ++ (met.map Round.incidents).flatten ∧
    met.length = scanAttempts ∧ (∀ round ∈ met, round.MeetsOthers) ∧ met.IsChain KillsInVain

theorem rounds_crowded (attempts : Nat) {scan : Custody × Bool}
    (hobserve : c.observeLeader.2 = true) (hscan : c.observeLeader.1.groupHasNoOtherMember = scan)
    (hother : scan.2 = true) (hsent : (scan.1.signalPrivateGroup .sigkill true).2 = 0) :
    rounds (attempts + 1) c = rounds attempts (scan.1.signalPrivateGroup .sigkill true).1 := by
  rw [rounds]
  generalize c.observeLeader = observed at hobserve hscan
  obtain ⟨c1, exited⟩ := observed
  obtain rfl : exited = true := hobserve
  obtain ⟨c2, other⟩ := scan
  obtain rfl : other = true := hother
  simp only [hscan]
  exact if_neg (by rw [hsent]; decide)

theorem rounds_empty (attempts : Nat) {scan again : Custody × Bool}
    (hobserve : c.observeLeader.2 = true) (hscan : c.observeLeader.1.groupHasNoOtherMember = scan)
    (hother : scan.2 = false) (hagain : scan.1.groupHasNoOtherMember = again)
    (hempty : again.2 = false) (hlast : again.1.observeLeader.2 = true) :
    rounds (attempts + 1) c = (again.1.observeLeader.1, 0) := by
  rw [rounds]
  generalize c.observeLeader = observed at hobserve hscan
  obtain ⟨c1, exited⟩ := observed
  obtain rfl : exited = true := hobserve
  obtain ⟨c2, other⟩ := scan
  obtain rfl : other = false := hother
  obtain ⟨c3, empty⟩ := again
  obtain rfl : empty = false := hempty
  simp only [hscan, hagain]
  generalize c3.observeLeader = last at hlast
  obtain ⟨c4, exited⟩ := last
  obtain rfl : exited = true := hlast
  rfl

/-- A dead leader is observed. -/
theorem observe_dead (hdead : c.group.leaderEnd ≠ none) :
    c.observeLeader.2 = true ∧ c.observeLeader.1.group = c.enter.group ∧
      c.observeLeader.1.reaped = c.reaped ∧
      c.observeLeader.1.log = c.log ++ [.observed true] := by
  obtain ⟨exited, hexited, hgroup, -, hr, hlog, hiff⟩ := c.observeLeader_spec
  obtain rfl : exited = true := hiff.2 (enter_dead hdead)
  exact ⟨hexited, hgroup, hr, hlog⟩

/-- A round of a dead leader whose first scan meets nobody is the last one. -/
theorem rounds_nobody (attempts : Nat) {c : Custody} (hdead : c.group.leaderEnd ≠ none)
    (hreaped : c.reaped = false) (hnil : c.observeLeader.1.enter.group.members = []) :
    (rounds (attempts + 1) c).2 = 0 ∧ (rounds (attempts + 1) c).1.Clean := by
  obtain ⟨ho, hgroup1, hr1, -⟩ := observe_dead hdead
  have hdead1 : c.observeLeader.1.enter.group.leaderEnd ≠ none := by
    refine enter_dead ?_
    rw [hgroup1]
    exact enter_dead hdead
  obtain ⟨other, hother, hgroup2, -, hr2, -, hiff2⟩ := scan_spec c.observeLeader.1
  obtain rfl : other = false := by
    cases other with
    | false => rfl
    | true => exact absurd hnil (hiff2.1 rfl)
  generalize hscan : c.observeLeader.1.groupHasNoOtherMember = scan at hother hgroup2 hr2
  rw [← hgroup2] at hdead1 hnil
  obtain ⟨empty, hempty, hgroup3, -, hr3, -, hiff3⟩ := scan_spec scan.1
  have hnil3 : scan.1.enter.group.members = [] := Group.members_moves hdead1 hnil _
  obtain rfl : empty = false := by
    cases empty with
    | false => rfl
    | true => exact absurd hnil3 (hiff3.1 rfl)
  have hdead3 : scan.1.groupHasNoOtherMember.1.group.leaderEnd ≠ none := by
    rw [hgroup3]
    exact enter_dead hdead1
  generalize hagain : scan.1.groupHasNoOtherMember = again at hempty hdead3 hr3 hgroup3
  obtain ⟨hlast, hgroup4, hr4, -⟩ := observe_dead hdead3
  rw [rounds_empty attempts ho hscan hother hagain hempty hlast]
  have hnil4 : again.1.observeLeader.1.group.members = [] := by
    rw [hgroup4]
    refine Group.members_moves hdead3 ?_ _
    rw [hgroup3]
    exact hnil3
  have hdead4 : again.1.observeLeader.1.group.leaderEnd ≠ none := by
    rw [hgroup4]
    exact enter_dead hdead3
  exact ⟨rfl, hdead4, hr4.trans (hr3.trans (hr2.trans (hr1.trans hreaped))), hnil4,
    fun later => Group.members_moves hdead4 hnil4 later⟩

/-- A group without other members has none at the scan of the next round. -/
theorem nobody_at_scan (hdead : c.group.leaderEnd ≠ none) (hnil : c.group.members = []) :
    c.observeLeader.1.enter.group.members = [] := by
  obtain ⟨-, hgroup, -⟩ := observe_dead hdead
  refine Group.members_moves ?_ ?_ _
  · rw [hgroup]
    exact enter_dead hdead
  · rw [hgroup]
    exact Group.members_moves hdead hnil _

/-- The scan of a round meets a member from before the round or one that joined in it. -/
theorem round_meets (hdead : c.group.leaderEnd ≠ none)
    (hother : c.observeLeader.1.groupHasNoOtherMember.2 = true) :
    ∃ incidents, c.observeLeader.1.groupHasNoOtherMember.1.incidents = c.incidents ++ incidents ∧
      ∀ calls befell, (⟨calls, incidents ++ befell⟩ : Round).MeetsAfter c.group.members := by
  obtain ⟨-, hgroup, -⟩ := observe_dead hdead
  obtain ⟨others, hinc, hmem, hne⟩ := scan_incidents c.observeLeader.1
  rw [observeLeader_incidents] at hinc
  refine ⟨c.joined ++ c.observeLeader.1.joined ++ [.met others],
    by rw [hinc]; simp only [List.append_assoc], fun calls befell => ?_⟩
  obtain ⟨pid, hpid⟩ := List.exists_mem_of_ne_nil _ (hne hother)
  refine ⟨c.joined ++ c.observeLeader.1.joined, others, befell, pid, by simp, hpid, ?_⟩
  -- between the two states the group moves twice
  rcases mem_enter (hmem pid hpid) with hold | hnew
  · rw [hgroup] at hold
    exact (mem_enter hold).imp id (List.mem_append_left _)
  · exact .inr (List.mem_append_right _ hnew)

/--
**The rounds of a dead leader.** They end clean, or each of them met others although the one
before it killed the group.
-/
theorem rounds_spec (attempts : Nat) {c : Custody} (hdead : c.group.leaderEnd ≠ none)
    (hreaped : c.reaped = false) :
    ((rounds attempts c).2 = 0 ∧ (rounds attempts c).1.Clean) ∨
    ((rounds attempts c).2 = -1 ∧ ∃ met : List Round,
      (rounds attempts c).1.log = c.log ++ (met.map Round.calls).flatten ∧
      (rounds attempts c).1.incidents = c.incidents ++ (met.map Round.incidents).flatten ∧
      met.length = attempts ∧ (∀ round ∈ met, round.MeetsOthers) ∧ met.IsChain KillsInVain ∧
      ∀ first ∈ met.head?, first.MeetsAfter c.group.members) := by
  -- the rounds met so far are in `c`; what is left of them is the induction's
  induction attempts generalizing c with
  | zero => exact .inr ⟨rfl, [], by simp [rounds], by simp [rounds], rfl, by simp, by simp, by simp⟩
  | succ attempts ih =>
      obtain ⟨ho, hgroup1, hr1, hlog1⟩ := observe_dead hdead
      have hdead1 : c.observeLeader.1.group.leaderEnd ≠ none := by
        rw [hgroup1]
        exact enter_dead hdead
      obtain ⟨other, hother, hgroup2, -, hr2, hlog2, hiff2⟩ := scan_spec c.observeLeader.1
      cases other with
      | false =>
          refine .inl (rounds_nobody attempts hdead hreaped ?_)
          by_contra hne
          exact Bool.false_ne_true (hiff2.2 hne)
      | true =>
          obtain ⟨incidents, hinc2, hmeets⟩ := round_meets hdead hother
          generalize hscan : c.observeLeader.1.groupHasNoOtherMember = scan
            at hother hgroup2 hr2 hlog2 hinc2
          have hdead2 : scan.1.group.leaderEnd ≠ none := by
            rw [hgroup2]
            exact enter_dead hdead1
          have hreaped2 := hr2.trans (hr1.trans hreaped)
          obtain ⟨hz, hdead3, hr3, calls, befell, hlog3, hinc3, hkill⟩ := signal_exited hdead2
          rw [rounds_crowded attempts ho hscan hother hz]
          generalize scan.1.signalPrivateGroup .sigkill true = sent
            at hdead3 hr3 hlog3 hinc3 hkill
          rw [hreaped2] at hkill hr3
          rw [hlog2, hlog1, List.append_assoc, List.append_assoc] at hlog3
          rw [hinc2, List.append_assoc] at hinc3
          generalize hr : (⟨.observed true :: .scanned true :: calls, incidents ++ befell⟩ : Round) =
            round
          have hround : round.MeetsOthers := by
            rw [← hr]
            exact ⟨rfl, by simp⟩
          have hafter : round.MeetsAfter c.group.members := hr ▸ hmeets _ _
          have hcalls : sent.1.log = c.log ++ round.calls := by
            rw [hlog3, ← hr]
            rfl
          have hincidents : sent.1.incidents = c.incidents ++ round.incidents := by
            rw [hinc3, ← hr]
          rcases hkill with hgone | ⟨hcall, before, hbefell⟩
          · -- the others are gone: the next round, if there is one, is the last
            cases attempts with
            | zero =>
                exact .inr ⟨rfl, [round], by simp [rounds, hcalls], by simp [rounds, hincidents],
                  rfl, by simpa using hround, by simp, by simpa using hafter⟩
            | succ attempts =>
                exact .inl (rounds_nobody attempts hdead3 hr3 (nobody_at_scan hdead3 hgone))
          · -- whoever the next round meets comes from what this round's kill left
            refine (ih hdead3 hr3).imp id ?_
            rintro ⟨hneg, met, hlog, hinc, hlen, hmet, hchain, hfirst⟩
            refine ⟨hneg, round :: met, by simp [hlog, hcalls], by simp [hinc, hincidents],
              by simp [hlen], ?_, ?_, by simpa using hafter⟩
            · intro other hmem
              rcases List.mem_cons.1 hmem with rfl | hmem
              · exact hround
              · exact hmet other hmem
            · refine List.isChain_cons.2 ⟨fun next hnext => ?_, hchain⟩
              refine ⟨sent.1.group.members, ?_, hfirst next hnext⟩
              rw [← hr, hbefell]
              exact ⟨by simp [hcall], incidents ++ before, (List.append_assoc _ _ _).symm⟩

/-! ## The teardown -/

/-- The teardown is complete: success leaves nobody behind, and giving up has a reason. -/
def TeardownComplete (group : Group) (schedule : List Turn) : Prop :=
  let result := (start group schedule).terminatePrivateGroup
  (result.2 = 0 ∨ result.2 = -1) ∧ (result.2 = 0 → result.1.Clean) ∧
    (result.2 = -1 →
      result.1.log = outlived .sigterm ++ outlived .sigkill ∨ Crowded result.1)

/-- The leader slips away between the observation and the `getpgid` of the first wait, which
are calls 1 and 2, or of the second, which are calls 28 and 29. -/
def LeaderSlipsAway (group : Group) (schedule : List Turn) : Prop :=
  SlipsAway group schedule 1 ∨ SlipsAway group schedule (4 + scanAttempts)

/-- The rounds after the wait. -/
theorem rounds_complete {c : Custody} (hdead : c.group.leaderEnd ≠ none)
    (hreaped : c.reaped = false) :
    ((rounds scanAttempts c).2 = 0 ∨ (rounds scanAttempts c).2 = -1) ∧
      ((rounds scanAttempts c).2 = 0 → (rounds scanAttempts c).1.Clean) ∧
      ((rounds scanAttempts c).2 = -1 →
        (rounds scanAttempts c).1.log = outlived .sigterm ++ outlived .sigkill ∨
          Crowded (rounds scanAttempts c).1) := by
  rcases rounds_spec scanAttempts hdead hreaped with
    ⟨hz, hclean⟩ | ⟨hneg, met, hlog, hinc, hlen, hmet, hchain, -⟩
  · rw [hz]
    exact ⟨.inl rfl, fun _ => hclean, fun h => absurd h (by decide)⟩
  · rw [hneg]
    exact ⟨.inr rfl, fun h => absurd h (by decide),
      fun _ => .inr ⟨_, _, met, hlog, hinc, hlen, hmet, hchain⟩⟩

/-- A teardown that met nobody is not crowded. -/
theorem not_crowded (h : .scanned true ∉ c.log) : ¬Crowded c := by
  rintro ⟨calls, -, met, hlog, -, hlen, hmet, -⟩
  cases met with
  | nil => simp [scanAttempts] at hlen
  | cons round met => exact h (by simp [hlog, (hmet round (by simp)).2])

/-- A wait that the leader slips away from leaves no reason. -/
theorem slip_no_reason (hlen : c.log.length < 52) (hscan : .scanned true ∉ c.log) :
    ¬(c.log = outlived .sigterm ++ outlived .sigkill ∨ Crowded c) := by
  rintro (hout | hcrowded)
  · rw [hout] at hlen
    simp [outlived, scanAttempts] at hlen
  · exact not_crowded hscan hcrowded

/--
**The teardown is complete exactly when the leader does not slip away** between an
observation that sees it alive and the `getpgid` that follows.
-/
theorem teardown_complete_iff (group : Group) (schedule : List Turn) :
    TeardownComplete group schedule ↔ ¬LeaderSlipsAway group schedule := by
  have hfirst := waitForLeaderExit_spec false (track_start group schedule) rfl
  unfold TeardownComplete LeaderSlipsAway terminatePrivateGroup
  simp only
  generalize (start group schedule).waitForLeaderExit false = first at hfirst
  rw [show 4 + scanAttempts = 0 + 3 + scanAttempts + 1 by omega]
  rcases hfirst with ⟨hz, hnot, hdead, hreaped, hlater⟩ | ⟨hneg, hslip, hlog⟩ |
      ⟨hone, hnot, hlog, hreaped, htrack⟩
  · -- the first wait saw the leader dead
    rw [if_neg (by rw [hz]; decide), if_neg (by rw [hz]; decide)]
    refine iff_of_true (rounds_complete hdead hreaped) ?_
    rintro (hs | hs)
    · exact hnot hs
    · exact Group.leaderEnd_after_mono (Nat.le_succ _) (hlater rfl) hs.1
  · -- the leader slipped away from the first wait
    rw [if_pos (by rw [hneg]; decide)]
    refine iff_of_false ?_ (fun h => h (.inl hslip))
    rintro ⟨-, -, hwhy⟩
    refine slip_no_reason ?_ ?_ (hwhy rfl)
    · simp [hlog, start]
    · simp [hlog, start]
  · rw [if_neg (by rw [hone]; decide), if_pos (by rw [hone]; decide)]
    have hsecond := waitForLeaderExit_spec true (htrack rfl) hreaped
    generalize first.1.waitForLeaderExit true = second at hsecond
    rcases hsecond with ⟨hz, hnot', hdead, hreaped', -⟩ | ⟨hneg, hslip, hlog'⟩ |
      ⟨hone', hnot', hlog', -, -⟩
    · -- the second wait saw the leader dead
      rw [if_neg (by rw [hz]; decide)]
      refine iff_of_true (rounds_complete hdead hreaped') ?_
      rintro (hs | hs)
      · exact hnot hs
      · exact hnot' hs
    · -- the leader slipped away from the second wait
      rw [if_pos (by rw [hneg]; decide)]
      refine iff_of_false ?_ (fun h => h (.inr hslip))
      rintro ⟨-, -, hwhy⟩
      refine slip_no_reason ?_ ?_ (hwhy rfl)
      · simp [hlog', hlog, start, outlived, scanAttempts]
      · simp [hlog', hlog, start, outlived, scanAttempts]
    · -- the leader outlived both
      rw [if_pos (by rw [hone']; decide)]
      refine iff_of_true ⟨.inr rfl, fun h => absurd (show (-1 : Int) = 0 from h) (by decide),
        fun _ => .inl ?_⟩ ?_
      · rw [hlog', hlog]
        rfl
      · rintro (hs | hs)
        · exact hnot hs
        · exact hnot' hs

/-- A leader with one child. -/
def withChild : Group where
  leader := 10
  leaderEnd := none
  members := [11]
  apart := by decide

/-- The leader exits right before the first `getpgid`. -/
def exitsBeforeSignal : List Turn := [⟨[], [], false⟩, ⟨[.leaderExits (.exited 0)], [], false⟩]

/-- The teardown gives up at once and leaves the child alive. -/
theorem leader_slips_away :
    ¬TeardownComplete withChild exitsBeforeSignal ∧
      (start withChild exitsBeforeSignal).terminatePrivateGroup.2 = -1 ∧
      (start withChild exitsBeforeSignal).terminatePrivateGroup.1.log = [.observed false] ∧
      (start withChild exitsBeforeSignal).terminatePrivateGroup.1.group.members = [11] := by
  have hlog : (start withChild exitsBeforeSignal).terminatePrivateGroup.1.log =
      [.observed false] := by decide
  have hneg : (start withChild exitsBeforeSignal).terminatePrivateGroup.2 = -1 := by decide
  refine ⟨?_, hneg, hlog, by decide⟩
  rintro ⟨-, -, hwhy⟩
  refine slip_no_reason ?_ ?_ (hwhy hneg)
  · simp [hlog]
  · simp [hlog]

end Custody

end Vergerail
