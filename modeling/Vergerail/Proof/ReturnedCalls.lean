import Vergerail.Proof.DrainedRequests

/-!
# Every call returns after the disconnect

A caller that listens has either an entry somebody owes it an end of, or something in its
channel (`Sane`). After the disconnect no entry is left but those in the hands of the router
and of calls about to fail (`Owed`), so with none in the router's hands a call that waits
has something to take. Every other step of a call leads closer to its return whatever it
finds, and no step of anybody else leads it away.
-/

namespace Vergerail

open Lib

/-! ## Every step leads to the return -/

/-- How far a call is from its return. -/
def RequestCall.rank : RequestCall → Nat
  | .idle => 0
  | .checkingDeadline => 17
  | .checkingClosing => 16
  | .checkingDisconnected => 15
  | .readingFailure => 14
  | .registering => 14
  | .entering => 13
  | .reserving => 12
  | .admitted => 11
  | .marking => 10
  | .queueing => 9
  | .dispatched => 8
  | .acknowledging => 7
  | .terminating _ => 6
  | .waiting => 6
  | .sendFailed _ => 5
  | .timedOut => 5
  | .disconnecting _ => 4
  | .cleaning _ => 3
  | .leaving _ _ => 2
  | .returned _ => 0
  | .unwinding => 1
  | .dropped => 0

/-- No call is further from its return than this. -/
theorem RequestCall.rank_le (call : RequestCall) : call.rank ≤ 17 := by
  cases call <;> simp [rank]

/-- The call is under way. -/
def RequestCall.isUnderWay : RequestCall → Bool
  | .idle => false
  | .unwinding => false
  | .dropped => false
  | _ => true

/-- The caller dropped the call's future. -/
def RequestCall.isDropped : RequestCall → Bool
  | .unwinding => true
  | .dropped => true
  | _ => false

/-- Of the calls under way only one that returned has no step to go. -/
theorem RequestCall.rank_pos {call : RequestCall} (hway : call.isUnderWay = true)
    (hret : ∀ result, call ≠ .returned result) : 0 < call.rank := by
  cases call with
  | idle => cases hway
  | unwinding => cases hway
  | dropped => cases hway
  | returned result => exact absurd rfl (hret result)
  | _ => simp [rank]

namespace RequestCell

theorem rank_afterSendFailure (c : RequestCell) (error : Error) :
    (c.afterSendFailure error).call.rank ≤ 4 ∧
      (c.afterSendFailure error).call.isUnderWay = true := by
  unfold afterSendFailure
  split_ifs
  · exact ⟨Nat.le_refl 4, rfl⟩
  · exact ⟨by simp [RequestCall.rank], rfl⟩

theorem rank_afterTimeout (c : RequestCell) :
    c.afterTimeout.call.rank ≤ 4 ∧ c.afterTimeout.call.isUnderWay = true := by
  unfold afterTimeout
  split
  · exact ⟨Nat.le_refl 4, rfl⟩
  · exact ⟨by simp [RequestCall.rank], rfl⟩

/-- Whatever a call finds, its step leads closer to its return, unless it waits for a
response or for the end of its own disconnect. -/
theorem proceed_rank (env : ClientEnv) (i : Nat) (s : ClientShared) {c : RequestCell}
    (event : SendEvent) (hway : c.call.isUnderWay = true)
    (hret : ∀ result, c.call ≠ .returned result)
    (hwait : c.call = .waiting → c.request.waiter ≠ .empty)
    (hclean : ∀ outcome, c.call = .cleaning outcome → s.stage = .finished) :
    (c.proceed env i s event).2.call.rank < c.call.rank ∧
      (c.proceed env i s event).2.call.isUnderWay = true := by
  cases hc : c.call with
  | idle => rw [hc] at hway; cases hway
  | returned result => exact absurd hc (hret result)
  | unwinding => rw [hc] at hway; cases hway
  | dropped => rw [hc] at hway; cases hway
  | sendFailed error =>
      simp only [proceed, hc]
      obtain ⟨hrank, hway⟩ := c.rank_afterSendFailure error
      exact ⟨Nat.lt_succ_of_le hrank, hway⟩
  | timedOut =>
      simp only [proceed, hc]
      obtain ⟨hrank, hway⟩ := c.rank_afterTimeout
      exact ⟨Nat.lt_succ_of_le hrank, hway⟩
  | waiting =>
      simp only [proceed, hc]
      split_ifs
      · exact ⟨by simp [RequestCall.rank], rfl⟩
      · split
        · -- nothing in the channel is the one case that goes nowhere
          rename_i hempty
          exact absurd hempty (hwait hc)
        · exact ⟨by simp [RequestCall.rank], rfl⟩
        · exact ⟨by simp [RequestCall.rank], rfl⟩
  | cleaning outcome =>
      simp only [proceed, hc, hclean outcome hc]
      exact ⟨by simp [RequestCall.rank], rfl⟩
  | disconnecting outcome =>
      simp only [proceed, hc]
      split
      · exact ⟨by simp [RequestCall.rank], rfl⟩
      · exact ⟨by simp [RequestCall.rank], rfl⟩
  | acknowledging =>
      simp only [proceed, hc]
      split
      · exact ⟨by simp [RequestCall.rank], rfl⟩
      · exact ⟨by simp [RequestCall.rank], rfl⟩
  | leaving result resolved =>
      simp only [proceed, hc]
      split_ifs
      · exact ⟨by simp [RequestCall.rank], rfl⟩
      · exact ⟨by simp [RequestCall.rank, dropGuard], rfl⟩
  | terminating reason => simp only [proceed, hc]; exact ⟨by simp [RequestCall.rank], rfl⟩
  | readingFailure => simp only [proceed, hc, refuse]; exact ⟨by simp [RequestCall.rank], rfl⟩
  | marking => simp only [proceed, hc]; exact ⟨by simp [RequestCall.rank], rfl⟩
  | queueing => simp only [proceed, hc]; exact ⟨by simp [RequestCall.rank], rfl⟩
  | _ =>
      simp only [proceed, hc, refuse, sendTimedOut]
      split_ifs <;> exact ⟨by simp [RequestCall.rank], rfl⟩

/-- The router took a response for the call and has not handed it over. -/
def isHeld (c : RequestCell) : Bool :=
  match c.request.entry with
  | .completing _ => true
  | _ => false

theorem not_held {c : RequestCell} (h : c.isHeld = false) (response : Result Json) :
    c.request.entry ≠ .completing response := by
  intro he
  unfold isHeld at h
  rw [he] at h
  cases h

/-- A call that waits in vain stays where it is. -/
theorem proceed_waits (env : ClientEnv) (i : Nat) (s : ClientShared) {c : RequestCell}
    {event : SendEvent} (hc : c.call = .waiting) (hempty : c.request.waiter = .empty)
    (hevent : event ≠ .expired) : (c.proceed env i s event).2 = c := by
  simp only [proceed, hc, hempty]
  exact congrArg Prod.snd (if_neg hevent)

/-- No step of a call leads it away from its return. -/
theorem proceed_rank_le (env : ClientEnv) (i : Nat) (s : ClientShared) {c : RequestCell}
    (event : SendEvent) (hway : c.call.isUnderWay = true)
    (hret : ∀ result, c.call ≠ .returned result) (hfinished : s.stage = .finished) :
    (c.proceed env i s event).2.call.rank ≤ c.call.rank ∧
      (c.proceed env i s event).2.call.isUnderWay = true := by
  by_cases hvain : c.call = .waiting ∧ c.request.waiter = .empty
  · -- it waits in vain, unless its timeout ends the wait
    obtain ⟨hc, hempty⟩ := hvain
    by_cases hevent : event = .expired
    · subst hevent
      simp only [proceed, hc]
      exact ⟨by simp [RequestCall.rank], rfl⟩
    · rw [proceed_waits env i s hc hempty hevent]
      exact ⟨Nat.le_refl _, hway⟩
  · obtain ⟨hlt, hway'⟩ := proceed_rank env i s event hway hret
      (fun hc hempty => hvain ⟨hc, hempty⟩) (fun _ _ => hfinished)
    exact ⟨Nat.le_of_lt hlt, hway'⟩

/-- A drop ends the call, or finds it where it cannot be dropped. -/
theorem drop_call (i : Nat) (s : ClientShared) (c : RequestCell) :
    (c.drop i s).2 = c ∨ (c.drop i s).2.call.isDropped = true := by
  cases hc : c.call with
  | cleaning outcome =>
      simp only [drop, hc]
      split
      · split_ifs
        · exact .inr rfl
        · exact .inl rfl
      · exact .inl rfl
  | reserving => simp only [drop, hc]; exact .inr rfl
  | acknowledging => simp only [drop, hc]; exact .inr rfl
  | terminating reason => simp only [drop, hc]; exact .inr rfl
  | waiting => simp only [drop, hc]; exact .inr rfl
  | _ => simp only [drop, hc]; exact .inl trivial

/-- What is done to a call by others than its caller. -/
theorem others_call (env : ClientEnv) (i : Nat) (s : ClientShared) (c : RequestCell)
    {label : RequestLabel} (hidle : c.call ≠ .idle) (hproceed : ∀ event, label ≠ .proceed event)
    (hdrop : label ≠ .drop) : (ClientWorld.actRequest env i s c label).2.call = c.call := by
  cases label with
  | call nonIdempotent allowClosing operation method params requestTimeout =>
      cases hc : c.call with
      | idle => exact absurd hc hidle
      | _ => simp only [ClientWorld.actRequest, hc]
  | proceed event => exact absurd rfl (hproceed event)
  | drop => exact absurd rfl hdrop
  | succeed result => exact (c.respond_call _)
  | reject code message => exact (c.respond_call _)
  | handOver => exact c.handOver_call
  | disconnectOrphan =>
      simp only [ClientWorld.actRequest, disconnectOrphan]
      split_ifs <;> rfl
  | runCancel =>
      simp only [ClientWorld.actRequest, runCancel]
      split
      · split <;> rfl
      · rfl
      · rfl
  | failOne =>
      simp only [ClientWorld.actRequest, failOne]
      split
      · split_ifs <;> rfl
      · rfl

end RequestCell

namespace ClientWorld

/-- A disconnect that is over has begun. -/
theorem Draining.disconnected {w : ClientWorld} (h : w.Draining)
    (hf : w.shared.stage = .finished) : w.shared.connection.disconnected = true := by
  cases hd : w.shared.connection.disconnected with
  | true => rfl
  | false =>
      have := (h.caused.sound.connected hd).1
      rw [hf] at this
      cases this

/-- A call that waits for its response has something to take. -/
theorem Draining.waiter {i : Nat} {w : ClientWorld} (h : w.Draining)
    (hf : w.shared.stage = .finished) (hfree : (w.requests i).isHeld = false)
    (hc : (w.requests i).call = .waiting) : (w.requests i).request.waiter ≠ .empty := by
  have howed := h.owed i
  have hl : (w.requests i).Listening := by
    unfold RequestCell.Listening
    rw [hc]
    trivial
  refine ((h.sane i).held hl).2 ?_
  -- no entry is left: `fail_all` took those that were there, and a late one is its call's own
  cases he : (w.requests i).request.entry with
  | absent => rfl
  | pending =>
      rcases howed.drained (by rw [hf]; rfl) he with hcall | ⟨error, hcall⟩
      · rw [hc] at hcall; cases hcall
      · rw [hc] at hcall; cases hcall
  | completing response => exact absurd he (RequestCell.not_held hfree response)
  | failing =>
      obtain ⟨error, remaining, howes, -⟩ := howed.failing he
      rw [hf] at howes
      cases howes

/-- A disconnect that is over stays over. -/
theorem Draining.finished_act (env : ClientEnv) {w : ClientWorld} (h : w.Draining)
    (hf : w.shared.stage = .finished) (label : ClientLabel) :
    (w.act env label).shared.stage = .finished := by
  -- whoever disconnects now finds the flag set
  have hdisc := h.disconnected hf
  have hbegin : ∀ (owner : Option Nat) (error : Error),
      (w.shared.beginDisconnect owner error).2.stage = .finished := by
    intro owner error
    rcases w.shared.beginDisconnect_cases owner error with ⟨-, hs⟩ | ⟨hconn, -⟩
    · rw [hs]
      exact hf
    · rw [hdisc] at hconn
      cases hconn
  cases label with
  | request j label =>
      cases label with
      | proceed event =>
          simp only [ClientWorld.act, ClientWorld.actRequest]
          rcases (w.requests j).proceed_stage env j w.shared event with hstays | ⟨owner, error, hb⟩
          · exact hstays.stage.trans hf
          · rw [hb]
            exact hbegin owner error
      | drop =>
          simp only [ClientWorld.act, ClientWorld.actRequest]
          cases hc : (w.requests j).call with
          | cleaning outcome => simp only [RequestCell.drop, hc, hf]
          | _ => simp only [RequestCell.drop, hc, hf]
      | call nonIdempotent allowClosing operation method params requestTimeout =>
          cases hc : (w.requests j).call with
          | idle => simp only [ClientWorld.act, ClientWorld.actRequest, hc, hf]
          | _ => simp only [ClientWorld.act, ClientWorld.actRequest, hc, hf]
      | succeed result => exact hf
      | reject code message => exact hf
      | handOver => exact hf
      | disconnectOrphan =>
          simp only [ClientWorld.act, ClientWorld.actRequest, RequestCell.disconnectOrphan]
          split_ifs
          · exact hbegin none _
          · exact hf
      | runCancel =>
          simp only [ClientWorld.act, ClientWorld.actRequest, RequestCell.runCancel]
          split
          · split
            · exact hf
            · exact hf
          · exact hbegin none _
          · exact hf
      | failOne => simp only [ClientWorld.act, ClientWorld.actRequest, RequestCell.failOne, hf]
  | goOn termination => simp only [ClientWorld.act, ClientWorld.goOn, hf]
  | disconnect error =>
      rcases (w.shared.blame error).beginDisconnect_cases none error with ⟨-, hs⟩ | ⟨hconn, -⟩
      · simp only [ClientWorld.act, hs]
        exact hf
      · exact absurd (hdisc.symm.trans hconn) (by simp)
  | dropOwner => simp only [ClientWorld.act, hf]
  | beginClosing => exact hf
  | stopProcess => exact hf

/-- The label is a step of call `i` itself, at which the router holds nothing for it. -/
def isOwnStep (w : ClientWorld) (i : Nat) : ClientLabel → Bool
  | .request j (.proceed _) => j == i && !(w.requests i).isHeld
  | _ => false

/-- How many such steps a schedule holds. -/
def ownSteps (env : ClientEnv) (i : Nat) : ClientWorld → List ClientLabel → Nat
  | _, [] => 0
  | w, label :: labels => (w.isOwnStep i label).toNat + ownSteps env i (w.act env label) labels

/-- What anybody's step leaves of a call under way after the disconnect. -/
theorem Draining.call_act (env : ClientEnv) {i : Nat} {w : ClientWorld} (h : w.Draining)
    (hf : w.shared.stage = .finished) (hway : (w.requests i).call.isUnderWay = true)
    (hret : ∀ result, (w.requests i).call ≠ .returned result) (label : ClientLabel) :
    ((w.act env label).requests i).call.isDropped = true ∨
      ((w.act env label).requests i).call.isUnderWay = true ∧
      ((w.act env label).requests i).call.rank + (w.isOwnStep i label).toNat ≤
        (w.requests i).call.rank := by
  have hsame : ((w.act env label).requests i).call = (w.requests i).call →
      w.isOwnStep i label = false →
      ((w.act env label).requests i).call.isUnderWay = true ∧
      ((w.act env label).requests i).call.rank + (w.isOwnStep i label).toNat ≤
        (w.requests i).call.rank := by
    intro hcall hown
    rw [hcall, hown]
    exact ⟨hway, Nat.le_refl _⟩
  cases label with
  | request j label =>
      by_cases hij : i = j
      · subst hij
        have hcell : (w.act env (.request i label)).requests i
            = (ClientWorld.actRequest env i w.shared (w.requests i) label).2 := by
          simp only [ClientWorld.act, Function.update_self]
        cases label with
        | proceed event =>
            have hproceed : (w.act env (.request i (.proceed event))).requests i
                = ((w.requests i).proceed env i w.shared event).2 := hcell
            rw [hproceed]
            refine .inr ?_
            cases hheld : (w.requests i).isHeld with
            | true =>
                -- such a step does not count, and leads nowhere at worst
                obtain ⟨hle, hway'⟩ := RequestCell.proceed_rank_le env i w.shared event hway hret hf
                exact ⟨hway', by simpa [isOwnStep, hheld] using hle⟩
            | false =>
                obtain ⟨hlt, hway'⟩ := RequestCell.proceed_rank env i w.shared event hway hret
                  (h.waiter hf hheld) (fun _ _ => hf)
                exact ⟨hway', by simpa [isOwnStep, hheld] using hlt⟩
        | drop =>
            rcases (w.requests i).drop_call i w.shared with heq | hdropped
            · refine .inr (hsame ?_ rfl)
              rw [hcell]
              exact congrArg RequestCell.call heq
            · rw [hcell]
              exact .inl hdropped
        | _ =>
            refine .inr (hsame ?_ rfl)
            rw [hcell]
            refine RequestCell.others_call env i w.shared _ ?_ (by simp) (by simp)
            intro hidle
            rw [hidle] at hway
            cases hway
      · refine .inr (hsame (by simp only [ClientWorld.act, Function.update_of_ne hij]) ?_)
        cases label with
        | proceed event => simp [isOwnStep, Ne.symm hij]
        | _ => rfl
  | goOn termination =>
      refine .inr (hsame ?_ rfl)
      simp only [ClientWorld.act, ClientWorld.goOn, hf]
  | dropOwner =>
      refine .inr (hsame ?_ rfl)
      simp only [ClientWorld.act, hf]
  | disconnect error => exact .inr (hsame rfl rfl)
  | beginClosing => exact .inr (hsame rfl rfl)
  | stopProcess => exact .inr (hsame rfl rfl)

/-- A call that returned stays returned, and one that was dropped stays dropped. -/
theorem ended_act (env : ClientEnv) (i : Nat) (w : ClientWorld) (label : ClientLabel) :
    (∀ result, (w.requests i).call = .returned result →
      ((w.act env label).requests i).call = .returned result) ∧
    ((w.requests i).call.isDropped = true →
      ((w.act env label).requests i).call.isDropped = true) := by
  have hsame : ((w.act env label).requests i).call = (w.requests i).call →
      (∀ result, (w.requests i).call = .returned result →
        ((w.act env label).requests i).call = .returned result) ∧
      ((w.requests i).call.isDropped = true →
        ((w.act env label).requests i).call.isDropped = true) := by
    intro hcall
    rw [hcall]
    exact ⟨fun _ h => h, fun h => h⟩
  cases label with
  | request j label =>
      by_cases hij : i = j
      · subst hij
        have hcell : (w.act env (.request i label)).requests i
            = (actRequest env i w.shared (w.requests i) label).2 := by
          simp only [act, Function.update_self]
        cases label with
        | proceed event =>
            rw [hcell]
            refine ⟨fun result hc => ?_, fun hc => ?_⟩
            · simp only [actRequest, RequestCell.proceed, hc]
            · cases hcall : (w.requests i).call with
              | unwinding => simp only [actRequest, RequestCell.proceed, hcall]; rfl
              | dropped => simp only [actRequest, RequestCell.proceed, hcall]; rfl
              | _ => rw [hcall] at hc; cases hc
        | drop =>
            rw [hcell]
            refine ⟨fun result hc => ?_, fun hc => ?_⟩
            · simp only [actRequest, RequestCell.drop, hc]
            · rcases (w.requests i).drop_call i w.shared with heq | hdropped
              · exact (congrArg (fun c => c.call.isDropped) heq).trans hc
              · exact hdropped
        | _ =>
            by_cases hidle : (w.requests i).call = .idle
            · rw [hidle]
              refine ⟨fun _ h => ?_, fun h => ?_⟩
              · cases h
              · cases h
            · refine hsame ?_
              rw [hcell]
              exact RequestCell.others_call env i w.shared _ hidle (by simp) (by simp)
      · exact hsame (by simp only [act, Function.update_of_ne hij])
  | goOn termination =>
      refine hsame ?_
      simp only [act]
      unfold goOn
      split
      · rfl
      · rfl
      · rfl
      · rfl
      · split <;> rfl
      · rfl
      · rfl
      · rfl
  | dropOwner =>
      refine hsame ?_
      simp only [act]
      split <;> rfl
  | disconnect error => exact hsame rfl
  | beginClosing => exact hsame rfl
  | stopProcess => exact hsame rfl

/-- A call that has ended has ended for good. -/
theorem ended_runFrom (env : ClientEnv) (i : Nat) (w : ClientWorld) (labels : List ClientLabel) :
    (∀ result, (w.requests i).call = .returned result →
      (((clientMachine env).runFrom w labels).requests i).call = .returned result) ∧
    ((w.requests i).call.isDropped = true →
      (((clientMachine env).runFrom w labels).requests i).call.isDropped = true) := by
  induction labels generalizing w with
  | nil => exact ⟨fun _ h => h, fun h => h⟩
  | cons label labels ih =>
      obtain ⟨hreturned, hdropped⟩ := ended_act env i w label
      obtain ⟨hreturned', hdropped'⟩ := ih (w.act env label)
      exact ⟨fun result h => hreturned' result (hreturned result h),
        fun h => hdropped' (hdropped h)⟩

/-- After the disconnect a call has ended once it took as many steps as its rank says. -/
theorem Draining.ends (env : ClientEnv) (i : Nat) (labels : List ClientLabel) {w : ClientWorld}
    (h : w.Draining) (hf : w.shared.stage = .finished)
    (hway : (w.requests i).call.isUnderWay = true)
    (hsteps : (w.requests i).call.rank ≤ w.ownSteps env i labels) :
    (((clientMachine env).runFrom w labels).requests i).call.isDropped = true ∨
      ∃ result, (((clientMachine env).runFrom w labels).requests i).call = .returned result := by
  -- the rank is what is left to go; each own step that counts takes at least one off
  induction labels generalizing w with
  | nil =>
      by_cases hret : ∃ result, (w.requests i).call = .returned result
      · exact .inr hret
      · have hpos := RequestCall.rank_pos hway (fun result hc => hret ⟨result, hc⟩)
        have hnone : (w.requests i).call.rank ≤ 0 := hsteps
        omega
  | cons label labels ih =>
      by_cases hret : ∃ result, (w.requests i).call = .returned result
      · obtain ⟨result, hc⟩ := hret
        exact .inr ⟨result, (ended_runFrom env i w (label :: labels)).1 result hc⟩
      · rcases h.call_act env hf hway (fun result hc => hret ⟨result, hc⟩) label with
          hdropped | ⟨hway', hrank⟩
        · exact .inl ((ended_runFrom env i (w.act env label) labels).2 hdropped)
        · have hsplit : w.ownSteps env i (label :: labels)
              = (w.isOwnStep i label).toNat + (w.act env label).ownSteps env i labels := rfl
          refine ih (h.act env label) (h.finished_act env hf label) hway' ?_
          show ((w.act env label).requests i).call.rank ≤ (w.act env label).ownSteps env i labels
          omega

/-- What the machine reaches from a draining client is draining. -/
theorem Draining.runFrom (env : ClientEnv) {w : ClientWorld} (h : w.Draining)
    (labels : List ClientLabel) : ((clientMachine env).runFrom w labels).Draining := by
  induction labels generalizing w with
  | nil => exact h
  | cons label labels ih => exact ih (h.act env label)

/--
**Nobody waits for a response after the disconnect.** Once the disconnect is over, every
call that was made, whether it registered before, in the meantime or not yet, has returned
or was dropped by its caller after 17 steps of its own, however the writer, the clock, the
router, the cancel tasks and the other calls interleave with them; steps it takes while
the router holds a response for it do not count. It returns an error, or a success that
the router took for it.
-/
theorem request_returns_after_disconnect (env : ClientEnv) {w : ClientWorld}
    (h : (clientMachine env).Reachable Machine.Free w) (hf : w.shared.stage = .finished)
    (i : Nat) (hway : (w.requests i).call.isUnderWay = true) (labels : List ClientLabel)
    (hsteps : 17 ≤ w.ownSteps env i labels) :
    let c := ((clientMachine env).runFrom w labels).requests i
    c.call.isDropped = true ∨
      ∃ result, c.call = .returned result ∧ ∀ v, result = .ok v → .ok v ∈ c.responses := by
  have hdraining := draining_reachable env h
  refine (hdraining.ends env i labels hf hway
    (Nat.le_trans (RequestCall.rank_le _) hsteps)).imp id ?_
  rintro ⟨result, hc⟩
  refine ⟨result, hc, fun v hv => ?_⟩
  exact ((hdraining.runFrom env labels).sane i).told v (.inr (by rw [hc, hv]))

/-- A call that waits, and a disconnect that fails it. -/
def drainedCall : List ClientLabel :=
  startedCall
    ++ [.disconnect (Error.new .disconnected "process.stdout" "app-server stdout reached EOF")]
    ++ List.replicate 4 (.goOn ⟨none, none⟩) ++ [.request 0 .failOne]
    ++ List.replicate 3 (.goOn ⟨none, none⟩)

/-- Seventeen steps of the call among those of another call, the router and a shutdown. -/
def amongOthers : List ClientLabel :=
  .request 1 (.call true false "turn.start" "turn/start" .null 1000) ::
    (List.replicate 17 [.request 1 (.proceed .ready), .request 0 (.proceed .ready),
      .request 0 (.succeed .null), .request 0 .handOver, .disconnect
        (Error.new .protocol "initialize" "app-server broke the protocol"), .beginClosing]).flatten

theorem drained_call_returns :
    let w := (clientMachine roomyClient).run drainedCall
    17 ≤ w.ownSteps roomyClient 0 amongOthers ∧
      let c := ((clientMachine roomyClient).runFrom w amongOthers).requests 0
      c.call.isDropped = true ∨
        ∃ result, c.call = .returned result ∧ ∀ v, result = .ok v → .ok v ∈ c.responses := by
  have hsteps : 17 ≤ ((clientMachine roomyClient).run drainedCall).ownSteps roomyClient 0
      amongOthers := by
    decide
  exact ⟨hsteps, request_returns_after_disconnect roomyClient (Machine.reachable_run drainedCall)
    rfl 0 rfl amongOthers hsteps⟩

end ClientWorld

end Vergerail
