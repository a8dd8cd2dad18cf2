import Mathlib.Tactic.SplitIfs
import Vergerail.Client.RequestWorld

/-!
# The first cause of a disconnect

Whoever disconnects first publishes the cause, and what is published later for it differs
only in what it says of the end of the process. Of the requests, their cancel tasks and
the router, none disconnects for anything but an unknown outcome, so a first cause of
another kind is somebody else's.
-/

namespace Vergerail

open Lib

/-! ## What all requests share -/

/-- The disconnect is published for good, with its first cause. -/
structure ClientShared.Grows (s t : ClientShared) : Prop where
  disconnected : s.connection.disconnected = true → t.connection.disconnected = true
  firstCause : ∀ f, s.firstCause = some f → t.firstCause = some f

/-- The cause that is on its way through the disconnect. -/
def DisconnectStage.cause : DisconnectStage → Option Error
  | .connected => none
  | .flagged error => some error
  | .killing error => some error
  | .enriched error => some error
  | .replaced error => some error
  | .failing error _ => some error
  | .requestsFailed error => some error
  | .runsFailed error => some error
  | .finished => none
  | .abandoned => none

/-- The first cause is an unknown outcome, or it is not a request's; what is published is
the first cause, up to what its message says of the end of the process. -/
structure ClientShared.Published (s : ClientShared) (first error : Error) : Prop where
  firstCause : s.firstCause = some first
  failure : s.connection.failure = some error
  same : error.SameCause first
  blamed : first.kind = .outcomeUnknown ∨ first ∈ s.causes

/-- What a disconnect under way keeps. -/
structure ClientShared.Sound (s : ClientShared) : Prop where
  connected : s.connection.disconnected = false →
    s.stage = .connected ∧ s.firstCause = none ∧ s.connection.failure = none
  disconnected : s.connection.disconnected = true → ∃ first failure, s.Published first failure ∧
    ∀ error, s.stage.cause = some error → error.SameCause first

namespace ClientShared

theorem Grows.refl (s : ClientShared) : s.Grows s := ⟨fun h => h, fun _ h => h⟩

theorem Grows.of_eq {s t : ClientShared} (hc : t.connection.disconnected = s.connection.disconnected)
    (hf : t.firstCause = s.firstCause) : s.Grows t :=
  ⟨fun h => hc.trans h, fun _ h => hf.trans h⟩

theorem sound_new : new.Sound where
  connected _ := ⟨rfl, rfl, rfl⟩
  disconnected h := by cases h

theorem beginDisconnect_cases (s : ClientShared) (owner : Option Nat) (error : Error) :
    (s.connection.disconnected = true ∧ s.beginDisconnect owner error = (false, s)) ∨
    (s.connection.disconnected = false ∧ s.beginDisconnect owner error =
      (true, { s with
        connection := { s.connection with failure := some error, disconnected := true }
        stage := .flagged error
        owner
        firstCause := some error })) := by
  unfold beginDisconnect
  rcases s.connection.beginDisconnect_cases error with ⟨h, hs⟩ | ⟨h, hs⟩
  · exact .inl ⟨h, by rw [hs]⟩
  · exact .inr ⟨h, by rw [hs]⟩

theorem beginDisconnect_disconnected (s : ClientShared) (owner : Option Nat) (error : Error) :
    (s.beginDisconnect owner error).2.connection.disconnected = true := by
  rcases s.beginDisconnect_cases owner error with ⟨h, hs⟩ | ⟨-, hs⟩
  · rw [hs]; exact h
  · rw [hs]

theorem Sound.beginDisconnect {s : ClientShared} (h : s.Sound) (owner : Option Nat)
    {error : Error} (hblamed : error.kind = .outcomeUnknown ∨ error ∈ s.causes) :
    (s.beginDisconnect owner error).2.Sound := by
  rcases s.beginDisconnect_cases owner error with ⟨-, hs⟩ | ⟨-, hs⟩
  · rw [hs]; exact h
  · rw [hs]
    refine ⟨fun hconn => absurd hconn (by simp), fun _ => ?_⟩
    refine ⟨error, error, ⟨rfl, rfl, .refl _, hblamed⟩, ?_⟩
    intro e he
    cases he
    exact .refl _

/-- What others disconnect for is noted first. -/
theorem Sound.blame {s : ClientShared} (h : s.Sound) (error : Error) : (s.blame error).Sound where
  connected := h.connected
  disconnected hconn := by
    obtain ⟨first, failure, hp, hcause⟩ := h.disconnected hconn
    refine ⟨first, failure, ⟨hp.firstCause, hp.failure, hp.same, ?_⟩, hcause⟩
    exact hp.blamed.imp_right (fun hmem => List.mem_cons_of_mem _ hmem)

theorem grows_beginDisconnect {s : ClientShared} (h : s.Sound) (owner : Option Nat)
    (error : Error) : s.Grows (s.beginDisconnect owner error).2 := by
  rcases s.beginDisconnect_cases owner error with ⟨-, hs⟩ | ⟨hconn, hs⟩
  · rw [hs]; exact .refl s
  · rw [hs]
    refine ⟨fun _ => rfl, fun f hf => ?_⟩
    rw [(h.connected hconn).2.1] at hf
    cases hf

end ClientShared

/-- A step that leaves the published cause alone and starts no disconnect. -/
structure ClientShared.Keeps (s t : ClientShared) : Prop where
  connection : t.connection = s.connection
  firstCause : t.firstCause = s.firstCause
  causes : t.causes = s.causes
  connected : s.stage = .connected → t.stage = .connected
  cause : ∀ error, t.stage.cause = some error → s.stage.cause = some error

namespace ClientShared

theorem Keeps.refl (s : ClientShared) : s.Keeps s := ⟨rfl, rfl, rfl, fun h => h, fun _ h => h⟩

theorem Keeps.of_stage {s t : ClientShared} (hc : t.connection = s.connection)
    (hf : t.firstCause = s.firstCause) (hcauses : t.causes = s.causes) (hs : t.stage = s.stage) :
    s.Keeps t :=
  ⟨hc, hf, hcauses, fun h => hs.trans h, fun _ h => hs ▸ h⟩

/-- The owner of the disconnect is dropped. -/
theorem Keeps.abandon {s : ClientShared} {error : Error} (h : s.stage = .killing error) :
    s.Keeps { s with stage := .abandoned } where
  connection := rfl
  firstCause := rfl
  causes := rfl
  connected hs := by rw [h] at hs; cases hs
  cause _ he := by cases he

/-- One of the entries taken is failed. -/
theorem Keeps.failOne {s : ClientShared} {error : Error} {remaining rest : List Nat}
    (h : s.stage = .failing error remaining) : s.Keeps { s with stage := .failing error rest } where
  connection := rfl
  firstCause := rfl
  causes := rfl
  connected hs := by rw [h] at hs; cases hs
  cause _ he := by rw [h]; exact he

theorem Keeps.sound {s t : ClientShared} (h : s.Keeps t) (hs : s.Sound) : t.Sound where
  connected hconn := by
    rw [h.connection] at hconn ⊢
    obtain ⟨hstage, hfirst, hfailure⟩ := hs.connected hconn
    exact ⟨h.connected hstage, h.firstCause.trans hfirst, hfailure⟩
  disconnected hconn := by
    rw [h.connection] at hconn
    obtain ⟨first, failure, hp, hcause⟩ := hs.disconnected hconn
    have hpub : t.Published first failure := {
      firstCause := h.firstCause.trans hp.firstCause
      failure := by rw [h.connection]; exact hp.failure
      same := hp.same
      blamed := by rw [h.causes]; exact hp.blamed }
    exact ⟨first, failure, hpub, fun error he => hcause error (h.cause error he)⟩

theorem Keeps.grows {s t : ClientShared} (h : s.Keeps t) : s.Grows t :=
  .of_eq (by rw [h.connection]) h.firstCause

end ClientShared

/-! ## What one request's step does to what it shares -/

namespace RequestCell

/-- A call disconnects only for an unknown outcome, and reports it. -/
def Outcome (c : RequestCell) : Prop :=
  match c.call with
  | .disconnecting outcome => outcome.kind = .outcomeUnknown
  | .cleaning outcome => outcome.kind = .outcomeUnknown
  | _ => True

/-- A step that keeps the published cause, or disconnects for an unknown outcome. -/
def Publishes (s t : ClientShared) : Prop :=
  s.Keeps t ∨ ∃ owner error, error.kind = .outcomeUnknown ∧ t = (s.beginDisconnect owner error).2

theorem proceed_shared (env : ClientEnv) (i : Nat) (s : ClientShared) {c : RequestCell}
    (h : c.Outcome) (event : SendEvent) : Publishes s (c.proceed env i s event).1 := by
  have hrefl := ClientShared.Keeps.refl s
  cases hc : c.call with
  | registering =>
      simp only [proceed, hc]
      split_ifs
      · exact .inl hrefl
      · exact .inl (.of_stage rfl rfl rfl rfl)
  | acknowledging =>
      simp only [proceed, hc]
      split
      · exact .inl (.of_stage rfl rfl rfl rfl)
      · exact .inl hrefl
  | disconnecting outcome =>
      unfold Outcome at h
      rw [hc] at h
      simp only [proceed, hc]
      refine .inr ⟨some i, outcome, h, ?_⟩
      rcases s.beginDisconnect_cases (some i) outcome with ⟨-, hs⟩ | ⟨-, hs⟩
      · rw [hs]
      · rw [hs]
  | waiting =>
      refine .inl ?_
      simp only [proceed, hc]
      split_ifs
      · exact hrefl
      · split
        · exact hrefl
        · exact hrefl
        · exact hrefl
  | cleaning outcome =>
      refine .inl ?_
      simp only [proceed, hc]
      split
      · exact hrefl
      · exact hrefl
  | checkingDeadline => exact .inl (by simp only [proceed, hc]; split_ifs <;> exact hrefl)
  | checkingClosing => exact .inl (by simp only [proceed, hc]; split_ifs <;> exact hrefl)
  | checkingDisconnected => exact .inl (by simp only [proceed, hc]; split_ifs <;> exact hrefl)
  | entering => exact .inl (by simp only [proceed, hc]; split_ifs <;> exact hrefl)
  | reserving => exact .inl (by simp only [proceed, hc]; split_ifs <;> exact hrefl)
  | admitted => exact .inl (by simp only [proceed, hc]; split_ifs <;> exact hrefl)
  | dispatched => exact .inl (by simp only [proceed, hc]; split_ifs <;> exact hrefl)
  | leaving result resolved => exact .inl (by simp only [proceed, hc]; split_ifs <;> exact hrefl)
  | _ => exact .inl (by simp only [proceed, hc]; exact hrefl)

theorem drop_shared (i : Nat) (s : ClientShared) (c : RequestCell) :
    s.Keeps (c.drop i s).1 := by
  have hrefl := ClientShared.Keeps.refl s
  cases hc : c.call with
  | cleaning outcome =>
      simp only [drop, hc]
      split
      · rename_i error hstage
        split_ifs
        · exact .abandon hstage
        · exact hrefl
      · exact hrefl
  | _ => simp only [drop, hc]; exact hrefl

theorem failOne_shared (i : Nat) (s : ClientShared) (c : RequestCell) :
    s.Keeps (c.failOne i s).1 := by
  unfold failOne
  split
  · rename_i error remaining hstage
    split_ifs
    · exact .failOne hstage
    · exact .refl s
  · exact .refl s

end RequestCell

namespace ClientWorld

theorem actRequest_shared (env : ClientEnv) (i : Nat) (s : ClientShared) {c : RequestCell}
    (h : c.Outcome) (label : RequestLabel) :
    RequestCell.Publishes s (actRequest env i s c label).1 := by
  have hrefl := ClientShared.Keeps.refl s
  cases label with
  | call nonIdempotent allowClosing operation method params requestTimeout =>
      refine .inl ?_
      cases hc : c.call with
      | idle => simp only [actRequest, hc]; exact hrefl
      | _ => simp only [actRequest, hc]; exact hrefl
  | proceed event => exact RequestCell.proceed_shared env i s h event
  | drop => exact .inl (c.drop_shared i s)
  | succeed result => exact .inl hrefl
  | reject code message => exact .inl hrefl
  | handOver => exact .inl hrefl
  | disconnectOrphan =>
      simp only [actRequest, RequestCell.disconnectOrphan]
      split_ifs
      · exact .inr ⟨none, _, rfl, rfl⟩
      · exact .inl hrefl
  | runCancel =>
      simp only [actRequest, RequestCell.runCancel]
      split
      · split
        · exact .inl hrefl
        · exact .inl hrefl
      · exact .inr ⟨none, _, rfl, rfl⟩
      · exact .inl hrefl
  | failOne => exact .inl (c.failOne_shared i s)

theorem sameCause_enrich (error : Error) (termination : Termination) :
    (enrich error termination).SameCause error := by
  unfold enrich
  refine (Error.sameCause_withStderr _ _).trans ?_
  cases termination.failure with
  | none => exact .refl error
  | some failure => exact ⟨rfl, rfl⟩

/-- The cause is enriched before it is published again. -/
theorem enriched_sound {s : ClientShared} {error : Error} (termination : Termination)
    (h : s.Sound) (hstage : s.stage = .killing error) :
    ({ s with stage := .enriched (enrich error termination) } : ClientShared).Sound where
  connected hconn := by
    obtain ⟨hs, -, -⟩ := h.connected hconn
    rw [hstage] at hs
    cases hs
  disconnected hconn := by
    obtain ⟨first, failure, hp, hcause⟩ := h.disconnected hconn
    refine ⟨first, failure, ⟨hp.firstCause, hp.failure, hp.same, hp.blamed⟩, fun e he => ?_⟩
    cases he
    exact (sameCause_enrich error termination).trans (hcause error (by rw [hstage]; rfl))

theorem replaced_sound {s : ClientShared} {error : Error} (h : s.Sound)
    (hstage : s.stage = .enriched error) :
    ({ s with
      connection := s.connection.replaceFailure error
      stage := .replaced error } : ClientShared).Sound where
  connected hconn := by
    obtain ⟨hs, -, -⟩ := h.connected hconn
    rw [hstage] at hs
    cases hs
  disconnected hconn := by
    obtain ⟨first, failure, hp, hcause⟩ := h.disconnected hconn
    have herror : error.SameCause first := hcause error (by rw [hstage]; rfl)
    refine ⟨first, error, ⟨hp.firstCause, rfl, herror, hp.blamed⟩, fun e he => ?_⟩
    cases he
    exact herror

/-- A move of the disconnect that keeps its cause. -/
theorem keeps_move {s : ClientShared} {stage : DisconnectStage} {shutdownStarted : Bool}
    (hne : s.stage ≠ .connected)
    (hcause : ∀ error, stage.cause = some error → s.stage.cause = some error) :
    s.Keeps { s with stage, shutdownStarted } :=
  ⟨rfl, rfl, rfl, fun h => absurd h hne, hcause⟩

theorem goOn_shared (w : ClientWorld) (termination : Termination) (h : w.shared.Sound) :
    w.shared.Grows (w.goOn termination).shared ∧ (w.goOn termination).shared.Sound := by
  have hkeeps : ∀ {t : ClientShared}, w.shared.Keeps t → w.shared.Grows t ∧ t.Sound :=
    fun hk => ⟨hk.grows, hk.sound h⟩
  cases hstage : w.shared.stage with
  | connected => simp only [goOn, hstage]; exact ⟨.refl _, h⟩
  | flagged error =>
      simp only [goOn, hstage]
      exact hkeeps (keeps_move (by simp [hstage]) (fun e he => by rw [hstage]; exact he))
  | killing error =>
      simp only [goOn, hstage]
      exact ⟨.of_eq rfl rfl, enriched_sound termination h hstage⟩
  | enriched error =>
      simp only [goOn, hstage]
      exact ⟨.of_eq rfl rfl, replaced_sound h hstage⟩
  | replaced error =>
      simp only [goOn, hstage]
      exact hkeeps (keeps_move (by simp [hstage]) (fun e he => by rw [hstage]; exact he))
  | failing error remaining =>
      cases remaining with
      | nil =>
          simp only [goOn, hstage]
          exact hkeeps (keeps_move (by simp [hstage]) (fun e he => by rw [hstage]; exact he))
      | cons i rest => simp only [goOn, hstage]; exact ⟨.refl _, h⟩
  | requestsFailed error =>
      simp only [goOn, hstage]
      exact hkeeps (keeps_move (by simp [hstage]) (fun e he => by rw [hstage]; exact he))
  | runsFailed error =>
      simp only [goOn, hstage]
      exact hkeeps (keeps_move (by simp [hstage]) (fun e he => by cases he))
  | finished => simp only [goOn, hstage]; exact ⟨.refl _, h⟩
  | abandoned => simp only [goOn, hstage]; exact ⟨.refl _, h⟩

/-! ## What the calls disconnect for -/

end ClientWorld

namespace RequestCell

theorem Outcome.of_call {c d : RequestCell} (h : c.Outcome) (hcall : d.call = c.call) :
    d.Outcome := by
  unfold Outcome at h ⊢
  rw [hcall]
  exact h

theorem outcome_afterSendFailure (c : RequestCell) (error : Error) :
    (c.afterSendFailure error).Outcome := by
  unfold afterSendFailure
  split_ifs
  · exact rfl
  · exact trivial

theorem outcome_afterTimeout (c : RequestCell) : c.afterTimeout.Outcome := by
  unfold afterTimeout
  split
  · exact rfl
  · exact trivial

theorem Outcome.proceed {c : RequestCell} (h : c.Outcome) (env : ClientEnv) (i : Nat)
    (s : ClientShared) (event : SendEvent) : (c.proceed env i s event).2.Outcome := by
  cases hc : c.call with
  | idle => simp only [RequestCell.proceed, hc]; exact h
  | returned result => simp only [RequestCell.proceed, hc]; exact h
  | dropped => simp only [RequestCell.proceed, hc]; exact h
  | sendFailed error => simp only [RequestCell.proceed, hc]; exact c.outcome_afterSendFailure error
  | timedOut => simp only [RequestCell.proceed, hc]; exact c.outcome_afterTimeout
  | disconnecting outcome =>
      unfold Outcome at h
      rw [hc] at h
      simp only [RequestCell.proceed, hc]
      split
      · exact h
      · exact trivial
  | cleaning outcome =>
      simp only [RequestCell.proceed, hc]
      split
      · exact trivial
      · exact h
  | acknowledging =>
      simp only [RequestCell.proceed, hc]
      split
      · exact trivial
      · exact trivial
  | waiting =>
      simp only [RequestCell.proceed, hc]
      split_ifs
      · exact trivial
      · split
        · exact h
        · exact trivial
        · exact trivial
  | leaving result resolved => simp only [RequestCell.proceed, hc]; split_ifs <;> exact trivial
  | checkingDeadline => simp only [RequestCell.proceed, hc]; split_ifs <;> exact trivial
  | checkingClosing => simp only [RequestCell.proceed, hc]; split_ifs <;> exact trivial
  | checkingDisconnected => simp only [RequestCell.proceed, hc]; split_ifs <;> exact trivial
  | registering => simp only [RequestCell.proceed, hc]; split_ifs <;> exact trivial
  | entering => simp only [RequestCell.proceed, hc]; split_ifs <;> exact trivial
  | reserving => simp only [RequestCell.proceed, hc]; split_ifs <;> exact trivial
  | admitted => simp only [RequestCell.proceed, hc]; split_ifs <;> exact trivial
  | dispatched => simp only [RequestCell.proceed, hc]; split_ifs <;> exact trivial
  | readingFailure => simp only [RequestCell.proceed, hc]; exact trivial
  | marking => simp only [RequestCell.proceed, hc]; exact trivial
  | queueing => simp only [RequestCell.proceed, hc]; exact trivial
  | terminating reason => simp only [RequestCell.proceed, hc]; exact trivial
  | unwinding => simp only [RequestCell.proceed, hc]; exact trivial

theorem Outcome.drop {c : RequestCell} (h : c.Outcome) (i : Nat) (s : ClientShared) :
    (c.drop i s).2.Outcome := by
  cases hc : c.call with
  | reserving => simp only [RequestCell.drop, hc]; exact trivial
  | acknowledging => simp only [RequestCell.drop, hc]; exact trivial
  | terminating reason => simp only [RequestCell.drop, hc]; exact trivial
  | waiting => simp only [RequestCell.drop, hc]; exact trivial
  | cleaning outcome =>
      simp only [RequestCell.drop, hc]
      split
      · split_ifs
        · exact trivial
        · exact h
      · exact h
  | _ => simp only [RequestCell.drop, hc]; exact h

theorem respond_call (c : RequestCell) (response : Result Json) :
    (c.respond response).call = c.call := by
  unfold respond
  split
  · rfl
  · rfl

theorem handOver_call (c : RequestCell) : c.handOver.call = c.call := by
  unfold handOver
  split
  · split
    · rfl
    · rfl
  · rfl

theorem disconnectOrphan_call (c : RequestCell) (s : ClientShared) :
    (c.disconnectOrphan s).2.call = c.call := by
  unfold disconnectOrphan
  split_ifs
  · rfl
  · rfl

theorem runCancel_call (c : RequestCell) (s : ClientShared) :
    (c.runCancel s).2.call = c.call := by
  unfold runCancel
  split
  · split
    · rfl
    · rfl
  · rfl
  · rfl

theorem failOne_call (c : RequestCell) (i : Nat) (s : ClientShared) :
    (c.failOne i s).2.call = c.call := by
  unfold failOne
  split
  · split_ifs
    · rfl
    · rfl
  · rfl

end RequestCell

namespace ClientWorld

theorem actRequest_outcome (env : ClientEnv) (i : Nat) (s : ClientShared) {c : RequestCell}
    (h : c.Outcome) (label : RequestLabel) : (actRequest env i s c label).2.Outcome := by
  cases label with
  | call nonIdempotent allowClosing operation method params requestTimeout =>
      cases hc : c.call with
      | idle => simp only [actRequest, hc]; exact trivial
      | _ => simp only [actRequest, hc]; exact h
  | proceed event => exact h.proceed env i s event
  | drop => exact h.drop i s
  | succeed result => exact h.of_call (c.respond_call _)
  | reject code message => exact h.of_call (c.respond_call _)
  | handOver => exact h.of_call c.handOver_call
  | disconnectOrphan => exact h.of_call (c.disconnectOrphan_call s)
  | runCancel => exact h.of_call (c.runCancel_call s)
  | failOne => exact h.of_call (c.failOne_call i s)

/-- The disconnect under way touches no call. -/
theorem goOn_call (w : ClientWorld) (termination : Termination) (j : Nat) :
    ((w.goOn termination).requests j).call = (w.requests j).call := by
  unfold goOn
  split
  · rfl
  · rfl
  · rfl
  · rfl
  · split
    · rfl
    · rfl
  · rfl
  · rfl
  · rfl

/-! ## Every run -/

/-- What every run keeps of what the requests share. -/
structure Caused (w : ClientWorld) : Prop where
  sound : w.shared.Sound
  outcome : ∀ j, (w.requests j).Outcome

theorem caused_init : init.Caused := ⟨ClientShared.sound_new, fun _ => trivial⟩

/-- Every step keeps the published cause and what the disconnect knows of it. -/
theorem act_shared (env : ClientEnv) {w : ClientWorld} (label : ClientLabel) (h : w.Caused) :
    w.shared.Grows (w.act env label).shared ∧ (w.act env label).shared.Sound := by
  cases label with
  | request i label =>
      rcases actRequest_shared env i w.shared (h.outcome i) label with
        hk | ⟨owner, error, hkind, hb⟩
      · exact ⟨hk.grows, hk.sound h.sound⟩
      · simp only [act, hb]
        exact ⟨ClientShared.grows_beginDisconnect h.sound owner error,
          h.sound.beginDisconnect owner (.inl hkind)⟩
  | disconnect error =>
      have hblame : (w.shared.blame error).Sound := h.sound.blame error
      have hgrows := ClientShared.grows_beginDisconnect hblame none error
      exact ⟨⟨hgrows.disconnected, hgrows.firstCause⟩,
        hblame.beginDisconnect none (.inr List.mem_cons_self)⟩
  | goOn termination => exact w.goOn_shared termination h.sound
  | dropOwner =>
      have hk : w.shared.Keeps (w.act env .dropOwner).shared := by
        simp only [act]
        split
        · rename_i error _ hstage _
          exact .abandon hstage
        · exact .refl _
      exact ⟨hk.grows, hk.sound h.sound⟩
  | beginClosing =>
      refine ⟨.of_eq rfl rfl, ?_, ?_⟩
      · exact fun hconn => h.sound.connected hconn
      · intro hconn
        obtain ⟨first, failure, hp, hcause⟩ := h.sound.disconnected hconn
        exact ⟨first, failure, ⟨hp.firstCause, hp.failure, hp.same, hp.blamed⟩, hcause⟩
  | stopProcess =>
      have hk : w.shared.Keeps (w.act env .stopProcess).shared := .of_stage rfl rfl rfl rfl
      exact ⟨hk.grows, hk.sound h.sound⟩

theorem Caused.act (env : ClientEnv) {w : ClientWorld} (h : w.Caused) (label : ClientLabel) :
    (w.act env label).Caused where
  sound := (act_shared env label h).2
  outcome j := by
    cases label with
    | request i label =>
        simp only [ClientWorld.act, Function.update_apply]
        split_ifs
        · exact actRequest_outcome env i w.shared (h.outcome i) label
        · exact h.outcome j
    | goOn termination => exact (h.outcome j).of_call (w.goOn_call termination j)
    | dropOwner =>
        simp only [ClientWorld.act]
        split
        · exact h.outcome j
        · exact h.outcome j
    | disconnect error => exact h.outcome j
    | beginClosing => exact h.outcome j
    | stopProcess => exact h.outcome j

end ClientWorld

end Vergerail
