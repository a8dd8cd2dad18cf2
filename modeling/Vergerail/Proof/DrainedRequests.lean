import Vergerail.Proof.Listening

/-!
# No request outlives the disconnect

`fail_all` takes every entry it finds. A request that registers later finds the process
shut down before it sends, and takes its entry out itself, so once the entries are taken
the only pending ones are those of calls about to fail (`Owed`).
-/

namespace Vergerail

open Lib

/-! ## Stages -/

/-- The entries are taken. -/
def DisconnectStage.drained : DisconnectStage → Bool
  | .failing _ _ => true
  | .requestsFailed _ => true
  | .runsFailed _ => true
  | .finished => true
  | _ => false

/-- The shutdown is announced. -/
def DisconnectStage.killed : DisconnectStage → Bool
  | .killing _ => true
  | .enriched _ => true
  | .replaced _ => true
  | stage => stage.drained

/-- `fail_all` has the entry of call `i` left to fail. -/
def DisconnectStage.Owes (stage : DisconnectStage) (i : Nat) : Prop :=
  ∃ error remaining, stage = .failing error remaining ∧ i ∈ remaining

namespace ClientShared

/-- A step that takes from call `i` nothing of what the disconnect owes it. -/
structure Eases (i : Nat) (s t : ClientShared) : Prop where
  registered : i ∈ s.registered → i ∈ t.registered
  shutdown : s.shutdownStarted = true → t.shutdownStarted = true
  killed : t.stage.killed = true → s.stage.killed = true
  drained : t.stage.drained = true → s.stage.drained = true
  owes : s.stage.Owes i → t.stage.Owes i

theorem Eases.refl (i : Nat) (s : ClientShared) : s.Eases i s :=
  ⟨fun h => h, fun h => h, fun h => h, fun h => h, fun h => h⟩

/-- A step that leaves the disconnect where it is. -/
structure Stays (s t : ClientShared) : Prop where
  stage : t.stage = s.stage
  registered : ∀ i ∈ s.registered, i ∈ t.registered
  shutdown : s.shutdownStarted = true → t.shutdownStarted = true

theorem Stays.refl (s : ClientShared) : s.Stays s := ⟨rfl, fun _ h => h, fun h => h⟩

theorem Stays.eases {s t : ClientShared} (h : s.Stays t) (i : Nat) : s.Eases i t where
  registered := h.registered i
  shutdown := h.shutdown
  killed hk := by rw [← h.stage]; exact hk
  drained hd := by rw [← h.stage]; exact hd
  owes ho := by rw [h.stage]; exact ho

theorem eases_beginDisconnect {s : ClientShared} (h : s.Sound) (i : Nat) (owner : Option Nat)
    (error : Error) : s.Eases i (s.beginDisconnect owner error).2 := by
  rcases s.beginDisconnect_cases owner error with ⟨-, hs⟩ | ⟨hconn, hs⟩
  · rw [hs]
    exact .refl i s
  · rw [hs]
    exact {
      registered := fun h => h
      shutdown := fun h => h
      killed := fun hk => by cases hk
      drained := fun hd => by cases hd
      owes := by
        rintro ⟨e, remaining, hstage, -⟩
        rw [(h.connected hconn).1] at hstage
        cases hstage }

/-- The shutdown is announced before the entries are taken. -/
def Shut (s : ClientShared) : Prop := s.stage.killed = true → s.shutdownStarted = true

theorem Shut.eases {i : Nat} {s t : ClientShared} (h : s.Shut) (he : s.Eases i t) : t.Shut :=
  fun hk => he.shutdown (h (he.killed hk))

theorem Shut.of_drained {s : ClientShared} (h : s.Shut) (hd : s.stage.drained = true) :
    s.shutdownStarted = true := by
  refine h ?_
  cases hs : s.stage with
  | killing error => rfl
  | enriched error => rfl
  | replaced error => rfl
  | _ => rw [hs] at hd; exact hd

end ClientShared

namespace RequestCell

/-- A call's step leaves the stage alone, or disconnects. -/
theorem proceed_stage (env : ClientEnv) (j : Nat) (s : ClientShared) (c : RequestCell)
    (event : SendEvent) :
    s.Stays (c.proceed env j s event).1 ∨
    ∃ owner error, (c.proceed env j s event).1 = (s.beginDisconnect owner error).2 := by
  have hrefl := ClientShared.Stays.refl s
  cases hc : c.call with
  | registering =>
      simp only [proceed, hc]
      split_ifs
      · exact .inl hrefl
      · exact .inl ⟨rfl, fun _ h => List.mem_cons_of_mem _ h, fun h => h⟩
  | acknowledging =>
      simp only [proceed, hc]
      split
      · exact .inl ⟨rfl, fun _ h => h, fun _ => rfl⟩
      · exact .inl hrefl
  | disconnecting outcome =>
      simp only [proceed, hc]
      refine .inr ⟨some j, outcome, ?_⟩
      rcases s.beginDisconnect_cases (some j) outcome with ⟨-, hs⟩ | ⟨-, hs⟩
      · rw [hs]
      · rw [hs]
  | waiting =>
      refine .inl ?_
      simp only [proceed, hc]
      split_ifs
      · exact hrefl
      · split
        · exact hrefl
        · exact hrefl
        · exact hrefl
  | cleaning outcome =>
      refine .inl ?_
      simp only [proceed, hc]
      split
      · exact hrefl
      · exact hrefl
  | checkingDeadline => exact .inl (by simp only [proceed, hc]; split_ifs <;> exact hrefl)
  | checkingClosing => exact .inl (by simp only [proceed, hc]; split_ifs <;> exact hrefl)
  | checkingDisconnected => exact .inl (by simp only [proceed, hc]; split_ifs <;> exact hrefl)
  | entering => exact .inl (by simp only [proceed, hc]; split_ifs <;> exact hrefl)
  | reserving => exact .inl (by simp only [proceed, hc]; split_ifs <;> exact hrefl)
  | admitted => exact .inl (by simp only [proceed, hc]; split_ifs <;> exact hrefl)
  | dispatched => exact .inl (by simp only [proceed, hc]; split_ifs <;> exact hrefl)
  | leaving result resolved => exact .inl (by simp only [proceed, hc]; split_ifs <;> exact hrefl)
  | _ => exact .inl (by simp only [proceed, hc]; exact hrefl)

theorem eases_proceed (env : ClientEnv) (i j : Nat) {s : ClientShared} (hs : s.Sound)
    (c : RequestCell) (event : SendEvent) : s.Eases i (c.proceed env j s event).1 := by
  rcases c.proceed_stage env j s event with hstays | ⟨owner, error, hb⟩
  · exact hstays.eases i
  · rw [hb]
    exact ClientShared.eases_beginDisconnect hs i owner error

theorem eases_drop (i j : Nat) (s : ClientShared) (c : RequestCell) :
    s.Eases i (c.drop j s).1 := by
  have hrefl := ClientShared.Eases.refl i s
  cases hc : c.call with
  | cleaning outcome =>
      simp only [drop, hc]
      split
      · rename_i error hstage
        split_ifs
        · exact {
            registered := fun h => h
            shutdown := fun h => h
            killed := fun hk => by cases hk
            drained := fun hd => by cases hd
            owes := by
              rintro ⟨e, remaining, howes, -⟩
              rw [hstage] at howes
              cases howes }
        · exact hrefl
      · exact hrefl
  | _ => simp only [drop, hc]; exact hrefl

/-- Failing another entry leaves call `i` what it is owed. -/
theorem eases_failOne {i j : Nat} (hij : i ≠ j) (s : ClientShared) (c : RequestCell) :
    s.Eases i (c.failOne j s).1 := by
  unfold failOne
  split
  · rename_i error remaining hstage
    split_ifs
    · refine ⟨fun h => h, fun h => h, fun _ => ?_, fun _ => ?_, ?_⟩
      · rw [hstage]; rfl
      · rw [hstage]; rfl
      rintro ⟨e, rest, howes, hmem⟩
      rw [hstage] at howes
      cases howes
      exact ⟨error, remaining.erase j, rfl, (List.mem_erase_of_ne hij).mpr hmem⟩
    · exact .refl i s
  · exact .refl i s

end RequestCell

theorem ClientWorld.eases_actRequest (env : ClientEnv) {i j : Nat} {s : ClientShared}
    (hs : s.Sound) (c : RequestCell) {label : RequestLabel} (hlabel : i ≠ j ∨ label ≠ .failOne) :
    s.Eases i (actRequest env j s c label).1 := by
  have hrefl := ClientShared.Eases.refl i s
  cases label with
  | call nonIdempotent allowClosing operation method params requestTimeout =>
      cases hc : c.call with
      | idle => simp only [actRequest, hc]; exact hrefl
      | _ => simp only [actRequest, hc]; exact hrefl
  | proceed event => exact RequestCell.eases_proceed env i j hs c event
  | drop => exact RequestCell.eases_drop i j s c
  | succeed result => exact hrefl
  | reject code message => exact hrefl
  | handOver => exact hrefl
  | disconnectOrphan =>
      simp only [actRequest, RequestCell.disconnectOrphan]
      split_ifs
      · exact ClientShared.eases_beginDisconnect hs i none _
      · exact hrefl
  | runCancel =>
      simp only [actRequest, RequestCell.runCancel]
      split
      · split
        · exact hrefl
        · exact hrefl
      · exact ClientShared.eases_beginDisconnect hs i none _
      · exact hrefl
  | failOne =>
      rcases hlabel with hij | hne
      · exact RequestCell.eases_failOne hij s c
      · exact absurd rfl hne

/-! ## What the disconnect owes a call -/

namespace RequestCell

/-- The entry is known to whoever drains; once drained, it is pending only in the hands of
a call that is about to fail. -/
structure Owed (i : Nat) (s : ClientShared) (c : RequestCell) : Prop where
  registered : c.request.entry = .pending → i ∈ s.registered
  drained : s.stage.drained = true → c.request.entry = .pending →
    c.call = .entering ∨ ∃ error, c.call = .sendFailed error
  failing : c.request.entry = .failing → s.stage.Owes i

theorem owed_idle (i : Nat) (s : ClientShared) : idle.Owed i s where
  registered h := by cases h
  drained _ h := by cases h
  failing h := by cases h

/-- A step after which the entry is pending only if it was. -/
theorem Owed.move {i : Nat} {s t : ClientShared} {c d : RequestCell} (h : c.Owed i s)
    (he : s.Eases i t) (hfailing : d.request.entry = .failing → c.request.entry = .failing)
    (hpending : d.request.entry = .pending → c.request.entry = .pending ∧ (d.call = c.call ∨
      (c.call ≠ .entering ∧ ∀ error, c.call ≠ .sendFailed error))) : d.Owed i t where
  registered hp := he.registered (h.registered (hpending hp).1)
  drained hd hp := by
    obtain ⟨hp', hcall⟩ := hpending hp
    rcases hcall with hcall | ⟨hne, hne'⟩
    · rw [hcall]
      exact h.drained (he.drained hd) hp'
    · rcases h.drained (he.drained hd) hp' with hc | ⟨error, hc⟩
      · exact absurd hc hne
      · exact absurd hc (hne' error)
  failing hf := he.owes (h.failing (hfailing hf))

/-- The entry is as it was or gone, and the call is where it was. -/
theorem Owed.others {i : Nat} {s t : ClientShared} {c d : RequestCell} (h : c.Owed i s)
    (he : s.Eases i t) (hfailing : d.request.entry = .failing → c.request.entry = .failing)
    (hpending : d.request.entry = .pending → c.request.entry = .pending)
    (hcall : d.call = c.call) : d.Owed i t :=
  h.move he hfailing (fun hp => ⟨hpending hp, .inl hcall⟩)

theorem remove_entry (p : PendingRequest) :
    (p.remove.entry = .failing → p.entry = .failing) ∧ p.remove.entry ≠ .pending := by
  rcases p.remove_cases with ⟨-, h⟩ | ⟨hne, h⟩
  · rw [h]
    exact ⟨fun hf => absurd hf (by simp [PendingRequest.dropSender]),
      by simp [PendingRequest.dropSender]⟩
  · rw [h]
    exact ⟨fun hf => hf, hne⟩

/-- A step of a call that is neither about to send nor about to give up its entry. -/
theorem Owed.goto {i : Nat} {s : ClientShared} {c : RequestCell} (h : c.Owed i s)
    (hc : c.call ≠ .entering) (hc' : ∀ error, c.call ≠ .sendFailed error) (call : RequestCall) :
    (c.goto call).Owed i s :=
  h.move (.refl i s) (fun hf => hf) (fun hp => ⟨hp, .inr ⟨hc, hc'⟩⟩)

theorem Owed.afterSendFailure {i : Nat} {s : ClientShared} {c : RequestCell} (h : c.Owed i s)
    (error : Error) : (c.afterSendFailure error).Owed i s := by
  obtain ⟨hf, hp⟩ := remove_entry c.request
  unfold RequestCell.afterSendFailure
  split_ifs
  · exact h.move (.refl i s) hf (fun hpend => absurd hpend hp)
  · exact h.move (.refl i s) hf (fun hpend => absurd hpend hp)

theorem Owed.afterTimeout {i : Nat} {s : ClientShared} {c : RequestCell} (h : c.Owed i s) :
    c.afterTimeout.Owed i s := by
  obtain ⟨hf, hp⟩ := remove_entry c.request
  unfold RequestCell.afterTimeout PendingRequest.timeout
  split_ifs
  · exact h.move (.refl i s) hf (fun hpend => absurd hpend hp)
  · exact h.move (.refl i s) hf (fun hpend => absurd hpend hp)

theorem Owed.proceed {i : Nat} {s : ClientShared} {c : RequestCell} (h : c.Owed i s)
    (hs : s.Sound) (hshut : s.Shut) (env : ClientEnv) (event : SendEvent) :
    (c.proceed env i s event).2.Owed i (c.proceed env i s event).1 := by
  have hgo : ∀ {call : RequestCall}, c.call = call → call ≠ .entering →
      (∀ error, call ≠ .sendFailed error) → ∀ next, (c.goto next).Owed i s :=
    fun hc hne hne' next => h.goto (by rw [hc]; exact hne) (fun e => by rw [hc]; exact hne' e) next
  cases hc : c.call with
  | idle => simp only [RequestCell.proceed, hc]; exact h
  | returned result => simp only [RequestCell.proceed, hc]; exact h
  | dropped => simp only [RequestCell.proceed, hc]; exact h
  | checkingDeadline =>
      simp only [RequestCell.proceed, hc]
      split_ifs
      · exact hgo hc (by simp) (by simp) _
      · exact hgo hc (by simp) (by simp) _
  | checkingClosing =>
      simp only [RequestCell.proceed, hc]
      split_ifs
      · exact hgo hc (by simp) (by simp) _
      · exact hgo hc (by simp) (by simp) _
  | checkingDisconnected =>
      simp only [RequestCell.proceed, hc]
      split_ifs
      · exact hgo hc (by simp) (by simp) _
      · exact hgo hc (by simp) (by simp) _
  | readingFailure => simp only [RequestCell.proceed, hc]; exact hgo hc (by simp) (by simp) _
  | registering =>
      simp only [RequestCell.proceed, hc]
      split_ifs
      · exact hgo hc (by simp) (by simp) _
      · exact {
          registered := fun _ => List.mem_cons_self
          drained := fun _ _ => .inl rfl
          failing := fun hf => by cases hf }
  | entering =>
      have hfail : ∀ error : Error, (c.goto (.sendFailed error)).Owed i s := fun error => {
        registered := h.registered
        drained := fun _ _ => .inr ⟨error, rfl⟩
        failing := h.failing }
      simp only [RequestCell.proceed, hc]
      split_ifs with hstarted
      · exact hfail _
      · exact hfail _
      · exact hfail _
      · -- the process is up, so nothing is drained yet
        exact {
          registered := h.registered
          drained := fun hd _ => absurd (hshut.of_drained hd) hstarted
          failing := h.failing }
  | reserving =>
      simp only [RequestCell.proceed, hc]
      split_ifs
      · exact hgo hc (by simp) (by simp) _
      · exact hgo hc (by simp) (by simp) _
      · exact hgo hc (by simp) (by simp) _
  | admitted =>
      simp only [RequestCell.proceed, hc]
      split_ifs
      · exact hgo hc (by simp) (by simp) _
      · exact hgo hc (by simp) (by simp) _
  | marking =>
      simp only [RequestCell.proceed, hc]
      exact (hgo hc (by simp) (by simp) .queueing).others (.refl i s) (fun hf => hf) (fun hp => hp)
        rfl
  | queueing =>
      simp only [RequestCell.proceed, hc]
      exact (hgo hc (by simp) (by simp) .dispatched).others (.refl i s) (fun hf => hf)
        (fun hp => hp) rfl
  | dispatched =>
      simp only [RequestCell.proceed, hc]
      split_ifs
      · exact hgo hc (by simp) (by simp) _
      · exact hgo hc (by simp) (by simp) _
  | acknowledging =>
      simp only [RequestCell.proceed, hc]
      split
      · have hstays : s.Stays { s with shutdownStarted := true } :=
          ⟨rfl, fun _ hr => hr, fun _ => rfl⟩
        have he : s.Eases i { s with shutdownStarted := true } := hstays.eases i
        exact (hgo hc (by simp) (by simp) _).others he (fun hf => hf) (fun hp => hp) rfl
      · exact hgo hc (by simp) (by simp) _
  | terminating reason => simp only [RequestCell.proceed, hc]; exact hgo hc (by simp) (by simp) _
  | sendFailed error => simp only [RequestCell.proceed, hc]; exact h.afterSendFailure error
  | waiting =>
      simp only [RequestCell.proceed, hc]
      split_ifs
      · exact (hgo hc (by simp) (by simp) .timedOut).others (.refl i s) (fun hf => hf)
          (fun hp => hp) rfl
      · split
        · exact h
        · exact hgo hc (by simp) (by simp) _
        · exact hgo hc (by simp) (by simp) _
  | timedOut => simp only [RequestCell.proceed, hc]; exact h.afterTimeout
  | disconnecting outcome =>
      simp only [RequestCell.proceed, hc]
      rcases s.beginDisconnect_cases (some i) outcome with ⟨-, hb⟩ | ⟨-, hb⟩
      · rw [hb]
        exact hgo hc (by simp) (by simp) _
      · have he := ClientShared.eases_beginDisconnect hs i (some i) outcome
        rw [hb] at he ⊢
        exact (hgo hc (by simp) (by simp) _).others he (fun hf => hf) (fun hp => hp) rfl
  | cleaning outcome =>
      simp only [RequestCell.proceed, hc]
      split
      · exact hgo hc (by simp) (by simp) _
      · exact h
  | leaving result resolved =>
      simp only [RequestCell.proceed, hc]
      have hleft := hgo hc (by simp) (by simp) (.returned result)
      split_ifs
      · exact hleft.others (.refl i s) (fun hf => hf) (fun hp => hp) rfl
      · exact hleft.others (.refl i s) (fun hf => hf) (fun hp => hp) rfl
  | unwinding =>
      simp only [RequestCell.proceed, hc]
      exact (hgo hc (by simp) (by simp) .dropped).others (.refl i s) (fun hf => hf)
        (fun hp => hp) rfl

theorem Owed.drop {i : Nat} {s : ClientShared} {c : RequestCell} (h : c.Owed i s) :
    (c.drop i s).2.Owed i (c.drop i s).1 := by
  have he := eases_drop i i s c
  have hunwound : ∀ {t : ClientShared}, s.Eases i t → c.call ≠ .entering →
      (∀ error, c.call ≠ .sendFailed error) →
      ({ c with request := c.request.dropReceiver, call := .unwinding } : RequestCell).Owed i t :=
    fun he hne hne' => h.move he (fun hf => hf) (fun hp => ⟨hp, .inr ⟨hne, hne'⟩⟩)
  cases hc : c.call with
  | reserving =>
      simp only [RequestCell.drop, hc]
      exact hunwound (.refl i s) (by simp [hc]) (by simp [hc])
  | acknowledging =>
      simp only [RequestCell.drop, hc]
      exact hunwound (.refl i s) (by simp [hc]) (by simp [hc])
  | terminating reason =>
      simp only [RequestCell.drop, hc]
      exact hunwound (.refl i s) (by simp [hc]) (by simp [hc])
  | waiting =>
      simp only [RequestCell.drop, hc]
      exact hunwound (.refl i s) (by simp [hc]) (by simp [hc])
  | cleaning outcome =>
      simp only [RequestCell.drop, hc] at he ⊢
      split at he
      · split_ifs at he ⊢
        · exact hunwound he (by simp [hc]) (by simp [hc])
        · exact h
      · exact h
  | _ => simp only [RequestCell.drop, hc]; exact h

/-- The entry that is failed is owed nothing more. -/
theorem Owed.failOne {i : Nat} {s : ClientShared} {c : RequestCell} (h : c.Owed i s) :
    (c.failOne i s).2.Owed i (c.failOne i s).1 := by
  unfold RequestCell.failOne
  split
  · rename_i error remaining hstage
    split_ifs
    · have hdrained : s.stage.drained = true := by rw [hstage]; rfl
      have hentry : (c.request.fail error).entry ≠ .failing ∧
          ((c.request.fail error).entry = .pending → c.request.entry = .pending) := by
        unfold PendingRequest.fail
        split
        · exact ⟨by simp [PendingRequest.send], by simp [PendingRequest.send]⟩
        · rename_i hne
          exact ⟨hne, fun hp => hp⟩
      exact {
        registered := fun hp => h.registered (hentry.2 hp)
        drained := fun _ hp => h.drained hdrained (hentry.2 hp)
        failing := fun hf => absurd hf hentry.1 }
    · exact h
  · exact h

theorem owed_respond {i : Nat} {s : ClientShared} {c : RequestCell} (h : c.Owed i s)
    (response : Result Json) : (c.respond response).Owed i s := by
  rcases c.respond_cases response with ⟨-, hs⟩ | hs
  · rw [hs]
    exact h.others (.refl i s) (fun hf => by cases hf) (fun hp => by cases hp) rfl
  · rw [hs]; exact h

theorem owed_handOver {i : Nat} {s : ClientShared} {c : RequestCell} (h : c.Owed i s) :
    c.handOver.Owed i s := by
  rcases c.handOver_cell_cases with ⟨response, -, hs | ⟨hs, -, -⟩⟩ | hs
  · rw [hs]
    exact h.others (.refl i s) (fun hf => by cases hf) (fun hp => by cases hp) rfl
  · rw [hs]
    exact h.others (.refl i s) (fun hf => by cases hf) (fun hp => by cases hp) rfl
  · rw [hs]; exact h

theorem owed_runCancel {i : Nat} {s : ClientShared} {c : RequestCell} (h : c.Owed i s)
    (hs : s.Sound) : (c.runCancel s).2.Owed i (c.runCancel s).1 := by
  obtain ⟨hf, hp⟩ := remove_entry c.request
  unfold runCancel
  split
  · rcases cancel_cases c.request with ⟨hcancel, -⟩ | hcancel
    · rw [hcancel]
      exact h.others (.refl i s) hf (fun hpend => absurd hpend hp) rfl
    · rw [hcancel]
      exact h.others (.refl i s) hf (fun hpend => absurd hpend hp) rfl
  · exact h.others (ClientShared.eases_beginDisconnect hs i none _) (fun hf => hf) (fun hp => hp) rfl
  · exact h

theorem owed_disconnectOrphan {i : Nat} {s : ClientShared} {c : RequestCell} (h : c.Owed i s)
    (hs : s.Sound) : (c.disconnectOrphan s).2.Owed i (c.disconnectOrphan s).1 := by
  unfold disconnectOrphan
  split_ifs
  · exact h.others (ClientShared.eases_beginDisconnect hs i none _) (fun hf => hf) (fun hp => hp) rfl
  · exact h

end RequestCell

/-! ## Every run -/

namespace ClientWorld

theorem sane_actRequest (env : ClientEnv) (i : Nat) (s : ClientShared) {c : RequestCell}
    (h : c.Sane) (label : RequestLabel) : (actRequest env i s c label).2.Sane := by
  cases label with
  | call nonIdempotent allowClosing operation method params requestTimeout =>
      cases hc : c.call with
      | idle =>
          simp only [actRequest, hc]
          exact {
            held := fun hl => hl.elim
            taken := fun v he => by cases he
            sent := fun v hw => by cases hw
            told := fun v ht => absurd ht (RequestCell.not_tells (by simp) (by simp)) }
      | _ => simp only [actRequest, hc]; exact h
  | proceed event => exact h.proceed env i s event
  | drop => exact h.drop i s
  | succeed result => exact h.respond _
  | reject code message => exact h.respond _
  | handOver => exact h.handOver
  | disconnectOrphan => exact h.disconnectOrphan s
  | runCancel => exact h.runCancel s
  | failOne => exact h.failOne i s

theorem owed_actRequest (env : ClientEnv) (i : Nat) {s : ClientShared} {c : RequestCell}
    (h : c.Owed i s) (hs : s.Sound) (hshut : s.Shut) (label : RequestLabel) :
    (actRequest env i s c label).2.Owed i (actRequest env i s c label).1 := by
  cases label with
  | call nonIdempotent allowClosing operation method params requestTimeout =>
      cases hc : c.call with
      | idle =>
          simp only [actRequest, hc]
          exact {
            registered := fun hp => by cases hp
            drained := fun _ hp => by cases hp
            failing := fun hf => by cases hf }
      | _ => simp only [actRequest, hc]; exact h
  | proceed event => exact h.proceed hs hshut env event
  | drop => exact h.drop
  | succeed result => exact RequestCell.owed_respond h _
  | reject code message => exact RequestCell.owed_respond h _
  | handOver => exact RequestCell.owed_handOver h
  | disconnectOrphan => exact RequestCell.owed_disconnectOrphan h hs
  | runCancel => exact RequestCell.owed_runCancel h hs
  | failOne => exact h.failOne

/-- What every run keeps of the requests and the disconnect. -/
structure Draining (w : ClientWorld) : Prop where
  caused : w.Caused
  shut : w.shared.Shut
  sane : ∀ i, (w.requests i).Sane
  owed : ∀ i, (w.requests i).Owed i w.shared

theorem draining_init : init.Draining where
  caused := caused_init
  shut h := by cases h
  sane _ := RequestCell.sane_idle
  owed i := RequestCell.owed_idle i _

theorem takeForFailure_entry (p : PendingRequest) :
    p.takeForFailure.entry ≠ .pending ∧
      (p.takeForFailure.entry = .failing → p.isPending = true ∨ p.entry = .failing) := by
  unfold PendingRequest.takeForFailure
  split_ifs with hp
  · exact ⟨by simp, fun _ => .inl hp⟩
  · exact ⟨fun he => hp ((PendingRequest.isPending_iff _).mpr he), fun hf => .inr hf⟩

/-- The entries are taken: each that was pending is left to fail. -/
theorem owed_takePending {w : ClientWorld} (h : w.Draining) {error : Error}
    (hstage : w.shared.stage = .replaced error) (i : Nat) :
    ((w.takePending error).requests i).Owed i (w.takePending error).shared := by
  have howed := h.owed i
  obtain ⟨hentry, hfailing⟩ := takeForFailure_entry (w.requests i).request
  refine ⟨fun hp => absurd hp hentry, fun _ hp => absurd hp hentry, fun hf => ?_⟩
  rcases hfailing hf with hp | hp
  · refine ⟨error, _, rfl, List.mem_filter.mpr ⟨?_, hp⟩⟩
    exact howed.registered ((PendingRequest.isPending_iff _).mp hp)
  · -- nothing was taken before
    obtain ⟨e, remaining, howes, -⟩ := howed.failing hp
    rw [hstage] at howes
    cases howes

/-- What the disconnect does on its way, but for taking the entries. -/
theorem eases_goOn (w : ClientWorld) (termination : Termination) (i : Nat)
    (hstage : ∀ error, w.shared.stage ≠ .replaced error)
    (hflagged : ∀ error, w.shared.stage ≠ .flagged error) :
    w.shared.Eases i (w.goOn termination).shared ∧ (w.goOn termination).requests = w.requests := by
  have hno : ∀ {stage : DisconnectStage}, w.shared.stage = stage →
      (∀ error remaining, stage ≠ .failing error remaining) → ¬ w.shared.stage.Owes i := by
    intro stage hs hne ⟨error, remaining, howes, _⟩
    exact hne error remaining (hs.symm.trans howes)
  cases hs : w.shared.stage with
  | connected => simp only [goOn, hs]; exact ⟨.refl i _, trivial⟩
  | flagged error => exact absurd hs (hflagged error)
  | replaced error => exact absurd hs (hstage error)
  | killing error =>
      simp only [goOn, hs]
      refine ⟨?_, trivial⟩
      exact {
        registered := fun h => h
        shutdown := fun h => h
        killed := fun _ => by rw [hs]; rfl
        drained := fun hd => by cases hd
        owes := fun ho => absurd ho (hno hs (by simp)) }
  | enriched error =>
      simp only [goOn, hs]
      refine ⟨?_, trivial⟩
      exact {
        registered := fun h => h
        shutdown := fun h => h
        killed := fun _ => by rw [hs]; rfl
        drained := fun hd => by cases hd
        owes := fun ho => absurd ho (hno hs (by simp)) }
  | failing error remaining =>
      cases remaining with
      | cons j rest => simp only [goOn, hs]; exact ⟨.refl i _, trivial⟩
      | nil =>
          simp only [goOn, hs]
          refine ⟨?_, trivial⟩
          exact {
            registered := fun h => h
            shutdown := fun h => h
            killed := fun _ => by rw [hs]; rfl
            drained := fun _ => by rw [hs]; rfl
            owes := by
              rintro ⟨e, remaining, howes, hmem⟩
              rw [hs] at howes
              cases howes
              cases hmem }
  | requestsFailed error =>
      simp only [goOn, hs]
      refine ⟨?_, trivial⟩
      exact {
        registered := fun h => h
        shutdown := fun h => h
        killed := fun _ => by rw [hs]; rfl
        drained := fun _ => by rw [hs]; rfl
        owes := fun ho => absurd ho (hno hs (by simp)) }
  | runsFailed error =>
      simp only [goOn, hs]
      refine ⟨?_, trivial⟩
      exact {
        registered := fun h => h
        shutdown := fun h => h
        killed := fun _ => by rw [hs]; rfl
        drained := fun _ => by rw [hs]; rfl
        owes := fun ho => absurd ho (hno hs (by simp)) }
  | finished => simp only [goOn, hs]; exact ⟨.refl i _, trivial⟩
  | abandoned => simp only [goOn, hs]; exact ⟨.refl i _, trivial⟩

/-- The disconnect goes on: what it owes a call it goes on owing. -/
theorem draining_goOn {w : ClientWorld} (h : w.Draining) (termination : Termination) :
    (w.goOn termination).shared.Shut ∧ (∀ i, ((w.goOn termination).requests i).Sane) ∧
      ∀ i, ((w.goOn termination).requests i).Owed i (w.goOn termination).shared := by
  have hquiet : (∀ error, w.shared.stage ≠ .replaced error) →
      (∀ error, w.shared.stage ≠ .flagged error) →
      (w.goOn termination).shared.Shut ∧ (∀ i, ((w.goOn termination).requests i).Sane) ∧
        ∀ i, ((w.goOn termination).requests i).Owed i (w.goOn termination).shared := by
    intro hstage hflagged
    refine ⟨h.shut.eases (w.eases_goOn termination 0 hstage hflagged).1, fun i => ?_, fun i => ?_⟩
    · rw [(w.eases_goOn termination i hstage hflagged).2]
      exact h.sane i
    · obtain ⟨he, hr⟩ := w.eases_goOn termination i hstage hflagged
      rw [hr]
      exact (h.owed i).others he (fun hf => hf) (fun hp => hp) rfl
  cases hs : w.shared.stage with
  | flagged error =>
      simp only [goOn, hs]
      refine ⟨fun _ => rfl, h.sane, fun i => ?_⟩
      have howed := h.owed i
      exact {
        registered := howed.registered
        drained := fun hd => by cases hd
        failing := fun hf => by
          obtain ⟨e, remaining, howes, -⟩ := howed.failing hf
          rw [hs] at howes
          cases howes }
  | replaced error =>
      simp only [goOn, hs]
      refine ⟨fun _ => h.shut (by rw [hs]; rfl), fun i => (h.sane i).takeForFailure, fun i => ?_⟩
      exact owed_takePending h hs i
  | _ => exact hquiet (by simp [hs]) (by simp [hs])

theorem Draining.act (env : ClientEnv) {w : ClientWorld} (h : w.Draining) (label : ClientLabel) :
    (w.act env label).Draining := by
  have hcaused := h.caused.act env label
  cases label with
  | request j label =>
      have hs := h.caused.sound
      refine ⟨hcaused, ?_, fun i => ?_, fun i => ?_⟩
      · by_cases hlabel : label = .failOne
        · subst hlabel
          exact h.shut.eases (RequestCell.eases_failOne (Nat.succ_ne_self j) w.shared _)
        · exact h.shut.eases (eases_actRequest env (i := j) hs (w.requests j) (.inr hlabel))
      · by_cases hij : i = j
        · subst hij
          simp only [ClientWorld.act, Function.update_self]
          exact sane_actRequest env i w.shared (h.sane i) label
        · simp only [ClientWorld.act, Function.update_of_ne hij]
          exact h.sane i
      · by_cases hij : i = j
        · subst hij
          simp only [ClientWorld.act, Function.update_self]
          exact owed_actRequest env i (h.owed i) hs h.shut label
        · simp only [ClientWorld.act, Function.update_of_ne hij]
          exact (h.owed i).others (eases_actRequest env hs _ (.inl hij)) (fun hf => hf)
            (fun hp => hp) rfl
  | goOn termination =>
      obtain ⟨hshut, hsane, howed⟩ := draining_goOn h termination
      exact ⟨hcaused, hshut, hsane, howed⟩
  | disconnect error =>
      have he : ∀ i, w.shared.Eases i ((w.shared.blame error).beginDisconnect none error).2 :=
        fun i =>
          have hb := ClientShared.eases_beginDisconnect (h.caused.sound.blame error) i none error
          ⟨hb.registered, hb.shutdown, hb.killed, hb.drained, hb.owes⟩
      exact ⟨hcaused, h.shut.eases (he 0), h.sane,
        fun i => (h.owed i).others (he i) (fun hf => hf) (fun hp => hp) rfl⟩
  | dropOwner =>
      have he : ∀ i, w.shared.Eases i (w.act env .dropOwner).shared := by
        intro i
        simp only [ClientWorld.act]
        split
        · rename_i error _ hstage _
          exact {
            registered := fun h => h
            shutdown := fun h => h
            killed := fun hk => by cases hk
            drained := fun hd => by cases hd
            owes := by
              rintro ⟨e, remaining, howes, -⟩
              rw [hstage] at howes
              cases howes }
        · exact .refl i _
      have hr : (w.act env .dropOwner).requests = w.requests := by
        simp only [ClientWorld.act]
        split
        · rfl
        · rfl
      refine ⟨hcaused, h.shut.eases (he 0), fun i => ?_, fun i => ?_⟩
      · rw [hr]
        exact h.sane i
      · rw [hr]
        exact (h.owed i).others (he i) (fun hf => hf) (fun hp => hp) rfl
  | beginClosing =>
      have hstays : w.shared.Stays (w.act env .beginClosing).shared :=
        ⟨rfl, fun _ hr => hr, fun hst => hst⟩
      exact ⟨hcaused, h.shut.eases (hstays.eases 0), h.sane,
        fun i => (h.owed i).others (hstays.eases i) (fun hf => hf) (fun hp => hp) rfl⟩
  | stopProcess =>
      have hstays : w.shared.Stays (w.act env .stopProcess).shared :=
        ⟨rfl, fun _ hr => hr, fun _ => rfl⟩
      exact ⟨hcaused, h.shut.eases (hstays.eases 0), h.sane,
        fun i => (h.owed i).others (hstays.eases i) (fun hf => hf) (fun hp => hp) rfl⟩

theorem draining_reachable (env : ClientEnv) {guard : ClientWorld → ClientLabel → Prop}
    {w : ClientWorld} (h : (clientMachine env).Reachable guard w) : w.Draining :=
  h.invariant draining_init (fun _ label _ hw _ => hw.act env label)

end ClientWorld

end Vergerail
