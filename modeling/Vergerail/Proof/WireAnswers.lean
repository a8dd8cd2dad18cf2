import Vergerail.Client.WireWorld
import Vergerail.Proof.OutboundStream

/-!
# Calls get the answers to their own requests

Every id is given out once, and a call keeps its entry in the pending map until the first
response with its id is routed. So the value a call returns is that of the first response
to its id after its registration, and its request is the only one with this id that whoever
reads the other pipe finds there.

What the router takes is what the bytes of the app-server mean, so it does not matter where
these were cut, nor what the app-server writes after them.
-/

namespace Vergerail

open Lib JsonLinesReader OutboundWorld

/-! ## What a message answers -/

/-- The app-server answered this, as against a failure of the client. -/
def FromProvider : Result Json → Prop
  | .ok _ => True
  | .error error => error.kind = .rpc

/-- What a response means to a call of `operation`. -/
def Incoming.answer (redactLine : String → String) (operation : String) :
    Incoming → Option (Result Json)
  | success _ result => some (.ok result)
  | failure _ code message => some (.error (Error.rpc operation code (redactLine message)))
  | request _ _ _ => none
  | notification _ _ => none

namespace WireCall

variable {redactLine : String → String} {routed : List Incoming} {call call' : WireCall}

/-- No response to the call was routed since its registration. -/
structure Quiet (routed : List Incoming) (call : WireCall) : Prop where
  since : call.since ≤ routed.length
  silent : ∀ (j : Nat) (incoming : Incoming), call.since ≤ j → routed[j]? = some incoming →
    incoming.responseId ≠ some (.number call.id)

/-- The first response to the call since its registration means the result. -/
def Answered (redactLine : String → String) (routed : List Incoming) (call : WireCall)
    (result : Result Json) : Prop :=
  ∃ k incoming, call.since ≤ k ∧ routed[k]? = some incoming ∧
    incoming.responseId = some (.number call.id) ∧
    incoming.answer redactLine call.operation = some result ∧
    ∀ (j : Nat) (earlier : Incoming), call.since ≤ j → j < k → routed[j]? = some earlier →
      earlier.responseId ≠ some (.number call.id)

/-- The call went on from its send. -/
def Passed (call : WireCall) : Prop :=
  call.phase = .waiting ∨ ∃ result, call.phase = .returned result ∧ FromProvider result

/-- What a call is for does not change. -/
structure Same (call call' : WireCall) : Prop where
  operation : call'.operation = call.operation
  method : call'.method = call.method
  params : call'.params = call.params
  id : call'.id = call.id
  sender : call'.sender = call.sender
  since : call'.since = call.since

theorem Same.refl (call : WireCall) : Same call call := ⟨rfl, rfl, rfl, rfl, rfl, rfl⟩

/-- A message more does not change what the call was answered. -/
theorem Answered.later {result : Result Json} (h : Answered redactLine routed call result)
    (more : List Incoming) : Answered redactLine (routed ++ more) call result := by
  obtain ⟨k, incoming, hsince, hget, hid, hanswer, hfirst⟩ := h
  have hk : k < routed.length := (List.getElem?_eq_some_iff.mp hget).1
  refine ⟨k, incoming, hsince, ?_, hid, hanswer, ?_⟩
  · rw [List.getElem?_append_left hk]
    exact hget
  · intro j earlier hj hlt hearlier
    rw [List.getElem?_append_left (by omega)] at hearlier
    exact hfirst j earlier hj hlt hearlier

theorem Answered.same {result : Result Json} (h : Answered redactLine routed call result)
    (hsame : Same call call') : Answered redactLine routed call' result := by
  unfold Answered
  rw [hsame.since, hsame.id, hsame.operation]
  exact h

theorem Quiet.same (h : Quiet routed call) (hsame : Same call call') : Quiet routed call' := by
  constructor
  · rw [hsame.since]
    exact h.since
  · rw [hsame.since, hsame.id]
    exact h.silent

/-- A message that is no response to the call. -/
theorem Quiet.later {incoming : Incoming} (h : Quiet routed call)
    (hother : incoming.responseId ≠ some (.number call.id)) :
    Quiet (routed ++ [incoming]) call := by
  constructor
  · rw [List.length_append]
    have hsince := h.since
    omega
  · intro j found hj hfound
    rcases Nat.lt_or_ge j routed.length with hlt | hge
    · rw [List.getElem?_append_left hlt] at hfound
      exact h.silent j found hj hfound
    · rw [List.getElem?_append_right hge, List.getElem?_singleton] at hfound
      split_ifs at hfound
      cases hfound
      exact hother

/-- The first response to the call is its answer. -/
theorem Quiet.answered {incoming : Incoming} {result : Result Json} (h : Quiet routed call)
    (hid : incoming.responseId = some (.number call.id))
    (hanswer : incoming.answer redactLine call.operation = some result) :
    Answered redactLine (routed ++ [incoming]) call result := by
  refine ⟨routed.length, incoming, h.since, ?_, hid, hanswer, ?_⟩
  · rw [List.getElem?_append_right (Nat.le_refl _), Nat.sub_self]
    rfl
  · intro j earlier hj hlt hearlier
    rw [List.getElem?_append_left hlt] at hearlier
    exact h.silent j earlier hj hearlier

end WireCall

/-! ## The calls of `send_tracked` -/

namespace OutboundWorld

variable {env : OutboundEnv} {w : OutboundWorld} {senders senders' : List SendCell}

/-- No call changes its frame, and those that returned stay as they are. -/
structure Settled (senders senders' : List SendCell) : Prop where
  length : senders'.length = senders.length
  cell : ∀ (j : Nat) (cell : SendCell), senders[j]? = some cell →
    ∃ cell', senders'[j]? = some cell' ∧ cell'.frame = cell.frame ∧
      ∀ result, cell.phase = .returned result → cell'.phase = .returned result

theorem Settled.refl (senders : List SendCell) : Settled senders senders where
  length := rfl
  cell _ cell hcell := ⟨cell, hcell, rfl, fun _ h => h⟩

theorem settled_set {i : Nat} {cell cell' : SendCell} (hcell : senders[i]? = some cell)
    (hframe : cell'.frame = cell.frame)
    (hphase : ∀ result, cell.phase = .returned result → cell'.phase = .returned result) :
    Settled senders (senders.set i cell') where
  length := List.length_set
  cell j found hfound := by
    by_cases hij : i = j
    · subst hij
      cases hcell.symm.trans hfound
      exact ⟨cell', by rw [List.getElem?_set_self', hcell]; rfl, hframe, hphase⟩
    · exact ⟨found, by rw [List.getElem?_set_ne hij]; exact hfound, rfl, fun _ h => h⟩

theorem KeepsCalls.settled {w' : OutboundWorld} (h : KeepsCalls w w') :
    Settled w.senders w'.senders := by
  rcases h.senders with hsame | ⟨i, cell, ack, hcell, hset⟩
  · rw [hsame]
    exact .refl _
  · rw [hset]
    exact settled_set hcell rfl (fun _ hphase => hphase)

theorem not_returned_of_running {cell : SendCell} (h : cell.isRunning = true)
    (result : Result Unit) : cell.phase ≠ .returned result := by
  intro hphase
  rw [SendCell.isRunning, hphase] at h
  cases h

theorem settled_go (h : Piped env w) (i : Nat) (event : SendEvent) :
    Settled w.senders (w.go env.capacity i event).senders := by
  have hsound : ∀ cell, w.senders[i]? = some cell → cell.Sound w.writer.maxFrameBytes := by
    intro cell hcell
    rw [h.limit]
    exact h.sent.sound i cell hcell
  rcases go_cases env event hsound with
    hsame | ⟨cell, hcell, hrunning, writer, -, ⟨phase, hgo, -⟩ | ⟨next, hgo, -⟩⟩
  · rw [hsame]
    exact .refl _
  · rw [hgo]
    exact settled_set hcell rfl (fun result hphase =>
      absurd hphase (not_returned_of_running hrunning result))
  · rw [hgo]
    exact settled_set hcell rfl (fun result hphase =>
      absurd hphase (not_returned_of_running hrunning result))

theorem settled_drop (w : OutboundWorld) (i : Nat) : Settled w.senders (w.drop i).senders := by
  rcases drop_cases w i with hsame | ⟨cell, hcell, hrunning, hdrop⟩
  · rw [hsame]
    exact .refl _
  · rw [hdrop]
    exact settled_set hcell rfl (fun result hphase =>
      absurd hphase (not_returned_of_running hrunning result))

/-- A step that begins no send. -/
theorem settled_step (h : Piped env w) {label : OutboundLabel}
    (hsend : ∀ frame, label ≠ .send frame) : Settled w.senders (w.step env label).senders := by
  cases label with
  | send frame => exact absurd rfl (hsend frame)
  | go sender event => exact settled_go h sender event
  | drop sender => exact settled_drop w sender
  | startShutdown => exact .refl _
  | close => exact keepsCalls_close.settled
  | receive => exact keepsCalls_receive.settled
  | write count => exact (keepsCalls_write count).settled
  | flushed => exact keepsCalls_flushed.settled
  | fail error => exact (keepsCalls_fail error).settled
  | terminated => exact keepsCalls_terminated.settled
  | reported => exact keepsCalls_reported.settled
  | stdinClosed => exact keepsCalls_stdinClosed.settled
  | abort => exact .refl _

end OutboundWorld

/-! ## The frames of requests -/

/-- A request is known by what it was built from. -/
theorem wireRequest_inj {id id' : Nat} {method method' : String} {params params' : Json}
    (h : wireRequest id method params = wireRequest id' method' params') :
    id = id' ∧ method = method' ∧ params = params' := by
  unfold wireRequest at h
  simp only [Json.object.injEq, List.cons.injEq, Prod.mk.injEq, Json.number.injEq,
    Json.string.injEq, true_and, and_true] at h
  obtain ⟨hid, hmethod, hparams⟩ := h
  have hvalue : (toString id).toNat? = (toString id').toNat? := congrArg _ hid
  have hid : some id = some id' := by
    rw [← Nat.toNat?_repr id, ← Nat.toNat?_repr id']
    exact hvalue
  exact ⟨Option.some.inj hid, hmethod, hparams⟩

theorem wireSuccess_ne_request (id : RpcId) (result : Json) (n : Nat) (method : String)
    (params : Json) : wireSuccess id result ≠ wireRequest n method params := by
  simp [wireSuccess, wireRequest]

theorem wireFailure_ne_request (id : RpcId) (code : Int) (message : String) (n : Nat)
    (method : String) (params : Json) :
    wireFailure id code message ≠ wireRequest n method params := by
  simp [wireFailure, wireRequest]

theorem wireNotification_ne_request (method' : String) (params' : Json) (n : Nat)
    (method : String) (params : Json) :
    wireNotification method' params' ≠ wireRequest n method params := by
  cases params' <;> simp [wireNotification, wireRequest]

/-! ## Ids, frames and entries -/

namespace WireWorld

/-- The calls, their frames and their entries in the pending map belong together. -/
structure Matched (redactLine : String → String) (senders : List SendCell)
    (calls : List WireCall) (nextId : Nat) (pending : AList (fun _ : RpcId => Nat))
    (routed : List Incoming) : Prop where
  link : ∀ (i : Nat) (call : WireCall), calls[i]? = some call → ∃ cell,
    senders[call.sender]? = some cell ∧ cell.frame = wireRequest call.id call.method call.params ∧
      (call.Passed → cell.phase = .returned (.ok ()))
  /-- A frame of nobody's is no request. -/
  foreign : ∀ (j : Nat) (cell : SendCell), senders[j]? = some cell →
    (∃ (i : Nat) (call : WireCall), calls[i]? = some call ∧ call.sender = j) ∨
      ∀ id method params, cell.frame ≠ wireRequest id method params
  ids : ∀ (i j : Nat) (call call' : WireCall), calls[i]? = some call → calls[j]? = some call' →
    call.id = call'.id → i = j
  below : ∀ (i : Nat) (call : WireCall), calls[i]? = some call → call.id < nextId
  entry : ∀ id i, pending.lookup id = some i → ∃ call, calls[i]? = some call ∧
    id = .number call.id ∧ call.Quiet routed
  received : ∀ (i : Nat) (call : WireCall) (result : Result Json), calls[i]? = some call →
    call.received = some result → FromProvider result → call.Answered redactLine routed result
  returned : ∀ (i : Nat) (call : WireCall) (result : Result Json), calls[i]? = some call →
    call.phase = .returned result → FromProvider result → call.Answered redactLine routed result

/-- What a step may do to a call. -/
structure Moves (redactLine : String → String) (senders : List SendCell)
    (routed : List Incoming) (call call' : WireCall) : Prop where
  same : call.Same call'
  passed : call'.Passed → call.Passed ∨
    ∃ cell, senders[call.sender]? = some cell ∧ cell.phase = .returned (.ok ())
  received : ∀ result, call'.received = some result → FromProvider result →
    call.received = some result ∨ call.Answered redactLine routed result
  returned : ∀ result, call'.phase = .returned result → FromProvider result →
    call.phase = .returned result ∨ call.received = some result

/-- What a step may do to all calls. -/
structure Evolves (redactLine : String → String) (senders : List SendCell)
    (routed : List Incoming) (calls calls' : List WireCall) : Prop where
  length : calls'.length = calls.length
  moves : ∀ (i : Nat) (call : WireCall), calls[i]? = some call → ∃ call',
    calls'[i]? = some call' ∧ Moves redactLine senders routed call call'

variable {redactLine : String → String} {senders senders' : List SendCell}
  {calls calls' : List WireCall} {nextId : Nat} {pending pending' : AList (fun _ : RpcId => Nat)}
  {routed : List Incoming}

theorem Moves.refl (call : WireCall) : Moves redactLine senders routed call call where
  same := .refl call
  passed h := .inl h
  received _ h _ := .inl h
  returned _ h _ := .inl h

theorem Evolves.back (h : Evolves redactLine senders routed calls calls') {i : Nat}
    {call' : WireCall} (hcall : calls'[i]? = some call') :
    ∃ call, calls[i]? = some call ∧ Moves redactLine senders routed call call' := by
  have hlt : i < calls.length := by
    rw [← h.length]
    exact (List.getElem?_eq_some_iff.mp hcall).1
  obtain ⟨found, hfound, hmoves⟩ := h.moves i calls[i] (List.getElem?_eq_getElem hlt)
  cases hcall.symm.trans hfound
  exact ⟨calls[i], List.getElem?_eq_getElem hlt, hmoves⟩

theorem evolves_set {i : Nat} {call call' : WireCall} (hcall : calls[i]? = some call)
    (h : Moves redactLine senders routed call call') :
    Evolves redactLine senders routed calls (calls.set i call') where
  length := List.length_set
  moves j found hfound := by
    by_cases hij : i = j
    · subst hij
      cases hcall.symm.trans hfound
      exact ⟨call', by rw [List.getElem?_set_self', hcall]; rfl, h⟩
    · exact ⟨found, by rw [List.getElem?_set_ne hij]; exact hfound, .refl found⟩

theorem evolves_map {f : WireCall → WireCall}
    (h : ∀ call ∈ calls, Moves redactLine senders routed call (f call)) :
    Evolves redactLine senders routed calls (calls.map f) where
  length := List.length_map f
  moves i call hcall :=
    ⟨f call, by rw [List.getElem?_map, hcall]; rfl, h call (List.mem_of_getElem? hcall)⟩

theorem matched_start : Matched redactLine [] [] 1 ∅ [] where
  link _ _ h := by cases h
  foreign _ _ h := by cases h
  ids _ _ _ _ h := by cases h
  below _ _ h := by cases h
  entry id i h := by
    rw [AList.lookup_empty] at h
    cases h
  received _ _ _ h := by cases h
  returned _ _ _ h := by cases h

/-- The calls go on. -/
theorem Matched.evolves (h : Matched redactLine senders calls nextId pending routed)
    (hcalls : Evolves redactLine senders routed calls calls') :
    Matched redactLine senders calls' nextId pending routed where
  link i call' hcall' := by
    obtain ⟨call, hcall, hmoves⟩ := hcalls.back hcall'
    obtain ⟨cell, hcell, hframe, hpassed⟩ := h.link i call hcall
    obtain ⟨-, hmethod, hparams, hid, hsender, -⟩ := hmoves.same
    rw [hid, hmethod, hparams, hsender]
    refine ⟨cell, hcell, hframe, fun hpass => ?_⟩
    rcases hmoves.passed hpass with hold | ⟨cell', hcell', hphase⟩
    · exact hpassed hold
    · cases hcell.symm.trans hcell'
      exact hphase
  foreign j cell hcell := by
    rcases h.foreign j cell hcell with ⟨i, call, hcall, hsender⟩ | hother
    · obtain ⟨call', hcall', hmoves⟩ := hcalls.moves i call hcall
      exact .inl ⟨i, call', hcall', hmoves.same.sender.trans hsender⟩
    · exact .inr hother
  ids i j call₁ call₂ hcall₁ hcall₂ hid := by
    obtain ⟨old₁, hold₁, hmoves₁⟩ := hcalls.back hcall₁
    obtain ⟨old₂, hold₂, hmoves₂⟩ := hcalls.back hcall₂
    rw [hmoves₁.same.id, hmoves₂.same.id] at hid
    exact h.ids i j old₁ old₂ hold₁ hold₂ hid
  below i call' hcall' := by
    obtain ⟨call, hcall, hmoves⟩ := hcalls.back hcall'
    rw [hmoves.same.id]
    exact h.below i call hcall
  entry id i hlookup := by
    obtain ⟨call, hcall, hid, hquiet⟩ := h.entry id i hlookup
    obtain ⟨call', hcall', hmoves⟩ := hcalls.moves i call hcall
    exact ⟨call', hcall', by rw [hmoves.same.id]; exact hid, hquiet.same hmoves.same⟩
  received i call' result hcall' hreceived hprovider := by
    obtain ⟨call, hcall, hmoves⟩ := hcalls.back hcall'
    rcases hmoves.received result hreceived hprovider with hold | hanswered
    · exact (h.received i call result hcall hold hprovider).same hmoves.same
    · exact hanswered.same hmoves.same
  returned i call' result hcall' hreturned hprovider := by
    obtain ⟨call, hcall, hmoves⟩ := hcalls.back hcall'
    rcases hmoves.returned result hreturned hprovider with hold | hreceived
    · exact (h.returned i call result hcall hold hprovider).same hmoves.same
    · exact (h.received i call result hcall hreceived hprovider).same hmoves.same

/-- The senders go on. -/
theorem Matched.settled (h : Matched redactLine senders calls nextId pending routed)
    (hsenders : Settled senders senders') :
    Matched redactLine senders' calls nextId pending routed :=
  { h with
    link := by
      intro i call hcall
      obtain ⟨cell, hcell, hframe, hpassed⟩ := h.link i call hcall
      obtain ⟨cell', hcell', hsame, hphase⟩ := hsenders.cell call.sender cell hcell
      exact ⟨cell', hcell', hsame.trans hframe, fun hpass => hphase _ (hpassed hpass)⟩
    foreign := by
      intro j cell' hcell'
      have hlt : j < senders.length := by
        rw [← hsenders.length]
        exact (List.getElem?_eq_some_iff.mp hcell').1
      obtain ⟨found, hfound, hsame, -⟩ := hsenders.cell j senders[j] (List.getElem?_eq_getElem hlt)
      cases hcell'.symm.trans hfound
      rcases h.foreign j senders[j] (List.getElem?_eq_getElem hlt) with howned | hother
      · exact .inl howned
      · rw [hsame]
        exact .inr hother }

/-- Entries are taken out. -/
theorem Matched.fewer (h : Matched redactLine senders calls nextId pending routed)
    (hpending : ∀ id i, pending'.lookup id = some i → pending.lookup id = some i) :
    Matched redactLine senders calls nextId pending' routed :=
  { h with entry := fun id i hlookup => h.entry id i (hpending id i hlookup) }

theorem lookup_erase_some {id id' : RpcId} {i : Nat}
    (h : (pending.erase id).lookup id' = some i) : id' ≠ id ∧ pending.lookup id' = some i := by
  by_cases hid : id' = id
  · subst hid
    rw [AList.lookup_erase] at h
    cases h
  · rw [AList.lookup_erase_ne hid] at h
    exact ⟨hid, h⟩

theorem Matched.erase (h : Matched redactLine senders calls nextId pending routed) (id : RpcId) :
    Matched redactLine senders calls nextId (pending.erase id) routed :=
  h.fewer (fun _ _ hlookup => (lookup_erase_some hlookup).2)

/-- A message is routed that responds to nobody in the map. -/
theorem Matched.route (h : Matched redactLine senders calls nextId pending routed)
    {incoming : Incoming} (hnobody : ∀ id, incoming.responseId = some id → pending.lookup id = none) :
    Matched redactLine senders calls nextId pending (routed ++ [incoming]) :=
  { h with
    entry := by
      intro id i hlookup
      obtain ⟨call, hcall, hid, hquiet⟩ := h.entry id i hlookup
      refine ⟨call, hcall, hid, hquiet.later (fun hresponse => ?_)⟩
      rw [hid, hnobody _ hresponse] at hlookup
      cases hlookup
    received := fun i call result hcall hreceived hprovider =>
      (h.received i call result hcall hreceived hprovider).later _
    returned := fun i call result hcall hreturned hprovider =>
      (h.returned i call result hcall hreturned hprovider).later _ }

/-- What is at a place of a list with one element more. -/
theorem getElem?_concat_cases {α : Type} {l : List α} {a found : α} {i : Nat}
    (h : (l ++ [a])[i]? = some found) : l[i]? = some found ∨ (i = l.length ∧ found = a) := by
  rcases Nat.lt_or_ge i l.length with hlt | hge
  · rw [List.getElem?_append_left hlt] at h
    exact .inl h
  · rw [List.getElem?_append_right hge, List.getElem?_singleton] at h
    split_ifs at h with hzero
    cases h
    exact .inr ⟨by omega, rfl⟩

theorem getElem?_concat_of_some {α : Type} {l : List α} {a found : α} {i : Nat}
    (h : l[i]? = some found) : (l ++ [a])[i]? = some found := by
  rw [List.getElem?_append_left (List.getElem?_eq_some_iff.mp h).1]
  exact h

theorem getElem?_concat_length {α : Type} (l : List α) (a : α) :
    (l ++ [a])[l.length]? = some a := by
  rw [List.getElem?_append_right (Nat.le_refl _), Nat.sub_self]
  rfl

/-- A frame is sent that is no request. -/
theorem Matched.send (h : Matched redactLine senders calls nextId pending routed) {frame : Json}
    (hframe : ∀ id method params, frame ≠ wireRequest id method params) :
    Matched redactLine (senders ++ [.call frame]) calls nextId pending routed :=
  { h with
    link := by
      intro i call hcall
      obtain ⟨cell, hcell, hrest⟩ := h.link i call hcall
      exact ⟨cell, getElem?_concat_of_some hcell, hrest⟩
    foreign := by
      intro j cell hcell
      rcases getElem?_concat_cases hcell with hold | ⟨-, rfl⟩
      · exact h.foreign j cell hold
      · exact .inr hframe }

/-- A call is registered, and its send begins. -/
theorem Matched.call (h : Matched redactLine senders calls nextId pending routed)
    (call : WireCall) (hid : call.id = nextId) (hsender : call.sender = senders.length)
    (hreceived : call.received = none) (hphase : call.phase = .sending)
    (hsince : call.since = routed.length) :
    Matched redactLine (senders ++ [.call (wireRequest call.id call.method call.params)])
      (calls ++ [call]) (nextId + 1) (pending.insert (.number call.id) calls.length) routed where
  link i found hfound := by
    rcases getElem?_concat_cases hfound with hold | ⟨-, rfl⟩
    · obtain ⟨cell, hcell, hrest⟩ := h.link i found hold
      exact ⟨cell, getElem?_concat_of_some hcell, hrest⟩
    · rw [hsender]
      refine ⟨_, getElem?_concat_length senders _, rfl, fun hpassed => ?_⟩
      rcases hpassed with hwaiting | ⟨result, hreturned, -⟩
      · rw [hphase] at hwaiting
        cases hwaiting
      · rw [hphase] at hreturned
        cases hreturned
  foreign j cell hcell := by
    rcases getElem?_concat_cases hcell with hold | ⟨hj, -⟩
    · rcases h.foreign j cell hold with ⟨i, found, hfound, hlink⟩ | hother
      · exact .inl ⟨i, found, getElem?_concat_of_some hfound, hlink⟩
      · exact .inr hother
    · exact .inl ⟨calls.length, call, getElem?_concat_length calls call, hsender.trans hj.symm⟩
  ids i j call₁ call₂ hcall₁ hcall₂ hsame := by
    rcases getElem?_concat_cases hcall₁ with hold₁ | ⟨hi, rfl⟩
    · rcases getElem?_concat_cases hcall₂ with hold₂ | ⟨hj, rfl⟩
      · exact h.ids i j call₁ call₂ hold₁ hold₂ hsame
      · have hlt := h.below i call₁ hold₁
        omega
    · rcases getElem?_concat_cases hcall₂ with hold₂ | ⟨hj, rfl⟩
      · have hlt := h.below j call₂ hold₂
        omega
      · rw [hi, hj]
  below i found hfound := by
    rcases getElem?_concat_cases hfound with hold | ⟨-, rfl⟩
    · have hlt := h.below i found hold
      omega
    · omega
  entry id i hlookup := by
    by_cases hnew : id = .number call.id
    · rw [hnew, AList.lookup_insert] at hlookup
      cases hlookup
      refine ⟨call, getElem?_concat_length calls call, hnew, ⟨by omega, fun j incoming hj hget => ?_⟩⟩
      have hlt := (List.getElem?_eq_some_iff.mp hget).1
      omega
    · rw [AList.lookup_insert_ne hnew] at hlookup
      obtain ⟨found, hfound, hfid, hquiet⟩ := h.entry id i hlookup
      exact ⟨found, getElem?_concat_of_some hfound, hfid, hquiet⟩
  received i found result hfound hgot hprovider := by
    rcases getElem?_concat_cases hfound with hold | ⟨-, rfl⟩
    · exact h.received i found result hold hgot hprovider
    · rw [hreceived] at hgot
      cases hgot
  returned i found result hfound hreturned hprovider := by
    rcases getElem?_concat_cases hfound with hold | ⟨-, rfl⟩
    · exact h.returned i found result hold hreturned hprovider
    · rw [hphase] at hreturned
      cases hreturned

/-! ## What was read -/

/-- The messages among the events. -/
def messages (events : List ProcessEvent) : List Incoming :=
  events.filterMap (fun event =>
    match event with
    | .message incoming => some incoming
    | .closed _ => none)

/-- The bytes are lines with these values, whatever follows them. -/
def Means (env : WireEnv) (taken : List UInt8) (values : List Json) : Prop :=
  ∀ rest, reference env.fromStr env.maxFrameBytes (taken ++ rest)
    = values.map .value ++ reference env.fromStr env.maxFrameBytes rest

/-- The messages that came out of the reader are those of the lines it took. -/
def Framed (env : WireEnv) (reader : JsonLinesReader) (readerEnded : Bool)
    (stdout arriving : List UInt8) (handled : List Incoming) : Prop :=
  ∃ taken values, Means env taken values ∧ taken <+: stdout ∧
    handled.map Delivery.message <+: values.map (fun value => deliver (.value value)) ∧
    (readerEnded = false → reader.maxFrameBytes = env.maxFrameBytes ∧
      stdout = taken ++ (reader.unread ++ arriving) ∧
      handled.map Delivery.message = values.map (fun value => deliver (.value value)))

variable {env : WireEnv} {w : WireWorld} {reader reader' : JsonLinesReader}
  {stdout arriving : List UInt8} {handled : List Incoming}

theorem messages_append (events later : List ProcessEvent) :
    messages (events ++ later) = messages events ++ messages later := List.filterMap_append

theorem means_nil : Means env [] [] := fun _ => rfl

/-- A line more has one value more. -/
theorem Means.line {taken line : List UInt8} {values : List Json} {value : Json}
    (h : Means env taken values) (hline : lf ∉ line)
    (hvalue : frameValue env.fromStr env.maxFrameBytes line = some value) :
    Means env (taken ++ (line ++ [lf])) (values ++ [value]) := by
  intro rest
  have hcut : taken ++ (line ++ [lf]) ++ rest = taken ++ (line ++ lf :: rest) := by
    rw [List.append_assoc, List.append_assoc, List.singleton_append]
  rw [hcut, h, reference_line _ hline, hvalue]
  dsimp only
  rw [List.map_append, List.append_assoc]
  rfl

theorem framed_start : Framed env (.new env.maxFrameBytes) false [] [] [] :=
  ⟨[], [], means_nil, List.prefix_rfl, List.prefix_rfl, fun _ => ⟨rfl, rfl, rfl⟩⟩

/-- The app-server writes. -/
theorem Framed.write {readerEnded : Bool} (h : Framed env reader readerEnded stdout arriving handled)
    (bytes : List UInt8) :
    Framed env reader readerEnded (stdout ++ bytes) (arriving ++ bytes) handled := by
  obtain ⟨taken, values, hmeans, htaken, hhandled, hopen⟩ := h
  refine ⟨taken, values, hmeans, htaken.trans (List.prefix_append _ _), hhandled, fun hended => ?_⟩
  obtain ⟨hlimit, hstdout, hall⟩ := hopen hended
  refine ⟨hlimit, ?_, hall⟩
  rw [hstdout, List.append_assoc, List.append_assoc]

/-- A pass that reads keeps what is unread, and appends. -/
theorem unread_receive {size : Nat} (hpass : reader.pass env.fromStr = .read reader' size)
    (bytes : List UInt8) :
    (reader'.receive bytes).unread = reader.unread ++ bytes ∧
      (reader'.receive bytes).maxFrameBytes = reader.maxFrameBytes := by
  obtain ⟨-, -, -, rfl, -⟩ := pass_read hpass
  obtain ⟨hbuffer, hunread, hstart, hmax⟩ := reader.compact_unread
  refine ⟨?_, hmax⟩
  unfold JsonLinesReader.unread JsonLinesReader.receive
  dsimp only
  rw [hstart, hbuffer, hunread]
  rfl

/-- The reader takes bytes from the pipe. -/
theorem Framed.read (h : Framed env reader false stdout arriving handled) {size : Nat}
    (hpass : reader.pass env.fromStr = .read reader' size) (n : Nat) :
    Framed env (reader'.receive (arriving.take n)) false stdout (arriving.drop n) handled := by
  obtain ⟨taken, values, hmeans, htaken, hhandled, hopen⟩ := h
  obtain ⟨hlimit, hstdout, hall⟩ := hopen rfl
  obtain ⟨hunread, hmax⟩ := unread_receive hpass (arriving.take n)
  refine ⟨taken, values, hmeans, htaken, hhandled, fun _ => ⟨hmax.trans hlimit, ?_, hall⟩⟩
  rw [hunread, List.append_assoc, List.take_append_drop]
  exact hstdout

/-- A pass that answers with a value took a line. -/
theorem pass_value {value : Json}
    (hpass : reader.pass env.fromStr = .returned (.ok (some value)) reader') :
    ∃ line rest, lf ∉ line ∧ reader.unread = line ++ lf :: rest ∧
      frameValue env.fromStr reader.maxFrameBytes line = some value ∧
      reader'.unread = rest ∧ reader'.maxFrameBytes = reader.maxFrameBytes := by
  by_cases hlf : lf ∈ reader.unread
  · obtain ⟨line, rest, hline, hsplit⟩ := exists_line hlf
    obtain ⟨hunread, -, hmax, -⟩ := unread_advance hsplit
    rcases pass_line env.fromStr hline hsplit with ⟨found, hvalue, heq⟩ | ⟨-, error, left, -, heq⟩
    · rw [heq] at hpass
      cases hpass
      exact ⟨line, rest, hline, hsplit, hvalue, hunread, hmax⟩
    · rw [heq] at hpass
      cases hpass
  · rcases pass_tail env.fromStr hlf with ⟨-, error, heq⟩ | ⟨-, -, heq⟩ | ⟨-, -, error, heq⟩ | heq <;>
    · rw [heq] at hpass
      cases hpass

/-- The reader answers with a message. -/
theorem Framed.frame (h : Framed env reader false stdout arriving handled) {value : Json}
    {incoming : Incoming} (hpass : reader.pass env.fromStr = .returned (.ok (some value)) reader')
    (hparse : wireParse value = .ok incoming) :
    Framed env reader' false stdout arriving (handled ++ [incoming]) := by
  obtain ⟨taken, values, hmeans, htaken, hhandled, hopen⟩ := h
  obtain ⟨hlimit, hstdout, hall⟩ := hopen rfl
  obtain ⟨line, rest, hline, hsplit, hvalue, hunread, hmax⟩ := pass_value hpass
  rw [hlimit] at hvalue
  have hdeliver : deliver (.value value) = .message incoming := by
    rw [deliver, hparse]
  have hmore : (handled ++ [incoming]).map Delivery.message
      = (values ++ [value]).map (fun value => deliver (.value value)) := by
    rw [List.map_append, List.map_append, hall, List.map_singleton, List.map_singleton, hdeliver]
  have hbytes : stdout = taken ++ (line ++ [lf]) ++ (reader'.unread ++ arriving) := by
    rw [hstdout, hsplit, hunread]
    simp only [List.append_assoc, List.cons_append, List.nil_append]
  refine ⟨taken ++ (line ++ [lf]), values ++ [value], hmeans.line hline hvalue, ?_, ?_,
    fun _ => ⟨hmax.trans hlimit, hbytes, hmore⟩⟩
  · rw [hbytes]
    exact List.prefix_append _ _
  · rw [hmore]

/-- The reader ends. -/
theorem Framed.ended {readerEnded : Bool} (h : Framed env reader readerEnded stdout arriving handled) :
    Framed env reader' true stdout arriving handled := by
  obtain ⟨taken, values, hmeans, htaken, hhandled, -⟩ := h
  exact ⟨taken, values, hmeans, htaken, hhandled, fun hopen => by cases hopen⟩

/-- Whatever is written after, reading brings the messages that were handled first. -/
theorem Framed.prefix_of_reads {readerEnded : Bool}
    (h : Framed env reader readerEnded stdout arriving handled) {stream : Chunks}
    (hstream : ∀ chunk ∈ stream, chunk ≠ []) (hbytes : stdout <+: stream.flatten)
    {outcomes : List Outcome} (hreads : Reads env.fromStr (new env.maxFrameBytes) stream outcomes) :
    handled.map Delivery.message <+: outcomes.map deliver := by
  obtain ⟨taken, values, hmeans, htaken, hhandled, -⟩ := h
  obtain ⟨rest, hrest⟩ := htaken.trans hbytes
  have hmeaning := ((framing_independent_of_chunks env.fromStr env.maxFrameBytes stream
    hstream).1 outcomes).mp hreads
  rw [← hrest, hmeans] at hmeaning
  rw [hmeaning, List.map_append, List.map_map]
  exact hhandled.trans (List.prefix_append _ _)

/-! ## Every run -/

/-- The invariant. -/
structure Kept (env : WireEnv) (w : WireWorld) : Prop where
  piped : Piped env.toOutboundEnv w.outbound
  matched : Matched env.redactLine w.outbound.senders w.calls w.nextId w.pending w.routed
  framed : Framed env w.reader w.readerEnded w.stdout w.arriving (w.routed ++ messages w.events)

theorem kept_start : Kept env (start env) where
  piped := piped_start
  matched := matched_start
  framed := framed_start

theorem Kept.send (h : Kept env w) {frame : Json}
    (hframe : ∀ id method params, frame ≠ wireRequest id method params) :
    Kept env (w.send env frame) where
  piped := piped_step h.piped (.send frame)
  matched := h.matched.send hframe
  framed := h.framed

theorem Kept.call (h : Kept env w) (operation : String) (nonIdempotent : Bool) (method : String)
    (params : Json) : Kept env (w.call env operation nonIdempotent method params) := by
  unfold WireWorld.call
  split_ifs
  · exact h
  · exact ⟨piped_step h.piped (.send _), h.matched.call
      (w.registration operation nonIdempotent method params) rfl rfl rfl rfl rfl, h.framed⟩

theorem sendStep_cases (env : WireEnv) (w : WireWorld) (label : OutboundLabel) :
    w.sendStep env label = w ∨ (∀ frame, label ≠ .send frame) ∧
      w.sendStep env label = { w with outbound := w.outbound.step env.toOutboundEnv label } := by
  cases label with
  | send frame => exact .inl rfl
  | _ => exact .inr ⟨fun frame hlabel => OutboundLabel.noConfusion hlabel, rfl⟩

theorem Kept.sendStep (h : Kept env w) (label : OutboundLabel) :
    Kept env (w.sendStep env label) := by
  rcases sendStep_cases env w label with hsame | ⟨hsend, hstep⟩
  · rw [hsame]
    exact h
  · rw [hstep]
    exact ⟨piped_step h.piped label, h.matched.settled (settled_step h.piped hsend), h.framed⟩

variable {i : Nat} {call : WireCall}

/-- A call is somewhere else. -/
theorem Kept.settle (h : Kept env w) (hcall : w.calls[i]? = some call) {phase : WirePhase}
    (hpassed : WireCall.Passed { call with phase } → call.Passed ∨ ∃ cell,
      w.outbound.senders[call.sender]? = some cell ∧ cell.phase = .returned (.ok ()))
    (hreturned : ∀ result, phase = .returned result → FromProvider result →
      call.phase = .returned result ∨ call.received = some result) :
    Kept env (w.settle i call phase) where
  piped := h.piped
  matched := h.matched.evolves (evolves_set hcall
    { same := ⟨rfl, rfl, rfl, rfl, rfl, rfl⟩
      passed := hpassed
      received := fun _ hreceived _ => .inl hreceived
      returned := hreturned })
  framed := h.framed

theorem Kept.remove (h : Kept env w) (call : WireCall) : Kept env (w.remove call) where
  piped := h.piped
  matched := h.matched.erase (.number call.id)
  framed := h.framed

/-- A call that fails with an error of the client's own. -/
theorem Kept.fails (h : Kept env w) (hcall : w.calls[i]? = some call) {error : Error}
    (hown : error.kind ≠ .rpc) :
    Kept env ((w.remove call).settle i call (.returned (.error error))) := by
  refine (h.remove call).settle hcall (fun hpassed => ?_) (fun result hphase hprovider => ?_)
  · rcases hpassed with hwaiting | ⟨result, hphase, hprovider⟩
    · cases hwaiting
    · cases hphase
      exact absurd hprovider hown
  · cases hphase
    exact absurd hprovider hown

theorem Kept.dropped (h : Kept env w) (hcall : w.calls[i]? = some call) :
    Kept env (w.settle i call .dropped) := by
  refine h.settle hcall (fun hpassed => ?_) (fun result hphase _ => by cases hphase)
  rcases hpassed with hwaiting | ⟨result, hphase, -⟩
  · cases hwaiting
  · cases hphase

theorem sendFailure_own {error : Error} (h : error.kind ≠ .rpc) :
    (call.sendFailure error).kind ≠ .rpc := by
  unfold WireCall.sendFailure
  split_ifs
  · intro hkind
    cases hkind
  · exact h

theorem Kept.sent (h : Kept env w) (i : Nat) : Kept env (w.sent i) := by
  unfold WireWorld.sent
  cases hcall : w.calls[i]? with
  | none => exact h
  | some call =>
    dsimp only
    split
    · rename_i hphase hsender
      obtain ⟨cell, hcell, hsent⟩ := Option.map_eq_some_iff.mp hsender
      refine h.settle hcall (fun _ => .inr ⟨cell, hcell, hsent⟩) (fun result hwaiting _ => ?_)
      cases hwaiting
    · rename_i error hphase hsender
      obtain ⟨cell, hcell, hfailed⟩ := Option.map_eq_some_iff.mp hsender
      have hown := (h.piped.sent.sound call.sender cell hcell).own error hfailed
      exact h.fails hcall (sendFailure_own hown)
    · exact h

theorem Kept.resume (h : Kept env w) (i : Nat) : Kept env (w.resume i) := by
  unfold WireWorld.resume
  cases hcall : w.calls[i]? with
  | none => exact h
  | some call =>
    dsimp only
    split
    · rename_i result hphase hreceived
      refine h.settle hcall (fun _ => .inl (.inl hphase)) (fun found hfound _ => ?_)
      cases hfound
      exact .inr hreceived
    · exact h

theorem timeoutError_own (env : WireEnv) (w : WireWorld) (call : WireCall) :
    (w.timeoutError env call).kind ≠ .rpc := by
  unfold timeoutError
  dsimp only
  split_ifs <;> intro hkind <;> cases hkind

theorem Kept.expire (h : Kept env w) (i : Nat) : Kept env (w.expire env i) := by
  unfold WireWorld.expire
  cases hcall : w.calls[i]? with
  | none => exact h
  | some call =>
    dsimp only
    split
    · exact h.fails hcall (timeoutError_own env w call)
    · exact h

theorem sendStep_calls (env : WireEnv) (w : WireWorld) (label : OutboundLabel) :
    (w.sendStep env label).calls = w.calls := by
  rcases sendStep_cases env w label with hsame | ⟨-, hstep⟩
  · rw [hsame]
  · rw [hstep]

theorem Kept.dropCall (h : Kept env w) (i : Nat) : Kept env (w.dropCall env i) := by
  unfold WireWorld.dropCall
  cases hcall : w.calls[i]? with
  | none => exact h
  | some call =>
    dsimp only
    split
    · refine (h.sendStep (.drop call.sender)).dropped ?_
      rw [sendStep_calls]
      exact hcall
    · exact h.dropped hcall
    · exact h

theorem Kept.cancel (h : Kept env w) (i : Nat) : Kept env (w.cancel i) := by
  unfold WireWorld.cancel
  cases hcall : w.calls[i]? with
  | none => exact h
  | some call =>
    dsimp only
    split
    · exact h.remove call
    · exact h.remove call
    · exact h

/-- A result is sent to a call. -/
theorem moves_receive {redactLine : String → String} {senders : List SendCell}
    {routed : List Incoming} {result : Result Json}
    (h : FromProvider result → call.Answered redactLine routed result) :
    Moves redactLine senders routed call (call.receive result) := by
  have hmoves : Moves redactLine senders routed call { call with received := some result } :=
    { same := ⟨rfl, rfl, rfl, rfl, rfl, rfl⟩
      passed := fun hpassed => .inl hpassed
      received := fun found hfound hprovider => by
        cases hfound
        exact .inr (h hprovider)
      returned := fun _ hphase _ => .inl hphase }
  unfold WireCall.receive
  split
  · exact hmoves
  · exact hmoves
  · exact .refl call

theorem disconnectFailure_own (w : WireWorld) (call : WireCall) (error : Error) :
    (w.disconnectFailure call error).kind ≠ .rpc := by
  unfold disconnectFailure
  split_ifs <;> intro hkind <;> cases hkind

theorem Kept.failAll (h : Kept env w) (error : Error) : Kept env (w.failAll error) where
  piped := h.piped
  matched := by
    refine (h.matched.evolves (evolves_map fun call _ => ?_)).fewer (fun id i hlookup => ?_)
    · split_ifs
      · exact moves_receive (fun hprovider => absurd hprovider (disconnectFailure_own w call error))
      · exact .refl call
    · have hnone : (∅ : AList (fun _ : RpcId => Nat)).lookup id = some i := hlookup
      rw [AList.lookup_empty] at hnone
      cases hnone
  framed := h.framed

theorem Kept.read (h : Kept env w) (count : Nat) : Kept env (w.read env count) := by
  unfold WireWorld.read
  cases hended : w.readerEnded with
  | true => exact h
  | false =>
    have hframed := h.framed
    rw [hended] at hframed
    rw [if_neg Bool.false_ne_true]
    cases hpass : w.reader.pass env.fromStr with
    | returned result reader => exact h
    | read reader size =>
      dsimp only
      split_ifs
      · exact h
      · exact ⟨h.piped, h.matched, hframed.read hpass _⟩

theorem Kept.endReader (h : Kept env w) (reader : JsonLinesReader) (error : Error) :
    Kept env (w.endReader reader error) where
  piped := h.piped
  matched := h.matched
  framed := by
    have hmessages : messages (w.events ++ [.closed error]) = messages w.events := by
      rw [messages_append]
      exact List.append_nil _
    unfold WireWorld.endReader
    dsimp only
    rw [hmessages]
    exact h.framed.ended

theorem Kept.frame (h : Kept env w) : Kept env (w.frame env) := by
  unfold WireWorld.frame
  split_ifs with hskip
  · exact h
  · have hended : w.readerEnded = false := by
      rw [Bool.or_eq_true, not_or] at hskip
      exact Bool.eq_false_of_not_eq_true hskip.1
    have hframed := h.framed
    rw [hended] at hframed
    cases hpass : w.reader.pass env.fromStr with
    | read reader size => exact h
    | returned result reader =>
      cases result with
      | error error => exact h.endReader reader error
      | ok answer =>
        cases answer with
        | none => exact h.endReader reader _
        | some value =>
          dsimp only
          cases hparse : wireParse value with
          | error error => exact h.endReader reader error
          | ok incoming =>
            have hmessages : w.routed ++ messages (w.events ++ [.message incoming])
                = (w.routed ++ messages w.events) ++ [incoming] := by
              rw [messages_append, ← List.append_assoc]
              rfl
            refine ⟨h.piped, h.matched, ?_⟩
            dsimp only
            rw [hmessages, hended]
            exact hframed.frame hpass hparse

/-- A response finds its call, or nobody. -/
theorem Kept.complete (h : Kept env w) {incoming : Incoming} {id : RpcId}
    {result : String → Result Json} (hid : incoming.responseId = some id)
    (hresult : ∀ operation, incoming.answer env.redactLine operation = some (result operation))
    {events : List ProcessEvent} (hevents : w.events = .message incoming :: events) :
    Kept env ({ w with events, routed := w.routed ++ [incoming] }.complete id result) := by
  have hhandled : (w.routed ++ [incoming]) ++ messages events
      = w.routed ++ messages w.events := by
    rw [hevents, List.append_assoc]
    rfl
  have hframed : Framed env w.reader w.readerEnded w.stdout w.arriving
      ((w.routed ++ [incoming]) ++ messages events) := by
    rw [hhandled]
    exact h.framed
  have hnobody : ∀ id', incoming.responseId = some id' →
      (w.pending.erase id).lookup id' = none := by
    intro id' hid'
    rw [hid] at hid'
    cases hid'
    exact AList.lookup_erase _ _
  have hrouted := (h.matched.erase id).route hnobody
  unfold WireWorld.complete
  dsimp only
  cases hlookup : w.pending.lookup id with
  | none =>
    refine ⟨h.piped, h.matched.route (fun id' hid' => ?_), hframed⟩
    rw [hid] at hid'
    cases hid'
    exact hlookup
  | some i =>
    obtain ⟨call, hcall, hown, hquiet⟩ := h.matched.entry id i hlookup
    dsimp only
    rw [hcall]
    have hanswered :
        call.Answered env.redactLine (w.routed ++ [incoming]) (result call.operation) :=
      hquiet.answered (hid.trans (congrArg some hown)) (hresult call.operation)
    exact ⟨h.piped, hrouted.evolves (evolves_set hcall (moves_receive (fun _ => hanswered))),
      hframed⟩

theorem Kept.route (h : Kept env w) : Kept env (w.route env) := by
  unfold WireWorld.route
  split_ifs
  · exact h
  · cases hevents : w.events with
    | nil => exact h
    | cons event events =>
      cases event with
      | closed error =>
        refine ⟨h.piped, h.matched, ?_⟩
        have hframed := h.framed
        rw [hevents] at hframed
        exact hframed
      | message incoming =>
        have hother : incoming.responseId = none →
            Kept env { w with events, routed := w.routed ++ [incoming] } := by
          intro hnone
          refine ⟨h.piped, h.matched.route (fun id hid => ?_), ?_⟩
          · rw [hnone] at hid
            cases hid
          · have hframed := h.framed
            rw [hevents] at hframed
            dsimp only
            rw [List.append_assoc]
            exact hframed
        dsimp only
        cases incoming with
        | success id result => exact h.complete rfl (fun _ => rfl) hevents
        | failure id code message => exact h.complete rfl (fun _ => rfl) hevents
        | request id method params => exact hother rfl
        | notification method params => exact hother rfl

/-- **The invariant holds after every step.** -/
theorem kept_step (h : Kept env w) (label : WireLabel) : Kept env (w.step env label) := by
  cases label with
  | call operation nonIdempotent method params => exact h.call operation nonIdempotent method params
  | respond id result => exact h.send (wireSuccess_ne_request id result)
  | reject id code message => exact h.send (wireFailure_ne_request id code message)
  | notify method params => exact h.send (wireNotification_ne_request method params)
  | send label => exact h.sendStep label
  | sent i => exact h.sent i
  | resume i => exact h.resume i
  | expire i => exact h.expire i
  | dropCall i => exact h.dropCall i
  | cancel i => exact h.cancel i
  | failAll error => exact h.failAll error
  | write bytes =>
    unfold WireWorld.step
    dsimp only
    split_ifs
    · exact h
    · exact ⟨h.piped, h.matched, h.framed.write bytes⟩
  | closeStdout => exact ⟨h.piped, h.matched, h.framed⟩
  | read count => exact h.read count
  | frame => exact h.frame
  | route => exact h.route

theorem kept_reachable (h : (machine env).Reachable Machine.Free w) : Kept env w :=
  h.invariant (P := Kept env) kept_start (fun _ label _ hs _ => kept_step hs label)

/-! ## The answers -/

/-- One request with the id of the call is among what was read, and it is that of the call. -/
def ReadOnce (call : WireCall) (outcomes : List Outcome) : Prop :=
  ∃ before after, outcomes
      = before ++ .value (wireRequest call.id call.method call.params) :: after ∧
    ∀ method params, .value (wireRequest call.id method params) ∉ before ++ after

/-- Requests with the id of a call come from its own send. -/
theorem Matched.own {redactLine : String → String} {senders : List SendCell}
    {calls : List WireCall} {nextId : Nat} {pending : AList (fun _ : RpcId => Nat)}
    {routed : List Incoming} (h : Matched redactLine senders calls nextId pending routed)
    (hcall : calls[i]? = some call) {j : Nat} {cell : SendCell} (hcell : senders[j]? = some cell)
    {method : String} {params : Json} (hframe : cell.frame = wireRequest call.id method params) :
    j = call.sender := by
  rcases h.foreign j cell hcell with ⟨k, found, hfound, rfl⟩ | hother
  · obtain ⟨cell', hcell', hlink, -⟩ := h.link k found hfound
    cases hcell.symm.trans hcell'
    have hid := (wireRequest_inj (hframe.symm.trans hlink)).1
    have hsame := h.ids i k call found hcall hfound hid
    subst hsame
    cases hcall.symm.trans hfound
    rfl
  · exact absurd hframe (hother call.id method params)

/-- The call of an entry of a nodup list appears nowhere else in it. -/
theorem not_mem_others {entries before after : List (Nat × Json)} {entry other : Nat × Json}
    (hnodup : (entries.map Prod.fst).Nodup) (hsplit : entries = before ++ entry :: after)
    (hother : other ∈ before ++ after) : other.1 ≠ entry.1 := by
  rw [hsplit, List.map_append, List.map_cons, List.nodup_middle, List.nodup_cons,
    ← List.map_append] at hnodup
  intro hsame
  rw [← hsame] at hnodup
  exact hnodup.1 (List.mem_map_of_mem hother)

theorem Kept.readOnce {fromStr : String → Except String Json} (h : Kept env w)
    {written waiting : List (Nat × Json)} {part : List UInt8}
    (hintact : IntactStream fromStr env.toOutboundEnv w.outbound written waiting part)
    (hcall : w.calls[i]? = some call) (hpassed : call.Passed) (last : Outcome)
    (hlast : ∀ value, last ≠ .value value) :
    ReadOnce call (written.map (fun entry => .value entry.2) ++ [last]) := by
  obtain ⟨cell, hcell, hframe, hsent⟩ := h.matched.link i call hcall
  have hmem := hintact.succeeded call.sender cell hcell (hsent hpassed)
  obtain ⟨before, after, hsplit⟩ := List.append_of_mem hmem
  have hnodup : (written.map Prod.fst).Nodup := by
    have honce := hintact.once
    rw [hintact.order, List.map_append] at honce
    exact honce.of_append_left
  refine ⟨before.map (fun entry => .value entry.2),
    after.map (fun entry => .value entry.2) ++ [last], ?_, fun method params hread => ?_⟩
  · rw [hsplit, List.map_append, List.map_cons, hframe, List.append_assoc]
    rfl
  · rw [← List.append_assoc, ← List.map_append, List.mem_append, List.mem_singleton] at hread
    rcases hread with hread | hread
    · obtain ⟨⟨j, frame⟩, hother, hvalue⟩ := List.mem_map.mp hread
      have hin : (j, frame) ∈ w.outbound.order := by
        rw [hintact.order, hsplit]
        refine List.mem_append_left _ ?_
        rcases List.mem_append.mp hother with hold | hnew
        · exact List.mem_append_left _ hold
        · exact List.mem_append_right _ (List.mem_cons_of_mem _ hnew)
      obtain ⟨cell', hcell', rfl⟩ := hintact.entry j frame hin
      have hown := h.matched.own hcall hcell' (Outcome.value.inj hvalue)
      exact not_mem_others hnodup hsplit hother hown
    · exact hlast _ hread.symm

/--
**Every call gets the answer to its own request.**

However calls, their timers and their drops, answers to reverse requests, failing writes,
disconnects and arbitrary bytes from the app-server interleave: a value or a JSON-RPC error
that a call returns is what the first response with its id says that was routed since its
registration, and whoever reads the other pipe finds one request with this id there, the
call's own. What was routed is what the bytes of the app-server mean, wherever they were cut
and whatever it writes after them.
-/
theorem calls_get_their_answers (fromStr : String → Except String Json) (env : WireEnv)
    (w : WireWorld) (h : (machine env).Reachable Machine.Free w)
    (hread : ∀ cell ∈ w.outbound.senders, ReadBack fromStr cell.frame) :
    (∀ (i : Nat) (call : WireCall) (result : Result Json), w.calls[i]? = some call →
      call.phase = .returned result → FromProvider result →
      call.Answered env.redactLine w.routed result ∧
        ∀ limit, env.maxFrameBytes ≤ limit → ∀ stream : Chunks, (∀ chunk ∈ stream, chunk ≠ []) →
          stream.flatten = w.outbound.stdin → ∀ outcomes,
          Reads fromStr (new limit) stream outcomes → ReadOnce call outcomes) ∧
      ∀ stream : Chunks, (∀ chunk ∈ stream, chunk ≠ []) → w.stdout <+: stream.flatten →
        ∀ outcomes, Reads env.fromStr (new env.maxFrameBytes) stream outcomes →
        w.routed.map Delivery.message <+: outcomes.map deliver := by
  have hkept := kept_reachable h
  obtain ⟨written, waiting, part, hintact⟩ := intact_of_piped hkept.piped hread
  refine ⟨fun i call result hcall hphase hprovider => ⟨?_, ?_⟩, ?_⟩
  · exact hkept.matched.returned i call result hcall hphase hprovider
  · intro limit hlimit stream hstream hbytes outcomes hreads
    rw [(hintact.reads limit hlimit stream hstream hbytes outcomes).mp hreads]
    refine hkept.readOnce hintact hcall (.inr ⟨result, hphase, hprovider⟩) _ (fun value => ?_)
    split_ifs <;> exact Outcome.noConfusion
  · intro stream hstream hbytes outcomes hreads
    have hmessages := hkept.framed.prefix_of_reads hstream hbytes hreads
    rw [List.map_append] at hmessages
    exact (List.prefix_append _ _).trans hmessages

/-! ## A call -/

/-- The answer to a call. -/
def pong : Json := wireSuccess (.number 1) (.string "pong")

/-- A client whose parser knows this answer. -/
def pingEnv : WireEnv where
  maxFrameBytes := 64
  sendTimeout := 1000
  capacity := 4
  requestTimeout := 1000
  eventCapacity := 4
  redactLine := id
  fromStr := fun text =>
    if text = pong.toText then .ok pong else .error "expected value at line 1 column 1"

/-- A call is sent, and its answer arrives in pieces. -/
def pingRun : List WireLabel :=
  [.call "ping" false "ping" .null, .send (.go 0 .ready), .send (.go 0 .ready),
    .send .receive, .send (.write 64), .send .flushed, .send (.go 0 .ready),
    .send (.go 0 .ready), .sent 0, .write (pong.line.bytes.take 7), .read 3,
    .write (pong.line.bytes.drop 7), .read 64, .read 64]

/-- Then it is routed, and the call resumes. -/
def pongRun : List WireLabel := [.frame, .route, .resume 0]

theorem frame_pong : ∃ reader,
    ((machine pingEnv).run pingRun).frame pingEnv
      = { (machine pingEnv).run pingRun with
        reader
        events := [.message (.success (.number 1) (.string "pong"))] } := by
  have hline : lf ∉ pong.toBytes := by decide +kernel
  have hunread : ((machine pingEnv).run pingRun).reader.unread = pong.toBytes ++ lf :: [] := by
    decide +kernel
  have hok : pong.NumbersOk := by
    refine .object (fun member hmember => ?_)
    rcases List.mem_cons.mp hmember with rfl | hmember
    · exact .number (by decide)
    · rw [List.mem_singleton.mp hmember]
      exact .string "pong"
  have hfits : pong.toBytes.length ≤ 64 := by decide +kernel
  have hknown : pingEnv.fromStr pong.toText = .ok pong := by
    simp only [pingEnv, ↓reduceIte]
  have hvalue : frameValue pingEnv.fromStr 64 pong.toBytes = some pong :=
    frameValue_printed (printed_of_read hok hknown) rfl hfits
  have hrange : (RpcId.number 1).InRange := ⟨by decide, by decide⟩
  have hparse : wireParse pong = .ok (.success (.number 1) (.string "pong")) :=
    parse_wireSuccess _ hrange
  rcases pass_line pingEnv.fromStr hline hunread with ⟨value, hfound, hpass⟩ | ⟨hnone, -⟩
  · cases hvalue.symm.trans hfound
    refine ⟨((machine pingEnv).run pingRun).reader.advance
      (((machine pingEnv).run pingRun).reader.start + pong.toBytes.length), ?_⟩
    unfold WireWorld.frame
    have hreading : ((machine pingEnv).run pingRun).readerEnded = false := rfl
    have hroom : ¬ pingEnv.eventCapacity ≤ ((machine pingEnv).run pingRun).events.length := by
      decide
    rw [if_neg (by rw [hreading]; simpa using hroom), hpass]
    dsimp only
    rw [hparse]
    rfl
  · exact absurd (hvalue.symm.trans hnone) (by simp)

/-- The call returned, with what the app-server answered. -/
theorem calls_get_their_answers_ping :
    ∃ call, ((machine pingEnv).run (pingRun ++ pongRun)).calls[0]? = some call ∧
      call.phase = .returned (.ok (.string "pong")) ∧
      call.Answered id ((machine pingEnv).run (pingRun ++ pongRun)).routed
        (.ok (.string "pong")) := by
  obtain ⟨reader, hframe⟩ := frame_pong
  have hrun : (machine pingEnv).run (pingRun ++ pongRun)
      = ((((machine pingEnv).run pingRun).frame pingEnv).route pingEnv).resume 0 := by
    rw [Machine.run, Machine.runFrom_append]
    rfl
  have hread : ∀ cell ∈ ((machine pingEnv).run (pingRun ++ pongRun)).outbound.senders,
      ReadBack (fun text =>
        if text = (wireRequest 1 "ping" .null).toText then .ok (wireRequest 1 "ping" .null)
        else .error "expected value at line 1 column 1") cell.frame := by
    rw [hrun, hframe]
    intro cell hcell
    have hframe : cell.frame = wireRequest 1 "ping" .null := by
      cases List.mem_singleton.mp hcell
      rfl
    rw [hframe]
    refine ⟨.object (fun member hmember => ?_), if_pos rfl⟩
    rcases List.mem_cons.mp hmember with rfl | hmember
    · exact .number (by decide)
    · rcases List.mem_cons.mp hmember with rfl | hmember
      · exact .string "ping"
      · rw [List.mem_singleton.mp hmember]
        exact .null
  obtain ⟨hanswers, -⟩ := calls_get_their_answers _ pingEnv _
    (Machine.reachable_run (pingRun ++ pongRun)) hread
  have hcall : ∃ call, ((machine pingEnv).run (pingRun ++ pongRun)).calls[0]? = some call ∧
      call.phase = .returned (.ok (.string "pong")) := by
    rw [hrun, hframe]
    exact ⟨_, rfl, rfl⟩
  obtain ⟨call, hcall, hphase⟩ := hcall
  exact ⟨call, hcall, hphase, (hanswers 0 call _ hcall hphase trivial).1⟩

end WireWorld

end Vergerail
