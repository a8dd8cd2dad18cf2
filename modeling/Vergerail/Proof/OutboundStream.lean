import Vergerail.Private.Outbound
import Vergerail.Proof.PrintedText

/-!
# The frames in the pipe

Two facts carry the argument. The first is about the calls: a call sets its marker in the
step in which its frame enters the channel, and every entry of the channel is the one frame
of one call. The second is about `writer_loop`: what is in the pipe is the lines of the
frames it is done with, and then the start of the line it is writing.

Nothing is written after a frame that was cut, because the loop ends there. So the pipe
never holds a line that is no frame, and whoever reads it reads the frames in the order in
which they were queued.
-/

namespace Vergerail

open Lib JsonLinesReader

/-! ## What a call knows of its frame -/

/-- The marker of a call and its answer agree. -/
structure SendCell.Sound (maxFrameBytes : Nat) (cell : SendCell) : Prop where
  marked : ∀ call, cell.phase = .running call → cell.dispatched = call.isQueued
  checked : ∀ call, cell.phase = .running call → call ≠ .entering →
    cell.frame.encodedBytes ≤ maxFrameBytes
  fits : cell.dispatched = true → cell.frame.encodedBytes ≤ maxFrameBytes
  unknown : ∀ error, cell.phase = .returned (.error error) → error.kind = .outcomeUnknown →
    cell.dispatched = true
  refused : ∀ error, cell.phase = .returned (.error error) → error.kind ≠ .outcomeUnknown →
    error.kind ≠ .timeout → cell.dispatched = false
  /-- A send never answers for the app-server. -/
  own : ∀ error, cell.phase = .returned (.error error) → error.kind ≠ .rpc

namespace SendCell

/-- The call is not over. -/
def isRunning (cell : SendCell) : Bool :=
  match cell.phase with
  | .running _ => true
  | .returned _ => false
  | .dropped => false

variable {maxFrameBytes : Nat} {cell : SendCell} {call next : SendCall}

theorem Sound.dropped (h : cell.Sound maxFrameBytes) :
    { cell with phase := .dropped }.Sound maxFrameBytes where
  marked _ hphase := by cases hphase
  checked _ hphase := by cases hphase
  fits := h.fits
  unknown _ hphase := by cases hphase
  refused _ hphase := by cases hphase
  own _ hphase := by cases hphase

/-- The call goes on without touching the channel. -/
theorem Sound.continued (h : cell.Sound maxFrameBytes) (hrun : cell.phase = .running call)
    (hqueued : next.isQueued = call.isQueued)
    (hfits : cell.frame.encodedBytes ≤ maxFrameBytes) :
    { cell with phase := .running next }.Sound maxFrameBytes where
  marked call' hphase := by
    cases hphase
    rw [hqueued]
    exact h.marked call hrun
  checked _ _ _ := hfits
  fits _ := hfits
  unknown _ hphase := by cases hphase
  refused _ hphase := by cases hphase
  own _ hphase := by cases hphase

/-- The frame enters the channel. -/
theorem sound_dispatched (hqueued : next.isQueued = true)
    (hfits : cell.frame.encodedBytes ≤ maxFrameBytes) :
    { cell with dispatched := true, phase := .running next }.Sound maxFrameBytes where
  marked call' hphase := by
    cases hphase
    exact hqueued.symm
  checked _ _ _ := hfits
  fits _ := hfits
  unknown _ hphase := by cases hphase
  refused _ hphase := by cases hphase
  own _ hphase := by cases hphase

/-- The call fails with an error that tells as much as the call knows. -/
theorem Sound.failed (h : cell.Sound maxFrameBytes) (hrun : cell.phase = .running call)
    {error : Error} (hunknown : error.kind = .outcomeUnknown → call.isQueued = true)
    (hrefused : error.kind ≠ .outcomeUnknown → error.kind ≠ .timeout → call.isQueued = false)
    (hown : error.kind ≠ .rpc) :
    { cell with phase := .returned (.error error) }.Sound maxFrameBytes where
  marked _ hphase := by cases hphase
  checked _ hphase := by cases hphase
  fits := h.fits
  unknown error' hphase hkind := by
    cases hphase
    rw [h.marked call hrun]
    exact hunknown hkind
  refused error' hphase hkind htime := by
    cases hphase
    rw [h.marked call hrun]
    exact hrefused hkind htime
  own error' hphase := by
    cases hphase
    exact hown

theorem Sound.succeeded (h : cell.Sound maxFrameBytes) :
    { cell with phase := .returned (.ok ()) }.Sound maxFrameBytes where
  marked _ hphase := by cases hphase
  checked _ hphase := by cases hphase
  fits := h.fits
  unknown _ hphase := by cases hphase
  refused _ hphase := by cases hphase
  own _ hphase := by cases hphase

end SendCell

/-! ## One step of a call -/

namespace Writer

variable {self : Writer} {frame : Json} {call next : SendCall} {event : SendEvent}

/-- A call goes past its first checks only with a frame that fits. -/
theorem sendStep_fits (h : (self.sendStep frame .entering event).2 = .pending next) :
    frame.encodedBytes ≤ self.maxFrameBytes := by
  simp only [sendStep] at h
  split_ifs at h with hshut hsize
  exact Nat.le_of_not_lt hsize

/-- What the kind of an error tells about the frame. -/
theorem sendStep_error {error : Error}
    (h : (self.sendStep frame call event).2 = .finished (.error error)) :
    (error.kind = .outcomeUnknown → call.isQueued = true) ∧
      (error.kind ≠ .outcomeUnknown → error.kind ≠ .timeout → call.isQueued = false) ∧
      error.kind ≠ .rpc := by
  have hearly : ∀ e : Error, call.isQueued = false → e.kind ≠ .outcomeUnknown → e.kind ≠ .rpc →
      (e.kind = .outcomeUnknown → call.isQueued = true) ∧
        (e.kind ≠ .outcomeUnknown → e.kind ≠ .timeout → call.isQueued = false) ∧
        e.kind ≠ .rpc := by
    intro e hqueued hknown hown
    exact ⟨fun hunknown => absurd hunknown hknown, fun _ _ => hqueued, hown⟩
  have hlate : ∀ e : Error, call.isQueued = true → e.kind = .outcomeUnknown ∨ e.kind = .timeout →
      (e.kind = .outcomeUnknown → call.isQueued = true) ∧
        (e.kind ≠ .outcomeUnknown → e.kind ≠ .timeout → call.isQueued = false) ∧
        e.kind ≠ .rpc := by
    intro e hqueued hkind
    refine ⟨fun _ => hqueued, fun hunknown htime => ?_, fun hrpc => ?_⟩
    · rcases hkind with hkind | hkind
      · exact absurd hkind hunknown
      · exact absurd hkind htime
    · rw [hrpc] at hkind
      rcases hkind with hkind | hkind <;> cases hkind
  cases call with
  | entering =>
    simp only [sendStep] at h
    split_ifs at h <;> cases h <;>
      exact hearly _ rfl (fun hkind => by cases hkind) (fun hkind => by cases hkind)
  | reserving =>
    simp only [sendStep] at h
    split_ifs at h <;> cases h <;>
      exact hearly _ rfl (fun hkind => by cases hkind) (fun hkind => by cases hkind)
  | dispatched =>
    simp only [sendStep] at h
    split_ifs at h
    cases h
    exact hlate _ rfl (.inr rfl)
  | acknowledging => cases event <;> cases h
  | terminating reason => cases event <;> cases h <;> exact hlate _ rfl (.inl rfl)

/-- A call succeeds only where it awaits the acknowledgement. -/
theorem sendStep_ok (h : (self.sendStep frame call event).2 = .finished (.ok ())) :
    call = .acknowledging := by
  cases call with
  | entering =>
    simp only [sendStep] at h
    split_ifs at h <;> cases h
  | reserving =>
    simp only [sendStep] at h
    split_ifs at h <;> cases h
  | dispatched =>
    simp only [sendStep] at h
    split_ifs at h
    cases h
  | acknowledging => rfl
  | terminating reason => cases event <;> cases h

end Writer

namespace OutboundWorld

variable {env : OutboundEnv} {w : OutboundWorld}

theorem offers_acknowledged {cell : SendCell} {event : SendEvent}
    (hoffers : w.offers env.capacity cell .acknowledging event = true)
    (h : (w.writer.sendStep cell.frame .acknowledging event).2 = .finished (.ok ())) :
    cell.ack = some (.ok ()) := by
  cases event with
  | ready => exact of_decide_eq_true hoffers
  | killFailed error => cases hoffers
  | expired => cases h
  | writerGone => cases h
  | writeFailed text => cases h

/-- A call that goes on either keeps to itself or queues its frame, and it is sound after. -/
theorem goOn_cases {i : Nat} {cell : SendCell} {call : SendCall} {event : SendEvent}
    (hrun : cell.phase = .running call) (h : cell.Sound w.writer.maxFrameBytes)
    (hoffers : w.offers env.capacity cell call event = true) :
    ∃ writer : Writer, writer.maxFrameBytes = w.writer.maxFrameBytes ∧
      ((∃ phase, w.goOn i cell call event = { w with writer }.settle i cell phase ∧
          { cell with phase }.Sound w.writer.maxFrameBytes ∧
          (phase = .returned (.ok ()) → cell.ack = some (.ok ()))) ∨
        ∃ next, w.goOn i cell call event = { w with writer }.dispatch i cell next ∧
          cell.dispatched = false ∧
          { cell with dispatched := true, phase := .running next }.Sound
            w.writer.maxFrameBytes) := by
  have hfits : ∀ next, (w.writer.sendStep cell.frame call event).2 = .pending next →
      cell.frame.encodedBytes ≤ w.writer.maxFrameBytes := by
    intro next hnext
    by_cases hcall : call = .entering
    · subst hcall
      exact Writer.sendStep_fits hnext
    · exact h.checked call hrun hcall
  have hsame : ∀ next : SendCall, next.isQueued = call.isQueued →
      (next.isQueued && !call.isQueued) = false := by
    intro next hqueued
    rw [hqueued, Bool.and_not_self]
  unfold goOn
  rcases w.writer.sendStep_cases cell.frame call event with
    ⟨next, hstep, hqueued, -⟩ | ⟨next, hstep, hqueued, hcall, -⟩ |
      ⟨next, hstep, hqueued, hcall, -, -⟩ | ⟨result, hstep, -⟩
  · have hsound := h.continued hrun hqueued (hfits next (congrArg Prod.snd hstep))
    rw [hstep]
    dsimp only
    rw [hsame next hqueued]
    refine ⟨w.writer, rfl, .inl ⟨.running next, rfl, hsound, ?_⟩⟩
    intro hphase
    cases hphase
  · have hqueued : next.isQueued = call.isQueued := hqueued.trans hcall.symm
    have hsound := h.continued hrun hqueued (hfits next (congrArg Prod.snd hstep))
    rw [hstep]
    dsimp only
    rw [hsame next hqueued]
    refine ⟨w.writer.startShutdown, rfl, .inl ⟨.running next, rfl, hsound, ?_⟩⟩
    intro hphase
    cases hphase
  · have hfits := hfits next (congrArg Prod.snd hstep)
    have hunmarked : cell.dispatched = false := (h.marked call hrun).trans hcall
    rw [hstep]
    dsimp only
    rw [hqueued, hcall]
    exact ⟨w.writer.queue cell.frame, rfl,
      .inr ⟨next, rfl, hunmarked, SendCell.sound_dispatched hqueued hfits⟩⟩
  · have hresult : (w.writer.sendStep cell.frame call event).2 = .finished result :=
      congrArg Prod.snd hstep
    rw [hstep]
    refine ⟨w.writer, rfl, .inl ⟨.returned result, rfl, ?_, ?_⟩⟩
    · cases result with
      | ok => exact h.succeeded
      | error error =>
        obtain ⟨hunknown, hrefused, hown⟩ := Writer.sendStep_error hresult
        exact h.failed hrun hunknown hrefused hown
    · intro hphase
      cases hphase
      have hcall := Writer.sendStep_ok hresult
      subst hcall
      exact offers_acknowledged hoffers hresult

/-- **What a step of a call can do.** -/
theorem go_cases (env : OutboundEnv) {i : Nat} (event : SendEvent)
    (h : ∀ cell, w.senders[i]? = some cell → cell.Sound w.writer.maxFrameBytes) :
    w.go env.capacity i event = w ∨
      ∃ cell, w.senders[i]? = some cell ∧ cell.isRunning = true ∧ ∃ writer : Writer,
        writer.maxFrameBytes = w.writer.maxFrameBytes ∧
        ((∃ phase, w.go env.capacity i event = { w with writer }.settle i cell phase ∧
            ({ cell with phase } : SendCell).Sound w.writer.maxFrameBytes ∧
            (phase = .returned (.ok ()) → cell.ack = some (.ok ()))) ∨
          ∃ next, w.go env.capacity i event = { w with writer }.dispatch i cell next ∧
            cell.dispatched = false ∧
            ({ cell with dispatched := true, phase := .running next } : SendCell).Sound
              w.writer.maxFrameBytes) := by
  unfold go
  cases hcell : w.senders[i]? with
  | none => exact .inl rfl
  | some cell =>
    cases hphase : cell.phase with
    | running call =>
      dsimp only
      rw [hphase]
      dsimp only
      split_ifs with hoffers
      · have hrunning : cell.isRunning = true := by
          rw [SendCell.isRunning, hphase]
        exact .inr ⟨cell, rfl, hrunning, goOn_cases hphase (h cell hcell) hoffers⟩
      · exact .inl rfl
    | returned result =>
      dsimp only
      rw [hphase]
      exact .inl rfl
    | dropped =>
      dsimp only
      rw [hphase]
      exact .inl rfl

theorem drop_cases (w : OutboundWorld) (i : Nat) :
    w.drop i = w ∨ ∃ cell, w.senders[i]? = some cell ∧ cell.isRunning = true ∧
      w.drop i = w.settle i cell .dropped := by
  unfold drop
  cases hcell : w.senders[i]? with
  | none => exact .inl rfl
  | some cell =>
    dsimp only
    cases hphase : cell.phase with
    | running call =>
      have hrunning : cell.isRunning = true := by
        rw [SendCell.isRunning, hphase]
      exact .inr ⟨cell, rfl, hrunning, rfl⟩
    | returned result => exact .inl rfl
    | dropped => exact .inl rfl

/-! ## Whose frames were queued -/

/-- The entries of the channel's history are the frames of the calls that set their
markers, each once. -/
structure Sent (maxFrameBytes : Nat) (senders : List SendCell) (order : List (Nat × Json)) :
    Prop where
  sound : ∀ (i : Nat) (cell : SendCell), senders[i]? = some cell → cell.Sound maxFrameBytes
  marked : ∀ (i : Nat) (cell : SendCell), senders[i]? = some cell →
    (cell.dispatched = true ↔ i ∈ order.map Prod.fst)
  entry : ∀ i frame, (i, frame) ∈ order → ∃ cell, senders[i]? = some cell ∧ cell.frame = frame
  once : (order.map Prod.fst).Nodup

variable {maxFrameBytes i : Nat} {senders : List SendCell} {order : List (Nat × Json)}
  {cell cell' : SendCell}

/-- What is at a place after a cell was replaced. -/
theorem getElem?_set_cases {j : Nat} {found : SendCell}
    (h : (senders.set i cell)[j]? = some found) :
    (j = i ∧ found = cell) ∨ (j ≠ i ∧ senders[j]? = some found) := by
  by_cases hij : i = j
  · subst hij
    rw [List.getElem?_set_self'] at h
    obtain ⟨_, -, hfound⟩ := Option.map_eq_some_iff.mp h
    exact .inl ⟨rfl, hfound.symm⟩
  · rw [List.getElem?_set_ne hij] at h
    exact .inr ⟨fun hji => hij hji.symm, h⟩

/-- A cell keeps its frame when it is replaced. -/
theorem getElem?_set_frame {j : Nat} {found : SendCell} (hcell : senders[i]? = some cell)
    (hframe : cell'.frame = cell.frame) (h : senders[j]? = some found) :
    ∃ found', (senders.set i cell')[j]? = some found' ∧ found'.frame = found.frame := by
  by_cases hij : i = j
  · subst hij
    rw [hcell] at h
    cases h
    exact ⟨cell', by rw [List.getElem?_set_self', hcell]; rfl, hframe⟩
  · exact ⟨found, by rw [List.getElem?_set_ne hij]; exact h, rfl⟩

theorem sent_start : Sent maxFrameBytes [] [] where
  sound i cell h := by cases h
  marked i cell h := by cases h
  entry i frame h := by cases h
  once := .nil

/-- A call begins. -/
theorem Sent.called (h : Sent maxFrameBytes senders order) (frame : Json) :
    Sent maxFrameBytes (senders ++ [.call frame]) order := by
  have hcases : ∀ (i : Nat) (found : SendCell), (senders ++ [.call frame])[i]? = some found →
      senders[i]? = some found ∨ (i = senders.length ∧ found.dispatched = false ∧
        found.Sound maxFrameBytes) := by
    intro i found hfound
    rcases Nat.lt_or_ge i senders.length with hlt | hge
    · rw [List.getElem?_append_left hlt] at hfound
      exact .inl hfound
    · rw [List.getElem?_append_right hge] at hfound
      have hzero : i - senders.length = 0 := by
        have hlt := (List.getElem?_eq_some_iff.mp hfound).1
        simpa using hlt
      rw [hzero] at hfound
      cases hfound
      refine .inr ⟨by omega, rfl, ?_⟩
      constructor
      · intro call hphase
        cases hphase
        rfl
      · intro call hphase hother
        cases hphase
        exact absurd rfl hother
      · intro hmarked
        cases hmarked
      · intro error hphase
        cases hphase
      · intro error hphase
        cases hphase
      · intro error hphase
        cases hphase
  constructor
  · intro i found hfound
    rcases hcases i found hfound with hold | ⟨-, -, hsound⟩
    · exact h.sound i found hold
    · exact hsound
  · intro i found hfound
    rcases hcases i found hfound with hold | ⟨rfl, hunmarked, -⟩
    · exact h.marked i found hold
    · rw [hunmarked]
      refine ⟨fun hmarked => absurd hmarked Bool.false_ne_true, fun hmem => ?_⟩
      obtain ⟨⟨j, frame'⟩, hentry, hj⟩ := List.mem_map.mp hmem
      obtain ⟨cell, hcell, -⟩ := h.entry j frame' hentry
      have hlt := (List.getElem?_eq_some_iff.mp hcell).1
      simp only at hj
      omega
  · intro i frame' hentry
    obtain ⟨cell, hcell, hframe⟩ := h.entry i frame' hentry
    have hlt := (List.getElem?_eq_some_iff.mp hcell).1
    exact ⟨cell, by rw [List.getElem?_append_left hlt]; exact hcell, hframe⟩
  · exact h.once

/-- A call is somewhere else, with the same frame and the same marker. -/
theorem Sent.set (h : Sent maxFrameBytes senders order) (hcell : senders[i]? = some cell)
    (hframe : cell'.frame = cell.frame) (hmarker : cell'.dispatched = cell.dispatched)
    (hsound : cell'.Sound maxFrameBytes) : Sent maxFrameBytes (senders.set i cell') order where
  sound j found hfound := by
    rcases getElem?_set_cases hfound with ⟨-, rfl⟩ | ⟨-, hold⟩
    · exact hsound
    · exact h.sound j found hold
  marked j found hfound := by
    rcases getElem?_set_cases hfound with ⟨rfl, rfl⟩ | ⟨-, hold⟩
    · rw [hmarker]
      exact h.marked j cell hcell
    · exact h.marked j found hold
  entry j frame hentry := by
    obtain ⟨found, hfound, hheld⟩ := h.entry j frame hentry
    obtain ⟨found', hfound', hsame⟩ := getElem?_set_frame hcell hframe hfound
    exact ⟨found', hfound', hsame.trans hheld⟩
  once := h.once

/-- A call sets its marker and its frame is queued. -/
theorem Sent.dispatched (h : Sent maxFrameBytes senders order)
    (hcell : senders[i]? = some cell) (hunmarked : cell.dispatched = false)
    (hframe : cell'.frame = cell.frame) (hmarker : cell'.dispatched = true)
    (hsound : cell'.Sound maxFrameBytes) :
    Sent maxFrameBytes (senders.set i cell') (order ++ [(i, cell.frame)]) where
  sound j found hfound := by
    rcases getElem?_set_cases hfound with ⟨-, rfl⟩ | ⟨-, hold⟩
    · exact hsound
    · exact h.sound j found hold
  marked j found hfound := by
    rw [List.map_append, List.mem_append, List.map_singleton, List.mem_singleton]
    rcases getElem?_set_cases hfound with ⟨rfl, rfl⟩ | ⟨hne, hold⟩
    · exact ⟨fun _ => .inr rfl, fun _ => hmarker⟩
    · rw [h.marked j found hold, or_iff_left hne]
  entry j frame hentry := by
    rcases List.mem_append.mp hentry with hold | hnew
    · obtain ⟨found, hfound, hheld⟩ := h.entry j frame hold
      obtain ⟨found', hfound', hsame⟩ := getElem?_set_frame hcell hframe hfound
      exact ⟨found', hfound', hsame.trans hheld⟩
    · cases List.mem_singleton.mp hnew
      obtain ⟨found', hfound', hsame⟩ := getElem?_set_frame hcell hframe hcell
      exact ⟨found', hfound', hsame⟩
  once := by
    rw [List.map_append, List.map_singleton]
    refine List.Nodup.append h.once (List.nodup_singleton i) ?_
    rw [List.disjoint_singleton]
    intro hmem
    have hmarked := (h.marked i cell hcell).mpr hmem
    rw [hunmarked] at hmarked
    cases hmarked

/-! ## What is in the pipe -/

/-- The lines of the entries. -/
def lines (entries : List (Nat × Json)) : List UInt8 :=
  entries.flatMap (fun entry => entry.2.line.bytes)

/-- The command of an entry. -/
def command (entry : Nat × Json) : Outbound := .frame entry.1 entry.2.line

/-- The frames among the commands. -/
def carried (channel : List Outbound) : List Outbound :=
  channel.filter (fun command =>
    match command with
    | .frame _ _ => true
    | .close => false)

/-- The bytes are the start of the line of the first of the entries. -/
def Begins (part : List UInt8) (waiting : List (Nat × Json)) : Prop :=
  part = [] ∨ ∃ entry later rest, waiting = entry :: later ∧ entry.2.line.bytes = part ++ rest

/-- As long as it works, the task has what the entries that wait are. -/
def Takes (channel : List Outbound) (waiting : List (Nat × Json)) (part : List UInt8) :
    WriterTask → Prop
  | .receiving => part = [] ∧ carried channel = waiting.map command
  | .writing sender rest => ∃ frame later, waiting = (sender, frame) :: later ∧
      frame.line.bytes = part ++ rest ∧ carried channel = later.map command
  | _ => True

/-- The pipe holds the lines of the entries that are written, and the start of the line of
the next. A write is acknowledged, and a call succeeds, only when its line is complete. -/
structure Streams (w : OutboundWorld) (written waiting : List (Nat × Json))
    (part : List UInt8) : Prop where
  order : w.order = written ++ waiting
  stdin : w.stdin = lines written ++ part
  begins : Begins part waiting
  takes : Takes w.channel waiting part w.task
  answered : ∀ (i : Nat) (cell : SendCell), w.senders[i]? = some cell →
    cell.ack = some (.ok ()) ∨ cell.phase = .returned (.ok ()) → i ∈ written.map Prod.fst

variable {written waiting : List (Nat × Json)} {part : List UInt8} {channel : List Outbound}

theorem lines_append (entries later : List (Nat × Json)) :
    lines (entries ++ later) = lines entries ++ lines later := List.flatMap_append

theorem carried_append (channel later : List Outbound) :
    carried (channel ++ later) = carried channel ++ carried later := List.filter_append ..

theorem Begins.append (h : Begins part waiting) (later : List (Nat × Json)) :
    Begins part (waiting ++ later) := by
  rcases h with rfl | ⟨entry, rest, bytes, rfl, hline⟩
  · exact .inl rfl
  · exact .inr ⟨entry, rest ++ later, bytes, rfl, hline⟩

/-- A frame is queued behind the others. -/
theorem Takes.queued {task : WriterTask} (h : Takes channel waiting part task)
    (entry : Nat × Json) :
    Takes (channel ++ [command entry]) (waiting ++ [entry]) part task := by
  have hcarried : carried (channel ++ [command entry]) = carried channel ++ [command entry] :=
    carried_append channel [command entry]
  cases task with
  | receiving =>
    obtain ⟨hpart, hchannel⟩ := h
    refine ⟨hpart, ?_⟩
    rw [hcarried, hchannel, List.map_append, List.map_singleton]
  | writing sender rest =>
    obtain ⟨frame, later, rfl, hline, hchannel⟩ := h
    refine ⟨frame, later ++ [entry], rfl, hline, ?_⟩
    rw [hcarried, hchannel, List.map_append, List.map_singleton]
  | terminating sender error => trivial
  | reporting error => trivial
  | closing => trivial
  | ended => trivial

theorem Takes.closeQueued {task : WriterTask} (h : Takes channel waiting part task) :
    Takes (channel ++ [.close]) waiting part task := by
  have hcarried : carried (channel ++ [.close]) = carried channel := by
    rw [carried_append]
    exact List.append_nil _
  cases task with
  | receiving => exact ⟨h.1, hcarried.trans h.2⟩
  | writing sender rest =>
    obtain ⟨frame, later, hwaiting, hline, hchannel⟩ := h
    exact ⟨frame, later, hwaiting, hline, hcarried.trans hchannel⟩
  | terminating sender error => trivial
  | reporting error => trivial
  | closing => trivial
  | ended => trivial

theorem streams_start : Streams (start env) [] [] [] where
  order := rfl
  stdin := rfl
  begins := .inl rfl
  takes := ⟨rfl, rfl⟩
  answered i cell h := by cases h

/-- A cell is replaced by one that was not answered before. -/
theorem Streams.set (h : Streams w written waiting part) (hcell : w.senders[i]? = some cell)
    (hanswered : cell'.ack = some (.ok ()) ∨ cell'.phase = .returned (.ok ()) →
      cell.ack = some (.ok ()) ∨ cell.phase = .returned (.ok ()))
    (writer : Writer) :
    Streams { w with writer, senders := w.senders.set i cell' } written waiting part where
  order := h.order
  stdin := h.stdin
  begins := h.begins
  takes := h.takes
  answered j found hfound hanswer := by
    rcases getElem?_set_cases hfound with ⟨rfl, rfl⟩ | ⟨-, hold⟩
    · exact h.answered j cell hcell (hanswered hanswer)
    · exact h.answered j found hold hanswer

theorem Streams.called (h : Streams w written waiting part) (frame : Json) :
    Streams { w with senders := w.senders ++ [.call frame] } written waiting part where
  order := h.order
  stdin := h.stdin
  begins := h.begins
  takes := h.takes
  answered j found hfound hanswer := by
    rcases Nat.lt_or_ge j w.senders.length with hlt | hge
    · rw [List.getElem?_append_left hlt] at hfound
      exact h.answered j found hfound hanswer
    · rw [List.getElem?_append_right hge, List.getElem?_singleton] at hfound
      split_ifs at hfound
      cases hfound
      rcases hanswer with hack | hphase
      · cases hack
      · cases hphase

/-- A call queues its frame. -/
theorem Streams.dispatched (h : Streams w written waiting part)
    (hcell : w.senders[i]? = some cell) (writer : Writer) (next : SendCall) :
    Streams ({ w with writer }.dispatch i cell next) written
      (waiting ++ [(i, cell.frame)]) part where
  order := by
    rw [← List.append_assoc, ← h.order]
    rfl
  stdin := h.stdin
  begins := h.begins.append _
  takes := h.takes.queued (i, cell.frame)
  answered j found hfound hanswer := by
    rcases getElem?_set_cases hfound with ⟨rfl, rfl⟩ | ⟨-, hold⟩
    · refine h.answered j cell hcell (.inl ?_)
      rcases hanswer with hack | hphase
      · exact hack
      · cases hphase
    · exact h.answered j found hold hanswer

theorem Streams.close (h : Streams w written waiting part) :
    Streams (w.close env.capacity) written waiting part := by
  unfold OutboundWorld.close
  split_ifs
  · exact ⟨h.order, h.stdin, h.begins, h.takes.closeQueued, h.answered⟩
  · exact h

/-- The task that does not write anything any more leaves what is in the pipe. -/
theorem Streams.stopped (h : Streams w written waiting part) (task : WriterTask)
    (htask : Takes w.channel waiting part task) (writer : Writer) (closed : Option Error) :
    Streams { w with writer, task, closed } written waiting part :=
  ⟨h.order, h.stdin, h.begins, htask, h.answered⟩

/-- The task takes the oldest command. -/
theorem Streams.receive (h : Streams w written waiting part) :
    Streams w.receive written waiting part := by
  have htakes := h.takes
  unfold OutboundWorld.receive
  cases htask : w.task with
  | receiving =>
    rw [htask] at htakes
    obtain ⟨hpart, hcarried⟩ := htakes
    cases hchannel : w.channel with
    | nil => exact h
    | cons next channel =>
      rw [hchannel] at hcarried
      cases next with
      | close => exact ⟨h.order, h.stdin, h.begins, trivial, h.answered⟩
      | frame sender frame =>
        have hfirst : Outbound.frame sender frame :: carried channel = waiting.map command :=
          hcarried
        obtain ⟨entry, later, rfl, hentry, hlater⟩ := List.map_eq_cons_iff.mp hfirst.symm
        cases hentry
        refine ⟨h.order, h.stdin, h.begins, ⟨entry.2, later, rfl, ?_, hlater.symm⟩, h.answered⟩
        rw [hpart]
        rfl
  | writing sender rest => exact h
  | terminating sender error => exact h
  | reporting error => exact h
  | closing => exact h
  | ended => exact h

/-- The pipe takes more of the line. -/
theorem Streams.write (h : Streams w written waiting part) (count : Nat) :
    ∃ part', Streams (w.write count) written waiting part' := by
  have htakes := h.takes
  unfold OutboundWorld.write
  cases htask : w.task with
  | writing sender rest =>
    rw [htask] at htakes
    obtain ⟨frame, later, hwaiting, hline, hcarried⟩ := htakes
    have hline : frame.line.bytes = (part ++ rest.take count) ++ rest.drop count := by
      rw [List.append_assoc, List.take_append_drop]
      exact hline
    refine ⟨part ++ rest.take count, h.order, ?_, .inr ⟨_, later, _, hwaiting, hline⟩,
      ⟨frame, later, hwaiting, hline, hcarried⟩, h.answered⟩
    dsimp only
    rw [h.stdin, List.append_assoc]
  | receiving => exact ⟨part, h⟩
  | terminating sender error => exact ⟨part, h⟩
  | reporting error => exact ⟨part, h⟩
  | closing => exact ⟨part, h⟩
  | ended => exact ⟨part, h⟩

/-- An acknowledgement goes to the call, if there is one. -/
theorem acknowledge_cases (w : OutboundWorld) (i : Nat) (result : Result Unit) :
    w.acknowledge i result = w ∨ ∃ cell, w.senders[i]? = some cell ∧
      w.acknowledge i result
        = { w with senders := w.senders.set i { cell with ack := some result } } := by
  unfold acknowledge
  cases hcell : w.senders[i]? with
  | none => exact .inl rfl
  | some cell => exact .inr ⟨cell, rfl, rfl⟩

/-- The line is complete: its entry is written, and its sender may be told so. -/
theorem Streams.flushed (h : Streams w written waiting part) :
    ∃ written' waiting' part', Streams w.flushed written' waiting' part' := by
  have htakes := h.takes
  unfold OutboundWorld.flushed
  cases htask : w.task with
  | writing sender rest =>
    cases rest with
    | cons byte rest => exact ⟨written, waiting, part, h⟩
    | nil =>
      rw [htask] at htakes
      obtain ⟨frame, later, rfl, hline, hcarried⟩ := htakes
      rw [List.append_nil] at hline
      have hlines : lines (written ++ [(sender, frame)]) = w.stdin := by
        rw [h.stdin, ← hline, lines_append]
        exact congrArg _ (List.append_nil _)
      have horder : w.order = (written ++ [(sender, frame)]) ++ later := by
        rw [h.order, List.append_assoc]
        rfl
      have hanswered : ∀ (j : Nat) (cell : SendCell), w.senders[j]? = some cell →
          cell.ack = some (.ok ()) ∨ cell.phase = .returned (.ok ()) →
          j ∈ (written ++ [(sender, frame)]).map Prod.fst := by
        intro j cell hcell hanswer
        rw [List.map_append]
        exact List.mem_append_left _ (h.answered j cell hcell hanswer)
      refine ⟨written ++ [(sender, frame)], later, [], ?_⟩
      dsimp only
      rcases acknowledge_cases w sender (.ok ()) with hsame | ⟨cell, hcell, hset⟩
      · rw [hsame]
        exact ⟨horder, (hlines.symm.trans (List.append_nil _).symm), .inl rfl, ⟨rfl, hcarried⟩,
          hanswered⟩
      · rw [hset]
        refine ⟨horder, (hlines.symm.trans (List.append_nil _).symm), .inl rfl, ⟨rfl, hcarried⟩, ?_⟩
        intro j found hfound hanswer
        rcases getElem?_set_cases hfound with ⟨rfl, rfl⟩ | ⟨-, hold⟩
        · rw [List.map_append]
          exact List.mem_append_right _ (List.mem_singleton.mpr rfl)
        · exact hanswered j found hold hanswer
  | receiving => exact ⟨written, waiting, part, h⟩
  | terminating sender error => exact ⟨written, waiting, part, h⟩
  | reporting error => exact ⟨written, waiting, part, h⟩
  | closing => exact ⟨written, waiting, part, h⟩
  | ended => exact ⟨written, waiting, part, h⟩

theorem Streams.fail (h : Streams w written waiting part) (error : Error) :
    Streams (w.fail error) written waiting part := by
  unfold OutboundWorld.fail
  cases htask : w.task with
  | writing sender rest =>
    exact h.stopped (.terminating sender error) trivial w.writer.startShutdown w.closed
  | receiving => exact h
  | terminating sender error => exact h
  | reporting error => exact h
  | closing => exact h
  | ended => exact h

/-- The sender of the line that was cut is told so. -/
theorem Streams.terminated (h : Streams w written waiting part) :
    Streams w.terminated written waiting part := by
  unfold OutboundWorld.terminated
  cases htask : w.task with
  | terminating sender error =>
    dsimp only
    rcases acknowledge_cases w sender (.error error) with hsame | ⟨cell, hcell, hset⟩
    · rw [hsame]
      exact h.stopped (.reporting error) trivial w.writer w.closed
    · have htold : { cell with ack := some (.error error) }.ack = some (.ok ()) ∨
          cell.phase = .returned (.ok ()) →
          cell.ack = some (.ok ()) ∨ cell.phase = .returned (.ok ()) := by
        rintro (hack | hphase)
        · cases hack
        · exact .inr hphase
      rw [hset]
      exact (h.set hcell htold w.writer).stopped (.reporting error) trivial w.writer w.closed
  | receiving => exact h
  | writing sender rest => exact h
  | reporting error => exact h
  | closing => exact h
  | ended => exact h

theorem Streams.reported (h : Streams w written waiting part) :
    Streams w.reported written waiting part := by
  unfold OutboundWorld.reported
  cases htask : w.task with
  | reporting error => exact h.stopped .ended trivial w.writer (some (stdinWriterFailed error))
  | receiving => exact h
  | writing sender rest => exact h
  | terminating sender error => exact h
  | closing => exact h
  | ended => exact h

theorem Streams.stdinClosed (h : Streams w written waiting part) :
    Streams w.stdinClosed written waiting part := by
  unfold OutboundWorld.stdinClosed
  cases htask : w.task with
  | closing => exact h.stopped .ended trivial w.writer w.closed
  | receiving => exact h
  | writing sender rest => exact h
  | terminating sender error => exact h
  | reporting error => exact h
  | ended => exact h

/-! ## Every run -/

/-- A step of the task or of a shutdown: no call moves, and what is in the pipe stays. -/
structure KeepsCalls (w w' : OutboundWorld) : Prop where
  limit : w'.writer.maxFrameBytes = w.writer.maxFrameBytes
  order : w'.order = w.order
  senders : w'.senders = w.senders ∨ ∃ i cell ack, w.senders[i]? = some cell ∧
    w'.senders = w.senders.set i { cell with ack }
  stdin : w.stdin <+: w'.stdin

theorem keepsCalls_of_same {w w' : OutboundWorld}
    (hlimit : w'.writer.maxFrameBytes = w.writer.maxFrameBytes) (horder : w'.order = w.order)
    (hsenders : w'.senders = w.senders) (hstdin : w'.stdin = w.stdin) : KeepsCalls w w' where
  limit := hlimit
  order := horder
  senders := .inl hsenders
  stdin := by rw [hstdin]

theorem keepsCalls_acknowledge (w : OutboundWorld) (i : Nat) (result : Result Unit)
    (task : WriterTask) : KeepsCalls w { w.acknowledge i result with task } := by
  rcases acknowledge_cases w i result with hsame | ⟨cell, hcell, hset⟩
  · rw [hsame]
    exact keepsCalls_of_same rfl rfl rfl rfl
  · rw [hset]
    exact ⟨rfl, rfl, .inr ⟨i, cell, _, hcell, rfl⟩, List.prefix_rfl⟩

theorem keepsCalls_close : KeepsCalls w (w.close env.capacity) := by
  unfold close
  split_ifs <;> exact keepsCalls_of_same rfl rfl rfl rfl

theorem keepsCalls_receive : KeepsCalls w w.receive := by
  unfold receive
  split <;> exact keepsCalls_of_same rfl rfl rfl rfl

theorem keepsCalls_write (count : Nat) : KeepsCalls w (w.write count) := by
  unfold write
  split
  · exact ⟨rfl, rfl, .inl rfl, List.prefix_append _ _⟩
  · exact keepsCalls_of_same rfl rfl rfl rfl

theorem keepsCalls_flushed : KeepsCalls w w.flushed := by
  unfold flushed
  split
  · exact keepsCalls_acknowledge w _ _ _
  · exact keepsCalls_of_same rfl rfl rfl rfl

theorem keepsCalls_fail (error : Error) : KeepsCalls w (w.fail error) := by
  unfold fail
  split <;> exact keepsCalls_of_same rfl rfl rfl rfl

theorem keepsCalls_terminated : KeepsCalls w w.terminated := by
  unfold terminated
  split
  · exact keepsCalls_acknowledge w _ _ _
  · exact keepsCalls_of_same rfl rfl rfl rfl

theorem keepsCalls_reported : KeepsCalls w w.reported := by
  unfold reported
  split <;> exact keepsCalls_of_same rfl rfl rfl rfl

theorem keepsCalls_stdinClosed : KeepsCalls w w.stdinClosed := by
  unfold stdinClosed
  split <;> exact keepsCalls_of_same rfl rfl rfl rfl

/-- The invariant. -/
structure Piped (env : OutboundEnv) (w : OutboundWorld) : Prop where
  limit : w.writer.maxFrameBytes = env.maxFrameBytes
  sent : Sent env.maxFrameBytes w.senders w.order
  streams : ∃ written waiting part, Streams w written waiting part

theorem piped_start : Piped env (start env) where
  limit := rfl
  sent := sent_start
  streams := ⟨[], [], [], streams_start⟩

theorem Sent.kept {w w' : OutboundWorld} (h : Sent env.maxFrameBytes w.senders w.order)
    (hkeeps : KeepsCalls w w') : Sent env.maxFrameBytes w'.senders w'.order := by
  rw [hkeeps.order]
  rcases hkeeps.senders with hsame | ⟨i, cell, ack, hcell, hset⟩
  · rw [hsame]
    exact h
  · have hsound := h.sound i cell hcell
    rw [hset]
    exact h.set hcell rfl rfl
      ⟨hsound.marked, hsound.checked, hsound.fits, hsound.unknown, hsound.refused, hsound.own⟩

/-- A step of the task or of a shutdown keeps the invariant. -/
theorem Piped.kept {w w' : OutboundWorld} (h : Piped env w) (hkeeps : KeepsCalls w w')
    (hstreams : ∃ written waiting part, Streams w' written waiting part) : Piped env w' where
  limit := hkeeps.limit.trans h.limit
  sent := h.sent.kept hkeeps
  streams := hstreams

theorem Piped.go (h : Piped env w) (i : Nat) (event : SendEvent) :
    Piped env (w.go env.capacity i event) := by
  obtain ⟨hlimit, hsent, written, waiting, part, hstreams⟩ := h
  have hsound : ∀ cell, w.senders[i]? = some cell → cell.Sound w.writer.maxFrameBytes := by
    intro cell hcell
    rw [hlimit]
    exact hsent.sound i cell hcell
  rcases go_cases env event hsound with
    hsame | ⟨cell, hcell, -, writer, hwriter, ⟨phase, hgo, hafter, hok⟩ | ⟨next, hgo, hfresh, hafter⟩⟩
  · rw [hsame]
    exact ⟨hlimit, hsent, written, waiting, part, hstreams⟩
  · rw [hlimit] at hafter
    have hanswered : cell.ack = some (.ok ()) ∨ phase = .returned (.ok ()) →
        cell.ack = some (.ok ()) ∨ cell.phase = .returned (.ok ()) := by
      rintro (hack | hphase)
      · exact .inl hack
      · exact .inl (hok hphase)
    rw [hgo]
    exact ⟨hwriter.trans hlimit, hsent.set hcell rfl rfl hafter, written, waiting, part,
      hstreams.set hcell hanswered writer⟩
  · rw [hlimit] at hafter
    rw [hgo]
    exact ⟨hwriter.trans hlimit, hsent.dispatched hcell hfresh rfl rfl hafter, written, _, part,
      hstreams.dispatched hcell writer next⟩

theorem Piped.drop (h : Piped env w) (i : Nat) : Piped env (w.drop i) := by
  obtain ⟨hlimit, hsent, written, waiting, part, hstreams⟩ := h
  rcases drop_cases w i with hsame | ⟨cell, hcell, -, hdrop⟩
  · rw [hsame]
    exact ⟨hlimit, hsent, written, waiting, part, hstreams⟩
  · have hanswered : cell.ack = some (.ok ()) ∨ SendPhase.dropped = .returned (.ok ()) →
        cell.ack = some (.ok ()) ∨ cell.phase = .returned (.ok ()) := by
      rintro (hack | hphase)
      · exact .inl hack
      · cases hphase
    rw [hdrop]
    exact ⟨hlimit, hsent.set hcell rfl rfl (hsent.sound i cell hcell).dropped, written, waiting,
      part, hstreams.set hcell hanswered w.writer⟩

/-- **The invariant holds after every step.** -/
theorem piped_step (h : Piped env w) (label : OutboundLabel) : Piped env (w.step env label) := by
  obtain ⟨written, waiting, part, hstreams⟩ := h.streams
  cases label with
  | send frame =>
    exact ⟨h.limit, h.sent.called frame, written, waiting, part, hstreams.called frame⟩
  | go sender event => exact h.go sender event
  | drop sender => exact h.drop sender
  | startShutdown =>
    exact h.kept (keepsCalls_of_same rfl rfl rfl rfl)
      ⟨written, waiting, part, hstreams.stopped w.task hstreams.takes _ w.closed⟩
  | close => exact h.kept keepsCalls_close ⟨written, waiting, part, hstreams.close⟩
  | receive => exact h.kept keepsCalls_receive ⟨written, waiting, part, hstreams.receive⟩
  | write count =>
    obtain ⟨part', hwrite⟩ := hstreams.write count
    exact h.kept (keepsCalls_write count) ⟨written, waiting, part', hwrite⟩
  | flushed => exact h.kept keepsCalls_flushed hstreams.flushed
  | fail error => exact h.kept (keepsCalls_fail error) ⟨written, waiting, part, hstreams.fail error⟩
  | terminated => exact h.kept keepsCalls_terminated ⟨written, waiting, part, hstreams.terminated⟩
  | reported => exact h.kept keepsCalls_reported ⟨written, waiting, part, hstreams.reported⟩
  | stdinClosed =>
    exact h.kept keepsCalls_stdinClosed ⟨written, waiting, part, hstreams.stdinClosed⟩
  | abort =>
    exact h.kept (keepsCalls_of_same rfl rfl rfl rfl)
      ⟨written, waiting, part, hstreams.stopped .ended trivial w.writer w.closed⟩

theorem piped_reachable (h : (machine env).Reachable Machine.Free w) : Piped env w :=
  h.invariant (P := Piped env) piped_start (fun _ label _ hs _ => piped_step hs label)

/-- Nothing that was queued or written is taken back. -/
theorem continues_step (h : Piped env w) (label : OutboundLabel) :
    w.order <+: (w.step env label).order ∧ w.stdin <+: (w.step env label).stdin := by
  have hkept : ∀ {w'}, KeepsCalls w w' → w.order <+: w'.order ∧ w.stdin <+: w'.stdin := by
    intro w' hkeeps
    exact ⟨by rw [hkeeps.order], hkeeps.stdin⟩
  have hsame : w.order <+: w.order ∧ w.stdin <+: w.stdin := ⟨List.prefix_rfl, List.prefix_rfl⟩
  cases label with
  | send frame => exact hsame
  | go sender event =>
    have hsound : ∀ cell, w.senders[sender]? = some cell → cell.Sound w.writer.maxFrameBytes := by
      intro cell hcell
      rw [h.limit]
      exact h.sent.sound sender cell hcell
    have hgo : w.step env (.go sender event) = w.go env.capacity sender event := rfl
    rw [hgo]
    rcases go_cases env event hsound with
      hstays | ⟨cell, hcell, -, writer, hwriter, ⟨phase, hsettle, -⟩ | ⟨next, hdispatch, -⟩⟩
    · rw [hstays]
      exact hsame
    · rw [hsettle]
      exact hsame
    · rw [hdispatch]
      exact ⟨List.prefix_append _ _, List.prefix_rfl⟩
  | drop sender =>
    have hgo : w.step env (.drop sender) = w.drop sender := rfl
    rw [hgo]
    rcases drop_cases w sender with hstays | ⟨cell, hcell, -, hdrop⟩
    · rw [hstays]
      exact hsame
    · rw [hdrop]
      exact hsame
  | startShutdown => exact hsame
  | close => exact hkept keepsCalls_close
  | receive => exact hkept keepsCalls_receive
  | write count => exact hkept (keepsCalls_write count)
  | flushed => exact hkept keepsCalls_flushed
  | fail error => exact hkept (keepsCalls_fail error)
  | terminated => exact hkept keepsCalls_terminated
  | reported => exact hkept keepsCalls_reported
  | stdinClosed => exact hkept keepsCalls_stdinClosed
  | abort => exact hsame

theorem continues_run (h : Piped env w) (labels : List OutboundLabel) :
    w.order <+: ((machine env).runFrom w labels).order ∧
      w.stdin <+: ((machine env).runFrom w labels).stdin := by
  induction labels generalizing w with
  | nil => exact ⟨List.prefix_rfl, List.prefix_rfl⟩
  | cons label labels ih =>
    obtain ⟨horder, hstdin⟩ := continues_step h label
    obtain ⟨horder', hstdin'⟩ := ih (piped_step h label)
    exact ⟨horder.trans horder', hstdin.trans hstdin'⟩

/-! ## What is read -/

variable {fromStr : String → Except String Json}

/-- The parser reads the frame back. -/
def ReadBack (fromStr : String → Except String Json) (frame : Json) : Prop :=
  frame.NumbersOk ∧ fromStr frame.toText = .ok frame

theorem Begins.complete (h : Begins part waiting) :
    ∃ done part' waiting', waiting = done ++ waiting' ∧ part = lines done ++ part' ∧
      (part' = [] ∨ ∃ entry later rest, waiting' = entry :: later ∧ rest ≠ [] ∧
        entry.2.line.bytes = part' ++ rest) := by
  rcases h with rfl | ⟨entry, later, rest, rfl, hline⟩
  · exact ⟨[], [], waiting, rfl, rfl, .inl rfl⟩
  · by_cases hrest : rest = []
    · refine ⟨[entry], [], later, rfl, ?_, .inl rfl⟩
      rw [hrest, List.append_nil] at hline
      rw [List.append_nil, ← hline]
      exact (List.append_nil _).symm
    · exact ⟨[], part, entry :: later, rfl, rfl, .inr ⟨entry, later, rest, rfl, hrest, hline⟩⟩

/-- A line that was cut holds no newline. -/
theorem lf_not_mem_cut {frame : Json} {rest : List UInt8} (hframe : ReadBack fromStr frame)
    (hrest : rest ≠ []) (hline : frame.line.bytes = part ++ rest) : lf ∉ part := by
  have hprinted := (printed_of_read hframe.1 hframe.2).line _ rfl
  obtain ⟨front, last, rfl⟩ := (List.eq_nil_or_concat' rest).resolve_left hrest
  have hbytes : frame.toBytes ++ [lf] = (part ++ front) ++ [last] := by
    rw [List.append_assoc]
    exact hline
  have hfront := (List.append_inj' hbytes rfl).1
  rw [hfront] at hprinted
  intro hmem
  exact hprinted.1 (List.mem_append_left _ hmem)

/-- The lines of frames that fit mean the frames. -/
theorem reference_lines {limit : Nat} {entries : List (Nat × Json)}
    (hread : ∀ entry ∈ entries, ReadBack fromStr entry.2)
    (hfits : ∀ entry ∈ entries, entry.2.encodedBytes ≤ limit) (rest : List UInt8) :
    reference fromStr limit (lines entries ++ rest)
      = entries.map (fun entry => .value entry.2) ++ reference fromStr limit rest := by
  have hframes : (entries.map Prod.snd).mapM
      (fun value => EncodedFrame.encode serdeToVec value limit)
        = .ok (entries.map (fun entry => entry.2.line)) := by
    induction entries with
    | nil => rfl
    | cons entry entries ih =>
      have hhead := encode_of_fits (hfits entry List.mem_cons_self)
      have htail := ih (fun e he => hread e (List.mem_cons_of_mem _ he))
        (fun e he => hfits e (List.mem_cons_of_mem _ he))
      rw [List.map_cons, List.mapM_cons]
      exact bind_ok.mpr ⟨_, hhead, bind_ok.mpr ⟨_, htail, rfl⟩⟩
  have hprinted : ∀ value ∈ entries.map Prod.snd, Printed serdeToVec fromStr value := by
    intro value hvalue
    obtain ⟨entry, hentry, rfl⟩ := List.mem_map.mp hvalue
    exact printed_of_read (hread entry hentry).1 (hread entry hentry).2
  have hmeans := reference_frames hprinted hframes rest
  rw [List.flatMap_map, List.map_map] at hmeans
  exact hmeans

/-- What holds of the calls, the channel and the pipe at any time. -/
structure IntactStream (fromStr : String → Except String Json) (env : OutboundEnv)
    (w : OutboundWorld) (written waiting : List (Nat × Json)) (part : List UInt8) : Prop where
  /-- The frames are written in the order in which they were queued. -/
  order : w.order = written ++ waiting
  /-- No call queues twice. -/
  once : (w.order.map Prod.fst).Nodup
  /-- Every frame that was queued is the frame of a call. -/
  entry : ∀ i frame, (i, frame) ∈ w.order → ∃ cell, w.senders[i]? = some cell ∧ cell.frame = frame
  /-- The marker of a call tells whether its frame was queued. -/
  marked : ∀ (i : Nat) (cell : SendCell), w.senders[i]? = some cell →
    (cell.dispatched = true ↔ (i, cell.frame) ∈ w.order)
  /-- A call that succeeded has its frame in the pipe. -/
  succeeded : ∀ (i : Nat) (cell : SendCell), w.senders[i]? = some cell →
    cell.phase = .returned (.ok ()) → (i, cell.frame) ∈ written
  /-- The outcome is called unknown only where the frame was queued. -/
  unknown : ∀ (i : Nat) (cell : SendCell) (error : Error), w.senders[i]? = some cell →
    cell.phase = .returned (.error error) → error.kind = .outcomeUnknown →
    (i, cell.frame) ∈ w.order
  /-- Any other error than a timeout says that it was not. -/
  refused : ∀ (i : Nat) (cell : SendCell) (error : Error), w.senders[i]? = some cell →
    cell.phase = .returned (.error error) → error.kind ≠ .outcomeUnknown →
    error.kind ≠ .timeout → (i, cell.frame) ∉ w.order
  stdin : w.stdin = lines written ++ part
  /-- The rest of the pipe is an incomplete line of the next frame. -/
  cut : part = [] ∨ ∃ entry later rest, waiting = entry :: later ∧ rest ≠ [] ∧
    entry.2.line.bytes = part ++ rest
  /-- Whoever reads the pipe reads the frames that are written, and then its end. -/
  reads : ∀ limit, env.maxFrameBytes ≤ limit → ∀ stream : Chunks, (∀ chunk ∈ stream, chunk ≠ []) →
    stream.flatten = w.stdin → ∀ outcomes, Reads fromStr (new limit) stream outcomes ↔
      outcomes = written.map (fun entry => .value entry.2)
        ++ [if part = [] then .finished else .failure]

/-- The invariant says all that. -/
theorem intact_of_piped (h : Piped env w)
    (hread : ∀ cell ∈ w.senders, ReadBack fromStr cell.frame) :
    ∃ written waiting part, IntactStream fromStr env w written waiting part := by
  obtain ⟨-, hsent, written, waiting, part, hstreams⟩ := h
  obtain ⟨done, part', waiting', hwaiting, hpart, hcut⟩ := hstreams.begins.complete
  have horder : w.order = (written ++ done) ++ waiting' := by
    rw [hstreams.order, hwaiting, List.append_assoc]
  have hstdin : w.stdin = lines (written ++ done) ++ part' := by
    rw [hstreams.stdin, hpart, lines_append, List.append_assoc]
  have hentry : ∀ entry ∈ w.order, ReadBack fromStr entry.2 ∧
      entry.2.encodedBytes ≤ env.maxFrameBytes := by
    intro entry hentry
    obtain ⟨cell, hcell, hframe⟩ := hsent.entry entry.1 entry.2 hentry
    have hmarked := (hsent.marked entry.1 cell hcell).mpr (List.mem_map_of_mem hentry)
    rw [← hframe]
    exact ⟨hread cell (List.mem_of_getElem? hcell), (hsent.sound _ cell hcell).fits hmarked⟩
  have hown : ∀ (entries : List (Nat × Json)) (i : Nat) (cell : SendCell), entries ⊆ w.order →
      w.senders[i]? = some cell → i ∈ entries.map Prod.fst → (i, cell.frame) ∈ entries := by
    intro entries i cell hsub hcell hmem
    obtain ⟨⟨j, frame⟩, hfound, rfl⟩ := List.mem_map.mp hmem
    obtain ⟨cell', hcell', rfl⟩ := hsent.entry j frame (hsub hfound)
    cases hcell.symm.trans hcell'
    exact hfound
  have hmarked : ∀ (i : Nat) (cell : SendCell), w.senders[i]? = some cell →
      (cell.dispatched = true ↔ (i, cell.frame) ∈ w.order) := by
    intro i cell hcell
    rw [hsent.marked i cell hcell]
    exact ⟨hown w.order i cell (List.Subset.refl _) hcell, fun hmem => List.mem_map_of_mem hmem⟩
  have hwritten : written ++ done ⊆ w.order := by
    rw [horder]
    exact List.subset_append_left _ _
  refine ⟨written ++ done, waiting', part', ?_⟩
  constructor
  · exact horder
  · exact hsent.once
  · exact hsent.entry
  · exact hmarked
  · intro i cell hcell hphase
    have hmem := hstreams.answered i cell hcell (.inr hphase)
    refine hown _ i cell hwritten hcell ?_
    rw [List.map_append]
    exact List.mem_append_left _ hmem
  · intro i cell error hcell hphase hkind
    exact (hmarked i cell hcell).mp ((hsent.sound i cell hcell).unknown error hphase hkind)
  · intro i cell error hcell hphase hkind htime hmem
    have hrefused := (hsent.sound i cell hcell).refused error hphase hkind htime
    rw [(hmarked i cell hcell).mpr hmem] at hrefused
    cases hrefused
  · exact hstdin
  · exact hcut
  · intro limit hlimit stream hstream hbytes outcomes
    have hlines := reference_lines (fun entry he => (hentry entry (hwritten he)).1)
      (fun entry he => Nat.le_trans (hentry entry (hwritten he)).2 hlimit) part'
    have htail : lf ∉ part' := by
      rcases hcut with rfl | ⟨entry, later, rest, hnext, hrest, hline⟩
      · exact List.not_mem_nil
      · have hmem : entry ∈ w.order := by
          rw [horder, hnext]
          exact List.mem_append_right _ List.mem_cons_self
        exact lf_not_mem_cut (hentry entry hmem).1 hrest hline
    rw [(framing_independent_of_chunks fromStr limit stream hstream).1, hbytes, hstdin, hlines,
      reference_tail limit htail]
    split_ifs <;> rfl

/--
**The frames of concurrent senders arrive whole, once and in order.**

Whatever calls of `send_tracked` are made, dropped, timed out and interleaved with the writer
task, with failing writes, with shutdowns and with an abort of the task: what is in the pipe
is the lines of the first frames that were queued and then at most the beginning of the next,
no frame is there twice, and the marker and the answer of a call tell the truth about its
frame. A reader whose limit is not smaller reads these frames in this order, wherever the
bytes are cut, and never a frame that nobody sent. What was queued or written stays.
-/
theorem frames_arrive_intact (fromStr : String → Except String Json) (env : OutboundEnv)
    (w : OutboundWorld) (h : (machine env).Reachable Machine.Free w)
    (hread : ∀ cell ∈ w.senders, ReadBack fromStr cell.frame) :
    (∃ written waiting part, IntactStream fromStr env w written waiting part) ∧
      ∀ labels, w.order <+: ((machine env).runFrom w labels).order ∧
        w.stdin <+: ((machine env).runFrom w labels).stdin := by
  have hpiped := piped_reachable h
  exact ⟨intact_of_piped hpiped hread, continues_run hpiped⟩

/-- Two notifications, the second of which is cut by a failing write. -/
def cutRun : List OutboundLabel :=
  let error := Error.new .process "jsonl.write" "Broken pipe (os error 32)"
  [.send (wireNotification "a" .null), .send (wireNotification "bc" .null),
    .go 0 .ready, .go 0 .ready, .go 1 .ready, .go 1 .ready,
    .receive, .write 9, .write 6, .flushed, .go 0 .ready, .go 0 .ready,
    .receive, .write 5, .fail error, .terminated, .reported,
    .go 1 .ready, .go 1 (.writeFailed error.display), .go 1 .ready]

/-- What the run leaves. -/
def cutWorld : OutboundWorld :=
  (machine { maxFrameBytes := 32, sendTimeout := 1000, capacity := 4 }).run cutRun

/-- The first call succeeded, the second answered that its outcome is unknown. -/
theorem frames_arrive_intact_cut :
    cutWorld.senders.map (fun cell => (cell.dispatched, cell.phase)) =
        [(true, .returned (.ok ())),
          (true, .returned (.error (Error.new .outcomeUnknown "process.send"
            ("app-server stdin write failed: jsonl.write: Broken pipe (os error 32)"
              ++ "; runtime termination was initiated"))))] ∧
      cutWorld.stdin = (wireNotification "a" .null).line.bytes
        ++ (wireNotification "bc" .null).line.bytes.take 5 ∧
      ∃ written waiting part, IntactStream (fun text =>
          if text = (wireNotification "a" .null).toText then .ok (wireNotification "a" .null)
          else if text = (wireNotification "bc" .null).toText then
            .ok (wireNotification "bc" .null)
          else .error "expected value at line 1 column 1")
        { maxFrameBytes := 32, sendTimeout := 1000, capacity := 4 } cutWorld
        written waiting part := by
  refine ⟨by decide +kernel, by decide +kernel, ?_⟩
  refine (frames_arrive_intact _ _ cutWorld (Machine.reachable_run cutRun) ?_).1
  intro cell hcell
  have hframes : cutWorld.senders.map SendCell.frame
      = [wireNotification "a" .null, wireNotification "bc" .null] := rfl
  have hmem : cell.frame ∈ [wireNotification "a" .null, wireNotification "bc" .null] := by
    rw [← hframes]
    exact List.mem_map_of_mem hcell
  have hok : ∀ method, (wireNotification method .null).NumbersOk := by
    intro method
    refine .object ?_
    intro member hmember
    rw [List.mem_singleton.mp hmember]
    exact .string method
  rcases List.mem_cons.mp hmem with ha | hmem
  · rw [ha]
    exact ⟨hok "a", if_pos rfl⟩
  · rw [List.mem_singleton.mp hmem]
    exact ⟨hok "bc", (if_neg (by decide +kernel)).trans (if_pos rfl)⟩

end OutboundWorld

end Vergerail
