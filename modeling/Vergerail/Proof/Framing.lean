import Mathlib.Data.Nat.Init
import Vergerail.JsonRead
import Vergerail.Private.Codec

/-!
# Framing does not depend on how the bytes arrive

What the reader has still to answer depends on the bytes that are unread or yet to come,
in this order, and on nothing else. If a line ends in them, `next` answers for that line
and leaves what follows; if none does, it answers for the tail. The one short cut is the
limit: when more than `maxFrameBytes + 1` bytes are unread and no line ends in them, the
frame is too long already, because at most one of its bytes can be a carriage return that
is stripped.

The buffer stays within `maxFrameBytes + 2` bytes because a read is only made when at most
`maxFrameBytes + 1` are unread, and asks for no more than what is missing.
-/

namespace Vergerail

namespace JsonLinesReader

variable {fromStr : String → Except String Json}

/-! ## The reference -/

/-- What reading a stream brings: values, then a failure or the end. -/
inductive Outcome where
  | value (value : Json)
  | failure
  | finished

/-- A line without the carriage return before its newline. -/
def stripCr (line : List UInt8) : List UInt8 :=
  if line.getLast? = some cr then line.dropLast else line

/-- The value of a line, if its frame has an allowed length and parses. -/
def frameValue (fromStr : String → Except String Json) (maxFrameBytes : Nat)
    (line : List UInt8) : Option Json :=
  if (stripCr line).length ≤ maxFrameBytes ∧ stripCr line ≠ [] then
    (parseFrame fromStr (stripCr line)).toOption
  else none

/-- Lines are answered for in order, up to the first that fails; the last piece is what
follows the last newline. -/
def judge (fromStr : String → Except String Json) (maxFrameBytes : Nat) :
    List (List UInt8) → List Outcome
  | [] => []
  | [tail] => if tail = [] then [.finished] else [.failure]
  | line :: line' :: rest =>
    match frameValue fromStr maxFrameBytes line with
    | none => [.failure]
    | some value => .value value :: judge fromStr maxFrameBytes (line' :: rest)

/-- What a stream of bytes means: it is split at every newline. -/
def reference (fromStr : String → Except String Json) (maxFrameBytes : Nat)
    (bytes : List UInt8) : List Outcome :=
  judge fromStr maxFrameBytes (bytes.splitOn lf)

theorem reference_line (maxFrameBytes : Nat) {line : List UInt8} (hline : lf ∉ line)
    (rest : List UInt8) :
    reference fromStr maxFrameBytes (line ++ lf :: rest)
      = match frameValue fromStr maxFrameBytes line with
        | none => [.failure]
        | some value => .value value :: reference fromStr maxFrameBytes rest := by
  unfold reference
  rw [List.splitOn_append_cons_self, List.splitOn_eq_singleton hline, List.singleton_append]
  rcases hsplit : rest.splitOn lf with _ | ⟨line', rest'⟩
  · exact absurd hsplit (List.splitOn_ne_nil lf rest)
  · rfl

theorem reference_tail (maxFrameBytes : Nat) {tail : List UInt8} (htail : lf ∉ tail) :
    reference fromStr maxFrameBytes tail
      = if tail = [] then [.finished] else [.failure] := by
  unfold reference
  rw [List.splitOn_eq_singleton htail]
  rfl

/-- Stripping takes at most one byte. -/
theorem length_le_stripCr (line : List UInt8) : line.length ≤ (stripCr line).length + 1 := by
  unfold stripCr
  split
  · rw [List.length_dropLast]
    omega
  · omega

/-- A line longer than the limit by two bytes is too long whatever it ends in. -/
theorem frameValue_of_long {maxFrameBytes : Nat} {line : List UInt8}
    (h : maxFrameBytes + 2 ≤ line.length) : frameValue fromStr maxFrameBytes line = none := by
  have := length_le_stripCr line
  unfold frameValue
  rw [if_neg]
  rintro ⟨hle, _⟩
  omega

/-! ## The invariant -/

/-- What holds between two passes of the loop, and between two calls of `next`. -/
structure Within (reader : JsonLinesReader) (chunks : Chunks) : Prop where
  start : reader.start ≤ reader.buffer.length
  room : reader.unread.length ≤ reader.maxFrameBytes + 2
  nonempty : ∀ chunk ∈ chunks, chunk ≠ []
  eof : reader.eof = true → chunks = []

theorem within_new (maxFrameBytes : Nat) {chunks : Chunks} (h : ∀ chunk ∈ chunks, chunk ≠ []) :
    (new maxFrameBytes).Within chunks where
  start := Nat.le_refl 0
  room := Nat.zero_le _
  nonempty := h
  eof := by intro he; simp [new] at he

variable {self self' : JsonLinesReader} {chunks : Chunks} {size : Nat}

/-- What is still to be answered for: the unread bytes, then those to come. -/
def pending (self : JsonLinesReader) (chunks : Chunks) : List UInt8 :=
  self.unread ++ chunks.flatten

theorem length_unread (self : JsonLinesReader) :
    self.unread.length = self.buffer.length - self.start := List.length_drop

@[simp] theorem compact_unread (self : JsonLinesReader) :
    self.compact.buffer = self.compact.unread ∧ self.compact.unread = self.unread
      ∧ self.compact.start = 0 ∧ self.compact.maxFrameBytes = self.maxFrameBytes := by
  unfold compact
  split
  · exact ⟨rfl, rfl, rfl, rfl⟩
  · have h0 : self.start = 0 := by omega
    have hall : self.unread = self.buffer := by
      unfold unread
      rw [h0]
      rfl
    exact ⟨hall.symm, rfl, h0, rfl⟩

/-- A read is asked for no more than what is missing to the limit. -/
theorem pass_read_room (h : self.pass fromStr = .read self' size) :
    1 ≤ size ∧ self'.buffer.length + size ≤ self'.maxFrameBytes + 2 := by
  obtain ⟨-, hroom, -, rfl, rfl⟩ := pass_read h
  obtain ⟨hbuffer, hunread, -, hmax⟩ := self.compact_unread
  have hlength : self.compact.buffer.length ≤ self.maxFrameBytes + 1 := by
    rw [hbuffer, hunread, length_unread]
    exact hroom
  unfold chunkSize
  rw [hmax]
  omega

theorem read_nonempty (h : ∀ chunk ∈ chunks, chunk ≠ []) (size : Nat) :
    ∀ chunk ∈ (chunks.read size).2, chunk ≠ [] := by
  unfold Chunks.read
  rcases chunks with _ | ⟨chunk, rest⟩
  · exact h
  · dsimp only
    split
    · exact fun c hc => h c (List.mem_cons_of_mem _ hc)
    · rename_i hlong
      intro c hc
      rcases List.mem_cons.mp hc with rfl | hc
      · rw [Ne, List.drop_eq_nil_iff]
        exact hlong
      · exact h c (List.mem_cons_of_mem _ hc)

/-- Only the end of the stream answers a read with nothing. -/
theorem read_isEmpty (h : ∀ chunk ∈ chunks, chunk ≠ []) (hsize : 1 ≤ size)
    (hempty : (chunks.read size).1.isEmpty = true) : (chunks.read size).2 = [] := by
  unfold Chunks.read at hempty ⊢
  rcases chunks with _ | ⟨chunk, rest⟩
  · rfl
  · exfalso
    have hne := h chunk List.mem_cons_self
    rw [List.isEmpty_iff, List.take_eq_nil_iff] at hempty
    rcases hempty with h0 | hnil
    · omega
    · exact hne hnil

/-- A read keeps the invariant and what is pending. -/
theorem within_receive (h : self.Within chunks) (hpass : self.pass fromStr = .read self' size) :
    (self'.receive (chunks.read size).1).Within (chunks.read size).2
      ∧ (self'.receive (chunks.read size).1).pending (chunks.read size).2
        = self.pending chunks
      ∧ (self'.receive (chunks.read size).1).maxFrameBytes = self.maxFrameBytes := by
  obtain ⟨hsize, hroom⟩ := pass_read_room hpass
  obtain ⟨-, -, heof, rfl, rfl⟩ := pass_read hpass
  obtain ⟨hbuffer, hunread, hstart, hmax⟩ := self.compact_unread
  have htaken : (chunks.read self.compact.chunkSize).1.length ≤ self.compact.chunkSize := by
    unfold Chunks.read
    split
    · exact Nat.zero_le _
    · rw [List.length_take]
      omega
  have hreceived : (self.compact.receive (chunks.read self.compact.chunkSize).1).unread
      = self.unread ++ (chunks.read self.compact.chunkSize).1 := by
    show (self.compact.buffer ++ _).drop self.compact.start = _
    rw [hstart, hbuffer, hunread]
    rfl
  refine ⟨⟨?_, ?_, read_nonempty h.nonempty _, ?_⟩, ?_, hmax⟩
  · show self.compact.start ≤ _
    rw [hstart]
    exact Nat.zero_le _
  · show _ ≤ self.compact.maxFrameBytes + 2
    rw [hreceived, List.length_append]
    rw [hbuffer, hunread] at hroom
    omega
  · intro he
    have hempty : (chunks.read self.compact.chunkSize).1.isEmpty = true := by
      simpa [receive, heof] using he
    exact read_isEmpty h.nonempty hsize hempty
  · unfold pending
    rw [hreceived, List.append_assoc, chunks.read_append]

/-! ## One call of `next` -/

/-- What a call answers for the bytes pending, and what it leaves pending. -/
def Answers (fromStr : String → Except String Json) (maxFrameBytes : Nat)
    (bytes : List UInt8) (left : List UInt8) : Result (Option Json) → Prop
  | .ok (some value) => ∃ line, lf ∉ line ∧ bytes = line ++ lf :: left
      ∧ frameValue fromStr maxFrameBytes line = some value
  | .ok none => bytes = []
  | .error _ => (∃ line rest, lf ∉ line ∧ bytes = line ++ lf :: rest
      ∧ frameValue fromStr maxFrameBytes line = none) ∨ (lf ∉ bytes ∧ bytes ≠ [])

/-- A newline among the bytes splits them at the first one. -/
theorem exists_line {bytes : List UInt8} (h : lf ∈ bytes) :
    ∃ line rest, lf ∉ line ∧ bytes = line ++ lf :: rest := by
  obtain ⟨line, rest, hsplit, hline⟩ := List.eq_append_cons_of_mem h
  exact ⟨line, rest, hline, hsplit⟩

/-- Bytes without a newline are a part of the first line. -/
theorem length_le_of_notMem {bytes more line rest : List UInt8} (hbytes : lf ∉ bytes)
    (h : bytes ++ more = line ++ lf :: rest) : bytes.length ≤ line.length := by
  rcases Nat.lt_or_ge line.length bytes.length with hlt | hge
  · exfalso
    have hget : bytes[line.length]? = some lf := by
      rw [← List.getElem?_append_left hlt, h]
      simp
    exact hbytes (List.mem_of_getElem? hget)
  · exact hge

/-- The search of `next` finds the first newline. -/
theorem findIdx?_line {line rest : List UInt8} (hline : lf ∉ line) :
    (line ++ lf :: rest).findIdx? (· == lf) = some line.length := by
  induction line with
  | nil => simp [List.findIdx?_cons]
  | cons byte line ih =>
      simp only [List.mem_cons, not_or] at hline
      have hne : (byte == lf) = false := by
        rw [beq_eq_false_iff_ne]
        exact fun he => hline.1 he.symm
      rw [List.cons_append, List.findIdx?_cons, hne, ih hline.2]
      simp

theorem findIdx?_tail {tail : List UInt8} (htail : lf ∉ tail) :
    tail.findIdx? (· == lf) = none := by
  rw [List.findIdx?_eq_none_iff]
  intro byte hbyte
  rw [beq_eq_false_iff_ne]
  rintro rfl
  exact htail hbyte

/-- The frame that `next` cuts out of the buffer is the stripped line. -/
theorem take_frameEnd {line rest : List UInt8} (h : self.unread = line ++ lf :: rest) :
    self.unread.take (self.frameEnd (self.start + line.length) - self.start) = stripCr line := by
  have hlast : 0 < line.length →
      self.buffer[self.start + line.length - 1]? = line.getLast? := by
    intro hpos
    have hdrop : self.unread[line.length - 1]? = self.buffer[self.start + line.length - 1]? := by
      unfold unread
      rw [List.getElem?_drop]
      congr 1
      omega
    rw [← hdrop, h, List.getElem?_append_left (by omega), List.getLast?_eq_getElem?]
  unfold frameEnd stripCr
  rcases Nat.eq_zero_or_pos line.length with h0 | hpos
  · have hnil : line = [] := List.eq_nil_of_length_eq_zero h0
    subst hnil
    simp
  · rw [hlast hpos]
    by_cases hcr : line.getLast? = some cr
    · rw [hcr, if_pos (by simp; omega), if_pos rfl, h]
      rw [show self.start + line.length - 1 - self.start = line.length - 1 by omega,
        List.take_append_of_le_length (by omega), List.dropLast_eq_take]
    · rw [if_neg (by simp [hcr]), if_neg hcr, h,
        show self.start + line.length - self.start = line.length by omega,
        List.take_left']
      rfl

/-- After a line is answered for, what follows it is unread. -/
theorem unread_advance {line rest : List UInt8} (h : self.unread = line ++ lf :: rest) :
    (self.advance (self.start + line.length)).unread = rest
      ∧ (self.advance (self.start + line.length)).start
        ≤ (self.advance (self.start + line.length)).buffer.length
      ∧ (self.advance (self.start + line.length)).maxFrameBytes = self.maxFrameBytes
      ∧ (self.advance (self.start + line.length)).eof = self.eof := by
  have hlength : self.buffer.length - self.start = line.length + (rest.length + 1) := by
    rw [← length_unread, h, List.length_append, List.length_cons]
  have hdrop : self.buffer.drop (self.start + line.length + 1) = rest := by
    have : self.unread.drop (line.length + 1) = rest := by
      rw [h, List.drop_append, List.drop_of_length_le (by omega)]
      simp
    rw [← this]
    unfold unread
    rw [List.drop_drop]
    congr 1
  unfold advance
  split
  · rename_i hall
    refine ⟨?_, Nat.le_refl 0, rfl, rfl⟩
    rw [← hdrop, List.drop_of_length_le (by omega)]
    rfl
  · refine ⟨hdrop, ?_, rfl, rfl⟩
    show self.start + line.length + 1 ≤ self.buffer.length
    omega

/-- A pass over a buffer in which a line ends answers for the line. -/
theorem pass_line (fromStr : String → Except String Json) {line rest : List UInt8}
    (hline : lf ∉ line) (h : self.unread = line ++ lf :: rest) :
    (∃ value, frameValue fromStr self.maxFrameBytes line = some value
        ∧ self.pass fromStr
          = .returned (.ok (some value)) (self.advance (self.start + line.length)))
      ∨ (frameValue fromStr self.maxFrameBytes line = none
        ∧ ∃ error left, (left = self ∨ left = self.advance (self.start + line.length))
          ∧ self.pass fromStr = .returned (.error error) left) := by
  unfold pass frameValue
  have hfind : self.unread.findIdx? (· == lf) = some line.length := by
    rw [h]
    exact findIdx?_line hline
  rw [hfind]
  dsimp only
  rw [take_frameEnd h]
  by_cases hlong : (stripCr line).length > self.maxFrameBytes
  · rw [if_pos hlong, if_neg (by rintro ⟨hle, _⟩; omega)]
    exact Or.inr ⟨rfl, _, _, Or.inl rfl, rfl⟩
  · rw [if_neg hlong]
    by_cases hempty : stripCr line = []
    · have hisEmpty : (stripCr line).isEmpty = true := by rw [hempty]; rfl
      have hvalue : ¬ ((stripCr line).length ≤ self.maxFrameBytes ∧ stripCr line ≠ []) :=
        fun hframe => hframe.2 hempty
      rw [if_pos hisEmpty, if_neg hvalue]
      exact Or.inr ⟨rfl, _, _, Or.inl rfl, rfl⟩
    · have hisEmpty : ¬ (stripCr line).isEmpty = true := by simpa using hempty
      have hvalue : (stripCr line).length ≤ self.maxFrameBytes ∧ stripCr line ≠ [] :=
        ⟨by omega, hempty⟩
      rw [if_neg hisEmpty, if_pos hvalue]
      rcases hparse : parseFrame fromStr (stripCr line) with error | value
      · exact Or.inr ⟨rfl, error, _, Or.inr rfl, rfl⟩
      · exact Or.inl ⟨value, rfl, rfl⟩

/-- A pass over a buffer in which no line ends fails, ends or reads. -/
theorem pass_tail (fromStr : String → Except String Json) (htail : lf ∉ self.unread) :
    (self.maxFrameBytes + 1 < self.unread.length
        ∧ ∃ error, self.pass fromStr = .returned (.error error) self)
      ∨ (self.eof = true ∧ self.unread = [] ∧ self.pass fromStr = .returned (.ok none) self)
      ∨ (self.eof = true ∧ self.unread ≠ []
        ∧ ∃ error, self.pass fromStr = .returned (.error error) self)
      ∨ self.pass fromStr = .read self.compact self.compact.chunkSize := by
  unfold pass
  rw [findIdx?_tail htail]
  dsimp only
  rw [← length_unread]
  by_cases hlong : self.unread.length > self.maxFrameBytes + 1
  · rw [if_pos hlong]
    exact Or.inl ⟨hlong, _, rfl⟩
  · rw [if_neg hlong]
    by_cases heof : self.eof = true
    · rw [if_pos heof]
      by_cases hnil : self.unread = []
      · rw [if_pos (by rw [hnil]; rfl)]
        exact Or.inr (Or.inl ⟨heof, hnil, rfl⟩)
      · rw [if_neg (fun h0 => hnil (List.eq_nil_of_length_eq_zero h0))]
        exact Or.inr (Or.inr (Or.inl ⟨heof, hnil, _, rfl⟩))
    · rw [if_neg heof]
      exact Or.inr (Or.inr (Or.inr rfl))

/-- Answering for a line keeps the invariant. -/
theorem within_advance (h : self.Within chunks) {line rest : List UInt8}
    (hsplit : self.unread = line ++ lf :: rest) :
    (self.advance (self.start + line.length)).Within chunks := by
  obtain ⟨hunread, hstart, hmax, heof⟩ := unread_advance hsplit
  refine ⟨hstart, ?_, h.nonempty, fun he => h.eof (by rw [← heof]; exact he)⟩
  have hroom := h.room
  rw [hsplit, List.length_append, List.length_cons] at hroom
  rw [hunread, hmax]
  omega

/-- A pass that returns answers for what is pending, and a value leaves the rest pending. -/
theorem pass_returned (h : self.Within chunks) {result : Result (Option Json)}
    (hpass : self.pass fromStr = .returned result self') :
    self'.Within chunks ∧ self'.maxFrameBytes = self.maxFrameBytes
      ∧ Answers fromStr self.maxFrameBytes (self.pending chunks) (self'.pending chunks) result := by
  by_cases hlf : lf ∈ self.unread
  · obtain ⟨line, rest, hline, hsplit⟩ := exists_line hlf
    have hpending : self.pending chunks = line ++ lf :: (rest ++ chunks.flatten) := by
      unfold pending
      rw [hsplit, List.append_assoc, List.cons_append]
    obtain ⟨hunread, -, hmax, -⟩ := unread_advance hsplit
    rcases pass_line fromStr hline hsplit with
      ⟨value, hvalue, heq⟩ | ⟨hnone, error, left, hleft, heq⟩
    · rw [heq] at hpass
      cases hpass
      refine ⟨within_advance h hsplit, hmax, line, hline, ?_, hvalue⟩
      rw [hpending]
      unfold pending
      rw [hunread]
    · rw [heq] at hpass
      cases hpass
      have hanswer : ∀ bytes, Answers fromStr self.maxFrameBytes (self.pending chunks) bytes
          (.error error) :=
        fun _ => Or.inl ⟨line, rest ++ chunks.flatten, hline, hpending, hnone⟩
      rcases hleft with rfl | rfl
      · exact ⟨h, rfl, hanswer _⟩
      · exact ⟨within_advance h hsplit, hmax, hanswer _⟩
  · rcases pass_tail fromStr hlf with ⟨hlong, error, heq⟩ | ⟨heof, hnil, heq⟩
      | ⟨heof, hne, error, heq⟩ | heq
    · rw [heq] at hpass
      cases hpass
      refine ⟨h, rfl, ?_⟩
      have hne : self.pending chunks ≠ [] := by
        intro hnil
        have : self.unread = [] := (List.append_eq_nil_iff.mp hnil).1
        rw [this] at hlong
        simp at hlong
      by_cases hmore : lf ∈ self.pending chunks
      · -- the line that is still growing is too long already
        obtain ⟨line, rest, hline, hsplit⟩ := exists_line hmore
        refine Or.inl ⟨line, rest, hline, hsplit, frameValue_of_long ?_⟩
        have hprefix := length_le_of_notMem hlf hsplit
        omega
      · exact Or.inr ⟨hmore, hne⟩
    · rw [heq] at hpass
      cases hpass
      refine ⟨h, rfl, ?_⟩
      show self.pending chunks = []
      unfold pending
      rw [hnil, h.eof heof]
      rfl
    · rw [heq] at hpass
      cases hpass
      refine ⟨h, rfl, Or.inr ?_⟩
      unfold pending
      rw [h.eof heof, List.flatten_nil, List.append_nil]
      exact ⟨hlf, hne⟩
    · rw [heq] at hpass
      simp at hpass

/-- A call of `next` answers for what is pending. -/
theorem next_answers (fromStr : String → Except String Json) (h : self.Within chunks) :
    (self.next fromStr chunks).2.1.Within (self.next fromStr chunks).2.2
      ∧ (self.next fromStr chunks).2.1.maxFrameBytes = self.maxFrameBytes
      ∧ Answers fromStr self.maxFrameBytes (self.pending chunks)
        ((self.next fromStr chunks).2.1.pending (self.next fromStr chunks).2.2)
        (self.next fromStr chunks).1 := by
  induction self, chunks using next.induct fromStr with
  | case1 self chunks result self' hpass =>
      have hnext : self.next fromStr chunks = (result, self', chunks) := by
        rw [next]
        split
        · rename_i heq
          rw [hpass] at heq
          cases heq
          rfl
        · rename_i heq
          rw [hpass] at heq
          simp at heq
      rw [hnext]
      exact pass_returned h hpass
  | case2 self chunks self' size hpass ih =>
      have hnext : self.next fromStr chunks
          = (self'.receive (chunks.read size).1).next fromStr (chunks.read size).2 := by
        rw [next]
        split
        · rename_i heq
          rw [hpass] at heq
          simp at heq
        · rename_i heq
          rw [hpass] at heq
          cases heq
          rfl
      obtain ⟨hwithin, hpending, hmax⟩ := within_receive h hpass
      rw [hnext]
      have hrest := ih hwithin
      rw [hpending, hmax] at hrest
      exact hrest

/-! ## Reading to the end -/

/-- What repeated calls of `next` bring, up to the first failure or the end. -/
inductive Reads (fromStr : String → Except String Json) :
    JsonLinesReader → Chunks → List Outcome → Prop where
  | value {self self' : JsonLinesReader} {chunks chunks' : Chunks} {value : Json}
      {outcomes : List Outcome} : self.next fromStr chunks = (.ok (some value), self', chunks') →
      Reads fromStr self' chunks' outcomes → Reads fromStr self chunks (.value value :: outcomes)
  | failure {self self' : JsonLinesReader} {chunks chunks' : Chunks} {error : Error} :
      self.next fromStr chunks = (.error error, self', chunks') →
      Reads fromStr self chunks [.failure]
  | finished {self self' : JsonLinesReader} {chunks chunks' : Chunks} :
      self.next fromStr chunks = (.ok none, self', chunks') → Reads fromStr self chunks [.finished]

/-- Whatever is read is what the pending bytes mean. -/
theorem reads_reference {outcomes : List Outcome} (hreads : Reads fromStr self chunks outcomes)
    (h : self.Within chunks) :
    outcomes = reference fromStr self.maxFrameBytes (self.pending chunks) := by
  induction hreads with
  | value hnext _ ih =>
      obtain ⟨hwithin, hmax, hanswer⟩ := next_answers fromStr h
      rw [hnext] at hwithin hmax hanswer
      obtain ⟨line, hline, hsplit, hvalue⟩ := hanswer
      rw [ih hwithin, hmax, hsplit, reference_line _ hline, hvalue]
  | failure hnext =>
      obtain ⟨-, -, hanswer⟩ := next_answers fromStr h
      rw [hnext] at hanswer
      rcases hanswer with ⟨line, rest, hline, hsplit, hnone⟩ | ⟨htail, hne⟩
      · rw [hsplit, reference_line _ hline, hnone]
      · rw [reference_tail _ htail, if_neg hne]
  | finished hnext =>
      obtain ⟨-, -, hanswer⟩ := next_answers fromStr h
      rw [hnext] at hanswer
      have hnil : _ = [] := hanswer
      rw [hnil, reference_tail _ (by simp), if_pos rfl]

/-- Reading comes to an end: every value takes a line of the pending bytes. -/
theorem reads_total (fromStr : String → Except String Json) (h : self.Within chunks) :
    ∃ outcomes, Reads fromStr self chunks outcomes := by
  -- strong induction on how many bytes are pending
  generalize hlength : (self.pending chunks).length = n
  induction n using Nat.strong_induction_on generalizing self chunks with
  | _ n ih =>
      obtain ⟨hwithin, -, hanswer⟩ := next_answers fromStr h
      rcases hnext : self.next fromStr chunks with ⟨result, self', chunks'⟩
      rw [hnext] at hwithin hanswer
      rcases result with error | value
      · exact ⟨_, .failure hnext⟩
      · rcases value with _ | value
        · exact ⟨_, .finished hnext⟩
        · obtain ⟨line, -, hsplit, -⟩ := hanswer
          have hlt : (self'.pending chunks').length < n := by
            rw [← hlength, hsplit, List.length_append, List.length_cons]
            show (self'.pending chunks').length < line.length + ((self'.pending chunks').length + 1)
            omega
          obtain ⟨outcomes, hreads⟩ := ih _ hlt hwithin rfl
          exact ⟨_, .value hnext hreads⟩

/-- The states between two passes of the loop, over all calls of `next`. -/
inductive Visits (fromStr : String → Except String Json) (maxFrameBytes : Nat) (stream : Chunks) :
    JsonLinesReader → Chunks → Prop where
  | new : Visits fromStr maxFrameBytes stream (new maxFrameBytes) stream
  | read {self self' : JsonLinesReader} {chunks : Chunks} {size : Nat} :
      Visits fromStr maxFrameBytes stream self chunks → self.pass fromStr = .read self' size →
      Visits fromStr maxFrameBytes stream (self'.receive (chunks.read size).1)
        (chunks.read size).2
  | returned {self self' : JsonLinesReader} {chunks : Chunks} {result : Result (Option Json)} :
      Visits fromStr maxFrameBytes stream self chunks →
      self.pass fromStr = .returned result self' →
      Visits fromStr maxFrameBytes stream self' chunks

theorem visits_within {maxFrameBytes : Nat} {stream : Chunks}
    (hstream : ∀ chunk ∈ stream, chunk ≠ [])
    (h : Visits fromStr maxFrameBytes stream self chunks) :
    self.Within chunks ∧ self.maxFrameBytes = maxFrameBytes := by
  induction h with
  | new => exact ⟨within_new maxFrameBytes hstream, rfl⟩
  | read _ hpass ih =>
      obtain ⟨hwithin, -, hmax⟩ := within_receive ih.1 hpass
      exact ⟨hwithin, hmax.trans ih.2⟩
  | returned _ hpass ih =>
      obtain ⟨hwithin, hmax, -⟩ := pass_returned ih.1 hpass
      exact ⟨hwithin, hmax.trans ih.2⟩

/--
**Framing is independent of chunking.**

However a stream is cut into non-empty chunks, what repeated calls of `next` bring, up to
the first failure or the end, is exactly what the bytes mean: one outcome for each line
between newlines. And at no point are more than `maxFrameBytes + 2` bytes unread in the
buffer, the room that a read is given included.
-/
theorem framing_independent_of_chunks (fromStr : String → Except String Json)
    (maxFrameBytes : Nat) (stream : Chunks) (hstream : ∀ chunk ∈ stream, chunk ≠ []) :
    (∀ outcomes, Reads fromStr (new maxFrameBytes) stream outcomes
        ↔ outcomes = reference fromStr maxFrameBytes stream.flatten)
      ∧ ∀ self chunks, Visits fromStr maxFrameBytes stream self chunks →
        self.unread.length ≤ maxFrameBytes + 2
        ∧ ∀ self' size, self.pass fromStr = .read self' size →
          self'.buffer.length + size ≤ maxFrameBytes + 2 := by
  have hnew := within_new maxFrameBytes hstream
  refine ⟨fun outcomes => ⟨fun hreads => reads_reference hreads hnew, ?_⟩, ?_⟩
  · rintro rfl
    obtain ⟨outcomes, hreads⟩ := reads_total fromStr hnew
    have heq := reads_reference hreads hnew
    rw [heq] at hreads
    exact hreads
  · intro self chunks hvisits
    obtain ⟨hwithin, hmax⟩ := visits_within hstream hvisits
    refine ⟨by rw [← hmax]; exact hwithin.room, fun self' size hpass => ?_⟩
    obtain ⟨-, hroom⟩ := pass_read_room hpass
    obtain ⟨-, -, -, rfl, -⟩ := pass_read hpass
    rw [self.compact_unread.2.2.2, hmax] at hroom
    exact hroom

/-- A parser that reads what is valid JSON. -/
def readFrame (text : String) : Except String Json :=
  match Json.read text with
  | some value => .ok value
  | none => .error "expected value"

/-- Two frames, cut inside the first line and before the newline of the second. -/
theorem framing_independent_of_chunks_cut :
    Reads readFrame (new 2) [[0x31], [0x32, 0x0d, 0x0a, 0x33], [0x0a]]
      [.value (.number "12"), .value (.number "3"), .finished] := by
  have hframing := framing_independent_of_chunks readFrame 2
    [[0x31], [0x32, 0x0d, 0x0a, 0x33], [0x0a]] (by simp)
  exact (hframing.1 _).mpr (by rfl)

end JsonLinesReader

end Vergerail
