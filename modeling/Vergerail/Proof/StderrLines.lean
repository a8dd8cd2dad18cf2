import Vergerail.Private.Stderr
import Vergerail.Proof.Framing

/-!
# The captured lines do not depend on how the bytes arrive

What `capture_stderr` has still to push depends on what is pending, on whether the rest of
a line is being skipped, and on the bytes to come, and not on the reads that bring them.
The line that is given up when it has grown too long and the line that is found too long
at its newline are the same lines: no newline is pending, so what is pending is a part of
the line whose newline comes next, and the line is longer than the limit if its part is.
-/

namespace Vergerail

open JsonLinesReader (stripCr exists_line findIdx?_line findIdx?_tail)

namespace StderrReference

/-! ## The reference -/

/-- What a line that ended stands for. -/
def lineText (line : List UInt8) : String :=
  if line.length > maxStderrLineBytes then oversizedStderrLine else fromUtf8Lossy (stripCr line)

/-- What the bytes after the last newline stand for. -/
def restText (rest : List UInt8) : String :=
  if rest.length > maxStderrLineBytes then oversizedStderrLine else fromUtf8Lossy rest

/-- One text for each line; the last piece is what follows the last newline. -/
def texts : List (List UInt8) → List String
  | [] => []
  | [rest] => if rest = [] then [] else [restText rest]
  | line :: line' :: more => lineText line :: texts (line' :: more)

/-- What a stream of bytes means: it is split at every newline. -/
def reference (bytes : List UInt8) : List String := texts (bytes.splitOn lf)

theorem reference_line {line : List UInt8} (hline : lf ∉ line) (more : List UInt8) :
    reference (line ++ lf :: more) = lineText line :: reference more := by
  unfold reference
  rw [List.splitOn_append_cons_self, List.splitOn_eq_singleton hline, List.singleton_append]
  rcases hsplit : more.splitOn lf with _ | ⟨line', more'⟩
  · exact absurd hsplit (List.splitOn_ne_nil lf more)
  · rfl

theorem reference_rest {rest : List UInt8} (hrest : lf ∉ rest) :
    reference rest = if rest = [] then [] else [restText rest] := by
  unfold reference
  rw [List.splitOn_eq_singleton hrest]
  rfl

/-- The bytes after a line and its newline. -/
theorem drop_line (line more : List UInt8) :
    (line ++ lf :: more).drop (line.length + 1) = more := by
  rw [List.drop_append, List.drop_of_length_le (by omega), List.nil_append,
    Nat.add_sub_cancel_left]
  rfl

/-- What is left to push when the rest of a line is skipped. -/
def afterLine (bytes : List UInt8) : List String :=
  match bytes.findIdx? (· == lf) with
  | none => []
  | some position => reference (bytes.drop (position + 1))

theorem afterLine_line {line : List UInt8} (hline : lf ∉ line) (more : List UInt8) :
    afterLine (line ++ lf :: more) = reference more := by
  unfold afterLine
  rw [findIdx?_line hline]
  dsimp only
  rw [drop_line]

theorem afterLine_rest {rest : List UInt8} (hrest : lf ∉ rest) : afterLine rest = [] := by
  unfold afterLine
  rw [findIdx?_tail hrest]

/-- Bytes that are skipped leave nothing. -/
theorem afterLine_append {bytes : List UInt8} (hbytes : lf ∉ bytes) (more : List UInt8) :
    afterLine (bytes ++ more) = afterLine more := by
  by_cases hmore : lf ∈ more
  · obtain ⟨line, more', hline, rfl⟩ := exists_line hmore
    rw [← List.append_assoc, afterLine_line hline, afterLine_line]
    rw [List.mem_append]
    exact not_or.mpr ⟨hbytes, hline⟩
  · rw [afterLine_rest hmore, afterLine_rest]
    rw [List.mem_append]
    exact not_or.mpr ⟨hbytes, hmore⟩

/-- A line that is too long already brings one marker, whatever it goes on with. -/
theorem reference_oversized {pending : List UInt8} (hpending : lf ∉ pending)
    (hlong : maxStderrLineBytes < pending.length) (more : List UInt8) :
    reference (pending ++ more) = oversizedStderrLine :: afterLine more := by
  by_cases hmore : lf ∈ more
  · obtain ⟨line, more', hline, rfl⟩ := exists_line hmore
    have hwhole : lf ∉ pending ++ line := by
      rw [List.mem_append]
      exact not_or.mpr ⟨hpending, hline⟩
    have hlength : (pending ++ line).length > maxStderrLineBytes := by
      rw [List.length_append]
      omega
    rw [← List.append_assoc, reference_line hwhole, afterLine_line hline]
    unfold lineText
    rw [if_pos hlength]
  · have hwhole : lf ∉ pending ++ more := by
      rw [List.mem_append]
      exact not_or.mpr ⟨hpending, hmore⟩
    have hlength : (pending ++ more).length > maxStderrLineBytes := by
      rw [List.length_append]
      omega
    have hne : pending ++ more ≠ [] := by
      intro hnil
      rw [hnil] at hlength
      exact absurd hlength (Nat.not_lt_zero _)
    rw [reference_rest hwhole, if_neg hne, afterLine_rest hmore]
    unfold restText
    rw [if_pos hlength]

end StderrReference

open StderrReference

/-! ## The inner loop -/

/-- The line that is cut out of the buffer is the line of the stream. -/
theorem stderrLine_eq {line : List UInt8} (more : List UInt8) :
    stderrLine (line ++ lf :: more) line.length = lineText line := by
  unfold stderrLine lineText
  dsimp only
  split
  · rfl
  · congr 1
    unfold stripCr
    rcases List.eq_nil_or_concat line with rfl | ⟨front, last, rfl⟩
    · rfl
    · rw [List.concat_eq_append, List.length_append, List.length_singleton,
        Nat.add_sub_cancel, List.getLast?_concat, List.dropLast_concat]
      have hlast : (front ++ [last] ++ lf :: more)[front.length]? = some last := by
        rw [List.append_assoc, List.getElem?_append_right (Nat.le_refl _), Nat.sub_self]
        rfl
      rw [hlast]
      by_cases hcr : last = cr
      · subst hcr
        rw [if_pos (by simp), if_pos rfl, List.append_assoc]
        exact List.take_left' rfl
      · rw [if_neg (by simp [hcr]), if_neg (by simpa using hcr)]
        exact List.take_left' (by rw [List.length_append, List.length_singleton])

/-- The inner loop pushes the lines that end in what is unread, and leaves the rest. -/
theorem pushLines_spec (unread : List UInt8) :
    lf ∉ (pushLines unread).2 ∧ ∀ more,
      (pushLines unread).1 ++ reference ((pushLines unread).2 ++ more)
        = reference (unread ++ more) := by
  fun_induction pushLines unread with
  | case1 unread hnone =>
      refine ⟨?_, fun more => rfl⟩
      intro hmem
      obtain ⟨line, rest, hline, rfl⟩ := exists_line hmem
      rw [findIdx?_line hline] at hnone
      cases hnone
  | case2 unread relative hsome lines rest hpush ih =>
      have hmem : lf ∈ unread := by
        obtain ⟨hlt, hlf, -⟩ := List.findIdx?_eq_some_iff_getElem.mp hsome
        rw [← eq_of_beq hlf]
        exact List.getElem_mem hlt
      obtain ⟨line, tail, hline, rfl⟩ := exists_line hmem
      obtain rfl : relative = line.length := by
        rw [findIdx?_line hline] at hsome
        exact (Option.some.inj hsome).symm
      rw [drop_line] at hpush ih
      rw [hpush] at ih
      refine ⟨ih.1, ?_⟩
      intro more
      rw [stderrLine_eq, List.append_assoc, List.cons_append, List.cons_append,
        reference_line hline, ih.2 more]

/-! ## One read -/

namespace CaptureState

/-- What holds between two reads. -/
structure Settled (state : CaptureState) : Prop where
  noLine : lf ∉ state.pending
  small : state.pending.length ≤ maxStderrLineBytes
  /-- Nothing of a line that is skipped is kept. -/
  skipped : state.discardingOversizedLine = true → state.pending = []

theorem settled_new : new.Settled where
  noLine := List.not_mem_nil
  small := Nat.zero_le _
  skipped := fun _ => rfl

/-- What is still to be pushed when `more` is yet to come. -/
def ahead (self : CaptureState) (more : List UInt8) : List String :=
  if self.discardingOversizedLine then afterLine more else reference (self.pending ++ more)

/-- At the end of the stream it is what is left. -/
theorem finish_eq {self : CaptureState} (h : self.Settled) : self.finish = self.ahead [] := by
  unfold finish ahead
  cases hdiscarding : self.discardingOversizedLine with
  | true => rfl
  | false =>
      rw [if_neg Bool.false_ne_true, List.append_nil, reference_rest h.noLine]
      by_cases hempty : self.pending = []
      · rw [if_pos hempty, hempty]
        rfl
      · have hsome : (!false && !self.pending.isEmpty) = true := by simpa using hempty
        have hsmall : ¬self.pending.length > maxStderrLineBytes := Nat.not_lt.mpr h.small
        unfold restText
        rw [if_pos hsome, if_neg hempty, if_neg hsmall]

/-- What the inner loop leaves is settled. -/
theorem ofUnread_spec (unread : List UInt8) :
    (ofUnread unread).2.Settled ∧ ∀ more,
      (ofUnread unread).1 ++ (ofUnread unread).2.ahead more = reference (unread ++ more) := by
  obtain ⟨hnoLine, hpush⟩ := pushLines_spec unread
  unfold ofUnread
  dsimp only
  split
  · rename_i hlong
    refine ⟨⟨List.not_mem_nil, Nat.zero_le _, fun _ => rfl⟩, fun more => ?_⟩
    change (pushLines unread).1 ++ [oversizedStderrLine] ++ afterLine more = _
    rw [← hpush more, reference_oversized hnoLine hlong, List.append_assoc]
    rfl
  · rename_i hsmall
    exact ⟨⟨hnoLine, Nat.not_lt.mp hsmall, fun hd => nomatch hd⟩, hpush⟩

/-- A read pushes what its bytes decide, and leaves the rest to be decided. -/
theorem read_spec {self : CaptureState} (h : self.Settled) (bytes : List UInt8) :
    (self.read bytes).2.Settled ∧ ∀ more,
      (self.read bytes).1 ++ (self.read bytes).2.ahead more = self.ahead (bytes ++ more) := by
  unfold read
  dsimp only
  cases hdiscarding : self.discardingOversizedLine with
  | false =>
      obtain ⟨hsettled, hpushed⟩ := ofUnread_spec (self.pending ++ bytes)
      refine ⟨hsettled, fun more => ?_⟩
      have hahead : self.ahead (bytes ++ more) = reference (self.pending ++ (bytes ++ more)) := by
        unfold ahead
        rw [hdiscarding, if_neg Bool.false_ne_true]
      rw [hahead, ← List.append_assoc]
      exact hpushed more
  | true =>
      have hahead : ∀ more, self.ahead more = afterLine more := by
        intro more
        unfold ahead
        rw [hdiscarding, if_pos rfl]
      rw [if_pos rfl, h.skipped hdiscarding, List.nil_append]
      by_cases hline : lf ∈ bytes
      · obtain ⟨line, rest, hnotin, rfl⟩ := exists_line hline
        rw [findIdx?_line hnotin]
        dsimp only
        rw [drop_line]
        obtain ⟨hsettled, hpushed⟩ := ofUnread_spec rest
        refine ⟨hsettled, fun more => ?_⟩
        rw [hpushed more, hahead, List.append_assoc, List.cons_append, afterLine_line hnotin]
      · rw [findIdx?_tail hline]
        refine ⟨⟨List.not_mem_nil, Nat.zero_le _, fun _ => rfl⟩, fun more => ?_⟩
        rw [hahead, afterLine_append hline]
        unfold ahead
        rw [if_pos rfl]
        rfl

/-! ## The run -/

theorem run_eq {self : CaptureState} (h : self.Settled) (chunks : List StderrChunk) :
    self.run chunks = self.ahead (chunks.flatMap StderrChunk.bytes) := by
  induction chunks generalizing self with
  | nil => exact finish_eq h
  | cons chunk chunks ih =>
      obtain ⟨hsettled, hread⟩ := read_spec h chunk.bytes
      rw [List.flatMap_cons, ← hread, ← ih hsettled]
      rfl

end CaptureState

/-- **The captured lines.** However the stream is cut into reads, the lines pushed are what
the bytes mean: one marker for each line that is too long, and the text of every other. -/
theorem captureStderr_eq_reference (chunks : List StderrChunk) :
    captureStderr chunks = reference (chunks.flatMap StderrChunk.bytes) :=
  CaptureState.run_eq CaptureState.settled_new chunks

end Vergerail
