import Vergerail.Diagnostics

/-!
# Diagnostics are bounded and their overflow is reported

What carries the proof is `Stocked`: between two calls the stored reports are a suffix of
what was pushed since the last take, the count of bytes is right, and there is one overflow
marker if a report is missing and none otherwise. A push with room keeps this plainly. In a
push without room the first loop leaves room for the marker beside the new report, so the
second loop finds nothing to do; what the first loop removes is a report, or the marker of a
report that was removed before.
-/

namespace Vergerail

open Lib

/-! ## Sizes -/

theorem saturatingAdd_of_le {a b : Nat} (h : a + b ≤ usizeMax) : saturatingAdd a b = a + b :=
  min_eq_left h

theorem usizeMax_large : 4 * diagnosticTotalBytes ≤ usizeMax := by decide

theorem overflowMarker_bytes : diagnosticBytes overflowMarker = 106 := by decide

/-- The text that `truncateBelow` keeps is the longest start within the limit. -/
theorem toList_truncateBelow (text : String) (limit : Nat) :
    (truncateBelow text limit).toList = takeBytes text.toList limit := by
  rw [truncateBelow, String.toList_ofList, takeBytes_boundaryBelow]

theorem truncateBelow_size_le (text : String) (limit : Nat) :
    (truncateBelow text limit).utf8ByteSize ≤ limit := by
  rw [← utf8Bytes_toList, toList_truncateBelow]
  exact utf8Bytes_takeBytes_le _ _

theorem truncateBelow_of_le {text : String} {limit : Nat} (h : text.utf8ByteSize ≤ limit) :
    truncateBelow text limit = text := by
  apply String.toList_injective
  rw [toList_truncateBelow, takeBytes_of_le]
  rwa [utf8Bytes_toList]

/-- The bytes of a diagnostic, without an end to counting. -/
def Diagnostic.size (d : Diagnostic) : Nat := d.method.utf8ByteSize + d.message.utf8ByteSize

theorem diagnosticBytes_of_le {d : Diagnostic} (h : d.size ≤ diagnosticTotalBytes) :
    diagnosticBytes d = d.size := by
  have hmax := usizeMax_large
  unfold Diagnostic.size at h
  exact saturatingAdd_of_le (by omega)

theorem boundDiagnostic_method_size (d : Diagnostic) :
    (boundDiagnostic d).method.utf8ByteSize ≤ diagnosticItemBytes :=
  Nat.le_trans (truncateBelow_size_le _ _) (Nat.min_le_right _ _)

/-- **A pushed diagnostic is cut to 8 KiB.** -/
theorem boundDiagnostic_size (d : Diagnostic) :
    (boundDiagnostic d).size ≤ diagnosticItemBytes := by
  have hmethod := boundDiagnostic_method_size d
  have hmessage : (boundDiagnostic d).message.utf8ByteSize ≤
      diagnosticItemBytes - (boundDiagnostic d).method.utf8ByteSize := by
    change (if _ < _ then _ else _ : String).utf8ByteSize ≤ _
    split
    · exact truncateBelow_size_le _ _
    · rename_i hshort
      exact Nat.le_of_not_lt hshort
  unfold Diagnostic.size
  omega

/-- It is cut between characters, and at the end only. -/
theorem boundDiagnostic_isPrefix (d : Diagnostic) :
    (boundDiagnostic d).method.toList <+: d.method.toList ∧
      (boundDiagnostic d).message.toList <+: d.message.toList := by
  constructor
  · change (truncateBelow _ _).toList <+: _
    rw [toList_truncateBelow]
    exact takeBytes_isPrefix _ _
  · change (if _ < _ then _ else _ : String).toList <+: _
    split
    · rw [toList_truncateBelow]
      exact takeBytes_isPrefix _ _
    · exact List.prefix_rfl

theorem boundDiagnostic_of_le {d : Diagnostic} (h : d.size ≤ diagnosticItemBytes) :
    boundDiagnostic d = d := by
  unfold Diagnostic.size at h
  have hmethod : truncateBelow d.method (min d.method.utf8ByteSize diagnosticItemBytes) = d.method :=
    truncateBelow_of_le (by omega)
  unfold boundDiagnostic
  rw [hmethod]
  dsimp only
  rw [if_neg (by omega)]

/-- Cutting makes no overflow marker. -/
theorem boundDiagnostic_method_ne {d : Diagnostic} (h : d.method ≠ overflowMethod) :
    (boundDiagnostic d).method ≠ overflowMethod := by
  intro heq
  have hcut : (boundDiagnostic d).method =
      truncateBelow d.method (min d.method.utf8ByteSize diagnosticItemBytes) := rfl
  by_cases hshort : d.method.utf8ByteSize ≤ diagnosticItemBytes
  · rw [hcut, truncateBelow_of_le (by omega)] at heq
    exact h heq
  · -- what was cut is longer than the marker's method
    have hlong : diagnosticItemBytes <
        utf8Bytes (takeBytes d.method.toList diagnosticItemBytes) + 4 :=
      lt_utf8Bytes_takeBytes (by rw [utf8Bytes_toList]; omega)
    rw [← toList_truncateBelow, utf8Bytes_toList] at hlong
    rw [hcut, Nat.min_eq_right (by omega)] at heq
    have hmarker : overflowMethod.utf8ByteSize = 29 := by decide
    rw [heq, hmarker] at hlong
    exact absurd hlong (by decide)

/-! ## Items -/

/-- The stored items but the markers. -/
def reports (items : List Diagnostic) : List Diagnostic :=
  items.filter (fun item => item.method ≠ overflowMethod)

/-- The stored markers. -/
def markers (items : List Diagnostic) : List Diagnostic :=
  items.filter (fun item => item.method = overflowMethod)

theorem reports_append (xs ys : List Diagnostic) : reports (xs ++ ys) = reports xs ++ reports ys :=
  List.filter_append ..

theorem markers_append (xs ys : List Diagnostic) : markers (xs ++ ys) = markers xs ++ markers ys :=
  List.filter_append ..

theorem totalBytes_append (xs ys : List Diagnostic) :
    totalBytes (xs ++ ys) = totalBytes xs + totalBytes ys := by
  rw [totalBytes, List.map_append, List.sum_append]
  rfl

@[simp] theorem totalBytes_nil : totalBytes [] = 0 := rfl

@[simp] theorem totalBytes_cons (d : Diagnostic) (items : List Diagnostic) :
    totalBytes (d :: items) = diagnosticBytes d + totalBytes items := by
  rw [totalBytes, List.map_cons, List.sum_cons]
  rfl

theorem hasOverflow_iff {items : List Diagnostic} :
    hasOverflow items = true ↔ 0 < (markers items).length := by
  rw [hasOverflow, List.any_eq_true, List.length_pos_iff_exists_mem]
  simp only [markers, List.mem_filter]

theorem reports_of_report {d : Diagnostic} (h : d.method ≠ overflowMethod) : reports [d] = [d] := by
  simp [reports, h]

theorem markers_of_report {d : Diagnostic} (h : d.method ≠ overflowMethod) : markers [d] = [] := by
  simp [markers, h]

theorem reports_marker : reports [overflowMarker] = [] := rfl

theorem markers_marker : markers [overflowMarker] = [overflowMarker] := rfl

/-- An item is a report or a marker. -/
theorem length_reports_markers (items : List Diagnostic) :
    (reports items).length + (markers items).length = items.length := by
  induction items with
  | nil => rfl
  | cons d items ih =>
      by_cases h : d.method = overflowMethod
      · simp only [reports, markers, List.filter_cons, h, ne_eq, not_true_eq_false, decide_false,
          decide_true, if_true, Bool.false_eq_true, if_false, List.length_cons] at ih ⊢
        omega
      · simp only [reports, markers, List.filter_cons, h, ne_eq, not_false_eq_true, decide_false,
          decide_true, if_true, Bool.false_eq_true, if_false, List.length_cons] at ih ⊢
        omega

/-! ## The loops -/

/-- **What a loop of `push` removes**: the oldest items, until there is not too much. -/
theorem evictWhile_spec (tooMuch : List Diagnostic → Nat → Bool) (items : List Diagnostic) :
    ∃ evicted rest, items = evicted ++ rest ∧
      evictWhile tooMuch items (totalBytes items) = (rest, totalBytes rest) ∧
      (rest = [] ∨ tooMuch rest (totalBytes rest) = false) ∧
      (items ≠ [] → tooMuch items (totalBytes items) = true → evicted ≠ []) := by
  induction items with
  | nil => exact ⟨[], [], rfl, rfl, .inl rfl, fun h => absurd rfl h⟩
  | cons d items ih =>
      by_cases hmuch : tooMuch (d :: items) (totalBytes (d :: items)) = true
      · obtain ⟨evicted, rest, hitems, hloop, hrest, -⟩ := ih
        refine ⟨d :: evicted, rest, by rw [hitems]; rfl, ?_, hrest, fun _ _ => by simp⟩
        rw [evictWhile, if_pos hmuch, totalBytes_cons, Nat.add_sub_cancel_left, hloop]
      · refine ⟨[], d :: items, rfl, ?_, .inr (Bool.eq_false_iff.mpr hmuch), ?_⟩
        · rw [evictWhile, if_neg hmuch]
        · exact fun _ h => absurd h hmuch

theorem evictWhile_of_room {tooMuch : List Diagnostic → Nat → Bool} {items : List Diagnostic}
    {bytes : Nat} (h : tooMuch items bytes = false) :
    evictWhile tooMuch items bytes = (items, bytes) := by
  cases items with
  | nil => rfl
  | cons d items => rw [evictWhile, if_neg (by rw [h]; exact Bool.false_ne_true)]

/-! ## One push -/

/-- Within the bounds that `push` keeps. -/
def Bounded (items : List Diagnostic) : Prop :=
  items.length ≤ diagnosticCapacity ∧ totalBytes items ≤ diagnosticTotalBytes

variable {items : List Diagnostic} {size bytes : Nat}

/-- There is room exactly when one more item of the size stays within the bounds. -/
theorem isFull_eq_false (hsize : size ≤ diagnosticItemBytes) (hbytes : bytes ≤ diagnosticTotalBytes) :
    isFull size items bytes = false ↔
      items.length < diagnosticCapacity ∧ bytes + size ≤ diagnosticTotalBytes := by
  have hmax := usizeMax_large
  have hitem : diagnosticItemBytes ≤ diagnosticTotalBytes := by decide
  rw [isFull, saturatingAdd_of_le (by omega), Bool.or_eq_false_iff, decide_eq_false_iff_not,
    decide_eq_false_iff_not, Nat.not_le, Nat.not_lt]

theorem isFullWithMarker_eq_false (hsize : size ≤ diagnosticItemBytes)
    (hbytes : bytes ≤ diagnosticTotalBytes) :
    isFullWithMarker size items bytes = false ↔
      items.length < diagnosticCapacity - 1 ∧
        bytes + size + (if hasOverflow items then 0 else 106) ≤ diagnosticTotalBytes := by
  have hmax := usizeMax_large
  have hitem : diagnosticItemBytes ≤ diagnosticTotalBytes := by decide
  have hmarker : (if hasOverflow items then 0 else diagnosticBytes overflowMarker) ≤ 106 := by
    split
    · omega
    · rw [overflowMarker_bytes]
  have htotal : 106 ≤ diagnosticTotalBytes := by decide
  rw [isFullWithMarker, saturatingAdd_of_le (a := bytes) (by omega),
    saturatingAdd_of_le (by omega), Bool.or_eq_false_iff, decide_eq_false_iff_not,
    decide_eq_false_iff_not, Nat.not_le, Nat.not_lt, overflowMarker_bytes]

/-- **What `push` makes room with.** Nothing, if there was room. Else the oldest items go, and
a marker is there afterwards. -/
theorem makeRoom_spec (hsize : size ≤ diagnosticItemBytes) (hbounded : Bounded items) :
    ∃ evicted rest kept, items = evicted ++ rest ∧
      makeRoom size items (totalBytes items) = (kept, totalBytes kept) ∧
      isFull size kept (totalBytes kept) = false ∧ totalBytes kept ≤ diagnosticTotalBytes ∧
      ((evicted = [] ∧ kept = items) ∨
        (evicted ≠ [] ∧ ((kept = rest ∧ markers rest ≠ []) ∨
          (kept = rest ++ [overflowMarker] ∧ markers rest = [])))) := by
  by_cases hfull : isFull size items (totalBytes items) = true
  · have hmax := usizeMax_large
    have htotal : diagnosticItemBytes + 106 ≤ diagnosticTotalBytes := by decide
    have hne : items ≠ [] := by
      rintro rfl
      have hempty : isFull size [] 0 = false :=
        (isFull_eq_false hsize (by omega)).mpr ⟨by decide, by omega⟩
      rw [totalBytes_nil, hempty] at hfull
      cases hfull
    have hmuch : isFullWithMarker size items (totalBytes items) = true := by
      rw [← Bool.not_eq_false]
      intro hnot
      obtain ⟨hlength, hbytes⟩ := (isFullWithMarker_eq_false hsize hbounded.2).mp hnot
      have hroom : isFull size items (totalBytes items) = false :=
        (isFull_eq_false hsize hbounded.2).mpr ⟨by omega, by omega⟩
      rw [hroom] at hfull
      cases hfull
    obtain ⟨evicted, rest, hitems, hloop, hrest, hsome⟩ :=
      evictWhile_spec (isFullWithMarker size) items
    have hle : totalBytes rest ≤ diagnosticTotalBytes := by
      have hall := hbounded.2
      rw [hitems, totalBytes_append] at hall
      omega
    have hspace : rest.length < diagnosticCapacity - 1 ∧ totalBytes rest + size +
        (if hasOverflow rest then 0 else 106) ≤ diagnosticTotalBytes := by
      rcases hrest with rfl | hroom
      · have hnone : hasOverflow [] = false := rfl
        rw [hnone, totalBytes_nil]
        exact ⟨by decide, by simp only [Bool.false_eq_true, if_false]; omega⟩
      · exact (isFullWithMarker_eq_false hsize hle).mp hroom
    obtain ⟨hlength, hbytes⟩ := hspace
    have hcapacity : diagnosticCapacity = 128 := rfl
    by_cases hover : hasOverflow rest = true
    · have hroom : isFull size rest (totalBytes rest) = false :=
        (isFull_eq_false hsize hle).mpr ⟨by omega, by omega⟩
      refine ⟨evicted, rest, rest, hitems, ?_, hroom, hle, .inr ⟨hsome hne hmuch, .inl ⟨rfl, ?_⟩⟩⟩
      · rw [makeRoom, if_pos hfull, hloop]
        simp [hover]
      · exact List.ne_nil_of_length_pos (hasOverflow_iff.mp hover)
    · have hmarker : totalBytes (rest ++ [overflowMarker]) = totalBytes rest + 106 := by
        rw [totalBytes_append, totalBytes_cons, overflowMarker_bytes, totalBytes_nil]
      rw [if_neg hover] at hbytes
      have hroom : isFull size (rest ++ [overflowMarker]) (totalBytes (rest ++ [overflowMarker])) =
          false := by
        refine (isFull_eq_false hsize (by omega)).mpr ⟨?_, by omega⟩
        rw [List.length_append, List.length_singleton]
        omega
      refine ⟨evicted, rest, rest ++ [overflowMarker], hitems, ?_, hroom, by omega,
        .inr ⟨hsome hne hmuch, .inr ⟨rfl, ?_⟩⟩⟩
      · have hshort : rest.length < diagnosticCapacity := by omega
        rw [makeRoom, if_pos hfull, hloop]
        simp only [hover, hshort, Bool.not_false, decide_true, Bool.and_self, if_true,
          overflowMarker_bytes]
        rw [saturatingAdd_of_le (by omega), hmarker]
      · rw [hasOverflow_iff, Nat.pos_iff_ne_zero, not_not] at hover
        exact List.eq_nil_of_length_eq_zero hover
  · have hroom : isFull size items (totalBytes items) = false := Bool.eq_false_iff.mpr hfull
    refine ⟨[], items, items, rfl, ?_, hroom, hbounded.2, .inl ⟨rfl, rfl⟩⟩
    rw [makeRoom, if_neg hfull]

/-- **One push.** The new report is behind what there was room made with, within the bounds. -/
theorem pushDiagnostic_spec (d : Diagnostic) (hbounded : Bounded items) :
    ∃ evicted rest kept, items = evicted ++ rest ∧
      pushDiagnostic d items (totalBytes items) =
        (kept ++ [boundDiagnostic d], totalBytes (kept ++ [boundDiagnostic d])) ∧
      Bounded (kept ++ [boundDiagnostic d]) ∧
      ((evicted = [] ∧ kept = items) ∨
        (evicted ≠ [] ∧ ((kept = rest ∧ markers rest ≠ []) ∨
          (kept = rest ++ [overflowMarker] ∧ markers rest = [])))) := by
  have hmax := usizeMax_large
  have hitem : diagnosticItemBytes ≤ diagnosticTotalBytes := by decide
  have hsize := boundDiagnostic_size d
  rw [← diagnosticBytes_of_le (by omega)] at hsize
  obtain ⟨evicted, rest, kept, hitems, hmake, hroom, hkept, hcases⟩ := makeRoom_spec hsize hbounded
  obtain ⟨hlength, hbytes⟩ := (isFull_eq_false hsize hkept).mp hroom
  have htotal : totalBytes (kept ++ [boundDiagnostic d]) =
      totalBytes kept + diagnosticBytes (boundDiagnostic d) := by
    rw [totalBytes_append, totalBytes_cons, totalBytes_nil, Nat.add_zero]
  refine ⟨evicted, rest, kept, hitems, ?_, ⟨?_, ?_⟩, hcases⟩
  · unfold pushDiagnostic
    dsimp only
    rw [hmake]
    dsimp only
    rw [evictWhile_of_room hroom]
    dsimp only
    rw [saturatingAdd_of_le (by omega), htotal]
  · rw [List.length_append, List.length_singleton]
    exact hlength
  · rw [htotal]
    exact hbytes

/-! ## A run of calls -/

/-- What was pushed since the last `take`. -/
def pushedSinceTake (calls : List DiagnosticCall) : List Diagnostic :=
  calls.foldl (fun pushed call =>
    match call with
    | .push diagnostic => pushed ++ [diagnostic]
    | .take => []) []

/-- **What holds between two calls**, for the reports pushed since the last `take`. -/
structure Stocked (pushed : List Diagnostic) (buffer : DiagnosticBuffer) : Prop where
  counted : buffer.bytes = totalBytes buffer.items
  bounded : Bounded buffer.items
  /-- No report is as long as the byte counter could not tell. -/
  sized : ∀ item ∈ buffer.items, item.size ≤ diagnosticItemBytes
  suffix : reports buffer.items <:+ pushed
  newest : (reports buffer.items).getLast? = pushed.getLast?
  marker : (markers buffer.items).length =
    if (reports buffer.items).length < pushed.length then 1 else 0

theorem stocked_new : Stocked [] DiagnosticBuffer.new where
  counted := rfl
  bounded := ⟨Nat.zero_le _, Nat.zero_le _⟩
  sized := fun _ h => nomatch h
  suffix := List.suffix_rfl
  newest := rfl
  marker := rfl

theorem Stocked.push {pushed : List Diagnostic} {buffer : DiagnosticBuffer}
    (h : Stocked pushed buffer) {d : Diagnostic} (hd : d.method ≠ overflowMethod) :
    Stocked (pushed ++ [boundDiagnostic d]) (buffer.push d) := by
  obtain ⟨evicted, rest, kept, hitems, hpush, hbounded, hcases⟩ := pushDiagnostic_spec d h.bounded
  have hreport := boundDiagnostic_method_ne hd
  have hnext : buffer.push d = {
      items := kept ++ [boundDiagnostic d]
      bytes := totalBytes (kept ++ [boundDiagnostic d]) } := by
    rw [DiagnosticBuffer.push, h.counted, hpush]
  have hreports : reports (kept ++ [boundDiagnostic d]) = reports kept ++ [boundDiagnostic d] := by
    rw [reports_append, reports_of_report hreport]
  have hmarkers : markers (kept ++ [boundDiagnostic d]) = markers kept := by
    rw [markers_append, markers_of_report hreport, List.append_nil]
  have hparts : reports buffer.items = reports evicted ++ reports rest ∧
      markers buffer.items = markers evicted ++ markers rest := by
    rw [hitems]
    exact ⟨reports_append _ _, markers_append _ _⟩
  have hlengths := congrArg List.length hparts.1
  have hcounts := congrArg List.length hparts.2
  have hevicted := length_reports_markers evicted
  have hmarker := h.marker
  have hold := h.suffix.length_le
  rw [List.length_append] at hlengths hcounts
  -- the reports that are kept are those that were not removed
  have hkept : reports kept = reports rest ∧ ∀ item ∈ kept, item ∈ buffer.items ∨
      item = overflowMarker := by
    rcases hcases with ⟨rfl, rfl⟩ | ⟨-, ⟨rfl, -⟩ | ⟨rfl, -⟩⟩
    · exact ⟨by rw [hitems]; rfl, fun _ hitem => .inl hitem⟩
    · exact ⟨rfl, fun _ hitem => .inl (by rw [hitems]; exact List.mem_append_right _ hitem)⟩
    · refine ⟨by rw [reports_append, reports_marker, List.append_nil], ?_⟩
      intro item hitem
      rcases List.mem_append.mp hitem with hrest | hlast
      · exact .inl (by rw [hitems]; exact List.mem_append_right _ hrest)
      · exact .inr (List.mem_singleton.mp hlast)
  rw [hnext]
  refine ⟨rfl, hbounded, ?_, ?_, ?_, ?_⟩
  · intro item hitem
    rcases List.mem_append.mp hitem with hitem | hitem
    · rcases hkept.2 item hitem with hitem | rfl
      · exact h.sized item hitem
      · decide
    · rw [List.mem_singleton.mp hitem]
      exact boundDiagnostic_size d
  · dsimp only
    have hsuffix : reports rest <:+ pushed := by
      refine List.IsSuffix.trans ?_ h.suffix
      rw [hparts.1]
      exact List.suffix_append _ _
    obtain ⟨front, hfront⟩ := hsuffix
    rw [hreports, hkept.1]
    exact ⟨front, by rw [← hfront, List.append_assoc]⟩
  · dsimp only
    rw [hreports, List.getLast?_concat, List.getLast?_concat]
  · dsimp only
    rw [hreports, hmarkers, hkept.1, List.length_append, List.length_append,
      List.length_singleton]
    rcases hcases with ⟨rfl, rfl⟩ | ⟨hsome, hcases⟩
    · -- there was room: nothing is missing that was not missing before
      have hsame := congrArg List.length hkept.1
      rw [hmarker]
      split <;> split <;> omega
    · have hpos := List.length_pos_of_ne_nil hsome
      have hone : (markers kept).length = 1 := by
        rcases hcases with ⟨rfl, hrest⟩ | ⟨rfl, hrest⟩
        · have := List.length_pos_of_ne_nil hrest
          split at hmarker <;> omega
        · rw [markers_append, hrest, markers_marker]
          rfl
      -- a report was removed, or the marker of one that was removed before
      have hmissing : (reports rest).length + 1 < pushed.length + 1 := by
        split at hmarker <;> omega
      rw [hone, if_pos hmissing]

theorem accounted_run (calls : List DiagnosticCall)
    (h : ∀ d, DiagnosticCall.push d ∈ calls → d.method ≠ overflowMethod) :
    Stocked ((pushedSinceTake calls).map boundDiagnostic) (DiagnosticBuffer.run calls) := by
  induction calls using List.reverseRecOn with
  | nil => exact stocked_new
  | append_singleton calls call ih =>
      have hbefore := ih fun d hd => h d (List.mem_append_left _ hd)
      rw [pushedSinceTake, DiagnosticBuffer.run, List.foldl_append, List.foldl_append]
      cases call with
      | push d =>
          have hd := h d (List.mem_append_right _ List.mem_cons_self)
          have hnext := hbefore.push hd
          rw [← List.map_singleton (f := boundDiagnostic), ← List.map_append] at hnext
          exact hnext
      | take => exact stocked_new

/-- What the buffer holds after these calls, one at a time. -/
structure Reported (calls : List DiagnosticCall) (items : List Diagnostic) : Prop where
  few : items.length ≤ 128
  small : (items.map Diagnostic.size).sum ≤ 1024 * 1024
  suffix : reports items <:+ (pushedSinceTake calls).map boundDiagnostic
  newest : ∀ d, (pushedSinceTake calls).getLast? = some d →
    (reports items).getLast? = some (boundDiagnostic d)
  /-- One marker if a pushed report is no longer stored, none otherwise. -/
  marker : (markers items).length =
    if (reports items).length < (pushedSinceTake calls).length then 1 else 0

/-- The first diagnostic cut to so many bytes, between characters. -/
structure CutTo (limit : Nat) (d cut : Diagnostic) : Prop where
  method : cut.method.toList <+: d.method.toList
  message : cut.message.toList <+: d.message.toList
  size : cut.size ≤ limit
  whole : d.size ≤ limit → cut = d

/-- One warning more than the buffer holds, behind a `take`. -/
def manyWarnings : List DiagnosticCall :=
  .push { method := "warning", message := "first" } :: .take ::
    List.replicate 129 (.push { method := "warning", message := "disk" })

end Vergerail
