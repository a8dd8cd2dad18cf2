import Vergerail.Proof.JsonMask

/-!
# The passes of a line, and a value between two texts

`redact_line` runs its passes one after the other, each over what the one before it left. For
a value between two texts a pass does one of three things: it ends inside a value in the first
text, and then it masks this one too, up to the first character that stops it; or it goes past
the value and leaves it; or, for a JSON string that is never closed, it copies all the rest.
Which of these it is depends on the first text and, for the JSON string, on the second. A pass
that leaves the value may still find a key that begins in it, and mask what stands behind.
-/

namespace Vergerail

open Lib

/-- A pass over a line. -/
inductive RedactPass
  | plain (needle : Masking Char)
  | json (needle : Masking Char)

namespace RedactPass

def needle : RedactPass → Masking Char
  | plain needle => needle
  | json needle => needle

/-- `redact_assignment` for a key. -/
def assignment (key : String) : RedactPass :=
  plain {
    fold := Char.toLower
    marker := (key ++ "=").toList
    skips := fun _ => false
    stops := endsAssignment
    mask := redactedText.toList
    nonempty := by simp }

/-- `redact_json_value` for a key. -/
def jsonField (key : String) : RedactPass :=
  json {
    fold := Char.toLower
    marker := ("\"" ++ key ++ "\"").toList
    skips := isAsciiWhitespace
    stops := (· == '"')
    mask := redactedText.toList
    nonempty := by simp }

/-- `redact_header_value` for a key. -/
def headerValue (key : String) : RedactPass :=
  plain {
    fold := Char.toLower
    marker := (key ++ ":").toList
    skips := charIsWhitespace
    stops := endsHeader
    mask := redactedText.toList
    nonempty := by simp }

/-- `redact_bearer_tokens`. -/
def bearerTokens : RedactPass :=
  plain {
    fold := Char.toLower
    marker := "bearer ".toList
    skips := fun _ => false
    stops := endsBearer
    mask := redactedText.toList
    nonempty := by simp }

def run : RedactPass → List Char → List Char
  | plain needle, x => needle.run x
  | json needle, x => jsonRun needle x

end RedactPass

open RedactPass

/-- The passes for a key. -/
def keyPasses (key : String) : List RedactPass := [assignment key, jsonField key, headerValue key]

/-- The passes of `redact_line`. -/
def linePasses : List RedactPass := sensitiveKeys.flatMap keyPasses ++ [bearerTokens]

/-- All of the passes, one after the other. -/
def runPasses (passes : List RedactPass) (x : List Char) : List Char :=
  passes.foldl (fun x p => p.run x) x

/-! ## The source's functions are passes -/

theorem redactAfterNeedle_eq {q : Masking Char} (hfold : q.fold = Char.toLower)
    (hmask : q.mask = redactedText.toList) {passes : Nat} {input : List Char}
    (hpasses : input.length ≤ passes) :
    redactAfterNeedle q.marker q.skips q.stops passes input = q.run input := by
  induction passes generalizing input with
  | zero =>
      rw [List.length_eq_zero_iff.mp (Nat.le_zero.mp hpasses)]
      exact Masking.run_nil.symm
  | succ passes ih =>
      rw [redactAfterNeedle, splitAfterNeedle_eq hfold]
      cases hsplit : q.split input with
      | none => exact (Masking.run_none hsplit).symm
      | some p =>
          obtain ⟨before, rest⟩ := p
          have hshort := Masking.behind_length hsplit
          rw [Masking.run_some hsplit, ← ih (by omega), hmask]
          rfl

theorem redactAssignment_eq (input key : String) :
    redactAssignment input key = String.ofList ((assignment key).run input.toList) :=
  congrArg String.ofList
    (redactAfterNeedle_eq (q := (assignment key).needle) rfl rfl String.length_toList.ge)

theorem redactJsonValue_eq (input key : String) :
    redactJsonValue input key = String.ofList ((jsonField key).run input.toList) :=
  congrArg String.ofList
    (redactJsonChars_eq (q := (jsonField key).needle) rfl String.length_toList.ge)

theorem redactHeaderValue_eq (input key : String) :
    redactHeaderValue input key = String.ofList ((headerValue key).run input.toList) :=
  congrArg String.ofList
    (redactAfterNeedle_eq (q := (headerValue key).needle) rfl rfl String.length_toList.ge)

theorem redactBearerTokens_eq (input : String) :
    redactBearerTokens input = String.ofList (bearerTokens.run input.toList) :=
  congrArg String.ofList
    (redactAfterNeedle_eq (q := bearerTokens.needle) rfl rfl String.length_toList.ge)

theorem redactKey_eq (input key : String) :
    redactKey input key = String.ofList (runPasses (keyPasses key) input.toList) := by
  rw [redactKey, redactHeaderValue_eq, redactJsonValue_eq, redactAssignment_eq]
  simp only [String.toList_ofList]
  rfl

theorem runPasses_append (passes passes' : List RedactPass) (x : List Char) :
    runPasses (passes ++ passes') x = runPasses passes' (runPasses passes x) :=
  List.foldl_append

/-- `redact_line` is the passes one after the other. -/
theorem redactLine_eq (line : String) :
    redactLine line = String.ofList (runPasses linePasses line.toList) := by
  have hkeys : ∀ (keys : List String) (line : String), keys.foldl redactKey line =
      String.ofList (runPasses (keys.flatMap keyPasses) line.toList) := by
    intro keys
    induction keys with
    | nil => exact fun line => String.ofList_toList.symm
    | cons key keys ih =>
        intro line
        rw [List.foldl_cons, ih, redactKey_eq, String.toList_ofList, List.flatMap_cons,
          runPasses_append]
  rw [redactLine, hkeys, redactBearerTokens_eq, String.toList_ofList, linePasses, runPasses_append]
  rfl

/-! ## One pass and a value -/

namespace RedactPass

/-- The text ends inside a value that the pass masks. -/
def isInside : RedactPass → List Char → Bool
  | plain needle, x => needle.isOpen x
  | json needle, x =>
    match jsonEdge needle x with
    | .inside _ => true
    | _ => false

/-- The character behind the text would not be part of the value, or go on with the key. -/
def minds : RedactPass → List Char → Char → Bool
  | plain needle, x, c => needle.isOpen x && !needle.isBegun x && needle.skips c
  | json needle, x, c =>
    match jsonEdge needle x with
    | .outside => false
    | .pending => isAsciiWhitespace c || c == ':' || c == '"'
    | .inside escaped => escaped

/-- The pass does not stop in the text. -/
def keeps : RedactPass → List Char → Bool
  | plain needle, v => v.all (fun c => !needle.stops c)
  | json _, v => (findJsonStringEnd false v).isNone && !escapedAfter false v

/-- The pass does not stop in the value. -/
def fits (p : RedactPass) (x v b : List Char) : Bool :=
  (v ++ b).head?.all (fun c => !p.minds x c) && (!p.isInside x || p.keeps v)

/-- What a pass writes behind a text that it leaves. -/
def tail (p : RedactPass) (v b : List Char) : List Char := (p.run (v ++ b)).drop v.length

/-- What becomes of the text behind the value, if the value is left. -/
def after : RedactPass → List Char → List Char → List Char → Option (List Char)
  | plain needle, x, v, b => if needle.isOpen x then none else some ((plain needle).tail v b)
  | json needle, x, v, b =>
    match jsonEdge needle x with
    | .inside _ => if (findJsonStringEnd false b).isSome then none else some b
    | _ => some ((json needle).tail v b)

/-- What stands behind the value from where the pass stops. -/
def rest : RedactPass → List Char → List Char
  | plain needle, b => b.dropWhile (fun c => !needle.stops c)
  | json _, b => (findJsonStringEnd false b).getD []

/-- What is written up to the end of a text inside a value. -/
def opened : RedactPass → List Char → List Char
  | plain needle, x => needle.run x
  | json needle, x => jsonOpened needle x

/-- What is written if the value is masked. -/
def taken (p : RedactPass) (x b : List Char) : List Char := p.opened x ++ p.run (p.rest b)

/-- A pass keeps the first characters, up to the end of the first key that it finds. -/
theorem run_keeps (p : RedactPass) (x : List Char) : p.run x = x ∨
    ∃ before rest out, p.needle.split x = some (before, rest) ∧ p.run x = before ++ out := by
  cases p with
  | plain q =>
      rw [RedactPass.run, needle]
      cases hsplit : q.split x with
      | none => exact .inl (Masking.run_none hsplit)
      | some pair =>
          obtain ⟨before, rest⟩ := pair
          have hrun := Masking.run_some hsplit
          rw [List.append_assoc, List.append_assoc] at hrun
          exact .inr ⟨before, rest, _, rfl, hrun⟩
  | json q =>
      rw [RedactPass.run, needle]
      cases hscan : jsonScan q x with
      | left out after =>
          cases hsplit : q.split x with
          | none =>
              rw [jsonScan_none hsplit] at hscan
              cases hscan
          | some pair =>
              have hrun := jsonRun_left hscan
              rw [jsonScan_some hsplit] at hscan
              cases hbehind : jsonBehind pair.2 <;> rw [hbehind] at hscan <;> cases hscan
              rw [List.append_assoc] at hrun
              exact .inr ⟨pair.1, pair.2, _, rfl, hrun⟩
      | _ => exact .inl (jsonRun_kept (by rw [hscan]; intro _ _ heq; cases heq))

/-- A pass keeps the first character. -/
theorem head_run (p : RedactPass) (x : List Char) : (p.run x).head? = x.head? := by
  rcases p.run_keeps x with hkept | ⟨before, rest, out, hsplit, hrun⟩
  · rw [hkept]
  · obtain ⟨l, o, rfl, ho⟩ := Masking.split_marker hsplit
    have hne : l ++ o ≠ [] := by
      intro hnil
      rw [(List.append_eq_nil_iff.mp hnil).2] at ho
      exact p.needle.nonempty ho.symm
    rw [hrun, Masking.split_append hsplit, List.head?_append_of_ne_nil _ hne,
      List.head?_append_of_ne_nil _ hne]

variable {p : RedactPass} {v b : List Char}

/-- A text that nothing the pass looks for is in stays. -/
theorem append_tail (hown : ¬p.needle.Occurs v) (b : List Char) :
    v ++ p.tail v b = p.run (v ++ b) := by
  have hkept : v <+: p.run (v ++ b) := by
    rcases p.run_keeps (v ++ b) with hkept | ⟨before, rest, out, hsplit, hrun⟩
    · rw [hkept]
      exact List.prefix_append v b
    · obtain ⟨l, o, rfl, ho⟩ := Masking.split_marker hsplit
      have hbefore : l ++ o <+: v ++ b := by
        rw [Masking.split_append hsplit]
        exact List.prefix_append _ _
      rw [hrun]
      -- the key that is found first ends behind the text
      rcases List.prefix_or_prefix_of_prefix (List.prefix_append v b) hbefore with hin | hover
      · exact hin.trans (List.prefix_append _ _)
      · obtain ⟨r, rfl⟩ := hover
        exact absurd ⟨l, o, r, rfl, ho⟩ hown
  obtain ⟨t, ht⟩ := hkept
  rw [tail, ← ht, List.drop_left]

/-- Where nothing lies across the end of the text, what stands behind it is masked on its own. -/
theorem tail_of_clear (hown : ¬p.needle.Occurs v) (hfinish : ¬p.needle.Straddles v b) :
    p.tail v b = p.run b := by
  have hvalue : p.needle.split v = none := Masking.split_eq_none_iff.mpr hown
  refine List.append_cancel_left ((append_tail hown b).trans ?_)
  cases p with
  | plain q =>
      have hclosed : q.isOpen v = false := Masking.isOpen_none hvalue
      have hclear : ¬q.Straddles v b := hfinish
      rw [RedactPass.run, Masking.run_append hclear (by rw [hclosed]; exact fun heq => by cases heq),
        hclosed, Masking.run_none (p := q) hvalue, if_neg Bool.false_ne_true]
      rfl
  | json q =>
      have hscan : jsonScan q v = .clear := jsonScan_none hvalue
      have hclear : ¬q.Straddles v b := hfinish
      rw [RedactPass.run, jsonRun_append hclear
        (by rw [jsonEdge_clear hscan]; intro _ heq; cases heq)
        (by rw [jsonEdge_clear hscan]; intro heq; cases heq),
        jsonRun_kept (x := v) (by rw [hscan]; intro _ _ heq; cases heq)]
      rfl

end RedactPass

/-- What a pass looks for is not in the value, and does not reach into it from before it. -/
structure Clear (q : Masking Char) (x v b : List Char) : Prop where
  start : ¬q.Straddles x (v ++ b)
  own : ¬q.Occurs v

section Around

variable {p : RedactPass} {q : Masking Char} {x v b c : List Char}

theorem plain_around (hclear : Clear q x v b) (hfits : (plain q).fits x v b = true) :
    q.run (x ++ v ++ b) =
      if q.isOpen x then (plain q).taken x b else q.run x ++ v ++ (plain q).tail v b := by
  obtain ⟨hhead, hinside⟩ := Bool.and_eq_true_iff.mp hfits
  -- between a marker and its value the next character has to be one of the value
  have hopen : q.isOpen x = true → q.isBegun x = true ∨
      ∀ c ∈ (v ++ b).head?, q.skips c = false := by
    intro hx
    by_cases hbegun : q.isBegun x = true
    · exact .inl hbegun
    · right
      intro c hc
      have hminds := (Option.all_eq_true _ _).mp hhead c hc
      rw [minds, hx, Bool.eq_false_iff.mpr hbegun] at hminds
      simpa using hminds
  rw [List.append_assoc, Masking.run_append_begun hclear.start hopen]
  by_cases hx : q.isOpen x = true
  · have hkeeps : v.all (fun c => !q.stops c) = true := by
      rwa [isInside, hx, Bool.not_true, Bool.false_or] at hinside
    rw [if_pos hx, if_pos hx, List.dropWhile_append_of_pos (List.all_eq_true.mp hkeeps)]
    rfl
  · rw [if_neg hx, if_neg hx, List.append_assoc, append_tail (p := plain q) hclear.own]
    rfl

theorem json_outside (hclear : Clear q x v b) (hfits : (json q).fits x v b = true)
    (hedge : ∀ escaped, jsonEdge q x ≠ .inside escaped) :
    jsonRun q (x ++ v ++ b) = jsonRun q x ++ v ++ (json q).tail v b := by
  obtain ⟨hhead, _⟩ := Bool.and_eq_true_iff.mp hfits
  have hnext : jsonEdge q x = .pending → ∀ c ∈ (v ++ b).head?,
      isAsciiWhitespace c = false ∧ c ≠ ':' ∧ c ≠ '"' := by
    intro hpending c hc
    have hminds := (Option.all_eq_true _ _).mp hhead c hc
    rw [minds, hpending] at hminds
    simpa [and_assoc] using hminds
  rw [List.append_assoc, jsonRun_append hclear.start hedge hnext, List.append_assoc,
    append_tail (p := json q) hclear.own]
  rfl

theorem json_inside {escaped : Bool} (hclear : Clear q x v b)
    (hfits : (json q).fits x v b = true) (hedge : jsonEdge q x = .inside escaped) :
    jsonRun q (x ++ v ++ b) =
      if (findJsonStringEnd false b).isSome then (json q).taken x b
      else jsonRun q x ++ v ++ b := by
  obtain ⟨hhead, hinside⟩ := Bool.and_eq_true_iff.mp hfits
  rw [isInside, hedge, Bool.not_true, Bool.false_or, keeps, Bool.and_eq_true,
    Option.isNone_iff_eq_none, Bool.not_eq_true'] at hinside
  obtain ⟨hend, hescaped⟩ := hinside
  -- an escape that is open would take the first character with it
  cases hline : v ++ b with
  | nil =>
      obtain ⟨rfl, rfl⟩ := List.append_eq_nil_iff.mp hline
      simp [findJsonStringEnd]
  | cons c y =>
      have hplain : escaped = false := by
        rw [hline] at hhead
        have hminds := (Option.all_eq_true _ _).mp hhead c rfl
        rw [minds, hedge] at hminds
        simpa using hminds
      rw [List.append_assoc, jsonRun_append_inside hclear.start hedge, hplain,
        findJsonStringEnd_append, hend, hescaped]
      cases hclosed : findJsonStringEnd false b with
      | none => simp
      | some rest => simp [taken, opened, RedactPass.rest, RedactPass.run, hclosed]

/-- **One pass** masks the value, or leaves it as it is. -/
theorem run_around (hclear : Clear p.needle x v b) (hfits : p.fits x v b = true) :
    p.run (x ++ v ++ b) =
      match p.after x v b with
      | none => p.taken x b
      | some c => p.run x ++ v ++ c := by
  cases p with
  | plain q =>
      rw [RedactPass.run, plain_around (q := q) hclear hfits, after]
      by_cases hx : q.isOpen x = true
      · rw [if_pos hx, if_pos hx]
      · rw [if_neg hx, if_neg hx]
        rfl
  | json q =>
      rw [RedactPass.run, after]
      cases hedge : jsonEdge q x with
      | outside => exact json_outside hclear hfits (by rw [hedge]; intro _ heq; cases heq)
      | pending => exact json_outside hclear hfits (by rw [hedge]; intro _ heq; cases heq)
      | inside escaped =>
          rw [json_inside (q := q) hclear hfits hedge]
          dsimp only
          by_cases hclosed : (findJsonStringEnd false b).isSome = true
          · rw [if_pos hclosed, if_pos hclosed]
          · rw [if_neg hclosed, if_neg hclosed]
            rfl

/-- A pass that leaves the value goes on behind it, or copies what is there. -/
theorem after_some (hafter : p.after x v b = some c) : c = b ∨ c = p.tail v b := by
  cases p with
  | plain q =>
      rw [after] at hafter
      split at hafter
      · cases hafter
      · cases hafter
        exact .inr rfl
  | json q =>
      rw [after] at hafter
      split at hafter
      · split at hafter
        · cases hafter
        · cases hafter
          exact .inl rfl
      · cases hafter
        exact .inr rfl

/-- Only for what stands behind it does the value matter to what is left there. -/
theorem after_congr {v' : List Char} (htail : p.tail v b = p.tail v' b) :
    p.after x v b = p.after x v' b := by
  cases p with
  | plain q => rw [after, after, htail]
  | json q => rw [after, after, htail]

/-! ## What a pass leaves around a value -/

variable (hmask : p.needle.mask = redactedText.toList)
include hmask

theorem suffix_of_run {s : List Char} (h : s <:+ p.run x) (hs : '>' ∉ s) : s <:+ x := by
  cases p with
  | plain q => exact Masking.suffix_of_run (hmask.trans redactedText_shape.2) h hs
  | json q => exact suffix_of_jsonRun h hs

theorem prefix_of_run {t : List Char} (h : t <+: p.run x) (ht : '<' ∉ t) : t <+: x := by
  cases p with
  | plain q => exact Masking.prefix_of_run (hmask.trans redactedText_shape.1) h ht
  | json q => exact prefix_of_jsonRun h ht

/-- A pass makes nothing that another looks for. -/
theorem not_straddles_run (hq : ∀ o : List Char, o.map q.fold = q.marker → '<' ∉ o ∧ '>' ∉ o)
    (hfinish : ¬q.Straddles v b) : ¬q.Straddles v (p.run b) := by
  rintro ⟨s, t, hs, ht, hsv, htb, hmarker⟩
  obtain ⟨hfirst, _⟩ := hq _ hmarker
  have htb' := prefix_of_run hmask htb (fun hmem => hfirst (List.mem_append_right s hmem))
  exact hfinish ⟨s, t, hs, ht, hsv, htb', hmarker⟩

theorem Clear.step (hclear : Clear q x v b)
    (hq : ∀ o : List Char, o.map q.fold = q.marker → '<' ∉ o ∧ '>' ∉ o)
    (hown : ¬p.needle.Occurs v) (hafter : p.after x v b = some c) : Clear q (p.run x) v c where
  start := by
    rintro ⟨s, t, hs, ht, hsx, hty, hmarker⟩
    obtain ⟨hfirst, hlast⟩ := hq _ hmarker
    have hsx' := suffix_of_run hmask hsx (fun hmem => hlast (List.mem_append_left t hmem))
    refine hclear.start ⟨s, t, hs, ht, hsx', ?_, hmarker⟩
    rcases after_some hafter with rfl | rfl
    · exact hty
    · rw [append_tail hown] at hty
      exact prefix_of_run hmask hty (fun hmem => hfirst (List.mem_append_right s hmem))
  own := hclear.own

end Around

/-! ## All passes and a value -/

/-- What the passes do to a value. -/
inductive Fate
  /-- A pass masks it. -/
  | hidden
  /-- A pass that comes to it inside a value stops in it. -/
  | cut
  /-- All passes leave it. -/
  | shown
  deriving DecidableEq

/-- What the passes do to a value: decided by the first that comes to it inside a value. -/
def fate : List RedactPass → List Char → List Char → List Char → Fate
  | [], _, _, _ => .shown
  | p :: passes, x, v, b =>
    if p.fits x v b then
      match p.after x v b with
      | none => .hidden
      | some c => fate passes (p.run x) v c
    else .cut

/-- Up to the pass that masks them, the passes leave the same behind two values; what that pass
masks with the value may differ. -/
def Alike : List RedactPass → List Char → List Char → List Char → List Char → List Char → Prop
  | [], _, _, b, _, b' => b = b'
  | p :: passes, x, v, b, v', b' =>
    match p.after x v b, p.after x v' b' with
    | none, none => p.rest b = p.rest b'
    | some c, some c' => Alike passes (p.run x) v c v' c'
    | _, _ => False

/-- The passes mask alike, and what one looks for has no part of a mask in it. -/
structure Uniform (passes : List RedactPass) : Prop where
  mask : ∀ p ∈ passes, p.needle.mask = redactedText.toList
  noMask : ∀ p ∈ passes, ∀ o : List Char, o.map p.needle.fold = p.needle.marker →
    '<' ∉ o ∧ '>' ∉ o

variable {passes : List RedactPass} (hpasses : Uniform passes) {v v' : List Char}
include hpasses

/-- **Two values in one line.** Where no pass stops in either of them, and what is left behind
them is the same, the passes leave the same if they mask them, and else only if they are the
same. -/
theorem runPasses_iff : ∀ {later : List RedactPass} {x b b' : List Char}, later ⊆ passes →
      (∀ p ∈ later, Clear p.needle x v b) → (∀ p ∈ later, Clear p.needle x v' b') →
      fate later x v b ≠ .cut → fate later x v' b' ≠ .cut → Alike later x v b v' b' →
      (runPasses later (x ++ v ++ b) = runPasses later (x ++ v' ++ b') ↔
        v = v' ∨ fate later x v b = .hidden) := by
  -- both lines pass by pass; as long as no pass masks a value they keep the same front
  intro later
  induction later with
  | nil =>
      intro x b b' _ _ _ _ _ halike
      have hsame : b = b' := halike
      have hshown : ¬fate [] x v b = .hidden := by rw [fate]; intro heq; cases heq
      rw [or_iff_left hshown, hsame]
      constructor
      · intro h
        exact List.append_cancel_left (List.append_cancel_right h)
      · rintro rfl
        rfl
  | cons p later ih =>
      intro x b b' hlater hclear hclear' hcut hcut' halike
      obtain ⟨hp, hlater⟩ := List.cons_subset.mp hlater
      obtain ⟨hown, hclear⟩ := List.forall_mem_cons.mp hclear
      obtain ⟨hown', hclear'⟩ := List.forall_mem_cons.mp hclear'
      have hfits : p.fits x v b = true := by
        by_contra hnot
        exact hcut (by rw [fate, if_neg hnot])
      have hfits' : p.fits x v' b' = true := by
        by_contra hnot
        exact hcut' (by rw [fate, if_neg hnot])
      rw [fate, if_pos hfits] at hcut
      rw [fate, if_pos hfits'] at hcut'
      have hrun := run_around hown hfits
      have hrun' := run_around hown' hfits'
      rw [fate, if_pos hfits]
      rw [Alike] at halike
      simp only [runPasses, List.foldl_cons]
      rw [hrun, hrun']
      cases hafter : p.after x v b with
      | none =>
          -- masked: from here on the lines are one line
          cases hafter' : p.after x v' b' with
          | none =>
              rw [hafter, hafter'] at halike
              have hrest : p.rest b = p.rest b' := halike
              exact iff_of_true (by simp only [taken, hrest]) (.inr rfl)
          | some c' =>
              rw [hafter, hafter'] at halike
              exact halike.elim
      | some c =>
          cases hafter' : p.after x v' b' with
          | none =>
              rw [hafter, hafter'] at halike
              exact halike.elim
          | some c' =>
              rw [hafter] at hcut halike
              rw [hafter'] at hcut' halike
              have hmask := hpasses.mask p hp
              refine ih hlater (fun q hq => ?_) (fun q hq => ?_) hcut hcut' halike
              · exact (hclear q hq).step hmask (hpasses.noMask q (hlater hq)) hown.own hafter
              · exact (hclear' q hq).step hmask (hpasses.noMask q (hlater hq)) hown'.own hafter'

/-- Where nothing lies across the ends of the values, the same is left behind them. -/
theorem alike_of_clear : ∀ {later : List RedactPass} {x b : List Char}, later ⊆ passes →
      (∀ p ∈ later, ¬p.needle.Occurs v ∧ ¬p.needle.Occurs v') →
      (∀ p ∈ later, ¬p.needle.Straddles v b ∧ ¬p.needle.Straddles v' b) →
      Alike later x v b v' b := by
  intro later
  induction later with
  | nil => exact fun _ _ _ => rfl
  | cons p later ih =>
      intro x b hlater hown hclear
      obtain ⟨hp, hlater⟩ := List.cons_subset.mp hlater
      obtain ⟨⟨hnot, hnot'⟩, hown⟩ := List.forall_mem_cons.mp hown
      obtain ⟨⟨hfinish, hfinish'⟩, hclear⟩ := List.forall_mem_cons.mp hclear
      have htail := tail_of_clear hnot hfinish
      have htail' := tail_of_clear hnot' hfinish'
      have hsame : p.after x v b = p.after x v' b := after_congr (htail.trans htail'.symm)
      rw [Alike, hsame]
      cases hafter : p.after x v' b with
      | none => rfl
      | some c =>
          refine ih hlater hown fun q hq => ?_
          obtain ⟨hq₁, hq₂⟩ := hclear q hq
          rcases after_some hafter with rfl | rfl
          · exact ⟨hq₁, hq₂⟩
          · rw [htail']
            have hmask := hpasses.mask p hp
            have hmarker := hpasses.noMask q (hlater hq)
            exact ⟨not_straddles_run hmask hmarker hq₁, not_straddles_run hmask hmarker hq₂⟩

end Vergerail
