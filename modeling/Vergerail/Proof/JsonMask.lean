import Vergerail.Lib.Masking
import Vergerail.Private.Redact

/-!
# The JSON pass over a line in parts

`redact_json_value` looks for a quoted key and then, behind a colon, for a string, whose text
it masks up to the closing quote. Where a line ends decides what the pass makes of what
follows: it may end outside of any value, behind a key whose value is still to come, or inside
a string. In the last case the pass masks everything up to the first quote that follows, and
nothing at all if there is none.
-/

namespace Vergerail

open Lib

/-! ## The end of a string -/

/-- Whether a backslash is still open behind the text. -/
def escapedAfter (escaped : Bool) (text : List Char) : Bool :=
  text.foldl (fun escaped c => decide (c = '\\') && !escaped) escaped

theorem escapedAfter_cons (escaped : Bool) (c : Char) (cs : List Char) :
    escapedAfter escaped (c :: cs) = escapedAfter (decide (c = '\\') && !escaped) cs := rfl

theorem findJsonStringEnd_append (escaped : Bool) (u y : List Char) :
    findJsonStringEnd escaped (u ++ y) =
      match findJsonStringEnd escaped u with
      | some rest => some (rest ++ y)
      | none => findJsonStringEnd (escapedAfter escaped u) y := by
  induction u generalizing escaped with
  | nil => rfl
  | cons c cs ih =>
      rw [List.cons_append, findJsonStringEnd, findJsonStringEnd, escapedAfter_cons]
      by_cases hescape : c = '\\' ∧ (!escaped) = true
      · rw [if_pos hescape, if_pos hescape, ih, hescape.2, decide_eq_true hescape.1]
        rfl
      · have hnext : (decide (c = '\\') && !escaped) = false := by
          rw [← Bool.not_eq_true, Bool.and_eq_true, decide_eq_true_eq]
          exact hescape
        rw [if_neg hescape, if_neg hescape, hnext]
        by_cases hquote : c = '"' ∧ (!escaped) = true
        · rw [if_pos hquote, if_pos hquote]
          rfl
        · rw [if_neg hquote, if_neg hquote, ih]

theorem findJsonStringEnd_suffix {escaped : Bool} {u rest : List Char}
    (h : findJsonStringEnd escaped u = some rest) : rest <:+ u := by
  induction u generalizing escaped with
  | nil => cases h
  | cons c cs ih =>
      rw [findJsonStringEnd] at h
      split at h
      · exact (ih h).trans (List.suffix_cons c cs)
      · split at h
        · cases h
          exact List.suffix_rfl
        · exact (ih h).trans (List.suffix_cons c cs)

/-! ## One step of the pass -/

/-- What the pass finds in a line. -/
inductive JsonScan
  /-- No key. -/
  | clear
  /-- A key whose value is still to come. -/
  | pending
  /-- A value without an end: what is before it, and what there is of it. -/
  | inside (out value : List Char)
  /-- A key that is done with: what is written for it, and what is left. -/
  | left (out rest : List Char)

namespace JsonScan

/-- The same behind more text. -/
def behind (before : List Char) : JsonScan → JsonScan
  | clear => clear
  | pending => pending
  | inside out value => inside (before ++ out) value
  | left out rest => left (before ++ out) rest

/-- What becomes of it when more text follows: a value goes on up to the first quote. -/
def append (y : List Char) : JsonScan → JsonScan
  | clear => clear
  | pending => pending
  | inside out value =>
    match findJsonStringEnd (escapedAfter false value) y with
    | none => inside out (value ++ y)
    | some rest => left (out ++ redactedText.toList) rest
  | left out rest => left out (rest ++ y)

/-- The key and what follows decide what is found. -/
def isDecided : JsonScan → Bool
  | clear => false
  | pending => false
  | inside _ _ => true
  | left _ _ => true

/-- It is found in this text: what is left of it is copied, or a value is masked. -/
def Of (x : List Char) : JsonScan → Prop
  | clear => True
  | pending => True
  | inside out value => x = out ++ value ∧ findJsonStringEnd false value = none
  | left out rest => x = out ++ rest ∨
      ∃ copied value, out = copied ++ redactedText.toList ∧ x = copied ++ value ++ rest

variable {x y before : List Char} {scan : JsonScan}

theorem isDecided_behind : (scan.behind before).isDecided = scan.isDecided := by cases scan <;> rfl

theorem Of.behind (h : scan.Of x) : (scan.behind before).Of (before ++ x) := by
  cases scan with
  | clear => trivial
  | pending => trivial
  | inside out value => exact ⟨by rw [h.1, List.append_assoc], h.2⟩
  | left out rest =>
      rcases h with rfl | ⟨copied, value, rfl, rfl⟩
      · exact .inl (List.append_assoc before out rest).symm
      · exact .inr ⟨before ++ copied, value, by rw [List.append_assoc], by
          simp only [List.append_assoc]⟩

theorem append_behind : (scan.behind before).append y = (scan.append y).behind before := by
  cases scan with
  | clear => rfl
  | pending => rfl
  | inside out value =>
      rw [behind, append, append]
      split
      · rfl
      · rw [behind, List.append_assoc]
  | left out rest => rfl

end JsonScan

open JsonScan

/-- What the pass finds behind the colon. -/
def jsonValue (rest : List Char) : JsonScan :=
  match rest.dropWhile isAsciiWhitespace with
  | [] => pending
  | c :: value =>
    if c = '"' then
      match findJsonStringEnd false value with
      | none => inside (rest.takeWhile isAsciiWhitespace ++ ['"']) value
      | some after =>
          left (rest.takeWhile isAsciiWhitespace ++ '"' :: redactedText.toList) after
    else left (rest.takeWhile isAsciiWhitespace) (c :: value)

/-- What the pass finds behind a key. -/
def jsonBehind (rest : List Char) : JsonScan :=
  match rest.dropWhile isAsciiWhitespace with
  | [] => pending
  | c :: r =>
    if c = ':' then (jsonValue r).behind (rest.takeWhile isAsciiWhitespace ++ [':'])
    else left (rest.takeWhile isAsciiWhitespace) (c :: r)

variable {rest y : List Char} {c : Char}

theorem takeWhile_dropWhile_cons {f : Char → Bool} {l r : List Char}
    (h : l.dropWhile f = c :: r) : l = l.takeWhile f ++ c :: r := by
  rw [← h]
  exact List.takeWhile_append_dropWhile.symm

theorem jsonValue_of (rest : List Char) : (jsonValue rest).Of rest := by
  rw [jsonValue]
  split
  · trivial
  · rename_i c value hc
    have hrest := takeWhile_dropWhile_cons hc
    split
    · rename_i hquote
      rw [hquote] at hrest
      split
      · rename_i hend
        exact ⟨hrest.trans (by simp), hend⟩
      · rename_i after hend
        obtain ⟨text, rfl⟩ := findJsonStringEnd_suffix hend
        exact .inr ⟨rest.takeWhile isAsciiWhitespace ++ ['"'], text, by simp,
          hrest.trans (by simp)⟩
    · exact .inl hrest

theorem jsonBehind_of (rest : List Char) : (jsonBehind rest).Of rest := by
  rw [jsonBehind]
  split
  · trivial
  · rename_i c r hc
    have hrest := takeWhile_dropWhile_cons hc
    split
    · rename_i hcolon
      have hbehind : ((jsonValue r).behind (rest.takeWhile isAsciiWhitespace ++ [':'])).Of
          (rest.takeWhile isAsciiWhitespace ++ [':'] ++ r) := (jsonValue_of r).behind
      rw [hcolon] at hrest
      rwa [List.append_assoc, List.singleton_append, ← hrest] at hbehind
    · exact .inl hrest

theorem dropWhile_append_cons {f : Char → Bool} {l r : List Char} (h : l.dropWhile f = c :: r)
    (y : List Char) : (l ++ y).dropWhile f = c :: (r ++ y) ∧
      (l ++ y).takeWhile f = l.takeWhile f := by
  refine ⟨?_, Masking.takeWhile_append_stop (.inl (by rw [h]; exact List.cons_ne_nil c r))⟩
  rw [List.dropWhile_append, h]
  rfl

theorem jsonValue_append (h : (jsonValue rest).isDecided = true) (y : List Char) :
    jsonValue (rest ++ y) = (jsonValue rest).append y := by
  cases hdrop : rest.dropWhile isAsciiWhitespace with
  | nil =>
      rw [jsonValue, hdrop] at h
      cases h
  | cons c value =>
      obtain ⟨hdrop', htake⟩ := dropWhile_append_cons hdrop y
      rw [jsonValue, jsonValue, hdrop, hdrop', htake]
      dsimp only
      by_cases hquote : c = '"'
      · rw [if_pos hquote, if_pos hquote, findJsonStringEnd_append]
        cases hend : findJsonStringEnd false value with
        | none =>
            dsimp only [append]
            cases findJsonStringEnd (escapedAfter false value) y with
            | none => rfl
            | some rest' => simp
        | some after => rfl
      · rw [if_neg hquote, if_neg hquote]
        rfl

theorem jsonBehind_append (h : (jsonBehind rest).isDecided = true) (y : List Char) :
    jsonBehind (rest ++ y) = (jsonBehind rest).append y := by
  cases hdrop : rest.dropWhile isAsciiWhitespace with
  | nil =>
      rw [jsonBehind, hdrop] at h
      cases h
  | cons c r =>
      obtain ⟨hdrop', htake⟩ := dropWhile_append_cons hdrop y
      rw [jsonBehind, hdrop] at h
      rw [jsonBehind, jsonBehind, hdrop, hdrop', htake]
      dsimp only at h ⊢
      by_cases hcolon : c = ':'
      · rw [if_pos hcolon, isDecided_behind] at h
        rw [if_pos hcolon, if_pos hcolon, jsonValue_append h, append_behind]
      · rw [if_neg hcolon, if_neg hcolon]
        rfl

/-- What follows is copied with the text where it does not go on with the key. -/
theorem jsonValue_pending (h : jsonValue rest = pending) (hspace : isAsciiWhitespace c = false)
    (hquote : c ≠ '"') : jsonValue (rest ++ c :: y) = left rest (c :: y) := by
  have hdrop : rest.dropWhile isAsciiWhitespace = [] := by
    cases hdrop : rest.dropWhile isAsciiWhitespace with
    | nil => rfl
    | cons d value =>
        have hdecided : (jsonValue rest).isDecided = true := by
          rw [jsonValue, hdrop]
          dsimp only
          split
          · split <;> rfl
          · rfl
        rw [h] at hdecided
        cases hdecided
  have hall := List.takeWhile_append_dropWhile (p := isAsciiWhitespace) (l := rest)
  rw [hdrop, List.append_nil] at hall
  have hdrop' : (rest ++ c :: y).dropWhile isAsciiWhitespace = c :: y := by
    rw [List.dropWhile_append, hdrop]
    exact List.dropWhile_cons_of_neg (by rw [hspace]; exact Bool.false_ne_true)
  have htake : (rest ++ c :: y).takeWhile isAsciiWhitespace = rest := by
    rw [Masking.takeWhile_append_stop (.inr (by rintro d ⟨⟩; exact hspace)), hall]
  rw [jsonValue, hdrop', htake]
  exact if_neg hquote

theorem jsonBehind_pending (h : jsonBehind rest = pending) (hspace : isAsciiWhitespace c = false)
    (hcolon : c ≠ ':') (hquote : c ≠ '"') : jsonBehind (rest ++ c :: y) = left rest (c :: y) := by
  cases hdrop : rest.dropWhile isAsciiWhitespace with
  | nil =>
      have hall := List.takeWhile_append_dropWhile (p := isAsciiWhitespace) (l := rest)
      rw [hdrop, List.append_nil] at hall
      have hdrop' : (rest ++ c :: y).dropWhile isAsciiWhitespace = c :: y := by
        rw [List.dropWhile_append, hdrop]
        exact List.dropWhile_cons_of_neg (by rw [hspace]; exact Bool.false_ne_true)
      have htake : (rest ++ c :: y).takeWhile isAsciiWhitespace = rest := by
        rw [Masking.takeWhile_append_stop (.inr (by rintro d ⟨⟩; exact hspace)), hall]
      rw [jsonBehind, hdrop', htake]
      exact if_neg hcolon
  | cons d r =>
      obtain ⟨hdrop', htake⟩ := dropWhile_append_cons hdrop (c :: y)
      have hrest := takeWhile_dropWhile_cons hdrop
      rw [jsonBehind, hdrop] at h
      rw [jsonBehind, hdrop', htake]
      dsimp only at h ⊢
      by_cases hd : d = ':'
      · rw [if_pos hd] at h ⊢
        have hvalue : jsonValue r = pending := by
          cases hr : jsonValue r <;> rw [hr] at h <;> cases h
        rw [jsonValue_pending hvalue hspace hquote, JsonScan.behind]
        rw [hd] at hrest
        rw [List.append_assoc, List.singleton_append, ← hrest]
      · rw [if_neg hd] at h
        cases h

theorem jsonBehind_ne_clear (rest : List Char) : jsonBehind rest ≠ clear := by
  have hvalue : ∀ r, jsonValue r ≠ clear := by
    intro r h
    rw [jsonValue] at h
    split at h
    · cases h
    · split at h
      · split at h <;> cases h
      · cases h
  intro h
  rw [jsonBehind] at h
  split at h
  · cases h
  · split at h
    · rename_i r _ _
      cases hr : jsonValue r with
      | clear => exact hvalue r hr
      | _ =>
          rw [hr] at h
          cases h
    · cases h

/-! ## The pass -/

section Pass

variable {q : Masking Char} {x before out after : List Char}

/-- What the pass finds in a line. -/
def jsonScan (q : Masking Char) (x : List Char) : JsonScan :=
  match q.split x with
  | none => clear
  | some (before, rest) => (jsonBehind rest).behind before

theorem jsonScan_none (h : q.split x = none) : jsonScan q x = clear := by rw [jsonScan, h]

theorem jsonScan_some (h : q.split x = some (before, rest)) :
    jsonScan q x = (jsonBehind rest).behind before := by rw [jsonScan, h]

theorem jsonScan_of (q : Masking Char) (x : List Char) : (jsonScan q x).Of x := by
  cases h : q.split x with
  | none =>
      rw [jsonScan_none h]
      trivial
  | some p =>
      obtain ⟨before, rest⟩ := p
      rw [jsonScan_some h, Masking.split_append h]
      exact (jsonBehind_of rest).behind

theorem jsonScan_length (h : jsonScan q x = left out after) : after.length < x.length := by
  cases hsplit : q.split x with
  | none =>
      rw [jsonScan_none hsplit] at h
      cases h
  | some p =>
      obtain ⟨before, rest⟩ := p
      have hshort := Masking.split_length hsplit
      rw [jsonScan_some hsplit] at h
      cases hbehind : jsonBehind rest <;> rw [hbehind] at h <;> cases h
      have hof := jsonBehind_of rest
      rw [hbehind] at hof
      rcases hof with heq | ⟨copied, value, _, heq⟩
      all_goals
        have hlength := congrArg List.length heq
        simp only [List.length_append] at hlength
        omega

/-- The pass over a line. -/
def jsonRun (q : Masking Char) (x : List Char) : List Char :=
  match _h : jsonScan q x with
  | .left out after => out ++ jsonRun q after
  | _ => x
termination_by x.length
decreasing_by exact jsonScan_length ‹_›

/-- Where a line ends for the pass. -/
inductive JsonEdge
  | outside
  | pending
  | inside (escaped : Bool)
  deriving DecidableEq

def jsonEdge (q : Masking Char) (x : List Char) : JsonEdge :=
  match _h : jsonScan q x with
  | .left _ after => jsonEdge q after
  | .clear => .outside
  | .pending => .pending
  | .inside _ value => .inside (escapedAfter false value)
termination_by x.length
decreasing_by exact jsonScan_length ‹_›

/-- What is written up to a value without an end, and the mask for it. -/
def jsonOpened (q : Masking Char) (x : List Char) : List Char :=
  match _h : jsonScan q x with
  | .left out after => out ++ jsonOpened q after
  | .inside out _ => out ++ redactedText.toList
  | _ => []
termination_by x.length
decreasing_by exact jsonScan_length ‹_›

theorem jsonRun_left (h : jsonScan q x = left out after) :
    jsonRun q x = out ++ jsonRun q after := by
  rw [jsonRun]
  split
  · rename_i heq
    rw [h] at heq
    cases heq
    rfl
  · rename_i hne
    exact absurd h (hne out after)

theorem jsonRun_kept (h : ∀ out after, jsonScan q x ≠ left out after) : jsonRun q x = x := by
  rw [jsonRun]
  split
  · rename_i heq
    exact absurd heq (h _ _)
  · rfl

theorem jsonEdge_left (h : jsonScan q x = left out after) : jsonEdge q x = jsonEdge q after := by
  rw [jsonEdge]
  split <;> rename_i heq <;> rw [h] at heq <;> cases heq
  rfl

theorem jsonEdge_clear (h : jsonScan q x = clear) : jsonEdge q x = .outside := by
  rw [jsonEdge]
  split <;> rename_i heq <;> rw [h] at heq <;> cases heq

theorem jsonEdge_pending (h : jsonScan q x = pending) : jsonEdge q x = .pending := by
  rw [jsonEdge]
  split <;> rename_i heq <;> rw [h] at heq <;> cases heq

theorem jsonEdge_inside {value : List Char} (h : jsonScan q x = inside out value) :
    jsonEdge q x = .inside (escapedAfter false value) := by
  rw [jsonEdge]
  split <;> rename_i heq <;> rw [h] at heq <;> cases heq
  rfl

theorem jsonOpened_left (h : jsonScan q x = left out after) :
    jsonOpened q x = out ++ jsonOpened q after := by
  rw [jsonOpened]
  split
  · rename_i heq
    rw [h] at heq
    cases heq
    rfl
  · rename_i heq
    rw [h] at heq
    cases heq
  · rename_i hne _
    exact absurd h (hne out after)

theorem jsonOpened_inside {value : List Char} (h : jsonScan q x = inside out value) :
    jsonOpened q x = out ++ redactedText.toList := by
  rw [jsonOpened]
  split
  · rename_i heq
    rw [h] at heq
    cases heq
  · rename_i heq
    rw [h] at heq
    cases heq
    rfl
  · rename_i _ hne
    exact absurd h (hne out value)

/-- Induction along the pass. -/
theorem json_induction {P : List Char → Prop}
    (last : ∀ x, (∀ out after, jsonScan q x ≠ left out after) → P x)
    (left : ∀ x out after, jsonScan q x = left out after → P after → P x) : ∀ x, P x := by
  intro x
  induction hn : x.length using Nat.strong_induction_on generalizing x with
  | _ n ih =>
      cases h : jsonScan q x with
      | left out after => exact left x out after h (ih _ (hn ▸ jsonScan_length h) _ rfl)
      | _ => exact last x (by rw [h]; intro _ _ heq; cases heq)

/-! ## The pass over a line in two parts -/

variable (hstraddle : ¬q.Straddles x y)
include hstraddle

theorem jsonScan_append (h : (jsonScan q x).isDecided = true) :
    jsonScan q (x ++ y) = (jsonScan q x).append y := by
  cases hsplit : q.split x with
  | none =>
      rw [jsonScan_none hsplit] at h
      cases h
  | some p =>
      obtain ⟨before, rest⟩ := p
      rw [jsonScan_some hsplit, isDecided_behind] at h
      rw [jsonScan_some hsplit, jsonScan_some (Masking.split_append_some hsplit hstraddle),
        jsonBehind_append h, append_behind]

theorem jsonScan_append_clear (h : jsonScan q x = clear) :
    jsonScan q (x ++ y) = (jsonScan q y).behind x := by
  cases hsplit : q.split x with
  | none =>
      have happend := Masking.split_append_none hsplit hstraddle
      cases hy : q.split y with
      | none =>
          rw [hy] at happend
          rw [jsonScan_none happend, jsonScan_none hy, behind]
      | some p =>
          obtain ⟨before, rest⟩ := p
          rw [hy] at happend
          rw [jsonScan_some happend, jsonScan_some hy]
          cases jsonBehind rest with
          | inside out value => simp [behind]
          | left out after => simp [behind]
          | _ => rfl
  | some p =>
      obtain ⟨before, rest⟩ := p
      rw [jsonScan_some hsplit] at h
      cases hbehind : jsonBehind rest with
      | clear => exact absurd hbehind (jsonBehind_ne_clear rest)
      | _ =>
          rw [hbehind] at h
          cases h

theorem jsonScan_append_pending (h : jsonScan q x = pending)
    (hspace : isAsciiWhitespace c = false) (hcolon : c ≠ ':') (hquote : c ≠ '"') {y' : List Char}
    (hy : y = c :: y') : jsonScan q (x ++ y) = left x y := by
  cases hsplit : q.split x with
  | none =>
      rw [jsonScan_none hsplit] at h
      cases h
  | some p =>
      obtain ⟨before, rest⟩ := p
      rw [jsonScan_some hsplit] at h
      have hbehind : jsonBehind rest = pending := by
        cases hb : jsonBehind rest <;> rw [hb] at h <;> cases h
      rw [jsonScan_some (Masking.split_append_some hsplit hstraddle), hy,
        jsonBehind_pending hbehind hspace hcolon hquote, behind, ← Masking.split_append hsplit]

omit hstraddle in
theorem jsonRun_behind {z : List Char} (hz : z = x ++ y)
    (h : jsonScan q z = (jsonScan q y).behind x) : jsonRun q z = x ++ jsonRun q y := by
  cases hy : jsonScan q y with
  | left out after =>
      rw [hy, behind] at h
      rw [jsonRun_left h, jsonRun_left hy, List.append_assoc]
  | _ =>
      rw [hy] at h
      rw [jsonRun_kept (by rw [h]; intro _ _ heq; cases heq),
        jsonRun_kept (by rw [hy]; intro _ _ heq; cases heq), hz]

omit hstraddle in
theorem jsonScan_suffix (h : jsonScan q x = left out after) : after <:+ x := by
  have hof := jsonScan_of q x
  rw [h] at hof
  rcases hof with rfl | ⟨copied, value, _, rfl⟩
  · exact List.suffix_append out after
  · exact List.suffix_append (copied ++ value) after

/-- What follows a line that ends outside of a value is gone through on its own. -/
theorem jsonRun_append (hedge : ∀ escaped, jsonEdge q x ≠ .inside escaped)
    (hnext : jsonEdge q x = .pending → ∀ c ∈ y.head?,
      isAsciiWhitespace c = false ∧ c ≠ ':' ∧ c ≠ '"') :
    jsonRun q (x ++ y) = jsonRun q x ++ jsonRun q y := by
  induction x using json_induction (q := q) with
  | last x hlast =>
      rw [jsonRun_kept hlast]
      cases hscan : jsonScan q x with
      | clear => exact jsonRun_behind rfl (jsonScan_append_clear hstraddle hscan)
      | pending =>
          cases y with
          | nil => rw [List.append_nil, jsonRun_kept hlast, jsonRun_kept (by
              rw [jsonScan, Masking.split]; intro _ _ heq; cases heq), List.append_nil]
          | cons c y =>
              obtain ⟨hspace, hcolon, hquote⟩ := hnext (jsonEdge_pending hscan) c rfl
              exact jsonRun_left
                (jsonScan_append_pending hstraddle hscan hspace hcolon hquote rfl)
      | inside out value => exact absurd (jsonEdge_inside hscan) (hedge _)
      | left out after => exact absurd hscan (hlast out after)
  | left x out after hscan ih =>
      have happend := jsonScan_append hstraddle (by rw [hscan]; rfl)
      rw [hscan, append] at happend
      rw [jsonEdge_left hscan] at hedge hnext
      rw [jsonRun_left happend, jsonRun_left hscan,
        ih (fun h => hstraddle (h.mono (jsonScan_suffix hscan))) hedge hnext, List.append_assoc]

/-- What follows a line that ends inside a value is masked up to the first quote, or copied. -/
theorem jsonRun_append_inside {escaped : Bool} (hedge : jsonEdge q x = .inside escaped) :
    jsonRun q (x ++ y) =
      match findJsonStringEnd escaped y with
      | some rest => jsonOpened q x ++ jsonRun q rest
      | none => jsonRun q x ++ y := by
  induction x using json_induction (q := q) with
  | last x hlast =>
      rw [jsonRun_kept hlast]
      cases hscan : jsonScan q x with
      | clear =>
          rw [jsonEdge_clear hscan] at hedge
          cases hedge
      | pending =>
          rw [jsonEdge_pending hscan] at hedge
          cases hedge
      | inside out value =>
          rw [jsonEdge_inside hscan] at hedge
          have happend := jsonScan_append hstraddle (by rw [hscan]; rfl)
          rw [hscan, append] at happend
          rw [← JsonEdge.inside.inj hedge]
          cases hend : findJsonStringEnd (escapedAfter false value) y with
          | none =>
              rw [hend] at happend
              exact jsonRun_kept (by rw [happend]; intro _ _ heq; cases heq)
          | some rest =>
              rw [hend] at happend
              rw [jsonRun_left happend, jsonOpened_inside hscan]
      | left out after => exact absurd hscan (hlast out after)
  | left x out after hscan ih =>
      have happend := jsonScan_append hstraddle (by rw [hscan]; rfl)
      rw [hscan, append] at happend
      rw [jsonEdge_left hscan] at hedge
      rw [jsonRun_left happend, jsonRun_left hscan, jsonOpened_left hscan,
        ih (fun h => hstraddle (h.mono (jsonScan_suffix hscan))) hedge]
      cases findJsonStringEnd escaped y with
      | none => simp
      | some rest => simp

/-- Where a line in two parts ends, if the first ends outside of a value. -/
theorem jsonEdge_append (hedge : ∀ escaped, jsonEdge q x ≠ .inside escaped)
    (hnext : jsonEdge q x = .pending → ∀ c ∈ y.head?,
      isAsciiWhitespace c = false ∧ c ≠ ':' ∧ c ≠ '"') (hy : y ≠ []) :
    jsonEdge q (x ++ y) = jsonEdge q y := by
  induction x using json_induction (q := q) with
  | last x hlast =>
      cases hscan : jsonScan q x with
      | clear =>
          have happend := jsonScan_append_clear hstraddle hscan
          cases hy : jsonScan q y with
          | clear =>
              rw [hy] at happend
              rw [jsonEdge_clear happend, jsonEdge_clear hy]
          | pending =>
              rw [hy] at happend
              rw [jsonEdge_pending happend, jsonEdge_pending hy]
          | inside out value =>
              rw [hy] at happend
              rw [jsonEdge_inside happend, jsonEdge_inside hy]
          | left out after =>
              rw [hy] at happend
              rw [jsonEdge_left happend, jsonEdge_left hy]
      | pending =>
          obtain ⟨c, y, rfl⟩ := List.exists_cons_of_ne_nil hy
          obtain ⟨hspace, hcolon, hquote⟩ := hnext (jsonEdge_pending hscan) c rfl
          exact jsonEdge_left (jsonScan_append_pending hstraddle hscan hspace hcolon hquote rfl)
      | inside out value => exact absurd (jsonEdge_inside hscan) (hedge _)
      | left out after => exact absurd hscan (hlast out after)
  | left x out after hscan ih =>
      have happend := jsonScan_append hstraddle (by rw [hscan]; rfl)
      rw [hscan, append] at happend
      rw [jsonEdge_left hscan] at hedge hnext
      rw [jsonEdge_left happend,
        ih (fun h => hstraddle (h.mono (jsonScan_suffix hscan))) hedge hnext]

omit hstraddle

/-! ## What the pass leaves -/

theorem redactedText_shape : redactedText.toList = '<' :: "redacted>".toList ∧
    redactedText.toList = "<redacted".toList ++ ['>'] := by
  have hmask : redactedText.toList = ['<', 'r', 'e', 'd', 'a', 'c', 't', 'e', 'd', '>'] :=
    String.toList_ofList
  have htail : "redacted>".toList = ['r', 'e', 'd', 'a', 'c', 't', 'e', 'd', '>'] :=
    String.toList_ofList
  have hfront : "<redacted".toList = ['<', 'r', 'e', 'd', 'a', 'c', 't', 'e', 'd'] :=
    String.toList_ofList
  rw [hmask, htail, hfront]
  exact ⟨rfl, rfl⟩

theorem jsonRun_unmasked (h : '>' ∉ jsonRun q x) : jsonRun q x = x := by
  induction x using json_induction (q := q) with
  | last x hlast => exact jsonRun_kept hlast
  | left x out after hscan ih =>
      rw [jsonRun_left hscan] at h ⊢
      have hof := jsonScan_of q x
      rw [hscan] at hof
      rcases hof with heq | ⟨copied, value, rfl, _⟩
      · rw [ih (fun hmem => h (List.mem_append_right out hmem)), heq]
      · refine absurd ?_ h
        rw [redactedText_shape.2]
        simp

/-- An end without the last character of the mask was there before. -/
theorem suffix_of_jsonRun {s : List Char} (h : s <:+ jsonRun q x) (hs : '>' ∉ s) : s <:+ x := by
  induction x using json_induction (q := q) with
  | last x hlast => rwa [jsonRun_kept hlast] at h
  | left x out after hscan ih =>
      rw [jsonRun_left hscan] at h
      rcases List.suffix_or_suffix_of_suffix h (List.suffix_append _ _) with hown | hover
      · exact (ih hown).trans (jsonScan_suffix hscan)
      · obtain ⟨t, rfl⟩ := hover
        have hafter := jsonRun_unmasked (q := q) (x := after)
          (fun hmem => hs (List.mem_append_right t hmem))
        have hof := jsonScan_of q x
        rw [hscan] at hof
        rw [hafter] at h ⊢
        rcases hof with rfl | ⟨copied, value, rfl, _⟩
        · exact h
        · obtain ⟨u, hu⟩ := h
          rw [← List.append_assoc] at hu
          have ht := List.append_cancel_right hu
          rcases List.eq_nil_or_concat t with rfl | ⟨t', d, rfl⟩
          · exact jsonScan_suffix hscan
          · rw [redactedText_shape.2, List.concat_eq_append, ← List.append_assoc,
              ← List.append_assoc] at ht
            have hd := (List.append_inj' ht rfl).2
            cases hd
            exact absurd (by simp) hs

/-- A beginning without the first character of the mask was there before. -/
theorem prefix_of_jsonRun {t : List Char} (h : t <+: jsonRun q x) (ht : '<' ∉ t) : t <+: x := by
  induction x using json_induction (q := q) generalizing t with
  | last x hlast => rwa [jsonRun_kept hlast] at h
  | left x out after hscan ih =>
      rw [jsonRun_left hscan] at h
      have hof := jsonScan_of q x
      rw [hscan] at hof
      rcases hof with rfl | ⟨copied, value, rfl, rfl⟩
      · rcases List.prefix_or_prefix_of_prefix h (List.prefix_append _ _) with hown | hover
        · exact hown.trans (List.prefix_append out after)
        · obtain ⟨u, rfl⟩ := hover
          have hu := (List.prefix_append_right_inj out).mp h
          exact (List.prefix_append_right_inj out).mpr
            (ih hu (fun hmem => ht (List.mem_append_right out hmem)))
      · rw [List.append_assoc] at h
        rcases List.prefix_or_prefix_of_prefix h (List.prefix_append _ _) with hown | hover
        · rw [List.append_assoc]
          exact hown.trans (List.prefix_append copied _)
        · obtain ⟨u, rfl⟩ := hover
          have hu := (List.prefix_append_right_inj copied).mp h
          cases u with
          | nil =>
              rw [List.append_nil, List.append_assoc]
              exact List.prefix_append copied _
          | cons d u =>
              rw [redactedText_shape.1, List.cons_append] at hu
              obtain ⟨w, hw⟩ := hu
              rw [(List.cons.inj hw).1] at ht
              exact absurd (by simp) ht

end Pass

/-! ## The loop of the source -/

theorem splitAfterNeedle_eq {q : Masking Char} (hfold : q.fold = Char.toLower) (x : List Char) :
    splitAfterNeedle q.marker x = q.split x := by
  induction x with
  | nil => rfl
  | cons c cs ih => rw [splitAfterNeedle, Masking.split, ih, hfold]

theorem redactJsonChars_nil (needle : List Char) (passes : Nat) :
    redactJsonChars needle passes [] = [] := by cases passes <;> rfl

/-- The loop of `redact_json_value` is the pass. -/
theorem redactJsonChars_eq {q : Masking Char} (hfold : q.fold = Char.toLower) {passes : Nat}
    {input : List Char} (hpasses : input.length ≤ passes) :
    redactJsonChars q.marker passes input = jsonRun q input := by
  induction passes generalizing input with
  | zero =>
      rw [List.length_eq_zero_iff.mp (Nat.le_zero.mp hpasses)]
      rw [redactJsonChars, jsonRun_kept]
      rw [jsonScan, Masking.split]
      intro _ _ heq
      cases heq
  | succ passes ih =>
      have hnext : ∀ {out after : List Char}, jsonScan q input = left out after →
          out ++ redactJsonChars q.marker passes after = jsonRun q input := by
        intro out after hscan
        have hshort := jsonScan_length hscan
        rw [ih (by omega), jsonRun_left hscan]
      have hlast : (∀ out after, jsonScan q input ≠ left out after) → input = jsonRun q input :=
        fun h => (jsonRun_kept h).symm
      rw [redactJsonChars, splitAfterNeedle_eq hfold]
      cases hsplit : q.split input with
      | none => exact hlast (by rw [jsonScan_none hsplit]; intro _ _ heq; cases heq)
      | some p =>
          obtain ⟨before, rest⟩ := p
          have hscan := jsonScan_some hsplit
          rw [jsonBehind] at hscan
          dsimp only
          split
          · rename_i r hcolon
            rw [hcolon] at hscan
            dsimp only at hscan
            rw [if_pos rfl, jsonValue] at hscan
            split
            · rename_i value hquote
              rw [hquote] at hscan
              dsimp only at hscan
              rw [if_pos rfl] at hscan
              split
              · rename_i hend
                rw [hend] at hscan
                exact hlast (by rw [hscan]; intro _ _ heq; cases heq)
              · rename_i after hend
                rw [hend] at hscan
                rw [← hnext hscan]
                simp
            · rename_i hne
              cases hr : r.dropWhile isAsciiWhitespace with
              | nil =>
                  rw [hr] at hscan
                  have hkept := hlast (by rw [hscan]; intro _ _ heq; cases heq)
                  have hall := List.takeWhile_append_dropWhile (p := isAsciiWhitespace) (l := r)
                  rw [hr, List.append_nil] at hall
                  rw [redactJsonChars_nil, List.append_nil, ← hkept, Masking.split_append hsplit,
                    hall, List.append_assoc, ← takeWhile_dropWhile_cons hcolon]
              | cons d value =>
                  rw [hr] at hscan
                  dsimp only at hscan
                  rw [if_neg (by rintro rfl; exact hne value hr)] at hscan
                  rw [← hnext hscan]
                  simp
          · rename_i hne
            cases hrest : rest.dropWhile isAsciiWhitespace with
            | nil =>
                rw [hrest] at hscan
                have hkept := hlast (by rw [hscan]; intro _ _ heq; cases heq)
                have hall := List.takeWhile_append_dropWhile (p := isAsciiWhitespace) (l := rest)
                rw [hrest, List.append_nil] at hall
                rw [redactJsonChars_nil, List.append_nil, ← hkept, Masking.split_append hsplit, hall]
            | cons c r =>
                rw [hrest] at hscan
                dsimp only at hscan
                rw [if_neg (by rintro rfl; exact hne r hrest)] at hscan
                exact hnext hscan

end Vergerail
