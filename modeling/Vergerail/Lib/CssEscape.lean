import Mathlib.Data.List.Basic
import Mathlib.Tactic.SplitIfs

/-!
# Escapes in a style sheet's text

A reader of CSS does not see the characters of a text but its units: a backslash and what
follows stand for one character. Every unit keeps how it is spelled, and the spellings in
order are the text again; so where units without an escape spell a word, the text has that
word, and a word of the text is spelled by units.
-/

namespace Lib.Css

/-- A character of a text, as a reader of CSS sees it. -/
inductive CssUnit where
  /-- The character stands for itself. -/
  | literal (c : Char)
  /-- An escape, with its spelling. -/
  | escape (spelling : List Char) (c : Char)

namespace CssUnit

def char : CssUnit → Char
  | literal c => c
  | escape _ c => c

def spelling : CssUnit → List Char
  | literal c => [c]
  | escape s _ => s

def isEscape : CssUnit → Bool
  | literal _ => false
  | escape _ _ => true

end CssUnit

/-- The value of a hexadecimal digit. -/
def hexValue (c : Char) : Option Nat :=
  if '0' ≤ c ∧ c ≤ '9' then some (c.toNat - '0'.toNat)
  else if 'a' ≤ c ∧ c ≤ 'f' then some (c.toNat - 'a'.toNat + 10)
  else if 'A' ≤ c ∧ c ≤ 'F' then some (c.toNat - 'A'.toNat + 10)
  else none

/-- The character a hexadecimal escape stands for; no character has the code 0. -/
def escapedChar (digits : List Char) : Char :=
  let code := digits.foldl (fun n c => 16 * n + (hexValue c).getD 0) 0
  if h : code ≠ 0 ∧ code.isValidChar then Char.ofNatAux code h.2 else '\ufffd'

/-- White space that ends a hexadecimal escape. -/
def isWhitespace (c : Char) : Bool := c ∈ [' ', '\t', '\n', '\x0c']

/-- How far the reader is into an escape. -/
inductive Reading where
  | text
  | backslash
  | hex (digits : List Char)
  /-- A carriage return ended the digits; a line feed belongs to it. -/
  | carriageReturn (digits : List Char)

/-- The characters the reader has taken and not yet made into a unit. -/
def Reading.pending : Reading → List Char
  | text => []
  | backslash => ['\\']
  | hex digits => '\\' :: digits
  | carriageReturn digits => '\\' :: (digits ++ ['\r'])

/-- The units a character completes, and where the reader is after it. -/
def Reading.step : Reading → Char → List CssUnit × Reading
  | text, c => if c = '\\' then ([], backslash) else ([.literal c], text)
  | backslash, c =>
    if (hexValue c).isSome then ([], hex [c]) else ([.escape ['\\', c] c], text)
  | hex digits, c =>
    if digits.length < 6 ∧ (hexValue c).isSome then ([], hex (digits ++ [c]))
    else if c = '\r' then ([], carriageReturn digits)
    else if isWhitespace c then
      ([.escape ('\\' :: (digits ++ [c])) (escapedChar digits)], text)
    else if c = '\\' then ([.escape ('\\' :: digits) (escapedChar digits)], backslash)
    else ([.escape ('\\' :: digits) (escapedChar digits), .literal c], text)
  | carriageReturn digits, c =>
    if c = '\n' then
      ([.escape ('\\' :: (digits ++ ['\r', '\n'])) (escapedChar digits)], text)
    else if c = '\\' then
      ([.escape ('\\' :: (digits ++ ['\r'])) (escapedChar digits)], backslash)
    else ([.escape ('\\' :: (digits ++ ['\r'])) (escapedChar digits), .literal c], text)

/-- The units the end of the text completes. A backslash there escapes nothing. -/
def Reading.finish : Reading → List CssUnit
  | text => []
  | backslash => [.literal '\\']
  | hex digits => [.escape ('\\' :: digits) (escapedChar digits)]
  | carriageReturn digits => [.escape ('\\' :: (digits ++ ['\r'])) (escapedChar digits)]

/-- The units of a text, from the middle of an escape on. -/
def unitsFrom : Reading → List Char → List CssUnit
  | reading, [] => reading.finish
  | reading, c :: cs => (reading.step c).1 ++ unitsFrom (reading.step c).2 cs

/-- The units of a text. -/
def units (text : List Char) : List CssUnit := unitsFrom .text text

/-- The text with its escapes resolved. -/
def resolve (text : List Char) : List Char := (units text).map CssUnit.char

/-! ## Spellings -/

theorem flatMap_spelling_step (reading : Reading) (c : Char) :
    (reading.step c).1.flatMap CssUnit.spelling ++ (reading.step c).2.pending
      = reading.pending ++ [c] := by
  cases reading with
  | text =>
      simp only [Reading.step]
      split_ifs <;> simp_all [Reading.pending, CssUnit.spelling]
  | backslash =>
      simp only [Reading.step]
      split_ifs <;> simp [Reading.pending, CssUnit.spelling]
  | hex digits =>
      simp only [Reading.step]
      split_ifs <;> simp_all [Reading.pending, CssUnit.spelling]
  | carriageReturn digits =>
      simp only [Reading.step]
      split_ifs <;> simp_all [Reading.pending, CssUnit.spelling]

/-- The spellings of the units are the text. -/
theorem flatMap_spelling_unitsFrom (reading : Reading) (cs : List Char) :
    (unitsFrom reading cs).flatMap CssUnit.spelling = reading.pending ++ cs := by
  induction cs generalizing reading with
  | nil => cases reading <;> simp [unitsFrom, Reading.finish, Reading.pending, CssUnit.spelling]
  | cons c cs ih =>
      rw [unitsFrom, List.flatMap_append, ih, ← List.append_assoc, flatMap_spelling_step,
        List.append_assoc, List.singleton_append]

theorem flatMap_spelling_units (text : List Char) :
    (units text).flatMap CssUnit.spelling = text := flatMap_spelling_unitsFrom .text text

theorem flatMap_spelling_of_literal {us : List CssUnit} (h : ∀ u ∈ us, u.isEscape = false) :
    us.flatMap CssUnit.spelling = us.map CssUnit.char := by
  induction us with
  | nil => rfl
  | cons u us ih =>
      have hrest := ih (fun v hv => h v (List.mem_cons_of_mem _ hv))
      cases u with
      | literal c => rw [List.flatMap_cons, List.map_cons, hrest]; rfl
      | escape s c => cases h _ List.mem_cons_self

/-- What units without an escape spell is in the text. -/
theorem infix_of_literal {text : List Char} {block : List CssUnit} (h : block <:+: units text)
    (hliteral : ∀ u ∈ block, u.isEscape = false) : block.map CssUnit.char <:+: text := by
  obtain ⟨before, after, hunits⟩ := h
  refine ⟨before.flatMap CssUnit.spelling, after.flatMap CssUnit.spelling, ?_⟩
  rw [← flatMap_spelling_of_literal hliteral, ← List.flatMap_append, ← List.flatMap_append,
    hunits, flatMap_spelling_units]

/-! ## Words of the text -/

/-- The reader goes through the front of a text and is then somewhere. -/
theorem unitsFrom_append (reading : Reading) (cs rest : List Char) :
    ∃ us reading', unitsFrom reading (cs ++ rest) = us ++ unitsFrom reading' rest := by
  induction cs generalizing reading with
  | nil => exact ⟨[], reading, rfl⟩
  | cons c cs ih =>
      obtain ⟨us, reading', hus⟩ := ih (reading.step c).2
      exact ⟨(reading.step c).1 ++ us, reading', by
        rw [List.cons_append, unitsFrom, hus, List.append_assoc]⟩

/-- A character that neither goes on with an escape nor ends one. -/
structure Starts (c : Char) : Prop where
  notHex : (hexValue c).isSome = false
  notSpace : isWhitespace c = false
  notReturn : c ≠ '\r'
  notBackslash : c ≠ '\\'

/-- Wherever the reader is, such a character ends the escape before it and is read. -/
theorem unitsFrom_starts {c : Char} (h : Starts c) (reading : Reading) (rest : List Char) :
    ∃ us u, unitsFrom reading (c :: rest) = us ++ u :: unitsFrom .text rest ∧ u.char = c := by
  have hnewline : c ≠ '\n' := by
    rintro rfl
    exact absurd h.notSpace (by decide)
  have hstep : ∃ us u, reading.step c = (us ++ [u], .text) ∧ u.char = c := by
    cases reading with
    | text => exact ⟨[], .literal c, by simp [Reading.step, h.notBackslash], rfl⟩
    | backslash =>
        exact ⟨[], .escape ['\\', c] c, by simp [Reading.step, h.notHex], rfl⟩
    | hex digits =>
        refine ⟨[.escape ('\\' :: digits) (escapedChar digits)], .literal c, ?_, rfl⟩
        simp [Reading.step, h.notHex, h.notSpace, h.notReturn, h.notBackslash]
    | carriageReturn digits =>
        refine ⟨[.escape ('\\' :: (digits ++ ['\r'])) (escapedChar digits)], .literal c, ?_, rfl⟩
        simp [Reading.step, h.notBackslash, hnewline]
  obtain ⟨us, u, hus, hu⟩ := hstep
  exact ⟨us, u, by rw [unitsFrom, hus, List.append_assoc, List.singleton_append], hu⟩

theorem unitsFrom_literal {word : List Char} (h : ∀ c ∈ word, c ≠ '\\') (rest : List Char) :
    unitsFrom .text (word ++ rest) = word.map .literal ++ unitsFrom .text rest := by
  induction word with
  | nil => rfl
  | cons c word ih =>
      have hc : c ≠ '\\' := h c List.mem_cons_self
      have hstep : Reading.text.step c = ([.literal c], .text) := if_neg hc
      rw [List.cons_append, unitsFrom, hstep, ih (fun d hd => h d (List.mem_cons_of_mem _ hd))]
      rfl

/-- A word of the text is a word of the resolved text, unless it may begin inside an
escape or holds one. -/
theorem infix_resolve {c : Char} {word text : List Char} (hc : Starts c)
    (hword : ∀ d ∈ word, d ≠ '\\') (h : c :: word <:+: text) : c :: word <:+: resolve text := by
  obtain ⟨before, after, rfl⟩ := h
  obtain ⟨us, reading, hus⟩ := unitsFrom_append .text before (c :: word ++ after)
  obtain ⟨us', u, hus', hu⟩ := unitsFrom_starts hc reading (word ++ after)
  refine ⟨(us ++ us').map CssUnit.char, (unitsFrom .text after).map CssUnit.char, ?_⟩
  have hunits : units (before ++ c :: word ++ after) =
      us ++ (us' ++ u :: (word.map .literal ++ unitsFrom .text after)) := by
    rw [units, List.append_assoc, hus, List.cons_append, hus', unitsFrom_literal hword]
  have hchars : (word.map CssUnit.literal).map CssUnit.char = word := by
    rw [List.map_map]
    exact List.map_id word
  rw [resolve, hunits]
  simp only [List.map_append, List.map_cons, hu, hchars, List.append_assoc, List.cons_append]

end Lib.Css
