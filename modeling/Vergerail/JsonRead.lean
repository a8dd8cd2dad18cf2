import Mathlib.Tactic.IntervalCases
import Vergerail.JsonText

/-!
# Reading JSON texts

What a JSON text is, as a reader of it: the grammar with insignificant white space, string
escapes and surrogate pairs, and numbers kept as their text. A text is valid if the reader
gets through it, and then what it says is what the reader found.
-/

namespace Vergerail

namespace Json

/-- Insignificant white space. -/
def isBlank (c : Char) : Bool := c ∈ [' ', '\n', '\r', '\t']

/-- Skip to the next token. -/
def skip (input : List Char) : List Char := input.dropWhile isBlank

/-! ## Strings -/

/-- The value of a hexadecimal digit. -/
def hexValue (c : Char) : Option Nat :=
  if '0' ≤ c ∧ c ≤ '9' then some (c.toNat - '0'.toNat)
  else if 'a' ≤ c ∧ c ≤ 'f' then some (c.toNat - 'a'.toNat + 10)
  else if 'A' ≤ c ∧ c ≤ 'F' then some (c.toNat - 'A'.toNat + 10)
  else none

/-- Four hexadecimal digits. -/
def readHex : List Char → Option (Nat × List Char)
  | a :: b :: c :: d :: rest => do
      let a ← hexValue a
      let b ← hexValue b
      let c ← hexValue c
      let d ← hexValue d
      return (((a * 16 + b) * 16 + c) * 16 + d, rest)
  | _ => none

/-- What follows `\u`: a scalar value, or a pair of surrogates. -/
def readUnicode (input : List Char) : Option (Char × List Char) := do
  let (high, rest) ← readHex input
  if high < 0xD800 ∨ 0xDFFF < high then return (Char.ofNat high, rest)
  else match rest with
    | '\\' :: 'u' :: rest =>
        let (low, rest) ← readHex rest
        if high < 0xDC00 ∧ 0xDC00 ≤ low ∧ low ≤ 0xDFFF then
          return (Char.ofNat (0x10000 + (high - 0xD800) * 0x400 + (low - 0xDC00)), rest)
        else none
    | _ => none

/-- One character of a string, with its escape read. -/
def readChar : List Char → Option (Char × List Char)
  | '\\' :: '"' :: rest => some ('"', rest)
  | '\\' :: '\\' :: rest => some ('\\', rest)
  | '\\' :: '/' :: rest => some ('/', rest)
  | '\\' :: 'b' :: rest => some (Char.ofNat 8, rest)
  | '\\' :: 'f' :: rest => some (Char.ofNat 12, rest)
  | '\\' :: 'n' :: rest => some ('\n', rest)
  | '\\' :: 'r' :: rest => some ('\r', rest)
  | '\\' :: 't' :: rest => some ('\t', rest)
  | '\\' :: 'u' :: rest => readUnicode rest
  | '\\' :: _ => none
  | c :: rest => if c.toNat < 0x20 then none else some (c, rest)
  | [] => none

/-- The rest of a string, behind its opening quote. -/
def readBody : Nat → List Char → Option (List Char × List Char)
  | 0, _ => none
  | _ + 1, '"' :: rest => some ([], rest)
  | fuel + 1, input => do
      let (c, rest) ← readChar input
      let (cs, rest) ← readBody fuel rest
      return (c :: cs, rest)

/-! ## Numbers -/

def isDigitChar (c : Char) : Bool := '0' ≤ c ∧ c ≤ '9'

/-- At least one digit. -/
def digits : List Char → Option (List Char)
  | c :: rest => if isDigitChar c then some (rest.dropWhile isDigitChar) else none
  | [] => none

/-- The integer part: no leading zero. -/
def integerPart : List Char → Option (List Char)
  | '-' :: '0' :: rest => some rest
  | '-' :: rest => digits rest
  | '0' :: rest => some rest
  | input => digits input

def fractionPart : List Char → Option (List Char)
  | '.' :: rest => digits rest
  | input => some input

def exponentPart : List Char → Option (List Char)
  | c :: rest =>
    if c = 'e' ∨ c = 'E' then
      match rest with
      | '+' :: rest => digits rest
      | '-' :: rest => digits rest
      | rest => digits rest
    else some (c :: rest)
  | [] => some []

/-- The characters a number is made of. -/
def isNumberChar (c : Char) : Bool := isDigitChar c || c ∈ ['-', '+', '.', 'e', 'E']

/-- The text of a number. -/
def isNumberText (text : List Char) : Bool :=
  text.all isNumberChar && ((integerPart text).bind fractionPart).bind exponentPart == some []

/-! ## Values -/

/-- A value that is one word. -/
def readWord (input : List Char) : Option (Json × List Char) :=
  match input with
  | 'n' :: 'u' :: 'l' :: 'l' :: rest => some (null, rest)
  | 't' :: 'r' :: 'u' :: 'e' :: rest => some (bool true, rest)
  | 'f' :: 'a' :: 'l' :: 's' :: 'e' :: rest => some (bool false, rest)
  | _ =>
    let text := input.takeWhile isNumberChar
    if isNumberText text then some (number (String.ofList text), input.dropWhile isNumberChar)
    else none

mutual

/-- A value; nested values are read with less fuel. -/
def readValue : Nat → List Char → Option (Json × List Char)
  | 0, _ => none
  | fuel + 1, input =>
    match skip input with
    | '"' :: rest => do
        let (cs, rest) ← readBody (rest.length + 1) rest
        return (string (String.ofList cs), rest)
    | '[' :: rest =>
      match skip rest with
      | ']' :: rest => some (array [], rest)
      | rest => do
          let (items, rest) ← readItems fuel rest
          return (array items, rest)
    | '\x7b' :: rest =>
      match skip rest with
      | '\x7d' :: rest => some (object [], rest)
      | rest => do
          let (members, rest) ← readMembers fuel rest
          return (object members, rest)
    | input => readWord input

/-- The items of an array, and its end. -/
def readItems : Nat → List Char → Option (List Json × List Char)
  | 0, _ => none
  | fuel + 1, input => do
      let (item, rest) ← readValue fuel input
      match skip rest with
      | ']' :: rest => return ([item], rest)
      | ',' :: rest =>
          let (items, rest) ← readItems fuel rest
          return (item :: items, rest)
      | _ => none

/-- The members of an object, and its end. -/
def readMembers : Nat → List Char → Option (List (String × Json) × List Char)
  | 0, _ => none
  | fuel + 1, input =>
    match skip input with
    | '"' :: rest => do
        let (name, rest) ← readBody (rest.length + 1) rest
        match skip rest with
        | ':' :: rest =>
            let (value, rest) ← readValue fuel rest
            match skip rest with
            | '\x7d' :: rest => return ([(String.ofList name, value)], rest)
            | ',' :: rest =>
                let (members, rest) ← readMembers fuel rest
                return ((String.ofList name, value) :: members, rest)
            | _ => none
        | _ => none
    | _ => none

end

/-- The value of a JSON text; none where the text is not valid JSON. -/
def read (text : String) : Option Json :=
  match readValue (text.length + 1) text.toList with
  | some (v, rest) => if skip rest = [] then some v else none
  | none => none

/-! ## A text that was written is read back -/

theorem skip_cons {c : Char} {rest : List Char} (h : isBlank c = false) :
    skip (c :: rest) = c :: rest :=
  List.dropWhile_cons_of_neg (by rw [h]; exact Bool.false_ne_true)

theorem hexValue_hexDigit {n : Nat} (h : n < 16) : hexValue (hexDigit n) = some n := by
  interval_cases n <;> decide

/-- A control character is read back from its number. -/
theorem readUnicode_control {c : Char} (h : c.toNat < 0x20) (rest : List Char) :
    readUnicode ('0' :: '0' :: hexDigit (c.toNat / 16) :: hexDigit (c.toNat % 16) :: rest) =
      some (c, rest) := by
  have hhigh := hexValue_hexDigit (n := c.toNat / 16) (by omega)
  have hlow := hexValue_hexDigit (n := c.toNat % 16) (by omega)
  have hzero : hexValue '0' = some 0 := by decide
  have hread : readHex ('0' :: '0' :: hexDigit (c.toNat / 16) :: hexDigit (c.toNat % 16) :: rest)
      = some (c.toNat, rest) := by
    rw [readHex, hzero, hhigh, hlow]
    simp only [Option.bind_eq_bind, Option.bind_some, Option.pure_def, Option.some.injEq,
      Prod.mk.injEq, and_true]
    omega
  rw [readUnicode, hread]
  have hscalar : c.toNat < 0xD800 ∨ 0xDFFF < c.toNat := by omega
  simp only [Option.bind_eq_bind, Option.bind_some, Option.pure_def, if_pos hscalar,
    Char.ofNat_toNat]

/-- A character is read back from what was written for it. -/
theorem readChar_escapeChar (c : Char) (rest : List Char) :
    readChar (escapeChar c ++ rest) = some (c, rest) := by
  have hofNat : ∀ n, c.toNat = n → c = Char.ofNat n := by
    rintro n rfl
    exact (Char.ofNat_toNat c).symm
  unfold escapeChar
  by_cases hquote : c = '"'
  · subst hquote; rfl
  rw [if_neg hquote]
  by_cases hbackslash : c = '\\'
  · subst hbackslash; rfl
  rw [if_neg hbackslash]
  by_cases hnewline : c = '\n'
  · subst hnewline; rfl
  rw [if_neg hnewline]
  by_cases hreturn : c = '\r'
  · subst hreturn; rfl
  rw [if_neg hreturn]
  by_cases htab : c = '\t'
  · subst htab; rfl
  rw [if_neg htab]
  by_cases hback : c.toNat = 8
  · rw [if_pos hback, hofNat 8 hback]; rfl
  rw [if_neg hback]
  by_cases hfeed : c.toNat = 12
  · rw [if_pos hfeed, hofNat 12 hfeed]; rfl
  rw [if_neg hfeed]
  by_cases hcontrol : c.toNat < 0x20
  · rw [if_pos hcontrol]
    exact readUnicode_control hcontrol rest
  · rw [if_neg hcontrol, List.singleton_append]
    simp [readChar, hbackslash, hcontrol]

/-- What is written for a character does not start with a quote. -/
theorem escapeChar_cons (c : Char) : ∃ d ds, escapeChar c = d :: ds ∧ d ≠ '"' := by
  unfold escapeChar
  by_cases hquote : c = '"'
  · exact ⟨_, _, if_pos hquote, by decide⟩
  rw [if_neg hquote]
  repeat' split
  all_goals first
    | exact ⟨'\\', _, rfl, by decide⟩
    | exact ⟨c, [], rfl, hquote⟩

theorem readBody_written {cs : List Char} {fuel : Nat} {rest : List Char}
    (h : (cs.flatMap escapeChar).length < fuel) :
    readBody fuel (cs.flatMap escapeChar ++ '"' :: rest) = some (cs, rest) := by
  induction cs generalizing fuel with
  | nil =>
      obtain ⟨fuel, rfl⟩ := Nat.exists_eq_succ_of_ne_zero (by omega : fuel ≠ 0)
      rfl
  | cons c cs ih =>
      obtain ⟨fuel, rfl⟩ := Nat.exists_eq_succ_of_ne_zero (by omega : fuel ≠ 0)
      obtain ⟨d, ds, hescape, hd⟩ := escapeChar_cons c
      rw [List.flatMap_cons, List.length_append] at h
      have hstep : readBody (fuel + 1) (escapeChar c ++ (cs.flatMap escapeChar ++ '"' :: rest)) =
          (readChar (escapeChar c ++ (cs.flatMap escapeChar ++ '"' :: rest))).bind
            (fun p => (readBody fuel p.2).bind (fun q => some (p.1 :: q.1, q.2))) := by
        rw [hescape, List.cons_append]
        rw [readBody]
        · rfl
        · rintro _ heq
          exact hd (List.cons.inj heq).1
      rw [hescape, List.length_cons] at h
      rw [List.flatMap_cons, List.append_assoc, hstep, readChar_escapeChar, Option.bind_some,
        ih (by omega), Option.bind_some]

/-- What follows a value does not continue a number. -/
def Delimited (rest : List Char) : Prop := ∀ c ∈ rest.head?, isNumberChar c = false

/-- The numbers of a value are numbers. -/
inductive NumbersOk : Json → Prop
  | null : NumbersOk .null
  | bool (b : Bool) : NumbersOk (.bool b)
  | number {text : String} (h : isNumberText text.toList = true) : NumbersOk (.number text)
  | string (s : String) : NumbersOk (.string s)
  | array {items : List Json} (h : ∀ item ∈ items, NumbersOk item) : NumbersOk (.array items)
  | object {members : List (String × Json)} (h : ∀ member ∈ members, NumbersOk member.2) :
      NumbersOk (.object members)

theorem readString_written (s : String) (rest : List Char) :
    readBody ((s.toList.flatMap escapeChar ++ '"' :: rest).length + 1)
      (s.toList.flatMap escapeChar ++ '"' :: rest) = some (s.toList, rest) := by
  refine readBody_written ?_
  rw [List.length_append]
  omega

theorem takeWhile_delimited {text rest : List Char} (htext : text.all isNumberChar = true)
    (hrest : Delimited rest) : (text ++ rest).takeWhile isNumberChar = text ∧
      (text ++ rest).dropWhile isNumberChar = rest := by
  rw [List.all_eq_true] at htext
  have hstop : rest.takeWhile isNumberChar = [] ∧ rest.dropWhile isNumberChar = rest := by
    cases rest with
    | nil => exact ⟨rfl, rfl⟩
    | cons c rest =>
        have hc := hrest c rfl
        rw [List.takeWhile_cons, List.dropWhile_cons, hc]
        exact ⟨rfl, rfl⟩
  rw [List.takeWhile_append_of_pos htext, List.dropWhile_append_of_pos htext, hstop.1, hstop.2,
    List.append_nil]
  exact ⟨rfl, rfl⟩

theorem isBlank_of_isNumberChar {c : Char} (h : isNumberChar c = true) : isBlank c = false := by
  rw [← Bool.not_eq_true]
  intro hblank
  simp only [isBlank, decide_eq_true_eq, List.mem_cons, List.not_mem_nil, or_false] at hblank
  rcases hblank with rfl | rfl | rfl | rfl <;> simp [isNumberChar, isDigitChar] at h

/-- A number is read back if nothing behind it continues it. -/
theorem readWord_number {text : String} (h : isNumberText text.toList = true) {rest : List Char}
    (hrest : Delimited rest) :
    readWord (text.toList ++ rest) = some (.number text, rest) := by
  obtain ⟨hchars, hform⟩ := Bool.and_eq_true_iff.mp h
  obtain ⟨htake, hdrop⟩ := takeWhile_delimited hchars hrest
  have hword : readWord (text.toList ++ rest) =
      (if isNumberText ((text.toList ++ rest).takeWhile isNumberChar) then
        some (number (String.ofList ((text.toList ++ rest).takeWhile isNumberChar)),
          (text.toList ++ rest).dropWhile isNumberChar)
      else none) := by
    cases hlist : text.toList with
    | nil => rw [hlist] at hform; cases hform
    | cons c cs =>
        have hc : isNumberChar c = true :=
          List.all_eq_true.mp hchars c (hlist ▸ List.mem_cons_self)
        unfold readWord
        split
        · rename_i heq
          rw [(List.cons.inj heq).1] at hc
          cases hc
        · rename_i heq
          rw [(List.cons.inj heq).1] at hc
          cases hc
        · rename_i heq
          rw [(List.cons.inj heq).1] at hc
          cases hc
        · rfl
  rw [hword, htake, hdrop, if_pos h, String.ofList_toList]

/-! ### Values -/

/-- What is written for a value starts with a character that is not blank, nor the end of a
list or an object. -/
theorem chars_cons {v : Json} (h : v.NumbersOk) : ∃ c cs, v.chars = c :: cs ∧
    isBlank c = false ∧ c ≠ ']' ∧ c ≠ '\x7d' := by
  cases h with
  | null => exact ⟨'n', _, by rw [chars], by decide, by decide, by decide⟩
  | bool b =>
      cases b with
      | true => exact ⟨'t', _, by rw [chars], by decide, by decide, by decide⟩
      | false => exact ⟨'f', _, by rw [chars], by decide, by decide, by decide⟩
  | @number text h =>
      obtain ⟨hchars, hform⟩ := Bool.and_eq_true_iff.mp h
      rw [chars]
      cases hlist : text.toList with
      | nil => rw [hlist] at hform; cases hform
      | cons c cs =>
          have hc := List.all_eq_true.mp hchars c (hlist ▸ List.mem_cons_self)
          refine ⟨c, cs, rfl, isBlank_of_isNumberChar hc, ?_, ?_⟩
          · rintro rfl
            cases hc
          · rintro rfl
            cases hc
  | string s => exact ⟨'"', _, by rw [chars, quoted], by decide, by decide, by decide⟩
  | array _ => exact ⟨'[', _, by rw [chars], by decide, by decide, by decide⟩
  | object _ => exact ⟨'\x7b', _, by rw [chars], by decide, by decide, by decide⟩

theorem itemsChars_more (item next : Json) (items : List Json) :
    itemsChars (item :: next :: items) = chars item ++ ',' :: itemsChars (next :: items) := by
  rw [itemsChars]
  rintro ⟨⟩

theorem membersChars_more (name : String) (value : Json) (next : String × Json)
    (members : List (String × Json)) : membersChars ((name, value) :: next :: members) =
      quoted name ++ ':' :: (chars value ++ ',' :: membersChars (next :: members)) := by
  rw [membersChars]
  rintro ⟨⟩

theorem itemsChars_cons (item : Json) (items : List Json) (h : item.NumbersOk) :
    ∃ c cs, itemsChars (item :: items) = c :: cs ∧
      isBlank c = false ∧ c ≠ ']' ∧ c ≠ '\x7d' := by
  obtain ⟨c, cs, hcs, hc⟩ := chars_cons h
  cases items with
  | nil => exact ⟨c, cs, by rw [itemsChars, hcs], hc⟩
  | cons next items =>
      refine ⟨c, cs ++ ',' :: itemsChars (next :: items), ?_, hc⟩
      rw [itemsChars_more, hcs, List.cons_append]

theorem membersChars_cons (member : String × Json) (members : List (String × Json)) :
    ∃ cs, membersChars (member :: members) = '"' :: cs := by
  obtain ⟨name, value⟩ := member
  cases members with
  | nil => exact ⟨_, by rw [membersChars, quoted, List.cons_append]⟩
  | cons next members => exact ⟨_, by rw [membersChars_more, quoted, List.cons_append]⟩

theorem readValue_string (fuel : Nat) (rest : List Char) :
    readValue (fuel + 1) ('"' :: rest) = (readBody (rest.length + 1) rest).bind
      (fun p => some (string (String.ofList p.1), p.2)) := by
  rw [readValue, skip_cons (by decide)]
  rfl

theorem readValue_bracket (fuel : Nat) (rest : List Char) : readValue (fuel + 1) ('[' :: rest) =
    match skip rest with
    | ']' :: rest => some (array [], rest)
    | rest => (readItems fuel rest).bind (fun p => some (array p.1, p.2)) := by
  rw [readValue, skip_cons (by decide)]
  rfl

theorem readValue_array {fuel : Nat} {c : Char} {rest : List Char} (hblank : isBlank c = false)
    (hc : c ≠ ']') : readValue (fuel + 1) ('[' :: c :: rest) =
      (readItems fuel (c :: rest)).bind (fun p => some (array p.1, p.2)) := by
  rw [readValue_bracket, skip_cons hblank]
  split
  · rename_i heq
    exact absurd (List.cons.inj heq).1 hc
  · rfl

theorem readValue_brace (fuel : Nat) (rest : List Char) : readValue (fuel + 1) ('\x7b' :: rest) =
    match skip rest with
    | '\x7d' :: rest => some (object [], rest)
    | rest => (readMembers fuel rest).bind (fun p => some (object p.1, p.2)) := by
  rw [readValue, skip_cons (by decide)]
  rfl

theorem readValue_object {fuel : Nat} {c : Char} {rest : List Char} (hblank : isBlank c = false)
    (hc : c ≠ '\x7d') : readValue (fuel + 1) ('\x7b' :: c :: rest) =
      (readMembers fuel (c :: rest)).bind (fun p => some (object p.1, p.2)) := by
  rw [readValue_brace, skip_cons hblank]
  split
  · rename_i heq
    exact absurd (List.cons.inj heq).1 hc
  · rfl

/-- Anything that starts otherwise is a word. -/
theorem readValue_word {fuel : Nat} {c : Char} {rest : List Char} (hblank : isBlank c = false)
    (hquote : c ≠ '"') (harray : c ≠ '[') (hobject : c ≠ '\x7b') :
    readValue (fuel + 1) (c :: rest) = readWord (c :: rest) := by
  rw [readValue, skip_cons hblank]
  split
  · rename_i heq
    exact absurd (List.cons.inj heq).1 hquote
  · rename_i heq
    exact absurd (List.cons.inj heq).1 harray
  · rename_i heq
    exact absurd (List.cons.inj heq).1 hobject
  · rfl

theorem readItems_last {fuel : Nat} {input rest : List Char} {item : Json}
    (h : readValue fuel input = some (item, ']' :: rest)) :
    readItems (fuel + 1) input = some ([item], rest) := by
  simp only [readItems, h, Option.bind_eq_bind, Option.bind_some, skip_cons (c := ']') rfl]
  rfl

theorem readItems_more {fuel : Nat} {input rest rest' : List Char} {item : Json}
    {items : List Json} (h : readValue fuel input = some (item, ',' :: rest))
    (hitems : readItems fuel rest = some (items, rest')) :
    readItems (fuel + 1) input = some (item :: items, rest') := by
  simp only [readItems, h, Option.bind_eq_bind, Option.bind_some, skip_cons (c := ',') rfl]
  rw [hitems]
  rfl

/-- The name of a member and its value, with what follows. -/
theorem readMembers_named {fuel : Nat} {rest rest' : List Char} {name : String} {value : Json}
    (h : readValue fuel rest = some (value, rest')) :
    readMembers (fuel + 1) (quoted name ++ ':' :: rest) =
      match skip rest' with
      | '\x7d' :: rest => some ([(name, value)], rest)
      | ',' :: rest => (readMembers fuel rest).bind (fun q => some ((name, value) :: q.1, q.2))
      | _ => none := by
  rw [quoted, List.cons_append, List.append_assoc, List.singleton_append]
  rw [readMembers, skip_cons (by decide)]
  change (readBody _ _).bind _ = _
  rw [readString_written, Option.bind_some]
  simp only [skip_cons (c := ':') rfl]
  change (readValue fuel rest).bind _ = _
  rw [h, Option.bind_some]
  simp only [String.ofList_toList]
  rfl

theorem readMembers_last {fuel : Nat} {rest rest' : List Char} {name : String} {value : Json}
    (h : readValue fuel rest = some (value, '\x7d' :: rest')) :
    readMembers (fuel + 1) (quoted name ++ ':' :: rest) = some ([(name, value)], rest') := by
  rw [readMembers_named h, skip_cons (by decide)]
  rfl

theorem readMembers_more {fuel : Nat} {rest rest' rest'' : List Char} {name : String}
    {value : Json} {members : List (String × Json)}
    (h : readValue fuel rest = some (value, ',' :: rest'))
    (hmembers : readMembers fuel rest' = some (members, rest'')) :
    readMembers (fuel + 1) (quoted name ++ ':' :: rest) =
      some ((name, value) :: members, rest'') := by
  rw [readMembers_named h, skip_cons (by decide)]
  change (readMembers fuel rest').bind _ = _
  rw [hmembers]
  rfl

theorem delimited_cons {c : Char} {rest : List Char} (h : isNumberChar c = false) :
    Delimited (c :: rest) := by
  intro d hd
  cases hd
  exact h

/-- The reader gets through what was written, with fuel for every character. -/
theorem read_written (fuel : Nat) :
    (∀ v rest, v.NumbersOk → v.chars.length ≤ fuel → Delimited rest →
      readValue fuel (v.chars ++ rest) = some (v, rest)) ∧
    (∀ items rest, items ≠ [] → (∀ item ∈ items, item.NumbersOk) →
      (itemsChars items).length < fuel →
      readItems fuel (itemsChars items ++ ']' :: rest) = some (items, rest)) ∧
    (∀ members rest, members ≠ [] → (∀ member ∈ members, member.2.NumbersOk) →
      (membersChars members).length < fuel →
      readMembers fuel (membersChars members ++ '\x7d' :: rest) = some (members, rest)) := by
  induction fuel with
  | zero =>
      refine ⟨?_, fun _ _ _ _ h => absurd h (Nat.not_lt_zero _),
        fun _ _ _ _ h => absurd h (Nat.not_lt_zero _)⟩
      intro v rest hv hlength
      obtain ⟨c, cs, hcs, _⟩ := chars_cons hv
      rw [hcs, List.length_cons] at hlength
      omega
  | succ fuel ih =>
      obtain ⟨ihValue, ihItems, ihMembers⟩ := ih
      refine ⟨?_, ?_, ?_⟩
      · intro v rest hv hlength hrest
        cases hv with
        | null =>
            rw [chars]
            exact readValue_word (by decide) (by decide) (by decide) (by decide)
        | bool b =>
            cases b with
            | true =>
                rw [chars]
                exact readValue_word (by decide) (by decide) (by decide) (by decide)
            | false =>
                rw [chars]
                exact readValue_word (by decide) (by decide) (by decide) (by decide)
        | @number text h =>
            obtain ⟨c, cs, hcs, hblank, _⟩ := chars_cons (.number h)
            have hword := readWord_number h hrest
            have hc : isNumberChar c = true := by
              rw [chars] at hcs
              exact List.all_eq_true.mp (Bool.and_eq_true_iff.mp h).1 c (hcs ▸ List.mem_cons_self)
            rw [chars] at hcs ⊢
            rw [hcs, List.cons_append] at hword ⊢
            rw [readValue_word hblank, hword]
            · rintro rfl
              cases hc
            · rintro rfl
              cases hc
            · rintro rfl
              cases hc
        | string s =>
            rw [chars, quoted, List.cons_append, List.append_assoc, List.singleton_append,
              readValue_string, readString_written, Option.bind_some, String.ofList_toList]
        | @array items h =>
            rw [chars, List.length_cons, List.length_append, List.length_singleton] at hlength
            rw [chars, List.cons_append, List.append_assoc, List.singleton_append]
            cases items with
            | nil =>
                rw [itemsChars, List.nil_append, readValue_bracket, skip_cons (by decide)]
                rfl
            | cons item items =>
                have hitems := ihItems (item :: items) rest (by simp) h (by omega)
                obtain ⟨c, cs, hcs, hblank, hc, _⟩ := itemsChars_cons item items
                  (h item List.mem_cons_self)
                rw [hcs, List.cons_append] at hitems ⊢
                rw [readValue_array hblank hc, hitems, Option.bind_some]
        | @object members h =>
            rw [chars, List.length_cons, List.length_append, List.length_singleton] at hlength
            rw [chars, List.cons_append, List.append_assoc, List.singleton_append]
            cases members with
            | nil =>
                rw [membersChars, List.nil_append, readValue_brace, skip_cons (by decide)]
                rfl
            | cons member members =>
                have hmembers := ihMembers (member :: members) rest (by simp) h (by omega)
                obtain ⟨cs, hcs⟩ := membersChars_cons member members
                rw [hcs, List.cons_append] at hmembers ⊢
                rw [readValue_object (by decide) (by decide), hmembers, Option.bind_some]
      · intro items rest hne hitems hlength
        obtain ⟨item, items, rfl⟩ := List.exists_cons_of_ne_nil hne
        obtain ⟨hitem, hothers⟩ := List.forall_mem_cons.mp hitems
        cases items with
        | nil =>
            rw [itemsChars] at hlength ⊢
            exact readItems_last (ihValue item _ hitem (by omega) (delimited_cons (by decide)))
        | cons next items =>
            obtain ⟨c, cs, hcs, _⟩ := chars_cons hitem
            have hpos : 0 < item.chars.length := by
              rw [hcs, List.length_cons]
              omega
            rw [itemsChars_more, List.length_append, List.length_cons] at hlength
            rw [itemsChars_more, List.append_assoc, List.cons_append]
            exact readItems_more (ihValue item _ hitem (by omega) (delimited_cons (by decide)))
              (ihItems (next :: items) rest (by simp) hothers (by omega))
      · intro members rest hne hmembers hlength
        obtain ⟨⟨name, value⟩, members, rfl⟩ := List.exists_cons_of_ne_nil hne
        obtain ⟨hvalue, hothers⟩ := List.forall_mem_cons.mp hmembers
        cases members with
        | nil =>
            rw [membersChars, List.length_append, List.length_cons] at hlength
            rw [membersChars, List.append_assoc, List.cons_append]
            exact readMembers_last (ihValue value _ hvalue (by omega) (delimited_cons (by decide)))
        | cons next members =>
            rw [membersChars_more, List.length_append, List.length_cons, List.length_append,
              List.length_cons] at hlength
            rw [membersChars_more, List.append_assoc, List.cons_append, List.append_assoc,
              List.cons_append]
            exact readMembers_more (ihValue value _ hvalue (by omega) (delimited_cons (by decide)))
              (ihMembers (next :: members) rest (by simp) hothers (by omega))

/-- **A text that was written is read back.** -/
theorem read_toText {v : Json} (h : v.NumbersOk) : read v.toText = some v := by
  have hwritten := (read_written (v.chars.length + 1)).1 v [] h (by omega) (by rintro _ ⟨⟩)
  rw [List.append_nil] at hwritten
  rw [read, toText, String.length_ofList, String.toList_ofList, hwritten]
  rfl

end Json

end Vergerail
