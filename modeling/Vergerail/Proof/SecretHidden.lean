import Vergerail.Proof.CredentialHidden
import Vergerail.Proof.LinePasses

/-!
# What a redacted line tells of a secret

A secret stands behind the marker of its key: `key=`, `key:`, `"key":"` or `Bearer `. The pass
for the key masks it, but the passes before that one see the marker too. One of them may be
inside a value of its own there, and take the marker into its mask. Then the secret is hidden
only if that pass does not stop in it: `authorization=Bearer ` is masked up to the blank, and
what is left is no bearer token any more.
-/

namespace Vergerail

open Lib RedactPass

/-! ## What the passes look for -/

/-- The characters of the keys. -/
def keyChars : List (List Char) :=
  [['a', 'c', 'c', 'e', 's', 's', '_', 't', 'o', 'k', 'e', 'n'],
    ['a', 'u', 't', 'h', 'o', 'r', 'i', 'z', 'a', 't', 'i', 'o', 'n'],
    ['c', 'l', 'i', 'e', 'n', 't', '_', 's', 'e', 'c', 'r', 'e', 't'],
    ['c', 'o', 'd', 'e', '_', 'v', 'e', 'r', 'i', 'f', 'i', 'e', 'r'],
    ['c', 'o', 'o', 'k', 'i', 'e'],
    ['i', 'd', '_', 't', 'o', 'k', 'e', 'n'],
    ['o', 'p', 'e', 'n', 'a', 'i', '_', 'a', 'p', 'i', '_', 'k', 'e', 'y'],
    ['p', 'a', 's', 's', 'w', 'o', 'r', 'd'],
    ['r', 'e', 'f', 'r', 'e', 's', 'h', '_', 't', 'o', 'k', 'e', 'n'],
    ['s', 'e', 'c', 'r', 'e', 't'],
    ['s', 'e', 't', '-', 'c', 'o', 'o', 'k', 'i', 'e'],
    ['t', 'o', 'k', 'e', 'n']]

theorem sensitiveKeys_eq : sensitiveKeys = keyChars.map String.ofList := rfl

theorem bearer_word : "bearer".toList = ['b', 'e', 'a', 'r', 'e', 'r'] := String.toList_ofList

/-- A word that a pass looks for. -/
def IsWord (word : List Char) : Prop :=
  (∃ key ∈ sensitiveKeys, word = key.toList) ∨ word = "bearer".toList

def isWordChar (c : Char) : Bool := c.isLower || c == '_' || c == '-'

variable {word : List Char} {c : Char}

theorem word_chars (h : IsWord word) (hc : c ∈ word) : isWordChar c = true := by
  have hall : (keyChars ++ [['b', 'e', 'a', 'r', 'e', 'r']]).all (·.all isWordChar) = true := by
    decide +kernel
  have hmem : word ∈ keyChars ++ [['b', 'e', 'a', 'r', 'e', 'r']] := by
    rcases h with ⟨key, hkey, rfl⟩ | rfl
    · rw [sensitiveKeys_eq] at hkey
      obtain ⟨cs, hcs, rfl⟩ := List.mem_map.mp hkey
      rw [String.toList_ofList]
      exact List.mem_append_left _ hcs
    · rw [bearer_word]
      exact List.mem_append_right _ (List.mem_singleton_self _)
  exact List.all_eq_true.mp (List.all_eq_true.mp hall word hmem) c hc

/-- A pass looks for a word, which is between quotes or before a sign of its own. -/
inductive NeedleShape (q : Masking Char) : Prop
  | ended (word : List Char) (closing : Char) (hword : IsWord word)
      (hclosing : closing ∈ ['=', ':', ' ']) (hmarker : q.marker = word ++ [closing])
  | quoted (word : List Char) (hword : IsWord word) (hmarker : q.marker = '"' :: (word ++ ['"']))

theorem mem_linePasses {p : RedactPass} (hp : p ∈ linePasses) :
    (∃ key ∈ sensitiveKeys, p = assignment key ∨ p = jsonField key ∨ p = headerValue key) ∨
      p = bearerTokens := by
  rcases List.mem_append.mp hp with hp | hp
  · obtain ⟨key, hkey, hp⟩ := List.mem_flatMap.mp hp
    refine .inl ⟨key, hkey, ?_⟩
    simpa [keyPasses] using hp
  · exact .inr (List.mem_singleton.mp hp)

theorem needle_shape {p : RedactPass} (hp : p ∈ linePasses) :
    p.needle.fold = Char.toLower ∧ p.needle.mask = redactedText.toList ∧ NeedleShape p.needle := by
  have hquote : "\"".toList = ['"'] := String.toList_ofList
  have hequals : "=".toList = ['='] := String.toList_ofList
  have hcolon : ":".toList = [':'] := String.toList_ofList
  rcases mem_linePasses hp with ⟨key, hkey, rfl | rfl | rfl⟩ | rfl
  · refine ⟨rfl, rfl, .ended key.toList '=' (.inl ⟨key, hkey, rfl⟩) (by decide) ?_⟩
    change (key ++ "=").toList = _
    rw [String.toList_append, hequals]
  · refine ⟨rfl, rfl, .quoted key.toList (.inl ⟨key, hkey, rfl⟩) ?_⟩
    change ("\"" ++ key ++ "\"").toList = _
    rw [String.toList_append, String.toList_append, hquote, List.append_assoc,
      List.singleton_append]
  · refine ⟨rfl, rfl, .ended key.toList ':' (.inl ⟨key, hkey, rfl⟩) (by decide) ?_⟩
    change (key ++ ":").toList = _
    rw [String.toList_append, hcolon]
  · exact ⟨rfl, rfl, .ended _ ' ' (.inr rfl) (by decide) UpagentProvider.bearer_shape.1⟩

theorem not_wordChar (h : IsWord word) (hc : isWordChar c = false) : c ∉ word := by
  intro hmem
  rw [word_chars h hmem] at hc
  cases hc

theorem linePasses_uniform : Uniform linePasses where
  mask := fun p hp => (needle_shape hp).2.1
  noMask := by
    intro p hp o ho
    obtain ⟨hfold, _, hshape⟩ := needle_shape hp
    have hnone : ∀ d ∈ ['<', '>'], d ∉ p.needle.marker := by
      intro d hd
      cases hshape with
      | ended word closing hword hclosing hmarker =>
          rw [hmarker, List.mem_append, List.mem_singleton]
          rintro (hmem | rfl)
          · refine not_wordChar hword ?_ hmem
            rcases List.mem_pair.mp hd with rfl | rfl <;> decide
          · rcases List.mem_pair.mp hd with rfl | rfl <;> revert hclosing <;> decide
      | quoted word hword hmarker =>
          rw [hmarker, List.mem_cons, List.mem_append, List.mem_singleton]
          rcases List.mem_pair.mp hd with rfl | rfl
          all_goals
            rintro (heq | hmem | heq)
            · revert heq; decide
            · exact not_wordChar hword (by decide) hmem
            · revert heq; decide
    have hmem : ∀ d ∈ ['<', '>'], d ∈ o → d ∈ p.needle.marker := by
      intro d hd hmem
      have hlower : p.needle.fold d = d := by
        rw [hfold]
        rcases List.mem_pair.mp hd with rfl | rfl <;> decide
      rw [← ho, ← hlower]
      exact List.mem_map_of_mem hmem
    exact ⟨fun h => hnone '<' (by decide) (hmem '<' (by decide) h),
      fun h => hnone '>' (by decide) (hmem '>' (by decide) h)⟩

variable {p : RedactPass} {x y v b : List Char}

/-- What a pass looks for lies across the end of a text only if the text ends inside the word,
or with the quote before it. -/
theorem last_of_straddle (hp : p ∈ linePasses) (h : p.needle.Straddles (x ++ [c]) y) :
    isWordChar c.toLower = true ∨
      c.toLower = '"' ∧ ∃ word, IsWord word ∧ word ++ ['"'] <+: y.map Char.toLower := by
  obtain ⟨hfold, _, hshape⟩ := needle_shape hp
  obtain ⟨s, t, hs, ht, hsx, hty, hmarker⟩ := h
  rw [hfold, List.map_append] at hmarker
  have hty := hty.map Char.toLower
  obtain ⟨t₀, e, hte⟩ := (List.eq_nil_or_concat (t.map Char.toLower)).resolve_left
    (fun hnil => ht (List.map_eq_nil_iff.mp hnil))
  obtain ⟨s₀, hs₀⟩ : ∃ s₀, s = s₀ ++ [c] := by
    obtain ⟨u, hu⟩ := hsx
    obtain ⟨s₀, d, rfl⟩ := (List.eq_nil_or_concat s).resolve_left hs
    rw [List.concat_eq_append, ← List.append_assoc] at hu
    have hd := (List.append_inj' hu rfl).2
    cases hd
    exact ⟨s₀, List.concat_eq_append⟩
  rw [hte, List.concat_eq_append] at hty
  rw [hs₀, List.map_append, List.map_singleton, hte, List.concat_eq_append] at hmarker
  cases hshape with
  | ended word closing hword _ hneedle =>
      rw [hneedle, ← List.append_assoc] at hmarker
      have hfront := (List.append_inj' hmarker rfl).1
      exact .inl (word_chars hword (by rw [← hfront]; simp))
  | quoted word hword hneedle =>
      -- the last character is in the word, or it is the quote that opens it
      rw [hneedle, ← List.cons_append, ← List.append_assoc] at hmarker
      obtain ⟨hfront, hclosing⟩ := List.append_inj' hmarker rfl
      cases hclosing
      cases s₀ with
      | nil =>
          rw [List.map_nil, List.nil_append, List.singleton_append] at hfront
          obtain ⟨hquote, rfl⟩ := List.cons.inj hfront
          exact .inr ⟨hquote, t₀, hword, hty⟩
      | cons d s₀ =>
          rw [List.map_cons, List.cons_append, List.cons_append] at hfront
          have hword' := (List.cons.inj hfront).2
          exact .inl (word_chars hword (by rw [← hword']; simp))

theorem not_straddles_of_last (hp : p ∈ linePasses) (hword : isWordChar c.toLower = false)
    (hquote : c.toLower ≠ '"') : ¬p.needle.Straddles (x ++ [c]) y := by
  intro hover
  rcases last_of_straddle hp hover with hin | ⟨hin, _⟩
  · rw [hword] at hin
    cases hin
  · exact hquote hin

/-- No word is in the text, in any letter case. -/
def KeyFree (v : List Char) : Prop := ∀ word, IsWord word → ¬word <:+: v.map Char.toLower

/-- The words by their characters. -/
theorem keyFree_of_words
    (h : ∀ word ∈ keyChars ++ [['b', 'e', 'a', 'r', 'e', 'r']], ¬word <:+: v.map Char.toLower) :
    KeyFree v := by
  rintro word (⟨key, hkey, rfl⟩ | rfl)
  · rw [sensitiveKeys_eq] at hkey
    obtain ⟨cs, hcs, rfl⟩ := List.mem_map.mp hkey
    rw [String.toList_ofList]
    exact h cs (List.mem_append_left _ hcs)
  · rw [bearer_word]
    exact h _ (List.mem_append_right _ (List.mem_singleton_self _))

theorem not_occurs (hp : p ∈ linePasses) (hv : KeyFree v) : ¬p.needle.Occurs v := by
  obtain ⟨hfold, _, hshape⟩ := needle_shape hp
  rintro ⟨l, o, r, rfl, ho⟩
  rw [hfold] at ho
  have hinfix : o.map Char.toLower <:+: (l ++ o ++ r).map Char.toLower :=
    List.IsInfix.map _ ⟨l, r, rfl⟩
  rw [ho] at hinfix
  cases hshape with
  | ended word closing hword _ hneedle =>
      rw [hneedle] at hinfix
      exact hv word hword ((List.prefix_append word [closing]).isInfix.trans hinfix)
  | quoted word hword hneedle =>
      rw [hneedle] at hinfix
      have hword' : word <:+: '"' :: (word ++ ['"']) := ⟨['"'], ['"'], rfl⟩
      exact hv word hword (hword'.trans hinfix)

/-- A quote ends every word. -/
theorem not_straddles_quote (hp : p ∈ linePasses) (hv : KeyFree v) :
    ¬p.needle.Straddles v ('"' :: b) := by
  obtain ⟨hfold, _, hshape⟩ := needle_shape hp
  rintro ⟨s, t, hs, ht, hsv, htb, hmarker⟩
  obtain ⟨d, t, rfl⟩ := List.exists_cons_of_ne_nil ht
  obtain ⟨u, hu⟩ := htb
  obtain ⟨rfl, _⟩ := List.cons.inj hu
  have hlower : Char.toLower '"' = '"' := by decide
  rw [hfold, List.map_append, List.map_cons, hlower] at hmarker
  cases hshape with
  | ended word closing hword hclosing hneedle =>
      have hmem : '"' ∈ word ++ [closing] := by
        rw [← hneedle, ← hmarker]
        simp
      rcases List.mem_append.mp hmem with hmem | hmem
      · exact not_wordChar hword (by decide) hmem
      · rw [← List.mem_singleton.mp hmem] at hclosing
        revert hclosing
        decide
  | quoted word hword hneedle =>
      rw [hneedle] at hmarker
      obtain ⟨e, s, rfl⟩ := List.exists_cons_of_ne_nil hs
      rw [List.map_cons, List.cons_append] at hmarker
      have htail := (List.cons.inj hmarker).2
      have hnot : '"' ∉ word := not_wordChar hword (by decide)
      rcases List.eq_nil_or_concat (t.map Char.toLower) with hnil | ⟨t₀, f, ht₀⟩
      · -- the quote is the closing one, so the whole word is in the value
        rw [hnil] at htail
        have hs' := (List.append_inj' htail rfl).1
        have hsuffix := (hsv.map Char.toLower).isInfix
        rw [List.map_cons, hs'] at hsuffix
        exact hv word hword ((List.suffix_cons _ word).isInfix.trans hsuffix)
      · rw [ht₀, List.concat_eq_append, ← List.cons_append, ← List.append_assoc] at htail
        have hfront := (List.append_inj' htail rfl).1
        exact hnot (by rw [← hfront]; simp)

/-! ## Secrets and their markers -/

/-- The text of a JSON string between its quotes: a backslash comes with a character. -/
inductive JsonBody : List Char → Prop
  | nil : JsonBody []
  | plain {c : Char} {cs : List Char} (hquote : c ≠ '"') (hslash : c ≠ '\\') (h : JsonBody cs) :
      JsonBody (c :: cs)
  | escape {c : Char} {cs : List Char} (h : JsonBody cs) : JsonBody ('\\' :: c :: cs)

/-- How a secret stands in a line. -/
inductive SecretForm
  | json
  | assignment
  | header
  | bearer

namespace SecretForm

/-- What stands before the secret, in any letter case. A header has white space behind the
colon, which is no part of the secret. -/
def IsMarker (key : String) (m : List Char) : SecretForm → Prop
  | json => ∃ k : List Char, k.map Char.toLower = key.toList ∧ m = '"' :: (k ++ ['"', ':', '"'])
  | assignment => ∃ k : List Char, k.map Char.toLower = key.toList ∧ m = k ++ ['=']
  | header => ∃ k w : List Char, k.map Char.toLower = key.toList ∧
      (∀ c ∈ w, charIsWhitespace c = true) ∧ m = k ++ ':' :: w
  | bearer => ∃ k : List Char, k.map Char.toLower = "bearer".toList ∧ m = k ++ [' ']

/-- What stands behind the secret. -/
def Closes (b : List Char) : SecretForm → Prop
  | json => b.head? = some '"'
  | _ => True

/-- What the secret may be. -/
def Shape (v : List Char) : SecretForm → Prop
  | json => JsonBody v
  | assignment => ∀ c ∈ v, endsAssignment c = false
  | header => ∀ c ∈ v, endsHeader c = false
  | bearer => ∀ c ∈ v, endsBearer c = false

/-- The pass for the marker. -/
def pass (key : String) : SecretForm → RedactPass
  | json => jsonField key
  | assignment => RedactPass.assignment key
  | header => headerValue key
  | bearer => bearerTokens

end SecretForm

variable {form : SecretForm} {key : String} {a m : List Char}

theorem toLower_of_isWhitespace (h : charIsWhitespace c = true) : c.toLower = c :=
  UpagentProvider.toLower_of_endsValue (UpagentProvider.endsValue_of_isWhitespace h)

theorem not_wordChar_of_isWhitespace (h : charIsWhitespace c = true) :
    isWordChar c.toLower = false ∧ c.toLower ≠ '"' := by
  rw [toLower_of_isWhitespace h]
  refine ⟨?_, by rintro rfl; revert h; decide⟩
  rw [← Bool.not_eq_true]
  intro hword
  simp only [isWordChar, Char.isLower, Bool.or_eq_true, Bool.and_eq_true, decide_eq_true_eq,
    beq_iff_eq] at hword
  rcases hword with (⟨hlow, hhigh⟩ | rfl) | rfl
  · have hlow' : 97 ≤ c.toNat := UInt32.le_iff_toNat_le.mp hlow
    have hhigh' : c.toNat ≤ 122 := UInt32.le_iff_toNat_le.mp hhigh
    simp only [charIsWhitespace, Bool.or_eq_true, Bool.and_eq_true, decide_eq_true_eq,
      beq_iff_eq] at h
    omega
  · revert h; decide
  · revert h; decide

/-- A marker ends with no part of a word. -/
theorem marker_last (hm : form.IsMarker key m) : ∃ m₀ c, m = m₀ ++ [c] ∧
    isWordChar c.toLower = false ∧ (c.toLower = '"' → form = .json) := by
  cases form with
  | json =>
      obtain ⟨k, _, rfl⟩ := hm
      exact ⟨'"' :: (k ++ ['"', ':']), '"', by simp, by decide, fun _ => rfl⟩
  | assignment =>
      obtain ⟨k, _, rfl⟩ := hm
      exact ⟨k, '=', rfl, by decide, fun h => absurd h (by decide)⟩
  | header =>
      obtain ⟨k, w, _, hw, rfl⟩ := hm
      rcases List.eq_nil_or_concat w with rfl | ⟨w₀, c, rfl⟩
      · exact ⟨k, ':', rfl, by decide, fun h => absurd h (by decide)⟩
      · obtain ⟨hword, hquote⟩ := not_wordChar_of_isWhitespace (hw c (by simp))
        exact ⟨k ++ ':' :: w₀, c, by simp, hword, fun h => absurd h hquote⟩
  | bearer =>
      obtain ⟨k, _, rfl⟩ := hm
      exact ⟨k, ' ', rfl, by decide, fun h => absurd h (by decide)⟩

/-- Behind a marker no pass finds what it looks for in a secret without a word. -/
theorem clear_at_marker (hp : p ∈ linePasses) (hm : form.IsMarker key m) (hb : form.Closes b)
    (hv : KeyFree v) : Clear p.needle (a ++ m) v b := by
  refine ⟨?_, not_occurs hp hv⟩
  obtain ⟨m₀, c, rfl, hword, hquote⟩ := marker_last hm
  rw [← List.append_assoc]
  intro hover
  rcases last_of_straddle hp hover with hin | ⟨hc, word, hin, hpre⟩
  · rw [hword] at hin
    cases hin
  · obtain ⟨b', rfl⟩ : ∃ b', b = '"' :: b' := by
      cases hquote hc
      exact ⟨b.tail, (List.cons_head?_tail hb).symm⟩
    rw [List.map_append, List.map_cons] at hpre
    have hwhole := (List.prefix_append word ['"']).trans hpre
    -- a word before the closing quote is in the secret, or has the quote in it
    by_cases hlength : word.length ≤ (v.map Char.toLower).length
    · have hown := List.prefix_of_prefix_length_le hwhole (List.prefix_append _ _) hlength
      exact hv word hin hown.isInfix
    · have hlower : Char.toLower '"' = '"' := by decide
      have hquoted : v.map Char.toLower ++ ['"'] <+: word := by
        refine List.prefix_of_prefix_length_le ?_ hwhole ?_
        · rw [hlower]
          exact (List.prefix_append_right_inj _).mpr ⟨_, rfl⟩
        · rw [List.length_append, List.length_singleton]
          omega
      exact not_wordChar hin (c := '"') (by decide) (hquoted.subset (by simp))

/-! ## The pass for the marker -/

/-- The text ends outside of a value, and nothing the pass looks for reaches into the marker. -/
structure Passable (p : RedactPass) (a m : List Char) : Prop where
  outside : p.isInside a = false
  next : ∀ c ∈ m.head?, p.minds a c = false
  clear : ¬p.needle.Straddles a m

/-- No pass before the one for the marker takes or finds a part of it. -/
def LeftAlone : List RedactPass → RedactPass → List Char → List Char → Prop
  | [], own, a, m => Passable own a m
  | p :: earlier, own, a, m =>
      Passable p a m ∧ ¬p.needle.Occurs m ∧ LeftAlone earlier own (p.run a) m

theorem json_passable {q : Masking Char} (h : Passable (.json q) a m) :
    (∀ escaped, jsonEdge q a ≠ .inside escaped) ∧ (jsonEdge q a = .pending → ∀ c ∈ m.head?,
      isAsciiWhitespace c = false ∧ c ≠ ':' ∧ c ≠ '"') := by
  constructor
  · intro escaped hedge
    have houtside := h.outside
    rw [isInside, hedge] at houtside
    cases houtside
  · intro hpending c hc
    have hnext := h.next c hc
    rw [minds, hpending] at hnext
    simpa [and_assoc] using hnext

/-- A pass that finds nothing in the marker leaves it. -/
theorem Passable.leaves (h : Passable p a m) (hm : m ≠ []) (hoccurs : ¬p.needle.Occurs m)
    (v b : List Char) : p.fits (a ++ m) v b = true ∧
      p.after (a ++ m) v b = some (p.tail v b) ∧ p.run (a ++ m) = p.run a ++ m := by
  have hsplit : p.needle.split m = none := Masking.split_eq_none_iff.mpr hoccurs
  cases p with
  | plain q =>
      have hopen : q.isOpen a = false := h.outside
      have hclear : ¬q.Straddles a m := h.clear
      have hclosed : q.isOpen (a ++ m) = false := by
        rw [Masking.isOpen_append hclear (by rw [hopen]; exact fun heq => by cases heq), hopen,
          if_neg Bool.false_ne_true]
        exact Masking.isOpen_none hsplit
      refine ⟨?_, ?_, ?_⟩
      · rw [fits, isInside, hclosed, Bool.not_false, Bool.true_or, Bool.and_true,
          Option.all_eq_true]
        intro c _
        rw [minds, hclosed]
        rfl
      · rw [after, hclosed]
        rfl
      · rw [RedactPass.run, Masking.run_append hclear (by rw [hopen]; exact fun heq => by cases heq),
          hopen, if_neg Bool.false_ne_true, Masking.run_none (p := q) hsplit]
        rfl
  | json q =>
      obtain ⟨hedge, hnext⟩ := json_passable h
      have hclear : ¬q.Straddles a m := h.clear
      have hscan : jsonScan q m = .clear := jsonScan_none hsplit
      have houtside : jsonEdge q (a ++ m) = .outside := by
        rw [jsonEdge_append hclear hedge hnext hm, jsonEdge_clear hscan]
      refine ⟨?_, ?_, ?_⟩
      · rw [fits, isInside, houtside, Bool.not_false, Bool.true_or, Bool.and_true,
          Option.all_eq_true]
        intro c _
        rw [minds, houtside]
        rfl
      · rw [after, houtside]
      · rw [RedactPass.run, jsonRun_append hclear hedge hnext,
          jsonRun_kept (x := m) (by rw [hscan]; intro _ _ heq; cases heq)]
        rfl

theorem split_marker_append {q : Masking Char} {o : List Char} (ho : o.map q.fold = q.marker)
    (w : List Char) : q.split (o ++ w) = some (o, w) := by
  cases o with
  | nil => exact absurd ho.symm q.nonempty
  | cons c cs =>
      have hlength : q.marker.length = (c :: cs).length := by rw [← ho, List.length_map]
      have hpre : q.marker.isPrefixOf ((c :: cs ++ w).map q.fold) = true := by
        rw [List.map_append, ho, List.isPrefixOf_iff_prefix]
        exact List.prefix_append _ _
      rw [List.cons_append, Masking.split, ← List.cons_append, if_pos hpre, hlength,
        List.take_left, List.drop_left]

/-- Behind its marker a plain pass is inside a value. -/
theorem plain_takes {q : Masking Char} {o w : List Char} (h : Passable (.plain q) a (o ++ w))
    (ho : o.map q.fold = q.marker) (hw : ∀ c ∈ w, q.skips c = true)
    (hstart : ∀ c ∈ (v ++ b).head?, q.skips c = false) (hv : ∀ c ∈ v, q.stops c = false) :
    (plain q).fits (a ++ (o ++ w)) v b = true ∧ (plain q).after (a ++ (o ++ w)) v b = none := by
  have hopen : q.isOpen a = false := h.outside
  have hclear : ¬q.Straddles a (o ++ w) := h.clear
  have hbehind : q.behind w = [] := by
    rw [Masking.behind, List.dropWhile_eq_nil_iff.mpr hw]
    rfl
  have hinside : q.isOpen (a ++ (o ++ w)) = true := by
    rw [Masking.isOpen_append hclear (by rw [hopen]; exact fun heq => by cases heq), hopen,
      if_neg Bool.false_ne_true, Masking.isOpen_some (split_marker_append ho w), if_pos hbehind]
  constructor
  · rw [fits, Bool.and_eq_true, isInside, hinside, Bool.not_true, Bool.false_or, keeps,
      Option.all_eq_true]
    constructor
    · intro c hc
      rw [minds, hstart c hc, Bool.and_false]
      rfl
    · rw [List.all_eq_true]
      intro c hc
      rw [hv c hc]
      rfl
  · rw [after, hinside]
    rfl

/-- A string that is properly escaped has no quote that ends it. -/
theorem JsonBody.keeps (h : JsonBody v) :
    findJsonStringEnd false v = none ∧ escapedAfter false v = false := by
  induction h with
  | nil => exact ⟨rfl, rfl⟩
  | plain hquote hslash _ ih =>
      rw [findJsonStringEnd, if_neg (fun hc => hslash hc.1), if_neg (fun hc => hquote hc.1),
        escapedAfter_cons, decide_eq_false hslash]
      exact ih
  | escape _ ih =>
      rw [findJsonStringEnd, if_pos (by decide), findJsonStringEnd,
        if_neg (by simp), if_neg (by simp), escapedAfter_cons, escapedAfter_cons]
      simpa using ih

/-- Behind its marker the JSON pass is inside a string. -/
theorem json_takes {k : List Char} (hk : k.map Char.toLower = key.toList)
    (h : Passable (jsonField key) a ('"' :: (k ++ ['"', ':', '"']))) (hv : JsonBody v)
    (hb : b.head? = some '"') :
    (jsonField key).fits (a ++ '"' :: (k ++ ['"', ':', '"'])) v b = true ∧
      (jsonField key).after (a ++ '"' :: (k ++ ['"', ':', '"'])) v b = none := by
  have hmarker : ('"' :: (k ++ ['"'])).map Char.toLower = (jsonField key).needle.marker := by
    change _ = ("\"" ++ key ++ "\"").toList
    have hquote : "\"".toList = ['"'] := String.toList_ofList
    have hlower : Char.toLower '"' = '"' := by decide
    rw [String.toList_append, String.toList_append, hquote, List.map_cons, List.map_append, hk,
      List.map_singleton, hlower, List.append_assoc, List.singleton_append]
  have hsplit := split_marker_append (q := (jsonField key).needle) hmarker [':', '"']
  have hline : '"' :: (k ++ ['"']) ++ [':', '"'] = '"' :: (k ++ ['"', ':', '"']) := by simp
  have hbehind : jsonBehind [':', '"'] = .inside [':', '"'] [] := by rfl
  have hscan := jsonScan_some hsplit
  rw [hbehind, hline] at hscan
  have hedge : jsonEdge (jsonField key).needle (a ++ '"' :: (k ++ ['"', ':', '"']))
      = .inside false := by
    obtain ⟨hne, hnext⟩ := json_passable h
    rw [jsonEdge_append h.clear hne hnext (List.cons_ne_nil _ _), jsonEdge_inside hscan]
    rfl
  obtain ⟨hend, hescaped⟩ := hv.keeps
  have hclosed : (findJsonStringEnd false b).isSome = true := by
    obtain ⟨b', rfl⟩ : ∃ b', b = '"' :: b' := ⟨b.tail, (List.cons_head?_tail hb).symm⟩
    rw [findJsonStringEnd, if_neg (by decide), if_pos (by decide)]
    rfl
  change (RedactPass.json (jsonField key).needle).fits _ _ _ = true ∧
    (RedactPass.json (jsonField key).needle).after _ _ _ = none
  constructor
  · rw [fits, isInside, hedge, keeps, hend, hescaped]
    simp [minds, hedge]
  · rw [after, hedge]
    dsimp only
    rw [if_pos hclosed]

theorem own_takes (hm : form.IsMarker key m) (h : Passable (form.pass key) a m)
    (hb : form.Closes b) (hv : form.Shape v)
    (hstart : form = .header → ∀ c ∈ (v ++ b).head?, charIsWhitespace c = false) :
    (form.pass key).fits (a ++ m) v b = true ∧ (form.pass key).after (a ++ m) v b = none := by
  cases form with
  | json =>
      obtain ⟨k, hk, rfl⟩ := hm
      exact json_takes hk h hv hb
  | assignment =>
      obtain ⟨k, hk, rfl⟩ := hm
      have hmarker : (k ++ ['=']).map Char.toLower = (key ++ "=").toList := by
        have hequals : "=".toList = ['='] := String.toList_ofList
        rw [List.map_append, hk, String.toList_append, hequals]
        rfl
      have hmarked := List.append_nil (k ++ ['='])
      rw [← hmarked] at h ⊢
      exact plain_takes h hmarker (fun _ hc => absurd hc List.not_mem_nil) (fun _ _ => rfl) hv
  | header =>
      -- the white space behind the colon is skipped, so the secret must not start with more
      obtain ⟨k, w, hk, hw, rfl⟩ := hm
      have hmarker : (k ++ [':']).map Char.toLower = (key ++ ":").toList := by
        have hcolon : ":".toList = [':'] := String.toList_ofList
        rw [List.map_append, hk, String.toList_append, hcolon]
        rfl
      have hmarked : k ++ ':' :: w = (k ++ [':']) ++ w := by simp
      rw [hmarked] at h ⊢
      exact plain_takes h hmarker hw (hstart rfl) hv
  | bearer =>
      obtain ⟨k, hk, rfl⟩ := hm
      have hmarker : (k ++ [' ']).map Char.toLower = "bearer ".toList := by
        rw [List.map_append, hk, UpagentProvider.bearer_shape.1]
        rfl
      have hmarked := List.append_nil (k ++ [' '])
      rw [← hmarked] at h ⊢
      exact plain_takes h hmarker (fun _ hc => absurd hc List.not_mem_nil) (fun _ _ => rfl) hv

/-- What is left behind a secret closes it as before. -/
theorem closes_tail (hp : p ∈ linePasses) (hv : KeyFree v) (hb : form.Closes b) :
    form.Closes (p.tail v b) := by
  cases form with
  | json =>
      obtain ⟨b', rfl⟩ : ∃ b', b = '"' :: b' := ⟨b.tail, (List.cons_head?_tail hb).symm⟩
      change (p.tail v ('"' :: b')).head? = some '"'
      rw [tail_of_clear (not_occurs hp hv) (not_straddles_quote hp hv), head_run]
      rfl
  | _ => trivial

section Left

variable {v' b' : List Char} {earlier later : List RedactPass}

/-- A pass that leaves the marker passes the same on to the next. -/
theorem leftAlone_step (hm : form.IsMarker key m) (hp : p ∈ linePasses) (hv : KeyFree v)
    (h : LeftAlone (p :: earlier) (form.pass key) a m) (hb : form.Closes b)
    (hstart : form = .header → ∀ c ∈ (v ++ b).head?, charIsWhitespace c = false) :
    p.fits (a ++ m) v b = true ∧ p.after (a ++ m) v b = some (p.tail v b) ∧
      p.run (a ++ m) = p.run a ++ m ∧ LeftAlone earlier (form.pass key) (p.run a) m ∧
      form.Closes (p.tail v b) ∧
      (form = .header → ∀ c ∈ (v ++ p.tail v b).head?, charIsWhitespace c = false) := by
  obtain ⟨hpass, hoccurs, hrest⟩ := h
  have hne : m ≠ [] := by
    obtain ⟨m₀, c, rfl, _⟩ := marker_last hm
    simp
  obtain ⟨hfits, hafter, hrun⟩ := hpass.leaves hne hoccurs v b
  refine ⟨hfits, hafter, hrun, hrest, closes_tail hp hv hb, ?_⟩
  rw [append_tail (not_occurs hp hv), head_run]
  exact hstart

/-- **A secret behind a marker that is left alone is hidden.** -/
theorem fate_of_leftAlone (hm : form.IsMarker key m) (hshape : form.Shape v) (hv : KeyFree v)
    (hearlier : earlier ⊆ linePasses) (h : LeftAlone earlier (form.pass key) a m)
    (hb : form.Closes b)
    (hstart : form = .header → ∀ c ∈ (v ++ b).head?, charIsWhitespace c = false) :
    fate (earlier ++ form.pass key :: later) (a ++ m) v b = .hidden := by
  -- along the earlier passes: each changes the text before the marker and behind the secret
  induction earlier generalizing a b with
  | nil =>
      obtain ⟨hfits, hafter⟩ := own_takes hm h hb hshape hstart
      rw [List.nil_append, fate, if_pos hfits, hafter]
  | cons p earlier ih =>
      obtain ⟨hp, hearlier⟩ := List.cons_subset.mp hearlier
      obtain ⟨hfits, hafter, hrun, h, hb, hstart⟩ := leftAlone_step hm hp hv h hb hstart
      rw [List.cons_append, fate, if_pos hfits, hafter]
      dsimp only
      rw [hrun]
      exact ih hearlier h hb hstart

/-- Only the passes before the one for the marker matter to what is left behind two secrets. -/
theorem alike_of_leftAlone (hm : form.IsMarker key m) (hshape : form.Shape v)
    (hshape' : form.Shape v') (hv : KeyFree v) (hv' : KeyFree v')
    (hearlier : earlier ⊆ linePasses) (h : LeftAlone earlier (form.pass key) a m)
    (hb : form.Closes b)
    (hstart : form = .header → ∀ c ∈ (v ++ b).head?, charIsWhitespace c = false)
    (hstart' : form = .header → ∀ c ∈ (v' ++ b).head?, charIsWhitespace c = false)
    (hclear : ∀ p ∈ earlier, ¬p.needle.Straddles v b ∧ ¬p.needle.Straddles v' b) :
    Alike (earlier ++ form.pass key :: later) (a ++ m) v b v' b := by
  induction earlier generalizing a b with
  | nil =>
      obtain ⟨_, hafter⟩ := own_takes hm h hb hshape hstart
      obtain ⟨_, hafter'⟩ := own_takes hm h hb hshape' hstart'
      rw [List.nil_append, Alike, hafter, hafter']
  | cons p earlier ih =>
      obtain ⟨hp, hearlier⟩ := List.cons_subset.mp hearlier
      obtain ⟨⟨hfinish, hfinish'⟩, hclear⟩ := List.forall_mem_cons.mp hclear
      obtain ⟨_, hafter, hrun, hleft, hb₁, hstart⟩ := leftAlone_step hm hp hv h hb hstart
      obtain ⟨_, hafter', _, _, _, hstart'⟩ := leftAlone_step hm hp hv' h hb hstart'
      -- nothing across either end: what is behind both secrets is what the pass makes of `b`
      have htail := tail_of_clear (not_occurs hp hv) hfinish
      have htail' := tail_of_clear (not_occurs hp hv') hfinish'
      rw [List.cons_append, Alike, hafter, hafter']
      dsimp only
      rw [hrun, htail, htail']
      rw [htail] at hb₁ hstart
      rw [htail'] at hstart'
      refine ih hearlier hleft hb₁ hstart hstart' fun q hq => ?_
      have hmask := linePasses_uniform.mask p hp
      have hmarker := linePasses_uniform.noMask q (hearlier hq)
      exact ⟨not_straddles_run hmask hmarker (hclear q hq).1,
        not_straddles_run hmask hmarker (hclear q hq).2⟩

end Left

/-! ## Two secrets -/

/-- A secret of a form: it has the shape, and no word is in it. -/
structure IsSecret (form : SecretForm) (v : List Char) : Prop where
  shape : form.Shape v
  keyFree : KeyFree v

/-- What the passes of `redact_line` do to a value between two texts. -/
def lineFate (before value after : String) : Fate :=
  fate linePasses before.toList value.toList after.toList

/-- Up to the pass that masks them, the passes of `redact_line` leave the same behind two values
between the same two texts. -/
def LeftAlike (before value value' after : String) : Prop :=
  Alike linePasses before.toList value.toList after.toList value'.toList after.toList

/-- What a pass looks for lies across the end of one of the values. -/
def KeyAcross (p : RedactPass) (value value' after : String) : Prop :=
  p.needle.Straddles value.toList after.toList ∨ p.needle.Straddles value'.toList after.toList

/-- `redact_line` for a key, on characters. -/
def redactKeyChars (cs key : List Char) : List Char :=
  let cs := redactAfterNeedle (key ++ ['=']) (fun _ => false) endsAssignment cs.length cs
  let cs := redactJsonChars ('"' :: (key ++ ['"'])) cs.length cs
  redactAfterNeedle (key ++ [':']) charIsWhitespace endsHeader cs.length cs

/-- `redact_line`, on characters. -/
def redactChars (cs : List Char) : List Char :=
  let cs := keyChars.foldl redactKeyChars cs
  redactAfterNeedle ['b', 'e', 'a', 'r', 'e', 'r', ' '] (fun _ => false) endsBearer cs.length cs

theorem redactKey_ofList (cs key : List Char) :
    redactKey (String.ofList cs) (String.ofList key) = String.ofList (redactKeyChars cs key) := by
  have hquote : "\"".toList = ['"'] := String.toList_ofList
  have hequals : "=".toList = ['='] := String.toList_ofList
  have hcolon : ":".toList = [':'] := String.toList_ofList
  rw [redactKey, redactAssignment, redactJsonValue, redactHeaderValue]
  simp only [String.toList_append, String.toList_ofList, String.length_ofList, hquote, hequals,
    hcolon, List.singleton_append]
  rfl

theorem redactLine_ofList (cs : List Char) :
    redactLine (String.ofList cs) = String.ofList (redactChars cs) := by
  have hkeys : ∀ (keys : List (List Char)) (cs : List Char),
      (keys.map String.ofList).foldl redactKey (String.ofList cs) =
        String.ofList (keys.foldl redactKeyChars cs) := by
    intro keys
    induction keys with
    | nil => exact fun _ => rfl
    | cons key keys ih =>
        intro cs
        rw [List.map_cons, List.foldl_cons, redactKey_ofList, ih, List.foldl_cons]
  rw [redactLine, sensitiveKeys_eq, hkeys, redactBearerTokens, UpagentProvider.bearer_chars,
    String.length_ofList, String.toList_ofList]
  rfl

end Vergerail
