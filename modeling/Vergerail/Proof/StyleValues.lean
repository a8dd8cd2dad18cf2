import Vergerail.Lib.CssEscape
import Vergerail.Proof.ContainedTree

/-!
# What a style value can spell

The check of a style value looks for two function tokens in the characters of the value. A
browser reads units: an escape stands for a character of a token just as well. So an
accepted value is safe exactly if it spells no token with an escape and none of the tokens
the check does not look for.
-/

namespace Vergerail.IfscTextProvider

open Lib Lib.Css

/-- The function tokens that load a resource or run code. -/
def functionTokens : List String := ["url(", "src(", "image-set(", "expression("]

/-- The text has the token, in any letter case. -/
def HasToken (token : String) (text : List Char) : Prop :=
  token.toList <:+: text.map Char.toLower

/-- **A value that loads nothing and runs nothing.** -/
structure StyleSafe (value : String) : Prop where
  noFunction : ∀ token ∈ functionTokens, ¬HasToken token (resolve value.toList)
  noSyntax : ∀ c ∈ value.toList, c ∉ [';', '\x7b', '\x7d', '@']
  noControl : ∀ c ∈ value.toList, charIsControl c = true → c ∈ ['\n', '\r', '\t']

/-- A function token, some of whose characters are escapes. -/
def SpelledWithEscape (value : String) : Prop :=
  ∃ token ∈ functionTokens, ∃ block, block <:+: units value.toList ∧
    token.toList = (block.map CssUnit.char).map Char.toLower ∧ ∃ u ∈ block, u.isEscape = true

/-- No token is spelled with an escape, and the tokens the check does not look for are not
spelled at all. -/
structure SpelledPlainly (value : String) : Prop where
  noSrc : ¬HasToken "src(" value.toList
  noImageSet : ¬HasToken "image-set(" value.toList
  noEscape : ¬SpelledWithEscape value

/-! ## Tokens of a text -/

/-- What the lower case of a letter says about the letter. -/
theorem toLower_cases {c t : Char} (h : c.toLower = t) : c = t ∨ c.toNat + 32 = t.toNat := by
  rw [Char.toLower] at h
  split at h
  · rename_i hupper
    right
    subst h
    obtain ⟨hlow, hhigh⟩ := hupper
    rw [ge_iff_le, UInt32.le_iff_toNat_le] at hlow
    rw [UInt32.le_iff_toNat_le] at hhigh
    simp only [Char.reduceVal, UInt32.reduceToNat] at hlow hhigh
    simp only [Char.toNat, Char.reduceVal, UInt32.toNat_add, UInt32.reduceToNat,
      UInt32.reduceSub]
    omega
  · exact .inl h

theorem containsText_iff {text pattern : String} :
    containsText text pattern = true ↔ pattern.toList <:+: text.toList := by
  simp only [containsText, List.any_eq_true, List.mem_tails, List.isPrefixOf_iff_prefix,
    List.infix_iff_prefix_suffix]
  exact exists_congr fun rest => and_comm

/-- The letters the unchecked tokens begin with are no hexadecimal digits. -/
theorem starts_of_toLower {c : Char} (h : c.toLower = 's' ∨ c.toLower = 'i') : Starts c := by
  have hcases : c = 's' ∨ c = 'S' ∨ c = 'i' ∨ c = 'I' := by
    rcases h with h | h
    · rcases toLower_cases h with rfl | hnat
      · exact .inl rfl
      · exact .inr (.inl (Char.ext (UInt32.toNat_inj.mp (Nat.add_right_cancel hnat))))
    · rcases toLower_cases h with rfl | hnat
      · exact .inr (.inr (.inl rfl))
      · exact .inr (.inr (.inr (Char.ext (UInt32.toNat_inj.mp (Nat.add_right_cancel hnat)))))
  rcases hcases with rfl | rfl | rfl | rfl <;> constructor <;> decide

/-- An unchecked token of the text is there for a browser too. -/
theorem HasToken.resolve {token : String} {t : Char} {rest text : List Char}
    (ht : t = 's' ∨ t = 'i') (htoken : token.toList = t :: rest) (hplain : '\\' ∉ rest)
    (h : HasToken token text) : HasToken token (resolve text) := by
  rw [HasToken, htoken] at h ⊢
  obtain ⟨spelled, hspelled, hlower⟩ := List.infix_map_iff.mp h
  obtain ⟨c, word, rfl, hc, hword⟩ := List.map_eq_cons_iff.mp hlower.symm
  have hfirst : Starts c := starts_of_toLower (hc ▸ ht)
  have hrest : ∀ d ∈ word, d ≠ '\\' := by
    rintro d hd rfl
    exact hplain (hword ▸ List.mem_map.mpr ⟨'\\', hd, by decide⟩)
  rw [hlower]
  exact (infix_resolve hfirst hrest hspelled).map Char.toLower

/-- A token a browser reads is in the text, or is spelled with an escape. -/
theorem hasToken_of_resolve {value token : String} (ht : token ∈ functionTokens)
    (h : HasToken token (Css.resolve value.toList)) :
    HasToken token value.toList ∨ SpelledWithEscape value := by
  obtain ⟨spelled, hspelled, hlower⟩ := List.infix_map_iff.mp h
  obtain ⟨block, hblock, rfl⟩ := List.infix_map_iff.mp hspelled
  by_cases hescape : ∃ u ∈ block, u.isEscape = true
  · exact .inr ⟨token, ht, block, hblock, hlower, hescape⟩
  · left
    rw [HasToken, hlower]
    refine (infix_of_literal hblock ?_).map Char.toLower
    intro u hu
    exact Bool.eq_false_iff.mpr (fun hisEscape => hescape ⟨u, hu, hisEscape⟩)

/-! ## Accepted values -/

/-- What the check of a value finds. -/
theorem unsafeCssValue_false {value : String} (h : unsafeCssValue value = false) :
    ¬HasToken "url(" value.toList ∧ ¬HasToken "expression(" value.toList ∧
      (∀ c ∈ value.toList, c ∉ [';', '\x7b', '\x7d', '@']) ∧
      ∀ c ∈ value.toList, charIsControl c = true → c ∈ ['\n', '\r', '\t'] := by
  simp only [unsafeCssValue, Bool.or_eq_false_iff] at h
  obtain ⟨⟨⟨hurl, hexpression⟩, hbreaks⟩, hcontrol⟩ := h
  have hlower : (String.ofList (value.toList.map Char.toLower)).toList
      = value.toList.map Char.toLower := String.toList_ofList
  rw [← Bool.not_eq_true, containsText_iff, hlower] at hurl hexpression
  rw [List.any_eq_false] at hbreaks hcontrol
  refine ⟨hurl, hexpression, ?_, ?_⟩
  · intro c hc
    exact decide_eq_true_iff.not.mp (hbreaks c hc)
  · intro c hc hisControl
    have hallowed := hcontrol c hc
    rw [isForbiddenControl, hisControl, Bool.true_and, decide_eq_true_iff, not_not] at hallowed
    exact hallowed

theorem src_toList : "src(".toList = 's' :: ['r', 'c', '('] := by decide +kernel

theorem imageSet_toList :
    "image-set(".toList = 'i' :: ['m', 'a', 'g', 'e', '-', 's', 'e', 't', '('] := by
  decide +kernel

theorem styleSafe_iff {value : String} (h : unsafeCssValue value = false) :
    StyleSafe value ↔ SpelledPlainly value := by
  obtain ⟨hurl, hexpression, hbreaks, hcontrol⟩ := unsafeCssValue_false h
  constructor
  · intro hsafe
    constructor
    · intro hsrc
      exact hsafe.noFunction "src(" (by simp [functionTokens])
        (hsrc.resolve (.inl rfl) src_toList (by decide))
    · intro himageSet
      exact hsafe.noFunction "image-set(" (by simp [functionTokens])
        (himageSet.resolve (.inr rfl) imageSet_toList (by decide))
    · rintro ⟨token, htoken, block, hblock, hspelled, _⟩
      refine hsafe.noFunction token htoken ?_
      rw [HasToken, hspelled]
      exact (hblock.map CssUnit.char).map Char.toLower
  · intro hplain
    refine ⟨?_, hbreaks, hcontrol⟩
    intro token htoken hread
    have hraw := (hasToken_of_resolve htoken hread).resolve_right hplain.noEscape
    -- two tokens the check looks for, two it does not
    simp only [functionTokens, List.mem_cons, List.not_mem_nil, or_false] at htoken
    rcases htoken with rfl | rfl | rfl | rfl
    · exact hurl hraw
    · exact hplain.noSrc hraw
    · exact hplain.noImageSet hraw
    · exact hexpression hraw

/-- What the check of a style has found about its texts. -/
theorem validateStyle_ok {value : Json} {id : String} (h : validateStyle value id = .ok ()) :
    ∃ style, value = .object style ∧ ∀ entry ∈ style, ∀ text, entry.2 = .string text →
      unsafeCssValue text = false := by
  obtain ⟨style, hstyle, hentries⟩ := bind_ok.mp h
  refine ⟨style, exactObject_ok hstyle, ?_⟩
  intro entry hentry text htext
  have hsafe := forM_ok hentries entry hentry
  rw [refuse_ok, htext, Bool.not_eq_false'] at hsafe
  simp only [safeStyleValue, Bool.and_eq_true, Bool.not_eq_true'] at hsafe
  exact hsafe.1.2

/-- **An accepted style loads and runs nothing exactly where its texts spell no function
token with an escape, and no `src(` and no `image-set(` at all.** -/
theorem accepted_style_safe_iff (value : Json) (id : String)
    (h : validateStyle value id = .ok ()) :
    ∃ style, value = .object style ∧ ∀ entry ∈ style, ∀ text, entry.2 = .string text →
      (StyleSafe text ↔ SpelledPlainly text) := by
  obtain ⟨style, hvalue, hsafe⟩ := validateStyle_ok h
  refine ⟨style, hvalue, ?_⟩
  intro entry hentry text htext
  exact styleSafe_iff (hsafe entry hentry text htext)

/-- A font whose first letter is an escape: what a browser reads has no function token. -/
theorem accepted_style_safe_iff_font : StyleSafe "\\41 rial, sans-serif" := by
  obtain ⟨style, hvalue, hiff⟩ := accepted_style_safe_iff
    (.object [("fontFamily", .string "\\41 rial, sans-serif")]) "hero"
    (ok_of_toBool (by decide +kernel))
  cases hvalue
  refine (hiff _ List.mem_cons_self _ rfl).mpr ⟨?_, ?_, ?_⟩
  · unfold HasToken
    decide +kernel
  · unfold HasToken
    decide +kernel
  · rintro ⟨token, htoken, block, hblock, hspelled, -⟩
    have hread : token.toList <:+: (resolve "\\41 rial, sans-serif".toList).map Char.toLower := by
      rw [hspelled]
      exact (hblock.map CssUnit.char).map Char.toLower
    clear hspelled
    revert token
    decide +kernel

/-- `url(` with its first letter as an escape is accepted, and a browser reads it. -/
theorem escaped_url_accepted :
    ¬∀ (value : Json) (id : String), validateStyle value id = .ok () →
      ∀ style, value = .object style → ∀ entry ∈ style, ∀ text, entry.2 = .string text →
        StyleSafe text := by
  intro h
  have hsafe := h (.object [("background", .string "\\75rl(//example.invalid/t)")]) "hero"
    (ok_of_toBool (by decide +kernel)) _ rfl _ List.mem_cons_self _ rfl
  exact hsafe.noFunction "url(" (by simp [functionTokens])
    ⟨[], "//example.invalid/t)".toList, by decide +kernel⟩

end Vergerail.IfscTextProvider
