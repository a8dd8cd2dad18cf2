import Mathlib.Data.List.Infix

/-!
# The longest end of a list that fits

What fits is a property of lists. Where a list only fits if it fits without its last
element, the longest end that fits can be kept while the list grows: it is an end of what
was kept before, with the new element behind it.
-/

namespace Lib

variable {α : Type}

/-- `s` is the longest end of `l` that fits. -/
structure LongestSuffix (fits : List α → Prop) (s l : List α) : Prop where
  suffix : s <:+ l
  holds : fits s
  longest : ∀ t, t <:+ l → fits t → t <:+ s

namespace LongestSuffix

variable {fits : List α → Prop} {s s' l : List α} {x : α}

theorem of_fits (h : fits l) : LongestSuffix fits l l where
  suffix := List.suffix_rfl
  holds := h
  longest := fun _ ht _ => ht

/-- There is only one. -/
theorem unique (h : LongestSuffix fits s l) (h' : LongestSuffix fits s' l) : s = s' := by
  have hle := h'.longest s h.suffix h.holds
  have hge := h.longest s' h'.suffix h'.holds
  exact hle.eq_of_length_le hge.length_le

/-- **A growing list.** The longest end is found in what was kept of the list before. -/
theorem concat (hmono : ∀ t, fits (t ++ [x]) → fits t) (h : LongestSuffix fits s l)
    (h' : LongestSuffix fits s' (s ++ [x])) : LongestSuffix fits s' (l ++ [x]) where
  suffix := h'.suffix.trans (List.suffix_append_self_iff.mpr h.suffix)
  holds := h'.holds
  longest := by
    intro t ht hfits
    refine h'.longest t ?_ hfits
    rcases List.suffix_concat_iff.mp ht with rfl | ⟨u, rfl, hu⟩
    · exact List.nil_suffix
    · exact List.suffix_append_self_iff.mpr (h.longest u hu (hmono u hfits))

end LongestSuffix

end Lib
