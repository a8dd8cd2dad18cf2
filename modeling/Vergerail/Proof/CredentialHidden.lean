import Vergerail.Bin.UpagentProvider
import Vergerail.Lib.Masking

/-!
# What a failure message tells of a credential

The twelve passes of `bounded_redacted_message` are run one after the other over the same text.
A value behind a marker is gone as soon as one pass comes to it inside a value, and until then
it is left alone. Only two things let it through: a value in quotes ends where it starts, and
the white space in `bearer ` ends the value of a `bearer ` before it.
-/

namespace Vergerail

namespace UpagentProvider

open Lib

/-! ## The passes -/

/-- The markers, in the order of the passes. -/
def markers : List String :=
  ["bearer ", "access_token=", "authorization=", "client_secret=", "cookie=", "id_token=",
    "openai_api_key=", "password=", "refresh_token=", "secret=", "set-cookie=", "token="]

/-- The pass for a marker. -/
def credentialPass (marker : String) (h : marker.toList ≠ []) : Masking Char where
  fold := Char.toLower
  marker := marker.toList
  skips := charIsWhitespace
  stops := endsValue
  mask := "<redacted>".toList
  nonempty := h

/-- The characters of the markers. -/
def markerChars : List (List Char) :=
  [['b', 'e', 'a', 'r', 'e', 'r', ' '],
    ['a', 'c', 'c', 'e', 's', 's', '_', 't', 'o', 'k', 'e', 'n', '='],
    ['a', 'u', 't', 'h', 'o', 'r', 'i', 'z', 'a', 't', 'i', 'o', 'n', '='],
    ['c', 'l', 'i', 'e', 'n', 't', '_', 's', 'e', 'c', 'r', 'e', 't', '='],
    ['c', 'o', 'o', 'k', 'i', 'e', '='],
    ['i', 'd', '_', 't', 'o', 'k', 'e', 'n', '='],
    ['o', 'p', 'e', 'n', 'a', 'i', '_', 'a', 'p', 'i', '_', 'k', 'e', 'y', '='],
    ['p', 'a', 's', 's', 'w', 'o', 'r', 'd', '='],
    ['r', 'e', 'f', 'r', 'e', 's', 'h', '_', 't', 'o', 'k', 'e', 'n', '='],
    ['s', 'e', 'c', 'r', 'e', 't', '='],
    ['s', 'e', 't', '-', 'c', 'o', 'o', 'k', 'i', 'e', '='],
    ['t', 'o', 'k', 'e', 'n', '=']]

theorem toList_markers : markers.map String.toList = markerChars := by
  have htexts : markers = markerChars.map String.ofList := rfl
  rw [htexts, List.map_map]
  simp [Function.comp_def]

/-- What holds of the characters of every marker. -/
theorem forall_markers {P : List Char → Prop} (h : ∀ cs ∈ markerChars, P cs) :
    ∀ marker ∈ markers, P marker.toList := by
  intro marker hmarker
  exact h _ (toList_markers ▸ List.mem_map_of_mem hmarker)

theorem marker_ne_nil : ∀ marker ∈ markers, marker.toList ≠ [] := by
  have hall : ∀ cs ∈ markerChars, cs ≠ [] := by decide
  exact forall_markers hall

theorem bearer_chars : "bearer ".toList = ['b', 'e', 'a', 'r', 'e', 'r', ' '] :=
  String.toList_ofList

theorem bearer_ne_nil : "bearer ".toList ≠ [] := by
  rw [bearer_chars]
  exact List.cons_ne_nil _ _

/-- The passes of `bounded_redacted_message`. -/
def credentialPasses : List (Masking Char) := markers.pmap credentialPass marker_ne_nil

theorem mem_credentialPasses {p : Masking Char} :
    p ∈ credentialPasses ↔ ∃ marker, ∃ h, marker ∈ markers ∧ p = credentialPass marker h := by
  rw [credentialPasses, List.mem_pmap]
  constructor
  · rintro ⟨marker, hmarker, rfl⟩
    exact ⟨marker, marker_ne_nil marker hmarker, hmarker, rfl⟩
  · rintro ⟨marker, h, hmarker, rfl⟩
    exact ⟨marker, hmarker, rfl⟩

theorem splitAfterMarker_eq {marker : String} (h : marker.toList ≠ []) (value : List Char) :
    splitAfterMarker marker.toList value = (credentialPass marker h).split value := by
  induction value with
  | nil => rfl
  | cons c cs ih =>
      rw [splitAfterMarker, Masking.split, ih]
      rfl

/-- The loop of `redact_all_after_marker` is a masking pass. -/
theorem redactChars_eq {marker : String} (h : marker.toList ≠ []) {passes : Nat}
    {value : List Char} (hpasses : value.length ≤ passes) :
    redactChars marker.toList passes value = (credentialPass marker h).run value := by
  induction passes generalizing value with
  | zero =>
      rw [List.length_eq_zero_iff.mp (Nat.le_zero.mp hpasses)]
      exact Masking.run_nil.symm
  | succ passes ih =>
      rw [redactChars, splitAfterMarker_eq h]
      cases hsplit : (credentialPass marker h).split value with
      | none => exact (Masking.run_none hsplit).symm
      | some q =>
          obtain ⟨before, rest⟩ := q
          have hshort := Masking.behind_length hsplit
          rw [Masking.run_some hsplit, ← ih (by omega)]
          rfl

theorem redactAllAfterMarker_eq {marker : String} (h : marker.toList ≠ []) (value : String) :
    redactAllAfterMarker value marker =
      String.ofList ((credentialPass marker h).run value.toList) := by
  rw [redactAllAfterMarker, redactChars_eq h (by rw [String.length_toList])]

/-- The text `bounded_redacted_message` truncates. -/
def redactedMessage (message : String) : String := markers.foldl redactAllAfterMarker message

theorem boundedRedactedMessage_eq (message : String) :
    boundedRedactedMessage message =
      truncateUtf8 (redactedMessage message) maxFailureMessageBytes := rfl

theorem redactedMessage_eq (message : String) :
    redactedMessage message = String.ofList (runAll credentialPasses message.toList) := by
  have hall : ∀ (ms : List String) (h : ∀ m ∈ ms, m.toList ≠ []) (value : String),
      ms.foldl redactAllAfterMarker value =
        String.ofList (runAll (ms.pmap credentialPass h) value.toList) := by
    intro ms
    induction ms with
    | nil => exact fun _ value => String.ofList_toList.symm
    | cons m ms ih =>
        intro h value
        obtain ⟨hm, hms⟩ := List.forall_mem_cons.mp h
        rw [List.foldl_cons, ih hms, redactAllAfterMarker_eq hm, String.toList_ofList]
        rfl
  exact hall markers marker_ne_nil message

/-! ## Truncation -/

/-- The bytes of a text. -/
def textBytes (cs : List Char) : Nat := (cs.map Char.utf8Size).sum

theorem textBytes_append (cs ds : List Char) :
    textBytes (cs ++ ds) = textBytes cs + textBytes ds := by
  rw [textBytes, List.map_append, List.sum_append]
  rfl

theorem utf8ByteSize_ofList (cs : List Char) : (String.ofList cs).utf8ByteSize = textBytes cs := by
  induction cs with
  | nil => rfl
  | cons c cs ih =>
      have hcons : String.ofList (c :: cs) = String.singleton c ++ String.ofList cs := by
        apply String.toList_injective
        simp
      rw [hcons, String.utf8ByteSize_append, String.utf8ByteSize_singleton, ih, textBytes,
        textBytes, List.map_cons, List.sum_cons]

theorem truncateChars_of_le {maximum : Nat} {cs : List Char} (h : textBytes cs ≤ maximum) :
    truncateChars maximum cs = cs := by
  induction cs generalizing maximum with
  | nil => rfl
  | cons c cs ih =>
      rw [textBytes, List.map_cons, List.sum_cons] at h
      rw [truncateChars, if_pos (by omega), ih (by rw [textBytes]; omega)]

theorem truncateUtf8_ofList (cs : List Char) (maximum : Nat) :
    truncateUtf8 (String.ofList cs) maximum = String.ofList (truncateChars maximum cs) := by
  rw [truncateUtf8, utf8ByteSize_ofList, String.toList_ofList]
  split
  · rename_i h
    rw [truncateChars_of_le h]
  · rfl

/-- A truncation that ends in the first part does not depend on the second. -/
theorem truncateChars_append_of_le {maximum : Nat} {cs ds : List Char}
    (h : maximum ≤ textBytes cs) : truncateChars maximum (cs ++ ds) = truncateChars maximum cs := by
  induction cs generalizing maximum with
  | nil =>
      have hzero : maximum = 0 := Nat.le_zero.mp h
      rw [hzero, List.nil_append]
      cases ds with
      | nil => rfl
      | cons d ds => exact if_neg (Nat.not_le.mpr d.utf8Size_pos)
  | cons c cs ih =>
      rw [textBytes, List.map_cons, List.sum_cons] at h
      rw [List.cons_append, truncateChars, truncateChars]
      split
      · rw [ih (by rw [textBytes]; omega)]
      · rfl

theorem truncateChars_append_of_lt {maximum : Nat} {cs ds : List Char}
    (h : textBytes cs ≤ maximum) :
    truncateChars maximum (cs ++ ds) = cs ++ truncateChars (maximum - textBytes cs) ds := by
  induction cs generalizing maximum with
  | nil => rfl
  | cons c cs ih =>
      rw [textBytes, List.map_cons, List.sum_cons] at h
      rw [List.cons_append, truncateChars, if_pos (by omega), ih (by rw [textBytes]; omega),
        textBytes, textBytes, List.map_cons, List.sum_cons, Nat.sub_sub, List.cons_append]

/-! ## Letters -/

/-- Only a capital is changed, and into a small letter. -/
theorem toLower_cases (c : Char) : c.toLower = c ∨
    (65 ≤ c.toNat ∧ c.toNat ≤ 90) ∧ c.toLower.toNat = c.toNat + 32 := by
  rw [Char.toLower]
  split
  · rename_i h
    have hlow : 65 ≤ c.toNat := UInt32.le_iff_toNat_le.mp h.1
    have hhigh : c.toNat ≤ 90 := UInt32.le_iff_toNat_le.mp h.2
    have hshift : ('a'.val - 'A'.val).toNat = 32 := by decide
    refine .inr ⟨⟨hlow, hhigh⟩, ?_⟩
    change (c.val + ('a'.val - 'A'.val)).toNat = c.toNat + 32
    rw [UInt32.toNat_add, hshift]
    exact Nat.mod_eq_of_lt (by change c.toNat + 32 < _; omega)
  · exact .inl rfl

theorem endsValue_of_isWhitespace {c : Char} (h : charIsWhitespace c = true) :
    endsValue c = true := by
  rw [endsValue, h, Bool.true_or]

/-- What ends a value is no letter. -/
theorem toLower_of_endsValue {c : Char} (h : endsValue c = true) : c.toLower = c := by
  rcases toLower_cases c with heq | ⟨hcapital, _⟩
  · exact heq
  · exfalso
    rw [endsValue, Bool.or_eq_true, decide_eq_true_eq] at h
    rcases h with hspace | hpunct
    · simp only [charIsWhitespace, Bool.or_eq_true, Bool.and_eq_true, decide_eq_true_eq,
        beq_iff_eq] at hspace
      omega
    · simp only [List.mem_cons, List.not_mem_nil, or_false] at hpunct
      rcases hpunct with rfl | rfl | rfl | rfl | rfl <;> revert hcapital <;> decide

/-! ## The markers -/

theorem forall_of_any {cs : List Char} {f : Char → Bool} (h : cs.any f = false) :
    ∀ c ∈ cs, f c = false := by
  intro c hc
  exact Bool.eq_false_iff.mpr (List.any_eq_false.mp h c hc)

/-- Every marker but `bearer ` ends with the only `=` in it and has nothing that ends a
value. -/
theorem marker_shape : ∀ marker ∈ markers, marker ≠ "bearer " →
    marker.toList = marker.toList.dropLast ++ ['='] ∧ '=' ∉ marker.toList.dropLast ∧
      ∀ c ∈ marker.toList, endsValue c = false := by
  have hall : ∀ cs ∈ markerChars, cs ≠ ['b', 'e', 'a', 'r', 'e', 'r', ' '] →
      cs = cs.dropLast ++ ['='] ∧ '=' ∉ cs.dropLast ∧ cs.any endsValue = false := by
    decide +kernel
  intro marker hmarker hbearer
  obtain ⟨hshape, hequals, hnone⟩ := forall_markers hall marker hmarker
    (fun heq => hbearer (String.toList_injective (heq.trans bearer_chars.symm)))
  exact ⟨hshape, hequals, forall_of_any hnone⟩

theorem bearer_length : "bearer ".toList.length = 7 := by
  rw [bearer_chars]
  rfl

theorem bearer_shape : "bearer ".toList = "bearer".toList ++ [' '] ∧ ' ' ∉ "bearer".toList ∧
    ∀ c ∈ "bearer".toList, endsValue c = false := by
  have hword : "bearer".toList = ['b', 'e', 'a', 'r', 'e', 'r'] := String.toList_ofList
  rw [bearer_chars, hword]
  exact ⟨rfl, by decide, forall_of_any (by decide)⟩

/-- What no marker has. -/
theorem marker_chars : ∀ marker ∈ markers, ∀ c ∈ ['<', '>', '"', 'x', 'q'], c ∉ marker.toList := by
  have hall : ∀ cs ∈ markerChars, ['<', '>', '"', 'x', 'q'].any (cs.contains ·) = false := by
    decide +kernel
  intro marker hmarker c hc hmem
  have hnot := forall_of_any (forall_markers hall marker hmarker) c hc
  rw [List.contains_iff_mem.mpr hmem] at hnot
  cases hnot

theorem marker_start : ∀ marker ∈ markers, ∀ c ∈ marker.toList.head?, endsValue c = false := by
  have hall : ∀ cs ∈ markerChars, cs.head?.any endsValue = false := by decide +kernel
  intro marker hmarker c hc
  have hnone := forall_markers hall marker hmarker
  rw [Option.mem_def.mp hc] at hnone
  exact hnone

/-- A marker inside a marker is at its end. -/
theorem marker_in_marker : ∀ inner ∈ markers, ∀ outer ∈ markers,
    inner.toList <:+: outer.toList → inner.toList <:+ outer.toList := by
  have hall : ∀ inner ∈ markerChars, ∀ outer ∈ markerChars,
      inner <:+: outer → inner <:+ outer := by decide +kernel
  exact forall_markers fun inner hinner =>
    forall_markers fun outer houter => hall inner hinner outer houter

theorem mask_shape : "<redacted>".toList = '<' :: "redacted>".toList ∧
    "<redacted>".toList = "<redacted".toList ++ ['>'] := by
  have hmask : "<redacted>".toList = ['<', 'r', 'e', 'd', 'a', 'c', 't', 'e', 'd', '>'] :=
    String.toList_ofList
  have htail : "redacted>".toList = ['r', 'e', 'd', 'a', 'c', 't', 'e', 'd', '>'] :=
    String.toList_ofList
  have hfront : "<redacted".toList = ['<', 'r', 'e', 'd', 'a', 'c', 't', 'e', 'd'] :=
    String.toList_ofList
  rw [hmask, htail, hfront]
  exact ⟨rfl, rfl⟩

variable {marker : String} {q : List Char} {c : Char}

/-- A marker in any letter case. -/
theorem mem_marker (hq : q.map Char.toLower = marker.toList) (hc : c ∈ q)
    (hfixed : c.toLower = c) : c ∈ marker.toList := by
  rw [← hq, ← hfixed]
  exact List.mem_map_of_mem hc

theorem marker_solid (hmarker : marker ∈ markers) (hbearer : marker ≠ "bearer ")
    (hq : q.map Char.toLower = marker.toList) (hc : c ∈ q) : endsValue c = false := by
  rw [← Bool.not_eq_true]
  intro hends
  have hmem := mem_marker hq hc (toLower_of_endsValue hends)
  rw [(marker_shape marker hmarker hbearer).2.2 c hmem] at hends
  exact Bool.false_ne_true hends

theorem toLower_eq_of_lt {d : Char} (h : c.toLower = d) (hd : d.toNat < 97) : c = d := by
  rcases toLower_cases c with heq | ⟨hcapital, hshift⟩
  · rw [← heq, h]
  · rw [h] at hshift
    omega

/-- `bearer ` ends with a blank, and the blank is all in it that ends a value. -/
theorem bearer_ends (hq : q.map Char.toLower = "bearer ".toList) :
    ∃ w, q = w ++ [' '] ∧ ∀ c ∈ w, endsValue c = false := by
  obtain ⟨hshape, _, hsolid⟩ := bearer_shape
  rw [hshape] at hq
  obtain ⟨w, last, rfl, hw, hlast⟩ := List.map_eq_append_iff.mp hq
  obtain ⟨d, rfl, hd⟩ := List.map_eq_singleton_iff.mp hlast
  refine ⟨w, by rw [toLower_eq_of_lt hd (by decide)], ?_⟩
  intro c hc
  rw [← Bool.not_eq_true]
  intro hends
  have hmem : c ∈ "bearer".toList := by
    rw [← hw, ← toLower_of_endsValue hends]
    exact List.mem_map_of_mem hc
  rw [hsolid c hmem] at hends
  cases hends

theorem credentialPasses_apart : Apart credentialPasses '<' '>' where
  opened := by
    intro p hp
    obtain ⟨marker, h, _, rfl⟩ := mem_credentialPasses.mp hp
    exact ⟨_, mask_shape.1⟩
  closed := by
    intro p hp
    obtain ⟨marker, h, _, rfl⟩ := mem_credentialPasses.mp hp
    exact ⟨_, mask_shape.2⟩
  noMask := by
    intro p hp q hq
    obtain ⟨marker, h, hmarker, rfl⟩ := mem_credentialPasses.mp hp
    have hchars := marker_chars marker hmarker
    exact ⟨fun hmem => hchars '<' (by decide) (mem_marker hq hmem (by decide)),
      fun hmem => hchars '>' (by decide) (mem_marker hq hmem (by decide))⟩
  noStop := by
    intro p hp p' hp' c hc hhead
    obtain ⟨marker, h, hmarker, rfl⟩ := mem_credentialPasses.mp hp
    obtain ⟨marker', h', hmarker', rfl⟩ := mem_credentialPasses.mp hp'
    have hstart := marker_start marker' hmarker' _ hhead
    have hfixed : c.toLower = c := toLower_of_endsValue hc
    have hstop : endsValue c = true := hc
    change endsValue c.toLower = false at hstart
    rw [hfixed, hstop] at hstart
    cases hstart

/-! ## Which values are covered -/

variable {h : marker.toList ≠ []} {a : List Char}

/-- What is left of a text behind its first stop. -/
theorem dropWhile_solid {v : List Char} (hv : ∀ c ∈ v, endsValue c = false) (b : List Char) :
    (v ++ b).dropWhile (fun c => !endsValue c) = b.dropWhile (fun c => !endsValue c) := by
  refine List.dropWhile_append_of_pos ?_
  intro c hc
  rw [hv c hc]
  rfl

/-- Behind a marker other than `bearer ` a value is open. -/
theorem isOpen_at_marker (hmarker : marker ∈ markers) (hbearer : marker ≠ "bearer ")
    (hq : q.map Char.toLower = marker.toList) (a : List Char) :
    (credentialPass marker h).isOpen (a ++ q) = true := by
  obtain ⟨hlast, honce, _⟩ := marker_shape marker hmarker hbearer
  have hsolid : ∀ c ∈ q, endsValue c = false := fun c hc => marker_solid hmarker hbearer hq hc
  have hstart : (credentialPass marker h).isOpen a = true →
      ∀ c ∈ q.head?, (credentialPass marker h).skips c = false := by
    intro _ c hc
    have hends := hsolid c (List.mem_of_mem_head? hc)
    rw [← Bool.not_eq_true]
    intro hspace
    rw [endsValue_of_isWhitespace hspace] at hends
    cases hends
  have hdrop : q.dropWhile (fun c => !(credentialPass marker h).stops c) = [] := by
    have := dropWhile_solid hsolid []
    rwa [List.append_nil] at this
  rw [Masking.isOpen_append (Masking.not_straddles_marker hq hlast honce) hstart, hdrop,
    if_pos rfl]
  split
  · rfl
  · exact Masking.isOpen_marker hq

/-- **A pass over a text that ends with a marker** ends inside a value, or keeps the marker. -/
theorem pass_over_marker {inner : String} (hinner : inner.toList ≠ []) (hin : inner ∈ markers)
    (hmarker : marker ∈ markers) (hbearer : marker ≠ "bearer ")
    (hq : q.map Char.toLower = marker.toList) (a : List Char) :
    (credentialPass inner hinner).isOpen (a ++ q) = true ∨
      (inner ≠ marker ∧ (credentialPass inner hinner).run (a ++ q) =
        (credentialPass inner hinner).run a ++ q) := by
  have hsolid : ∀ c ∈ q, endsValue c = false := fun c hc => marker_solid hmarker hbearer hq hc
  obtain ⟨hshape, honce, hplain⟩ := marker_shape marker hmarker hbearer
  have hne : q ≠ [] := by
    rintro rfl
    exact marker_ne_nil marker hmarker hq.symm
  by_cases hend : ∃ l q', a ++ q = l ++ q' ∧ q'.map Char.toLower = inner.toList
  · left
    obtain ⟨l, q', heq, hq'⟩ := hend
    rw [heq]
    refine isOpen_at_marker hin ?_ hq' l
    rintro rfl
    -- `bearer ` ends with a blank, and the marker does not
    obtain ⟨w, rfl, _⟩ := bearer_ends hq'
    obtain ⟨q₀, d, rfl⟩ := List.eq_nil_or_concat q |>.resolve_left hne
    rw [List.concat_eq_append, ← List.append_assoc, ← List.append_assoc] at heq
    have hd := (List.append_inj' heq rfl).2
    cases hd
    exact Bool.false_ne_true (hsolid ' ' (by simp)).symm
  · have hstraddle : ¬(credentialPass inner hinner).Straddles a q := by
      rintro ⟨s, t, hs, ht, ⟨l, rfl⟩, hpre, hboth⟩
      have hmap : s.map Char.toLower ++ t.map Char.toLower = inner.toList := by
        rw [← List.map_append]
        exact hboth
      obtain ⟨t₀, e, hconcat⟩ := List.eq_nil_or_concat (t.map Char.toLower) |>.resolve_left
        (fun hnil => ht (List.map_eq_nil_iff.mp hnil))
      have he : e ∈ t.map Char.toLower := by
        rw [hconcat, List.concat_eq_append]
        simp
      have hpart : t.map Char.toLower <+: marker.toList := by
        rw [← hq]
        exact hpre.map _
      rw [hconcat, List.concat_eq_append, ← List.append_assoc] at hmap
      by_cases hinbearer : inner = "bearer "
      · rw [hinbearer, bearer_shape.1] at hmap
        have hblank := (List.append_inj' hmap rfl).2
        cases hblank
        exact Bool.false_ne_true (hplain ' ' (hpart.subset he)).symm
      · obtain ⟨hinshape, _, _⟩ := marker_shape inner hin hinbearer
        rw [hinshape] at hmap
        have hequals := (List.append_inj' hmap rfl).2
        cases hequals
        rw [hshape, List.prefix_concat_iff, ← hshape] at hpart
        rcases hpart with hall | hbefore
        · obtain ⟨r, rfl⟩ := hpre
          have hlength := congrArg List.length (hall.trans hq.symm)
          simp only [List.length_map, List.length_append] at hlength
          have hr : r = [] := List.length_eq_zero_iff.mp (by omega)
          exact hend ⟨l, s ++ t, by rw [hr, List.append_nil, List.append_assoc], hboth⟩
        · exact honce (hbefore.subset he)
    have hoccurs : (credentialPass inner hinner).split q = none := by
      rw [Masking.split_eq_none_iff]
      rintro ⟨l, q', r, hlqr, hq'⟩
      have hinfix : inner.toList <:+: marker.toList := by
        refine ⟨l.map Char.toLower, r.map Char.toLower, ?_⟩
        rw [← hq, hlqr, List.map_append, List.map_append]
        exact congrArg (fun m => l.map Char.toLower ++ m ++ r.map Char.toLower) hq'.symm
      obtain ⟨u, hu⟩ := marker_in_marker inner hin marker hmarker hinfix
      rw [← hu] at hq
      obtain ⟨q₀, q₁, hsplit, _, hq₁⟩ := List.map_eq_append_iff.mp hq
      exact hend ⟨a ++ q₀, q₁, by rw [hsplit, List.append_assoc], hq₁⟩
    have hstart : (credentialPass inner hinner).isOpen a = true →
        ∀ c ∈ q.head?, (credentialPass inner hinner).skips c = false := by
      intro _ c hc
      have hends := hsolid c (List.mem_of_mem_head? hc)
      rw [← Bool.not_eq_true]
      intro hspace
      rw [endsValue_of_isWhitespace hspace] at hends
      cases hends
    have hdrop : q.dropWhile (fun c => !(credentialPass inner hinner).stops c) = [] := by
      have := dropWhile_solid hsolid []
      rwa [List.append_nil] at this
    have hopen := Masking.isOpen_append hstraddle hstart
    have hrun := Masking.run_append hstraddle hstart
    cases ha : (credentialPass inner hinner).isOpen a with
    | true =>
        rw [ha, if_pos rfl, hdrop, if_pos rfl] at hopen
        exact .inl hopen
    | false =>
        rw [ha, if_neg Bool.false_ne_true, Masking.run_none hoccurs] at hrun
        refine .inr ⟨?_, hrun⟩
        rintro rfl
        exact hend ⟨a, q, rfl, hq⟩

/-- A value behind a marker other than `bearer ` is covered by the pass for it, if not before. -/
theorem covers_marker (hmarker : marker ∈ markers) (hbearer : marker ≠ "bearer ")
    (hq : q.map Char.toLower = marker.toList) (a : List Char) :
    covers credentialPasses (a ++ q) = true := by
  have hall : ∀ later : List (Masking Char), later ⊆ credentialPasses →
      credentialPass marker (marker_ne_nil marker hmarker) ∈ later → ∀ a : List Char,
        covers later (a ++ q) = true := by
    intro later
    induction later with
    | nil => exact fun _ hmem => absurd hmem List.not_mem_nil
    | cons p later ih =>
        intro hlater hmem a
        obtain ⟨hp, hrest⟩ := List.cons_subset.mp hlater
        obtain ⟨inner, hinner, hin, rfl⟩ := mem_credentialPasses.mp hp
        rw [covers]
        rcases pass_over_marker hinner hin hmarker hbearer hq a with
          hopen | ⟨hother, hrun⟩
        · rw [hopen, Bool.true_or]
        · rw [hrun]
          have hmem' : credentialPass marker (marker_ne_nil marker hmarker) ∈ later := by
            rcases List.mem_cons.mp hmem with heq | hmem
            · have hlists : marker.toList = inner.toList := congrArg Masking.marker heq
              exact absurd (String.toList_injective hlists).symm hother
            · exact hmem
          rw [ih hrest hmem' _, Bool.or_true]
  refine hall credentialPasses (List.Subset.refl _) ?_ a
  exact mem_credentialPasses.mpr ⟨marker, _, hmarker, rfl⟩

/-- A text is closed by an end that no marker has a part in, if it starts with no blank and
ends with a stop. -/
theorem not_isOpen_of_end {y z : List Char} (hz : z ≠ [])
    (hforeign : ∀ q : List Char, q.map Char.toLower = marker.toList → ∀ c ∈ z, c ∉ q)
    (hstart : ∀ c ∈ z.head?, charIsWhitespace c = false)
    (hstop : ∀ c ∈ z.getLast?, endsValue c = true) :
    (credentialPass marker h).isOpen (y ++ z) = false := by
  rw [← Bool.not_eq_true]
  intro hopen
  obtain ⟨l, q, w, n, heq, hq, hw, hn⟩ := Masking.isOpen_shape hopen
  obtain ⟨z₀, last, hlast⟩ := List.eq_nil_or_concat z |>.resolve_left hz
  rw [List.concat_eq_append] at hlast
  have hn' : n = [] := by
    rcases List.eq_nil_or_concat n with hnil | ⟨n₀, d, rfl⟩
    · exact hnil
    · rw [hlast, List.concat_eq_append, ← List.append_assoc, ← List.append_assoc] at heq
      have hd := (List.append_inj' heq rfl).2
      cases hd
      have hends := hstop last (by rw [hlast, List.getLast?_concat]; rfl)
      rw [show endsValue last = false from hn last (by simp)] at hends
      cases hends
  rw [hn', List.append_nil] at heq
  have hwz : w <:+ y ++ z := ⟨l ++ q, heq.symm⟩
  rcases List.suffix_or_suffix_of_suffix (List.suffix_append y z) hwz with hinside | hinside
  · obtain ⟨d, z', rfl⟩ := List.exists_cons_of_ne_nil hz
    have hspace := hw d (hinside.subset List.mem_cons_self)
    rw [show (credentialPass marker h).skips d = false from hstart d rfl] at hspace
    cases hspace
  · obtain ⟨z', rfl⟩ := hinside
    rw [← List.append_assoc] at heq
    have hboth := List.append_cancel_right heq
    rcases List.eq_nil_or_concat z' with rfl | ⟨z'', d, rfl⟩
    · obtain ⟨d, w', rfl⟩ := List.exists_cons_of_ne_nil hz
      have hspace := hw d List.mem_cons_self
      rw [show (credentialPass marker h).skips d = false from hstart d rfl] at hspace
      cases hspace
    · rcases List.eq_nil_or_concat q with rfl | ⟨q', e, rfl⟩
      · exact h hq.symm
      · rw [List.concat_eq_append, List.concat_eq_append, ← List.append_assoc,
          ← List.append_assoc] at hboth
        have hd := (List.append_inj' hboth rfl).2
        cases hd
        exact hforeign _ hq d (by simp) (by simp)

/-- Such an end is kept, up to what is masked of it. -/
theorem run_of_end {y z : List Char}
    (hforeign : ∀ q : List Char, q.map Char.toLower = marker.toList → ∀ c ∈ z, c ∉ q)
    (hstart : ∀ c ∈ z.head?, charIsWhitespace c = false) :
    (credentialPass marker h).run (y ++ z) = (credentialPass marker h).run y ++
      if (credentialPass marker h).isOpen y then z.dropWhile (fun c => !endsValue c) else z := by
  have hstraddle : ¬(credentialPass marker h).Straddles y z := by
    rintro ⟨s, t, _, ht, _, hpre, hboth⟩
    obtain ⟨d, t, rfl⟩ := List.exists_cons_of_ne_nil ht
    exact hforeign _ hboth d (hpre.subset List.mem_cons_self) (by simp)
  have hkept : ∀ z' : List Char, z' ⊆ z → (credentialPass marker h).run z' = z' := by
    intro z' hsub
    refine Masking.run_none (Masking.split_eq_none_iff.mpr ?_)
    rintro ⟨l, q, r, rfl, hq⟩
    obtain ⟨d, q', rfl⟩ := List.exists_cons_of_ne_nil
      (fun hnil : q = [] => h (by rw [hnil] at hq; exact hq.symm))
    exact hforeign _ hq d (hsub (by simp)) List.mem_cons_self
  rw [Masking.run_append hstraddle (fun _ => hstart)]
  split
  · rw [hkept _ (List.dropWhile_subset _)]
    rfl
  · rw [hkept _ (List.Subset.refl z)]

/-- Behind a quote no value is open, and the quote is kept. -/
theorem covers_quote {y : List Char} {later : List (Masking Char)}
    (hlater : later ⊆ credentialPasses) : covers later (y ++ ['"']) = false ∧
      runAll later (y ++ ['"']) = runAll later y ++ ['"'] := by
  induction later generalizing y with
  | nil => exact ⟨rfl, rfl⟩
  | cons p later ih =>
      obtain ⟨hp, hrest⟩ := List.cons_subset.mp hlater
      obtain ⟨inner, hinner, hin, rfl⟩ := mem_credentialPasses.mp hp
      have hforeign : ∀ q : List Char, q.map Char.toLower = inner.toList →
          ∀ c ∈ ['"'], c ∉ q := by
        intro q hq c hc hmem
        obtain rfl := List.mem_singleton.mp hc
        exact marker_chars inner hin '"' (by decide) (mem_marker hq hmem (by decide))
      have hclosed := not_isOpen_of_end (h := hinner) (y := y) (by simp) hforeign
        (by simp; decide) (by simp; decide)
      have hrun := run_of_end (h := hinner) (y := y) hforeign (by simp; decide)
      have hdrop : ['"'].dropWhile (fun c => !endsValue c) = ['"'] := by decide
      rw [hdrop, ite_self] at hrun
      obtain ⟨hcovers, hall⟩ := ih hrest (y := (credentialPass inner hinner).run y)
      constructor
      · rw [covers, hclosed, Bool.false_or, hrun, hcovers]
      · simp only [runAll, List.foldl_cons]
        rw [hrun]
        exact hall

/-- The passes after the first one do not look behind a mask and a blank. -/
theorem covers_masked {y : List Char} {later : List (Masking Char)}
    (hlater : ∀ p ∈ later, ∃ inner, ∃ hinner, inner ∈ markers ∧ inner ≠ "bearer " ∧
      p = credentialPass inner hinner) : covers later (y ++ ['>', ' ']) = false := by
  induction later generalizing y with
  | nil => rfl
  | cons p later ih =>
      obtain ⟨⟨inner, hinner, hin, hbearer, rfl⟩, hrest⟩ := List.forall_mem_cons.mp hlater
      have hforeign : ∀ q : List Char, q.map Char.toLower = inner.toList →
          ∀ c ∈ ['>', ' '], c ∉ q := by
        intro q hq c hc hmem
        rcases List.mem_cons.mp hc with rfl | hc
        · exact marker_chars inner hin '>' (by decide) (mem_marker hq hmem (by decide))
        · obtain rfl := List.mem_singleton.mp hc
          have hends := marker_solid hin hbearer hq hmem
          revert hends
          decide
      have hclosed := not_isOpen_of_end (h := hinner) (y := y) (by simp) hforeign
        (by simp; decide) (by simp; decide)
      have hrun := run_of_end (h := hinner) (y := y) hforeign (by simp; decide)
      have hend : ∃ y', (credentialPass inner hinner).run (y ++ ['>', ' ']) =
          y' ++ ['>', ' '] := by
        rw [hrun]
        split
        · rename_i hopen
          obtain ⟨l, hl⟩ := Masking.run_open hopen
          refine ⟨l ++ "<redacted".toList, ?_⟩
          have hmask : (credentialPass inner hinner).mask = "<redacted".toList ++ ['>'] :=
            mask_shape.2
          have hdrop : ['>', ' '].dropWhile (fun c => !endsValue c) = [' '] := by decide
          rw [hl, hmask, hdrop]
          simp only [List.append_assoc]
          rfl
        · exact ⟨_, rfl⟩
      obtain ⟨y', hy'⟩ := hend
      rw [covers, hclosed, Bool.false_or, hy']
      exact ih hrest

/-- The text ends inside the value of a `bearer `. -/
def endsInBearer (text : String) : Bool :=
  (credentialPass "bearer " bearer_ne_nil).isOpen text.toList

/-- A value behind `bearer ` is covered unless it is behind the value of another `bearer `. -/
theorem covers_bearer {text : String} (hq : q.map Char.toLower = "bearer ".toList) :
    covers credentialPasses (text.toList ++ q) = !endsInBearer text := by
  obtain ⟨hshape, honce, _⟩ := bearer_shape
  obtain ⟨w, hqw, hw⟩ := bearer_ends hq
  have hb := bearer_ne_nil
  have hfirst : ∃ later, credentialPasses = credentialPass "bearer " hb :: later ∧
      ∀ p ∈ later, ∃ inner, ∃ hinner, inner ∈ markers ∧ inner ≠ "bearer " ∧
        p = credentialPass inner hinner := by
    refine ⟨_, rfl, ?_⟩
    intro p hp
    obtain ⟨inner, hin, rfl⟩ := List.mem_pmap.mp hp
    exact ⟨inner, _, List.mem_cons_of_mem _ hin, by rintro rfl; simp at hin, rfl⟩
  obtain ⟨later, hpasses, hlater⟩ := hfirst
  have hstraddle : ¬(credentialPass "bearer " hb).Straddles text.toList q :=
    Masking.not_straddles_marker hq hshape honce
  have hstart : (credentialPass "bearer " hb).isOpen text.toList = true →
      ∀ c ∈ q.head?, (credentialPass "bearer " hb).skips c = false := by
    intro _ c hc
    have hcw : c ∈ w := by
      cases w with
      | nil =>
          rw [hqw] at hq
          have hlength := congrArg List.length hq
          rw [List.length_map, bearer_length] at hlength
          cases hlength
      | cons d w =>
          rw [hqw] at hc
          cases hc
          exact List.mem_cons_self
    have hends := hw c hcw
    rw [← Bool.not_eq_true]
    intro hspace
    rw [endsValue_of_isWhitespace hspace] at hends
    cases hends
  have hdrop : q.dropWhile (fun c => !(credentialPass "bearer " hb).stops c) = [' '] := by
    rw [hqw]
    exact dropWhile_solid hw [' ']
  have hblank : (credentialPass "bearer " hb).split [' '] = none := by
    rw [← splitAfterMarker_eq, bearer_chars]
    decide
  have hopen := Masking.isOpen_append hstraddle hstart
  have hrun := Masking.run_append hstraddle hstart
  rw [hpasses, covers, endsInBearer]
  cases ha : (credentialPass "bearer " hb).isOpen text.toList with
  | true =>
      rw [ha, if_pos rfl, hdrop, if_neg (by simp), Masking.isOpen_none hblank] at hopen
      rw [ha, if_pos rfl, hdrop, Masking.run_none hblank] at hrun
      obtain ⟨l, hl⟩ := Masking.run_open ha
      have hmask : (credentialPass "bearer " hb).mask = "<redacted".toList ++ ['>'] :=
        mask_shape.2
      have hend : (credentialPass "bearer " hb).run (text.toList ++ q) =
          l ++ "<redacted".toList ++ ['>', ' '] := by
        rw [hrun, hl, hmask]
        simp only [List.append_assoc]
        rfl
      rw [hopen, hend, covers_masked hlater]
      rfl
  | false =>
      have hown := Masking.isOpen_marker (p := credentialPass "bearer " hb) hq
      rw [ha, if_neg Bool.false_ne_true, hown] at hopen
      rw [hopen]
      rfl

/-! ## Two credentials -/

/-- A marker in any letter case. -/
def IsMarker (text : String) : Prop :=
  ∃ marker ∈ markers, text.toList.map Char.toLower = marker.toList

/-- A marker occurs in the text and has a part in the value. -/
def MarkerOverlaps (before value after : String) : Prop :=
  ∃ l q r : String, before ++ value ++ after = l ++ q ++ r ∧ IsMarker q ∧
    l.length < before.length + value.length ∧ before.length < l.length + q.length

/-- A credential: something without white space and without what else ends a value. -/
def IsCredential (value : String) : Prop :=
  value ≠ "" ∧ ∀ c ∈ value.toList, endsValue c = false

/-- A value ends before the text: it is empty or starts with what ends a value. -/
def EndsBefore (text : String) : Prop := ∀ c ∈ text.toList.head?, endsValue c = true

/-- **The message is the same for any two credentials** that stand between these texts. -/
def Hides (before after : String) : Prop :=
  ∀ v v' : String, IsCredential v → IsCredential v' →
    ¬MarkerOverlaps before v after → ¬MarkerOverlaps before v' after →
      boundedRedactedMessage (before ++ v ++ after) = boundedRedactedMessage (before ++ v' ++ after)

variable {before after : String}

/-- A credential that no marker overlaps is taken or left as a whole. -/
theorem whole_of_credential {v : String} (hafter : EndsBefore after) (hv : IsCredential v)
    (hclear : ¬MarkerOverlaps before v after) :
    Whole credentialPasses before.toList v.toList after.toList where
  nonempty := fun hnil => hv.1 (String.toList_injective hnil)
  solid := by
    intro p hp c hc
    obtain ⟨marker, h, _, rfl⟩ := mem_credentialPasses.mp hp
    have hends := hv.2 c hc
    refine ⟨?_, hends⟩
    rw [← Bool.not_eq_true]
    intro hspace
    rw [endsValue_of_isWhitespace hspace] at hends
    cases hends
  ended := by
    intro p hp
    obtain ⟨marker, h, _, rfl⟩ := mem_credentialPasses.mp hp
    exact hafter
  clear := by
    intro p hp hover
    obtain ⟨marker, h, hmarker, rfl⟩ := mem_credentialPasses.mp hp
    obtain ⟨l, q, r, heq, hq, hstart, hend⟩ := hover
    refine hclear ⟨String.ofList l, String.ofList q, String.ofList r, ?_,
      ⟨marker, hmarker, by rw [String.toList_ofList]; exact hq⟩, ?_, ?_⟩
    · apply String.toList_injective
      simpa only [String.toList_append, String.toList_ofList] using heq
    · simpa only [String.length_ofList, String.length_toList] using hstart
    · simpa only [String.length_ofList, String.length_toList] using hend

theorem boundedRedactedMessage_ofList (cs : List Char) :
    boundedRedactedMessage (String.ofList cs) =
      String.ofList (truncateChars maxFailureMessageBytes (runAll credentialPasses cs)) := by
  rw [boundedRedactedMessage_eq, redactedMessage_eq, truncateUtf8_ofList, String.toList_ofList]

theorem append_ofList (before v after : String) :
    before ++ v ++ after = String.ofList (before.toList ++ v.toList ++ after.toList) := by
  apply String.toList_injective
  simp only [String.toList_append, String.toList_ofList]

/-- A credential of one letter that no marker has. -/
theorem foreign_credential {d : Char} (hd : d ∈ ['x', 'q']) (before after : String) :
    IsCredential (String.singleton d) ∧
      ¬MarkerOverlaps before (String.singleton d) after := by
  have hletters : endsValue d = false ∧ d.toLower = d ∧ d ∈ ['<', '>', '"', 'x', 'q'] := by
    rcases List.mem_pair.mp hd with rfl | rfl <;> decide
  obtain ⟨hends, hlower, hforeign⟩ := hletters
  have hlist : (String.singleton d).toList = [d] := String.toList_singleton d
  constructor
  · refine ⟨?_, ?_⟩
    · intro hnil
      have hempty := congrArg String.toList hnil
      rw [hlist] at hempty
      cases hempty
    · rw [hlist]
      intro c hc
      rw [List.mem_singleton.mp hc]
      exact hends
  · rintro ⟨l, q, r, heq, ⟨marker, hmarker, hq⟩, hstart, hend⟩
    have hlists := congrArg String.toList heq
    simp only [String.toList_append, hlist] at hlists
    simp only [← String.length_toList, hlist, List.length_singleton] at hstart hend
    -- the letter is at the same place on both sides, and that is inside the marker
    have hplace : (before.toList ++ [d] ++ after.toList)[before.toList.length]? = some d := by
      simp
    rw [hlists, List.append_assoc, List.getElem?_append_right (by omega),
      List.getElem?_append_left (by omega)] at hplace
    have hmem : d ∈ q.toList := List.mem_of_getElem? hplace
    exact marker_chars marker hmarker d hforeign (mem_marker hq hmem hlower)

theorem singleton_size {d : Char} (hd : d ∈ ['x', 'q']) : d.utf8Size = 1 := by
  rcases List.mem_pair.mp hd with rfl | rfl <;> decide

/-- **The condition for a message to hide a credential**: a pass covers it, or it is behind
the end of the message. -/
theorem hides_iff (hafter : EndsBefore after) :
    Hides before after ↔ covers credentialPasses before.toList = true ∨
      maxFailureMessageBytes ≤ (redactedMessage before).utf8ByteSize := by
  have hsize : (redactedMessage before).utf8ByteSize =
      textBytes (runAll credentialPasses before.toList) := by
    rw [redactedMessage_eq, utf8ByteSize_ofList]
  rw [hsize]
  have hself : credentialPasses ⊆ credentialPasses := List.Subset.refl _
  constructor
  · intro hhides
    by_contra hnot
    rw [not_or, Bool.not_eq_true, Nat.not_le] at hnot
    obtain ⟨hcovers, hshort⟩ := hnot
    -- two letters in its place come out at the same byte
    have hout : ∀ d ∈ ['x', 'q'], boundedRedactedMessage (before ++ String.singleton d ++ after) =
        String.ofList (runAll credentialPasses before.toList ++ d ::
          truncateChars (maxFailureMessageBytes -
            textBytes (runAll credentialPasses before.toList) - 1)
            (runAll credentialPasses after.toList)) := by
      intro d hd
      obtain ⟨hv, hclear⟩ := foreign_credential hd before after
      have hwhole := whole_of_credential hafter hv hclear
      have hone := singleton_size hd
      rw [append_ofList, boundedRedactedMessage_ofList,
        hwhole.runAll credentialPasses_apart hself hcovers, List.append_assoc,
        truncateChars_append_of_lt (by omega), String.toList_singleton, List.singleton_append,
        truncateChars, if_pos (by omega), hone]
    obtain ⟨hx, hxclear⟩ := foreign_credential (d := 'x') (by decide) before after
    obtain ⟨hq, hqclear⟩ := foreign_credential (d := 'q') (by decide) before after
    have hsame := hhides _ _ hx hq hxclear hqclear
    rw [hout 'x' (by decide), hout 'q' (by decide)] at hsame
    have hlists := List.append_cancel_left (String.ofList_injective hsame)
    exact absurd (List.cons.inj hlists).1 (by decide)
  · intro hcondition v v' hv hv' hclear hclear'
    have hwhole := whole_of_credential hafter hv hclear
    have hwhole' := whole_of_credential hafter hv' hclear'
    rw [append_ofList, append_ofList, boundedRedactedMessage_ofList, boundedRedactedMessage_ofList]
    cases hcovers : covers credentialPasses before.toList with
    | true =>
        rw [hwhole.runAll_covered credentialPasses_apart hwhole' hself hcovers]
    | false =>
        rw [hcovers] at hcondition
        have hlong := hcondition.resolve_left Bool.false_ne_true
        rw [hwhole.runAll credentialPasses_apart hself hcovers,
          hwhole'.runAll credentialPasses_apart hself hcovers, List.append_assoc,
          List.append_assoc, truncateChars_append_of_le hlong, truncateChars_append_of_le hlong]

/-- **Which failure messages tell credentials apart.** Behind a marker the message hides a
credential unless the marker is the `bearer ` that ends the value of another one, or the text
before has used the message up. A credential in quotes is hidden in the latter case only. -/
theorem credential_hidden_iff {marker : String} (hmarker : IsMarker marker)
    (before after : String) :
    (EndsBefore after → (Hides (before ++ marker) after ↔
      ¬(marker.toList.map Char.toLower = "bearer ".toList ∧ endsInBearer before = true) ∨
        maxFailureMessageBytes ≤ (redactedMessage (before ++ marker)).utf8ByteSize)) ∧
    (Hides (before ++ marker ++ "\"") ("\"" ++ after) ↔
      maxFailureMessageBytes ≤ (redactedMessage (before ++ marker ++ "\"")).utf8ByteSize) := by
  have hquote : "\"".toList = ['"'] := String.toList_ofList
  constructor
  · intro hafter
    rw [hides_iff hafter, String.toList_append]
    obtain ⟨m, hm, hq⟩ := hmarker
    by_cases hbearer : m = "bearer "
    · rw [hbearer] at hq
      rw [covers_bearer hq, Bool.not_eq_true', ← Bool.not_eq_true]
      simp only [hq, true_and]
    · have hother : marker.toList.map Char.toLower ≠ "bearer ".toList := by
        rw [hq]
        exact fun heq => hbearer (String.toList_injective heq)
      rw [covers_marker hm hbearer hq]
      simp only [hother, false_and, not_false_eq_true, true_or]
  · have hafter : EndsBefore ("\"" ++ after) := by
      intro c hc
      rw [String.toList_append, hquote] at hc
      cases hc
      decide
    rw [hides_iff hafter, String.toList_append, hquote,
      (covers_quote (List.Subset.refl _)).1]
    simp only [Bool.false_eq_true, false_or]

/-- A token behind `Token=`. -/
theorem credential_hidden_token : Hides ("login " ++ "Token=") " refused" := by
  have hletters : "Token=".toList = ['T', 'o', 'k', 'e', 'n', '='] := String.toList_ofList
  have hmarker : IsMarker "Token=" := by
    have hlower : "token=".toList = ['t', 'o', 'k', 'e', 'n', '='] := String.toList_ofList
    refine ⟨"token=", by decide, ?_⟩
    rw [hletters, hlower]
    decide
  have hafter : EndsBefore " refused" := by
    intro c hc
    have hblank : " refused".toList = [' ', 'r', 'e', 'f', 'u', 's', 'e', 'd'] :=
      String.toList_ofList
    rw [hblank] at hc
    cases hc
    decide
  refine ((credential_hidden_iff hmarker "login " " refused").1 hafter).mpr (.inl ?_)
  rintro ⟨hbearer, _⟩
  rw [hletters, bearer_shape.1] at hbearer
  revert hbearer
  decide

/-- The passes over characters. -/
theorem runAll_chars (cs : List Char) : runAll credentialPasses cs =
    markerChars.foldl (fun value marker => redactChars marker value.length value) cs := by
  have hall : ∀ (ms : List String) (h : ∀ m ∈ ms, m.toList ≠ []) (cs : List Char),
      runAll (ms.pmap credentialPass h) cs =
        (ms.map String.toList).foldl
          (fun value marker => redactChars marker value.length value) cs := by
    intro ms
    induction ms with
    | nil => exact fun _ _ => rfl
    | cons m ms ih =>
        intro h cs
        have hone := redactChars_eq (h m List.mem_cons_self) (Nat.le_refl cs.length)
        rw [List.pmap_cons, List.map_cons, List.foldl_cons, hone, ← ih]
        rfl
  rw [← toList_markers]
  exact hall markers marker_ne_nil cs

/-- A message that differs for two letters that no marker has. -/
theorem not_hides_of_ne {before after : String} {b a : List Char} (hbefore : before.toList = b)
    (hafter : after.toList = a)
    (h : truncateChars maxFailureMessageBytes (markerChars.foldl
          (fun value marker => redactChars marker value.length value) (b ++ ['x'] ++ a)) ≠
      truncateChars maxFailureMessageBytes (markerChars.foldl
          (fun value marker => redactChars marker value.length value) (b ++ ['q'] ++ a))) :
    ¬Hides before after := by
  intro hhides
  obtain ⟨hx, hxclear⟩ := foreign_credential (d := 'x') (by decide) before after
  obtain ⟨hq, hqclear⟩ := foreign_credential (d := 'q') (by decide) before after
  have hsame := hhides _ _ hx hq hxclear hqclear
  rw [append_ofList, append_ofList, boundedRedactedMessage_ofList, boundedRedactedMessage_ofList,
    runAll_chars, runAll_chars, hbefore, hafter, String.toList_singleton,
    String.toList_singleton] at hsame
  exact h (String.ofList_injective hsame)

/-- A password in quotes and a second `bearer ` show the credential. -/
theorem credential_shown :
    (IsMarker "password=" ∧ ¬Hides ("" ++ "password=" ++ "\"") ("\"" ++ "")) ∧
    (IsMarker "Bearer " ∧ EndsBefore "" ∧ ¬Hides ("Bearer " ++ "Bearer ") "") := by
  have hpassword : "password=".toList = ['p', 'a', 's', 's', 'w', 'o', 'r', 'd', '='] :=
    String.toList_ofList
  have hcapital : "Bearer ".toList = ['B', 'e', 'a', 'r', 'e', 'r', ' '] := String.toList_ofList
  have hquote : "\"".toList = ['"'] := String.toList_ofList
  have hempty : "".toList = [] := String.toList_ofList
  constructor
  · constructor
    · refine ⟨"password=", by decide, ?_⟩
      rw [hpassword]
      decide
    · refine not_hides_of_ne (b := ['p', 'a', 's', 's', 'w', 'o', 'r', 'd', '=', '"'])
        (a := ['"']) ?_ ?_ (by decide +kernel)
      · rw [String.toList_append, String.toList_append, hempty, hpassword, hquote]
        rfl
      · rw [String.toList_append, hquote, hempty]
        rfl
  · refine ⟨⟨"bearer ", by decide, ?_⟩, ?_, ?_⟩
    · rw [hcapital, bearer_chars]
      decide
    · intro c hc
      cases hc
    · refine not_hides_of_ne (a := [])
        (b := ['B', 'e', 'a', 'r', 'e', 'r', ' ', 'B', 'e', 'a', 'r', 'e', 'r', ' '])
        ?_ hempty (by decide +kernel)
      rw [String.toList_append, hcapital]
      rfl

end UpagentProvider

end Vergerail
