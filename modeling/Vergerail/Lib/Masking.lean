import Mathlib.Data.List.Infix
import Mathlib.Data.List.TakeWhile

/-!
# Masking what follows a marker

A pass looks for a marker, keeps it and what is to be skipped behind it, and writes a mask in
the place of everything up to the next stop. What comes out for a concatenation is what comes
out for its parts, but for one thing: the first part may leave a value open at its end, and
then the second part is masked up to its first stop.
-/

namespace Lib

/-- A pass that masks what follows a marker. -/
structure Masking (α : Type) where
  /-- What elements are compared under. -/
  fold : α → α
  marker : List α
  skips : α → Bool
  stops : α → Bool
  mask : List α
  nonempty : marker ≠ []

namespace Masking

variable {α : Type} (p : Masking α)

/-- What is left behind the value that follows a marker. -/
def behind (rest : List α) : List α := (rest.dropWhile p.skips).dropWhile (fun c => !p.stops c)

variable {p} in
theorem behind_suffix (rest : List α) : p.behind rest <:+ rest :=
  (List.dropWhile_suffix _).trans (List.dropWhile_suffix _)

section Pass

variable [DecidableEq α]

/-- Everything up to and including the first marker, and the rest. -/
def split : List α → Option (List α × List α)
  | [] => none
  | c :: cs =>
    if p.marker.isPrefixOf ((c :: cs).map p.fold) then
      some ((c :: cs).take p.marker.length, (c :: cs).drop p.marker.length)
    else (split cs).map (fun q => (c :: q.1, q.2))

variable {p} {x before rest : List α}

theorem split_append (h : p.split x = some (before, rest)) : x = before ++ rest := by
  induction x generalizing before with
  | nil => cases h
  | cons c cs ih =>
      rw [split] at h
      split at h
      · cases h
        exact (List.take_append_drop _ _).symm
      · obtain ⟨⟨before', rest'⟩, hcs, heq⟩ := Option.map_eq_some_iff.mp h
        cases heq
        rw [ih hcs]
        rfl

theorem split_marker (h : p.split x = some (before, rest)) :
    ∃ l q, before = l ++ q ∧ q.map p.fold = p.marker := by
  induction x generalizing before with
  | nil => cases h
  | cons c cs ih =>
      rw [split] at h
      split at h
      · rename_i hmarker
        cases h
        refine ⟨[], _, rfl, ?_⟩
        rw [List.map_take]
        exact (List.prefix_iff_eq_take.mp (List.isPrefixOf_iff_prefix.mp hmarker)).symm
      · obtain ⟨⟨before', rest'⟩, hcs, heq⟩ := Option.map_eq_some_iff.mp h
        cases heq
        obtain ⟨l, q, rfl, hq⟩ := ih hcs
        exact ⟨c :: l, q, rfl, hq⟩

theorem split_length (h : p.split x = some (before, rest)) : rest.length < x.length := by
  induction x generalizing before with
  | nil => cases h
  | cons c cs ih =>
      have hpos := List.length_pos_iff.mpr p.nonempty
      rw [split] at h
      split at h
      · cases h
        rw [List.length_drop, List.length_cons]
        omega
      · obtain ⟨⟨before', rest'⟩, hcs, heq⟩ := Option.map_eq_some_iff.mp h
        cases heq
        have := ih hcs
        rw [List.length_cons]
        omega

theorem behind_suffix_of_split (h : p.split x = some (before, rest)) : p.behind rest <:+ x := by
  rw [split_append h]
  exact (behind_suffix rest).trans (List.suffix_append before rest)

theorem behind_length (h : p.split x = some (before, rest)) :
    (p.behind rest).length < x.length :=
  Nat.lt_of_le_of_lt (behind_suffix rest).length_le (split_length h)

variable (p) in
/-- The pass over an input. -/
def run (x : List α) : List α :=
  match _h : p.split x with
  | none => x
  | some (before, rest) =>
      before ++ rest.takeWhile p.skips ++ p.mask ++ run (p.behind rest)
termination_by x.length
decreasing_by exact behind_length ‹_›

variable (p) in
/-- The input ends inside the value that follows a marker. -/
def isOpen (x : List α) : Bool :=
  match _h : p.split x with
  | none => false
  | some (_, rest) => if p.behind rest = [] then true else isOpen (p.behind rest)
termination_by x.length
decreasing_by exact behind_length ‹_›

variable (p) in
/-- The input ends inside such a value behind what is to be skipped. -/
def isBegun (x : List α) : Bool :=
  match _h : p.split x with
  | none => false
  | some (_, rest) =>
      if p.behind rest = [] then !(rest.dropWhile p.skips).isEmpty else isBegun (p.behind rest)
termination_by x.length
decreasing_by exact behind_length ‹_›

theorem run_none (h : p.split x = none) : p.run x = x := by
  rw [run]
  split
  · rfl
  · rename_i heq
    rw [h] at heq
    cases heq

theorem run_some (h : p.split x = some (before, rest)) :
    p.run x = before ++ rest.takeWhile p.skips ++ p.mask ++ p.run (p.behind rest) := by
  rw [run]
  split
  · rename_i heq
    rw [h] at heq
    cases heq
  · rename_i heq
    rw [h] at heq
    cases heq
    rfl

theorem isOpen_none (h : p.split x = none) : p.isOpen x = false := by
  rw [isOpen]
  split
  · rfl
  · rename_i heq
    rw [h] at heq
    cases heq

theorem isOpen_some (h : p.split x = some (before, rest)) :
    p.isOpen x = if p.behind rest = [] then true else p.isOpen (p.behind rest) := by
  rw [isOpen]
  split
  · rename_i heq
    rw [h] at heq
    cases heq
  · rename_i heq
    rw [h] at heq
    cases heq
    rfl

theorem isBegun_some (h : p.split x = some (before, rest)) :
    p.isBegun x = if p.behind rest = [] then !(rest.dropWhile p.skips).isEmpty
      else p.isBegun (p.behind rest) := by
  rw [isBegun]
  split
  · rename_i heq
    rw [h] at heq
    cases heq
  · rename_i heq
    rw [h] at heq
    cases heq
    rfl

theorem run_nil : p.run [] = [] := run_none rfl

/-- Induction along a pass: from what is left behind a value to the input. -/
theorem pass_induction {P : List α → Prop} (none : ∀ x, p.split x = none → P x)
    (some : ∀ x before rest, p.split x = some (before, rest) → P (p.behind rest) → P x) :
    ∀ x, P x := by
  intro x
  induction hn : x.length using Nat.strong_induction_on generalizing x with
  | _ n ih =>
      cases h : p.split x with
      | none => exact none x h
      | some q =>
          obtain ⟨before, rest⟩ := q
          exact some x before rest h (ih _ (hn ▸ behind_length h) _ rfl)

end Pass

/-! ## Occurrences of the marker -/

/-- The marker occurs in the input. -/
def Occurs (x : List α) : Prop := ∃ l q r, x = l ++ q ++ r ∧ q.map p.fold = p.marker

/-- The marker occurs across the end of the first part. -/
def Straddles (x y : List α) : Prop :=
  ∃ s t, s ≠ [] ∧ t ≠ [] ∧ s <:+ x ∧ t <+: y ∧ (s ++ t).map p.fold = p.marker

variable {p} {x x' y before rest : List α}

theorem Straddles.mono (h : p.Straddles x' y) (hx : x' <:+ x) : p.Straddles x y := by
  obtain ⟨s, t, hs, ht, hsx, hty, hmarker⟩ := h
  exact ⟨s, t, hs, ht, hsx.trans hx, hty, hmarker⟩

variable [DecidableEq α]

/-- A marker that starts in the first part is in it, or lies across its end. -/
theorem prefix_append {c : α} {cs : List α} (h : ¬p.Straddles (c :: cs) y) :
    p.marker.isPrefixOf ((c :: cs ++ y).map p.fold) =
      p.marker.isPrefixOf ((c :: cs).map p.fold) := by
  rw [Bool.eq_iff_iff, List.isPrefixOf_iff_prefix, List.isPrefixOf_iff_prefix]
  constructor
  · intro hpre
    obtain ⟨q, hq, hmarker⟩ := List.prefix_map_iff.mp hpre
    rcases List.prefix_or_prefix_of_prefix hq (List.prefix_append (c :: cs) y) with hown | hover
    · rw [hmarker]
      exact hown.map _
    · obtain ⟨t, rfl⟩ := hover
      by_cases ht : t = []
      · rw [hmarker, ht, List.append_nil]
      · have hty := (List.prefix_append_right_inj (c :: cs)).mp hq
        exact absurd ⟨c :: cs, t, by simp, ht, List.suffix_rfl, hty, hmarker.symm⟩ h
  · intro hpre
    rw [List.map_append]
    exact hpre.trans (List.prefix_append _ _)

theorem split_append_none (h : p.split x = none) (hstraddle : ¬p.Straddles x y) :
    p.split (x ++ y) = (p.split y).map (fun q => (x ++ q.1, q.2)) := by
  induction x with
  | nil =>
      rw [List.nil_append]
      cases p.split y <;> rfl
  | cons c cs ih =>
      rw [split] at h
      split at h
      · cases h
      · rename_i hmarker
        have hcs : ¬p.Straddles cs y :=
          fun hover => hstraddle (hover.mono (List.suffix_cons c cs))
        rw [List.cons_append, split, ← List.cons_append, prefix_append hstraddle, if_neg hmarker,
          ih (Option.map_eq_none_iff.mp h) hcs, Option.map_map]
        rfl

theorem split_append_some (h : p.split x = some (before, rest))
    (hstraddle : ¬p.Straddles x y) : p.split (x ++ y) = some (before, rest ++ y) := by
  induction x generalizing before with
  | nil => cases h
  | cons c cs ih =>
      rw [List.cons_append, split, ← List.cons_append, prefix_append hstraddle]
      rw [split] at h
      split at h
      · rename_i hmarker
        have hlength : p.marker.length ≤ (c :: cs).length := by
          have := (List.isPrefixOf_iff_prefix.mp hmarker).length_le
          rwa [List.length_map] at this
        cases h
        rw [if_pos hmarker, List.take_append_of_le_length hlength,
          List.drop_append_of_le_length hlength]
      · rename_i hmarker
        have hcs : ¬p.Straddles cs y :=
          fun hover => hstraddle (hover.mono (List.suffix_cons c cs))
        obtain ⟨⟨before', rest'⟩, hsplit, heq⟩ := Option.map_eq_some_iff.mp h
        cases heq
        rw [if_neg hmarker, ih hsplit hcs]
        rfl

/-! ## A pass over a concatenation -/

omit [DecidableEq α] in
theorem takeWhile_append_stop {q : α → Bool} {l y : List α}
    (h : l.dropWhile q ≠ [] ∨ ∀ c ∈ y.head?, q c = false) :
    (l ++ y).takeWhile q = l.takeWhile q := by
  rw [List.takeWhile_append]
  split
  · rename_i hlength
    have hall := List.takeWhile_append_dropWhile (p := q) (l := l)
    have hnil : l.dropWhile q = [] := by
      have := congrArg List.length hall
      rw [List.length_append] at this
      exact List.length_eq_zero_iff.mp (by omega)
    rw [hnil, List.append_nil] at hall
    cases y with
    | nil => rw [List.takeWhile_nil, List.append_nil, hall]
    | cons c y =>
        have hc : q c = false := (h.resolve_left (fun hne => hne hnil)) c rfl
        rw [List.takeWhile_cons, hc, hall]
        exact List.append_nil l
  · rfl

omit [DecidableEq α] in
/-- A value that is over is not touched by what comes behind it. -/
theorem behind_append (h : p.behind rest ≠ []) :
    (rest ++ y).takeWhile p.skips = rest.takeWhile p.skips ∧
      p.behind (rest ++ y) = p.behind rest ++ y := by
  rw [behind] at h
  have hskip : rest.dropWhile p.skips ≠ [] := by
    intro hnil
    rw [hnil] at h
    exact h rfl
  refine ⟨takeWhile_append_stop (.inl hskip), ?_⟩
  rw [behind, behind, List.dropWhile_append, List.isEmpty_eq_false_iff.mpr hskip,
    if_neg Bool.false_ne_true, List.dropWhile_append, List.isEmpty_eq_false_iff.mpr h,
    if_neg Bool.false_ne_true]

omit [DecidableEq α] in
/-- A value that is open goes on up to the first stop. -/
theorem behind_append_begun (h : p.behind rest = [])
    (hy : rest.dropWhile p.skips ≠ [] ∨ ∀ c ∈ y.head?, p.skips c = false) :
    (rest ++ y).takeWhile p.skips = rest.takeWhile p.skips ∧
      p.behind (rest ++ y) = y.dropWhile (fun c => !p.stops c) := by
  refine ⟨takeWhile_append_stop hy, ?_⟩
  rw [behind] at h
  rw [behind, List.dropWhile_append]
  split
  · rename_i hskipped
    have hstart : y.dropWhile p.skips = y := by
      have hnil := List.isEmpty_iff.mp hskipped
      cases y with
      | nil => rfl
      | cons c y =>
          have hc := hy.resolve_left (fun hne => hne hnil) c rfl
          exact List.dropWhile_cons_of_neg (by rw [hc]; exact Bool.false_ne_true)
    rw [hstart]
  · rw [List.dropWhile_append, h]
    rfl

omit [DecidableEq α] in
theorem behind_append_open (h : p.behind rest = []) (hy : ∀ c ∈ y.head?, p.skips c = false) :
    (rest ++ y).takeWhile p.skips = rest.takeWhile p.skips ∧
      p.behind (rest ++ y) = y.dropWhile (fun c => !p.stops c) :=
  behind_append_begun h (.inr hy)

/-- **A pass over a concatenation.** If the first part leaves a value open, the second part is
masked up to its first stop; otherwise the parts are masked on their own. -/
theorem run_append_begun (hstraddle : ¬p.Straddles x y)
    (hopen : p.isOpen x = true → p.isBegun x = true ∨ ∀ c ∈ y.head?, p.skips c = false) :
    p.run (x ++ y) = p.run x ++
      p.run (if p.isOpen x then y.dropWhile (fun c => !p.stops c) else y) := by
  induction x using p.pass_induction with
  | none x h =>
      rw [isOpen_none h, run_none h, if_neg Bool.false_ne_true]
      have hsplit := split_append_none h hstraddle
      cases hy : p.split y with
      | none =>
          rw [hy] at hsplit
          rw [run_none hsplit, run_none hy]
      | some q =>
          rw [hy] at hsplit
          rw [run_some hsplit, run_some hy]
          simp only [List.append_assoc]
  | some x before rest h ih =>
      have hbehind : p.behind rest <:+ x := behind_suffix_of_split h
      rw [run_some (split_append_some h hstraddle), run_some h]
      by_cases hnil : p.behind rest = []
      · have hx : p.isOpen x = true := by rw [isOpen_some h, if_pos hnil]
        have hbegun : rest.dropWhile p.skips ≠ [] ∨ ∀ c ∈ y.head?, p.skips c = false := by
          refine (hopen hx).imp_left fun hbegun => ?_
          rw [isBegun_some h, if_pos hnil] at hbegun
          simpa using hbegun
        obtain ⟨hskip, hrest⟩ := behind_append_begun hnil hbegun
        rw [hskip, hrest, hx, if_pos rfl, hnil, run_nil, List.append_nil]
      · have hx : p.isOpen x = p.isOpen (p.behind rest) := by rw [isOpen_some h, if_neg hnil]
        have hbegun : p.isBegun x = p.isBegun (p.behind rest) := by
          rw [isBegun_some h, if_neg hnil]
        obtain ⟨hskip, hrest⟩ := behind_append (y := y) hnil
        rw [hx, hbegun] at hopen
        rw [hskip, hrest, hx, ih (fun hover => hstraddle (hover.mono hbehind)) hopen,
          List.append_assoc _ (p.run _)]

theorem run_append (hstraddle : ¬p.Straddles x y)
    (hopen : p.isOpen x = true → ∀ c ∈ y.head?, p.skips c = false) :
    p.run (x ++ y) = p.run x ++
      p.run (if p.isOpen x then y.dropWhile (fun c => !p.stops c) else y) :=
  run_append_begun hstraddle (fun h => .inr (hopen h))

/-- Whether a concatenation ends inside a value. -/
theorem isOpen_append (hstraddle : ¬p.Straddles x y)
    (hopen : p.isOpen x = true → ∀ c ∈ y.head?, p.skips c = false) :
    p.isOpen (x ++ y) =
      if p.isOpen x then
        if y.dropWhile (fun c => !p.stops c) = [] then true
        else p.isOpen (y.dropWhile (fun c => !p.stops c))
      else p.isOpen y := by
  induction x using p.pass_induction with
  | none x h =>
      rw [isOpen_none h, if_neg Bool.false_ne_true]
      have hsplit := split_append_none h hstraddle
      cases hy : p.split y with
      | none =>
          rw [hy] at hsplit
          rw [isOpen_none hsplit, isOpen_none hy]
      | some q =>
          rw [hy] at hsplit
          rw [isOpen_some hsplit, isOpen_some hy]
  | some x before rest h ih =>
      have hbehind : p.behind rest <:+ x := behind_suffix_of_split h
      rw [isOpen_some (split_append_some h hstraddle)]
      by_cases hnil : p.behind rest = []
      · have hx : p.isOpen x = true := by rw [isOpen_some h, if_pos hnil]
        obtain ⟨_, hrest⟩ := behind_append_open hnil (hopen hx)
        rw [hrest, hx, if_pos rfl]
      · have hx : p.isOpen x = p.isOpen (p.behind rest) := by rw [isOpen_some h, if_neg hnil]
        obtain ⟨_, hrest⟩ := behind_append (y := y) hnil
        rw [hx] at hopen
        rw [hrest, hx, if_neg (List.append_ne_nil_of_left_ne_nil hnil y),
          ih (fun hover => hstraddle (hover.mono hbehind)) hopen]

/-! ## What a pass leaves -/

/-- An input without the marker is left as it is. -/
theorem split_eq_none_iff : p.split x = none ↔ ¬p.Occurs x := by
  induction x with
  | nil =>
      refine ⟨fun _ => ?_, fun _ => rfl⟩
      rintro ⟨l, q, r, hx, hmarker⟩
      have hq : q = [] := (List.append_eq_nil_iff.mp (List.append_eq_nil_iff.mp hx.symm).1).2
      rw [hq] at hmarker
      exact p.nonempty hmarker.symm
  | cons c cs ih =>
      rw [split]
      split
      · rename_i hmarker
        refine ⟨fun h => (by cases h), fun h => absurd ?_ h⟩
        obtain ⟨q, hq, heq⟩ := List.prefix_map_iff.mp (List.isPrefixOf_iff_prefix.mp hmarker)
        obtain ⟨r, hr⟩ := hq
        exact ⟨[], q, r, hr.symm, heq.symm⟩
      · rename_i hmarker
        rw [Option.map_eq_none_iff, ih, not_iff_not]
        constructor
        · rintro ⟨l, q, r, rfl, hq⟩
          exact ⟨c :: l, q, r, rfl, hq⟩
        · rintro ⟨l, q, r, heq, hq⟩
          cases l with
          | nil =>
              refine absurd (List.isPrefixOf_iff_prefix.mpr ?_) hmarker
              rw [heq, List.nil_append, List.map_append, hq]
              exact List.prefix_append _ _
          | cons d l =>
              exact ⟨l, q, r, (List.cons.inj heq).2, hq⟩

/-- The first element is kept where no marker starts with it. -/
theorem run_cons {c : α} (h : p.marker.head? ≠ some (p.fold c)) :
    p.run (c :: x) = c :: p.run x := by
  have hmarker : ¬p.marker.isPrefixOf ((c :: x).map p.fold) = true := by
    intro hpre
    obtain ⟨rest, heq⟩ := List.isPrefixOf_iff_prefix.mp hpre
    cases hm : p.marker with
    | nil => exact p.nonempty hm
    | cons d m =>
        rw [hm] at heq h
        exact h (congrArg some (List.cons.inj heq).1)
  have hsplit : p.split (c :: x) = (p.split x).map (fun q => (c :: q.1, q.2)) := by
    rw [split, if_neg hmarker]
  cases hx : p.split x with
  | none =>
      rw [hx] at hsplit
      rw [run_none hsplit, run_none hx]
  | some q =>
      rw [hx] at hsplit
      rw [run_some hsplit, run_some hx]
      rfl

/-- An open value leaves a mask at the end. -/
theorem run_open (h : p.isOpen x = true) : ∃ l, p.run x = l ++ p.mask := by
  induction x using p.pass_induction with
  | none x hsplit =>
      rw [isOpen_none hsplit] at h
      cases h
  | some x before rest hsplit ih =>
      rw [run_some hsplit]
      by_cases hnil : p.behind rest = []
      · rw [hnil, run_nil, List.append_nil]
        exact ⟨_, rfl⟩
      · rw [isOpen_some hsplit, if_neg hnil] at h
        obtain ⟨l, hl⟩ := ih h
        exact ⟨_, by rw [hl, ← List.append_assoc]⟩

/-- An end without the last element of the mask was there before. -/
theorem suffix_of_run {last : α} {m s : List α} (hmask : p.mask = m ++ [last])
    (h : s <:+ p.run x) (hs : last ∉ s) : s <:+ x := by
  induction x using p.pass_induction with
  | none x hsplit => rwa [run_none hsplit] at h
  | some x before rest hsplit ih =>
      rw [run_some hsplit] at h
      rcases List.suffix_or_suffix_of_suffix h (List.suffix_append _ _) with hown | hover
      · exact (ih hown).trans (behind_suffix_of_split hsplit)
      · obtain ⟨t, rfl⟩ := hover
        obtain ⟨u, hu⟩ := h
        rw [← List.append_assoc] at hu
        have ht := List.append_cancel_right hu
        rcases List.eq_nil_or_concat t with rfl | ⟨t', c, rfl⟩
        · exact (ih List.suffix_rfl).trans (behind_suffix_of_split hsplit)
        · rw [hmask, List.concat_eq_append, ← List.append_assoc, ← List.append_assoc] at ht
          have hc := (List.append_inj' ht rfl).2
          cases hc
          exact absurd (by simp) hs

/-- A beginning without the first element of the mask was there before. -/
theorem prefix_of_run {first : α} {m t : List α} (hmask : p.mask = first :: m)
    (h : t <+: p.run x) (ht : first ∉ t) : t <+: x := by
  cases hsplit : p.split x with
  | none => rwa [run_none hsplit] at h
  | some q =>
      obtain ⟨before, rest⟩ := q
      rw [run_some hsplit, List.append_assoc] at h
      have hkept : before ++ rest.takeWhile p.skips <+: x := by
        rw [split_append hsplit]
        exact (List.prefix_append_right_inj before).mpr (List.takeWhile_prefix _)
      rcases List.prefix_or_prefix_of_prefix h (List.prefix_append _ _) with hown | hover
      · exact hown.trans hkept
      · obtain ⟨u, rfl⟩ := hover
        have hu := (List.prefix_append_right_inj _).mp h
        cases u with
        | nil => rwa [List.append_nil]
        | cons c u =>
            rw [hmask, List.cons_append] at hu
            obtain ⟨v, hv⟩ := hu
            rw [(List.cons.inj hv).1] at ht
            exact absurd (by simp) ht

/-- A pass adds nothing of a kind that the mask has nothing of. -/
theorem countP_run_le {f : α → Bool} (hmask : p.mask.countP f = 0) (x : List α) :
    (p.run x).countP f ≤ x.countP f := by
  induction x using p.pass_induction with
  | none x hsplit => rw [run_none hsplit]
  | some x before rest hsplit ih =>
      have hrest : rest = rest.takeWhile p.skips ++ rest.dropWhile p.skips :=
        List.takeWhile_append_dropWhile.symm
      have hbehind : (p.behind rest).countP f ≤ (rest.dropWhile p.skips).countP f :=
        (List.dropWhile_sublist _).countP_le
      have hx := congrArg (List.countP f) (split_append hsplit)
      have hcount := congrArg (List.countP f) hrest
      rw [List.countP_append] at hx hcount
      rw [run_some hsplit, List.countP_append, List.countP_append, List.countP_append, hmask]
      omega

/-! ## Markers at the end of an input -/

omit [DecidableEq α] in
/-- A marker whose last element is nowhere else in it does not overlap itself. -/
theorem not_straddles_marker {q : List α} (hq : q.map p.fold = p.marker) {last : α} {m : List α}
    (hlast : p.marker = m ++ [last]) (honce : last ∉ m) : ¬p.Straddles x q := by
  rintro ⟨s, t, hs, ht, _, hpre, hmarker⟩
  rw [List.map_append] at hmarker
  obtain ⟨t', hq'⟩ := hpre
  rw [← hq', List.map_append, ← hmarker] at hq
  have hlength := congrArg List.length hq
  have hpos := List.length_pos_iff.mpr hs
  simp only [List.length_append, List.length_map] at hlength
  -- the part of the marker that both share ends with the last element, and is not all of it
  rcases List.eq_nil_or_concat (t.map p.fold) with hnil | ⟨u, e, hu⟩
  · exact ht (List.map_eq_nil_iff.mp hnil)
  · rw [hu, List.concat_eq_append] at hmarker hq
    rw [hlast, ← List.append_assoc] at hmarker
    have he := (List.append_inj' hmarker rfl).2
    cases he
    have hm := (List.append_inj' hmarker rfl).1
    rcases List.eq_nil_or_concat (t'.map p.fold) with hnil | ⟨u', e', hu'⟩
    · have hnil' := congrArg List.length hnil
      rw [List.length_map, List.length_nil] at hnil'
      omega
    · rw [hu', List.concat_eq_append, ← List.append_assoc, ← List.append_assoc] at hq
      have hsame := (List.append_inj' hq rfl).1
      rw [← hm, ← hsame] at honce
      simp at honce

theorem isOpen_marker {q : List α} (hq : q.map p.fold = p.marker) : p.isOpen q = true := by
  have hsplit : p.split q = some (q, []) := by
    cases q with
    | nil => exact absurd hq.symm p.nonempty
    | cons c cs =>
        have hlength : p.marker.length = (c :: cs).length := by rw [← hq, List.length_map]
        rw [split, hq, if_pos (List.isPrefixOf_iff_prefix.mpr List.prefix_rfl), hlength,
          List.take_length, List.drop_length]
  rw [isOpen_some hsplit]
  rfl

/-- An input that is open ends with a marker, what it skips and the value so far. -/
theorem isOpen_shape (h : p.isOpen x = true) : ∃ l q w n, x = l ++ q ++ w ++ n ∧
    q.map p.fold = p.marker ∧ (∀ c ∈ w, p.skips c = true) ∧ ∀ c ∈ n, p.stops c = false := by
  induction x using p.pass_induction with
  | none x hsplit =>
      rw [isOpen_none hsplit] at h
      cases h
  | some x before rest hsplit ih =>
      by_cases hnil : p.behind rest = []
      · obtain ⟨l, q, hbefore, hq⟩ := split_marker hsplit
        refine ⟨l, q, rest.takeWhile p.skips, rest.dropWhile p.skips, ?_, hq, ?_, ?_⟩
        · rw [← hbefore, List.append_assoc, List.takeWhile_append_dropWhile]
          exact split_append hsplit
        · exact fun c hc => List.mem_takeWhile_imp hc
        · intro c hc
          have := List.dropWhile_eq_nil_iff.mp hnil c hc
          simpa using this
      · rw [isOpen_some hsplit, if_neg hnil] at h
        obtain ⟨l, q, w, n, hx, hq, hw, hn⟩ := ih h
        obtain ⟨l', hl'⟩ := behind_suffix_of_split hsplit
        exact ⟨l' ++ l, q, w, n, by rw [← hl', hx]; simp only [List.append_assoc], hq, hw, hn⟩

/-! ## One value between two parts -/

omit [DecidableEq α]

variable {v b : List α}

variable (p) in
/-- The marker occurs and has an element in common with the value. -/
def Overlaps (x v b : List α) : Prop :=
  ∃ l q r, x ++ v ++ b = l ++ q ++ r ∧ q.map p.fold = p.marker ∧
    l.length < x.length + v.length ∧ x.length < l.length + q.length

theorem Overlaps.mono {s t : List α} (h : p.Overlaps s v t) (hs : s <:+ x) (ht : t <+: b) :
    p.Overlaps x v b := by
  obtain ⟨l, q, r, heq, hq, hstart, hend⟩ := h
  obtain ⟨x₀, rfl⟩ := hs
  obtain ⟨b₀, rfl⟩ := ht
  refine ⟨x₀ ++ l, q, r ++ b₀, ?_, hq, ?_, ?_⟩
  · calc x₀ ++ s ++ v ++ (t ++ b₀) = x₀ ++ (s ++ v ++ t) ++ b₀ := by simp only [List.append_assoc]
      _ = x₀ ++ l ++ q ++ (r ++ b₀) := by rw [heq]; simp only [List.append_assoc]
  · rw [List.length_append, List.length_append]
    omega
  · rw [List.length_append, List.length_append]
    omega

/-- An occurrence only takes as much of the parts as it has elements there. -/
theorem Overlaps.narrow (h : p.Overlaps x v b) : ∃ s t q : List α, s <:+ x ∧ t <+: b ∧
    q.map p.fold = p.marker ∧ (∀ c ∈ s, c ∈ q) ∧ (∀ c ∈ t, c ∈ q) ∧ p.Overlaps s v t := by
  obtain ⟨l, q, r, heq, hq, hstart, hend⟩ := h
  -- what of the first part the occurrence does not reach is left out
  have hfirst : ∃ s l', s <:+ x ∧ s ++ v ++ b = l' ++ q ++ r ∧ (∀ c ∈ s, c ∈ q) ∧
      l'.length < s.length + v.length ∧ s.length < l'.length + q.length := by
    have hx : x <+: l ++ (q ++ r) := by
      rw [← List.append_assoc, ← heq, List.append_assoc]
      exact List.prefix_append _ _
    rcases List.prefix_or_prefix_of_prefix hx (List.prefix_append l _) with hover | hown
    · obtain ⟨l', rfl⟩ := hover
      rw [List.length_append] at hstart hend
      refine ⟨[], l', List.nil_suffix, ?_, by simp, ?_, ?_⟩
      · simp only [List.append_assoc, List.append_cancel_left_eq] at heq
        simpa using heq
      · rw [List.length_nil]
        omega
      · rw [List.length_nil]
        omega
    · obtain ⟨s, rfl⟩ := hown
      rw [List.length_append] at hstart hend
      have hrest : s ++ (v ++ b) = q ++ r := by
        simpa only [List.append_assoc, List.append_cancel_left_eq] using heq
      have hsq : s <+: q := by
        refine List.prefix_of_prefix_length_le (List.prefix_append s (v ++ b)) ?_ (by omega)
        rw [hrest]
        exact List.prefix_append q r
      refine ⟨s, [], List.suffix_append l s, ?_, fun c hc => hsq.subset hc, ?_, ?_⟩
      · rw [List.nil_append, List.append_assoc, hrest]
      · rw [List.length_nil]
        omega
      · rw [List.length_nil]
        omega
  obtain ⟨s, l', hs, heq', hsq, hstart', hend'⟩ := hfirst
  have hown : s ++ v <+: l' ++ q ++ r := by
    rw [← heq']
    exact List.prefix_append _ _
  rcases List.prefix_or_prefix_of_prefix hown (List.prefix_append (l' ++ q) r) with hover | hover
  · obtain ⟨t, ht⟩ := hover
    have hlength := congrArg List.length ht
    simp only [List.length_append] at hlength
    refine ⟨s, t, q, hs, ?_, hq, hsq, ?_, l', q, [], ?_, hq, hstart', hend'⟩
    · rw [← ht, List.append_assoc (s ++ v)] at heq'
      exact ⟨r, (List.append_cancel_left heq').symm⟩
    · have htq : t <:+ q := by
        refine List.suffix_of_suffix_length_le (List.suffix_append (s ++ v) t) ?_ (by omega)
        rw [ht]
        exact List.suffix_append l' q
      exact fun c hc => htq.subset hc
    · rw [ht, List.append_nil]
  · obtain ⟨r', hr'⟩ := hover
    refine ⟨s, [], q, hs, List.nil_prefix, hq, hsq, by simp, l', q, r', ?_, hq, hstart', hend'⟩
    rw [hr', List.append_nil]

theorem Straddles.overlaps (h : p.Straddles x (v ++ b)) (hv : v ≠ []) : p.Overlaps x v b := by
  obtain ⟨s, t, hs, ht, ⟨l, rfl⟩, ⟨r, hr⟩, hmarker⟩ := h
  have hs := List.length_pos_iff.mpr hs
  have ht := List.length_pos_iff.mpr ht
  have hv := List.length_pos_iff.mpr hv
  refine ⟨l, s ++ t, r, ?_, hmarker, ?_, ?_⟩
  · rw [List.append_assoc (l ++ s), ← hr]
    simp only [List.append_assoc]
  · rw [List.length_append]
    omega
  · rw [List.length_append, List.length_append]
    omega

theorem Straddles.overlaps_behind (h : p.Straddles v b) : p.Overlaps x v b := by
  obtain ⟨s, t, hs, ht, ⟨l, rfl⟩, ⟨r, rfl⟩, hmarker⟩ := h
  have hs := List.length_pos_iff.mpr hs
  refine ⟨x ++ l, s ++ t, r, ?_, hmarker, ?_, ?_⟩
  · simp only [List.append_assoc]
  · rw [List.length_append, List.length_append]
    omega
  · rw [List.length_append, List.length_append]
    omega

theorem Occurs.overlaps (h : p.Occurs v) : p.Overlaps x v b := by
  obtain ⟨l, q, r, rfl, hq⟩ := h
  have hpos : 0 < q.length := by
    rw [← List.length_map (f := p.fold), hq]
    exact List.length_pos_iff.mpr p.nonempty
  refine ⟨x ++ l, q, r ++ b, ?_, hq, ?_, ?_⟩
  · simp only [List.append_assoc]
  · simp only [List.length_append]
    omega
  · rw [List.length_append]
    omega

end Masking

/-! ## Passes one after the other -/

section Passes

open Masking

variable {α : Type} [DecidableEq α] {passes : List (Masking α)} {x v b : List α} {first last : α}

/-- All passes, each over what the one before it left. -/
def runAll (passes : List (Masking α)) (x : List α) : List α :=
  passes.foldl (fun x p => p.run x) x

/-- One of the passes comes to the end of the input inside a value. -/
def covers : List (Masking α) → List α → Bool
  | [], _ => false
  | p :: passes, x => p.isOpen x || covers passes (p.run x)

/-- Passes that do not make new markers: a mask starts and ends with elements that no marker
has, and no marker starts with an element that stops a value. -/
structure Apart (passes : List (Masking α)) (first last : α) : Prop where
  opened : ∀ p ∈ passes, ∃ m, p.mask = first :: m
  closed : ∀ p ∈ passes, ∃ m, p.mask = m ++ [last]
  noMask : ∀ p ∈ passes, ∀ q : List α, q.map p.fold = p.marker → first ∉ q ∧ last ∉ q
  noStop : ∀ p ∈ passes, ∀ p' ∈ passes, ∀ c, p.stops c = true → p'.marker.head? ≠ some (p'.fold c)

/-- A value that the passes take or leave as a whole: it has nothing they skip or stop at, it
ends where they stop, and no marker has a part in it. -/
structure Whole (passes : List (Masking α)) (x v b : List α) : Prop where
  nonempty : v ≠ []
  solid : ∀ p ∈ passes, ∀ c ∈ v, p.skips c = false ∧ p.stops c = false
  ended : ∀ p ∈ passes, ∀ c ∈ b.head?, p.stops c = true
  clear : ∀ p ∈ passes, ¬p.Overlaps x v b

/-- **One pass** masks the value with what covers it, or leaves it as it is. -/
theorem Whole.run (h : Whole passes x v b) {p : Masking α} (hp : p ∈ passes) :
    p.run (x ++ v ++ b) =
      if p.isOpen x then p.run x ++ p.run b else p.run x ++ v ++ p.run b := by
  have hclear := h.clear p hp
  obtain ⟨c, cs, hv⟩ := List.exists_cons_of_ne_nil h.nonempty
  have hstart : p.isOpen x = true → ∀ c ∈ (v ++ b).head?, p.skips c = false := by
    intro _ d hd
    rw [hv] at hd
    cases hd
    exact (h.solid p hp c (hv ▸ List.mem_cons_self)).1
  have hvalue : p.split v = none := split_eq_none_iff.mpr (fun ho => hclear ho.overlaps)
  have hdrop : (v ++ b).dropWhile (fun c => !p.stops c) = b := by
    rw [List.dropWhile_append_of_pos]
    · cases b with
      | nil => rfl
      | cons d b =>
          refine List.dropWhile_cons_of_neg ?_
          rw [h.ended p hp d rfl]
          exact Bool.false_ne_true
    · intro d hd
      rw [(h.solid p hp d hd).2]
      rfl
  have hown : p.run (v ++ b) = v ++ p.run b := by
    rw [run_append (fun hs => hclear hs.overlaps_behind)
      (by rw [isOpen_none hvalue]; exact fun h => absurd h Bool.false_ne_true),
      isOpen_none hvalue, run_none hvalue, if_neg Bool.false_ne_true]
  rw [List.append_assoc, run_append (fun hs => hclear (hs.overlaps h.nonempty)) hstart, hdrop]
  split
  · rfl
  · rw [hown, List.append_assoc]

/-- What a pass leaves around the value makes no new markers. -/
theorem Whole.step (hapart : Apart passes first last) (h : Whole passes x v b)
    {p : Masking α} (hp : p ∈ passes) : Whole passes (p.run x) v (p.run b) where
  nonempty := h.nonempty
  solid := h.solid
  ended := by
    intro p' hp' c hc
    cases b with
    | nil =>
        rw [run_nil] at hc
        cases hc
    | cons d b =>
        have hd := h.ended p' hp' d rfl
        rw [run_cons (hapart.noStop p' hp' p hp d hd)] at hc
        cases hc
        exact hd
  clear := by
    intro p' hp' hover
    obtain ⟨s, t, q, hs, ht, hq, hsq, htq, hover⟩ := hover.narrow
    obtain ⟨hfirst, hlast⟩ := hapart.noMask p' hp' q hq
    obtain ⟨m, hopened⟩ := hapart.opened p hp
    obtain ⟨m', hclosed⟩ := hapart.closed p hp
    exact h.clear p' hp' (hover.mono (suffix_of_run hclosed hs (fun hmem => hlast (hsq _ hmem)))
      (prefix_of_run hopened ht (fun hmem => hfirst (htq _ hmem))))

/-- **A value that no pass covers is left**, between what the passes leave of its sides. -/
theorem Whole.runAll (hapart : Apart passes first last) (h : Whole passes x v b)
    {later : List (Masking α)} (hlater : later ⊆ passes) (hcovers : covers later x = false) :
    Lib.runAll later (x ++ v ++ b) = Lib.runAll later x ++ v ++ Lib.runAll later b := by
  induction later generalizing x b with
  | nil => rfl
  | cons p later ih =>
      obtain ⟨hp, hlater⟩ := List.cons_subset.mp hlater
      obtain ⟨hopen, hcovers⟩ := Bool.or_eq_false_iff.mp hcovers
      have hrun := h.run hp
      rw [hopen, if_neg Bool.false_ne_true] at hrun
      simp only [Lib.runAll, List.foldl_cons]
      rw [hrun]
      exact ih (h.step hapart hp) hlater hcovers

/-- **A value that some pass covers is gone**: what the passes leave does not depend on it. -/
theorem Whole.runAll_covered (hapart : Apart passes first last) {v' : List α}
    (h : Whole passes x v b) (h' : Whole passes x v' b) {later : List (Masking α)}
    (hlater : later ⊆ passes) (hcovers : covers later x = true) :
    Lib.runAll later (x ++ v ++ b) = Lib.runAll later (x ++ v' ++ b) := by
  induction later generalizing x b with
  | nil => cases hcovers
  | cons p later ih =>
      obtain ⟨hp, hlater⟩ := List.cons_subset.mp hlater
      have hrun := h.run hp
      have hrun' := h'.run hp
      simp only [Lib.runAll, List.foldl_cons]
      rw [hrun, hrun']
      cases hopen : p.isOpen x with
      | true => rfl
      | false =>
          rw [covers, hopen, Bool.false_or] at hcovers
          exact ih (h.step hapart hp) (h'.step hapart hp) hlater hcovers

end Passes

end Lib
