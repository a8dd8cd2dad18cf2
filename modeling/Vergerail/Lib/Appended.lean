import Mathlib.Data.List.Forall2

/-!
# Loops that append

A loop over a list appends one result for each element it takes, and its result list holds
more than what the loop added. What it added is an image of the list, element for element.
-/

namespace Lib

variable {α β : Type} {R : α → β → Prop}

/-- The new list is the old one with an image of each element. -/
def Appended (R : α → β → Prop) (l : List α) (old new : List β) : Prop :=
  ∃ added, new = old ++ added ∧ List.Forall₂ R l added

theorem appended_nil {old new : List β} : Appended R [] old new ↔ new = old := by
  constructor
  · rintro ⟨added, rfl, hadded⟩
    cases hadded
    rw [List.append_nil]
  · rintro rfl
    exact ⟨[], by rw [List.append_nil], .nil⟩

theorem appended_singleton {a : α} {old new : List β} :
    Appended R [a] old new ↔ ∃ b, R a b ∧ new = old ++ [b] := by
  constructor
  · rintro ⟨added, rfl, hadded⟩
    cases hadded with
    | cons hab hnil =>
        cases hnil
        exact ⟨_, hab, rfl⟩
  · rintro ⟨b, hab, rfl⟩
    exact ⟨[b], rfl, .cons hab .nil⟩

theorem appended_append {l l' : List α} {old new : List β} :
    Appended R (l ++ l') old new ↔
      ∃ middle, Appended R l old middle ∧ Appended R l' middle new := by
  constructor
  · rintro ⟨added, rfl, hadded⟩
    have hfront := (List.forall₂_take_append added l l' hadded.flip).flip
    have hback := (List.forall₂_drop_append added l l' hadded.flip).flip
    refine ⟨old ++ added.take l.length, ⟨_, rfl, hfront⟩, added.drop l.length, ?_, hback⟩
    rw [List.append_assoc, List.take_append_drop]
  · rintro ⟨_, ⟨front, rfl, hfront⟩, back, rfl, hback⟩
    exact ⟨front ++ back, by rw [List.append_assoc], List.rel_append hfront hback⟩

theorem appended_from_nil {l : List α} {new : List β} :
    Appended R l [] new ↔ List.Forall₂ R l new := by
  simp [Appended]

theorem exists_forall₂_iff {l : List α} :
    (∃ l', List.Forall₂ R l l') ↔ ∀ a ∈ l, ∃ b, R a b := by
  constructor
  · rintro ⟨l', h⟩ a ha
    induction h with
    | nil => cases ha
    | cons hab _ ih =>
        rcases List.mem_cons.mp ha with rfl | ha
        · exact ⟨_, hab⟩
        · exact ih ha
  · intro h
    induction l with
    | nil => exact ⟨[], .nil⟩
    | cons a l ih =>
        obtain ⟨b, hab⟩ := h a List.mem_cons_self
        obtain ⟨l', hl⟩ := ih (fun c hc => h c (List.mem_cons_of_mem _ hc))
        exact ⟨b :: l', .cons hab hl⟩

end Lib
