/-!
# Checks that may refuse

A check is a computation that answers or refuses with a fault. A passed check says what
each of its parts found; a loop of checks that passed has an invariant over what it has
seen.
-/

namespace Lib

variable {ε α β : Type}

/-- What was found, or the fault. -/
def orFault (found : Option α) (fault : ε) : Except ε α :=
  match found with
  | some a => .ok a
  | none => .error fault

/-- Refuse if something is wrong. -/
def refuse (wrong : Bool) (fault : ε) : Except ε Unit :=
  if wrong then .error fault else .ok ()

theorem bind_ok {x : Except ε α} {f : α → Except ε β} {b : β} :
    (x >>= f) = .ok b ↔ ∃ a, x = .ok a ∧ f a = .ok b := by
  constructor
  · intro h
    cases x with
    | ok a => exact ⟨a, rfl, h⟩
    | error fault => cases h
  · rintro ⟨a, rfl, h⟩
    exact h

theorem orFault_ok {found : Option α} {fault : ε} {a : α} :
    orFault found fault = .ok a ↔ found = some a := by
  cases found <;> simp [orFault]

theorem refuse_ok {wrong : Bool} {fault : ε} {u : Unit} :
    refuse wrong fault = .ok u ↔ wrong = false := by
  cases wrong <;> simp [refuse]

theorem forM_ok {l : List α} {f : α → Except ε Unit} (h : l.forM f = .ok ()) :
    ∀ a ∈ l, f a = .ok () := by
  induction l with
  | nil => intro a ha; cases ha
  | cons a l ih =>
      obtain ⟨_, ha, hl⟩ := bind_ok.mp h
      intro b hb
      rcases List.mem_cons.mp hb with rfl | hb
      · exact ha
      · exact ih hl b hb

/-- **The invariant of a loop of checks**, over the elements it has seen. -/
theorem foldlM_ok {P : List α → β → Prop} {f : β → α → Except ε β} {l seen : List α}
    {b b' : β} (hstep : ∀ seen b a b', P seen b → f b a = .ok b' → P (seen ++ [a]) b')
    (hb : P seen b) (h : l.foldlM f b = .ok b') : P (seen ++ l) b' := by
  induction l generalizing seen b with
  | nil =>
      cases h
      rw [List.append_nil]
      exact hb
  | cons a l ih =>
      rw [List.foldlM_cons] at h
      obtain ⟨next, hnext, h⟩ := bind_ok.mp h
      have hall := ih (hstep _ _ _ _ hb hnext) h
      rwa [List.append_assoc] at hall

/-- A loop that asks every element and remembers whether any of them said yes. -/
theorem foldlM_or_ok {P : α → Prop} {q : α → Bool} {f : α → Except ε Bool} {l : List α}
    (h : ∀ a ∈ l, ∀ b, f a = .ok b ↔ P a ∧ b = q a) {seen b : Bool} :
    l.foldlM (fun seen a => do
        let found ← f a
        return seen || found) seen = .ok b ↔ (∀ a ∈ l, P a) ∧ b = (seen || l.any q) := by
  induction l generalizing seen with
  | nil =>
      rw [List.any_nil, Bool.or_false, List.foldlM_nil]
      constructor
      · intro heq
        cases heq
        exact ⟨by simp, rfl⟩
      · rintro ⟨-, rfl⟩
        rfl
  | cons a l ih =>
      have ih := @ih (fun b hb => h b (List.mem_cons_of_mem _ hb)) (seen || q a)
      rw [List.foldlM_cons, bind_ok, List.any_cons, ← Bool.or_assoc]
      constructor
      · rintro ⟨next, hnext, hl⟩
        obtain ⟨found, hfound, hnext⟩ := bind_ok.mp hnext
        cases hnext
        obtain ⟨ha, rfl⟩ := (h a List.mem_cons_self found).mp hfound
        obtain ⟨hrest, hb⟩ := ih.mp hl
        refine ⟨?_, hb⟩
        intro b hb
        rcases List.mem_cons.mp hb with rfl | hb
        · exact ha
        · exact hrest b hb
      · rintro ⟨hall, hb⟩
        have ha := (h a List.mem_cons_self (q a)).mpr ⟨hall a List.mem_cons_self, rfl⟩
        refine ⟨_, bind_ok.mpr ⟨q a, ha, rfl⟩, ?_⟩
        exact ih.mpr ⟨fun b hb => hall b (List.mem_cons_of_mem _ hb), hb⟩

end Lib
