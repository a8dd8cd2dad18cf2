import Vergerail.Lib.Checked

/-!
# Code that may trap

A step of a program answers, refuses with a fault of its own, or traps: it reads past the
end, its arithmetic leaves the type, its rounds run out. The operations here trap exactly
where those of the language do.

A program *tracks* a check that has no such operations when it answers as the check does
and refuses as the check does. Then it never traps. `Tracks` follows the shape of the two
programs: a bind for a bind, a refusal for a refusal, a loop for a loop.
-/

namespace Lib

variable {ε α β ρ σ : Type}

/-- What a program must not run into. -/
inductive Trap where
  /-- An index past the end. -/
  | index
  /-- A slice out of order or past the end. -/
  | slice
  /-- A slice that does not fill the array it is turned into. -/
  | conversion
  /-- A result outside the type of its operands. -/
  | overflow
  /-- A vector longer than any allocation. -/
  | capacity
  /-- A branch that is marked as never taken. -/
  | unreachable
  /-- No rounds are left. -/
  | endless
  /-- A buffer whose size was not checked before. -/
  | unchecked
  deriving DecidableEq, Repr

/-- How a program ends without an answer. -/
inductive Halt (ε : Type) where
  | refused (fault : ε)
  | trapped (trap : Trap)
  deriving DecidableEq, Repr

abbrev Exec (ε α : Type) := Except (Halt ε) α

namespace Exec

def trap (trap : Trap) : Exec ε α := .error (.trapped trap)

/-- A check inside a program. -/
def lift (x : Except ε α) : Exec ε α :=
  match x with
  | .ok a => .ok a
  | .error fault => .error (.refused fault)

/-! ## Operations -/

/-- A sum in a type with this largest value. -/
def addWithin (bound a b : Nat) : Exec ε Nat :=
  if a + b ≤ bound then .ok (a + b) else trap .overflow

/-- A product in a type with this largest value. -/
def mulWithin (bound a b : Nat) : Exec ε Nat :=
  if a * b ≤ bound then .ok (a * b) else trap .overflow

/-- A difference in an unsigned type. -/
def subWithin (a b : Nat) : Exec ε Nat :=
  if b ≤ a then .ok (a - b) else trap .overflow

/-- A result in a signed type with these smallest and largest values. -/
def intWithin (low high z : Int) : Exec ε Int :=
  if low ≤ z ∧ z ≤ high then .ok z else trap .overflow

/-- `xs[i]`. -/
def index (xs : List α) (i : Nat) : Exec ε α :=
  match xs[i]? with
  | some a => .ok a
  | none => trap .index

/-- `xs[i] = a`. -/
def store (xs : List α) (i : Nat) (a : α) : Exec ε (List α) :=
  if i < xs.length then .ok (xs.set i a) else trap .index

/-- `&xs[i..j]`. -/
def slice (xs : List α) (i j : Nat) : Exec ε (List α) :=
  if i ≤ j ∧ j ≤ xs.length then .ok ((xs.drop i).take (j - i)) else trap .slice

/-- `xs.try_into().unwrap()`, into an array of `n`. -/
def toArray (n : Nat) (xs : List α) : Exec ε (List α) :=
  if xs.length = n then .ok xs else trap .conversion

/-- `xs.extend_from_slice(ys)`. -/
def extend (bound : Nat) (xs ys : List α) : Exec ε (List α) :=
  if (xs ++ ys).length ≤ bound then .ok (xs ++ ys) else trap .capacity

theorem addWithin_of_le {bound a b : Nat} (h : a + b ≤ bound) :
    addWithin (ε := ε) bound a b = .ok (a + b) := if_pos h

theorem mulWithin_of_le {bound a b : Nat} (h : a * b ≤ bound) :
    mulWithin (ε := ε) bound a b = .ok (a * b) := if_pos h

theorem subWithin_of_le {a b : Nat} (h : b ≤ a) : subWithin (ε := ε) a b = .ok (a - b) :=
  if_pos h

theorem intWithin_of_mem {low high z : Int} (hlow : low ≤ z) (hhigh : z ≤ high) :
    intWithin (ε := ε) low high z = .ok z := if_pos ⟨hlow, hhigh⟩

theorem index_of_lt {xs : List α} {i : Nat} (h : i < xs.length) (d : α) :
    index (ε := ε) xs i = .ok (xs.getD i d) := by
  rw [index, List.getElem?_eq_getElem h, List.getD_eq_getElem?_getD, List.getElem?_eq_getElem h]
  rfl

theorem store_of_lt {xs : List α} {i : Nat} {a : α} (h : i < xs.length) :
    store (ε := ε) xs i a = .ok (xs.set i a) := if_pos h

theorem slice_of_le {xs : List α} {i j : Nat} (hij : i ≤ j) (hj : j ≤ xs.length) :
    slice (ε := ε) xs i j = .ok ((xs.drop i).take (j - i)) := if_pos ⟨hij, hj⟩

theorem toArray_of_length {n : Nat} {xs : List α} (h : xs.length = n) :
    toArray (ε := ε) n xs = .ok xs := if_pos h

theorem extend_of_le {bound : Nat} {xs ys : List α} (h : (xs ++ ys).length ≤ bound) :
    extend (ε := ε) bound xs ys = .ok (xs ++ ys) := if_pos h

@[simp] theorem ok_bind {a : α} {f : α → Exec ε β} :
    ((Except.ok a : Exec ε α) >>= f) = f a := rfl

end Exec

/-! ## Tracking -/

/-- The program ends as the check does, with answers that are related. -/
def Tracks (R : ρ → α → Prop) (x : Exec ε ρ) (y : Except ε α) : Prop :=
  match y with
  | .ok a => ∃ r, x = .ok r ∧ R r a
  | .error fault => x = .error (.refused fault)

namespace Tracks

open Exec

variable {R R' : ρ → α → Prop} {S : σ → β → Prop} {x : Exec ε ρ} {y : Except ε α}

theorem ok {r : ρ} {a : α} (h : R r a) : Tracks (ε := ε) R (.ok r) (.ok a) := ⟨r, rfl, h⟩

theorem mono (h : Tracks R x y) (himp : ∀ r a, R r a → R' r a) : Tracks R' x y := by
  cases y with
  | ok a =>
      obtain ⟨r, hx, hr⟩ := h
      exact ⟨r, hx, himp r a hr⟩
  | error fault => exact h

/-- A check inside the program tracks itself. -/
theorem lift (y : Except ε α) : Tracks (fun r a => r = a ∧ y = .ok a) (lift y) y := by
  cases y with
  | ok a => exact ⟨a, rfl, rfl, rfl⟩
  | error fault => rfl

/-- **The rule of two binds.** -/
theorem bind {f : ρ → Exec ε σ} {g : α → Except ε β} (h : Tracks R x y)
    (hf : ∀ r a, R r a → Tracks S (f r) (g a)) : Tracks S (x >>= f) (y >>= g) := by
  cases y with
  | ok a =>
      obtain ⟨r, rfl, hr⟩ := h
      exact hf r a hr
  | error fault =>
      have hx : x = .error (.refused fault) := h
      subst hx
      rfl

/-- The same check stands first in both. -/
theorem lift_bind {f : α → Exec ε σ} {g : α → Except ε β}
    (hf : ∀ a, y = .ok a → Tracks S (f a) (g a)) :
    Tracks S (Exec.lift y >>= f) (y >>= g) := by
  refine (lift y).bind ?_
  rintro r a ⟨rfl, hy⟩
  exact hf r hy

/-- The check alone, with its answer put into a state. -/
theorem lift_mapped {f : α → ρ} (hf : ∀ a, y = .ok a → R (f a) a) :
    Tracks R (Exec.lift y >>= fun a => pure (f a)) y := by
  cases y with
  | ok a => exact ⟨f a, rfl, hf a rfl⟩
  | error fault => rfl

theorem refuse {wrong : Bool} {fault : ε} {f : Unit → Exec ε σ} {g : Unit → Except ε β}
    (hf : wrong = false → Tracks S (f ()) (g ())) :
    Tracks S (Exec.lift (refuse wrong fault) >>= f) (Lib.refuse wrong fault >>= g) :=
  lift_bind fun _ h => hf (refuse_ok.mp h)

theorem orFault {found : Option α} {fault : ε} {f : α → Exec ε σ} {g : α → Except ε β}
    (hf : ∀ a, found = some a → Tracks S (f a) (g a)) :
    Tracks S (Exec.lift (orFault found fault) >>= f) (Lib.orFault found fault >>= g) :=
  lift_bind fun a h => hf a (orFault_ok.mp h)

/-- **The rule of two loops** over the same elements. -/
theorem foldlM {γ : Type} {l : List γ} {f : ρ → γ → Exec ε ρ} {g : α → γ → Except ε α}
    (hstep : ∀ c ∈ l, ∀ r a, R r a → Tracks R (f r c) (g a c)) {r : ρ} {a : α} (h : R r a) :
    Tracks R (l.foldlM f r) (l.foldlM g a) := by
  induction l generalizing r a with
  | nil => exact ok h
  | cons c l ih =>
      rw [List.foldlM_cons, List.foldlM_cons]
      refine (hstep c List.mem_cons_self r a h).bind ?_
      intro r' a' h'
      exact ih (fun c' hc' => hstep c' (List.mem_cons_of_mem c hc')) h'

theorem eq_lift {x : Exec ε α} (h : Tracks Eq x y) : x = Exec.lift y := by
  cases y with
  | ok a =>
      obtain ⟨r, rfl, rfl⟩ := h
      rfl
  | error fault => exact h

/-- **What tracks a check does not trap.** -/
theorem ne_trapped (h : Tracks R x y) (trap : Trap) : x ≠ .error (.trapped trap) := by
  intro hx
  subst hx
  cases y with
  | ok a =>
      obtain ⟨r, hr, -⟩ := h
      cases hr
  | error fault => cases h

/-- What the answer of the check says holds of the program's. -/
theorem answered {r : ρ} (h : Tracks R x y) (hx : x = .ok r) : ∃ a, y = .ok a ∧ R r a := by
  subst hx
  cases y with
  | ok a =>
      obtain ⟨r', hr', hrel⟩ := h
      cases hr'
      exact ⟨a, rfl, hrel⟩
  | error fault => cases h

end Tracks

end Lib
