import Vergerail.Error

/-!
# The connection's lifecycle

`ConnectionLifecycle` of `src/private/connection.rs`. Whoever disconnects first owns the
cause; the others find the flag set and go away.
-/

namespace Vergerail

/-- `ConnectionLifecycle`. -/
structure ConnectionLifecycle where
  disconnected : Bool
  closing : Bool
  failure : Option Error
  deriving DecidableEq, Repr

namespace ConnectionLifecycle

def new : ConnectionLifecycle where
  disconnected := false
  closing := false
  failure := none

/-- `begin_closing`; true for the caller that starts the shutdown. -/
def beginClosing (self : ConnectionLifecycle) : Bool × ConnectionLifecycle :=
  (!self.closing, { self with closing := true })

/-- `begin_disconnect`; true for the caller that owns the cleanup. -/
def beginDisconnect (self : ConnectionLifecycle) (error : Error) : Bool × ConnectionLifecycle :=
  if self.disconnected then (false, self)
  else (true, { self with failure := some error, disconnected := true })

/-- `replace_failure`. -/
def replaceFailure (self : ConnectionLifecycle) (error : Error) : ConnectionLifecycle :=
  { self with failure := some error }

/-- The flag and the cause go together. -/
def Owned (self : ConnectionLifecycle) : Prop :=
  self.disconnected = true ↔ ∃ failure, self.failure = some failure

theorem owned_new : Owned new := by simp [Owned, new]

/-- What a disconnect leaves behind: the first cause, which may be its own. -/
theorem beginDisconnect_cases (self : ConnectionLifecycle) (error : Error) :
    (self.disconnected = true ∧ self.beginDisconnect error = (false, self)) ∨
    (self.disconnected = false ∧ self.beginDisconnect error =
      (true, { self with failure := some error, disconnected := true })) := by
  unfold beginDisconnect
  cases h : self.disconnected with
  | true => exact .inl ⟨rfl, rfl⟩
  | false => exact .inr ⟨rfl, rfl⟩

theorem disconnected_beginDisconnect (self : ConnectionLifecycle) (error : Error) :
    (self.beginDisconnect error).2.disconnected = true := by
  rcases self.beginDisconnect_cases error with ⟨h, hs⟩ | ⟨-, hs⟩
  · rw [hs]
    exact h
  · rw [hs]

theorem owned_beginDisconnect {self : ConnectionLifecycle} (h : self.Owned) (error : Error) :
    (self.beginDisconnect error).2.Owned := by
  rcases self.beginDisconnect_cases error with ⟨-, hs⟩ | ⟨-, hs⟩
  · rw [hs]
    exact h
  · rw [hs]
    simp [Owned]

end ConnectionLifecycle

end Vergerail
