import Mathlib

/-!
# The public error model

`src/error.rs`. An error carries its category, the operation that failed, a
message, and optionally a JSON-RPC code and a stderr suffix. Which cause came first
is told by `kind` and `operation`: the two enriching operations leave both alone.
-/

namespace Vergerail

/-- Stable error categories. -/
inductive ErrorKind where
  | invalidInput
  | runtimeVerification
  | process
  | protocol
  | rpc
  | timeout
  | disconnected
  | cancelled
  | outcomeUnknown
  | consumerLagged
  | resourceLimit
  | authentication
  | shutdown
  deriving DecidableEq, Repr

/-- A failure report. -/
structure Error where
  kind : ErrorKind
  operation : String
  message : String
  rpcCode : Option Int
  stderrTail : Option String
  deriving DecidableEq, Repr

/-- `Result<T>`. -/
abbrev Result (α : Type) := Except Error α

namespace Error

def new (kind : ErrorKind) (operation message : String) : Error :=
  { kind, operation, message, rpcCode := none, stderrTail := none }

def rpc (operation : String) (code : Int) (message : String) : Error :=
  { kind := .rpc, operation, message, rpcCode := some code, stderrTail := none }

/-- `Error::timeout`; the duration is given in milliseconds. -/
def timeout (operation : String) (ms : Nat) : Error :=
  new .timeout operation ("operation exceeded " ++ toString ms ++ " ms")

/-- `impl Display for Error`. -/
def display (self : Error) : String :=
  self.operation ++ ": " ++ self.message ++
    match self.rpcCode with
    | some code => " (rpc code " ++ toString code ++ ")"
    | none => ""

def withRelatedError (self : Error) (context : String) (related : Error) : Error :=
  { self with
    message := self.message ++ "; " ++ context ++ ": " ++ related.display
    stderrTail := if self.stderrTail.isNone then related.stderrTail else self.stderrTail }

def withStderr (self : Error) (stderrTail : Option String) : Error :=
  { self with stderrTail }

/-- Two errors report the same cause: the same category, raised by the same operation. -/
def SameCause (e e' : Error) : Prop := e.kind = e'.kind ∧ e.operation = e'.operation

theorem SameCause.refl (e : Error) : SameCause e e := ⟨rfl, rfl⟩

theorem SameCause.trans {a b c : Error} (h : SameCause a b) (h' : SameCause b c) :
    SameCause a c := ⟨h.1.trans h'.1, h.2.trans h'.2⟩

/-- Naming a related error keeps the cause. -/
theorem sameCause_withRelatedError (self : Error) (context : String) (related : Error) :
    SameCause (self.withRelatedError context related) self := ⟨rfl, rfl⟩

/-- Attaching stderr keeps the cause. -/
theorem sameCause_withStderr (self : Error) (tail : Option String) :
    SameCause (self.withStderr tail) self := ⟨rfl, rfl⟩

end Error

end Vergerail
