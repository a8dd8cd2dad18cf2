import Vergerail.Error
import Vergerail.Lib.Machine
import Vergerail.Lib.SortedMap
import Mathlib.Data.String.Basic

/-!
# Managed logins

The `LoginRegistry` of `src/account.rs`. Its lock covers the bookkeeping of every
operation, so an operation is one transition. A stored waiter is the id of the oneshot
sender that `wait` kept; a result that is sent to it goes to `delivered`, which is what
the receivers of all waiters have been sent, oldest first. The maps are ordered by key,
which no operation can observe.
-/

namespace Vergerail

open Lib

/-- `EARLY_LOGIN_COMPLETION_CAPACITY`. -/
def earlyLoginCompletionCapacity : Nat := 32

/-- `u64::MAX`. -/
def u64Max : Nat := 2 ^ 64 - 1

/-- `LoginEntry`. -/
structure LoginEntry where
  terminal : Option (Result Unit)
  waiters : List Nat

/-- `LoginState`. -/
structure LoginState where
  nextWaiterId : Nat
  active : List (String × LoginEntry)
  earlyCompleted : List (String × Result Unit)
  earlyOrder : List String

/-- `LoginWait`. -/
inductive LoginWait where
  | completed (result : Result Unit)
  | pending (waiterId : Nat)

/-- Results on their way to waiters. -/
abbrev LoginSends := List (Nat × Result Unit)

namespace LoginState

/-- `LoginState::default`. -/
def default : LoginState where
  nextWaiterId := 1
  active := []
  earlyCompleted := []
  earlyOrder := []

/-- The entry of a registered login. -/
def entry (self : LoginState) (loginId : String) : Option LoginEntry := self.active.lookup loginId

/-- `LoginRegistry::register`. -/
def register (self : LoginState) (loginId : String) : Bool × LoginState :=
  match self.entry loginId with
  | some _ => (false, self)
  | none =>
    let terminal := self.earlyCompleted.lookup loginId
    (true, { self with
      active := SortedMap.insert loginId ⟨terminal, []⟩ self.active
      earlyCompleted := SortedMap.erase loginId self.earlyCompleted
      earlyOrder :=
        if terminal.isSome then self.earlyOrder.filter (fun candidate => candidate ≠ loginId)
        else self.earlyOrder })

/-- `LoginRegistry::wait`. -/
def wait (self : LoginState) (loginId : String) : Result LoginWait × LoginState :=
  match self.entry loginId with
  | none =>
      (.error (Error.new .invalidInput "account.login.wait" "login handle is no longer active"),
        self)
  | some entry =>
    match entry.terminal with
    | some result => (.ok (.completed result), self)
    | none =>
      let waiterId := self.nextWaiterId
      if waiterId + 1 > u64Max then
        (.error (Error.new .protocol "account.login.wait" "login waiter id space exhausted"), self)
      else
        (.ok (.pending waiterId), { self with
          nextWaiterId := waiterId + 1
          active := SortedMap.insert loginId
            { entry with waiters := entry.waiters.insert waiterId } self.active })

/-- `LoginRegistry::remove_waiter`. -/
def removeWaiter (self : LoginState) (loginId : String) (waiterId : Nat) : LoginState :=
  match self.entry loginId with
  | none => self
  | some entry =>
      { self with
        active := SortedMap.insert loginId
          { entry with waiters := entry.waiters.filter (fun n => n ≠ waiterId) } self.active }

/-- `LoginRegistry::release`. -/
def release (self : LoginState) (loginId : String) : LoginState :=
  { self with
    active := SortedMap.erase loginId self.active
    earlyCompleted := SortedMap.erase loginId self.earlyCompleted
    earlyOrder := self.earlyOrder.filter (fun candidate => candidate ≠ loginId) }

/-- Drops the oldest early completion while the cache is full. -/
def expireEarly (self : LoginState) : LoginState :=
  match self.earlyOrder with
  | expired :: rest =>
    if self.earlyCompleted.length ≥ earlyLoginCompletionCapacity then
      { self with
        earlyOrder := rest
        earlyCompleted := SortedMap.erase expired self.earlyCompleted }
    else self
  | [] => self

/-- `cache_early_login_result`. -/
def cacheEarlyLoginResult (self : LoginState) (loginId : String) (result : Result Unit) :
    LoginState :=
  if (self.earlyCompleted.lookup loginId).isSome then self
  else
    let kept := self.expireEarly
    { kept with
      earlyOrder := kept.earlyOrder ++ [loginId]
      earlyCompleted := SortedMap.insert loginId result kept.earlyCompleted }

/-- `LoginRegistry::complete`, with what it sends. -/
def complete (self : LoginState) (loginId : String) (result : Result Unit) :
    LoginSends × LoginState :=
  match self.entry loginId with
  | none => ([], self.cacheEarlyLoginResult loginId result)
  | some entry =>
    if entry.terminal.isSome then ([], self)
    else
      (entry.waiters.map (fun n => (n, result)),
        { self with active := SortedMap.insert loginId ⟨some result, []⟩ self.active })

/-- What `fail_active` does to an entry. -/
def failEntry (error : Error) (entry : LoginEntry) : LoginEntry :=
  { terminal := if entry.terminal.isNone then some (.error error) else entry.terminal
    waiters := [] }

/-- `LoginRegistry::fail_active`, with what it sends. -/
def failActive (self : LoginState) (error : Error) : LoginSends × LoginState :=
  ((self.active.flatMap (fun p => p.2.waiters)).map (fun n => (n, .error error)),
    { self with active := SortedMap.map (failEntry error) self.active })

end LoginState

/-- The operations of `LoginRegistry`. -/
inductive LoginOp where
  | register (loginId : String)
  | wait (loginId : String)
  | removeWaiter (loginId : String) (waiterId : Nat)
  | complete (loginId : String) (result : Result Unit)
  | failActive (error : Error)
  | release (loginId : String)

/-- The registry and what its waiters were sent. -/
structure LoginWorld where
  state : LoginState
  delivered : LoginSends

namespace LoginWorld

/-- One operation. -/
def act (w : LoginWorld) : LoginOp → LoginWorld
  | .register loginId => { w with state := (w.state.register loginId).2 }
  | .wait loginId => { w with state := (w.state.wait loginId).2 }
  | .removeWaiter loginId waiterId => { w with state := w.state.removeWaiter loginId waiterId }
  | .complete loginId result =>
      { state := (w.state.complete loginId result).2
        delivered := w.delivered ++ (w.state.complete loginId result).1 }
  | .failActive error =>
      { state := (w.state.failActive error).2
        delivered := w.delivered ++ (w.state.failActive error).1 }
  | .release loginId => { w with state := w.state.release loginId }

/-- What a waiter was sent. -/
def received (w : LoginWorld) (waiterId : Nat) : List (Result Unit) :=
  (w.delivered.filter (fun d => d.1 = waiterId)).map Prod.snd

end LoginWorld

/-- The machine of one client's login registry. -/
def loginMachine : Machine LoginWorld LoginOp where
  init := { state := .default, delivered := [] }
  step := LoginWorld.act

end Vergerail
