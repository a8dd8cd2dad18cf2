import Vergerail.Session.RunWorld

/-!
# Notifications without a turn

`src/client/router.rs`. A `warning` with a thread id, and a method the client does not
know, become events of the thread's run whether they carry a turn id or not; every
known run notification without one disconnects the client, so it is no event. What a
routed event's outcome leaves behind is the work of `route_run_event`.
-/

namespace Vergerail

/-- An entry of the client's diagnostics, before `push_diagnostic` redacts its message. -/
structure Diagnostic where
  method : String
  message : String
  deriving DecidableEq, Repr

/-- What `handle_notification` makes of a notification of the two kinds. -/
inductive NotificationRoute where
  | diagnostic (entry : Diagnostic)
  | runEvent (threadId : String) (observedTurnId : Option String) (sourceMethod : String)
      (event : Event)

/-- `compact_notification`. -/
def compactNotification (redactLine : String → String) (params : Json) : String :=
  (((params.get "message").bind Json.asStr).map redactLine).getD
    "notification captured without exposing raw provider payload"

/-- `handle_notification` for the method `warning`. -/
def handleWarning (redactLine : String → String) (params : Json) : NotificationRoute :=
  match (params.get "message").bind Json.asStr with
  | none =>
      .diagnostic ⟨"rpc/malformedNotification",
        "warning notification is missing string field 'message'"⟩
  | some message =>
    match (params.get "threadId").bind Json.asStr with
    | some threadId => .runEvent threadId none "warning" (.warning (redactLine message))
    | none => .diagnostic ⟨"warning", redactLine message⟩

/-- `handle_notification` for a method it does not know. -/
def handleUnknown (redactLine : String → String) (method : String) (params : Json) :
    NotificationRoute :=
  match (params.get "threadId").bind Json.asNonEmptyStr with
  | none => .diagnostic ⟨method, compactNotification redactLine params⟩
  | some threadId =>
      .runEvent threadId ((params.get "turnId").bind Json.asNonEmptyStr) method (.unknown method)

/-- The router routes an event without a turn to a thread's run. -/
inductive Turnless (redactLine : String → String) (threadId : String) :
    String → Event → Prop where
  | warning {params : Json} {sourceMethod : String} {event : Event} :
      handleWarning redactLine params = .runEvent threadId none sourceMethod event →
      Turnless redactLine threadId sourceMethod event
  | unknown {method : String} {params : Json} {sourceMethod : String} {event : Event} :
      handleUnknown redactLine method params = .runEvent threadId none sourceMethod event →
      Turnless redactLine threadId sourceMethod event

/-- The diagnostic that `route_run_event` pushes for an outcome, if it pushes one. -/
def runEventDiagnostic (threadId sourceMethod : String) : RunEventOutcome → Option Diagnostic
  | .unregistered =>
      some ⟨"rpc/unroutedNotification",
        "'" ++ sourceMethod ++ "' targeted inactive thread '" ++ threadId ++ "'"⟩
  | .delivered => none
  | .deferred => none
  | .ignoredBeforeTurn => none
  | .ignoredAfterAbandon => none
  | .ignoredAfterFailure => none
  | .afterTerminal =>
      some ⟨"rpc/lateTurnNotification",
        "discarded '" ++ sourceMethod ++ "' after the active turn reached a terminal state"⟩
  | .turnMismatch expected observed =>
      some ⟨"rpc/staleTurnNotification",
        "discarded '" ++ sourceMethod ++ "' for turn '" ++ observed
          ++ "' while active turn is '" ++ expected ++ "'"⟩
  | .routeFailure _ _ => none

end Vergerail
