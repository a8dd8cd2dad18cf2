import Vergerail.Client.Start
import Vergerail.Private.Protocol

/-!
# The IFSC text provider

`generate_validated_program` and `run_audited_turn` of `src/bin/ifsc_text_provider.rs`:
at most two turns on one persistent text-only session, each of them watched while it
runs and audited from the persisted history once it completed.

What the session answers is given per turn. A turn may answer differently for every
prompt, since the second prompt names the failure of the first program.
-/

namespace Vergerail

/-- `{:?}` of an error kind. -/
def ErrorKind.debug : ErrorKind → String
  | invalidInput => "InvalidInput"
  | runtimeVerification => "RuntimeVerification"
  | process => "Process"
  | protocol => "Protocol"
  | rpc => "Rpc"
  | timeout => "Timeout"
  | disconnected => "Disconnected"
  | cancelled => "Cancelled"
  | outcomeUnknown => "OutcomeUnknown"
  | consumerLagged => "ConsumerLagged"
  | resourceLimit => "ResourceLimit"
  | authentication => "Authentication"
  | shutdown => "Shutdown"

/-- `str::trim`. -/
def trim (text : String) : String :=
  String.ofList ((text.toList.dropWhile charIsWhitespace).reverse.dropWhile
    charIsWhitespace).reverse

namespace IfscTextProvider

/-- `SCHEMA_VERSION`. -/
def schemaVersion : Nat := 1

/-- `MAX_MODEL_ATTEMPTS`. -/
def maxModelAttempts : Nat := 2

/-- `FailureBody` and the exit code: `ProviderFailure`. -/
structure ProviderFailure where
  code : String
  message : String
  retryable : Bool
  requestId : Option String
  details : Option Json
  exitCode : Int

/-- `bounded_message`. -/
def boundedMessage (message : String) : String := String.ofList (message.toList.take 2048)

namespace ProviderFailure

def new (code message : String) (retryable : Bool) (exitCode : Int) : ProviderFailure where
  code
  message := boundedMessage message
  retryable
  requestId := none
  details := none
  exitCode

def withDetails (self : ProviderFailure) (details : Json) : ProviderFailure :=
  { self with details := some details }

end ProviderFailure

/-- The code and the retry flag `map_vergerail_error` gives an error of a kind. -/
def failureCode : ErrorKind → String × Bool
  | .invalidInput => ("configuration-invalid", false)
  | .runtimeVerification => ("runtime-unavailable", false)
  | .process => ("provider-process-failed", true)
  | .protocol => ("provider-protocol-error", false)
  | .rpc => ("provider-rpc-error", false)
  | .timeout => ("provider-timeout", true)
  | .disconnected => ("provider-disconnected", true)
  | .outcomeUnknown => ("provider-outcome-unknown", false)
  | .consumerLagged => ("provider-consumer-lagged", true)
  | .resourceLimit => ("provider-resource-limit", false)
  | .authentication => ("authentication-required", false)
  | .shutdown => ("provider-shutdown-failed", true)
  | .cancelled => ("provider-failed", false)

/-- `map_vergerail_error`. -/
def mapVergerailError (error : Error) : ProviderFailure :=
  (ProviderFailure.new (failureCode error.kind).1
    ("Vergerail operation '" ++ error.operation ++ "' failed (" ++ error.kind.debug ++ "): "
      ++ error.message)
    (failureCode error.kind).2 1).withDetails
    (.object [("operation", .string error.operation), ("kind", .string error.kind.debug)])

/-- `record_violation`: at most eight, each cut to 128 characters. -/
def recordViolation (violations : List String) (evidence : String) : List String :=
  if violations.length < 8 then violations ++ [String.ofList (evidence.toList.take 128)]
  else violations

/-- The lifecycle notifications an additive event may carry. -/
def allowedUnknown (method : String) : Bool :=
  method ∈ ["thread/status/changed", "item/started", "item/completed", "turn/diff/updated"]

/-- The persisted item types that are no effect. -/
def allowedItemType (itemType : String) : Bool :=
  itemType ∈ ["userMessage", "hookPrompt", "agentMessage", "plan", "reasoning",
    "contextCompaction"]

/-- What one turn of the session answers. -/
structure TurnAnswers where
  /-- `Session::start`. -/
  start : Result Unit
  /-- What `next_event` yields, one after the other, until it yields `None`. -/
  events : List (Result Event)
  /-- `ApprovalEvent::deny`. -/
  deny : ApprovalEvent → Result Unit
  /-- The answer to the audit's `thread/read`, or why the session refuses to ask. -/
  read : Result Json

/-- What a live event that is no terminal leaves on record, if it is not silent. -/
def liveViolation : Event → Option String
  | .started => none
  | .textDelta _ => none
  | .usageUpdated _ => none
  | .command _ => some "live-command"
  | .commandOutput _ => some "live-command-output"
  | .fileChange _ => some "live-file-change"
  | .approvalRequested _ => some "live-approval-request"
  | .warning _ => some "live-warning"
  | .unknown method => if allowedUnknown method then none else some ("live-unknown:" ++ method)
  | _ => some "live-unsupported-event"

/-- `record_violation` for an event, if there is something to record. -/
def recordLive (violations : List String) (event : Event) : List String :=
  match liveViolation event with
  | none => violations
  | some evidence => recordViolation violations evidence

/-- The event loop of `run_audited_turn`. -/
def watch (deny : ApprovalEvent → Result Unit) :
    List (Result Event) → List String → Except ProviderFailure (RunResult × List String)
  | [], _ =>
      .error (ProviderFailure.new "provider-disconnected"
        "turn event stream ended without a terminal result" true 1)
  | .error error :: _, _ => .error (mapVergerailError error)
  | .ok (.completed result) :: _, violations => .ok (result, violations)
  | .ok (.failed error) :: _, _ => .error (mapVergerailError error)
  | .ok (.approvalRequested request) :: events, violations =>
    match deny request with
    | .error error => .error (mapVergerailError error)
    | .ok _ => watch deny events (recordLive violations (.approvalRequested request))
  | .ok event :: events, violations => watch deny events (recordLive violations event)

/-- `Session::audit_turn`, with the refusals that depend on the session in `read`. -/
def auditTurn (threadId : String) (turn : TurnAnswers) (turnId : String) : Result TurnAudit :=
  if trimIsEmpty turnId then
    .error (Error.new .invalidInput "Session::audit_turn" "turn id must be non-empty")
  else
    match turn.read with
    | .error error => .error error
    | .ok response => turnAudit response threadId turnId

/-- What the audit adds to the record. -/
def auditViolations (audit : TurnAudit) (turnId : String) (violations : List String) :
    List String :=
  let violations :=
    if audit.turnId ≠ turnId then recordViolation violations "history-turn-mismatch"
    else violations
  let violations :=
    if !audit.commands.isEmpty then recordViolation violations "history-command" else violations
  let violations :=
    if !audit.fileChanges.isEmpty then recordViolation violations "history-file-change"
    else violations
  audit.otherItemTypes.foldl
    (fun violations itemType =>
      if allowedItemType itemType then violations
      else recordViolation violations ("history-item:" ++ itemType))
    violations

/-- `run_audited_turn`. -/
def runAuditedTurn (threadId : String) (turn : TurnAnswers) :
    Except ProviderFailure (RunResult × List String) :=
  match turn.start with
  | .error error => .error (mapVergerailError error)
  | .ok _ =>
    match watch turn.deny turn.events [] with
    | .error failure => .error failure
    | .ok (result, violations) =>
      match auditTurn threadId turn result.turnId with
      | .error error => .error (mapVergerailError error)
      | .ok audit => .ok (result, auditViolations audit result.turnId violations)

/-- `UsageResponse`. -/
structure UsageResponse where
  usage : Usage
  providerAttempts : Nat

/-- `SuccessEnvelope`. -/
structure SuccessEnvelope where
  schemaVersion : Nat
  requestId : String
  screenProgram : Json
  usage : Option UsageResponse

/-- What the provider works with besides the session. -/
structure ProviderEnv where
  /-- `Session::id`. -/
  threadId : String
  /-- The request's `idempotencyKey`. -/
  idempotencyKey : String
  /-- `serde_json::from_str`. -/
  fromStr : String → Option Json
  /-- `validate_program` for the request and its contract. -/
  validateProgram : Json → Except ProviderFailure Unit

/-- The program in a model response, or why it is refused. -/
def candidate (env : ProviderEnv) (text : String) : Except ProviderFailure Json :=
  match env.fromStr (trim text) with
  | none =>
      .error (ProviderFailure.new "invalid-model-output"
        "model response was not exactly one JSON object" false 1)
  | some program =>
    match env.validateProgram program with
    | .error failure => .error failure
    | .ok _ => .ok program

/-- The prompt that follows a refused program. -/
def correctionPrompt (failure : ProviderFailure) : String :=
  "Your previous ScreenProgram was rejected by the canonical validator: " ++ failure.message
    ++ ". Return a corrected ScreenProgram JSON object only. Recheck every allowed key and "
    ++ "all parent-relative bounds."

/-- How one pass of the attempt loop ends. -/
inductive Attempt where
  /-- The next attempt runs with this prompt. -/
  | again (prompt : String)
  /-- The provider returns. -/
  | done (result : Except ProviderFailure SuccessEnvelope)

/-- One pass of the attempt loop. -/
def attemptTurn (env : ProviderEnv) (attempt : Nat) (turn : TurnAnswers) : Attempt :=
  match runAuditedTurn env.threadId turn with
  | .error failure => .done (.error failure)
  | .ok (result, violations) =>
    if !violations.isEmpty then
      .done (.error ((ProviderFailure.new "text-only-boundary-violated"
        "Vergerail observed effect-bearing or unsupported provider activity" false 1).withDetails
        (.object [("observations", .array (violations.map .string))])))
    else if result.status ≠ .completed then
      .done (.error (ProviderFailure.new "turn-interrupted"
        "model turn did not complete normally" true 1))
    else
      match candidate env result.text with
      | .ok program =>
          .done (.ok {
            schemaVersion := schemaVersion
            requestId := env.idempotencyKey
            screenProgram := program
            usage := result.usage.map (⟨·, attempt + 1⟩) })
      | .error failure =>
        if attempt + 1 < maxModelAttempts then .again (correctionPrompt failure)
        else .done (.error failure)

/-- The attempt loop, with the passes that remain. -/
def attempts (env : ProviderEnv) (session : Nat → String → TurnAnswers) :
    Nat → Nat → String → Except ProviderFailure SuccessEnvelope
  | 0, _, _ =>
      .error (ProviderFailure.new "invalid-model-output"
        "model did not produce a valid ScreenProgram" false 1)
  | remaining + 1, attempt, prompt =>
    match attemptTurn env attempt (session attempt prompt) with
    | .done result => result
    | .again prompt => attempts env session remaining (attempt + 1) prompt

/-- `generate_validated_program`. -/
def generateValidatedProgram (env : ProviderEnv) (session : Nat → String → TurnAnswers)
    (initialPrompt : String) : Except ProviderFailure SuccessEnvelope :=
  attempts env session maxModelAttempts 0 initialPrompt

/-- The turns the attempt loop ran, in order. -/
def attemptedTurns (env : ProviderEnv) (session : Nat → String → TurnAnswers) :
    Nat → Nat → String → List TurnAnswers
  | 0, _, _ => []
  | remaining + 1, attempt, prompt =>
    let turn := session attempt prompt
    match attemptTurn env attempt turn with
    | .done _ => [turn]
    | .again prompt => turn :: attemptedTurns env session remaining (attempt + 1) prompt

/-- The turns `generate_validated_program` ran, in order. -/
def turnsRun (env : ProviderEnv) (session : Nat → String → TurnAnswers)
    (initialPrompt : String) : List TurnAnswers :=
  attemptedTurns env session maxModelAttempts 0 initialPrompt

end IfscTextProvider

end Vergerail
