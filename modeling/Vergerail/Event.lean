import Vergerail.Json

/-!
# Run events, images and turn completions

`src/event.rs`, the retained part of `src/image.rs`, and `turn_completion` of
`src/private/protocol.rs`. A `usize` is a `Nat`; the checked operations refuse a
result above `usizeMax`, as the source's do.
-/

namespace Vergerail

/-! ## Checked `usize` arithmetic -/

/-- `usize::MAX` on the 64-bit targets the runtime supports. -/
def usizeMax : Nat := 2 ^ 64 - 1

/-- `usize::checked_add`. -/
def checkedAdd (a b : Nat) : Option Nat := if a + b ≤ usizeMax then some (a + b) else none

/-- `usize::checked_sub`. -/
def checkedSub (a b : Nat) : Option Nat := if b ≤ a then some (a - b) else none

/-! ## Images -/

/-- `ImageGenerationFailure`. -/
inductive ImageGenerationFailure where
  | usageLimitExceeded (limitId : String) (resetsAt : Option Int)
  deriving DecidableEq, Repr

def ImageGenerationFailure.retainedBytes : ImageGenerationFailure → Nat
  | usageLimitExceeded limitId _ => limitId.utf8ByteSize

/-- `ImageGeneration`: the latest state of one image item. -/
structure ImageGeneration where
  id : String
  status : String
  revisedPrompt : Option String
  resultBase64 : String
  transparentBackground : Option Bool
  failure : Option ImageGenerationFailure
  savedPath : Option String
  deriving DecidableEq, Repr

/-- `ImageGeneration::retained_bytes`. -/
def ImageGeneration.retainedBytes (self : ImageGeneration) : Option Nat := do
  let mut bytes ← checkedAdd self.id.utf8ByteSize self.status.utf8ByteSize
  bytes ← checkedAdd bytes self.resultBase64.utf8ByteSize
  if let some prompt := self.revisedPrompt then
    bytes ← checkedAdd bytes prompt.utf8ByteSize
  if let some path := self.savedPath then
    bytes ← checkedAdd bytes path.utf8ByteSize
  if let some failure := self.failure then
    bytes ← checkedAdd bytes failure.retainedBytes
  return bytes

/-! ## Events -/

/-- `Usage`. -/
structure Usage where
  inputTokens : Nat
  cachedInputTokens : Nat
  outputTokens : Nat
  reasoningOutputTokens : Nat
  totalTokens : Nat
  modelContextWindow : Option Nat
  deriving DecidableEq, Repr

/-- `TurnStatus`. -/
inductive TurnStatus where
  | completed
  | interrupted
  deriving DecidableEq, Repr

/-- `RunResult`: the final observable result of a run. -/
structure RunResult where
  threadId : String
  turnId : String
  text : String
  status : TurnStatus
  usage : Option Usage
  imageGenerations : List ImageGeneration
  deriving DecidableEq, Repr

/-- `CommandSummary`. -/
structure CommandSummary where
  itemId : String
  command : String
  cwd : Option String
  status : String
  deriving DecidableEq, Repr

/-- `FileChangeSummary`. -/
structure FileChangeSummary where
  itemId : String
  paths : List String
  status : String
  deriving DecidableEq, Repr

/-- `RpcId`. -/
inductive RpcId where
  | number (n : Int)
  | string (s : String)
  deriving DecidableEq, Repr

/-- `ApprovalEvent`, known to the router only as the reverse request it must answer. -/
structure ApprovalEvent where
  id : RpcId
  deriving DecidableEq, Repr

/-- `Event`. -/
inductive Event where
  | started
  | textDelta (delta : String)
  | command (summary : CommandSummary)
  | commandOutput (delta : String)
  | fileChange (summary : FileChangeSummary)
  | imageGeneration (image : ImageGeneration)
  | approvalRequested (request : ApprovalEvent)
  | usageUpdated (usage : Usage)
  | warning (message : String)
  | unknown (method : String)
  | completed (result : RunResult)
  | failed (error : Error)
  deriving DecidableEq, Repr

/-- The image an event carries, if it is an image event. -/
def Event.image : Event → Option ImageGeneration
  | imageGeneration image => some image
  | _ => none

/-- The item id of the image an event carries. -/
def Event.imageId (event : Event) : Option String := event.image.map (·.id)

/-! ## Turn completion -/

/-- `TurnOutcome`. -/
inductive TurnOutcome where
  | completed
  | interrupted
  | failed (message : String)
  deriving DecidableEq, Repr

/-- `TurnCompletion`. -/
structure TurnCompletion where
  turnId : String
  outcome : Result TurnOutcome
  deriving DecidableEq

namespace TurnCompletion

def completed (turnId : String) : TurnCompletion := ⟨turnId, .ok .completed⟩

def interrupted (turnId : String) : TurnCompletion := ⟨turnId, .ok .interrupted⟩

def failed (turnId message : String) : TurnCompletion := ⟨turnId, .ok (.failed message)⟩

def invalid (turnId : String) (error : Error) : TurnCompletion := ⟨turnId, .error error⟩

/-- `TurnCompletion::into_result`. -/
def intoResult (self : TurnCompletion) (threadId text : String) (usage : Option Usage)
    (imageGenerations : List ImageGeneration) : Result RunResult :=
  match self.outcome with
  | .error error => .error error
  | .ok (.failed message) => .error (Error.new .rpc "turn.completed" message)
  | .ok .completed =>
      .ok { threadId, turnId := self.turnId, text, status := .completed, usage, imageGenerations }
  | .ok .interrupted =>
      .ok { threadId, turnId := self.turnId, text, status := .interrupted, usage,
            imageGenerations }

end TurnCompletion

/-- `turn_completion`: the completion a `turn/completed` payload reports. -/
def turnCompletion (redactLine : String → String) (params : Json) : Result TurnCompletion :=
  match params.get "turn" with
  | none => .error (protocolField "turn.completed" "turn")
  | some turn =>
    match (turn.get "id").bind Json.asNonEmptyStr with
    | none => .error (protocolField "turn.completed" "turn.id")
    | some turnId =>
      match (turn.get "status").bind Json.asStr with
      | some "completed" => .ok (.completed turnId)
      | some "interrupted" => .ok (.interrupted turnId)
      | some "failed" =>
          .ok (.failed turnId
            ((((turn.pointer ["error", "message"]).bind Json.asStr).map redactLine).getD
              "Codex turn failed"))
      | some other =>
          .ok (.invalid turnId (Error.new .protocol "turn.completed"
            ("unexpected terminal status '" ++ other ++ "'")))
      | none => .ok (.invalid turnId (protocolField "turn.completed" "turn.status"))

end Vergerail
