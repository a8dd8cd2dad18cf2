import Vergerail.Bin.UpagentPrompt

/-!
# The UpAgent provider: the tool calls of an answer

A model answers with a map from tool names to the calls of that tool.
`flatten_native_tool_calls` of `src/bin/vergerail_upagent_provider.rs` takes it apart in
the order in which the tools were advertised, and `validate_returned_tools` checks the
list that comes out.
-/

namespace Vergerail

namespace UpagentPrompt

open Lib (orFault refuse)
open UpagentProvider

/-- `NativeToolCall`. -/
structure NativeToolCall where
  id : String
  arguments : Json

/-- `BTreeMap<String, Vec<NativeToolCall>>`: the calls of every tool the answer names. -/
structure NativeToolCalls where
  entries : List (String × List NativeToolCall)
  sorted : Lib.SortedMap.Sorted entries

/-- `BTreeMap::remove`, without what it returns. -/
def NativeToolCalls.erase (grouped : NativeToolCalls) (name : String) : NativeToolCalls where
  entries := Lib.SortedMap.erase name grouped.entries
  sorted := Lib.SortedMap.sorted_erase name grouped.sorted

/-- `MAX_TOOL_ARGUMENTS_BYTES`. -/
def maxToolArgumentsBytes : Nat := 1024 * 1024

/-- The largest `usize`. -/
def usizeMax : Nat := 2 ^ 64 - 1

/-- An `invalid_provider_output` failure. -/
def invalidOutput (message : String) : ProviderFailure :=
  failure "invalid_provider_output" message false

/-- The call of a tool. -/
def NativeToolCall.named (name : String) (call : NativeToolCall) : ProviderToolCall where
  id := call.id
  name := name
  arguments := call.arguments

/-- One pass of the inner loop of `flatten_native_tool_calls`. -/
def pushToolCall (name : String) (flattened : List ProviderToolCall) (call : NativeToolCall) :
    ProviderResult (List ProviderToolCall) := do
  let flattened := flattened ++ [call.named name]
  refuse (flattened.length > NativeSchema.maxToolCalls)
    (resourceLimit "aggregate native tool calls exceed the bounded provider limit")
  pure flattened

/-- One pass of the outer loop of `flatten_native_tool_calls`. -/
def flattenTool (state : NativeToolCalls × List ProviderToolCall) (tool : ProviderTool) :
    ProviderResult (NativeToolCalls × List ProviderToolCall) := do
  let calls ← orFault (state.1.entries.lookup tool.name)
    (invalidOutput "native toolCalls omitted an advertised tool key")
  let flattened ← calls.foldlM (pushToolCall tool.name) state.2
  pure (state.1.erase tool.name, flattened)

/-- `flatten_native_tool_calls`. -/
def flattenNativeToolCalls (grouped : NativeToolCalls) (tools : List ProviderTool) :
    ProviderResult (List ProviderToolCall) := do
  let state ← tools.foldlM flattenTool (grouped, [])
  refuse (!state.1.entries.isEmpty)
    (invalidOutput "native toolCalls contained an unadvertised tool key")
  pure state.2

/-- What the loop of `validate_returned_tools` has seen. -/
structure SeenCalls where
  argumentBytes : Nat
  ids : List String

/-- One pass of the loop of `validate_returned_tools`. -/
def checkReturnedCall (tools : List ProviderTool) (seen : SeenCalls) (call : ProviderToolCall) :
    ProviderResult SeenCalls := do
  validateToolCall call
  let argumentBytes := seen.argumentBytes + call.arguments.encodedBytes
  refuse (argumentBytes > usizeMax)
    (resourceLimit "aggregate tool-call argument size overflowed")
  refuse (argumentBytes > maxToolArgumentsBytes)
    (resourceLimit "aggregate tool-call arguments exceed the bounded byte limit")
  refuse (call.name ∉ tools.map (·.name))
    (invalidOutput "provider returned a tool outside the advertised set")
  refuse (call.id ∈ seen.ids)
    (invalidOutput "provider returned duplicate tool call ids")
  pure { argumentBytes := argumentBytes, ids := call.id :: seen.ids }

/-- `validate_returned_tools`. -/
def validateReturnedTools (tools : List ProviderTool) (calls : List ProviderToolCall) :
    ProviderResult Unit := do
  refuse (calls.length > NativeSchema.maxToolCalls)
    (resourceLimit "provider returned too many tool calls")
  let _ ← calls.foldlM (checkReturnedCall tools) { argumentBytes := 0, ids := [] }
  pure ()

/-! ## The answer and the bytes it may take -/

/-- `JSON_STRING_MAX_EXPANSION`. -/
def jsonStringMaxExpansion : Nat := 6

/-- `MODEL_RESPONSE_HEADROOM_BYTES`. -/
def modelResponseHeadroomBytes : Nat := 256 * 1024

/-- `MODEL_TOOL_CALL_WRAPPER_BYTES`. -/
def modelToolCallWrapperBytes : Nat := 128

/-- `MAX_MODEL_SESSION_BYTES`. -/
def maxModelSessionBytes : Nat := 64 * 1024 * 1024

/-- `MAX_TEXT_BYTES`. -/
def maxTextBytes : Nat := 8 * 1024 * 1024

/-- `usize::saturating_add`. -/
def saturatingAdd (a b : Nat) : Nat := min (a + b) usizeMax

/-- `usize::saturating_mul`. -/
def saturatingMul (a b : Nat) : Nat := min (a * b) usizeMax

/-- `model_session_bytes`. -/
def modelSessionBytes (maximumTextBytes : Nat) : Nat :=
  min
    (saturatingAdd
      (saturatingAdd
        (saturatingMul jsonStringMaxExpansion
          (saturatingAdd (saturatingAdd maximumTextBytes maxToolArgumentsBytes)
            (saturatingMul NativeSchema.maxToolCalls
              (saturatingAdd NativeSchema.maxToolCallIdBytes maxToolNameBytes))))
        (saturatingMul NativeSchema.maxToolCalls modelToolCallWrapperBytes))
      modelResponseHeadroomBytes)
    maxModelSessionBytes

/-- `ModelTextResponseBody` and `ModelToolResponseBody`. -/
inductive ModelResponseBody where
  | text (answer : String)
  | tool (answer : String) (grouped : NativeToolCalls)

/-- What `run_model_turn` does with the body that the model wrote, up to the response. The
body is read as the text form where no tools are advertised, and as the tool form else; a body
of the other form has a member too few or too many. What `serde_json` says of it, behind the
colon of the message, is left out. -/
def takeModelAnswer (maximumResponseBytes : Nat) (tools : List ProviderTool)
    (body : ModelResponseBody) : ProviderResult (String × List ProviderToolCall) := do
  let taken ← match body with
    | .text answer => do
        refuse (!tools.isEmpty)
          (invalidOutput "model output did not match the strict tool response schema: ")
        pure (answer, [])
    | .tool answer grouped => do
        refuse tools.isEmpty
          (invalidOutput "model output did not match the strict no-tool response schema: ")
        let flattened ← flattenNativeToolCalls grouped tools
        pure (answer, flattened)
  refuse (taken.1.utf8ByteSize > maximumResponseBytes
      || taken.2.length > NativeSchema.maxToolCalls)
    (resourceLimit "structured model response exceeded the configured bound")
  validateReturnedTools tools taken.2
  pure taken

/-- A `NativeToolCall` as the model writes it. -/
def NativeToolCall.toJson (self : NativeToolCall) : Json :=
  .object [("id", .string self.id), ("arguments", self.arguments)]

/-- The map of the calls as the model writes it. -/
def NativeToolCalls.toJson (self : NativeToolCalls) : Json :=
  .object (self.entries.map (fun entry => (entry.1, .array (entry.2.map NativeToolCall.toJson))))

/-- The body as the model writes it. -/
def ModelResponseBody.toJson : ModelResponseBody → Json
  | .text answer => .object [("text", .string answer)]
  | .tool answer grouped => .object [("text", .string answer), ("toolCalls", grouped.toJson)]

end UpagentPrompt

end Vergerail
