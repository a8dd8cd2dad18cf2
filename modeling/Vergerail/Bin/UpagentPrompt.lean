import Vergerail.Bin.NativeSchema
import Vergerail.JsonText
import Vergerail.Lib.Checked
import Vergerail.Png
import Vergerail.Private.Process
import Mathlib.Data.List.Sort

/-!
# The UpAgent provider: the images of a model turn

`validate_request` of `src/bin/vergerail_upagent_provider.rs` with the checks under it,
and `run_model_turn` up to `Session::start`: the observations are validated once more,
sorted by their place, staged as files in that order, and referenced from the prompt by
their position in it.

Base64, digests and what the zlib decoder makes of the data of a PNG are given, and so is
what the host answers about the staging directory.
-/

namespace Vergerail

namespace UpagentPrompt

open Lib (orFault refuse)
open UpagentProvider

/-! ## The request -/

/-- `ProviderMessageRole`. -/
inductive ProviderMessageRole where
  | system
  | developer
  | user
  | assistant
  | tool
  deriving DecidableEq

/-- `ProviderImageRole`. -/
inductive ProviderImageRole where
  | full
  | crop
  | mask
  | alphaCheckerboard
  | diff
  deriving DecidableEq

/-- `ProviderImageDetail`. -/
inductive ProviderImageDetail where
  | low
  | auto
  | high
  deriving DecidableEq

/-- `ProviderArtifactRef`. -/
structure ProviderArtifactRef where
  id : String
  sha256 : String
  mediaType : String
  byteLength : Nat
  relativePath : String

/-- `ProviderImageObservation`. -/
structure ProviderImageObservation where
  artifact : ProviderArtifactRef
  role : ProviderImageRole
  detail : ProviderImageDetail
  caption : Option String

/-- `ProviderContentPart`. -/
inductive ProviderContentPart where
  | text (text : String)
  | imageObservation (image : ProviderImageObservation)

/-- `ProviderToolCall`. -/
structure ProviderToolCall where
  id : String
  name : String
  arguments : Json

/-- `ProviderMessage`. -/
structure ProviderMessage where
  role : ProviderMessageRole
  content : String
  contentParts : List ProviderContentPart
  toolCalls : List ProviderToolCall
  toolCallId : Option String
  toolName : Option String
  isError : Bool

/-- `ProviderObservation`. -/
structure ProviderObservation where
  messageIndex : Nat
  partIndex : Nat
  mediaType : String
  sha256 : String
  width : Nat
  height : Nat
  role : ProviderImageRole
  base64 : String

/-- `ProviderTool`. -/
structure ProviderTool extends NativeSchema.ProviderTool where
  description : String
  strict : Bool

/-- The fields of `ProviderRequest` that the code here reads. -/
structure ProviderRequest where
  schemaVersion : Nat
  requestId : String
  operation : ProviderOperation
  messages : List ProviderMessage
  observations : List ProviderObservation
  stagingRoot : Option String
  tools : List ProviderTool
  timeoutMs : Nat
  maximumResponseBytes : Nat
  prompt : Option String
  imageOptions : Option ImageGenerationOptions

/-- `MAX_MESSAGE_BYTES`. -/
def maxMessageBytes : Nat := 128 * 1024

/-- `MAX_MESSAGES`. -/
def maxMessages : Nat := 128

/-- `MAX_TOOLS`. -/
def maxTools : Nat := 64

/-- `MAX_TOOL_NAME_BYTES`. -/
def maxToolNameBytes : Nat := 160

/-- `MAX_TOOL_ARGUMENT_BYTES`. -/
def maxToolArgumentBytes : Nat := 256 * 1024

/-- `MAX_PROVIDER_TIMEOUT_MS`. -/
def maxProviderTimeoutMs : Nat := 30 * 60 * 1000

/-- `CodexConfig::MIN_FRAME_BYTES`. -/
def minFrameBytes : Nat := 64 * 1024

/-- What the provider computes with. -/
structure Codecs where
  /-- `BASE64_STANDARD.decode`. -/
  decodeBase64 : String → Except String (List UInt8)
  /-- `sha256_hex`. -/
  sha256Hex : List UInt8 → String
  /-- What the zlib decoder makes of the data of a PNG. -/
  inflate : List UInt8 → Inflated

/-- `validate_staging_root`, as the host answers at some moment. -/
abbrev StagingCheck := String → ProviderResult Unit

/-- An `invalid_request` failure. -/
def invalidRequest (message : String) : ProviderFailure :=
  failure "invalid_request" message false

/-- A `resource_limit` failure. -/
def resourceLimit (message : String) : ProviderFailure :=
  failure "resource_limit" message false

/-- Does a text hold a NUL? -/
def holdsNul (text : String) : Bool := text.toList.contains (.ofNat 0)

/-- `validate_bounded_text`. -/
def validateBoundedText (value label : String) (maximum : Nat) : ProviderResult Unit :=
  refuse (value.isEmpty || value.utf8ByteSize > maximum || holdsNul value)
    (invalidRequest (label ++ " must be a bounded non-empty UTF-8 value"))

/-- `validate_text`. -/
def validateText (value label : String) : ProviderResult Unit :=
  validateBoundedText value label maxMessageBytes

/-! ## Validating the messages -/

/-- `validate_tool_call`. -/
def validateToolCall (call : ProviderToolCall) : ProviderResult Unit := do
  validateBoundedText call.id "tool call id" NativeSchema.maxToolCallIdBytes
  validateBoundedText call.name "tool call name" maxToolNameBytes
  refuse (match call.arguments with | .object _ => false | _ => true)
    (invalidRequest "tool call arguments must be a JSON object")
  refuse (call.arguments.encodedBytes > maxToolArgumentBytes)
    (resourceLimit "tool call arguments exceed the bounded byte limit")

/-- `validate_message`. -/
def validateMessage (message : ProviderMessage) : ProviderResult Unit := do
  refuse (message.content.utf8ByteSize > maxMessageBytes)
    (resourceLimit "message content exceeds the bounded byte limit")
  if message.role = .assistant then
    refuse (message.content.isEmpty && message.toolCalls.isEmpty)
      (invalidRequest "assistant messages require content or at least one tool call")
  else
    refuse message.content.isEmpty
      (invalidRequest "non-assistant messages require non-empty content")
  if message.role = .tool then
    refuse (message.toolCallId.all String.isEmpty || message.toolName.all String.isEmpty)
      (invalidRequest "tool messages require non-empty toolCallId and toolName")
    refuse (!message.toolCalls.isEmpty)
      (invalidRequest "tool messages cannot contain tool calls")
  else
    refuse (message.toolCallId.isSome || message.toolName.isSome)
      (invalidRequest "only tool messages may contain toolCallId and toolName")
    refuse (message.role ≠ .assistant && !message.toolCalls.isEmpty)
      (invalidRequest "only assistant messages may contain tool calls")
  refuse (message.toolCalls.length > NativeSchema.maxToolCalls)
    (resourceLimit "message tool calls exceed the bounded provider limit")
  message.toolCalls.forM validateToolCall

/-! ## Validating the observations -/

/-- A part that is an image. -/
def ProviderContentPart.image? : ProviderContentPart → Option ProviderImageObservation
  | .text _ => none
  | .imageObservation image => some image

/-- The image parts of a conversation, one after the other. -/
def imagePartsOf (messages : List ProviderMessage) : List ProviderImageObservation :=
  (messages.flatMap (·.contentParts)).filterMap ProviderContentPart.image?

/-- The image part an observation resolves. -/
def resolve (messages : List ProviderMessage) (observation : ProviderObservation) :
    ProviderResult ProviderImageObservation := do
  let message ← orFault messages[observation.messageIndex]?
    (invalidRequest "image observation message index is invalid")
  let part ← orFault message.contentParts[observation.partIndex]?
    (invalidRequest "image observation part index is invalid")
  orFault part.image?
    (invalidRequest "resolved observation does not reference an image content part")

/-- The components of a path. -/
def pathComponents (path : String) : List (List Char) := path.toList.splitOnP (· = '/')

/-- `validate_artifact_location`. -/
def validateArtifactLocation (artifact : ProviderArtifactRef) : ProviderResult Unit := do
  refuse (artifact.id.isEmpty || artifact.id.utf8ByteSize > 512
      || artifact.id.toList.any (fun c => c.toNat < 0x20 || c.toNat = 0x7f)
      || artifact.relativePath.isEmpty || artifact.relativePath.utf8ByteSize > 4096
      || holdsNul artifact.relativePath)
    (invalidRequest "image artifact location metadata is invalid")
  refuse (artifact.relativePath.toList.head? = some '/'
      || (pathComponents artifact.relativePath).contains ['.', '.'])
    (invalidRequest "image artifact relativePath must stay within its artifact root")

/-- `is_lower_hex_digest`. -/
def isLowerHexDigest (value : String) : Bool :=
  value.utf8ByteSize = 64
    && value.toList.all (fun c => c.isDigit || ('a' ≤ c && c ≤ 'f'))

/-- Where an observation belongs: a message and one of its parts. -/
def ProviderObservation.place (observation : ProviderObservation) : Nat × Nat :=
  (observation.messageIndex, observation.partIndex)

section Validation

variable (codecs : Codecs)

/-- The decoded bytes of an observation. -/
def decodeObservation (observation : ProviderObservation) : ProviderResult (List UInt8) :=
  match codecs.decodeBase64 observation.base64 with
  | .ok bytes => .ok bytes
  | .error error =>
      .error (invalidRequest ("image observation base64 is invalid: " ++ error))

/-- The size of a PNG. -/
def pngDimensions (bytes : List UInt8) : ProviderResult (Nat × Nat) :=
  match validatePngDimensions codecs.inflate bytes with
  | .ok size => .ok size
  | .error error =>
      .error (invalidRequest ("image observation PNG validation failed: " ++ error.display))

/-- The bytes counted and the places seen so far. -/
structure Observed where
  aggregateBytes : Nat
  identities : List (Nat × Nat)

/-- One pass of the loop of `validate_observations`. With the aggregate bounded, its sum
cannot overflow. -/
def validateObservation (messages : List ProviderMessage) (observed : Observed)
    (observation : ProviderObservation) : ProviderResult Observed := do
  let image ← resolve messages observation
  refuse (observation.place ∈ observed.identities)
    (invalidRequest "duplicate image observation location")
  validateArtifactLocation image.artifact
  refuse (image.artifact.mediaType ≠ "image/png"
      || observation.mediaType ≠ image.artifact.mediaType || observation.role ≠ image.role)
    (invalidRequest "image observation metadata does not match its content part")
  refuse (image.artifact.byteLength = 0 || image.artifact.byteLength > maxImageBytes
      || observation.base64.utf8ByteSize > maxImageBase64Bytes)
    (resourceLimit "image observation exceeds the bounded byte limit")
  let bytes ← decodeObservation codecs observation
  refuse (bytes.isEmpty || bytes.length ≠ image.artifact.byteLength
      || bytes.length > maxImageBytes)
    (invalidRequest "image observation decoded length does not match its artifact")
  refuse (observation.sha256 ≠ image.artifact.sha256 || !isLowerHexDigest observation.sha256
      || codecs.sha256Hex bytes ≠ observation.sha256)
    (invalidRequest "image observation bytes do not match their SHA-256 identity")
  let size ← pngDimensions codecs bytes
  refuse (observation.width ≠ size.1 || observation.height ≠ size.2)
    (invalidRequest "image observation dimensions do not match the PNG payload")
  refuse (observed.aggregateBytes + bytes.length > 32 * 1024 * 1024)
    (resourceLimit "image observations exceed the 32 MiB aggregate byte bound")
  pure {
    aggregateBytes := observed.aggregateBytes + bytes.length
    identities := observation.place :: observed.identities }

/-- `validate_observations`. -/
def validateObservations (request : ProviderRequest) : ProviderResult Unit := do
  refuse (request.observations.length > 16)
    (resourceLimit "model turn contains too many image observations")
  refuse ((imagePartsOf request.messages).length ≠ request.observations.length)
    (invalidRequest "every image content part must have exactly one resolved observation")
  let _ ← request.observations.foldlM (validateObservation codecs request.messages)
    { aggregateBytes := 0, identities := [] }
  pure ()

/-! ## Validating the request -/

/-- One pass of the loop over the tools; `names` are those seen. -/
def validateTool (names : List String) (tool : ProviderTool) : ProviderResult (List String) := do
  validateBoundedText tool.name "tool name" maxToolNameBytes
  validateText tool.description "tool description"
  refuse (!tool.strict) (invalidRequest "tools must use strict object schemas")
  refuse ((tool.inputSchema.get "type").bind Json.asStr ≠ some "object"
      || (tool.inputSchema.get "nullable").bind Json.asBool = some true)
    (invalidRequest "tool inputSchema root must explicitly declare type=object")
  refuse (tool.name ∈ names) (invalidRequest "tool names must be unique")
  pure (tool.name :: names)

/-- What the operation allows to be there. -/
def validateOperation (request : ProviderRequest) : ProviderResult Unit :=
  match request.operation with
  | .imageGenerate => do
    let prompt ← orFault request.prompt (invalidRequest "image_generate requires prompt")
    validateText prompt "prompt"
    refuse (!request.messages.isEmpty || !request.observations.isEmpty
        || !request.tools.isEmpty || request.stagingRoot.isSome)
      (invalidRequest
        "image_generate does not accept model messages, observations, or tools")
  | .modelTurn => do
    refuse request.prompt.isSome
      (invalidRequest "model_turn does not accept prompt; provide messages")
    refuse request.imageOptions.isSome
      (invalidRequest "imageOptions is only valid for image_generate")
    refuse request.messages.isEmpty
      (invalidRequest "model_turn requires at least one message")

/-- The staging root is there exactly if there is something to stage. -/
def validateStaging (check : StagingCheck) (request : ProviderRequest) :
    ProviderResult Unit :=
  if request.observations.isEmpty then
    refuse request.stagingRoot.isSome
      (invalidRequest "stagingRoot is only valid when model_turn carries observations")
  else do
    let root ← orFault request.stagingRoot
      (invalidRequest "model_turn observations require the UpAgent-owned stagingRoot")
    check root

/-- The bound of `maximumResponseBytes`. -/
def maximumResponseCap : ProviderOperation → Nat
  | .modelTurn => NativeSchema.maxTextBytes
  | .imageGenerate => maxImageBytes

/-- `validate_request`. -/
def validateRequest (check : StagingCheck) (request : ProviderRequest) :
    ProviderResult ProviderRequest := do
  refuse (request.schemaVersion ≠ protocolVersion || trimIsEmpty request.requestId
      || holdsNul request.requestId)
    (invalidRequest "schemaVersion must be 2 and requestId must be non-empty")
  refuse (request.requestId.utf8ByteSize > 128) (invalidRequest "requestId is too long")
  refuse (request.timeoutMs = 0 || request.timeoutMs > maxProviderTimeoutMs)
    (invalidRequest "timeoutMs is outside the bounded provider range")
  refuse (request.maximumResponseBytes = 0
      || request.maximumResponseBytes > maximumResponseCap request.operation)
    (invalidRequest "maximumResponseBytes is outside the bounded provider range")
  refuse (request.messages.length > maxMessages || request.tools.length > maxTools)
    (resourceLimit "messages or tools exceed the bounded provider limit")
  validateOperation request
  validateStaging check request
  request.messages.forM validateMessage
  validateObservations codecs request
  let _ ← request.tools.foldlM validateTool []
  match request.operation with
  | .imageGenerate => pure request
  | .modelTurn => do
    let outputSchema ← NativeSchema.modelOutputSchema (request.tools.map (·.toProviderTool))
    refuse (outputSchema.encodedBytes > minFrameBytes)
      (resourceLimit "model output schema exceeds the 64 KiB native bound")
    pure request

end Validation

/-! ## Staging -/

/-- `ValidatedObservation`. -/
structure ValidatedObservation where
  messageIndex : Nat
  partIndex : Nat
  detail : ProviderImageDetail
  bytes : List UInt8

/-- The order of `sort_by_key`: by message, then by part. -/
def placeLe (a b : Nat × Nat) : Prop := a.1 < b.1 ∨ (a.1 = b.1 ∧ a.2 ≤ b.2)

instance : DecidableRel placeLe :=
  fun a b => inferInstanceAs (Decidable (a.1 < b.1 ∨ (a.1 = b.1 ∧ a.2 ≤ b.2)))

def ValidatedObservation.place (observation : ValidatedObservation) : Nat × Nat :=
  (observation.messageIndex, observation.partIndex)

/-- One pass of the loop of `validated_observations`. -/
def validatedObservation (codecs : Codecs) (messages : List ProviderMessage)
    (observation : ProviderObservation) : ProviderResult ValidatedObservation := do
  let image ← resolve messages observation
  let bytes ← decodeObservation codecs observation
  pure {
    messageIndex := observation.messageIndex
    partIndex := observation.partIndex
    detail := image.detail
    bytes }

/-- `validated_observations`. -/
def validatedObservations (codecs : Codecs) (request : ProviderRequest) :
    ProviderResult (List ValidatedObservation) := do
  validateObservations codecs request
  let observations ← request.observations.mapM (validatedObservation codecs request.messages)
  pure (observations.insertionSort (fun a b => placeLe a.place b.place))

/-- What the host answers while a turn is prepared. -/
structure Host where
  /-- `validate_staging_root`. -/
  check : StagingCheck
  /-- Why the file of an observation cannot be created, secured, written or flushed: the
  verb and the error. -/
  write : Nat → Option (String × String)
  /-- The error of a file that is there already. -/
  alreadyExists : String
  /-- The removal of the staging directory. -/
  cleanup : ProviderResult Unit
  /-- What is left of the deadline. -/
  remaining : Nat
  /-- `Codex::session`. -/
  session : Result Unit

/-- `finish_with_staging_cleanup`. -/
def finishWithStagingCleanup {α : Type} (host : Host) (result : ProviderResult α) :
    ProviderResult α :=
  match result, host.cleanup with
  | .ok value, .ok _ => .ok value
  | .error error, .ok _ => .error error
  | .ok _, .error cleanupError => .error cleanupError
  | .error error, .error cleanupError =>
      .error (failure error.code
        (error.message ++ "; observation staging cleanup also failed: " ++ cleanupError.message)
        false)

/-- `StagedObservation`. -/
structure StagedObservation where
  messageIndex : Nat
  partIndex : Nat
  detail : ProviderImageDetail
  path : String

def StagedObservation.place (observation : StagedObservation) : Nat × Nat :=
  (observation.messageIndex, observation.partIndex)

/-- `ObservationStaging`, with what the staged files hold. -/
structure ObservationStaging where
  entries : List StagedObservation
  files : List (String × List UInt8)

/-- `Path::join`. -/
def joinPath (root name : String) : String :=
  if root.toList.getLast? = some '/' then root ++ name else root ++ "/" ++ name

/-- The file of an observation. -/
def stagedPath (root : String) (index : Nat) : String :=
  joinPath root ("observation-" ++ toString index ++ ".png")

/-- A file that cannot be staged. -/
def stagingFailure (verb error : String) : ProviderFailure :=
  failure "provider_failed"
    ("could not " ++ verb ++ " private image staging file: " ++ error) false

/-- The loop of `ObservationStaging::create`, from an index on. A file is created anew. -/
def stageFrom (host : Host) (root : String) :
    Nat → ObservationStaging → List ValidatedObservation → ProviderResult ObservationStaging
  | _, staging, [] => .ok staging
  | index, staging, observation :: observations => do
    let path := stagedPath root index
    refuse (staging.files.lookup path).isSome (stagingFailure "create" host.alreadyExists)
    match host.write index with
    | some (verb, error) => .error (stagingFailure verb error)
    | none =>
      stageFrom host root (index + 1)
        { entries := staging.entries ++ [{
            messageIndex := observation.messageIndex
            partIndex := observation.partIndex
            detail := observation.detail
            path }]
          files := staging.files ++ [(path, observation.bytes)] }
        observations

/-- `ObservationStaging::create`. -/
def ObservationStaging.create (host : Host) (observations : List ValidatedObservation)
    (requestedRoot : Option String) : ProviderResult ObservationStaging :=
  if observations.isEmpty then do
    refuse requestedRoot.isSome
      (invalidRequest "stagingRoot is only valid when observations are present")
    pure { entries := [], files := [] }
  else do
    let root ← orFault requestedRoot
      (invalidRequest "observations require the UpAgent-owned stagingRoot")
    host.check root
    match stageFrom host root 0 { entries := [], files := [] } observations with
    | .ok staging => .ok staging
    | .error error => finishWithStagingCleanup host (.error error)

/-! ## Rendering -/

def ProviderMessageRole.name : ProviderMessageRole → String
  | system => "system"
  | developer => "developer"
  | user => "user"
  | assistant => "assistant"
  | tool => "tool"

def ProviderImageRole.name : ProviderImageRole → String
  | full => "full"
  | crop => "crop"
  | mask => "mask"
  | alphaCheckerboard => "alpha_checkerboard"
  | diff => "diff"

def ProviderImageDetail.name : ProviderImageDetail → String
  | low => "low"
  | auto => "auto"
  | high => "high"

/-- A text that may be missing. -/
def optionalText : Option String → Json
  | some text => .string text
  | none => .null

/-- `serde_json::to_value` of an artifact. -/
def ProviderArtifactRef.toValue (artifact : ProviderArtifactRef) : Json :=
  .object [("byteLength", .number (toString artifact.byteLength)), ("id", .string artifact.id),
    ("mediaType", .string artifact.mediaType), ("relativePath", .string artifact.relativePath),
    ("sha256", .string artifact.sha256)]

/-- `serde_json::to_value` of an image part. A caption that is missing is left out. -/
def ProviderImageObservation.toValue (image : ProviderImageObservation) : Json :=
  .object ([("artifact", image.artifact.toValue)]
    ++ (image.caption.map (fun caption => ("caption", Json.string caption))).toList
    ++ [("detail", .string image.detail.name), ("role", .string image.role.name)])

/-- `serde_json::to_value` of a content part. -/
def ProviderContentPart.toValue : ProviderContentPart → Json
  | .text value => .object [("text", .string value), ("type", .string "text")]
  | .imageObservation image =>
      .object [("image", image.toValue), ("type", .string "image_observation")]

/-- `serde_json::to_value` of a tool call. -/
def ProviderToolCall.toValue (call : ProviderToolCall) : Json :=
  .object [("arguments", call.arguments), ("id", .string call.id), ("name", .string call.name)]

/-- `serde_json::to_value` of a message. -/
def ProviderMessage.toValue (message : ProviderMessage) : List (String × Json) :=
  [("content", .string message.content),
    ("contentParts", .array (message.contentParts.map ProviderContentPart.toValue)),
    ("isError", .bool message.isError),
    ("role", .string message.role.name),
    ("toolCallId", optionalText message.toolCallId),
    ("toolCalls", .array (message.toolCalls.map ProviderToolCall.toValue)),
    ("toolName", optionalText message.toolName)]

/-- `serde_json::to_value` of a tool. -/
def ProviderTool.toValue (tool : ProviderTool) : Json :=
  .object [("description", .string tool.description), ("inputSchema", tool.inputSchema),
    ("name", .string tool.name), ("strict", .bool tool.strict)]

/-- The prompt's entry for an image. -/
def imageEntry (observationIndex : Nat) (image : ProviderImageObservation) : Json :=
  .object [("caption", optionalText image.caption), ("detail", .string image.detail.name),
    ("observationIndex", .number (toString observationIndex)),
    ("role", .string image.role.name), ("type", .string "imageObservation")]

/-- The prompt's entry for a content part. -/
def renderPart (observations : List StagedObservation) (messageIndex partIndex : Nat) :
    ProviderContentPart → ProviderResult Json
  | .text text => .ok (.object [("text", .string text), ("type", .string "text")])
  | .imageObservation image => do
    let observationIndex ←
      orFault (observations.findIdx? (fun observation =>
          observation.messageIndex = messageIndex && observation.partIndex = partIndex))
        (invalidRequest "image prompt mapping is missing a staged observation")
    pure (imageEntry observationIndex image)

/-- The loop of `render_prompt_message`, from a part on. -/
def renderParts (observations : List StagedObservation) (messageIndex : Nat) :
    Nat → List ProviderContentPart → ProviderResult (List Json)
  | _, [] => .ok []
  | partIndex, part :: parts => do
    let entry ← renderPart observations messageIndex partIndex part
    let entries ← renderParts observations messageIndex (partIndex + 1) parts
    pure (entry :: entries)

/-- `render_prompt_message`. -/
def renderPromptMessage (messageIndex : Nat) (message : ProviderMessage)
    (observations : List StagedObservation) : ProviderResult Json := do
  let parts ← renderParts observations messageIndex 0 message.contentParts
  if parts.isEmpty then pure (.object message.toValue)
  else pure (.object (Lib.SortedMap.insert "contentParts" (.array parts) message.toValue))

/-- The messages whose contents become instructions. -/
def ProviderMessageRole.isInstruction : ProviderMessageRole → Bool
  | .system | .developer => true
  | .user | .assistant | .tool => false

/-- The `transcript` of `render_model_prompt`, from a message on. -/
def renderTranscript (observations : List StagedObservation) :
    Nat → List ProviderMessage → ProviderResult (List Json)
  | _, [] => .ok []
  | messageIndex, message :: messages =>
    if message.role.isInstruction then renderTranscript observations (messageIndex + 1) messages
    else do
      let value ← renderPromptMessage messageIndex message observations
      let values ← renderTranscript observations (messageIndex + 1) messages
      pure (value :: values)

/-- The contents of the messages of a role, if there are any. -/
def instructions (messages : List ProviderMessage) (role : ProviderMessageRole) :
    Option String :=
  let contents := (messages.filter (fun message => message.role = role)).map (·.content)
  if contents.isEmpty then none else some ("\n\n".intercalate contents)

/-- The text in front of the conversation. -/
def promptHeader : String :=
  "Process the provider-neutral conversation below. Reply with exactly one compact JSON "
    ++ "object matching the native output schema, with no markdown or surrounding text. When "
    ++ "tools are advertised, toolCalls is an object containing every advertised tool name as "
    ++ "a key; each value is an array of \x7bid, arguments\x7d calls, and an unused tool must "
    ++ "use an empty array. With no tools, return only the text property. Tool arguments must "
    ++ "match the advertised strict schemas.\n"

/-- `RenderedModelPrompt`. -/
structure RenderedModelPrompt where
  prompt : String
  baseInstructions : Option String
  developerInstructions : Option String
  /-- History: the value that `prompt` encodes after its header. -/
  envelope : Json

/-- `render_model_prompt`. -/
def renderModelPrompt (request : ProviderRequest)
    (observations : List StagedObservation) : ProviderResult RenderedModelPrompt := do
  let transcript ← renderTranscript observations 0 request.messages
  let envelope := Json.object [("messages", .array transcript),
    ("tools", .array (request.tools.map ProviderTool.toValue))]
  pure {
    prompt := promptHeader ++ envelope.toText
    baseInstructions := instructions request.messages .system
    developerInstructions := instructions request.messages .developer
    envelope }

/-! ## The turn -/

/-- `ImageDetail`. -/
inductive ImageDetail where
  | low
  | auto
  | high
  deriving DecidableEq

/-- `image_detail`. -/
def imageDetail : ProviderImageDetail → ImageDetail
  | .low => .low
  | .auto => .auto
  | .high => .high

/-- `TurnInput`, with the detail hint of an image. -/
inductive TurnInput where
  | text (value : String)
  | localImage (path : String) (detail : Option ImageDetail)

/-- What `run_model_turn` passes to `Session::start`, and what is staged by then. -/
structure PreparedTurn where
  rendered : RenderedModelPrompt
  inputs : List TurnInput
  files : List (String × List UInt8)

/-- `run_model_turn` up to `Session::start`. -/
def prepareTurn (codecs : Codecs) (host : Host) (request : ProviderRequest) :
    ProviderResult PreparedTurn := do
  let validated ← validatedObservations codecs request
  let staging ← ObservationStaging.create host validated request.stagingRoot
  let prepared : ProviderResult PreparedTurn := do
    let rendered ← renderModelPrompt request staging.entries
    let _ ← NativeSchema.modelOutputSchema (request.tools.map (·.toProviderTool))
    let _ ← remainingProviderTimeout host.remaining
    match host.session with
    | .error error => .error (classifyVergerailError error)
    | .ok _ =>
      pure {
        rendered
        inputs := .text rendered.prompt ::
          staging.entries.map (fun entry =>
            .localImage entry.path (some (imageDetail entry.detail)))
        files := staging.files }
  match prepared with
  | .ok turn => .ok turn
  | .error error => finishWithStagingCleanup host (.error error)

end UpagentPrompt

end Vergerail
