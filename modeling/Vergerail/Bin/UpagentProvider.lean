import Vergerail.Client.Start
import Vergerail.Image
import Vergerail.JsonText
import Vergerail.Lib.Checked

/-!
# The UpAgent provider: one request

`async_run_request` and `run_image_generation` of `src/bin/vergerail_upagent_provider.rs`,
with the failures they compose. A request has three phases that can fail on their own:
the operation, the shutdown within what is left of the deadline, and the teardown within
its own budget once nothing is left. One match picks the answer.

What the client, the clock and the timeouts answer is given. A future under a timeout
answers `none` when the timeout elapses first.
-/

namespace Vergerail

namespace UpagentProvider

/-- `PROTOCOL_VERSION`. -/
def protocolVersion : Nat := 2

/-- `MAX_IMAGE_BYTES`. -/
def maxImageBytes : Nat := 8 * 1024 * 1024

/-- `MAX_IMAGE_BASE64_BYTES`. -/
def maxImageBase64Bytes : Nat := 4 * ((maxImageBytes + 2) / 3)

/-- `MAX_FAILURE_MESSAGE_BYTES`. -/
def maxFailureMessageBytes : Nat := 4 * 1024

/-- `MAX_FAILURE_RESPONSE_BYTES`. -/
def maxFailureResponseBytes : Nat := 16 * 1024

/-- `PROVIDER_TEARDOWN_BUDGET`, in milliseconds. -/
def providerTeardownBudget : Nat := 2000

/-! ## Failures -/

/-- `truncate_utf8`, from the characters on: the longest prefix of at most `maximum` bytes. -/
def truncateChars : Nat → List Char → List Char
  | _, [] => []
  | maximum, c :: cs =>
    if c.utf8Size ≤ maximum then c :: truncateChars (maximum - c.utf8Size) cs else []

/-- `truncate_utf8`. -/
def truncateUtf8 (value : String) (maximum : Nat) : String :=
  if value.utf8ByteSize ≤ maximum then value
  else String.ofList (truncateChars maximum value.toList)

/-- The text up to and including the first occurrence of the marker, and the rest. -/
def splitAfterMarker (marker : List Char) : List Char → Option (List Char × List Char)
  | [] => none
  | c :: cs =>
    if marker.isPrefixOf ((c :: cs).map Char.toLower) then
      some ((c :: cs).take marker.length, (c :: cs).drop marker.length)
    else (splitAfterMarker marker cs).map (fun p => (c :: p.1, p.2))

/-- What ends a redacted value. -/
def endsValue (c : Char) : Bool := charIsWhitespace c || c ∈ [',', ';', '\x7d', ']', '"']

/-- The loop of `redact_all_after_marker`; a pass consumes the marker at least. -/
def redactChars (marker : List Char) : Nat → List Char → List Char
  | 0, value => value
  | passes + 1, value =>
    match splitAfterMarker marker value with
    | none => value
    | some (before, rest) =>
        before ++ rest.takeWhile charIsWhitespace ++ "<redacted>".toList ++
          redactChars marker passes
            ((rest.dropWhile charIsWhitespace).dropWhile (fun c => !endsValue c))

/-- `redact_all_after_marker`. -/
def redactAllAfterMarker (value marker : String) : String :=
  String.ofList (redactChars marker.toList value.length value.toList)

/-- `bounded_redacted_message`. -/
def boundedRedactedMessage (message : String) : String :=
  truncateUtf8
    (["bearer ", "access_token=", "authorization=", "client_secret=", "cookie=", "id_token=",
      "openai_api_key=", "password=", "refresh_token=", "secret=", "set-cookie=",
      "token="].foldl redactAllAfterMarker message)
    maxFailureMessageBytes

/-- `ProviderFailure`. -/
structure ProviderFailure where
  code : String
  message : String
  retryable : Bool
  deriving DecidableEq, Repr

/-- `ProviderResult`. -/
abbrev ProviderResult (α : Type) := Except ProviderFailure α

/-- `failure`. -/
def failure (code message : String) (retryable : Bool) : ProviderFailure where
  code
  message := boundedRedactedMessage message
  retryable

/-- `ProviderFailureBody`. -/
structure ProviderFailureBody where
  code : String
  message : String
  retryable : Bool

/-- `FailureResponse`. -/
structure FailureResponse where
  schemaVersion : Nat
  requestId : String
  ok : Bool
  error : ProviderFailureBody

/-- `FailureResponse` as it is serialized. -/
def FailureResponse.toJson (self : FailureResponse) : Json :=
  .object [("schemaVersion", .number (toString self.schemaVersion)),
    ("requestId", .string self.requestId), ("ok", .bool self.ok),
    ("error", .object [("code", .string self.error.code),
      ("message", .string self.error.message), ("retryable", .bool self.error.retryable)])]

/-- What `encode_failure_response` writes if it fits. -/
def failureResponse (error : ProviderFailure) (requestId : String) : FailureResponse where
  schemaVersion := protocolVersion
  requestId := truncateUtf8 requestId 128
  ok := false
  error := {
    code := error.code
    message := boundedRedactedMessage error.message
    retryable := error.retryable }

/-- What `encode_failure_response` writes otherwise. -/
def oversizedResponse : FailureResponse where
  schemaVersion := protocolVersion
  requestId := ""
  ok := false
  error := {
    code := "provider_failed"
    message := "provider failure response exceeded its bounded envelope"
    retryable := false }

/-- `encode_failure_response`. -/
def encodeFailureResponse (error : ProviderFailure) (requestId : String) : List UInt8 :=
  let bytes := (failureResponse error requestId).toJson.toBytes
  if bytes.length ≤ maxFailureResponseBytes then bytes else oversizedResponse.toJson.toBytes

/-- The code `classify_vergerail_error` gives an error of a kind. -/
def classify : ErrorKind → String
  | .timeout => "timeout"
  | .outcomeUnknown => "resolution_required"
  | .disconnected => "resolution_required"
  | .consumerLagged => "resolution_required"
  | .authentication => "authentication_required"
  | .cancelled => "cancelled"
  | .runtimeVerification => "runtime_verification"
  | .invalidInput => "invalid_request"
  | .process => "provider_failed"
  | .protocol => "provider_failed"
  | .rpc => "provider_failed"
  | .resourceLimit => "provider_failed"
  | .shutdown => "provider_failed"

/-- `classify_vergerail_error`, applied to an error and its text. -/
def classifyVergerailError (error : Error) : ProviderFailure :=
  failure (classify error.kind) error.display false

/-! ## The request and its answer -/

/-- The checks of `validate_request` on `schemaVersion` and `requestId`, which come first. -/
def validateRequestIdentity (schemaVersion : Nat) (requestId : String) : ProviderResult Unit := do
  Lib.refuse (schemaVersion ≠ protocolVersion || trimIsEmpty requestId
      || requestId.toList.contains (.ofNat 0))
    (failure "invalid_request" "schemaVersion must be 2 and requestId must be non-empty" false)
  Lib.refuse (requestId.utf8ByteSize > 128)
    (failure "invalid_request" "requestId is too long" false)

/-- `ProviderOperation`. -/
inductive ProviderOperation where
  | modelTurn
  | imageGenerate
  deriving DecidableEq, Repr

/-- `ImageGenerationOptions`; an option names the control it is sent as. -/
structure ImageGenerationOptions where
  background : Option ImageBackground
  size : Option ImageSize
  quality : Option ImageQuality
  deriving DecidableEq, Repr

/-- The fields of `ProviderRequest` that the code here reads. -/
structure ProviderRequest where
  requestId : String
  operation : ProviderOperation
  timeoutMs : Nat
  maximumResponseBytes : Nat
  prompt : Option String
  imageOptions : Option ImageGenerationOptions
  deriving DecidableEq, Repr

/-- `ProviderImage`. -/
structure ProviderImage where
  mediaType : String
  base64 : String
  byteLength : Nat
  width : Nat
  height : Nat
  transparentBackground : Option Bool
  deriving DecidableEq, Repr

/-- `ImageResponse`. -/
structure ImageResponse where
  schemaVersion : Nat
  requestId : String
  operation : ProviderOperation
  image : ProviderImage
  deriving DecidableEq, Repr

/-- `Response`; what a model turn answers is not looked at here. -/
inductive Response (Model : Type) where
  | model (response : Model)
  | image (response : ImageResponse)

/-- How `Codex::generate_image` ended. -/
structure ImageOutcome where
  result : Result DirectImageResponse
  /-- History: a dispatch of the endpoint was answered with HTTP 200, or its answer was
  not observed. -/
  billed : Bool

/-- What the client, the clock and the timeouts answer to one request. -/
structure Answers (Model : Type) where
  /-- `Instant::checked_add` has an answer. -/
  clock : Bool
  /-- `RuntimePackage::pinned`. -/
  runtime : Result Unit
  /-- `connect`. -/
  connect : ProviderResult Unit
  /-- What is left of the deadline when the operation starts. -/
  remainingAtOperation : Nat
  /-- `run_model_turn` within a timeout. -/
  modelTurn : Nat → Option (ProviderResult (Response Model))
  /-- `Codex::generate_image`. -/
  generateImage : DirectImageRequest → ImageOutcome
  /-- What is left of the deadline when the shutdown starts. -/
  remainingAtShutdown : Nat
  /-- `Codex::shutdown` within a timeout. -/
  shutdown : Nat → Option (Result Unit)

variable {Model : Type}

/-- `remaining_provider_timeout`. -/
def remainingProviderTimeout (remaining : Nat) : ProviderResult Nat :=
  if remaining = 0 then .error (failure "timeout" "provider deadline expired" false)
  else .ok remaining

/-- `provider_image_from_response`. -/
def providerImageFromResponse (generated : DirectImageResponse) (maximumResponseBytes : Nat) :
    ProviderResult ProviderImage :=
  if generated.base64.isEmpty || generated.base64.utf8ByteSize > maxImageBase64Bytes then
    .error (failure "resource_limit" "encoded image exceeds the bounded output frame limit" false)
  else if generated.byteLength = 0 || generated.byteLength > maxImageBytes
      || generated.byteLength > maximumResponseBytes then
    .error (failure "resource_limit" "decoded image exceeds the bounded output limit" false)
  else
    .ok {
      mediaType := generated.mediaType
      base64 := generated.base64
      byteLength := generated.byteLength
      width := generated.width
      height := generated.height
      transparentBackground := generated.transparentBackground }

/-- The request `run_image_generation` sends. -/
def directImageRequest (request : ProviderRequest) (prompt : String) : DirectImageRequest where
  prompt
  background := (request.imageOptions.bind (·.background)).getD .auto
  size := (request.imageOptions.bind (·.size)).getD .auto
  quality := (request.imageOptions.bind (·.quality)).getD .auto

/-- `run_image_generation`. -/
def runImageGeneration (answers : Answers Model) (request : ProviderRequest) :
    ProviderResult (Response Model) :=
  match request.prompt with
  | none => .error (failure "invalid_request" "image_generate requires prompt" false)
  | some prompt =>
    match (answers.generateImage (directImageRequest request prompt)).result with
    | .error error => .error (classifyVergerailError error)
    | .ok generated =>
      match providerImageFromResponse generated request.maximumResponseBytes with
      | .error error => .error error
      | .ok image =>
          .ok (.image {
            schemaVersion := protocolVersion
            requestId := request.requestId
            operation := .imageGenerate
            image })

/-- The operation phase of `async_run_request`. -/
def runOperation (answers : Answers Model) (request : ProviderRequest) :
    ProviderResult (Response Model) :=
  match remainingProviderTimeout answers.remainingAtOperation with
  | .error error => .error error
  | .ok operationTimeout =>
    match request.operation with
    | .modelTurn =>
      match answers.modelTurn operationTimeout with
      | some result => result
      | none => .error (failure "timeout" "provider operation exceeded timeoutMs" false)
    | .imageGenerate => runImageGeneration answers request

/-- The shutdown phase of `async_run_request`. -/
def runShutdown (answers : Answers Model) : ProviderResult Unit :=
  match remainingProviderTimeout answers.remainingAtShutdown with
  | .ok shutdownTimeout =>
    match answers.shutdown shutdownTimeout with
    | some (.ok _) => .ok ()
    | some (.error error) => .error (classifyVergerailError error)
    | none => .error (failure "timeout" "provider shutdown exceeded timeoutMs" false)
  | .error error =>
    match answers.shutdown providerTeardownBudget with
    | some (.ok _) => .error error
    | some (.error shutdownError) =>
        .error (failure "timeout"
          ("provider deadline expired; bounded teardown failed: "
            ++ (classifyVergerailError shutdownError).message) false)
    | none =>
        .error (failure "timeout"
          ("provider deadline expired; bounded teardown exceeded "
            ++ toString providerTeardownBudget ++ " ms") false)

/-- The answer `async_run_request` picks for the two phases. -/
def combine (operation : ProviderResult (Response Model)) (shutdown : ProviderResult Unit) :
    ProviderResult (Response Model) :=
  match operation, shutdown with
  | .ok response, .ok _ => .ok response
  | .error error, .ok _ => .error error
  | .ok _, .error error => .error error
  | .error operationError, .error shutdownError =>
      .error (failure operationError.code
        (operationError.message ++ "; client shutdown also failed: " ++ shutdownError.message)
        false)

/-- `async_run_request`. -/
def asyncRunRequest (answers : Answers Model) (request : ProviderRequest) :
    ProviderResult (Response Model) :=
  if !answers.clock then
    .error (failure "invalid_request" "timeoutMs overflowed the monotonic clock" false)
  else
    match answers.runtime with
    | .error error =>
        .error (failure "runtime_verification"
          ("configured runtime verification failed: " ++ error.display) false)
    | .ok _ =>
      match answers.connect with
      | .error error => .error error
      | .ok _ => combine (runOperation answers request) (runShutdown answers)

end UpagentProvider

end Vergerail
