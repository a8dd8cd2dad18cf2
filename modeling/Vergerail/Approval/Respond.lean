import Vergerail.Approval.Protocol
import Vergerail.Lib.Channel
import Vergerail.Lib.Fairness
import Vergerail.Private.Process

/-!
# One reverse request

`handle_server_request` of `src/client/router.rs`, the approval objects of
`src/approval.rs`, and `ApprovalResponder` with its task in `src/approval/respond.rs`,
for one request of the app-server.

The approval object is owned by one place at a time: an event queue, a batch of the
replay loop, the caller. Wherever it is, it can be dropped there, and its responder then
sends the fallback command. The task awaits a command or the end of the approval timeout;
when both are there, the select takes either.
-/

namespace Vergerail

open Lib

namespace Json

/-- `serde_json::Map::insert`: the members are kept in the order of their keys. -/
def insertMember (key : String) (value : Json) : List (String × Json) → List (String × Json)
  | [] => [(key, value)]
  | (key', value') :: members =>
    if key = key' then (key, value) :: members
    else if key < key' then (key, value) :: (key', value') :: members
    else (key', value') :: insertMember key value members

end Json

namespace Approval

/-- `CommandDecision`. -/
inductive CommandDecision where
  | accept
  | acceptForSession
  | decline
  | cancel
  deriving DecidableEq

/-- `FileChangeDecision`. -/
inductive FileChangeDecision where
  | accept
  | acceptForSession
  | decline
  | cancel
  deriving DecidableEq

/-- The result a decision is sent as. -/
def decisionResult (decision : String) : Json := .object [("decision", .string decision)]

/-- `CommandApproval::respond`, up to its responder. -/
def CommandDecision.result : CommandDecision → Json
  | accept => decisionResult "accept"
  | acceptForSession => decisionResult "acceptForSession"
  | decline => decisionResult "decline"
  | cancel => decisionResult "cancel"

/-- `FileChangeApproval::respond`, up to its responder. -/
def FileChangeDecision.result : FileChangeDecision → Json
  | accept => decisionResult "accept"
  | acceptForSession => decisionResult "acceptForSession"
  | decline => decisionResult "decline"
  | cancel => decisionResult "cancel"

/-- No permission, for this turn only. -/
def noPermissions : Json := .object [("permissions", .object []), ("scope", .string "turn")]

/-- The answers to one question. -/
def answerResult (answers : List String) : Json :=
  .object [("answers", .array (answers.map .string))]

/-- The answers to all questions. -/
def answersResult (answers : List (String × Json)) : Json :=
  .object [("answers", .object answers)]

/-- `UserInputAnswer`. -/
structure UserInputAnswer where
  questionId : String
  answers : List String

/-- An answer that `UserInputRequest::answer` refuses. -/
def answerError (message : String) : Error :=
  Error.new .invalidInput "user_input.answer" message

/-- The loop of `UserInputRequest::answer`. -/
def collectAnswers (allowed : List String) :
    List UserInputAnswer → List String → List (String × Json) → Result (List (String × Json))
  | [], _, output => .ok output
  | answer :: answers, observed, output =>
    if answer.questionId.isEmpty then .error (answerError "question id must be non-empty")
    else if answer.questionId ∉ allowed then
      .error (answerError ("unknown question id '" ++ answer.questionId ++ "'"))
    else if answer.questionId ∈ observed then
      .error (answerError ("duplicate answer for question '" ++ answer.questionId ++ "'"))
    else
      collectAnswers allowed answers (answer.questionId :: observed)
        (Json.insertMember answer.questionId (answerResult answer.answers) output)

/-- `UserInputRequest::answer`, up to its responder. -/
def UserInputRequest.answer (self : UserInputRequest) (answers : List UserInputAnswer) :
    Result Json :=
  match collectAnswers (self.questions.map (·.id)) answers [] [] with
  | .ok output => .ok (answersResult output)
  | .error error => .error error

/-- The approval objects: `ApprovalEvent`. -/
inductive Decoded where
  | command (approval : CommandApproval)
  | fileChange (approval : FileChangeApproval)
  | permissions (approval : PermissionApproval)
  | userInput (request : UserInputRequest)

namespace Decoded

/-- The fallback its responder is created with. -/
def fallback : Decoded → Json
  | command _ => decisionResult "decline"
  | fileChange _ => decisionResult "decline"
  | permissions _ => noPermissions
  | userInput _ => answersResult []

end Decoded

/-- What a caller can do with an approval object. -/
inductive Decision where
  | command (decision : CommandDecision)
  | fileChange (decision : FileChangeDecision)
  | denyPermissions
  | answer (answers : List UserInputAnswer)
  /-- `ApprovalEvent::deny`. -/
  | deny

/-- The result a decision hands to the responder; `none` for a decision the object has
no method for. -/
def Decoded.resolve : Decoded → Decision → Option (Result Json)
  | .command _, .command decision => some (.ok decision.result)
  | .command _, .deny => some (.ok CommandDecision.decline.result)
  | .fileChange _, .fileChange decision => some (.ok decision.result)
  | .fileChange _, .deny => some (.ok FileChangeDecision.decline.result)
  | .permissions _, .denyPermissions => some (.ok noPermissions)
  | .permissions _, .deny => some (.ok noPermissions)
  | .userInput request, .answer answers => some (request.answer answers)
  | .userInput request, .deny => some (request.answer [])
  | _, _ => none

/-- The decoding part of `handle_server_request`; `none` for a method that is not
supported. -/
def decode (method : String) (params : Json) : Option (Result Decoded) :=
  match method with
  | "item/commandExecution/requestApproval" => some ((commandApproval params).map .command)
  | "item/fileChange/requestApproval" => some ((fileApproval params).map .fileChange)
  | "item/permissions/requestApproval" => some ((permissionApproval params).map .permissions)
  | "item/tool/requestUserInput" => some ((userInputRequest params).map .userInput)
  | _ => none

/-- `ResponseCommand`; the acknowledgement of an explicit one is in the world. -/
inductive ResponseCommand where
  | explicit (result : Json)
  | fallback

/-- Where `handle_server_request` is. -/
inductive Handler where
  | received
  /-- It sends a failure itself; the diagnostic follows. -/
  | replying (frame : Json) (operation : String) (diagnostic : String × String) (call : SendCall)
  /-- It could not deliver the failure. -/
  | disconnecting (error : Error)
  | done

/-- Where `approval_response_task` is. -/
inductive ResponseTask where
  | absent
  | selecting
  /-- It sends `result`, which is the explicit decision or the fallback. -/
  | sending (result : Json) (explicit : Bool) (call : SendCall)
  /-- The delivery failed; it awaits the end of the process. -/
  | killing (delivery : Error) (explicit : Bool)
  | done

/-- Where the caller that resolves the approval is. -/
inductive Caller where
  | idle
  /-- `respond` handed over this result and awaits the acknowledgement. -/
  | waiting (result : Json)
  | returned (result : Result Unit)
  /-- Its future was dropped. -/
  | dropped

/-- One request, and everybody it meets. -/
structure ApprovalWorld where
  writer : Writer
  handler : Handler
  /-- The approval object, once it is built. -/
  decoded : Option Decoded
  /-- Somebody holds the approval object. -/
  held : Bool
  commands : Oneshot ResponseCommand
  task : ResponseTask
  acknowledgement : Oneshot (Result Unit)
  caller : Caller
  diagnostics : List (String × String)
  /-- History: the frames passed to `ProcessHandle::send`. -/
  submitted : List Json
  /-- History: the result the caller handed to the responder. -/
  decided : Option Json
  /-- History: the explicit result that the select took. -/
  won : Option Json

/-- The request, and the connection it arrives on. -/
structure ApprovalEnv where
  id : RpcId
  method : String
  params : Json
  shutdownStarted : Bool
  maxFrameBytes : Nat
  sendTimeout : Nat

/-- The atomic steps. -/
inductive ApprovalLabel where
  /-- `handle_server_request` goes on. -/
  | handle (event : SendEvent)
  /-- The holder resolves the approval. -/
  | decide (decision : Decision)
  /-- The holder drops the approval object. -/
  | dropObject
  /-- The future that awaits the acknowledgement is dropped. -/
  | dropCaller
  /-- The select takes the command. -/
  | takeCommand
  /-- The select takes the end of the timeout. -/
  | timeOut
  /-- The task goes on with its delivery. -/
  | deliver (event : SendEvent)
  /-- The caller looks at the acknowledgement. -/
  | wake
  /-- Somebody else shuts down or disconnects. -/
  | shutdown

namespace ApprovalWorld

def init (env : ApprovalEnv) : ApprovalWorld where
  writer := ⟨env.shutdownStarted, env.maxFrameBytes, env.sendTimeout, []⟩
  handler := .received
  decoded := none
  held := false
  commands := .empty
  task := .absent
  acknowledgement := .empty
  caller := .idle
  diagnostics := []
  submitted := []
  decided := none
  won := none

/-- `ApprovalResponder::drop`. -/
def dropResponder (w : ApprovalWorld) : ApprovalWorld :=
  { w with held := false, commands := (w.commands.send .fallback).2 }

/-- The handler starts to send a failure. -/
def reply (w : ApprovalWorld) (frame : Json) (operation : String) (diagnostic : String × String) :
    ApprovalWorld :=
  { w with
    handler := .replying frame operation diagnostic .entering
    submitted := w.submitted ++ [frame] }

/-- The handler builds the approval object and its task, and routes the object. -/
def build (env : ApprovalEnv) (w : ApprovalWorld) (decoded : Decoded) : ApprovalWorld :=
  let built := { w with
    handler := .done, decoded := some decoded, held := true, task := .selecting }
  match (env.params.get "threadId").bind Json.asStr with
  | some _ => built
  | none => built.dropResponder

/-- The error `send_reverse_response` disconnects with. -/
def reverseError (operation : String) (error : Error) : Error :=
  Error.new (if error.kind = .outcomeUnknown then .outcomeUnknown else .disconnected) operation
    ("failed to deliver a mandatory reverse-RPC response: " ++ error.display)

/-- `handle_server_request`, from one await to the next. -/
def handle (env : ApprovalEnv) (w : ApprovalWorld) (event : SendEvent) : ApprovalWorld :=
  match w.handler with
  | .received =>
    match decode env.method env.params with
    | none =>
        w.reply (wireFailure env.id (-32601) "Vergerail does not enable this app-server capability")
          "rpc.unsupportedServerRequest"
          ("rpc/unsupportedServerRequest", "rejected reverse request '" ++ env.method ++ "'")
    | some (.error error) =>
        w.reply (wireFailure env.id (-32602) error.message) "rpc.invalidServerRequest"
          ("rpc/invalidServerRequest", error.display)
    | some (.ok decoded) => w.build env decoded
  | .replying frame operation diagnostic call =>
    match w.writer.sendStep frame call event with
    | (writer, .pending call) =>
        { w with writer, handler := .replying frame operation diagnostic call }
    | (writer, .finished (.ok _)) =>
        { w with writer, handler := .done, diagnostics := w.diagnostics ++ [diagnostic] }
    | (writer, .finished (.error error)) =>
        { w with writer, handler := .disconnecting (reverseError operation error) }
  | .disconnecting _ => { w with writer := w.writer.startShutdown, handler := .done }
  | .done => w

/-- `ApprovalResponder::respond`, up to its await. -/
def respond (w : ApprovalWorld) (result : Json) : ApprovalWorld :=
  match w.commands.send (.explicit result) with
  | (true, commands) =>
      { w with held := false, commands, caller := .waiting result, decided := some result }
  | (false, commands) =>
      { w with
        held := false, commands, decided := some result
        caller := .returned (.error (Error.new .disconnected "approval.respond"
          "approval response task ended before accepting the decision")) }

/-- The holder resolves the approval; an answer that is refused drops the object. -/
def decide (w : ApprovalWorld) (decision : Decision) : ApprovalWorld :=
  if w.held then
    match w.decoded.bind (·.resolve decision) with
    | none => w
    | some (.ok result) => w.respond result
    | some (.error error) => { w.dropResponder with caller := .returned (.error error) }
  else w

/-- The future of `respond` is dropped, and with it the receiver of the acknowledgement. -/
def dropCaller (w : ApprovalWorld) : ApprovalWorld :=
  match w.caller with
  | .waiting _ => { w with caller := .dropped, acknowledgement := .receiverDropped }
  | _ => w

/-- The task starts to send. -/
def startSending (env : ApprovalEnv) (w : ApprovalWorld) (result : Json) (explicit : Bool) :
    ApprovalWorld :=
  { w with
    task := .sending result explicit .entering
    submitted := w.submitted ++ [wireSuccess env.id result] }

/-- The fallback of the approval object. -/
def fallback (w : ApprovalWorld) : Json :=
  match w.decoded with
  | some decoded => decoded.fallback
  | none => .null

/-- The command branch of the select. -/
def takeCommand (env : ApprovalEnv) (w : ApprovalWorld) : ApprovalWorld :=
  match w.task, w.commands with
  | .selecting, .full (.explicit result) =>
      { w with commands := .taken, won := some result }.startSending env result true
  | .selecting, .full .fallback => { w with commands := .taken }.startSending env w.fallback false
  | .selecting, .senderDropped => w.startSending env w.fallback false
  | _, _ => w

/-- The receiver of the commands is dropped. An explicit command that waits there goes
with it, and so does the sender of its acknowledgement. -/
def dropReceiver (w : ApprovalWorld) : ApprovalWorld :=
  match w.commands with
  | .full (.explicit _) =>
      { w with
        commands := .receiverDropped
        acknowledgement := match w.acknowledgement with
          | .empty => .senderDropped
          | other => other }
  | _ => { w with commands := .receiverDropped }

/-- The timeout branch of the select. -/
def timeOut (env : ApprovalEnv) (w : ApprovalWorld) : ApprovalWorld :=
  match w.task with
  | .selecting => w.dropReceiver.startSending env w.fallback false
  | _ => w

/-- The task reports an explicit delivery. -/
def acknowledge (w : ApprovalWorld) (explicit : Bool) (delivery : Result Unit) : ApprovalWorld :=
  if explicit then
    { w with task := .done, acknowledgement := (w.acknowledgement.send delivery).2 }
  else { w with task := .done }

/-- `approval_response_task` after its select, from one await to the next. -/
def deliver (env : ApprovalEnv) (w : ApprovalWorld) (event : SendEvent) : ApprovalWorld :=
  match w.task with
  | .sending result explicit call =>
    match w.writer.sendStep (wireSuccess env.id result) call event with
    | (writer, .pending call) => { w with writer, task := .sending result explicit call }
    | (writer, .finished (.ok _)) => { w with writer }.acknowledge explicit (.ok ())
    | (writer, .finished (.error error)) =>
        { w with writer := writer.startShutdown, task := .killing error explicit }
  | .killing error explicit => w.acknowledge explicit (.error error)
  | _ => w

/-- The caller looks at the acknowledgement. -/
def wake (w : ApprovalWorld) : ApprovalWorld :=
  match w.caller, w.acknowledgement with
  | .waiting _, .full delivery => { w with caller := .returned delivery, acknowledgement := .taken }
  | .waiting _, .senderDropped =>
      { w with caller := .returned (.error (Error.new .disconnected "approval.respond"
          "approval response task ended before reporting delivery")) }
  | _, _ => w

/-- What a label does. -/
def act (env : ApprovalEnv) (w : ApprovalWorld) : ApprovalLabel → ApprovalWorld
  | .handle event => w.handle env event
  | .decide decision => w.decide decision
  | .dropObject => if w.held then w.dropResponder else w
  | .dropCaller => w.dropCaller
  | .takeCommand => w.takeCommand env
  | .timeOut => w.timeOut env
  | .deliver event => w.deliver env event
  | .wake => w.wake
  | .shutdown => { w with writer := w.writer.startShutdown }

end ApprovalWorld

/-- The machine of one reverse request. -/
def approvalMachine (env : ApprovalEnv) : Machine ApprovalWorld ApprovalLabel where
  init := ApprovalWorld.init env
  step := ApprovalWorld.act env

end Approval

end Vergerail
