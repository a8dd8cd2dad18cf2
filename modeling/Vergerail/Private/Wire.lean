import Vergerail.Lib.Checked
import Vergerail.Private.Codec
import Vergerail.Private.Process
import Vergerail.Private.Protocol

/-!
# The wire format

`src/private/wire.rs`: the four kinds of messages, how they are built and how a frame is
read as one of them; and the encoder of `src/private/codec.rs`. `wire::success` and
`wire::failure` stand beside the replies that send them. What `serde_json::to_vec` prints is
a parameter, as what its parser answers is one of the reader.
-/

namespace Vergerail

open Lib

/-- `Incoming`. -/
inductive Incoming where
  | success (id : RpcId) (result : Json)
  | failure (id : RpcId) (code : Int) (message : String)
  | request (id : RpcId) (method : String) (params : Json)
  | notification (method : String) (params : Json)

/-! ## Building -/

/-- `wire::request`. -/
def wireRequest (id : Nat) (method : String) (params : Json) : Json :=
  .object [("id", .number (toString id)), ("method", .string method), ("params", params)]

/-- `wire::notification`: null parameters are omitted. -/
def wireNotification (method : String) (params : Json) : Json :=
  match params with
  | .null => .object [("method", .string method)]
  | params => .object [("method", .string method), ("params", params)]

/-! ## Reading -/

/-- The frame is no message. -/
def rpcFault (message : String) : Error := Error.new .protocol "rpc.parse" message

/-- `parse_id`. -/
def parseId (value : Json) : Result RpcId :=
  match value.asI64 with
  | some number => .ok (.number number)
  | none =>
    match value.asStr with
    | some text => .ok (.string text)
    | none => .error (rpcFault "request id must be an integer or string")

/-- The error of a failed response: its code and its message. -/
def parseResponseError (error : Json) : Result (Int × String) := do
  let _ ← orFault error.asObject (rpcFault "response error must be an object")
  let code ← orFault ((error.get "code").bind Json.asI64)
    (rpcFault "response error code must be an integer")
  let message ← orFault ((error.get "message").bind Json.asStr)
    (rpcFault "response error message must be a string")
  return (code, message)

/-- `parse_response`. -/
def parseResponse (id : RpcId) (object : Json) : Result Incoming :=
  match object.get "result", object.get "error" with
  | some result, none => .ok (.success id result)
  | none, some error => do
      let (code, message) ← parseResponseError error
      return .failure id code message
  | _, _ => .error (rpcFault "response must contain exactly one of result or error")

/-- The id of a frame, if it has one. -/
def parseIdField (object : Json) : Result (Option RpcId) :=
  match object.get "id" with
  | none => .ok none
  | some value => do
      let id ← parseId value
      return some id

/-- `wire::parse`. -/
def wireParse (value : Json) : Result Incoming := do
  let _ ← orFault value.asObject (rpcFault "JSON-RPC frame must be an object")
  let id ← parseIdField value
  let method := (value.get "method").bind Json.asNonEmptyStr
  refuse ((value.get "method").isSome && method.isNone)
    (rpcFault "request method must be a non-empty string")
  refuse (method.isSome && ((value.get "result").isSome || (value.get "error").isSome))
    (rpcFault "request and notification frames may not contain result or error")
  match id, method with
  | some id, some method => return .request id method ((value.get "params").getD .null)
  | none, some method => return .notification method ((value.get "params").getD .null)
  | some id, none => parseResponse id value
  | none, none => .error (rpcFault "frame is neither a response, request, nor notification")

/-! ## Encoding -/

/-- `EncodedFrame`. -/
structure EncodedFrame where
  bytes : List UInt8
  deriving DecidableEq, Repr

/-- `EncodedFrame::encode`, over what `serde_json::to_vec` answers: the limit does not count
the newline. -/
def EncodedFrame.encode (toVec : Json → Except String (List UInt8)) (value : Json)
    (maxFrameBytes : Nat) : Result EncodedFrame :=
  match toVec value with
  | .error error => .error (Error.new .protocol "jsonl.write" error)
  | .ok bytes =>
    if bytes.length > maxFrameBytes then .error (frameTooLarge "jsonl.write" maxFrameBytes)
    else .ok { bytes := bytes ++ [lf] }

end Vergerail
