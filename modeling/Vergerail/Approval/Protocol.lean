import Vergerail.Private.Protocol

/-!
# Decoding approval requests

`src/approval/protocol.rs`: what the four reverse requests of the app-server carry, and
how their parameters are refused. The responder of an approval is not a field here; it is
created last, once every other field is decoded.
-/

namespace Vergerail

namespace Json

/-- `Value::as_u64`: a literal without a sign, in range. -/
def asU64 : Json → Option Nat
  | number text =>
    if text.startsWith "-" then none else text.toNat?.filter (fun n => n < 2 ^ 64)
  | _ => none

end Json

namespace Approval

/-- `protocol_field` of this module. -/
def protocolField (field : String) : Error :=
  Error.new .protocol "approval.parse" s!"missing or invalid field '{field}'"

/-- An unknown value of an enumeration. -/
def unknownValue (what value : String) : Error :=
  Error.new .protocol "approval.parse" s!"unknown {what} '{value}'"

/-! ## Fields -/

/-- The value under a field, read by `read`. -/
def required {α : Type} (read : Json → Option α) (value : Json) (field : String) : Result α :=
  match (value.get field).bind read with
  | some a => .ok a
  | none => .error (protocolField field)

/-- `required_string`. -/
def requiredString (value : Json) (field : String) : Result String :=
  required Json.asStr value field

/-- `required_non_empty_string`. -/
def requiredNonEmptyString (value : Json) (field : String) : Result String :=
  required Json.asNonEmptyStr value field

/-- `required_i64`. -/
def requiredI64 (value : Json) (field : String) : Result Int := required Json.asI64 value field

/-- `required_bool`. -/
def requiredBool (value : Json) (field : String) : Result Bool := required Json.asBool value field

/-- A field that may be missing or null, read by `read` otherwise. -/
def nullable {α : Type} (read : Json → Option α) (value : Json) (field : String) :
    Result (Option α) :=
  match value.get field with
  | none => .ok none
  | some .null => .ok none
  | some v =>
    match read v with
    | some a => .ok (some a)
    | none => .error (protocolField field)

/-- `nullable_string`. -/
def nullableString (value : Json) (field : String) : Result (Option String) :=
  nullable Json.asStr value field

/-- `nullable_u64`. -/
def nullableU64 (value : Json) (field : String) : Result (Option Nat) :=
  nullable Json.asU64 value field

/-- `optional_bool_with_default`: null is no default. -/
def optionalBoolWithDefault (value : Json) (field : String) (default : Bool) : Result Bool :=
  match value.get field with
  | none => .ok default
  | some (.bool b) => .ok b
  | some _ => .error (protocolField field)

/-- A list that may be missing or null, its elements read by `read`. -/
def nullableList {α : Type} (read : Json → Result α) (value : Option Json) (field : String) :
    Result (List α) :=
  match value with
  | none => .ok []
  | some .null => .ok []
  | some (.array values) => values.mapM read
  | some _ => .error (protocolField field)

/-- The string elements of a list. -/
def stringElement (field : String) (value : Json) : Result String :=
  match value.asStr with
  | some text => .ok text
  | none => .error (protocolField field)

/-- `nullable_string_array`. -/
def nullableStringArray (value : Json) (field : String) : Result (List String) :=
  nullableList (stringElement field) (value.get field) field

/-! ## Commands -/

/-- `CommandAction`. -/
inductive CommandAction where
  | read (command name path : String)
  | listFiles (command : String) (path : Option String)
  | search (command : String) (path query : Option String)
  | unknown (command : String)
  deriving DecidableEq

/-- `parse_command_actions`, for one action. -/
def parseCommandAction (action : Json) : Result CommandAction := do
  let command ← requiredString action "command"
  match (action.get "type").bind Json.asStr with
  | some "read" => do
      let name ← requiredString action "name"
      return .read command name (← requiredString action "path")
  | some "listFiles" => return .listFiles command (← nullableString action "path")
  | some "search" => do
      let path ← nullableString action "path"
      return .search command path (← nullableString action "query")
  | some "unknown" => return .unknown command
  | some other => .error (unknownValue "command action type" other)
  | none => .error (protocolField "commandActions[].type")

/-- `parse_command_actions`. -/
def parseCommandActions (value : Option Json) : Result (List CommandAction) :=
  nullableList parseCommandAction value "commandActions"

/-- `NetworkProtocol`. -/
inductive NetworkProtocol where
  | http
  | https
  | socks5Tcp
  | socks5Udp
  deriving DecidableEq

/-- `NetworkApprovalContext`. -/
structure NetworkApprovalContext where
  host : String
  protocol : NetworkProtocol
  deriving DecidableEq

/-- The protocol of a network approval. -/
def parseNetworkProtocol (value : Json) : Result NetworkProtocol :=
  match (value.get "protocol").bind Json.asStr with
  | some "http" => .ok .http
  | some "https" => .ok .https
  | some "socks5Tcp" => .ok .socks5Tcp
  | some "socks5Udp" => .ok .socks5Udp
  | some other => .error (unknownValue "network approval protocol" other)
  | none => .error (protocolField "networkApprovalContext.protocol")

/-- `parse_network_context`. -/
def parseNetworkContext (value : Option Json) : Result (Option NetworkApprovalContext) :=
  match value with
  | none => .ok none
  | some .null => .ok none
  | some (.object members) => do
      let protocol ← parseNetworkProtocol (.object members)
      let host ← requiredNonEmptyString (.object members) "host"
      return some { host, protocol }
  | some _ => .error (protocolField "networkApprovalContext")

/-- `NetworkPolicyAction`. -/
inductive NetworkPolicyAction where
  | allow
  | deny
  deriving DecidableEq

/-- `NetworkPolicyAmendment`. -/
structure NetworkPolicyAmendment where
  host : String
  action : NetworkPolicyAction
  deriving DecidableEq

/-- `parse_network_amendments`, for one amendment. -/
def parseNetworkAmendment (amendment : Json) : Result NetworkPolicyAmendment := do
  let action ←
    match (amendment.get "action").bind Json.asStr with
    | some "allow" => pure NetworkPolicyAction.allow
    | some "deny" => pure .deny
    | some other => .error (unknownValue "network policy action" other)
    | none => .error (protocolField "proposedNetworkPolicyAmendments[].action")
  let host ← requiredNonEmptyString amendment "host"
  return { host, action }

/-- `parse_network_amendments`. -/
def parseNetworkAmendments (value : Option Json) : Result (List NetworkPolicyAmendment) :=
  nullableList parseNetworkAmendment value "proposedNetworkPolicyAmendments"

/-! ## Permissions -/

/-- `FileSystemAccess`. -/
inductive FileSystemAccess where
  | read
  | write
  | deny
  deriving DecidableEq

/-- `FileSystemSpecialPath`. -/
inductive FileSystemSpecialPath where
  | root
  | minimal
  | projectRoots (subpath : Option String)
  | tempDir
  | slashTmp
  | unknown (path : String) (subpath : Option String)
  deriving DecidableEq

/-- `FileSystemPermissionPath`. -/
inductive FileSystemPermissionPath where
  | path (path : String)
  | globPattern (pattern : String)
  | special (path : FileSystemSpecialPath)
  deriving DecidableEq

/-- `FileSystemPermission`. -/
structure FileSystemPermission where
  access : FileSystemAccess
  path : FileSystemPermissionPath
  deriving DecidableEq

/-- `PermissionGrant`. -/
structure PermissionGrant where
  network : Option Bool
  entries : List FileSystemPermission
  globScanMaxDepth : Option Nat
  deriving DecidableEq

/-- `parse_special_path`. -/
def parseSpecialPath (value : Json) : Result FileSystemSpecialPath :=
  match (value.get "kind").bind Json.asStr with
  | some "root" => .ok .root
  | some "minimal" => .ok .minimal
  | some "project_roots" => do return .projectRoots (← nullableString value "subpath")
  | some "tmpdir" => .ok .tempDir
  | some "slash_tmp" => .ok .slashTmp
  | some "unknown" => do
      let path ← requiredString value "path"
      return .unknown path (← nullableString value "subpath")
  | some other => .error (unknownValue "filesystem special path kind" other)
  | none => .error (protocolField "permissions.fileSystem.entries[].path.value.kind")

/-- The path of `parse_file_system_permission`. -/
def parsePermissionPath (path : Json) : Result FileSystemPermissionPath :=
  match (path.get "type").bind Json.asStr with
  | some "path" => do return .path (← requiredString path "path")
  | some "glob_pattern" => do return .globPattern (← requiredString path "pattern")
  | some "special" =>
    match path.get "value" with
    | none => .error (protocolField "permissions.fileSystem.entries[].path.value")
    | some value => do return .special (← parseSpecialPath value)
  | some other => .error (unknownValue "filesystem path type" other)
  | none => .error (protocolField "permissions.fileSystem.entries[].path.type")

/-- `parse_file_system_permission`. -/
def parseFileSystemPermission (value : Json) : Result FileSystemPermission := do
  let access ←
    match (value.get "access").bind Json.asStr with
    | some "read" => pure FileSystemAccess.read
    | some "write" => pure .write
    | some "deny" => pure .deny
    | some other => .error (unknownValue "filesystem access mode" other)
    | none => .error (protocolField "permissions.fileSystem.entries[].access")
  match value.get "path" with
  | none => .error (protocolField "permissions.fileSystem.entries[].path")
  | some path => return { access, path := ← parsePermissionPath path }

/-- `parse_path_permissions`. -/
def parsePathPermissions (value : Option Json) (field : String) (access : FileSystemAccess) :
    Result (List FileSystemPermission) :=
  nullableList (fun v => do return { access, path := .path (← stringElement field v) }) value field

/-- The network part of `parse_permissions`. -/
def parseNetworkPermission (source : Json) : Result (Option Bool) :=
  match source.get "network" with
  | none => .ok none
  | some .null => .ok none
  | some (.object network) =>
    match (Json.object network).get "enabled" with
    | none => .ok none
    | some .null => .ok none
    | some (.bool enabled) => .ok (some enabled)
    | some _ => .error (protocolField "permissions.network.enabled")
  | some _ => .error (protocolField "permissions.network")

/-- The scan depth of `parse_permissions`. -/
def parseGlobScanMaxDepth (fileSystem : Json) : Result (Option Nat) :=
  match fileSystem.get "globScanMaxDepth" with
  | none => .ok none
  | some .null => .ok none
  | some v =>
    match v.asU64.filter (fun depth => 0 < depth) with
    | some depth => .ok (some depth)
    | none => .error (protocolField "permissions.fileSystem.globScanMaxDepth")

/-- The filesystem part of `parse_permissions`. -/
def parseFileSystem (network : Option Bool) (fileSystem : Json) : Result PermissionGrant := do
  let reads ← parsePathPermissions (fileSystem.get "read") "permissions.fileSystem.read" .read
  let writes ← parsePathPermissions (fileSystem.get "write") "permissions.fileSystem.write" .write
  let globScanMaxDepth ← parseGlobScanMaxDepth fileSystem
  let entries ← nullableList parseFileSystemPermission (fileSystem.get "entries")
    "permissions.fileSystem.entries"
  return { network, entries := reads ++ writes ++ entries, globScanMaxDepth }

/-- `parse_permissions`. -/
def parsePermissions (value : Json) : Result PermissionGrant :=
  match value with
  | .object source => do
      let network ← parseNetworkPermission (.object source)
      match (Json.object source).get "fileSystem" with
      | none => return { network, entries := [], globScanMaxDepth := none }
      | some .null => return { network, entries := [], globScanMaxDepth := none }
      | some (.object fileSystem) => parseFileSystem network (.object fileSystem)
      | some _ => .error (protocolField "permissions.fileSystem")
  | _ => .error (protocolField "permissions")

/-! ## User input -/

/-- `UserInputOption`. -/
structure UserInputOption where
  label : String
  description : String
  deriving DecidableEq

/-- `UserInputQuestion`. -/
structure UserInputQuestion where
  id : String
  header : String
  question : String
  allowsOther : Bool
  isSecret : Bool
  options : List UserInputOption
  deriving DecidableEq

/-- The fixed choices of a question. -/
def parseOption (option : Json) : Result UserInputOption := do
  let label ← requiredString option "label"
  return { label, description := ← requiredString option "description" }

/-- `parse_question`. -/
def parseQuestion (value : Json) : Result UserInputQuestion := do
  let options ← nullableList parseOption (value.get "options") "questions[].options"
  let id ← requiredNonEmptyString value "id"
  let header ← requiredString value "header"
  let question ← requiredString value "question"
  let allowsOther ← optionalBoolWithDefault value "isOther" false
  let isSecret ← optionalBoolWithDefault value "isSecret" false
  return { id, header, question, allowsOther, isSecret, options }

/-! ## The four requests -/

/-- `CommandApproval`. -/
structure CommandApproval where
  threadId : String
  turnId : String
  itemId : String
  approvalId : Option String
  environmentId : Option String
  startedAtMs : Int
  command : Option String
  actions : List CommandAction
  cwd : Option String
  reason : Option String
  networkContext : Option NetworkApprovalContext
  proposedExecPolicyAmendment : List String
  proposedNetworkPolicyAmendments : List NetworkPolicyAmendment
  deriving DecidableEq

/-- `command_approval`. -/
def commandApproval (params : Json) : Result CommandApproval := do
  let threadId ← requiredNonEmptyString params "threadId"
  let turnId ← requiredNonEmptyString params "turnId"
  let itemId ← requiredNonEmptyString params "itemId"
  let approvalId ← nullableString params "approvalId"
  let environmentId ← nullableString params "environmentId"
  let startedAtMs ← requiredI64 params "startedAtMs"
  let command ← nullableString params "command"
  let actions ← parseCommandActions (params.get "commandActions")
  let cwd ← nullableString params "cwd"
  let reason ← nullableString params "reason"
  let networkContext ← parseNetworkContext (params.get "networkApprovalContext")
  let proposedExecPolicyAmendment ← nullableStringArray params "proposedExecpolicyAmendment"
  let proposedNetworkPolicyAmendments ←
    parseNetworkAmendments (params.get "proposedNetworkPolicyAmendments")
  return { threadId, turnId, itemId, approvalId, environmentId, startedAtMs, command, actions, cwd,
           reason, networkContext, proposedExecPolicyAmendment, proposedNetworkPolicyAmendments }

/-- `FileChangeApproval`. -/
structure FileChangeApproval where
  threadId : String
  turnId : String
  itemId : String
  startedAtMs : Int
  reason : Option String
  grantRoot : Option String
  deriving DecidableEq

/-- `file_approval`. -/
def fileApproval (params : Json) : Result FileChangeApproval := do
  let threadId ← requiredNonEmptyString params "threadId"
  let turnId ← requiredNonEmptyString params "turnId"
  let itemId ← requiredNonEmptyString params "itemId"
  let startedAtMs ← requiredI64 params "startedAtMs"
  let reason ← nullableString params "reason"
  let grantRoot ← nullableString params "grantRoot"
  return { threadId, turnId, itemId, startedAtMs, reason, grantRoot }

/-- `PermissionApproval`. -/
structure PermissionApproval where
  threadId : String
  turnId : String
  itemId : String
  environmentId : Option String
  startedAtMs : Int
  cwd : String
  reason : Option String
  requested : PermissionGrant
  deriving DecidableEq

/-- `permission_approval`. -/
def permissionApproval (params : Json) : Result PermissionApproval :=
  match params.get "permissions" with
  | none => .error (protocolField "permissions")
  | some permissions => do
      let requested ← parsePermissions permissions
      let threadId ← requiredNonEmptyString params "threadId"
      let turnId ← requiredNonEmptyString params "turnId"
      let itemId ← requiredNonEmptyString params "itemId"
      let environmentId ← nullableString params "environmentId"
      let startedAtMs ← requiredI64 params "startedAtMs"
      let cwd ← requiredString params "cwd"
      let reason ← nullableString params "reason"
      return { threadId, turnId, itemId, environmentId, startedAtMs, cwd, reason, requested }

/-- `UserInputRequest`. -/
structure UserInputRequest where
  threadId : String
  turnId : String
  itemId : String
  autoResolutionMs : Option Nat
  isBlocking : Bool
  questions : List UserInputQuestion
  deriving DecidableEq

/-- `user_input_request`. -/
def userInputRequest (params : Json) : Result UserInputRequest :=
  match (params.get "questions").bind Json.asArray with
  | none => .error (protocolField "questions")
  | some values => do
      let questions ← values.mapM parseQuestion
      let autoResolutionMs ← nullableU64 params "autoResolutionMs"
      let isBlocking ← requiredBool params "isBlocking"
      let threadId ← requiredNonEmptyString params "threadId"
      let turnId ← requiredNonEmptyString params "turnId"
      let itemId ← requiredNonEmptyString params "itemId"
      return { threadId, turnId, itemId, autoResolutionMs, isBlocking, questions }

end Approval

end Vergerail
