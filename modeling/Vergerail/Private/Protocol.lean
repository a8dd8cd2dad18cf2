import Vergerail.Event

/-!
# Reading a persisted turn

`turn_audit` of `src/private/protocol.rs` and the item readers it uses. The audit takes
the answer to `thread/read` apart: the turn it looks for, and that turn's items in four
lists, by their type.
-/

namespace Vergerail

namespace Json

def asArray : Json → Option (List Json)
  | array items => some items
  | _ => none

/-- `Value::as_i64`: an integer literal in range. A number written `-0` is a float. -/
def asI64 : Json → Option Int
  | number text =>
    if text = "-0" then none
    else text.toInt?.filter (fun n => -(2 ^ 63) ≤ n && n < 2 ^ 63)
  | _ => none

/-- The field is an array. -/
theorem array_iff {value : Json} {field : String} {items : List Json} :
    (value.get field).bind Json.asArray = some items ↔ value.get field = some (.array items) := by
  rw [Option.bind_eq_some_iff]
  constructor
  · rintro ⟨found, hfound, hitems⟩
    cases found <;> cases hitems
    exact hfound
  · intro h
    exact ⟨_, h, rfl⟩

/-- The field is a string. -/
theorem string_iff {value : Json} {field text : String} :
    (value.get field).bind Json.asStr = some text ↔ value.get field = some (.string text) := by
  rw [Option.bind_eq_some_iff]
  constructor
  · rintro ⟨found, hfound, htext⟩
    cases found <;> cases htext
    exact hfound
  · intro h
    exact ⟨_, h, rfl⟩

end Json

/-- `required_string`. -/
def requiredString (value : Json) (field operation : String) : Result String :=
  match (value.get field).bind Json.asStr with
  | some text => .ok text
  | none => .error (protocolField operation field)

/-- `required_non_empty_string`. -/
def requiredNonEmptyString (value : Json) (field operation : String) : Result String :=
  match (value.get field).bind Json.asNonEmptyStr with
  | some text => .ok text
  | none => .error (protocolField operation field)

/-- `optional_string`. -/
def optionalString (value : Json) (field operation : String) : Result (Option String) :=
  match value.get field with
  | none => .ok none
  | some .null => .ok none
  | some (.string text) => .ok (some text)
  | some _ => .error (protocolField operation field)

/-- `optional_bool`. -/
def optionalBool (value : Json) (field operation : String) : Result (Option Bool) :=
  match value.get field with
  | none => .ok none
  | some .null => .ok none
  | some (.bool b) => .ok (some b)
  | some _ => .error (protocolField operation field)

/-- `file_change_paths`, from the change at `index` on. -/
def fileChangePathsFrom (operation : String) : Nat → List Json → Result (List String)
  | _, [] => .ok []
  | index, change :: changes =>
    match (change.get "path").bind Json.asNonEmptyStr with
    | none => .error (protocolField operation s!"changes[{index}].path")
    | some path => do return path :: (← fileChangePathsFrom operation (index + 1) changes)

/-- `file_change_paths`. -/
def fileChangePaths (value : Json) (operation : String) : Result (List String) :=
  match (value.get "changes").bind Json.asArray with
  | none => .error (protocolField operation "changes")
  | some changes => fileChangePathsFrom operation 0 changes

/-- `command_from_item`. -/
def commandFromItem (item : Json) : Result CommandSummary := do
  let itemId ← requiredNonEmptyString item "id" "item.commandExecution"
  let command ← requiredNonEmptyString item "command" "item.commandExecution"
  let cwd ← requiredNonEmptyString item "cwd" "item.commandExecution"
  let status ← requiredNonEmptyString item "status" "item.commandExecution"
  return { itemId, command, cwd := some cwd, status }

/-- `file_change_from_item`. -/
def fileChangeFromItem (item : Json) : Result FileChangeSummary := do
  let itemId ← requiredNonEmptyString item "id" "item.fileChange"
  let paths ← fileChangePaths item "item.fileChange"
  let status ← requiredNonEmptyString item "status" "item.fileChange"
  return { itemId, paths, status }

/-- `image_generation_failure`. -/
def imageGenerationFailure (value : Option Json) : Result (Option ImageGenerationFailure) :=
  match value with
  | none => .ok none
  | some .null => .ok none
  | some value =>
    match (value.get "type").bind Json.asStr with
    | some "usageLimitExceeded" => do
        let limitId ← requiredNonEmptyString value "limitId" "item.imageGeneration"
        let resetsAt ←
          match value.get "resetsAt" with
          | none => pure none
          | some .null => pure none
          | some value =>
            match value.asI64 with
            | some n => pure (some n)
            | none => .error (protocolField "item.imageGeneration" "failure.resetsAt")
        return some (.usageLimitExceeded limitId resetsAt)
    | some other =>
        .error (Error.new .protocol "item.imageGeneration"
          s!"unexpected image-generation failure type '{other}'")
    | none => .error (protocolField "item.imageGeneration" "failure.type")

/-- `Path::is_absolute` on Unix. -/
def pathIsAbsolute (path : String) : Bool := path.toList.head? == some '/'

/-- `image_generation_from_item`: the status of a persisted image is never empty. -/
def imageGenerationFromItem (item : Json) : Result ImageGeneration := do
  let savedPath ← optionalString item "savedPath" "item.imageGeneration"
  if savedPath.any (fun path => !pathIsAbsolute path) then
    .error (protocolField "item.imageGeneration" "savedPath")
  else
    let status ← requiredNonEmptyString item "status" "item.imageGeneration"
    let id ← requiredNonEmptyString item "id" "item.imageGeneration"
    let revisedPrompt ← optionalString item "revisedPrompt" "item.imageGeneration"
    let resultBase64 ← requiredString item "result" "item.imageGeneration"
    let transparentBackground ← optionalBool item "transparentBackground" "item.imageGeneration"
    let failure ← imageGenerationFailure (item.get "failure")
    return { id, status, revisedPrompt, resultBase64, transparentBackground, failure, savedPath }

/-- `TurnAudit`: persisted evidence for one completed turn. -/
structure TurnAudit where
  turnId : String
  commands : List CommandSummary
  fileChanges : List FileChangeSummary
  imageGenerations : List ImageGeneration
  /-- The types of all remaining items, in order. -/
  otherItemTypes : List String
  deriving DecidableEq

namespace TurnAudit

def empty (turnId : String) : TurnAudit := ⟨turnId, [], [], [], []⟩

/-- The item goes into the list of its type. -/
def push (self : TurnAudit) (itemType : String) (item : Json) : Result TurnAudit :=
  match itemType with
  | "commandExecution" => do
      return { self with commands := self.commands ++ [← commandFromItem item] }
  | "fileChange" => do
      return { self with fileChanges := self.fileChanges ++ [← fileChangeFromItem item] }
  | "imageGeneration" => do
      return { self with
        imageGenerations := self.imageGenerations ++ [← imageGenerationFromItem item] }
  | other => .ok { self with otherItemTypes := self.otherItemTypes ++ [other] }

end TurnAudit

/-- The non-empty string under a field, which names a turn, an item or its type. -/
def Json.name (value : Json) (field : String) : Option String :=
  (value.get field).bind Json.asNonEmptyStr

/-- The loop of `turn_audit` over the turns: the target turn with its index. -/
def findTargetTurn (targetTurnId : String) :
    Nat → List Json → Option (Nat × Json) → Result (Option (Nat × Json))
  | _, [], target => .ok target
  | index, turn :: turns, target =>
    match turn.name "id" with
    | none => .error (protocolField "thread.read" s!"thread.turns[{index}].id")
    | some turnId =>
      if turnId = targetTurnId then
        if target.isSome then
          .error (Error.new .protocol "thread.read"
            s!"thread history contains duplicate target turn '{targetTurnId}'")
        else findTargetTurn targetTurnId (index + 1) turns (some (index, turn))
      else findTargetTurn targetTurnId (index + 1) turns target

/-- The loop of `turn_audit` over the items of the target turn. -/
def auditItems (targetTurnId : String) (turnIndex : Nat) :
    Nat → List Json → List String → TurnAudit → Result TurnAudit
  | _, [], _, audit => .ok audit
  | itemIndex, item :: items, itemIds, audit =>
    match item.name "type" with
    | none =>
        .error (protocolField "thread.read"
          s!"thread.turns[{turnIndex}].items[{itemIndex}].type")
    | some itemType =>
      match item.name "id" with
      | none =>
          .error (protocolField "thread.read"
            s!"thread.turns[{turnIndex}].items[{itemIndex}].id")
      | some itemId =>
        if itemId ∈ itemIds then
          .error (Error.new .protocol "thread.read"
            s!"target turn '{targetTurnId}' contains duplicate item id '{itemId}'")
        else
          match audit.push itemType item with
          | .error error => .error error
          | .ok audit =>
              auditItems targetTurnId turnIndex (itemIndex + 1) items (itemId :: itemIds) audit

/-- How `turn_audit` refuses the target turn before it looks at the items. -/
def targetTurnRefusal (targetTurnId : String) (turnIndex : Nat) (turn : Json) : Option Error :=
  match (turn.get "status").bind Json.asStr with
  | some "completed" =>
    match turn.get "itemsView" with
    | none => none
    | some (.string "full") => none
    | some (.string value) =>
        some (Error.new .protocol "thread.read"
          s!"target turn '{targetTurnId}' returned partial items view '{value}'")
    | some _ => some (protocolField "thread.read" s!"thread.turns[{turnIndex}].itemsView")
  | some status =>
      some (Error.new .protocol "thread.read"
        s!"target turn '{targetTurnId}' is not completed (status '{status}')")
  | none => some (protocolField "thread.read" s!"thread.turns[{turnIndex}].status")

/-- `turn_audit`. -/
def turnAudit (response : Json) (expectedThreadId targetTurnId : String) : Result TurnAudit :=
  match response.get "thread" with
  | none => .error (protocolField "thread.read" "thread")
  | some thread =>
    match requiredNonEmptyString thread "id" "thread.read" with
    | .error error => .error error
    | .ok observedThreadId =>
      if observedThreadId ≠ expectedThreadId then
        .error (Error.new .protocol "thread.read"
          ("app-server returned thread '" ++ observedThreadId ++ "' instead of requested thread '"
            ++ expectedThreadId ++ "'"))
      else
        match (thread.get "turns").bind Json.asArray with
        | none => .error (protocolField "thread.read" "thread.turns")
        | some turns =>
          match findTargetTurn targetTurnId 0 turns none with
          | .error error => .error error
          | .ok none =>
              .error (Error.new .protocol "thread.read"
                s!"thread history does not contain target turn '{targetTurnId}'")
          | .ok (some (turnIndex, turn)) =>
            match targetTurnRefusal targetTurnId turnIndex turn with
            | some error => .error error
            | none =>
              match (turn.get "items").bind Json.asArray with
              | none => .error (protocolField "thread.read" s!"thread.turns[{turnIndex}].items")
              | some items => auditItems targetTurnId turnIndex 0 items [] (.empty targetTurnId)

end Vergerail
