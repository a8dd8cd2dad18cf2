import Vergerail.Approval.Protocol
import Vergerail.Bin.IfscTextProvider
import Vergerail.Lib.Checked
import Vergerail.Lib.Lineage
import Vergerail.Private.Process
import Mathlib.Algebra.Order.Ring.Rat

/-!
# Validating a ScreenProgram

`validate_program` of `src/bin/ifsc_text_provider.rs` and the checks under it: the
program's identity, its viewport, its nodes one by one, the tree they form and the copy
they show. Numbers are exact rationals: the source reads, adds and compares the bounds as
`f64`, and a sum that is rounded there may fall on the other side of a limit. A refusal is
kept as the place that raises it, with its text beside it. That a program is not serializable
has no place: `serde_json` writes every value.
-/

namespace Vergerail

namespace Json

/-- The digits of a literal as a number. -/
def digitsValue (digits : List Char) : Nat :=
  digits.foldl (fun n c => n * 10 + (c.toNat - '0'.toNat)) 0

/-- The exponent of a literal, with the letter in front of it. -/
def exponentValue : List Char → Int
  | _ :: '-' :: digits => -(digitsValue digits : Int)
  | _ :: '+' :: digits => digitsValue digits
  | _ :: digits => digitsValue digits
  | [] => 0

/-- The value of a number literal without a sign. -/
def unsignedValue (text : List Char) : Rat :=
  let whole := text.takeWhile Char.isDigit
  match text.dropWhile Char.isDigit with
  | '.' :: rest =>
    let fraction := rest.takeWhile Char.isDigit
    (digitsValue (whole ++ fraction) : Rat)
      * (10 : Rat) ^ (exponentValue (rest.dropWhile Char.isDigit) - fraction.length)
  | rest => (digitsValue whole : Rat) * (10 : Rat) ^ exponentValue rest

/-- `Value::as_f64`, exact. A literal out of the range of a float is no JSON value. -/
def asF64 : Json → Option Rat
  | number text =>
    match text.toList with
    | '-' :: rest => some (-unsignedValue rest)
    | rest => some (unsignedValue rest)
  | _ => none

end Json

/-- `char::is_control`. -/
def charIsControl (c : Char) : Bool :=
  c.toNat < 0x20 || (0x7f ≤ c.toNat && c.toNat ≤ 0x9f)

/-- `str::contains` with a string. -/
def containsText (text pattern : String) : Bool :=
  text.toList.tails.any (fun rest => pattern.toList.isPrefixOf rest)

/-- `str::split_ascii_whitespace`. -/
def splitAsciiWhitespace (text : String) : List String :=
  ((text.toList.splitOnP (fun c => c ∈ [' ', '\t', '\n', '\x0c', '\r'])).filter
    (fun word => !word.isEmpty)).map String.ofList

namespace IfscTextProvider

open Lib (orFault refuse)

/-- `OutputSpec`, as far as the validation of a program reads it. -/
structure OutputSpec where
  width : Nat
  height : Nat

/-- `Constraints`, as far as the validation of a program reads it. -/
structure Constraints where
  maximumNodes : Nat
  maximumProgramBytes : Nat

/-- `ProviderRequest`, as far as the validation of a program reads it. -/
structure ProviderRequest where
  output : OutputSpec
  constraints : Constraints

/-- `RequiredSection`. -/
structure RequiredSection where
  elementId : String
  kind : String

/-- `ExactText`. -/
structure ExactText where
  elementId : String
  text : String

/-- `CopyContract`. -/
inductive CopyContract where
  | noReadableCopy
  | contractCopyOnly (exact : List ExactText)

/-- `RequestContract`. -/
structure RequestContract where
  screenId : String
  stateId : String
  deviceScaleFactor : Rat
  requiredSections : List RequiredSection
  copyContract : CopyContract

/-- `Bounds`. -/
@[ext]
structure Bounds where
  x : Rat
  y : Rat
  width : Rat
  height : Rat

/-- `NodeInfo`. -/
structure NodeInfo where
  object : List (String × Json)
  parentId : Option String
  bounds : Bounds
  tag : String

/-- Why a program is refused: the `invalid_program` failures by the place that raises
them. -/
inductive ProgramFault where
  | tooLarge (limit : Nat)
  | notObject (label : String)
  | unsupportedField (label key : String)
  | missingField (label key : String)
  | identity
  | route
  | language
  | viewportMissing
  | viewportDiffers
  | behaviorMissing
  | behaviorNotStatic
  | nodeCount
  | nodeId
  | duplicateId (id : String)
  | fieldInvalid (id field : String)
  | fieldNotBoolean (id field : String)
  | textControl (id : String)
  | styleUnsafe (id key : String)
  | tagUnsupported (id : String)
  | boundsMissing (id : String)
  | boundsNotPositive (id : String)
  | primaryNotButton (id : String)
  | rootCount
  | rootViewport
  | parentMissing (id parentId : String)
  | escapesParent (id : String)
  | parentCycle (id : String)
  | requiredMissing (id : String)
  | requiredTag (id : String)
  | requiredHidden (id : String)
  | primaryCount
  | inventedCopy
  | outsideCopy
  | exactCopy (id : String)

namespace ProgramFault

/-- The text of the failure. -/
def message : ProgramFault → String
  | tooLarge limit => s!"program exceeds the {limit}-byte limit"
  | notObject label => label ++ " must be an object"
  | unsupportedField label key => label ++ " contains unsupported field '" ++ key ++ "'"
  | missingField label key => label ++ " is missing required field '" ++ key ++ "'"
  | identity =>
      "program identity, initial state, or viewport fitting is not bound to the request"
  | route => "program route is not canonical"
  | language => "program language is invalid"
  | viewportMissing => "program viewport is missing"
  | viewportDiffers => "program viewport differs from the requested viewport"
  | behaviorMissing => "program behavior is missing"
  | behaviorNotStatic => "program behavior must be static"
  | nodeCount => "program node count is outside the requested limit"
  | nodeId => "node id is invalid"
  | duplicateId id => "duplicate node id '" ++ id ++ "'"
  | fieldInvalid id field => "node '" ++ id ++ "' " ++ field ++ " is invalid"
  | fieldNotBoolean id field => "node '" ++ id ++ "' " ++ field ++ " must be boolean"
  | textControl id => "node '" ++ id ++ "' text contains control characters"
  | styleUnsafe id key => "node '" ++ id ++ "' style '" ++ key ++ "' has an unsafe value"
  | tagUnsupported id => "node '" ++ id ++ "' tag is unsupported"
  | boundsMissing id => "node '" ++ id ++ "' bounds are missing"
  | boundsNotPositive id => "node '" ++ id ++ "' bounds must be positive"
  | primaryNotButton id => "node '" ++ id ++ "' marks a non-button as the primary action"
  | rootCount => "program must contain exactly one root node"
  | rootViewport => "root node must exactly cover the viewport"
  | parentMissing id parentId =>
      "node '" ++ id ++ "' parent '" ++ parentId ++ "' does not exist"
  | escapesParent id => "node '" ++ id ++ "' escapes its parent bounds"
  | parentCycle id => "node '" ++ id ++ "' participates in a parent cycle"
  | requiredMissing id => "required element '" ++ id ++ "' is missing"
  | requiredTag id => "required element '" ++ id ++ "' has the wrong semantic tag"
  | requiredHidden id => "required element '" ++ id ++ "' is hidden in the requested state"
  | primaryCount => "program must identify exactly one primary action"
  | inventedCopy => "program invented readable copy"
  | outsideCopy => "program contains text outside the copy contract"
  | exactCopy id => "program does not preserve exact copy for '" ++ id ++ "'"

end ProgramFault

/-- `invalid_program`. -/
def invalidProgram (fault : ProgramFault) : ProviderFailure :=
  ProviderFailure.new "invalid-screen-program" fault.message false 1

/-- A check that refuses with a fault. -/
abbrev Checked := Except ProgramFault

/-- `exact_object`. -/
def exactObject (value : Json) (label : String) (allowed required : List String) :
    Checked (List (String × Json)) := do
  let object ← orFault value.asObject (.notObject label)
  match (object.map (·.1)).find? (fun key => key ∉ allowed) with
  | some key => .error (.unsupportedField label key)
  | none =>
    match required.find? (fun key => (object.lookup key).isNone) with
    | some key => .error (.missingField label key)
    | none => .ok object

/-- `is_safe_id`. -/
def isSafeId (value : String) : Bool :=
  2 ≤ value.utf8ByteSize && value.utf8ByteSize ≤ 128
    && (value.toList.head?.any Char.isAlpha)
    && value.toList.all (fun c => c.isAlphanum || c ∈ ['.', '_', ':', '-'])

/-- `ProviderFailure::invalid_request`. -/
def invalidRequest (message : String) : ProviderFailure :=
  ProviderFailure.new "invalid-request" message false 2

/-- `required_string`. -/
def requiredString (object : List (String × Json)) (key label : String) :
    Except ProviderFailure String :=
  orFault (((object.lookup key).bind Json.asStr).filter (fun value => !value.isEmpty))
    (invalidRequest (label ++ "." ++ key ++ " is required"))

/-- `required_safe_id`. -/
def requiredSafeId (object : List (String × Json)) (key label : String) :
    Except ProviderFailure String := do
  let value ← requiredString object key label
  refuse (!isSafeId value) (invalidRequest (label ++ "." ++ key ++ " is not a safe identifier"))
  pure value

/-- One pass of the loop over `exactText`. The ids seen so far are those of the entries. -/
def parseExactText (output : List ExactText) (item : Json) :
    Except ProviderFailure (List ExactText) := do
  let item ← orFault item.asObject (invalidRequest "exactText entries must be objects")
  let elementId ← requiredSafeId item "elementId" "exactText"
  refuse (elementId ∈ output.map (·.elementId))
    (invalidRequest "exactText elementId values must be unique")
  let text ← requiredString item "text" "exactText"
  refuse (text.isEmpty || text.utf8ByteSize > 4096 || text.toList.any charIsControl)
    (invalidRequest "exactText text must contain 1..=4096 non-control bytes")
  pure (output ++ [{ elementId := elementId, text := text }])

/-- The copy contract of `parse_request_contract`. -/
def parseCopyContract (profile : List (String × Json)) :
    Except ProviderFailure CopyContract := do
  let copy ← orFault ((profile.lookup "copyContract").bind Json.asObject)
    (invalidRequest "promptAst.imageProfile.copyContract must be an object")
  match ← requiredString copy "mode" "copyContract" with
  | "no-readable-copy" => pure .noReadableCopy
  | "contract-copy-only" =>
    let items ← orFault (((copy.lookup "exactText").bind Json.asArray).filter
        (fun items => items.length ≤ 64))
      (invalidRequest "copyContract.exactText must contain at most 64 entries")
    let output ← items.foldlM parseExactText []
    pure (.contractCopyOnly output)
  | _ => .error (invalidRequest "copyContract.mode is unsupported")

/-- `valid_language`. -/
def validLanguage (value : String) : Bool :=
  !value.isEmpty && value.utf8ByteSize ≤ 35
    && value.toList.all (fun c => c.isAlphanum || c = '-')

/-- `allowed_tag`. -/
def allowedTag (value : String) : Bool :=
  value ∈ ["main", "section", "header", "aside", "footer", "nav", "article", "div", "h1",
    "h2", "h3", "h4", "p", "button", "a", "ul", "ol", "li", "span", "output"]

/-- `semantic_tag_matches`. -/
def semanticTagMatches (kind tag : String) : Bool :=
  match kind with
  | "heading" => tag ∈ ["h1", "h2", "h3", "h4"]
  | "button" => tag = "button"
  | "link" => tag = "a"
  | "list" => tag ∈ ["ul", "ol"]
  | "listitem" => tag = "li"
  | "status" => tag = "output"
  | "landmark" =>
      tag ∈ ["main", "section", "header", "aside", "footer", "nav", "article"]
  | "text" => tag ∈ ["p", "span"]
  | _ => tag ∈ ["div", "section"]

/-- A control character other than the three a text may hold. -/
def isForbiddenControl (c : Char) : Bool := charIsControl c && c ∉ ['\n', '\r', '\t']

/-- `unsafe_css_value`. -/
def unsafeCssValue (value : String) : Bool :=
  let lower := String.ofList (value.toList.map Char.toLower)
  containsText lower "url(" || containsText lower "expression("
    || value.toList.any (fun c => c ∈ [';', '\x7b', '\x7d', '@'])
    || value.toList.any isForbiddenControl

/-- A field of `parse_bounds`. -/
def boundsNumber (object : List (String × Json)) (id key : String) : Checked Rat :=
  orFault ((object.lookup key).bind Json.asF64) (.fieldInvalid id ("bounds." ++ key))

/-- `parse_bounds`. -/
def parseBounds (value : Json) (id : String) : Checked Bounds := do
  let object ← exactObject value "bounds" ["x", "y", "width", "height"]
    ["x", "y", "width", "height"]
  let x ← boundsNumber object id "x"
  let y ← boundsNumber object id "y"
  let width ← boundsNumber object id "width"
  let height ← boundsNumber object id "height"
  refuse (width ≤ 0 || height ≤ 0) (.boundsNotPositive id)
  pure { x, y, width, height }

/-- The style keys a node may set. -/
def styleKeys : List String :=
  ["display", "alignItems", "justifyContent", "padding", "margin", "gap", "color",
    "backgroundColor", "background", "border", "borderRadius", "boxShadow", "fontFamily",
    "fontSize", "fontWeight", "lineHeight", "letterSpacing", "textAlign", "textDecoration",
    "textTransform", "whiteSpace", "listStyle", "overflow", "opacity", "transform",
    "zIndex", "pointerEvents", "objectFit", "objectPosition"]

/-- The values a style key may have. -/
def safeStyleValue (key : String) : Json → Bool
  | .number _ => true
  | .string text =>
      !text.isEmpty && text.utf8ByteSize ≤ 1024 && !unsafeCssValue text
        && !(key = "transform" && text ≠ "none")
  | _ => false

/-- `validate_style`. -/
def validateStyle (value : Json) (id : String) : Checked Unit := do
  let style ← exactObject value "style" styleKeys []
  style.forM (fun entry =>
    refuse (!safeStyleValue entry.1 entry.2) (.styleUnsafe id entry.1))

/-- A field that is a boolean if it is there. -/
def booleanField (object : List (String × Json)) (id key : String) : Checked Unit :=
  match object.lookup key with
  | none => .ok ()
  | some value => refuse value.asBool.isNone (.fieldNotBoolean id key)

/-- A field that is a bounded line of text if it is there. -/
def lineField (object : List (String × Json)) (id key : String) (maximum : Nat) :
    Checked Unit :=
  match object.lookup key with
  | none => .ok ()
  | some value => do
    let value ← orFault (value.asStr.filter (fun value =>
      !value.isEmpty && value.utf8ByteSize ≤ maximum && !value.toList.any charIsControl))
      (.fieldInvalid id key)
    refuse (key = "className"
        && !value.toList.all (fun c => c.isAlphanum || c ∈ [' ', '_', '-']))
      (.fieldInvalid id "className")

/-- The `text` of a node, if it has one. -/
def textField (object : List (String × Json)) (id : String) : Checked Unit :=
  match object.lookup "text" with
  | none => .ok ()
  | some value => do
    let text ← orFault (value.asStr.filter (fun text => text.utf8ByteSize ≤ 4096))
      (.fieldInvalid id "text")
    refuse (text.toList.any isForbiddenControl) (.textControl id)

/-- `validate_optional_node_fields`. -/
def validateOptionalNodeFields (object : List (String × Json)) (id : String) :
    Checked Unit := do
  refuse ((object.lookup "domId").any (fun value => !value.asStr.any isSafeId))
    (.fieldInvalid id "domId")
  ["ariaHidden", "primaryAction", "disabled", "hidden"].forM (booleanField object id)
  [("role", 64), ("ariaLabel", 512), ("className", 256), ("hiddenInState", 256)].forM
    (fun field => lineField object id field.1 field.2)
  textField object id
  match object.lookup "style" with
  | none => pure ()
  | some style => validateStyle style id

/-- The fields a node may have. -/
def nodeFields : List String :=
  ["id", "parentId", "domId", "tag", "bounds", "style", "role", "ariaHidden", "ariaLabel",
    "className", "primaryAction", "disabled", "hidden", "text", "hiddenInState"]

/-- The nodes read so far: the map by id in the order of insertion, the ids of those
without a parent, and how many are the primary action. -/
structure Census where
  byId : List (String × NodeInfo)
  roots : List String
  primaryActions : Nat

/-- The `parentId` of a node. -/
def readParentId (object : List (String × Json)) (id : String) :
    Checked (Option String) :=
  match object.lookup "parentId" with
  | none => .ok none
  | some value => do
    let parentId ← orFault (value.asStr.filter isSafeId) (.fieldInvalid id "parentId")
    pure (some parentId)

/-- Is the node marked as the primary action? -/
def isPrimaryAction (object : List (String × Json)) : Bool :=
  (object.lookup "primaryAction").bind Json.asBool = some true

/-- One pass of the first loop of `validate_nodes`. -/
def readNode (census : Census) (node : Json) : Checked Census := do
  let object ← exactObject node "node" nodeFields ["id", "tag", "bounds"]
  let id ← orFault (((object.lookup "id").bind Json.asStr).filter isSafeId) .nodeId
  refuse (census.byId.lookup id).isSome (.duplicateId id)
  let parentId ← readParentId object id
  let tag ← orFault (((object.lookup "tag").bind Json.asStr).filter allowedTag)
    (.tagUnsupported id)
  let value ← orFault (object.lookup "bounds") (.boundsMissing id)
  let bounds ← parseBounds value id
  validateOptionalNodeFields object id
  refuse (isPrimaryAction object && tag ≠ "button") (.primaryNotButton id)
  pure {
    byId := census.byId ++ [(id, { object, parentId, bounds, tag })]
    roots := if parentId = none then census.roots ++ [id] else census.roots
    primaryActions :=
      if isPrimaryAction object then census.primaryActions + 1 else census.primaryActions }

/-- The parent of an id in the map. -/
def parentOf (byId : List (String × NodeInfo)) (id : String) : Option String :=
  (byId.lookup id).bind (·.parentId)

/-- There is one root, and it covers the viewport. -/
def checkRoot (census : Census) (output : OutputSpec) : Checked Unit :=
  match census.roots with
  | [id] =>
    match census.byId.lookup id with
    | none => .ok () -- the id was inserted when it became a root
    | some root =>
      refuse (root.bounds.x ≠ 0 || root.bounds.y ≠ 0 || root.bounds.width ≠ output.width
        || root.bounds.height ≠ output.height) .rootViewport
  | _ => .error .rootCount

/-- The node lies inside its parent. -/
def checkParent (byId : List (String × NodeInfo)) (id : String) (node : NodeInfo) :
    Checked Unit :=
  match node.parentId with
  | none => .ok ()
  | some parentId => do
    let parent ← orFault (byId.lookup parentId) (.parentMissing id parentId)
    refuse (node.bounds.x < 0 || node.bounds.y < 0
        || node.bounds.x + node.bounds.width > parent.bounds.width
        || node.bounds.y + node.bounds.height > parent.bounds.height)
      (.escapesParent id)

/-- One pass of the second loop of `validate_nodes`. The counter of the inner loop may
reach the number of nodes, not more. -/
def checkPlacement (byId : List (String × NodeInfo)) (entry : String × NodeInfo) :
    Checked Unit := do
  checkParent byId entry.1 entry.2
  refuse (!Lib.climbs (parentOf byId) byId.length (some entry.1)) (.parentCycle entry.1)

/-- A number that is not positive, or the text `0`. -/
def opacityHides : Json → Bool
  | .string text => text = "0"
  | value => value.asF64.any (fun opacity => opacity ≤ 0)

/-- The style of a node hides it. -/
def styleHides (style : List (String × Json)) : Bool :=
  (style.lookup "display").bind Json.asStr = some "none"
    || (style.lookup "opacity").any opacityHides

/-- `node_hidden_in_state`. -/
def nodeHiddenInState (node : NodeInfo) (stateId : String) : Bool :=
  (node.object.lookup "hidden").bind Json.asBool = some true
    || ((node.object.lookup "hiddenInState").bind Json.asStr).any
      (fun states => stateId ∈ splitAsciiWhitespace states)
    || ((node.object.lookup "style").bind Json.asObject).any styleHides

/-- Is the node kept from assistive technology? -/
def isAriaHidden (node : NodeInfo) : Bool :=
  (node.object.lookup "ariaHidden").bind Json.asBool = some true

/-- One pass of the loop over the required sections. -/
def checkRequired (byId : List (String × NodeInfo)) (stateId : String)
    (required : RequiredSection) : Checked Unit := do
  let node ← orFault (byId.lookup required.elementId) (.requiredMissing required.elementId)
  refuse (!semanticTagMatches required.kind node.tag) (.requiredTag required.elementId)
  refuse (nodeHiddenInState node stateId || isAriaHidden node)
    (.requiredHidden required.elementId)

/-- The text a node shows. -/
def nodeText (node : NodeInfo) : Option String := (node.object.lookup "text").bind Json.asStr

/-- One pass of the loop over the exact texts. -/
def checkExact (byId : List (String × NodeInfo)) (stateId : String) (item : ExactText) :
    Checked Unit :=
  let node := byId.lookup item.elementId
  refuse (node.bind nodeText ≠ some item.text
    || node.any (fun node => nodeHiddenInState node stateId)) (.exactCopy item.elementId)

/-- `validate_copy_contract`. -/
def validateCopyContract (byId : List (String × NodeInfo)) (contract : CopyContract)
    (stateId : String) : Checked Unit :=
  match contract with
  | .noReadableCopy =>
      refuse (byId.any (fun node => (nodeText node.2).any (fun text => !text.isEmpty)))
        .inventedCopy
  | .contractCopyOnly exact => do
      refuse (byId.any (fun node =>
          (nodeText node.2).any (fun text => !text.isEmpty && text ∉ exact.map (·.text))))
        .outsideCopy
      exact.forM (checkExact byId stateId)

/-- What the validation works with besides the program. -/
structure ScreenEnv where
  /-- The order in which a `HashMap` yields its entries. -/
  hashOrder : List (String × NodeInfo) → List (String × NodeInfo)
  /-- Every entry is yielded once. -/
  hashOrder_perm : ∀ entries, (hashOrder entries).Perm entries

/-- `validate_nodes`. -/
def validateNodes (env : ScreenEnv) (nodes : List Json) (request : ProviderRequest)
    (contract : RequestContract) : Checked Unit := do
  let census ← nodes.foldlM readNode { byId := [], roots := [], primaryActions := 0 }
  checkRoot census request.output
  (env.hashOrder census.byId).forM (checkPlacement census.byId)
  contract.requiredSections.forM (checkRequired census.byId contract.stateId)
  refuse (contract.requiredSections.any (fun section' => section'.kind = "button")
    && census.primaryActions ≠ 1) .primaryCount
  validateCopyContract census.byId contract.copyContract contract.stateId

/-- `validate_program_viewport`. -/
def validateProgramViewport (value : Json) (request : ProviderRequest)
    (contract : RequestContract) : Checked Unit := do
  let viewport ← exactObject value "viewport" ["width", "height", "deviceScaleFactor"]
    ["width", "height", "deviceScaleFactor"]
  refuse ((viewport.lookup "width").bind Json.asU64 ≠ some request.output.width
    || (viewport.lookup "height").bind Json.asU64 ≠ some request.output.height
    || (viewport.lookup "deviceScaleFactor").bind Json.asF64
      ≠ some contract.deviceScaleFactor) .viewportDiffers

/-- The checks of `validate_program`. -/
def checkProgram (env : ScreenEnv) (program : Json) (request : ProviderRequest)
    (contract : RequestContract) : Checked Unit := do
  refuse (program.encodedBytes > request.constraints.maximumProgramBytes)
    (.tooLarge request.constraints.maximumProgramBytes)
  let object ← exactObject program "program"
    ["schemaVersion", "screenId", "route", "language", "viewport", "initialState",
      "fitViewport", "nodes", "behavior"]
    ["schemaVersion", "screenId", "route", "viewport", "initialState", "fitViewport",
      "nodes", "behavior"]
  refuse ((object.lookup "schemaVersion").bind Json.asU64 ≠ some 1
    || (object.lookup "screenId").bind Json.asStr ≠ some contract.screenId
    || (object.lookup "initialState").bind Json.asStr ≠ some contract.stateId
    || (object.lookup "fitViewport").bind Json.asBool ≠ some true) .identity
  refuse ((object.lookup "route").bind Json.asStr
    ≠ some ("/candidate/" ++ contract.screenId ++ "/" ++ contract.stateId)) .route
  refuse ((object.lookup "language").any (fun language => !language.asStr.any validLanguage))
    .language
  let viewport ← orFault (object.lookup "viewport") .viewportMissing
  validateProgramViewport viewport request contract
  let behavior ← orFault (object.lookup "behavior") .behaviorMissing
  let behavior ← exactObject behavior "behavior" ["actions"] ["actions"]
  refuse (!((behavior.lookup "actions").bind Json.asArray).any List.isEmpty)
    .behaviorNotStatic
  let nodes ← orFault (((object.lookup "nodes").bind Json.asArray).filter (fun nodes =>
    !nodes.isEmpty && nodes.length ≤ request.constraints.maximumNodes)) .nodeCount
  validateNodes env nodes request contract

/-- `validate_program`. -/
def validateProgram (env : ScreenEnv) (program : Json) (request : ProviderRequest)
    (contract : RequestContract) : Except ProviderFailure Unit :=
  (checkProgram env program request contract).mapError invalidProgram

end IfscTextProvider

end Vergerail
