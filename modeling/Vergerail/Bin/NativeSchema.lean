import Mathlib.Data.String.Basic
import Vergerail.Json
import Vergerail.Lib.SortedMap
import Vergerail.Bin.UpagentProvider

/-!
# The native output schema

`model_output_schema` of `src/bin/vergerail_upagent_provider.rs` and what it calls: the
schema that is sent with a turn, with the advertised tool schemas in it, and its
rewriting into the strict form. A JSON object is a map sorted by key, as
`serde_json::Map` is.

`close_native_object_schemas` walks every object of the value the same way: first the
object itself (`closeObject`), then whatever stands under its keys.
-/

namespace Vergerail

namespace NativeSchema

open UpagentProvider (ProviderResult failure)
open Lib.SortedMap (insert insertNew erase keys mapValues)

abbrev Members := List (String × Json)

/-- A refused request. -/
def invalid {α : Type} (message : String) : ProviderResult α :=
  .error (failure "invalid_request" message false)

/-! ## Numbers -/

/-- What fits into an `i32`. -/
def toI32 (n : Int) : Option Int := if -2147483648 ≤ n ∧ n ≤ 2147483647 then some n else none

/-- `str::parse::<i32>`, after the sign. -/
def parseDigits (negative : Bool) (digits : List Char) : Option Int :=
  if digits ≠ [] ∧ digits.all Char.isDigit then
    let value : Nat := digits.foldl (fun n c => 10 * n + (c.toNat - '0'.toNat)) 0
    toI32 (if negative then -(value : Int) else value)
  else none

/-- `str::parse::<i32>`. -/
def parseI32 : List Char → Option Int
  | '-' :: digits => parseDigits true digits
  | '+' :: digits => parseDigits false digits
  | digits => parseDigits false digits

/-- `CanonicalDecimal`. -/
structure CanonicalDecimal where
  negative : Bool
  digits : List Char
  scale : Int
  deriving DecidableEq, Repr

/-- The trailing zeros leave the digits, given from the last one on, for the scale. -/
def dropTrailingZeros : List Char → Int → Option (List Char × Int)
  | '0' :: digits, scale => (toI32 (scale + 1)).bind (dropTrailingZeros digits)
  | digits, scale => some (digits.reverse, scale)

/-- `canonical_decimal`. -/
def canonicalDecimal (text : String) : Option CanonicalDecimal := do
  let isExponentMark := fun (c : Char) => c == 'e' || c == 'E'
  let exponent ← match text.toList.dropWhile (fun c => !isExponentMark c) with
    | [] => some 0
    | _ :: exponent => parseI32 exponent
  let mantissa := text.toList.takeWhile (fun c => !isExponentMark c)
  let negative := mantissa.head? == some '-'
  let mantissa := match mantissa with
    | '-' :: rest => rest
    | '+' :: rest => rest
    | rest => rest
  let fractionalDigits ← match mantissa.dropWhile (· != '.') with
    | [] => some 0
    | _ :: fraction => toI32 fraction.length
  let digits := mantissa.filter (· != '.')
  if digits = [] ∨ !digits.all Char.isDigit then none
  else match digits.dropWhile (· == '0') with
    | [] => some ⟨false, ['0'], 0⟩
    | digits => do
        let scale ← toI32 (exponent - fractionalDigits)
        let (digits, scale) ← dropTrailingZeros digits.reverse scale
        some ⟨negative, digits, scale⟩

/-- `number_is_integral`: a number shows its shortest decimal, which is whole exactly if
the number is. -/
def numberIsIntegral (text : String) : Bool :=
  match canonicalDecimal text with
  | some decimal => decide (0 ≤ decimal.scale)
  | none => false

/-- `numeric_schema_values_equal`. -/
def numericSchemaValuesEqual (left right : String) : Bool :=
  canonicalDecimal left == canonicalDecimal right

/-- `primitive_schema_values_equal`. -/
def primitiveSchemaValuesEqual : Json → Json → Bool
  | .null, .null => true
  | .bool left, .bool right => left == right
  | .string left, .string right => left == right
  | .number left, .number right => numericSchemaValuesEqual left right
  | _, _ => false

/-! ## Types, constants and enumerations -/

/-- `native_json_type`. -/
def nativeJsonType : Json → Option String
  | .null => some "null"
  | .bool _ => some "boolean"
  | .number text => some (if numberIsIntegral text then "integer" else "number")
  | .string _ => some "string"
  | .array _ => none
  | .object _ => none

/-- `native_type_pair_is_compatible`. -/
def nativeTypePairIsCompatible (declared actual : String) : Bool :=
  declared == actual || (declared == "number" && actual == "integer")

/-- `native_type_includes`. -/
def nativeTypeIncludes (typeValue : Json) (expected : String) : Bool :=
  match typeValue with
  | .string kind => nativeTypePairIsCompatible kind expected
  | .array types =>
      (types.filterMap Json.asStr).any (fun kind => nativeTypePairIsCompatible kind expected)
  | _ => false

/-- `validate_const_enum_membership`. -/
def validateConstEnumMembership (object : Members) (constant : Json) : ProviderResult Unit :=
  match object.lookup "enum" with
  | none => .ok ()
  | some (.array values) =>
      if values.any (fun value => primitiveSchemaValuesEqual value constant) then .ok ()
      else invalid "native strict schema const value is excluded by enum"
  | some _ => invalid "native strict schema enum must be an array when const is present"

/-- What a constant has to satisfy beside the other keywords, and its type. -/
def checkConst (object : Members) (constant : Json) : ProviderResult String :=
  match nativeJsonType constant with
  | none => invalid "native strict schemas do not support array or object const values"
  | some kind =>
    match validateConstEnumMembership object constant with
    | .error e => .error e
    | .ok () =>
      match object.lookup "type" with
      | none => .ok kind
      | some typeValue =>
          if nativeTypeIncludes typeValue kind then .ok kind
          else invalid "native strict schema const value does not match its declared type"

/-- `normalize_native_const_type`. -/
def normalizeNativeConstType (object : Members) : ProviderResult Members :=
  match object.lookup "const" with
  | none => .ok object
  | some constant =>
    match checkConst object constant with
    | .error e => .error e
    | .ok kind => .ok (insertNew "type" (.string kind) object)

/-! ## Nullable properties -/

/-- A constant of an optional property becomes an enumeration with `null`. -/
def constAsEnum (object : Members) : ProviderResult Members :=
  match object.lookup "const" with
  | none => .ok object
  | some constant =>
    match checkConst (erase "const" object) constant with
    | .error e => .error e
    | .ok kind =>
        .ok (insert "enum"
          (.array (constant :: (if kind = "null" then [] else [.null])))
          (erase "enum" (insertNew "type" (.string kind) (erase "const" object))))

/-- The type names `null`, alone or among others. -/
def typeNamesNull : Json → Bool
  | .string kind => kind == "null"
  | .array types => types.any (fun value => value.asStr == some "null")
  | _ => false

def isNull : Json → Bool
  | .null => true
  | _ => false

/-- An enumeration is given `null` unless it has it. -/
def enumWithNull (object : Members) : Members :=
  match object.lookup "enum" with
  | some (.array values) =>
      if values.any isNull then object
      else insert "enum" (.array (values ++ [.null])) object
  | _ => object

/-- A variant of `anyOf` is the null type, by a plain string. -/
def anyOfNamesNull (object : Members) : Bool :=
  match object.lookup "anyOf" with
  | some (.array variants) =>
      variants.any (fun variant => (variant.get "type").bind Json.asStr == some "null")
  | _ => false

/-- A declared type is given `null`. -/
def typeWithNull : Json → Json
  | .string kind => .array [.string kind, .string "null"]
  | .array types =>
      if types.any (fun value => value.asStr == some "null") then .array types
      else .array (types ++ [.string "null"])
  | typeValue => typeValue

/-- The schema, or `null`. -/
def orNull (original : Json) : Json :=
  .object [("anyOf", .array [original, .object [("type", .string "null")]])]

/-- `make_native_property_nullable` of an object without a constant. -/
def objectOrNull (object : Members) : Json :=
  match object.lookup "type" with
  | some typeValue =>
      if typeNamesNull typeValue then .object (enumWithNull object)
      else if anyOfNamesNull object then .object object
      else .object (enumWithNull (insert "type" (typeWithNull typeValue) object))
  | none => if anyOfNamesNull object then .object object else orNull (.object object)

/-- `make_native_property_nullable`. -/
def makeNativePropertyNullable : Json → ProviderResult Json
  | .object object => (constAsEnum object).map objectOrNull
  | schema => .ok (orNull schema)

/-! ## One object -/

/-- The type names `object`, alone or among others. -/
def typeNamesObject : Json → Bool
  | .string kind => kind == "object"
  | .array types => types.any (fun value => value.asStr == some "object")
  | _ => false

/-- `object_schema` of `close_native_object_schemas`. -/
def isObjectSchema (object : Members) : Bool :=
  (object.lookup "type").any typeNamesObject || (object.lookup "properties").isSome ||
    (object.lookup "required").isSome

/-- `property_names` of `close_native_object_schemas`. -/
def propertyNames (object : Members) : List String :=
  match object.lookup "properties" with
  | some (.object properties) => keys properties
  | _ => []

def requiredEntry (value : Json) : ProviderResult String :=
  match value with
  | .string name => .ok name
  | _ => invalid "native strict object schema required entries must be strings"

/-- `existing_required` of `close_native_object_schemas`. -/
def existingRequired (object : Members) : ProviderResult (List String) :=
  match object.lookup "required" with
  | none => .ok []
  | some (.array values) => values.mapM requiredEntry
  | some _ => invalid "native strict object schemas require required to be an array"

/-- An explicitly open object schema is refused. -/
def isOpen (object : Members) : Bool :=
  match object.lookup "additionalProperties" with
  | none => false
  | some (.bool false) => false
  | some _ => true

/-- A property that is not required becomes nullable. -/
def closeProperty (existing : List String) (name : String) (property : Json) :
    ProviderResult Json :=
  if name ∈ existing then .ok property else makeNativePropertyNullable property

/-- The properties of an object schema that are not required become nullable. -/
def closeProperties (existing : List String) (object : Members) : ProviderResult Members :=
  match object.lookup "properties" with
  | some (.object properties) =>
    match mapValues (closeProperty existing) properties with
    | .error e => .error e
    | .ok properties => .ok (insert "properties" (.object properties) object)
  | _ => .ok object

/-- `close_native_object_schemas` at an object schema, before its children. -/
def closeObjectSchema (object : Members) : ProviderResult Members :=
  if isOpen object then
    invalid "native strict object schemas require additionalProperties to be false"
  else
    match existingRequired object with
    | .error e => .error e
    | .ok existing =>
      if existing.any (fun name => !(propertyNames object).contains name) then
        invalid "native strict object schema required contains a property that is not declared"
      else
        match closeProperties existing (insert "additionalProperties" (.bool false) object) with
        | .error e => .error e
        | .ok closed =>
            .ok (insert "required" (.array ((propertyNames object).map .string)) closed)

/-- `close_native_object_schemas` at an object, before its children. -/
def closeObject (object : Members) : ProviderResult Members :=
  match normalizeNativeConstType object with
  | .error e => .error e
  | .ok object => if isObjectSchema object then closeObjectSchema object else .ok object

/-! ## The recursion -/

mutual

/-- A bound on the depth of the recursion: what `closeObject` puts under a key is
covered, and a property that becomes nullable may grow. -/
def reach : Json → Nat
  | .array items => 1 + reachItems items
  | .object members => 2 + reachMembers members
  | _ => 0

def reachItems : List Json → Nat
  | [] => 0
  | item :: items => max (reach item) (reachItems items)

def reachMembers : List (String × Json) → Nat
  | [] => 0
  | (name, value) :: members =>
      max (reach value + if name = "properties" then 6 else 0) (reachMembers members)

end

/-- `close_native_object_schemas`, to a depth. -/
def closeToDepth : Nat → Json → ProviderResult Json
  | depth + 1, .object object =>
    match closeObject object with
    | .error e => .error e
    | .ok object => (mapValues (fun _ child => closeToDepth depth child) object).map .object
  | depth + 1, .array items => (items.mapM (closeToDepth depth)).map .array
  | _, schema => .ok schema

/-- `close_native_object_schemas`. -/
def closeNativeObjectSchemas (schema : Json) : ProviderResult Json :=
  closeToDepth (reach schema) schema

/-! ## The output schema -/

/-- `MAX_TEXT_BYTES`. -/
def maxTextBytes : Nat := 8 * 1024 * 1024

/-- `MAX_TOOL_CALLS`. -/
def maxToolCalls : Nat := 64

/-- `MAX_TOOL_CALL_ID_BYTES`. -/
def maxToolCallIdBytes : Nat := 192

/-- The fields of `ProviderTool` that the code here reads. -/
structure ProviderTool where
  name : String
  inputSchema : Json

/-- An object schema as `model_output_schema` writes it. -/
def strictObject (required : List String) (properties : Members) : Json :=
  .object [("additionalProperties", .bool false), ("properties", .object properties),
    ("required", .array (required.map .string)), ("type", .string "object")]

/-- The schema of a bounded text. -/
def boundedString (maximum : Nat) : Json :=
  .object [("maxLength", .number (toString maximum)), ("type", .string "string")]

/-- The schema of the calls of one tool. -/
def toolCallsSchema (tool : ProviderTool) : Json :=
  .object
    [("items", strictObject ["id", "arguments"]
        [("arguments", tool.inputSchema), ("id", boundedString maxToolCallIdBytes)]),
      ("maxItems", .number (toString maxToolCalls)), ("type", .string "array")]

/-- `tool_properties` of `model_output_schema`. -/
def toolProperties (tools : List ProviderTool) : Members :=
  tools.foldl (fun properties tool => insert tool.name (toolCallsSchema tool) properties) []

/-- The schema of `model_output_schema` before it is closed. -/
def advertisedSchema (tools : List ProviderTool) : Json :=
  if tools.isEmpty then strictObject ["text"] [("text", boundedString maxTextBytes)]
  else
    strictObject ["text", "toolCalls"]
      [("text", boundedString maxTextBytes),
        ("toolCalls", strictObject (tools.map ProviderTool.name) (toolProperties tools))]

/-- `model_output_schema`. -/
def modelOutputSchema (tools : List ProviderTool) : ProviderResult Json :=
  closeNativeObjectSchemas (advertisedSchema tools)

end NativeSchema

end Vergerail
