import Vergerail.Error

/-!
# JSON values

`serde_json::Value` as the routing code reads it: field access, pointers and the
typed accessors. Numbers are kept as their text, which the accessors read.
-/

namespace Vergerail

/-- `serde_json::Value`. -/
inductive Json where
  | null
  | bool (b : Bool)
  | number (text : String)
  | string (s : String)
  | array (items : List Json)
  | object (members : List (String × Json))

namespace Json

/-- `Value::get` with a string index. -/
def get : Json → String → Option Json
  | object members, field => members.lookup field
  | _, _ => none

def asObject : Json → Option (List (String × Json))
  | object members => some members
  | _ => none

def asStr : Json → Option String
  | string s => some s
  | _ => none

def asBool : Json → Option Bool
  | bool b => some b
  | _ => none

/-- `Value::pointer` for a path of object fields. -/
def pointer : Json → List String → Option Json
  | v, [] => some v
  | v, field :: path => (v.get field).bind (fun w => w.pointer path)

/-- `Value::as_str` followed by the filter for non-empty strings. -/
def asNonEmptyStr (v : Json) : Option String := v.asStr.filter (fun s => !s.isEmpty)

end Json

/-- `protocol_field`: a field of a provider payload is missing or malformed. -/
def protocolField (operation field : String) : Error :=
  Error.new .protocol operation ("missing or invalid field '" ++ field ++ "'")

end Vergerail
