import Mathlib.Data.String.Basic
import Vergerail.JsonRead
import Vergerail.Lib.KeyOrder

/-!
# The identity of the protocol schema

`canonical_json_sha256` and `write_canonical_json` of `src/runtime.rs`. A `Map` of
`serde_json` has no key twice and answers for every key of its own, and a writer that appends
to a `Vec` does not fail. Strings compare as their characters do: in UTF-8 the order of the
bytes is that of the characters. The parser and the digest are not part of the repository.
-/

namespace Vergerail

open Lib

namespace Json

/-- Texts with commas between them. -/
def commaSeparated (texts : List (List Char)) : List Char := [','].intercalate texts

mutual

/-- `write_canonical_json`: the characters written for a value. -/
def canonicalChars : Json → List Char
  | array items => '[' :: (commaSeparated (canonicalItems items) ++ [']'])
  | object members =>
    let written := canonicalMembers members
    let sorted := KeyOrder.sortedKeys written
    '\x7b' :: (commaSeparated (sorted.map (fun key =>
      quoted key ++ ':' :: (written.lookup key).getD [])) ++ ['\x7d'])
  | null => chars null
  | bool b => chars (bool b)
  | number text => chars (number text)
  | string s => chars (string s)

/-- The items, each as it is written. -/
def canonicalItems : List Json → List (List Char)
  | [] => []
  | item :: items => canonicalChars item :: canonicalItems items

/-- The members, each with its value as it is written. -/
def canonicalMembers : List (String × Json) → List (String × List Char)
  | [] => []
  | (key, value) :: members => (key, canonicalChars value) :: canonicalMembers members

end

/-- `write_canonical_json`, into an empty output. -/
def writeCanonicalJson (value : Json) : List UInt8 :=
  (String.ofList value.canonicalChars).toUTF8.data.toList

/-- No object has a key twice. -/
inductive UniqueKeys : Json → Prop
  | null : UniqueKeys .null
  | bool (b : Bool) : UniqueKeys (.bool b)
  | number (text : String) : UniqueKeys (.number text)
  | string (s : String) : UniqueKeys (.string s)
  | array {items : List Json} (h : ∀ item ∈ items, UniqueKeys item) : UniqueKeys (.array items)
  | object {members : List (String × Json)} (hkeys : (SortedMap.keys members).Nodup)
      (h : ∀ member ∈ members, UniqueKeys member.2) : UniqueKeys (.object members)

end Json

/-- A value that `serde_json` holds: no object has a key twice, and a number shows as JSON
writes numbers. -/
structure SchemaValue where
  json : Json
  unique : json.UniqueKeys
  numbers : json.NumbersOk

/-- What the verification of the schema takes from elsewhere. -/
structure SchemaEnv where
  /-- `serde_json::from_slice`. -/
  fromSlice : List UInt8 → Except String SchemaValue
  /-- `hash_bytes`: SHA-256, in hexadecimal digits. -/
  hashBytes : List UInt8 → String

/-- `canonical_json_sha256`. -/
def canonicalJsonSha256 (env : SchemaEnv) (bytes : List UInt8) : Result String :=
  match env.fromSlice bytes with
  | .error error =>
      .error (Error.new .runtimeVerification "runtime.schema"
        ("embedded protocol schema is invalid JSON: " ++ error))
  | .ok value => .ok (env.hashBytes value.json.writeCanonicalJson)

end Vergerail
