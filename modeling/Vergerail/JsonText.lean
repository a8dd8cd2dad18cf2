import Vergerail.Json

/-!
# JSON texts

`serde_json::to_string` of a value: compact, with members in their order and with the
escapes that `serde_json` writes.
-/

namespace Vergerail

namespace Json

/-- A hexadecimal digit, in lower case. -/
def hexDigit (n : Nat) : Char := "0123456789abcdef".toList.getD n '0'

/-- A character inside a string literal. -/
def escapeChar (c : Char) : List Char :=
  if c = '"' then ['\\', '"']
  else if c = '\\' then ['\\', '\\']
  else if c = '\n' then ['\\', 'n']
  else if c = '\r' then ['\\', 'r']
  else if c = '\t' then ['\\', 't']
  else if c.toNat = 8 then ['\\', 'b']
  else if c.toNat = 12 then ['\\', 'f']
  else if c.toNat < 0x20 then
    ['\\', 'u', '0', '0', hexDigit (c.toNat / 16), hexDigit (c.toNat % 16)]
  else [c]

/-- A string literal. -/
def quoted (s : String) : List Char := '"' :: (s.toList.flatMap escapeChar ++ ['"'])

mutual

/-- The characters of a value. -/
def chars : Json → List Char
  | null => ['n', 'u', 'l', 'l']
  | bool true => ['t', 'r', 'u', 'e']
  | bool false => ['f', 'a', 'l', 's', 'e']
  | number text => text.toList
  | string s => quoted s
  | array items => '[' :: (itemsChars items ++ [']'])
  | object members => '\x7b' :: (membersChars members ++ ['\x7d'])

/-- The items of an array, with commas between them. -/
def itemsChars : List Json → List Char
  | [] => []
  | [item] => chars item
  | item :: items => chars item ++ ',' :: itemsChars items

/-- The members of an object, with commas between them. -/
def membersChars : List (String × Json) → List Char
  | [] => []
  | [(name, value)] => quoted name ++ ':' :: chars value
  | (name, value) :: members =>
      quoted name ++ ':' :: (chars value ++ ',' :: membersChars members)

end

/-- `serde_json::to_string`. -/
def toText (v : Json) : String := String.ofList v.chars

/-- `serde_json::to_vec`. -/
def toBytes (v : Json) : List UInt8 := v.toText.toUTF8.data.toList

end Json

end Vergerail
