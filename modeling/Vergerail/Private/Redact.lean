import Vergerail.Client.Start
import Vergerail.Lib.CharBoundary

/-!
# Redacting what the child writes to its standard error

`src/private/redact.rs`. The passes of the source search a lower-case copy of their input
and keep a byte index into both; the copy differs only in ASCII letters, so here the search
compares the small letters of what is left of the input. What the source compares byte by
byte are ASCII characters, which in UTF-8 are no part of any other character.
-/

namespace Vergerail

open Lib

/-- `REDACTED`. -/
def redactedText : String := "<redacted>"

/-- `SENSITIVE_KEYS`. -/
def sensitiveKeys : List String :=
  ["access_token", "authorization", "client_secret", "code_verifier", "cookie", "id_token",
    "openai_api_key", "password", "refresh_token", "secret", "set-cookie", "token"]

/-! ## The passes -/

/-- The text up to and including the first occurrence of the needle, and the rest. -/
def splitAfterNeedle (needle : List Char) : List Char → Option (List Char × List Char)
  | [] => none
  | c :: cs =>
    if needle.isPrefixOf ((c :: cs).map Char.toLower) then
      some ((c :: cs).take needle.length, (c :: cs).drop needle.length)
    else (splitAfterNeedle needle cs).map (fun p => (c :: p.1, p.2))

/-- The loop that `redact_assignment`, `redact_header_value` and `redact_bearer_tokens` have
in common; a pass consumes the needle at least. -/
def redactAfterNeedle (needle : List Char) (skips stops : Char → Bool) :
    Nat → List Char → List Char
  | 0, input => input
  | passes + 1, input =>
    match splitAfterNeedle needle input with
    | none => input
    | some (before, rest) =>
        before ++ rest.takeWhile skips ++ redactedText.toList ++
          redactAfterNeedle needle skips stops passes
            ((rest.dropWhile skips).dropWhile (fun c => !stops c))

/-- What ends an assigned value. -/
def endsAssignment (c : Char) : Bool := charIsWhitespace c || c == '&' || c == ';'

/-- `redact_assignment`. -/
def redactAssignment (input key : String) : String :=
  String.ofList (redactAfterNeedle (key ++ "=").toList (fun _ => false) endsAssignment
    input.length input.toList)

/-- What ends a header value. -/
def endsHeader (c : Char) : Bool := c == ',' || c == '\r' || c == '\n'

/-- `redact_header_value`. -/
def redactHeaderValue (input key : String) : String :=
  String.ofList (redactAfterNeedle (key ++ ":").toList charIsWhitespace endsHeader
    input.length input.toList)

/-- What ends a bearer token. -/
def endsBearer (c : Char) : Bool := charIsWhitespace c || c == ',' || c == '"'

/-- `redact_bearer_tokens`. -/
def redactBearerTokens (input : String) : String :=
  String.ofList (redactAfterNeedle "bearer ".toList (fun _ => false) endsBearer
    input.length input.toList)

/-- `u8::is_ascii_whitespace`. -/
def isAsciiWhitespace (c : Char) : Bool := [' ', '\t', '\n', '\x0c', '\r'].contains c

/-- `find_json_string_end`: the rest from the closing quote on. -/
def findJsonStringEnd : Bool → List Char → Option (List Char)
  | _, [] => none
  | escaped, c :: cs =>
    if c = '\\' ∧ !escaped then findJsonStringEnd true cs
    else if c = '"' ∧ !escaped then some (c :: cs)
    else findJsonStringEnd false cs

/-- The loop of `redact_json_value`; a pass consumes the quoted key at least. -/
def redactJsonChars (quotedKey : List Char) : Nat → List Char → List Char
  | 0, input => input
  | passes + 1, input =>
    match splitAfterNeedle quotedKey input with
    | none => input
    | some (before, rest) =>
      let copied := before ++ rest.takeWhile isAsciiWhitespace
      match rest.dropWhile isAsciiWhitespace with
      | ':' :: rest =>
        let copied := copied ++ ':' :: rest.takeWhile isAsciiWhitespace
        match rest.dropWhile isAsciiWhitespace with
        | '"' :: value =>
          match findJsonStringEnd false value with
          | none => input
          | some rest =>
              copied ++ '"' :: redactedText.toList ++ redactJsonChars quotedKey passes rest
        | rest => copied ++ redactJsonChars quotedKey passes rest
      | rest => copied ++ redactJsonChars quotedKey passes rest

/-- `redact_json_value`. -/
def redactJsonValue (input key : String) : String :=
  String.ofList (redactJsonChars ("\"" ++ key ++ "\"").toList input.length input.toList)

/-- What is done for a key. -/
def redactKey (redacted key : String) : String :=
  redactHeaderValue (redactJsonValue (redactAssignment redacted key) key) key

/-- `redact_line`. -/
def redactLine (line : String) : String := redactBearerTokens (sensitiveKeys.foldl redactKey line)

/-! ## The ring -/

/-- `utf8_suffix`. The search for a boundary ends with the text. -/
def utf8Suffix (input : String) (maxBytes : Nat) : String :=
  if input.utf8ByteSize ≤ maxBytes then input
  else
    let start := boundaryAbove input.toList maxBytes (input.utf8ByteSize - maxBytes)
    String.ofList (dropBytes input.toList start)

/-- `StderrRing`. The strings are in memory together, so the saturating sums of the source
are written as plain ones. -/
structure StderrRing where
  capacity : Nat
  bytes : Nat
  lines : List String
  deriving DecidableEq, Repr

namespace StderrRing

def new (capacity : Nat) : StderrRing where
  capacity
  bytes := 0
  lines := []

/-- The loop of `push` that removes lines from the front. -/
def evict (capacity cost : Nat) : Nat → List String → Nat × List String
  | bytes, [] => (bytes, [])
  | bytes, removed :: lines =>
    if bytes + cost > capacity then
      let bytes := bytes - removed.utf8ByteSize
      let bytes := if !lines.isEmpty then bytes - 1 else bytes
      evict capacity cost bytes lines
    else (bytes, removed :: lines)

def push (self : StderrRing) (line : String) : StderrRing :=
  if self.capacity = 0 then self
  else
    let line := redactLine line
    let line := if line.utf8ByteSize > self.capacity then utf8Suffix line self.capacity else line
    let cost := line.utf8ByteSize + if !self.lines.isEmpty then 1 else 0
    let (bytes, lines) := evict self.capacity cost self.bytes self.lines
    let bytes := if !lines.isEmpty then bytes + 1 else bytes
    { self with bytes := bytes + line.utf8ByteSize, lines := lines ++ [line] }

def tail (self : StderrRing) : Option String :=
  if !self.lines.isEmpty then some ("\n".intercalate self.lines) else none

end StderrRing

end Vergerail
