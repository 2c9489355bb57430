import Criteria.Json
import Criteria.Text.Quoted

set_option autoImplicit false

/-
What can be wrong with a JSON text, and where. Places are lines from 1 and columns
in bytes; a place that is noticed before a character is read lies behind its first
byte.
-/
namespace Criteria.Json

/-- A value that turned up where another kind was due. -/
inductive Found where
  | null
  | bool (b : Bool)
  | number (n : JsonNumber)
  | string (s : String)
  | sequence
  | map

inductive Cause where
  | endInList | endInObject | endInString | endInValue
  | expectedColon | expectedCommaOrListEnd | expectedCommaOrObjectEnd
  | expectedIdent | expectedValue
  | invalidEscape | invalidNumber | numberOutOfRange
  | controlCharacter | keyNotString | loneSurrogate | endOfHexEscape
  | trailingComma | trailingCharacters | recursionLimit
  | wrongType (found : Found) (expected : String)
  | unknownVariant (name : String) (known : List String)
  | missingMember (name : String)
  | repeatedMember (name : String)
  | wrongLength (length : Nat) (expected : String)
  | noVariant (type : String)

/-- A number or word between backquotes. -/
def ticked (text : String) : String := "`" ++ text ++ "`"

def Found.describe : Found → String
  | .null => "null"
  | .bool b => "boolean " ++ ticked (if b then "true" else "false")
  | .number (.double sign m) =>
    "floating point " ++ ticked (String.ofList (JsonNumber.double sign m).chars)
  | .number n => "integer " ++ ticked (String.ofList n.chars)
  | .string s => "string " ++ Text.quoted s
  | .sequence => "sequence"
  | .map => "map"

def alternatives : List String → String
  | [] => "there are no variants"
  | [a] => "expected " ++ ticked a
  | [a, b] => "expected " ++ ticked a ++ " or " ++ ticked b
  | many => "expected one of " ++ String.intercalate ", " (many.map ticked)

def Cause.message : Cause → String
  | .endInList => "EOF while parsing a list"
  | .endInObject => "EOF while parsing an object"
  | .endInString => "EOF while parsing a string"
  | .endInValue => "EOF while parsing a value"
  | .expectedColon => "expected `:`"
  | .expectedCommaOrListEnd => "expected `,` or `]`"
  | .expectedCommaOrObjectEnd => "expected `,` or `\x7d`"
  | .expectedIdent => "expected ident"
  | .expectedValue => "expected value"
  | .invalidEscape => "invalid escape"
  | .invalidNumber => "invalid number"
  | .numberOutOfRange => "number out of range"
  | .controlCharacter => "control character (\\u0000-\\u001F) found while parsing a string"
  | .keyNotString => "key must be a string"
  | .loneSurrogate => "lone leading surrogate in hex escape"
  | .endOfHexEscape => "unexpected end of hex escape"
  | .trailingComma => "trailing comma"
  | .trailingCharacters => "trailing characters"
  | .recursionLimit => "recursion limit exceeded"
  | .wrongType found expected => "invalid type: " ++ found.describe ++ ", expected " ++ expected
  | .unknownVariant name known => "unknown variant " ++ ticked name ++ ", " ++ alternatives known
  | .missingMember name => "missing field " ++ ticked name
  | .repeatedMember name => "duplicate field " ++ ticked name
  | .wrongLength length expected =>
    "invalid length " ++ toString length ++ ", expected " ++ expected
  | .noVariant type => "data did not match any variant of untagged enum " ++ type

/-- How many bytes the characters take. -/
def byteLength (cs : List Char) : Nat := cs.foldl (fun n c => n + c.utf8Size) 0

/-- A cause, the bytes that were left at its place once that is settled, and what
was left to read. -/
structure Fault where
  cause : Cause
  bytesLeft : Option Nat
  rest : List Char

namespace Fault

/-- A fault at a place that the given characters follow. -/
def before {α : Type} (cause : Cause) (rest : List Char) : Except Fault α :=
  .error ⟨cause, some (byteLength rest), rest⟩

/-- A fault behind the first byte of what is left, or at the end. -/
def inside {α : Type} (cause : Cause) (rest : List Char) : Except Fault α :=
  .error ⟨cause, some (byteLength rest - 1), rest⟩

/-- A fault whose place the enclosing value will settle. -/
def floating {α : Type} (cause : Cause) (rest : List Char) : Except Fault α :=
  .error ⟨cause, none, rest⟩

/-- Settles the place of a fault behind what `close` takes off the rest. -/
def settle (close : List Char → List Char) (fault : Fault) : Fault :=
  match fault.bytesLeft with
  | some _ => fault
  | none => { fault with bytesLeft := some (byteLength (close fault.rest)) }

end Fault

/-- The line and column after the first bytes of a text. -/
def position (line column bytes : Nat) : List Char → Nat × Nat
  | [] => (line, column)
  | c :: rest =>
    if bytes = 0 then (line, column)
    else if c = '\n' then position (line + 1) 0 (bytes - 1) rest
    else position line (column + min bytes c.utf8Size) (bytes - c.utf8Size) rest

/-- The message for a fault in a text, with its place if it has one. -/
def Fault.message (text : List Char) (fault : Fault) : String :=
  match fault.bytesLeft with
  | none => fault.cause.message
  | some left =>
    let (line, column) := position 1 0 (byteLength text - left) text
    fault.cause.message ++ " at line " ++ toString line ++ " column " ++ toString column

end Criteria.Json
