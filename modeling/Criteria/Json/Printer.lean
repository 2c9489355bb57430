import Criteria.Json

set_option autoImplicit false

/- JSON text without blanks, and spread over lines. -/
namespace Criteria.Json

/-- A character of a string. Only quotes, backslashes and control characters
are escaped. -/
def escapeChar (c : Char) : List Char :=
  if c = '"' then ['\\', '"']
  else if c = '\\' then ['\\', '\\']
  else if c = '\x08' then ['\\', 'b']
  else if c = '\x0c' then ['\\', 'f']
  else if c = '\n' then ['\\', 'n']
  else if c = '\r' then ['\\', 'r']
  else if c = '\t' then ['\\', 't']
  else if c.toNat < 32 then
    ['\\', 'u', '0', '0', Nat.digitChar (c.toNat / 16), Nat.digitChar (c.toNat % 16)]
  else [c]

def quoted (s : String) : List Char := '"' :: (s.toList.flatMap escapeChar ++ ['"'])

mutual

/-- The text without blanks. -/
def chars : Json → List Char
  | .null => ['n', 'u', 'l', 'l']
  | .bool true => ['t', 'r', 'u', 'e']
  | .bool false => ['f', 'a', 'l', 's', 'e']
  | .number n => n.chars
  | .string s => quoted s
  | .array [] => ['[', ']']
  | .array (item :: more) => '[' :: (item.chars ++ (charsOfItems more ++ [']']))
  | .object [] => ['{', '}']
  | .object ((name, value) :: more) =>
    '{' :: (quoted name ++ ':' :: (value.chars ++ (charsOfMembers more ++ ['}'])))

/-- The items after the first, each behind a comma. -/
def charsOfItems : List Json → List Char
  | [] => []
  | item :: more => ',' :: (item.chars ++ charsOfItems more)

/-- The members after the first, each behind a comma. -/
def charsOfMembers : List (String × Json) → List Char
  | [] => []
  | (name, value) :: more => ',' :: (quoted name ++ ':' :: (value.chars ++ charsOfMembers more))

end

/-- The JSON text of a value. -/
def text (j : Json) : String := String.ofList j.chars

/-- A new line, indented by two blanks a level. -/
def newLine (level : Nat) : List Char := '\n' :: List.replicate (2 * level) ' '

mutual

/-- The text with every item and member on a line of its own. -/
def prettyChars (level : Nat) : Json → List Char
  | .array [] => ['[', ']']
  | .array (item :: more) =>
    '[' :: (newLine (level + 1) ++ (item.prettyChars (level + 1) ++
      (prettyItems (level + 1) more ++ (newLine level ++ [']']))))
  | .object [] => ['{', '}']
  | .object ((name, value) :: more) =>
    '{' :: (newLine (level + 1) ++ (quoted name ++ ':' :: ' ' ::
      (value.prettyChars (level + 1) ++ (prettyMembers (level + 1) more ++
        (newLine level ++ ['}'])))))
  | .null => chars .null
  | .bool b => chars (.bool b)
  | .number n => n.chars
  | .string s => quoted s

def prettyItems (level : Nat) : List Json → List Char
  | [] => []
  | item :: more => ',' :: (newLine level ++ (item.prettyChars level ++ prettyItems level more))

def prettyMembers (level : Nat) : List (String × Json) → List Char
  | [] => []
  | (name, value) :: more =>
    ',' :: (newLine level ++ (quoted name ++ ':' :: ' ' ::
      (value.prettyChars level ++ prettyMembers level more)))

end

def pretty (j : Json) : String := String.ofList (j.prettyChars 0)

end Criteria.Json
