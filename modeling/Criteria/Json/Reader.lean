import Criteria.Json.Number
import Criteria.Json.StringReader

set_option autoImplicit false

/-
Reading JSON text. A reader takes characters off the front of a text. Arrays and
objects nest as deep as a budget allows; the limit for a whole text is 127.
-/
namespace Criteria.Json

abbrev Reader (α : Type) := List Char → Except Fault (α × List Char)

/-- The nesting that a text may have. -/
def nestingLimit : Nat := 127

def isBlank (c : Char) : Bool := c == ' ' || c == '\n' || c == '\r' || c == '\t'

def skipBlanks (cs : List Char) : List Char := cs.dropWhile isBlank

/-- The remaining characters of a word whose first has been read. -/
def readWord {α : Type} (value : α) : List Char → Reader α
  | [], cs => .ok (value, cs)
  | _ :: _, [] => Fault.before .endInValue []
  | w :: word, c :: rest =>
    if w = c then readWord value word rest else Fault.inside .expectedIdent (c :: rest)

def readNull : Reader Unit := readWord () ['u', 'l', 'l']

def readTrue : Reader Bool := readWord true ['r', 'u', 'e']

def readFalse : Reader Bool := readWord false ['a', 'l', 's', 'e']

/-- Whether an array goes on, and from where. -/
def nextItem (first : Bool) (cs : List Char) : Except Fault (Bool × List Char) :=
  match skipBlanks cs with
  | [] => Fault.before .endInList []
  | c :: rest =>
    if c = ']' then .ok (false, c :: rest)
    else if first then .ok (true, c :: rest)
    else if c = ',' then
      match skipBlanks rest with
      | [] => Fault.before .endInValue []
      | d :: rest =>
        if d = ']' then Fault.inside .trailingComma (d :: rest) else .ok (true, d :: rest)
    else Fault.inside .expectedCommaOrListEnd (c :: rest)

/-- Reads the bracket that ends an array. -/
def closeArray (cs : List Char) : Except Fault (List Char) :=
  match skipBlanks cs with
  | [] => Fault.before .endInList []
  | c :: rest =>
    if c = ']' then .ok rest
    else if c = ',' then
      match skipBlanks rest with
      | ']' :: more => Fault.inside .trailingComma (']' :: more)
      | more => Fault.inside .trailingCharacters more
    else Fault.inside .trailingCharacters (c :: rest)

/-- Whether an object goes on, and from behind the quote of the next name. -/
def nextMember (first : Bool) (cs : List Char) : Except Fault (Bool × List Char) :=
  let name (cs : List Char) : Except Fault (Bool × List Char) := match cs with
    | '"' :: rest => .ok (true, rest)
    | cs => Fault.inside .keyNotString cs
  match skipBlanks cs with
  | [] => Fault.before .endInObject []
  | c :: rest =>
    if c = '}' then .ok (false, c :: rest)
    else if first then name (c :: rest)
    else if c = ',' then
      match skipBlanks rest with
      | [] => Fault.before .endInValue []
      | '}' :: rest => Fault.inside .trailingComma ('}' :: rest)
      | cs => name cs
    else Fault.inside .expectedCommaOrObjectEnd (c :: rest)

/-- Reads the brace that ends an object. -/
def closeObject (cs : List Char) : Except Fault (List Char) :=
  match skipBlanks cs with
  | [] => Fault.before .endInObject []
  | c :: rest =>
    if c = '}' then .ok rest
    else if c = ',' then Fault.inside .trailingComma (c :: rest)
    else Fault.inside .trailingCharacters (c :: rest)

/-- Reads the colon between a name and its value. -/
def readColon (cs : List Char) : Except Fault (List Char) :=
  match skipBlanks cs with
  | [] => Fault.before .endInObject []
  | c :: rest => if c = ':' then .ok rest else Fault.inside .expectedColon (c :: rest)

/-- The items of an array from behind its bracket, up to the closing bracket. Each
takes a character, so that the length of the text is fuel enough. -/
def readItems {α : Type} (item : Reader α) : Nat → Bool → Reader (List α)
  | 0, _, cs => Fault.before .endInList cs
  | fuel + 1, first, cs => do
    let (more, cs) ← nextItem first cs
    if more then
      let (a, cs) ← item cs
      let (as, cs) ← readItems item fuel false cs
      return (a :: as, cs)
    else return ([], cs)

/-- The members of an object from behind its brace, up to the closing brace. -/
def readMembers {α : Type} (value : Reader α) : Nat → Bool → Reader (List (String × α))
  | 0, _, cs => Fault.before .endInObject cs
  | fuel + 1, first, cs => do
    let (more, cs) ← nextMember first cs
    if more then
      let (name, cs) ← readString cs
      let cs ← readColon cs
      let (a, cs) ← value cs
      let (as, cs) ← readMembers value fuel false cs
      return ((String.ofList name, a) :: as, cs)
    else return ([], cs)

/-- A value, with arrays and objects nested as deep as the budget allows. -/
def readValue (fuel : Nat) : Nat → Reader Json
  | budget, cs =>
    match skipBlanks cs with
    | [] => Fault.before .endInValue []
    | 'n' :: rest => do
      let (_, rest) ← readNull rest
      return (.null, rest)
    | 't' :: rest => do
      let (b, rest) ← readTrue rest
      return (.bool b, rest)
    | 'f' :: rest => do
      let (b, rest) ← readFalse rest
      return (.bool b, rest)
    | '-' :: rest => do
      let (n, rest) ← JsonNumber.read true rest
      return (.number n, rest)
    | '"' :: rest => do
      let (s, rest) ← readString rest
      return (.string (String.ofList s), rest)
    | '[' :: rest =>
      match budget with
      | 0 => Fault.inside .recursionLimit ('[' :: rest)
      | budget + 1 => do
        let (items, rest) ← readItems (readValue fuel budget) fuel true rest
        return (.array items, ← closeArray rest)
    | '{' :: rest =>
      match budget with
      | 0 => Fault.inside .recursionLimit ('{' :: rest)
      | budget + 1 => do
        let (members, rest) ← readMembers (readValue fuel budget) fuel true rest
        return (.object members, ← closeObject rest)
    | c :: rest =>
      if c.isDigit then do
        let (n, rest) ← JsonNumber.read false (c :: rest)
        return (.number n, rest)
      else Fault.inside .expectedValue (c :: rest)

/-- Runs a reader on a whole text, behind which only blanks may follow. The reader
gets the fuel and the budget for the text. -/
def readAll {α : Type} (reader : Nat → Nat → Reader α) (cs : List Char) : Except Fault α := do
  let (a, rest) ← reader (cs.length + 1) nestingLimit cs
  match skipBlanks rest with
  | [] => return a
  | rest => Fault.inside .trailingCharacters rest

end Criteria.Json
