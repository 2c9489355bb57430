import Criteria.Json.Reader

set_option autoImplicit false

/-
Passing over values that nobody asks for. They may nest without limit, halves of
pairs in strings may stand alone, and numbers may have any size.
-/
namespace Criteria.Json

/-- What a value that is being passed over stands in. -/
inductive Enclosing where
  | array | object

/-- How many characters an escape takes behind its backslash. -/
def escapeLength : List Char → Except Fault Nat
  | 'u' :: digits => do
    let _ ← readHex digits
    return 5
  | cs => do return (← readEscape cs).2

/-- Passes over a string from behind its opening quote. -/
def skipString (cs : List Char) : Except Fault (List Char) :=
  match cs with
  | [] => Fault.before .endInString []
  | c :: rest =>
    if c = '"' then .ok rest
    else if c = '\\' then do
      let count ← escapeLength rest
      skipString (rest.drop count)
    else if c.toNat < 32 then Fault.before .controlCharacter (c :: rest)
    else skipString rest
termination_by cs.length
decreasing_by
  · simp only [List.length_cons, List.length_drop]
    omega
  · simp

def skipExponent (cs : List Char) : Except Fault (List Char) :=
  let cs := match cs with
    | '+' :: rest => rest
    | '-' :: rest => rest
    | cs => cs
  if cs.head?.any Char.isDigit then .ok (cs.dropWhile Char.isDigit)
  else Fault.inside .invalidNumber cs

def skipFraction : List Char → Except Fault (List Char)
  | '.' :: rest =>
    if rest.head?.any Char.isDigit then
      match rest.dropWhile Char.isDigit with
      | 'e' :: rest => skipExponent rest
      | 'E' :: rest => skipExponent rest
      | rest => .ok rest
    else Fault.inside .invalidNumber rest
  | 'e' :: rest => skipExponent rest
  | 'E' :: rest => skipExponent rest
  | rest => .ok rest

/-- Passes over a number behind its sign. -/
def skipNumber : List Char → Except Fault (List Char)
  | '0' :: rest =>
    if rest.head?.any Char.isDigit then Fault.inside .invalidNumber rest else skipFraction rest
  | cs =>
    if cs.head?.any Char.isDigit then skipFraction (cs.dropWhile Char.isDigit)
    else Fault.inside .invalidNumber cs

/-- Passes over a value without parts, or opens one with parts. -/
def skipStart (cs : List Char) : Except Fault (Option Enclosing × List Char) :=
  match skipBlanks cs with
  | [] => Fault.before .endInValue []
  | 'n' :: rest => do return (none, (← readNull rest).2)
  | 't' :: rest => do return (none, (← readTrue rest).2)
  | 'f' :: rest => do return (none, (← readFalse rest).2)
  | '-' :: rest => do return (none, ← skipNumber rest)
  | '"' :: rest => do return (none, ← skipString rest)
  | '[' :: rest => .ok (some .array, rest)
  | '{' :: rest => .ok (some .object, rest)
  | c :: rest => do
    if c.isDigit then return (none, ← skipNumber (c :: rest))
    else Fault.inside .expectedValue (c :: rest)

/-- Closes what ends, up to where the next value stands in something still open. -/
def skipEnds (behindValue : Bool) : List Enclosing → List Char →
    Except Fault (List Enclosing × List Char)
  | [], cs => .ok ([], cs)
  | top :: below, cs =>
    match top, skipBlanks cs with
    | .array, [] => Fault.before .endInList []
    | .object, [] => Fault.before .endInObject []
    | .array, ']' :: rest => skipEnds true below rest
    | .object, '}' :: rest => skipEnds true below rest
    | top, c :: rest =>
      if !behindValue then .ok (top :: below, c :: rest)
      else if c = ',' then .ok (top :: below, rest)
      else match top with
        | .array => Fault.inside .expectedCommaOrListEnd (c :: rest)
        | .object => Fault.inside .expectedCommaOrObjectEnd (c :: rest)

/-- Passes over the name and colon of a member. -/
def skipName (cs : List Char) : Except Fault (List Char) :=
  match skipBlanks cs with
  | [] => Fault.before .endInObject []
  | '"' :: rest => do readColon (← skipString rest)
  | cs => Fault.inside .keyNotString cs

/-- Passes over values until nothing is open. -/
def skipOpen : Nat → List Enclosing → List Char → Except Fault (List Char)
  | 0, _, cs => Fault.before .endInValue cs
  | fuel + 1, stack, cs => do
    let (opened, cs) ← skipStart cs
    let (stack, cs) ← match opened with
      | some top => skipEnds false (top :: stack) cs
      | none => skipEnds true stack cs
    match stack with
    | [] => return cs
    | .array :: _ => skipOpen fuel stack cs
    | .object :: _ => skipOpen fuel stack (← skipName cs)

/-- Passes over one value. -/
def skipValue (fuel : Nat) (cs : List Char) : Except Fault (List Char) := skipOpen fuel [] cs

end Criteria.Json
