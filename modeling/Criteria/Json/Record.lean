import Criteria.Json.Skip

set_option autoImplicit false

/-
Reading typed data straight from JSON text: words from a list, lists, and records,
which are written as an object or as an array of their members in order. Where a value
is of the wrong kind, the fault lies behind it; where a whole record or list is at
fault, behind its end.
-/
namespace Criteria.Json

/-- The fault of a value that is none of the expected kind. -/
def wrongKind {α : Type} (expected : String) (cs : List Char) : Except Fault α :=
  match cs with
  | [] => Fault.inside .expectedValue []
  | 'n' :: rest => do
    let (_, rest) ← readNull rest
    Fault.before (.wrongType .null expected) rest
  | 't' :: rest => do
    let (b, rest) ← readTrue rest
    Fault.before (.wrongType (.bool b) expected) rest
  | 'f' :: rest => do
    let (b, rest) ← readFalse rest
    Fault.before (.wrongType (.bool b) expected) rest
  | '-' :: rest => do
    let (n, rest) ← JsonNumber.read true rest
    Fault.before (.wrongType (.number n) expected) rest
  | '"' :: rest => do
    let (s, rest) ← readString rest
    Fault.before (.wrongType (.string (String.ofList s)) expected) rest
  | '[' :: _ => Fault.before (.wrongType .sequence expected) cs
  | '{' :: _ => Fault.before (.wrongType .map expected) cs
  | c :: _ =>
    if c.isDigit then do
      let (n, rest) ← JsonNumber.read false cs
      Fault.before (.wrongType (.number n) expected) rest
    else Fault.inside .expectedValue cs

def readText (expected : String) : Reader String := fun cs =>
  match skipBlanks cs with
  | [] => Fault.before .endInValue []
  | '"' :: rest => do
    let (s, rest) ← readString rest
    return (String.ofList s, rest)
  | cs => wrongKind expected cs

def readFlag : Reader Bool := fun cs =>
  match skipBlanks cs with
  | [] => Fault.before .endInValue []
  | 't' :: rest => readTrue rest
  | 'f' :: rest => readFalse rest
  | cs => wrongKind "a boolean" cs

def readUnit : Reader Unit := fun cs =>
  match skipBlanks cs with
  | [] => Fault.before .endInValue []
  | 'n' :: rest => readNull rest
  | cs => wrongKind "unit" cs

/-- A null, or a value. -/
def readOption {α : Type} (reader : Reader α) : Reader (Option α) := fun cs =>
  match skipBlanks cs with
  | 'n' :: rest => do
    let (_, rest) ← readNull rest
    return (none, rest)
  | cs => do
    let (a, rest) ← reader cs
    return (some a, rest)

/-- A named constant: its name, or an object that maps its name to null. -/
def readNamed {α : Type} (known : List String) (ofName? : String → Option α) (budget : Nat) :
    Reader α := fun cs =>
  let name : Reader α := fun cs => do
    let (name, rest) ← readText "variant identifier" cs
    match ofName? name with
    | some a => return (a, rest)
    | none => Fault.before (.unknownVariant name known) rest
  match skipBlanks cs with
  | [] => Fault.before .endInValue []
  | '"' :: rest => name ('"' :: rest)
  | '{' :: rest =>
    if budget = 0 then Fault.inside .recursionLimit ('{' :: rest)
    else do
      let (a, rest) ← name rest
      let (_, rest) ← readUnit (← readColon rest)
      match skipBlanks rest with
      | [] => Fault.before .endInObject []
      | '}' :: rest => return (a, rest)
      | rest => Fault.before .expectedValue rest
  | cs => Fault.inside .expectedValue cs

/-- What is left behind the end of an array, as far as there is one. -/
def behindArray (cs : List Char) : List Char :=
  match skipBlanks cs with
  | ']' :: rest => rest
  | ',' :: rest => skipBlanks rest
  | cs => cs

/-- What is left behind the end of an object, as far as there is one. -/
def behindObject (cs : List Char) : List Char :=
  match skipBlanks cs with
  | '}' :: rest => rest
  | cs => cs

/-- Ends an array or object whose parts were read. -/
def finish {α : Type} (close : List Char → Except Fault (List Char))
    (behind : List Char → List Char) : Except Fault (α × List Char) → Except Fault (α × List Char)
  | .ok (a, cs) => do return (a, ← close cs)
  | .error fault => .error (fault.settle behind)

def readList {α : Type} (item : Nat → Reader α) (fuel budget : Nat) : Reader (List α) := fun cs =>
  match skipBlanks cs with
  | [] => Fault.before .endInValue []
  | '[' :: rest =>
    match budget with
    | 0 => Fault.inside .recursionLimit ('[' :: rest)
    | budget + 1 => finish closeArray behindArray (readItems (item budget) fuel true rest)
  | cs => wrongKind "a sequence" cs

/-- A value of a type that is told by its shape. -/
def readShaped {α : Type} (type : String) (ofJson? : Json → Option α) (fuel budget : Nat) :
    Reader α := fun cs => do
  let (j, rest) ← readValue fuel budget cs
  match ofJson? j with
  | some a => return (a, rest)
  | none => Fault.floating (.noVariant type) rest

/-- A member of a record that is read in parts of type `σ`. -/
structure Member (σ : Type) where
  name : String
  isSet : σ → Bool
  /-- Reads the member, with fuel and a budget. -/
  read : Nat → Nat → σ → Reader σ

/-- How a record is read. -/
structure Record (σ α : Type) where
  type : String
  members : List (Member σ)
  start : σ
  /-- The record, or the first member that is missing. -/
  complete : σ → Except Nat α

namespace Record

variable {σ α : Type}

/-- The record type as messages name it. -/
def title (record : Record σ α) : String := "struct " ++ record.type

def lengthTitle (record : Record σ α) : String :=
  record.title ++ " with " ++ toString record.members.length ++
    if record.members.length = 1 then " element" else " elements"

/-- The members in order, as many as there are. -/
def readItems (fuel budget : Nat) : List (Member σ) → Bool → σ → Reader σ
  | [], _, parts, cs => .ok (parts, cs)
  | member :: more, first, parts, cs => do
    let (goesOn, cs) ← nextItem first cs
    if goesOn then
      let (parts, cs) ← member.read fuel budget parts cs
      readItems fuel budget more false parts cs
    else return (parts, cs)

/-- The members by name, others passed over. -/
def readMembers (members : List (Member σ)) (budget : Nat) (whole : Nat) :
    Nat → Bool → σ → Reader σ
  | 0, _, _, cs => Fault.before .endInObject cs
  | fuel + 1, first, parts, cs => do
    let (goesOn, cs) ← nextMember first cs
    if goesOn then
      let (name, cs) ← readString cs
      match members.find? (·.name == String.ofList name) with
      | none =>
        let cs ← skipValue whole (← readColon cs)
        readMembers members budget whole fuel false parts cs
      | some member =>
        if member.isSet parts then Fault.floating (.repeatedMember member.name) cs
        else
          let (parts, cs) ← member.read whole budget parts (← readColon cs)
          readMembers members budget whole fuel false parts cs
    else return (parts, cs)

def completeItems (record : Record σ α) (parts : σ) : Reader α := fun cs =>
  match record.complete parts with
  | .ok a => .ok (a, cs)
  | .error index => Fault.floating (.wrongLength index record.lengthTitle) cs

def completeMembers (record : Record σ α) (parts : σ) : Reader α := fun cs =>
  match record.complete parts with
  | .ok a => .ok (a, cs)
  | .error index =>
    let name := match record.members[index]? with
      | some member => member.name
      | none => ""
    Fault.floating (.missingMember name) cs

def read (record : Record σ α) (fuel budget : Nat) : Reader α := fun cs =>
  match skipBlanks cs with
  | [] => Fault.before .endInValue []
  | '[' :: rest =>
    match budget with
    | 0 => Fault.inside .recursionLimit ('[' :: rest)
    | budget + 1 => finish closeArray behindArray do
      let (parts, rest) ← readItems fuel budget record.members true record.start rest
      record.completeItems parts rest
  | '{' :: rest =>
    match budget with
    | 0 => Fault.inside .recursionLimit ('{' :: rest)
    | budget + 1 => finish closeObject behindObject do
      let (parts, rest) ← readMembers record.members budget fuel fuel true record.start rest
      record.completeMembers parts rest
  | cs => wrongKind record.title cs

end Record
end Criteria.Json
