import Criteria.Json.Record
import Criteria.Value

set_option autoImplicit false

/-
Values as JSON. A date is an object with one member, an absent value is null, and
the kind of a value is told by the shape of its JSON.
-/
namespace Criteria

/-- What a name stands for among the members of an object: nothing, one value, or
`none` when the name is repeated. -/
def Json.member? (name : String) (members : List (String × Json)) : Option (Option Json) :=
  match members.filter (·.1 == name) with
  | [] => some none
  | [(_, j)] => some (some j)
  | _ => none

def Json.text? : Json → Option String
  | .string s => some s
  | _ => none

namespace Value

mutual

def toJson : Value → Json
  | .boolean b => .bool b
  | .number n => .ofBinary64 n
  | .text s => .string s
  | .list items => .array (toJsons items)
  | .date written => .object [("date", .string written)]
  | .absent => .null

def toJsons : List Value → List Json
  | [] => []
  | value :: more => value.toJson :: toJsons more

end

mutual

def ofJson? : Json → Option Value
  | .null => some .absent
  | .bool b => some (.boolean b)
  | .number n => some (.number n.toBinary64)
  | .string s => some (.text s)
  | .array items => (ofJsons? items).map .list
  | .object members => do
    let written ← (← Json.member? "date" members).bind Json.text?
    return .date written

def ofJsons? : List Json → Option (List Value)
  | [] => some []
  | j :: more => do return (← ofJson? j) :: (← ofJsons? more)

end

/-- A value in JSON text. -/
def read (fuel budget : Nat) : Json.Reader Value := Json.readShaped "FilterValue" ofJson? fuel budget

/-- A date in JSON text as a record by itself. -/
def dateRecord : Json.Record (Option String) String where
  type := "DateValue"
  members := [
    { name := "date"
      isSet := Option.isSome
      read := fun _ _ _ cs => do
        let (s, rest) ← Json.readText "a string" cs
        return (some s, rest) }]
  start := none
  complete
    | some s => .ok s
    | none => .error 0

end Value
end Criteria
