import Criteria.Tree
import Criteria.Wire.Value

set_option autoImplicit false

/-
Filter trees as JSON. Rules and groups are records, and a node is read as a group
if it can be and else as a rule.
-/
namespace Criteria

/-- The name of a constant: a string, or the name that an object maps to null. -/
def Json.constant? : Json → Option String
  | .string s => some s
  | .object [(name, .null)] => some name
  | _ => none

def Combinator.read (budget : Nat) : Json.Reader Combinator :=
  Json.readNamed (all.map name) ofName? budget

def Operator.read (budget : Nat) : Json.Reader Operator :=
  Json.readNamed (all.map name) ofName? budget

namespace Rule

def toJson (r : Rule) : Json :=
  .object ([("id", .string r.id), ("fieldId", .string r.fieldId),
    ("operator", .string r.operator.name)] ++
      if r.value.isAbsent then [] else [("value", r.value.toJson)])

/-- The rule made of the JSON of its members. -/
def ofParts? (id fieldId operator : Json) (value : Option Json) : Option Rule := do
  return {
    id := ← id.text?
    fieldId := ← fieldId.text?
    operator := ← operator.constant?.bind Operator.ofName?
    value := ← match value with
      | none => some .absent
      | some j => Value.ofJson? j }

/-- The rule that an object describes. -/
def ofMembers? (members : List (String × Json)) : Option Rule := do
  let value ← Json.member? "value" members
  ofParts? (← ← Json.member? "id" members) (← ← Json.member? "fieldId" members)
    (← ← Json.member? "operator" members) value

/-- The members of a rule that have been read. -/
structure Parts where
  id : Option String := none
  fieldId : Option String := none
  operator : Option Operator := none
  value : Option Value := none

def record : Json.Record Parts Rule where
  type := "FilterRule"
  members := [
    { name := "id"
      isSet := fun p => p.id.isSome
      read := fun _ _ p cs => do
        let (s, rest) ← Json.readText "a string" cs
        return ({ p with id := some s }, rest) },
    { name := "fieldId"
      isSet := fun p => p.fieldId.isSome
      read := fun _ _ p cs => do
        let (s, rest) ← Json.readText "a string" cs
        return ({ p with fieldId := some s }, rest) },
    { name := "operator"
      isSet := fun p => p.operator.isSome
      read := fun _ budget p cs => do
        let (op, rest) ← Operator.read budget cs
        return ({ p with operator := some op }, rest) },
    { name := "value"
      isSet := fun p => p.value.isSome
      read := fun fuel budget p cs => do
        let (v, rest) ← Value.read fuel budget cs
        return ({ p with value := some v }, rest) }]
  start := {}
  complete p :=
    match p.id, p.fieldId, p.operator with
    | none, _, _ => .error 0
    | _, none, _ => .error 1
    | _, _, none => .error 2
    | some id, some fieldId, some operator =>
      .ok { id, fieldId, operator, value := p.value.getD .absent }

end Rule

namespace Node

mutual

def toJson : Node → Json
  | .rule r => r.toJson
  | .group id combinator children =>
    .object [("id", .string id), ("combinator", .string combinator.name),
      ("rules", .array (toJsons children))]

def toJsons : List Node → List Json
  | [] => []
  | node :: more => node.toJson :: toJsons more

end

/-- The group made of the JSON of its members and its children. -/
def groupOf? (id combinator : Json) (children : List Node) : Option Node := do
  return .group (← id.text?) (← combinator.constant?.bind Combinator.ofName?) children

mutual

/-- The node that a JSON value describes: a group, or else a rule. Both may be
written as objects or as arrays of their members. -/
def ofJson? : Json → Option Node
  | .object members =>
    (do
      let children ← match childrenIn members with
        | [] => some []
        | [children] => children
        | _ => none
      groupOf? (← ← Json.member? "id" members) (← ← Json.member? "combinator" members) children)
    <|> (Rule.ofMembers? members).map .rule
  | .array [id, combinator] => groupOf? id combinator []
  | .array [id, second, third] =>
    (do groupOf? id second (← children? third)) <|> (Rule.ofParts? id second third none).map .rule
  | .array [id, fieldId, operator, value] => (Rule.ofParts? id fieldId operator value).map .rule
  | _ => none

/-- The nodes that an array describes. -/
def children? : Json → Option (List Node)
  | .array items => ofJsons? items
  | _ => none

def ofJsons? : List Json → Option (List Node)
  | [] => some []
  | j :: more => do return (← ofJson? j) :: (← ofJsons? more)

/-- What the members with the name of the children describe. -/
def childrenIn : List (String × Json) → List (Option (List Node))
  | [] => []
  | (name, j) :: more =>
    if name == "rules" then children? j :: childrenIn more else childrenIn more

end

def read (fuel budget : Nat) : Json.Reader Node := Json.readShaped "FilterNode" ofJson? fuel budget

end Node

namespace Group

def toJson (g : Group) : Json := g.toNode.toJson

/-- The members of a group that have been read. -/
structure Parts where
  id : Option String := none
  combinator : Option Combinator := none
  children : Option (List Node) := none

def record : Json.Record Parts Group where
  type := "FilterGroup"
  members := [
    { name := "id"
      isSet := fun p => p.id.isSome
      read := fun _ _ p cs => do
        let (s, rest) ← Json.readText "a string" cs
        return ({ p with id := some s }, rest) },
    { name := "combinator"
      isSet := fun p => p.combinator.isSome
      read := fun _ budget p cs => do
        let (c, rest) ← Combinator.read budget cs
        return ({ p with combinator := some c }, rest) },
    { name := "rules"
      isSet := fun p => p.children.isSome
      read := fun fuel budget p cs => do
        let (nodes, rest) ← Json.readList (Node.read fuel) fuel budget cs
        return ({ p with children := some nodes }, rest) }]
  start := {}
  complete p :=
    match p.id, p.combinator with
    | none, _ => .error 0
    | _, none => .error 1
    | some id, some combinator => .ok { id, combinator, children := p.children.getD [] }

end Group
end Criteria
