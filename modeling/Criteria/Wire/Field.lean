import Criteria.Field
import Criteria.Wire.Tree

set_option autoImplicit false

/- Field definitions as JSON records. -/
namespace Criteria

def FieldType.read (budget : Nat) : Json.Reader FieldType :=
  Json.readNamed (all.map name) ofName? budget

namespace Field

def toJson (f : Field) : Json :=
  .object ([("id", .string f.id), ("label", .string f.label), ("type", .string f.type.name),
    ("storagePath", .string f.storagePath),
    ("relationChain", .array (f.relationChain.map .string)),
    ("rootTable", .string f.rootTable),
    ("allowedOperators", .array (f.operators.map fun op => .string op.name))] ++
      (match f.options with
        | some options => [("enumOptions", .array (options.map .string))]
        | none => []) ++
      [("nullable", .bool f.nullable)])

/-- The members of a definition that have been read. -/
structure Parts where
  id : Option String := none
  label : Option String := none
  type : Option FieldType := none
  storagePath : Option String := none
  relationChain : Option (List String) := none
  rootTable : Option String := none
  operators : Option (List Operator) := none
  options : Option (Option (List String)) := none
  nullable : Option Bool := none

/-- A member that is text. -/
def textMember (name : String) (get : Parts → Option String)
    (set : Parts → String → Parts) : Json.Member Parts where
  name
  isSet p := (get p).isSome
  read _ _ p cs := do
    let (s, rest) ← Json.readText "a string" cs
    return (set p s, rest)

def readTexts (fuel budget : Nat) : Json.Reader (List String) :=
  Json.readList (fun _ => Json.readText "a string") fuel budget

def record : Json.Record Parts Field where
  type := "FieldDefinition"
  members := [
    textMember "id" Parts.id fun p s => { p with id := some s },
    textMember "label" Parts.label fun p s => { p with label := some s },
    { name := "type"
      isSet := fun p => p.type.isSome
      read := fun _ budget p cs => do
        let (type, rest) ← FieldType.read budget cs
        return ({ p with type := some type }, rest) },
    textMember "storagePath" Parts.storagePath fun p s => { p with storagePath := some s },
    { name := "relationChain"
      isSet := fun p => p.relationChain.isSome
      read := fun fuel budget p cs => do
        let (chain, rest) ← readTexts fuel budget cs
        return ({ p with relationChain := some chain }, rest) },
    textMember "rootTable" Parts.rootTable fun p s => { p with rootTable := some s },
    { name := "allowedOperators"
      isSet := fun p => p.operators.isSome
      read := fun fuel budget p cs => do
        let (operators, rest) ← Json.readList Operator.read fuel budget cs
        return ({ p with operators := some operators }, rest) },
    { name := "enumOptions"
      isSet := fun p => p.options.isSome
      read := fun fuel budget p cs => do
        let (options, rest) ← Json.readOption (readTexts fuel budget) cs
        return ({ p with options := some options }, rest) },
    { name := "nullable"
      isSet := fun p => p.nullable.isSome
      read := fun _ _ p cs => do
        let (b, rest) ← Json.readFlag cs
        return ({ p with nullable := some b }, rest) }]
  start := {}
  complete p := do
    let need {α : Type} (index : Nat) (part : Option α) : Except Nat α := match part with
      | some a => .ok a
      | none => .error index
    return {
      id := ← need 0 p.id
      label := ← need 1 p.label
      type := ← need 2 p.type
      storagePath := ← need 3 p.storagePath
      relationChain := p.relationChain.getD []
      rootTable := ← need 5 p.rootTable
      operators := ← need 6 p.operators
      options := p.options.getD none
      nullable := p.nullable.getD true }

end Field
end Criteria
