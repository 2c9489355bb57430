import Criteria.Registry
import Criteria.Yaml.Content

set_option autoImplicit false

/-
Registries that are written as YAML: a mapping whose member `fields` lists definitions. In
a definition, the label, the relation chain, the operators, the options and the flag for
null values may be left out.
-/
namespace Criteria

namespace Field

/-- The names of the members of a definition. -/
def memberNames : List String :=
  ["id", "label", "type", "storagePath", "relationChain", "rootTable", "allowedOperators",
    "enumOptions", "nullable"]

/-- A definition. The label is the id and the operators are the usual ones of the type,
unless they are given. -/
def ofNode (d : Yaml.Document) (node : Yaml.Node) : Except Yaml.Fault Field := do
  let members ← d.members memberNames node
  let id ← Yaml.required members "id" d.text
  let label ← Yaml.withDefault members "label" none (d.option d.text)
  let type ← Yaml.required members "type" (d.named "field type" FieldType.ofName?)
  let storagePath ← Yaml.required members "storagePath" d.text
  let relationChain ← Yaml.withDefault members "relationChain" [] (d.list d.text)
  let rootTable ← Yaml.required members "rootTable" d.text
  let operators ← Yaml.withDefault members "allowedOperators" none
    (d.option (d.list (d.named "operator" Operator.ofName?)))
  let options ← Yaml.withDefault members "enumOptions" none (d.option (d.list d.text))
  let nullable ← Yaml.withDefault members "nullable" true d.flag
  return {
    id, type, storagePath, relationChain, rootTable, options, nullable
    label := label.getD id
    operators := operators.getD type.usualOperators }

end Field

/-- Why there is no registry in a file. -/
inductive LoadError where
  | unreadable (path reason : String)
  | invalid (fault : Yaml.Fault)
  | inconsistent (error : RegistryError)
  deriving DecidableEq

namespace LoadError

def message : LoadError → String
  | .unreadable path _ => "failed to read domain map " ++ path
  | .invalid _ => "invalid domain map YAML"
  | .inconsistent error => error.message

/-- What lies behind the message. -/
def cause? : LoadError → Option String
  | .unreadable _ reason => some reason
  | .invalid fault => some fault.message
  | .inconsistent _ => none

end LoadError

namespace Registry

def fieldsOfText (text : String) : Except Yaml.Fault (List Field) := do
  let d ← Yaml.Document.ofText text
  let members ← d.members ["fields"] d.root
  Yaml.required members "fields" (d.list (Field.ofNode d))

/-- The registry that a text describes. -/
def ofText (text : String) : Except LoadError Registry :=
  match fieldsOfText text with
  | .error fault => .error (.invalid fault)
  | .ok fields =>
    match ofFields fields with
    | .ok r => .ok r
    | .error e => .error (.inconsistent e)

end Registry
end Criteria
