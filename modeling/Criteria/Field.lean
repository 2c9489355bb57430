import Criteria.Operator

set_option autoImplicit false

/-
The definitions of filterable fields and the rules that a definition keeps.
-/
namespace Criteria

/-- A field as it is seen from its root table. -/
structure Field where
  id : String
  label : String
  type : FieldType
  /-- The relation names and a column name, joined by dots. -/
  storagePath : String
  /-- The relations from the root table to the table that owns the column. -/
  relationChain : List String := []
  rootTable : String
  operators : List Operator
  options : Option (List String) := none
  nullable : Bool := true
  deriving DecidableEq

/-- The identifiers of a definition that must not be empty. -/
inductive Identifier where
  | id | rootTable | storagePath | relationName
  deriving DecidableEq

def Identifier.name : Identifier → String
  | .id => "id"
  | .rootTable => "root table"
  | .storagePath => "storage path"
  | .relationName => "relation name"

/-- What is wrong with a list of definitions. -/
inductive RegistryError where
  | emptyIdentifier (which : Identifier)
  | noOperators (id : String)
  | missingOptions (id : String)
  | unexpectedOptions (id : String) (type : FieldType)
  | pathMismatch (id storagePath : String) (chain : List String)
  | duplicate (rootTable id : String)
  deriving DecidableEq

def RegistryError.message : RegistryError → String
  | .emptyIdentifier which => "field definition has an empty " ++ which.name
  | .noOperators id => "field `" ++ id ++ "` allows no operators"
  | .missingOptions id => "enum field `" ++ id ++ "` has no enum options"
  | .unexpectedOptions id type =>
    "field `" ++ id ++ "` of type " ++ type.name ++ " must not declare enum options"
  | .pathMismatch id storagePath chain =>
    let expected :=
      if chain.isEmpty then "a single column name"
      else "`" ++ String.intercalate "." chain ++ ".<column>`"
    "field `" ++ id ++ "` storage path `" ++ storagePath ++
      "` does not match its relation chain (" ++ expected ++ ")"
  | .duplicate rootTable id =>
    "field `" ++ id ++ "` is defined twice for root table `" ++ rootTable ++ "`"

namespace Field

def allows (f : Field) (op : Operator) : Bool := f.operators.contains op

def hasOption (f : Field) (text : String) : Bool :=
  match f.options with
  | some options => options.contains text
  | none => false

/-- The last relation of the chain, whose table holds the column. -/
def owningRelation? (f : Field) : Option String := f.relationChain.getLast?

/-- The characters that a relation chain puts before the column name. -/
def chainChars (chain : List String) : List Char :=
  chain.flatMap fun relation => relation.toList ++ ['.']

/-- The rest of a list after a given beginning. -/
def stripStart : List Char → List Char → Option (List Char)
  | [], cs => some cs
  | _ :: _, [] => none
  | p :: ps, c :: cs => if p = c then stripStart ps cs else none

/-- The column name in the storage path: what follows the relation chain. -/
def column? (f : Field) : Option (List Char) :=
  stripStart (chainChars f.relationChain) f.storagePath.toList

/-- Refuses a definition that breaks a rule, with the first rule it breaks. -/
def check (f : Field) : Except RegistryError Unit := do
  if f.id.isEmpty then throw (.emptyIdentifier .id)
  if f.rootTable.isEmpty then throw (.emptyIdentifier .rootTable)
  if f.storagePath.isEmpty then throw (.emptyIdentifier .storagePath)
  if f.relationChain.any String.isEmpty then throw (.emptyIdentifier .relationName)
  if f.operators.isEmpty then throw (.noOperators f.id)
  match f.type, f.options with
  | .enum, some (_ :: _) => pure ()
  | .enum, _ => throw (.missingOptions f.id)
  | type, some _ => throw (.unexpectedOptions f.id type)
  | _, none => pure ()
  match f.column? with
  | some column =>
    if column.isEmpty || column.contains '.' then
      throw (.pathMismatch f.id f.storagePath f.relationChain)
  | none => throw (.pathMismatch f.id f.storagePath f.relationChain)

/-- A definition as a registry holds it, each operator where it first comes up. -/
def normalized (f : Field) : Field := { f with operators := f.operators.eraseDups }

/-- A field of its own table with the usual operators of its type. -/
def plain (id label : String) (type : FieldType) (rootTable storagePath : String) : Field :=
  { id, label, type, rootTable, storagePath, operators := type.usualOperators }

def via (f : Field) (chain : List String) : Field := { f with relationChain := chain }

def withOperators (f : Field) (operators : List Operator) : Field := { f with operators }

def withOptions (f : Field) (options : List String) : Field := { f with options := some options }

def notNull (f : Field) : Field := { f with nullable := false }

end Field
end Criteria
