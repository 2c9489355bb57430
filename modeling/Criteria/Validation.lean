import Criteria.Instant.Layout
import Criteria.Registry
import Criteria.Text.Blank
import Criteria.Tree

set_option autoImplicit false

/-
Validation of a filter tree against a registry. Every problem is reported with the
path of its node, except that nothing is said about what lies below a group that is
nested too deep.
-/
namespace Criteria

/-- Why a value does not fit a field. -/
inductive Misfit where
  /-- The value is of another kind than the field type takes. -/
  | kind (field : String) (type : FieldType) (found : String)
  | notFinite (field : String)
  | notDate (text field : String)
  | notOption (text field : String)
  deriving DecidableEq

namespace Misfit

def expectation : FieldType → String
  | .text => "a text value"
  | .number => "a number"
  | .date => "a date"
  | .boolean => "a boolean"
  | .enum => "one of its options"

def message : Misfit → String
  | .kind field type found =>
    "field '" ++ field ++ "' expects " ++ expectation type ++ ", got " ++ found
  | .notFinite field => "field '" ++ field ++ "' expects a finite number"
  | .notDate text field => "invalid date '" ++ text ++ "' for field '" ++ field ++ "'"
  | .notOption text field => "invalid option '" ++ text ++ "' for field '" ++ field ++ "'"

end Misfit

inductive Problem where
  | tooDeep (limit : Nat)
  | emptyGroup
  | missingId
  | missingField
  | foreignField (field rootTable : String)
  | unknownField (field : String)
  | operatorNotAllowed (op : Operator) (field : String)
  | unwantedValue (op : Operator)
  | missingValue (op : Operator)
  | listRequired (op : Operator)
  | singleRequired (op : Operator)
  | misfit (m : Misfit)
  | itemMisfit (index : Nat) (m : Misfit)
  deriving DecidableEq

def Problem.message : Problem → String
  | .tooDeep limit => "maximum nesting depth of " ++ toString limit ++ " exceeded"
  | .emptyGroup => "group must contain at least one rule"
  | .missingId => "rule id is required"
  | .missingField => "field is required"
  | .foreignField field rootTable =>
    "field '" ++ field ++ "' is not available on table '" ++ rootTable ++ "'"
  | .unknownField field => "unknown field '" ++ field ++ "'"
  | .operatorNotAllowed op field =>
    "operator '" ++ op.name ++ "' is not allowed for field '" ++ field ++ "'"
  | .unwantedValue op => "operator '" ++ op.name ++ "' does not take a value"
  | .missingValue op => "operator '" ++ op.name ++ "' requires a value"
  | .listRequired op => "operator '" ++ op.name ++ "' requires a list of values"
  | .singleRequired op => "operator '" ++ op.name ++ "' requires a single value"
  | .misfit m => m.message
  | .itemMisfit index m => "item " ++ toString index ++ ": " ++ m.message

/-- The place of a node: which child to take at each step down from the root. -/
abbrev Path := List Nat

def Path.text (path : Path) : String :=
  path.foldl (fun text index => text ++ ".rules[" ++ toString index ++ "]") "root"

structure Diagnostic where
  path : Path
  problem : Problem
  node : Node

def Diagnostic.text (d : Diagnostic) : String := d.path.text ++ ": " ++ d.problem.message

namespace Field

/-- Why a single value does not fit the field, if it does not. -/
def misfit? (f : Field) (value : Value) : Option Misfit :=
  match f.type, value with
  | .text, .text _ => none
  | .number, .number n => if n.isFinite then none else some (.notFinite f.id)
  | .date, .date written | .date, .text written =>
    if (Instant.ofText? written).isSome then none else some (.notDate written f.id)
  | .boolean, .boolean _ => none
  | .enum, .text s => if f.hasOption s then none else some (.notOption s f.id)
  | type, value => some (.kind f.id type value.kind)

/-- What is wrong with the items of a list. Only texts are checked against options. -/
def itemProblems (f : Field) (items : List Value) : List Problem :=
  if f.type = .enum then
    (items.filterMap Value.text?).filterMap fun s =>
      if f.hasOption s then none else some (.misfit (.notOption s f.id))
  else
    items.zipIdx.filterMap fun (item, index) => (f.misfit? item).map (.itemMisfit index)

/-- What is wrong with the value of an operator. -/
def valueProblems (f : Field) (op : Operator) (value : Value) : List Problem :=
  if op.isNullary then
    if value.isAbsent then [] else [.unwantedValue op]
  else if value.isAbsent then [.missingValue op]
  else if op.takesList then
    match value with
    | .list items => f.itemProblems items
    | _ => [.listRequired op]
  else if value.isList then [.singleRequired op]
  else ((f.misfit? value).map .misfit).toList

end Field

/-- What is wrong with a rule for queries from a root table. -/
def Rule.problems (registry : Registry) (rootTable : String) (r : Rule) : List Problem :=
  (if Text.isAllBlank r.id then [.missingId] else []) ++
    if Text.isAllBlank r.fieldId then [.missingField]
    else match registry.resolve r.fieldId rootTable with
      | none =>
        if (registry.lookup r.fieldId).isSome then [.foreignField r.fieldId rootTable]
        else [.unknownField r.fieldId]
      | some f =>
        (if f.allows r.operator then [] else [.operatorNotAllowed r.operator r.fieldId]) ++
          f.valueProblems r.operator r.value

/-- The nesting that is allowed unless a query says otherwise. -/
def defaultMaxDepth : Nat := 3

mutual

/-- The diagnostics of a node at a path, whose length is its depth. -/
def Node.diagnostics (registry : Registry) (rootTable : String) (maxDepth : Nat) (path : Path) :
    Node → List Diagnostic
  | .rule r => (r.problems registry rootTable).map fun p => ⟨path, p, .rule r⟩
  | .group id combinator children =>
    let node := .group id combinator children
    if maxDepth < path.length then [⟨path, .tooDeep maxDepth, node⟩]
    else
      (if children.isEmpty then [⟨path, .emptyGroup, node⟩] else []) ++
        Node.diagnosticsFrom registry rootTable maxDepth path 0 children

/-- The diagnostics of the children of a node from an index on. -/
def Node.diagnosticsFrom (registry : Registry) (rootTable : String) (maxDepth : Nat)
    (path : Path) (index : Nat) : List Node → List Diagnostic
  | [] => []
  | node :: more =>
    node.diagnostics registry rootTable maxDepth (path ++ [index]) ++
      Node.diagnosticsFrom registry rootTable maxDepth path (index + 1) more

end

/-- Everything that is wrong with a filter tree. -/
def Group.validate (registry : Registry) (rootTable : String) (maxDepth : Nat) (g : Group) :
    List Diagnostic :=
  g.toNode.diagnostics registry rootTable maxDepth []

end Criteria
