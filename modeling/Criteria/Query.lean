import Criteria.FilterText
import Criteria.Selection
import Criteria.Validation
import Criteria.Wire.Tree

set_option autoImplicit false

/- Queries: a filter tree compiled to its selection and filter string. -/
namespace Criteria

/-- How filter trees are compiled. -/
structure Query where
  registry : Registry
  rootTable : String
  extraFields : List String := []
  maxDepth : Nat := defaultMaxDepth

/-- The strings of a filter tree and what is wrong with it. They are as good as can
be had where something is wrong. -/
structure CompiledQuery where
  select : String
  filter : String
  diagnostics : List Diagnostic

namespace Query

def addExtraFields (q : Query) (fields : List String) : Query :=
  { q with extraFields := q.extraFields ++ fields }

def withMaxDepth (q : Query) (maxDepth : Nat) : Query := { q with maxDepth }

def compile (q : Query) (g : Group) : CompiledQuery where
  select := (Relations.ofTree q.registry q.rootTable g).select q.extraFields
  filter := g.filterText q.registry q.rootTable
  diagnostics := g.validate q.registry q.rootTable q.maxDepth

end Query

def Diagnostic.toJson (d : Diagnostic) : Json :=
  .object [("path", .string d.path.text), ("message", .string d.problem.message),
    ("node", d.node.toJson)]

namespace CompiledQuery

def isValid (c : CompiledQuery) : Bool := c.diagnostics.isEmpty

/-- The request parameters, not encoded for a URL. -/
def parameters (c : CompiledQuery) : List (String × String) :=
  ("select", c.select) :: if c.filter.isEmpty then [] else [("or", "(" ++ c.filter ++ ")")]

def toJson (c : CompiledQuery) : Json :=
  .object [("select", .string c.select), ("filter", .string c.filter),
    ("errors", .array (c.diagnostics.map Diagnostic.toJson))]

end CompiledQuery
end Criteria
