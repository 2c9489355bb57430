import Criteria.Condition

set_option autoImplicit false

/-
Filter strings. The fragments of an `or` group are joined by commas, those of an
`and` group stand in `and(…)` unless there is only one, a nested group stands in
parentheses, and what compiles to nothing leaves no trace.
-/
namespace Criteria

/-- Joins the fragments of a group's children. -/
def Combinator.join (combinator : Combinator) (fragments : List String) : String :=
  match combinator, fragments with
  | _, [] => ""
  | .and, _ :: _ :: _ => "and(" ++ String.intercalate "," fragments ++ ")"
  | _, fragments => String.intercalate "," fragments

mutual

/-- The fragment of a node, which is empty where nothing is left of it. -/
def Node.fragment (registry : Registry) (rootTable : String) : Node → String
  | .rule r => (r.condition? registry rootTable).getD ""
  | .group _ combinator children =>
    let inner := combinator.join (Node.fragments registry rootTable children)
    if inner.isEmpty then "" else "(" ++ inner ++ ")"

/-- The fragments of nodes that are not empty. -/
def Node.fragments (registry : Registry) (rootTable : String) : List Node → List String
  | [] => []
  | node :: more =>
    let fragment := node.fragment registry rootTable
    if fragment.isEmpty then Node.fragments registry rootTable more
    else fragment :: Node.fragments registry rootTable more

end

/-- The filter string of a tree. -/
def Group.filterText (registry : Registry) (rootTable : String) (g : Group) : String :=
  g.combinator.join (Node.fragments registry rootTable g.children)

end Criteria
