import Criteria.Operator
import Criteria.Value

set_option autoImplicit false

/-
Filter trees. A rule compares one field with a value, a group joins its children,
and the root of a tree is a group.
-/
namespace Criteria

inductive Combinator where
  | and | or
  deriving DecidableEq

namespace Combinator

def all : List Combinator := [.and, .or]

def name : Combinator → String
  | .and => "and"
  | .or => "or"

def ofName? (name : String) : Option Combinator := all.find? (·.name == name)

end Combinator

structure Rule where
  id : String
  fieldId : String
  operator : Operator
  value : Value := .absent

inductive Node where
  | rule (r : Rule)
  | group (id : String) (combinator : Combinator) (children : List Node)

structure Group where
  id : String
  combinator : Combinator
  children : List Node := []

def Group.toNode (g : Group) : Node := .group g.id g.combinator g.children

def Node.id : Node → String
  | .rule r => r.id
  | .group id _ _ => id

mutual

/-- The count of nodes in a tree. -/
def Node.size : Node → Nat
  | .rule _ => 1
  | .group _ _ children => 1 + Node.sizes children

def Node.sizes : List Node → Nat
  | [] => 0
  | node :: more => node.size + Node.sizes more

end

mutual

/-- The rules of a tree, depth first and from left to right. -/
def Node.rules : Node → List Rule
  | .rule r => [r]
  | .group _ _ children => Node.rulesOf children

def Node.rulesOf : List Node → List Rule
  | [] => []
  | node :: more => node.rules ++ Node.rulesOf more

end

theorem Node.sizes_append (xs ys : List Node) :
    Node.sizes (xs ++ ys) = Node.sizes xs + Node.sizes ys := by
  induction xs with
  | nil => simp [Node.sizes]
  | cons node more ih => simp only [List.cons_append, Node.sizes, ih, Nat.add_assoc]

namespace Group

def add (g : Group) (node : Node) : Group := { g with children := g.children ++ [node] }

def isEmpty (g : Group) : Bool := g.children.isEmpty

/-- As many groups as given around a node, each the only child of the next. -/
def chain (id : String) : Nat → Node → Group
  | 0, leaf => { id, combinator := .and, children := [leaf] }
  | depth + 1, leaf => { id, combinator := .and, children := [(chain id depth leaf).toNode] }

end Group
end Criteria
