import Criteria.Tree

set_option autoImplicit false

/-
A cursor over the rules of a tree: the nodes that are still to be visited, the
next one first. A group gives way to its children.
-/
namespace Criteria

abbrev Cursor := List Node

namespace Cursor

/-- The next rule and the cursor behind it. -/
def next? : Cursor → Option (Rule × Cursor)
  | [] => none
  | .rule r :: rest => some (r, rest)
  | .group _ _ children :: rest => next? (children ++ rest)
termination_by cursor => Node.sizes cursor
decreasing_by
  simp only [Node.sizes_append, Node.sizes, Node.size]
  omega

theorem sizes_lt_of_next? (cursor : Cursor) {r : Rule} {rest : Cursor}
    (found : cursor.next? = some (r, rest)) : Node.sizes rest < Node.sizes cursor := by
  fun_induction next? cursor with
  | case1 => simp at found
  | case2 r' rest' =>
    obtain ⟨-, rfl⟩ := by simpa using found
    simp only [Node.sizes, Node.size]
    omega
  | case3 id combinator children rest' ih =>
    have := ih found
    simp only [Node.sizes_append, Node.sizes, Node.size] at this ⊢
    omega

/-- The rules that are left, in the order in which they come up. -/
def rules (cursor : Cursor) : List Rule :=
  match _found : cursor.next? with
  | none => []
  | some (r, rest) => r :: rules rest
termination_by Node.sizes cursor
decreasing_by exact sizes_lt_of_next? cursor _found

end Cursor

/-- The rules of a tree as its cursor meets them. -/
def Group.rules (g : Group) : List Rule := Cursor.rules g.children

end Criteria
