import Criteria.Tree.Cursor

set_option autoImplicit false

/- Induction over trees, and what is left of a tree when its dead nodes are removed. -/
namespace Criteria

/-- A property of all trees holds of the rules and passes from children to groups. -/
@[induction_eliminator]
theorem Node.induct {motive : Node → Prop} (rule : ∀ r, motive (.rule r))
    (group : ∀ id combinator children, (∀ child ∈ children, motive child) →
      motive (.group id combinator children)) : ∀ node, motive node
  | .rule r => rule r
  | .group id combinator children =>
      group id combinator children fun child _ => Node.induct rule group child

def Node.children : Node → List Node
  | .rule _ => []
  | .group _ _ children => children

theorem Node.rulesOf_eq_flatMap (nodes : List Node) :
    Node.rulesOf nodes = nodes.flatMap Node.rules := by
  induction nodes with
  | nil => rfl
  | cons node more ih => simp only [Node.rulesOf, List.flatMap_cons, ih]

theorem Node.rulesOf_append (xs ys : List Node) :
    Node.rulesOf (xs ++ ys) = Node.rulesOf xs ++ Node.rulesOf ys := by
  simp only [Node.rulesOf_eq_flatMap, List.flatMap_append]

/-- A cursor comes up with the rules of its nodes one by one. -/
theorem Cursor.rulesOf_of_next? (cursor : Cursor) :
    Node.rulesOf cursor = match cursor.next? with
      | none => []
      | some (r, rest) => r :: Node.rulesOf rest := by
  fun_induction next? cursor with
  | case1 => rfl
  | case2 r rest => rfl
  | case3 id combinator children rest ih =>
      rw [← ih, Node.rulesOf_append, Node.rulesOf, Node.rules]

theorem Cursor.rules_eq_rulesOf (cursor : Cursor) : cursor.rules = Node.rulesOf cursor := by
  induction size : Node.sizes cursor using Nat.strongRecOn generalizing cursor with
  | ind n ih =>
      rw [Cursor.rulesOf_of_next?, Cursor.rules]
      split
      · rename_i ended
        rw [ended]
      · rename_i r rest found
        have shorter := Cursor.sizes_lt_of_next? cursor found
        rw [found, ih _ (size ▸ shorter) rest rfl]

theorem Node.mem_rules_group {id : String} {combinator : Combinator} {children : List Node}
    {r : Rule} :
    r ∈ (Node.group id combinator children).rules ↔ ∃ child ∈ children, r ∈ child.rules := by
  rw [Node.rules, Node.rulesOf_eq_flatMap, List.mem_flatMap]

/-- Whether a rule that is kept stands at or below the node. -/
def Node.isLive (keeps : Rule → Bool) (node : Node) : Bool := node.rules.any keeps

@[simp] theorem Node.isLive_rule (keeps : Rule → Bool) (r : Rule) :
    (Node.rule r).isLive keeps = keeps r := by
  simp [Node.isLive, Node.rules]

mutual

/-- A tree without the nodes below its root that are not live. -/
def Node.prune (keeps : Rule → Bool) : Node → Node
  | .rule r => .rule r
  | .group id combinator children => .group id combinator (Node.pruneAll keeps children)

def Node.pruneAll (keeps : Rule → Bool) : List Node → List Node
  | [] => []
  | node :: more =>
      if node.isLive keeps then node.prune keeps :: Node.pruneAll keeps more
      else Node.pruneAll keeps more

end

theorem Node.pruneAll_eq_map (keeps : Rule → Bool) (nodes : List Node) :
    Node.pruneAll keeps nodes = (nodes.filter (Node.isLive keeps)).map (Node.prune keeps) := by
  induction nodes with
  | nil => rfl
  | cons node more ih =>
      by_cases live : node.isLive keeps
      · simp only [Node.pruneAll, live, ↓reduceIte, List.filter_cons_of_pos, List.map_cons, ih]
      · simp only [Node.pruneAll, live, Bool.false_eq_true, ↓reduceIte, not_false_eq_true,
          List.filter_cons_of_neg, ih]

/-- A dead node holds no rule that is kept. -/
theorem Node.filter_rules_of_dead {keeps : Rule → Bool} {node : Node}
    (dead : ¬ node.isLive keeps) : node.rules.filter keeps = [] := by
  simpa only [Node.isLive, List.any_eq_true, not_exists, not_and, List.filter_eq_nil_iff] using dead

private theorem rulesOf_pruneAll_of_each {keeps : Rule → Bool} {nodes : List Node}
    (each : ∀ node ∈ nodes, node.isLive keeps →
      (node.prune keeps).rules = node.rules.filter keeps) :
    Node.rulesOf (Node.pruneAll keeps nodes) = (Node.rulesOf nodes).filter keeps := by
  induction nodes with
  | nil => rfl
  | cons node more ih =>
      have rest := ih fun other member => each other (List.mem_cons_of_mem node member)
      rw [Node.rulesOf, List.filter_append, Node.pruneAll]
      by_cases live : node.isLive keeps
      · rw [if_pos live, Node.rulesOf, each node List.mem_cons_self live, rest]
      · rw [if_neg live, Node.filter_rules_of_dead live, List.nil_append, rest]

/-- Removing the dead nodes leaves the rules that are kept, in their order. -/
theorem Node.rules_prune {keeps : Rule → Bool} (node : Node) (live : node.isLive keeps) :
    (node.prune keeps).rules = node.rules.filter keeps := by
  induction node with
  | rule r =>
      rw [Node.isLive_rule] at live
      simp only [Node.prune, Node.rules, List.filter_cons, live, ↓reduceIte, List.filter_nil]
  | group id combinator children ih =>
      simp only [Node.prune, Node.rules]
      exact rulesOf_pruneAll_of_each ih

theorem Node.rulesOf_pruneAll (keeps : Rule → Bool) (nodes : List Node) :
    Node.rulesOf (Node.pruneAll keeps nodes) = (Node.rulesOf nodes).filter keeps :=
  rulesOf_pruneAll_of_each fun node _ live => node.rules_prune live

theorem Node.pruneAll_eq_nil_iff (keeps : Rule → Bool) (nodes : List Node) :
    Node.pruneAll keeps nodes = [] ↔ (Node.rulesOf nodes).filter keeps = [] := by
  simp only [Node.pruneAll_eq_map, List.map_eq_nil_iff, List.filter_eq_nil_iff, Node.isLive,
    List.any_eq_true, Node.rulesOf_eq_flatMap, List.mem_flatMap]
  constructor
  · rintro dead r ⟨node, member, inside⟩ kept
    exact dead node member ⟨r, inside, kept⟩
  · rintro dropped node member ⟨r, inside, kept⟩
    exact dropped r ⟨node, member, inside⟩ kept

/-- A group is live when pruning leaves it a child. -/
theorem Node.isLive_group {keeps : Rule → Bool} {id : String} {combinator : Combinator}
    {children : List Node} :
    (Node.group id combinator children).isLive keeps ↔ Node.pruneAll keeps children ≠ [] := by
  rw [Ne, Node.pruneAll_eq_nil_iff]
  simp [Node.isLive, Node.rules]

/-- Where a tree has live nodes only, pruning keeps all of it. -/
theorem Node.pruneAll_eq_self {keeps : Rule → Bool} {nodes : List Node}
    (each : ∀ node ∈ nodes, node.isLive keeps ∧ node.prune keeps = node) :
    Node.pruneAll keeps nodes = nodes := by
  induction nodes with
  | nil => rfl
  | cons node more ih =>
      obtain ⟨live, same⟩ := each node List.mem_cons_self
      rw [Node.pruneAll, if_pos live, same,
        ih fun other member => each other (List.mem_cons_of_mem node member)]

end Criteria
