import Criteria.Proofs.Joins
import Criteria.Proofs.Places

set_option autoImplicit false

/-
Nodes that compile to nothing. Taking any of them out of a tree leaves its live part as it
is, and with it the filter string and the selection.
-/
namespace Criteria

mutual

/-- A tree without the nodes at some paths below its root, and without what is below them. -/
def Node.without (removed : Path → Bool) : Node → Node
  | .rule r => .rule r
  | .group id combinator children =>
      .group id combinator (Node.withoutFrom removed 0 children)

/-- The children of a node without those that are removed, from an index on. -/
def Node.withoutFrom (removed : Path → Bool) (index : Nat) : List Node → List Node
  | [] => []
  | node :: more =>
      if removed [index] then Node.withoutFrom removed (index + 1) more
      else node.without (fun path => removed (index :: path)) ::
        Node.withoutFrom removed (index + 1) more

end

def Group.without (removed : Path → Bool) (g : Group) : Group :=
  { g with children := Node.withoutFrom removed 0 g.children }

/-- Whether every node below the root that is removed is dead. -/
def Node.LosesDead (keeps : Rule → Bool) (removed : Path → Bool) (node : Node) : Prop :=
  ∀ path inner, path ≠ [] → removed path → node.at? path = some inner → ¬ inner.isLive keeps

section
variable {keeps : Rule → Bool}

/-- What is removed from a child is what the path through the child leads to. -/
theorem Node.LosesDead.of_child {removed : Path → Bool} {node child : Node} {index : Nat}
    (dead : node.LosesDead keeps removed) (isChild : node.children[index]? = some child) :
    child.LosesDead keeps fun path => removed (index :: path) := by
  intro path inner _ gone found
  apply dead (index :: path) inner (List.cons_ne_nil _ _) gone
  rw [Node.at?, isChild]
  exact found

theorem Node.LosesDead.not_isLive_child {removed : Path → Bool} {node child : Node} {index : Nat}
    (dead : node.LosesDead keeps removed) (isChild : node.children[index]? = some child)
    (gone : removed [index]) : ¬ child.isLive keeps := by
  apply dead [index] child (List.cons_ne_nil _ _) gone
  rw [Node.at?, isChild]
  rfl

/-- A node that lives on in the same form when dead nodes below it are removed. -/
structure Node.KeepsLive (keeps : Rule → Bool) (removed : Path → Bool) (node : Node) : Prop where
  prune : (node.without removed).prune keeps = node.prune keeps
  isLive : (node.without removed).isLive keeps = node.isLive keeps

theorem Node.pruneAll_withoutFrom {removed : Path → Bool} {index : Nat} {nodes : List Node}
    (dead : ∀ offset child, nodes[offset]? = some child → removed [index + offset] →
      ¬ child.isLive keeps)
    (each : ∀ offset (child : Node), nodes[offset]? = some child →
      child.KeepsLive keeps fun path => removed ((index + offset) :: path)) :
    Node.pruneAll keeps (Node.withoutFrom removed index nodes) = Node.pruneAll keeps nodes := by
  induction nodes generalizing index with
  | nil => rfl
  | cons node more ih =>
      have rest : Node.pruneAll keeps (Node.withoutFrom removed (index + 1) more) =
          Node.pruneAll keeps more := by
        apply ih
        · intro offset child isChild gone
          apply dead (offset + 1) child isChild
          rwa [Nat.add_right_comm] at gone
        · intro offset child isChild
          have there := each (offset + 1) child isChild
          rwa [← Nat.add_assoc, Nat.add_right_comm] at there
      have here := each 0 node rfl
      rw [Nat.add_zero] at here
      rw [Node.withoutFrom]
      by_cases gone : removed [index]
      · rw [if_pos gone, rest, Node.pruneAll, if_neg (dead 0 node rfl gone)]
      · rw [if_neg gone, Node.pruneAll, Node.pruneAll, here.prune, here.isLive, rest]

/-- Removing dead nodes, at however many levels, does not change what pruning leaves. -/
theorem Node.keepsLive (node : Node) {removed : Path → Bool}
    (dead : node.LosesDead keeps removed) : node.KeepsLive keeps removed := by
  induction node generalizing removed with
  | rule r => exact ⟨rfl, rfl⟩
  | group id combinator children ih =>
      have same : Node.pruneAll keeps (Node.withoutFrom removed 0 children) =
          Node.pruneAll keeps children := by
        apply Node.pruneAll_withoutFrom
        · intro offset child isChild gone
          rw [Nat.zero_add] at gone
          exact dead.not_isLive_child isChild gone
        · intro offset child isChild
          rw [Nat.zero_add]
          exact ih child (List.mem_of_getElem? isChild) (dead.of_child isChild)
      refine ⟨?_, ?_⟩
      · rw [Node.without, Node.prune, Node.prune, same]
      · rw [Bool.eq_iff_iff, Node.without, Node.isLive_group, Node.isLive_group, same]

end

section
variable (registry : Registry) (rootTable : String)

/-- The known fields of a tree are those of its live part. -/
theorem Group.knownFields_live (g : Group) :
    (g.live registry rootTable).knownFields registry rootTable =
      g.knownFields registry rootTable := by
  have rules : (g.live registry rootTable).toNode.rules =
      g.toNode.rules.filter (Rule.resolves registry rootTable) :=
    Node.rulesOf_pruneAll (Rule.resolves registry rootTable) g.children
  rw [Group.knownFields, Group.knownFields, rules, List.filterMap_filter]
  apply List.filterMap_congr
  intro r _
  rw [Rule.resolves]
  cases registry.resolve r.fieldId rootTable <;> rfl

theorem Relations.ofTree_eq_foldl (g : Group) :
    Relations.ofTree registry rootTable g =
      (g.knownFields registry rootTable).foldl Relations.addField {} := by
  rw [Relations.ofTree, Group.rules, Cursor.rules_eq_rulesOf]
  rfl

/-- The relations of a tree are those of its live part. -/
theorem Relations.ofTree_live (g : Group) :
    Relations.ofTree registry rootTable (g.live registry rootTable) =
      Relations.ofTree registry rootTable g := by
  rw [Relations.ofTree_eq_foldl, Relations.ofTree_eq_foldl, Group.knownFields_live]

theorem Node.not_isLive_iff {node : Node} :
    ¬ node.isLive (Rule.resolves registry rootTable) ↔
      ∀ r ∈ node.rules, registry.resolve r.fieldId rootTable = none := by
  simp [Node.isLive, Rule.resolves]

theorem Group.live_without {g : Group} {removed : Path → Bool}
    (dead : g.toNode.LosesDead (Rule.resolves registry rootTable) removed) :
    (g.without removed).live registry rootTable = g.live registry rootTable := by
  have same := (g.toNode.keepsLive dead).prune
  rw [Group.toNode, Node.without, Node.prune, Node.prune] at same
  rw [Group.live, Group.live, Group.without]
  exact congrArg _ (Node.group.inj same).2.2

theorem Group.filterText_eq_empty_iff_unknown (g : Group) :
    g.filterText registry rootTable = "" ↔
      ∀ r ∈ g.toNode.rules, registry.resolve r.fieldId rootTable = none := by
  rw [Group.filterText_eq_empty_iff, ← Node.not_isLive_iff, Group.toNode, Node.isLive_group,
    not_not]
  rfl

end

theorem CompiledQuery.or_not_mem_parameters_iff (c : CompiledQuery) :
    (∀ text, ("or", text) ∉ c.parameters) ↔ c.filter = "" := by
  rw [CompiledQuery.parameters, ← String.isEmpty_iff]
  cases empty : c.filter.isEmpty <;> simp

/-- Taking out nodes below the root changes neither the filter string nor the selection, if
each of them is a rule whose field is not known or a group without any other rule below it.
There is no filter string, and no parameter for one, exactly if no rule of the tree has a
known field. -/
theorem dead_nodes_are_invisible (q : Query) (g : Group) :
    (∀ removed : Path → Bool,
      (∀ path node, path ≠ [] → removed path → g.toNode.at? path = some node →
        ∀ r ∈ node.rules, q.registry.resolve r.fieldId q.rootTable = none) →
      (q.compile (g.without removed)).filter = (q.compile g).filter ∧
        (q.compile (g.without removed)).select = (q.compile g).select) ∧
    ((q.compile g).filter = "" ↔
      ∀ r ∈ g.toNode.rules, q.registry.resolve r.fieldId q.rootTable = none) ∧
    ((∀ text, ("or", text) ∉ (q.compile g).parameters) ↔ (q.compile g).filter = "") := by
  refine ⟨?_, g.filterText_eq_empty_iff_unknown q.registry q.rootTable,
    CompiledQuery.or_not_mem_parameters_iff _⟩
  intro removed unknown
  have dead : g.toNode.LosesDead (Rule.resolves q.registry q.rootTable) removed := by
    intro path node below gone found
    rw [Node.not_isLive_iff]
    exact unknown path node below gone found
  have same := Group.live_without q.registry q.rootTable dead
  constructor
  · change (g.without removed).filterText q.registry q.rootTable =
      g.filterText q.registry q.rootTable
    rw [Group.filterText_eq_text, Group.filterText_eq_text, same]
  · change (Relations.ofTree q.registry q.rootTable (g.without removed)).select q.extraFields =
      (Relations.ofTree q.registry q.rootTable g).select q.extraFields
    rw [← Relations.ofTree_live, same, Relations.ofTree_live]

/-- A conjunction of two, of which only one is left: the rule of an unknown field goes, and
so do, further down, an empty group and a group with a rule of another table. -/
theorem dead_nodes_are_invisible_at_two_levels :
    let q : Query := { registry := Registry.orders, rootTable := "orders" }
    let region : Rule := ⟨"a", "customer_region", .eq, .text "EU"⟩
    let g : Group := ⟨"root", .and, [.rule ⟨"b", "unknown", .eq, .text "x"⟩,
      .group "c" .and [.group "d" .or [], .rule region,
        .group "e" .or [.rule ⟨"f", "customer_email", .isNull, .absent⟩]]]⟩
    let left : Group := ⟨"root", .and, [.group "c" .and [.rule region]]⟩
    let removed (path : Path) : Bool := [[0], [1, 0], [1, 2]].contains path
    g.without removed = left ∧
      (q.compile left).filter = (q.compile g).filter ∧
      (q.compile left).select = (q.compile g).select ∧
      (q.compile left).filter = "(customers.regions.code.eq.EU)" ∧
      (q.compile left).select = "*, customers(*), regions!inner(*)" := by
  intro q region g left removed
  have unknown : ∀ path node, path ≠ [] → removed path → g.toNode.at? path = some node →
      ∀ r ∈ node.rules, q.registry.resolve r.fieldId q.rootTable = none := by
    intro path node _ gone found
    have places : path = [0] ∨ path = [1, 0] ∨ path = [1, 2] := by simpa [removed] using gone
    rcases places with rfl | rfl | rfl <;> cases found <;> decide
  obtain ⟨same, -⟩ := dead_nodes_are_invisible q g
  obtain ⟨filter, select⟩ := same removed unknown
  refine ⟨rfl, filter, select, ?_, ?_⟩
  · decide
  · rw [Query.compile, Relations.ofTree_eq_foldl]
    decide

end Criteria
