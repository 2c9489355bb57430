import Criteria.Proofs.Formula
import Criteria.Proofs.Trees
import Criteria.Registry.Sample

set_option autoImplicit false

/-
What a filter string means. The string of a tree is the text of the formula that its
live part stands for, and reading it gives a formula of the same meaning.
-/
namespace Criteria

/-- Whether the field of a rule is known for queries from a root table. -/
def Rule.resolves (registry : Registry) (rootTable : String) (r : Rule) : Bool :=
  (registry.resolve r.fieldId rootTable).isSome

/-- A tree without the rules whose field is not known and the groups that hold no
other rule. -/
def Group.live (registry : Registry) (rootTable : String) (g : Group) : Group :=
  { g with children := Node.pruneAll (Rule.resolves registry rootTable) g.children }

mutual

/-- The formula of a tree over the conditions of its rules. -/
def Node.formula (registry : Registry) (rootTable : String) : Node → Formula
  | .rule r => .condition ((r.condition? registry rootTable).getD "")
  | .group _ combinator children => .group combinator (Node.formulas registry rootTable children)

def Node.formulas (registry : Registry) (rootTable : String) : List Node → List Formula
  | [] => []
  | node :: more => node.formula registry rootTable :: Node.formulas registry rootTable more

end

def Group.formula (registry : Registry) (rootTable : String) (g : Group) : Formula :=
  g.toNode.formula registry rootTable

section
variable (registry : Registry) (rootTable : String)

theorem Node.formulas_eq_map (nodes : List Node) :
    Node.formulas registry rootTable nodes = nodes.map (Node.formula registry rootTable) := by
  induction nodes with
  | nil => rfl
  | cons node more ih => rw [Node.formulas, ih, List.map_cons]

theorem Rule.isSome_condition? (r : Rule) :
    (r.condition? registry rootTable).isSome = r.resolves registry rootTable := by
  simp only [Rule.condition?, Option.isSome_map, Rule.resolves]

theorem Rule.condition?_ne_empty {r : Rule} {text : String}
    (found : r.condition? registry rootTable = some text) : text ≠ "" := by
  obtain ⟨f, -, rfl⟩ := Option.map_eq_some_iff.mp found
  intro empty
  have chars := congrArg String.toList empty
  simp at chars

theorem Combinator.join_eq_empty_iff (combinator : Combinator) {fragments : List String}
    (each : ∀ fragment ∈ fragments, fragment ≠ "") :
    combinator.join fragments = "" ↔ fragments = [] := by
  constructor
  · intro empty
    match combinator, fragments with
    | _, [] => rfl
    | combinator, [fragment] =>
        rw [Combinator.join_singleton] at empty
        exact False.elim (each fragment List.mem_cons_self empty)
    | .or, first :: second :: more =>
        rw [Combinator.join_or, String.intercalate_cons_cons] at empty
        have chars := congrArg String.toList empty
        simp at chars
    | .and, first :: second :: more =>
        have chars := congrArg String.toList empty
        simp [Combinator.join] at chars
  · intro nothing
    rw [nothing]
    rfl

/-- The formula of a tree has the conditions of its rules, in their order. -/
theorem Node.conditions_formula (node : Node) :
    (node.formula registry rootTable).conditions =
      node.rules.map fun r => (r.condition? registry rootTable).getD "" := by
  induction node with
  | rule r => rfl
  | group id combinator children ih =>
      rw [Node.formula, Formula.conditions_group, Node.formulas_eq_map, Node.rules,
        Node.rulesOf_eq_flatMap, List.map_flatMap, List.flatMap_map]
      exact List.flatMap_congr ih

theorem Rule.condition?_of_resolves {r : Rule} (resolves : r.resolves registry rootTable) :
    r.condition? registry rootTable = some ((r.condition? registry rootTable).getD "") := by
  rw [← Rule.isSome_condition?] at resolves
  obtain ⟨text, found⟩ := Option.isSome_iff_exists.mp resolves
  rw [found, Option.getD_some]

theorem Rule.condition?_of_not_resolves {r : Rule} (unknown : ¬ r.resolves registry rootTable) :
    r.condition? registry rootTable = none := by
  rw [← Rule.isSome_condition?] at unknown
  simpa using unknown

theorem Node.fragment_formula_ne_empty {node : Node}
    (live : node.isLive (Rule.resolves registry rootTable)) :
    ((node.prune (Rule.resolves registry rootTable)).formula registry rootTable).fragment ≠ "" := by
  cases node with
  | rule r =>
      rw [Node.isLive_rule] at live
      exact Rule.condition?_ne_empty registry rootTable
        (Rule.condition?_of_resolves registry rootTable live)
  | group id combinator children =>
      rw [Node.prune, Node.formula, Formula.fragment_group]
      intro empty
      have chars := congrArg String.toList empty
      simp at chars

/-- The fragment of a live node is the one of its formula; other nodes have none. -/
def Node.FragmentIsFormula (node : Node) : Prop :=
  node.fragment registry rootTable =
    if node.isLive (Rule.resolves registry rootTable) then
      ((node.prune (Rule.resolves registry rootTable)).formula registry rootTable).fragment
    else ""

private theorem fragments_of_each {nodes : List Node}
    (each : ∀ node ∈ nodes, node.FragmentIsFormula registry rootTable) :
    Node.fragments registry rootTable nodes =
      (Node.formulas registry rootTable
        (Node.pruneAll (Rule.resolves registry rootTable) nodes)).map Formula.fragment := by
  induction nodes with
  | nil => rfl
  | cons node more ih =>
      have first := each node List.mem_cons_self
      have rest := ih fun other member => each other (List.mem_cons_of_mem node member)
      unfold Node.FragmentIsFormula at first
      rw [Node.fragments, first, rest, Node.pruneAll]
      by_cases live : node.isLive (Rule.resolves registry rootTable)
      · have nonempty := Node.fragment_formula_ne_empty registry rootTable live
        simp only [if_pos live, String.isEmpty_iff, nonempty, ↓reduceIte, Node.formulas,
          List.map_cons]
      · simp only [if_neg live, String.isEmpty_iff, ↓reduceIte]

/-- The joined fragments of live children are empty only if there are none. -/
theorem Node.join_fragments_eq_empty_iff (combinator : Combinator) (nodes : List Node) :
    combinator.join ((Node.formulas registry rootTable
        (Node.pruneAll (Rule.resolves registry rootTable) nodes)).map Formula.fragment) = "" ↔
      Node.pruneAll (Rule.resolves registry rootTable) nodes = [] := by
  rw [Combinator.join_eq_empty_iff, List.map_eq_nil_iff, Node.formulas_eq_map, List.map_eq_nil_iff]
  intro fragment member
  rw [Node.formulas_eq_map, Node.pruneAll_eq_map, List.map_map, List.map_map] at member
  obtain ⟨node, kept, rfl⟩ := List.mem_map.mp member
  exact Node.fragment_formula_ne_empty registry rootTable (List.mem_filter.mp kept).2

theorem Node.fragmentIsFormula (node : Node) : node.FragmentIsFormula registry rootTable := by
  induction node with
  | rule r =>
      unfold Node.FragmentIsFormula
      by_cases resolves : r.resolves registry rootTable
      · rw [Node.isLive_rule, if_pos resolves, Node.fragment, Node.prune, Node.formula,
          Formula.fragment_condition]
      · rw [Node.isLive_rule, if_neg resolves, Node.fragment,
          Rule.condition?_of_not_resolves registry rootTable resolves, Option.getD_none]
  | group id combinator children ih =>
      have parts := fragments_of_each registry rootTable ih
      have empty := Node.join_fragments_eq_empty_iff registry rootTable combinator children
      unfold Node.FragmentIsFormula
      rw [Node.fragment, parts]
      by_cases dead : Node.pruneAll (Rule.resolves registry rootTable) children = []
      · rw [if_neg (fun live => Node.isLive_group.mp live dead),
          if_pos (String.isEmpty_iff.mpr (empty.mpr dead))]
      · rw [if_pos (Node.isLive_group.mpr dead),
          if_neg (fun isEmpty => dead (empty.mp (String.isEmpty_iff.mp isEmpty))),
          Node.prune, Node.formula, Formula.fragment_group, Formula.text]

/-- The filter string of a tree is the text of the formula of its live part. -/
theorem Group.filterText_eq_text (g : Group) :
    g.filterText registry rootTable =
      ((g.live registry rootTable).formula registry rootTable).text := by
  rw [Group.filterText, fragments_of_each registry rootTable fun node _ =>
    Node.fragmentIsFormula registry rootTable node]
  rfl

theorem Group.filterText_eq_empty_iff (g : Group) :
    g.filterText registry rootTable = "" ↔ (g.live registry rootTable).children = [] := by
  rw [Group.filterText_eq_text]
  exact Node.join_fragments_eq_empty_iff registry rootTable g.combinator g.children

/-- The live part of a tree has the conditions of all its rules with a known field. -/
theorem Group.conditions_live (g : Group) :
    ((g.live registry rootTable).formula registry rootTable).conditions =
      g.toNode.rules.filterMap (·.condition? registry rootTable) := by
  rw [Group.formula, Node.conditions_formula]
  simp only [Group.toNode, Group.live, Node.rules, Node.rulesOf_pruneAll]
  induction Node.rulesOf g.children with
  | nil => rfl
  | cons r more ih =>
      by_cases resolves : r.resolves registry rootTable
      · rw [List.filter_cons_of_pos resolves, List.map_cons, ih, List.filterMap_cons_some
          (Rule.condition?_of_resolves registry rootTable resolves)]
      · rw [List.filter_cons_of_neg resolves, ih, List.filterMap_cons_none
          (Rule.condition?_of_not_resolves registry rootTable resolves)]

/-- Live trees over plain conditions have readable formulas. -/
theorem Node.readable_formula {node : Node}
    (plain : ∀ r ∈ node.rules, ∀ text, r.condition? registry rootTable = some text →
      Condition.IsPlain text)
    (live : node.isLive (Rule.resolves registry rootTable)) :
    ((node.prune (Rule.resolves registry rootTable)).formula registry rootTable).Readable := by
  induction node with
  | rule r =>
      rw [Node.isLive_rule] at live
      have found := Rule.condition?_of_resolves registry rootTable live
      exact .condition _ (Rule.condition?_ne_empty registry rootTable found)
        (plain r (by simp [Node.rules]) _ found)
  | group id combinator children ih =>
      rw [Node.prune, Node.formula, Node.formulas_eq_map]
      refine .group combinator _ ?_ ?_
      · rw [Ne, List.map_eq_nil_iff]
        exact Node.isLive_group.mp live
      · intro part member
        obtain ⟨pruned, inside, rfl⟩ := List.mem_map.mp member
        rw [Node.pruneAll_eq_map] at inside
        obtain ⟨child, kept, rfl⟩ := List.mem_map.mp inside
        obtain ⟨isChild, childLive⟩ := List.mem_filter.mp kept
        apply ih child isChild _ childLive
        intro r ofChild
        exact plain r (Node.mem_rules_group.mpr ⟨child, isChild, ofChild⟩)

end

/-- A filter string is read as a formula over the conditions of the rules with a known
field, in their order, that holds whenever the live part of the tree does. -/
theorem filterText_read (registry : Registry) (rootTable : String) (g : Group)
    (plain : ∀ r ∈ g.toNode.rules, ∀ text, r.condition? registry rootTable = some text →
      Condition.IsPlain text) :
    ∃ read, Formula.ofText? (g.filterText registry rootTable) = some read ∧
      read.conditions = g.toNode.rules.filterMap (·.condition? registry rootTable) ∧
      if (g.live registry rootTable).isEmpty then g.filterText registry rootTable = ""
      else ∀ truth, read.holds truth =
        ((g.live registry rootTable).formula registry rootTable).holds truth := by
  have empty := g.filterText_eq_empty_iff registry rootTable
  have conditions := g.conditions_live registry rootTable
  by_cases nothing : (g.live registry rootTable).children = []
  · refine ⟨.group .or [], ?_, ?_, ?_⟩
    · rw [empty.mpr nothing]
      rfl
    · rw [← conditions, Group.formula, Node.conditions_formula, Group.toNode, nothing]
      rfl
    · rw [if_pos (by simp [Group.isEmpty, nothing])]
      exact empty.mpr nothing
  · have live : g.toNode.isLive (Rule.resolves registry rootTable) := Node.isLive_group.mpr nothing
    have readable := Node.readable_formula registry rootTable plain live
    obtain ⟨read, found, agrees⟩ := Formula.ofText?_text readable
    refine ⟨read, ?_, ?_, ?_⟩
    · rw [g.filterText_eq_text registry rootTable]
      exact found
    · rw [← conditions]
      exact agrees.conditions
    · rw [if_neg (by simpa [Group.isEmpty] using nothing)]
      exact agrees.holds

/-- Orders by state or by customer, with a group that compiles to nothing. -/
def Group.sample : Group where
  id := "root"
  combinator := .or
  children :=
    [.rule ⟨"a", "order_state", .oneOf, .list [.text "OPEN", .text "SHIPPED"]⟩,
      .group "b" .and
        [.rule ⟨"c", "order_ref", .eq, .text "A1"⟩,
          .rule ⟨"d", "customer_email", .isNull, .absent⟩,
          .rule ⟨"e", "customer_name", .contains, .text "O'Hara"⟩],
      .group "f" .and [.rule ⟨"g", "unknown", .isNotNull, .absent⟩]]

theorem filterText_read_sample :
    (∀ r ∈ Group.sample.toNode.rules, ∀ text,
      r.condition? Registry.orders "orders" = some text → Condition.IsPlain text) ∧
    ∃ read, Formula.ofText?
        "state.in.(OPEN,SHIPPED),(and(reference.eq.A1,customers.name.ilike.*O''Hara*))" =
          some read ∧
      read.conditions =
        ["state.in.(OPEN,SHIPPED)", "reference.eq.A1", "customers.name.ilike.*O''Hara*"] := by
  have plain : ∀ r ∈ Group.sample.toNode.rules, ∀ text,
      r.condition? Registry.orders "orders" = some text → Condition.IsPlain text := by
    have each : ∀ r ∈ Group.sample.toNode.rules,
        ∀ text ∈ r.condition? Registry.orders "orders", Condition.IsPlain text := by
      decide
    exact fun r member text found => each r member text found
  refine ⟨plain, ?_⟩
  obtain ⟨read, found, conditions, -⟩ :=
    filterText_read Registry.orders "orders" Group.sample plain
  have text : Group.sample.filterText Registry.orders "orders" =
      "state.in.(OPEN,SHIPPED),(and(reference.eq.A1,customers.name.ilike.*O''Hara*))" := by
    decide
  have rendered : Group.sample.toNode.rules.filterMap
      (·.condition? Registry.orders "orders") =
      ["state.in.(OPEN,SHIPPED)", "reference.eq.A1", "customers.name.ilike.*O''Hara*"] := by
    decide
  exact ⟨read, by rw [← text, found], by rw [conditions, rendered]⟩

end Criteria
