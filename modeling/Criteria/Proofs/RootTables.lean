import Mathlib.Data.List.Forall2
import Criteria.Proofs.Diagnostics
import Criteria.Proofs.Joins
import Criteria.Proofs.Registration

set_option autoImplicit false

/-
What a query from one root table sees of a registry: the definitions of that table, and of
the other tables only whether an id is among theirs.
-/
namespace Criteria

/-- The two ways to report that a field is not known for queries from a root table. -/
inductive Problem.TellsUnresolved (field rootTable : String) : Problem → Prop where
  | foreign : TellsUnresolved field rootTable (.foreignField field rootTable)
  | unknown : TellsUnresolved field rootTable (.unknownField field)

/-- Two problems of a rule whose field is not known, both of which tell so. -/
structure Problem.Rewords (registry : Registry) (rootTable : String) (r : Rule) (p q : Problem) :
    Prop where
  unresolved : registry.resolve r.fieldId rootTable = none
  first : p.TellsUnresolved r.fieldId rootTable
  second : q.TellsUnresolved r.fieldId rootTable

/-- Two diagnostics of one node at one place, with the same problem unless the node is a
rule whose field is not known. -/
structure Diagnostic.Alike (registry : Registry) (rootTable : String) (d e : Diagnostic) :
    Prop where
  path : d.path = e.path
  node : d.node = e.node
  problem : d.problem = e.problem ∨
    ∃ r, d.node = .rule r ∧ Problem.Rewords registry rootTable r d.problem e.problem

theorem Node.fragments_eq_filter (registry : Registry) (rootTable : String) (nodes : List Node) :
    Node.fragments registry rootTable nodes =
      (nodes.map (Node.fragment registry rootTable)).filter fun fragment => !fragment.isEmpty := by
  induction nodes with
  | nil => rfl
  | cons node more ih =>
      rw [Node.fragments, ih, List.map_cons, List.filter_cons]
      cases (node.fragment registry rootTable).isEmpty <;> rfl

section
variable {one other : Registry} {rootTable : String}
  (same : ∀ id, one.resolve id rootTable = other.resolve id rootTable)
include same

theorem Rule.condition?_congr (r : Rule) :
    r.condition? one rootTable = r.condition? other rootTable := by
  rw [Rule.condition?, Rule.condition?, same]

theorem Node.fragment_congr (node : Node) :
    node.fragment one rootTable = node.fragment other rootTable := by
  induction node with
  | rule r => rw [Node.fragment, Node.fragment, Rule.condition?_congr same]
  | group id combinator children ih =>
      have each : children.map (Node.fragment one rootTable) =
          children.map (Node.fragment other rootTable) := List.map_congr_left ih
      rw [Node.fragment, Node.fragment, Node.fragments_eq_filter, Node.fragments_eq_filter, each]

theorem Group.filterText_congr (g : Group) :
    g.filterText one rootTable = g.filterText other rootTable := by
  have each : g.children.map (Node.fragment one rootTable) =
      g.children.map (Node.fragment other rootTable) :=
    List.map_congr_left fun node _ => Node.fragment_congr same node
  rw [Group.filterText, Group.filterText, Node.fragments_eq_filter, Node.fragments_eq_filter, each]

theorem Relations.ofTree_congr_registry (g : Group) :
    Relations.ofTree one rootTable g = Relations.ofTree other rootTable g := by
  simp only [Relations.ofTree, same]

/-- The other tables tell only on how it is worded that a field is not known. -/
theorem Rule.problems_alike (r : Rule) :
    List.Forall₂ (fun p q => p = q ∨ Problem.Rewords one rootTable r p q)
      (r.problems one rootTable) (r.problems other rootTable) := by
  have refl (problems : List Problem) :
      List.Forall₂ (fun p q => p = q ∨ Problem.Rewords one rootTable r p q) problems problems :=
    List.forall₂_same.mpr fun p _ => .inl rfl
  have told (registry : Registry) : ∃ p, Problem.TellsUnresolved r.fieldId rootTable p ∧
      (if (registry.lookup r.fieldId).isSome then [Problem.foreignField r.fieldId rootTable]
        else [Problem.unknownField r.fieldId]) = [p] := by
    split
    · exact ⟨_, .foreign, rfl⟩
    · exact ⟨_, .unknown, rfl⟩
  rw [Rule.problems, Rule.problems, ← same]
  refine List.rel_append (refl _) ?_
  cases found : one.resolve r.fieldId rootTable with
  | some f => exact refl _
  | none =>
      obtain ⟨p, first, isP⟩ := told one
      obtain ⟨q, second, isQ⟩ := told other
      split
      · exact refl _
      · dsimp only
        rw [isP, isQ]
        exact .cons (.inr ⟨found, first, second⟩) .nil

theorem Node.ownDiagnostics_alike (maxDepth : Nat) (path : Path) (node : Node) :
    List.Forall₂ (Diagnostic.Alike one rootTable)
      (node.ownDiagnostics one rootTable maxDepth path)
      (node.ownDiagnostics other rootTable maxDepth path) := by
  cases node with
  | group id combinator children =>
      exact List.forall₂_same.mpr fun d _ => ⟨rfl, rfl, .inl rfl⟩
  | rule r =>
      refine List.rel_map ?_ (Rule.problems_alike same r)
      intro p q alike
      exact ⟨rfl, rfl, alike.imp_right fun rewords => ⟨r, rfl, rewords⟩⟩

/-- Both validations report on the same nodes at the same places. -/
theorem Group.validate_alike (maxDepth : Nat) (g : Group) :
    List.Forall₂ (Diagnostic.Alike one rootTable)
      (g.validate one rootTable maxDepth) (g.validate other rootTable maxDepth) := by
  rw [Group.validate_eq_flatMap, Group.validate_eq_flatMap]
  refine List.rel_flatMap (List.forall₂_same.mpr fun _ _ => rfl) ?_
  rintro ⟨path, node⟩ _ rfl
  exact Node.ownDiagnostics_alike same maxDepth path node

theorem Rule.problems_congr {r : Rule}
    (known : (one.lookup r.fieldId).isSome = (other.lookup r.fieldId).isSome) :
    r.problems one rootTable = r.problems other rootTable := by
  rw [Rule.problems, Rule.problems, same, known]

theorem Group.validate_congr
    (known : ∀ id, (one.lookup id).isSome = (other.lookup id).isSome) (maxDepth : Nat) (g : Group) :
    g.validate one rootTable maxDepth = g.validate other rootTable maxDepth := by
  rw [Group.validate_eq_flatMap, Group.validate_eq_flatMap]
  apply List.flatMap_congr
  rintro ⟨path, node⟩ -
  cases node with
  | group id combinator children => rfl
  | rule r => rw [Node.ownDiagnostics, Node.ownDiagnostics, Rule.problems_congr same (known _)]

/-- What is compiled depends on the fields of the root table and on which ids are known. -/
theorem Query.compile_congr
    (known : ∀ id, (one.lookup id).isSome = (other.lookup id).isSome)
    (extraFields : List String) (maxDepth : Nat) (g : Group) :
    Query.compile ⟨one, rootTable, extraFields, maxDepth⟩ g =
      Query.compile ⟨other, rootTable, extraFields, maxDepth⟩ g := by
  rw [Query.compile, Query.compile, Relations.ofTree_congr_registry same,
    Group.filterText_congr same, Group.validate_congr same known]

end

namespace Registry

theorem IsConsistent.of_perm {fields reordered : List Field} (consistent : IsConsistent fields)
    (perm : fields.Perm reordered) : IsConsistent reordered where
  wellFormed f member := consistent.wellFormed f (perm.mem_iff.mpr member)
  distinct := perm.pairwise consistent.distinct fun apart same => apart ⟨same.1.symm, same.2.symm⟩

/-- A registry answers the same in whatever order its definitions are listed. -/
theorem resolve_holding_of_perm {fields reordered : List Field} (consistent : IsConsistent fields)
    (perm : fields.Perm reordered) (id rootTable : String) :
    (holding fields).resolve id rootTable = (holding reordered).resolve id rootTable := by
  apply Option.ext
  intro found
  rw [resolve_eq_some_iff consistent, resolve_eq_some_iff (consistent.of_perm perm)]
  simp only [perm.mem_iff]

end Registry

/-- Two registries that define the same fields for a root table give the same selection and
filter string to every tree, and diagnostics of the same nodes at the same places. These
differ only in how they put it that a field is not known, and only if some id is defined in
one registry and not in the other. In what order definitions are listed makes no difference. -/
theorem compile_sees_one_table :
    (∀ (one other : Registry) (rootTable : String),
      (∀ id, one.resolve id rootTable = other.resolve id rootTable) →
      ∀ (extraFields : List String) (maxDepth : Nat) (g : Group),
        let first := Query.compile ⟨one, rootTable, extraFields, maxDepth⟩ g
        let second := Query.compile ⟨other, rootTable, extraFields, maxDepth⟩ g
        first.select = second.select ∧ first.filter = second.filter ∧
          List.Forall₂ (Diagnostic.Alike one rootTable) first.diagnostics second.diagnostics ∧
          ((∀ id, (∃ table, (one.resolve id table).isSome) ↔
            ∃ table, (other.resolve id table).isSome) → first = second)) ∧
    ∀ (fields reordered : List Field) (r : Registry), fields.Perm reordered →
      Registry.ofFields fields = .ok r →
      ∃ s, Registry.ofFields reordered = .ok s ∧
        ∀ (rootTable : String) (extraFields : List String) (maxDepth : Nat) (g : Group),
          Query.compile ⟨r, rootTable, extraFields, maxDepth⟩ g =
            Query.compile ⟨s, rootTable, extraFields, maxDepth⟩ g := by
  have equal {one other : Registry} {rootTable : String}
      (same : ∀ id, one.resolve id rootTable = other.resolve id rootTable)
      (known : ∀ id, (∃ table, (one.resolve id table).isSome) ↔
        ∃ table, (other.resolve id table).isSome)
      (extraFields : List String) (maxDepth : Nat) (g : Group) :
      Query.compile ⟨one, rootTable, extraFields, maxDepth⟩ g =
        Query.compile ⟨other, rootTable, extraFields, maxDepth⟩ g := by
    have sameIds (id : String) := Registry.isSome_lookup_congr (known id)
    exact Query.compile_congr same sameIds extraFields maxDepth g
  constructor
  · intro one other rootTable same extraFields maxDepth g
    refine ⟨?_, Group.filterText_congr same g, Group.validate_alike same maxDepth g, fun known =>
      equal same known extraFields maxDepth g⟩
    exact congrArg (·.select extraFields) (Relations.ofTree_congr_registry same g)
  · intro fields reordered r perm made
    obtain ⟨consistent, rfl⟩ := Registry.ofFields_eq_ok_iff.mp made
    refine ⟨_, Registry.ofFields_of_isConsistent (consistent.of_perm perm), ?_⟩
    intro rootTable
    have same (id table : String) := Registry.resolve_holding_of_perm consistent perm id table
    exact equal (fun id => same id rootTable) fun id => by simp only [same]

/-- A field of customers, in front of one of orders or behind it, does not change what is
compiled for orders. Where it is not defined at all, its rule is reported in other words. -/
theorem compile_sees_one_table_email :
    let reference := Field.plain "ref" "Reference" .text "orders" "reference"
    let email := Field.plain "email" "Email" .text "customers" "email"
    let one : Registry := .holding [reference]
    let other : Registry := .holding [reference, email]
    let g : Group := ⟨"root", .and,
      [.rule ⟨"a", "ref", .eq, .text "A1"⟩, .rule ⟨"b", "email", .isNull, .absent⟩]⟩
    let first := Query.compile ⟨one, "orders", [], 3⟩ g
    let second := Query.compile ⟨other, "orders", [], 3⟩ g
    (∀ id, one.resolve id "orders" = other.resolve id "orders") ∧
      first.select = second.select ∧ first.filter = second.filter ∧
      List.Forall₂ (Diagnostic.Alike one "orders") first.diagnostics second.diagnostics ∧
      first.diagnostics.map Diagnostic.text = ["root.rules[1]: unknown field 'email'"] ∧
      second.diagnostics.map Diagnostic.text =
        ["root.rules[1]: field 'email' is not available on table 'orders'"] ∧
      Registry.ofFields [reference, email] = .ok other ∧
      ∃ s, Registry.ofFields [email, reference] = .ok s ∧
        Query.compile ⟨s, "orders", [], 3⟩ g = second := by
  intro reference email one other g first second
  have consistent : Registry.IsConsistent [reference, email] := by decide
  have same (id : String) : one.resolve id "orders" = other.resolve id "orders" := by
    rw [@Registry.resolve_holding [reference] (by decide), Registry.resolve_holding consistent]
    simp only [List.find?_cons]
    rfl
  have made : Registry.ofFields [reference, email] = .ok other :=
    Registry.ofFields_of_isConsistent consistent
  obtain ⟨select, filter, alike, -⟩ := compile_sees_one_table.1 one other "orders" same [] 3 g
  obtain ⟨s, remade, equal⟩ := compile_sees_one_table.2 [reference, email] [email, reference] other
    (List.Perm.swap email reference []) made
  exact ⟨same, select, filter, alike, by decide, by decide, made, s, remade,
    (equal "orders" [] 3 g).symm⟩

end Criteria
