import Criteria.Proofs.Joins
import Criteria.Proofs.Places

set_option autoImplicit false

/-
The order in which rules are met. A cursor is a stack of nodes that is popped until it is
empty; it comes up with the rules of a tree in the order of the document, which is the
order in which a selection looks at their fields and a filter string holds their conditions.
-/
namespace Criteria

theorem Node.sizes_reverse (nodes : List Node) : Node.sizes nodes.reverse = Node.sizes nodes := by
  induction nodes with
  | nil => rfl
  | cons node more ih =>
      simp only [List.reverse_cons, Node.sizes_append, Node.sizes, ih]
      omega

namespace Cursor

/-- The rules that a cursor comes up with when it is asked until it has none. -/
inductive Yields : Cursor → List Rule → Prop where
  | nil {cursor : Cursor} : cursor.next? = none → Yields cursor []
  | cons {cursor rest : Cursor} {r : Rule} {rules : List Rule} : cursor.next? = some (r, rest) →
      Yields rest rules → Yields cursor (r :: rules)

theorem Yields.of_next?_eq {cursor other : Cursor} {rules : List Rule}
    (same : cursor.next? = other.next?) (yields : other.Yields rules) : cursor.Yields rules := by
  cases yields with
  | nil ended => exact .nil (same.trans ended)
  | cons found rest => exact .cons (same.trans found) rest

theorem Yields.eq_rulesOf {cursor : Cursor} {rules : List Rule} (yields : cursor.Yields rules) :
    rules = Node.rulesOf cursor := by
  induction yields with
  | nil ended => rw [rulesOf_of_next?, ended]
  | cons found _ ih => rw [rulesOf_of_next?, found, ih]

/-- A pop of a stack, whose top is its last node. A rule comes up; a group gives way to its
children, the first of them on top. -/
inductive Pops : List Node → Option Rule → List Node → Prop where
  | rule (below : List Node) (r : Rule) : Pops (below ++ [.rule r]) (some r) below
  | group (below : List Node) (id : String) (combinator : Combinator) (children : List Node) :
      Pops (below ++ [.group id combinator children]) none (below ++ children.reverse)

/-- So many pops that leave nothing on a stack, and the rules that come up. -/
inductive Drains : Nat → List Node → List Rule → Prop where
  | nil : Drains 0 [] []
  | pop {pops : Nat} {stack rest : List Node} {up : Option Rule} {rules : List Rule} :
      Pops stack up rest → Drains pops rest rules → Drains (pops + 1) stack (up.toList ++ rules)

/-- Each pop is one of a node that never comes back. -/
theorem Pops.sizes_eq {stack rest : List Node} {up : Option Rule} (pops : Pops stack up rest) :
    Node.sizes stack = Node.sizes rest + 1 := by
  cases pops with
  | rule below r => simp only [Node.sizes_append, Node.sizes, Node.size]
  | group below id combinator children =>
      simp only [Node.sizes_append, Node.sizes_reverse, Node.sizes, Node.size]
      omega

/-- A cursor is a stack as it is seen from its top: it looks for the next rule by pops. -/
theorem Pops.next?_eq {stack rest : List Node} {up : Option Rule} (pops : Pops stack up rest) :
    next? stack.reverse = match up with
      | none => next? rest.reverse
      | some r => some (r, rest.reverse) := by
  cases pops with
  | rule below r => rw [List.reverse_concat, next?]
  | group below id combinator children =>
      rw [List.reverse_concat, next?, List.reverse_append, List.reverse_reverse]

theorem exists_pops {stack : List Node} (nonempty : stack ≠ []) : ∃ up rest, Pops stack up rest := by
  rw [← List.dropLast_concat_getLast nonempty]
  cases stack.getLast nonempty with
  | rule r => exact ⟨_, _, .rule _ r⟩
  | group id combinator children => exact ⟨_, _, .group _ id combinator children⟩

/-- Pops come to an end, since there is only one for each node. -/
theorem exists_drains (stack : List Node) : ∃ rules, Drains (Node.sizes stack) stack rules := by
  -- By the nodes that are left: the pop of a group can make the stack itself longer.
  induction size : Node.sizes stack generalizing stack with
  | zero =>
      by_cases empty : stack = []
      · subst empty
        exact ⟨[], .nil⟩
      · obtain ⟨up, rest, pops⟩ := exists_pops empty
        have := pops.sizes_eq
        omega
  | succ n ih =>
      have nonempty : stack ≠ [] := by
        intro empty
        subst empty
        cases size
      obtain ⟨up, rest, pops⟩ := exists_pops nonempty
      have fewer := pops.sizes_eq
      obtain ⟨rules, drains⟩ := ih rest (by omega)
      exact ⟨_, .pop pops drains⟩

theorem Drains.pops_eq {pops : Nat} {stack : List Node} {rules : List Rule}
    (drains : Drains pops stack rules) : pops = Node.sizes stack := by
  induction drains with
  | nil => rfl
  | pop first _ ih => rw [first.sizes_eq, ih]

theorem Drains.yields {pops : Nat} {stack : List Node} {rules : List Rule}
    (drains : Drains pops stack rules) : Yields stack.reverse rules := by
  induction drains with
  | nil => exact .nil (by rw [List.reverse_nil, next?])
  | @pop _ _ _ up _ first _ ih =>
      have same := first.next?_eq
      cases up with
      | none => exact ih.of_next?_eq same
      | some r => exact .cons same ih

theorem drains_iff {pops : Nat} {stack : List Node} {rules : List Rule} :
    Drains pops stack rules ↔
      pops = Node.sizes stack ∧ rules = Node.rulesOf stack.reverse := by
  constructor
  · intro drains
    exact ⟨drains.pops_eq, drains.yields.eq_rulesOf⟩
  · rintro ⟨rfl, rfl⟩
    obtain ⟨rules, drains⟩ := exists_drains stack
    rwa [← drains.yields.eq_rulesOf]

theorem yields_iff {cursor : Cursor} {rules : List Rule} :
    cursor.Yields rules ↔ rules = Node.rulesOf cursor := by
  constructor
  · exact Yields.eq_rulesOf
  · rintro rfl
    have yields := (drains_iff.mpr ⟨rfl, rfl⟩ : Drains _ cursor.reverse _).yields
    rwa [List.reverse_reverse] at yields

end Cursor

def Node.rule? : Node → Option Rule
  | .rule r => some r
  | .group .. => none

theorem Node.rule?_eq_some_iff {node : Node} {r : Rule} : node.rule? = some r ↔ node = .rule r := by
  cases node <;> simp [Node.rule?]

/-- The rules of a tree with their paths, in the order of the document, where the root has
the given path. -/
def Node.rulePlaces (node : Node) (path : Path) : List (Path × Rule) :=
  (node.places path).filterMap fun place => place.2.rule?.map fun r => (place.1, r)

/-- The places of rules in a group are those in its children, one child after the other. -/
theorem Node.rulePlaces_group (path : Path) (id : String) (combinator : Combinator)
    (children : List Node) :
    (Node.group id combinator children).rulePlaces path =
      children.zipIdx.flatMap fun child => child.1.rulePlaces (path ++ [child.2]) := by
  rw [rulePlaces, Node.places, List.filterMap_cons_none rfl, Node.placesFrom_eq_flatMap,
    List.filterMap_flatMap]
  rfl

theorem Node.map_snd_rulePlaces (node : Node) (path : Path) :
    (node.rulePlaces path).map Prod.snd = node.rules := by
  induction node generalizing path with
  | rule r => rfl
  | group id combinator children ih =>
      have each : ∀ child ∈ children.zipIdx,
          (child.1.rulePlaces (path ++ [child.2])).map Prod.snd = child.1.rules := by
        rintro ⟨child, index⟩ member
        exact ih child (List.mem_of_getElem? (List.mk_mem_zipIdx_iff_getElem?.mp member)) _
      have front : children.zipIdx.flatMap (fun child => child.1.rules) =
          children.flatMap Node.rules := by
        rw [← List.flatMap_map, List.zipIdx_map_fst]
      rw [rulePlaces_group, List.map_flatMap, List.flatMap_congr each, front, Node.rules,
        Node.rulesOf_eq_flatMap]

theorem Node.mem_rulePlaces {node : Node} {place : Path × Rule} :
    place ∈ node.rulePlaces [] ↔ node.at? place.1 = some (.rule place.2) := by
  rw [rulePlaces, List.mem_filterMap]
  constructor
  · rintro ⟨⟨path, inner⟩, isPlace, told⟩
    obtain ⟨r, isRule, rfl⟩ := Option.map_eq_some_iff.mp told
    have same : inner = .rule r := Node.rule?_eq_some_iff.mp isRule
    subst same
    exact Node.mem_places_root.mp isPlace
  · intro found
    exact ⟨(place.1, .rule place.2), Node.mem_places_root.mpr found, rfl⟩

theorem Node.rulePlaces_sorted (node : Node) (path : Path) :
    ((node.rulePlaces path).map Prod.fst).Pairwise (· < ·) := by
  have sorted := List.pairwise_map.mp (node.places_sorted path)
  rw [List.pairwise_map, rulePlaces, List.pairwise_filterMap]
  apply sorted.imp
  intro p q before a fromFirst b fromSecond
  obtain ⟨r, -, rfl⟩ := Option.map_eq_some_iff.mp fromFirst
  obtain ⟨s, -, rfl⟩ := Option.map_eq_some_iff.mp fromSecond
  exact before

/-- A text that holds conditions in their order, and else only marks of filter strings in
front of them, between them and behind them. -/
inductive Emits : List String → String → Prop where
  | nil : Emits [] ""
  | mark {conditions : List String} {text : String} (mark : String) :
      mark ∈ [",", "(", ")", "and("] → Emits conditions text → Emits conditions (mark ++ text)
  | condition {conditions : List String} {text : String} (first : String) :
      Emits conditions text → Emits (first :: conditions) (first ++ text)

namespace Emits

theorem append {front back : List String} {text rest : String} (emits : Emits front text)
    (behind : Emits back rest) : Emits (front ++ back) (text ++ rest) := by
  induction emits with
  | nil => rwa [List.nil_append, String.empty_append]
  | mark mark isMark _ ih =>
      rw [String.append_assoc]
      exact .mark mark isMark ih
  | condition first _ ih =>
      rw [List.cons_append, String.append_assoc]
      exact .condition first ih

theorem ofMark {mark : String} (isMark : mark ∈ [",", "(", ")", "and("]) : Emits [] mark := by
  have emits := Emits.nil.mark mark isMark
  rwa [String.append_empty] at emits

/-- Marks around a text. -/
theorem within {conditions : List String} {text opening closing : String}
    (emits : Emits conditions text) (isOpening : opening ∈ [",", "(", ")", "and("])
    (isClosing : closing ∈ [",", "(", ")", "and("]) :
    Emits conditions (opening ++ text ++ closing) := by
  have closed := (emits.mark opening isOpening).append (ofMark isClosing)
  rwa [List.append_nil] at closed

theorem intercalate {parts : List Formula}
    (each : ∀ part ∈ parts, Emits part.conditions part.fragment) :
    Emits (parts.flatMap Formula.conditions)
      (String.intercalate "," (parts.map Formula.fragment)) := by
  induction parts with
  | nil => exact .nil
  | cons part more ih =>
      have first := each part List.mem_cons_self
      have rest := ih fun other member => each other (List.mem_cons_of_mem part member)
      cases more with
      | nil =>
          rw [List.flatMap_singleton]
          exact first
      | cons next more =>
          rw [List.map_cons, List.map_cons, String.intercalate_cons_cons, List.flatMap_cons,
            String.append_assoc]
          exact first.append (rest.mark "," (by simp))

theorem join (combinator : Combinator) {parts : List Formula}
    (each : ∀ part ∈ parts, Emits part.conditions part.fragment) :
    Emits (parts.flatMap Formula.conditions) (combinator.join (parts.map Formula.fragment)) := by
  have listed := intercalate each
  match combinator, parts with
  | .or, parts => rwa [Combinator.join_or]
  | .and, [] => exact listed
  | .and, [_] => exact listed
  | .and, _ :: _ :: _ => exact listed.within (by simp) (by simp)

end Emits

/-- The text of a formula holds its conditions from left to right. -/
theorem Formula.emits_fragment (formula : Formula) :
    Emits formula.conditions formula.fragment := by
  induction formula with
  | condition text =>
      have alone := Emits.nil.condition text
      rwa [String.append_empty] at alone
  | group combinator parts ih =>
      rw [conditions_group, fragment_group]
      exact (Emits.join combinator ih).within (by simp) (by simp)

theorem Formula.emits_text (formula : Formula) : Emits formula.conditions formula.text := by
  cases formula with
  | condition text => exact Formula.emits_fragment (.condition text)
  | group combinator parts =>
      rw [conditions_group]
      exact Emits.join combinator fun part _ => part.emits_fragment

section
variable (registry : Registry) (rootTable : String)

/-- The rules of a tree whose field is known, with their fields. -/
def Group.knownRules (g : Group) : List (Rule × Field) :=
  g.toNode.rules.filterMap fun r => (registry.resolve r.fieldId rootTable).map fun f => (r, f)

theorem Group.map_fst_knownRules (g : Group) :
    (g.knownRules registry rootTable).map Prod.fst =
      g.toNode.rules.filter (Rule.resolves registry rootTable) := by
  rw [knownRules, List.map_filterMap, ← List.filterMap_eq_filter]
  apply List.filterMap_congr
  intro r _
  cases found : registry.resolve r.fieldId rootTable <;> simp [Rule.resolves, found, Option.guard]

theorem Group.map_snd_knownRules (g : Group) :
    (g.knownRules registry rootTable).map Prod.snd = g.knownFields registry rootTable := by
  rw [knownRules, List.map_filterMap, knownFields]
  apply List.filterMap_congr
  intro r _
  rw [Option.map_map]
  exact Option.map_id'

theorem Group.emits_filterText (g : Group) :
    Emits ((g.knownRules registry rootTable).map fun known =>
        known.2.storagePath ++ "." ++ Condition.predicate known.1.operator known.1.value)
      (g.filterText registry rootTable) := by
  have conditions : (g.knownRules registry rootTable).map (fun known =>
        known.2.storagePath ++ "." ++ Condition.predicate known.1.operator known.1.value) =
      ((g.live registry rootTable).formula registry rootTable).conditions := by
    rw [Group.conditions_live, knownRules, List.map_filterMap]
    apply List.filterMap_congr
    intro r _
    rw [Option.map_map]
    rfl
  rw [conditions, Group.filterText_eq_text]
  exact Formula.emits_text _

end

/-- A cursor over a tree ends, after one pop for each node below the root, and has come up
with the rules of the tree from left to right, each at the one place where it stands. Of those
with a known field, a filter string holds the conditions and a selection collects the
relations in this same order. -/
theorem cursor_follows_document (g : Group) :
    (∀ rules, Cursor.Yields g.children rules ↔ rules = g.toNode.rules) ∧
      (∀ pops rules, Cursor.Drains pops g.children.reverse rules ↔
        pops = Node.sizes g.children ∧ rules = g.toNode.rules) ∧
      g.rules = g.toNode.rules ∧
      (g.toNode.rulePlaces []).map Prod.snd = g.rules ∧
      ((g.toNode.rulePlaces []).map Prod.fst).Pairwise (· < ·) ∧
      (∀ place, place ∈ g.toNode.rulePlaces [] ↔
        g.toNode.at? place.1 = some (.rule place.2)) ∧
      ∀ registry rootTable,
        let known := g.knownRules registry rootTable
        known.map Prod.fst = g.rules.filter (Rule.resolves registry rootTable) ∧
          Emits (known.map fun (r, f) =>
            f.storagePath ++ "." ++ Condition.predicate r.operator r.value)
            (g.filterText registry rootTable) ∧
          (Relations.ofTree registry rootTable g).Collects (known.map Prod.snd) := by
  have rules : g.rules = g.toNode.rules := Cursor.rules_eq_rulesOf g.children
  refine ⟨fun _ => Cursor.yields_iff, ?_, rules, ?_, g.toNode.rulePlaces_sorted [],
    fun _ => Node.mem_rulePlaces, ?_⟩
  · intro pops met
    rw [Cursor.drains_iff, Node.sizes_reverse, List.reverse_reverse]
    rfl
  · rw [rules]
    exact g.toNode.map_snd_rulePlaces []
  · intro registry rootTable known
    refine ⟨?_, g.emits_filterText registry rootTable, ?_⟩
    · rw [rules]
      exact g.map_fst_knownRules registry rootTable
    · rw [Group.map_snd_knownRules]
      exact Relations.ofTree_collects registry rootTable g

end Criteria
