import Mathlib.Data.List.Basic
import Criteria.Proofs.Places

set_option autoImplicit false

/-
Diagnostics by place. A validation lists, node by node in the order of the document,
what is reported of each node whose enclosing groups are all within the limit.
-/
namespace Criteria

def Node.isGroup : Node → Bool
  | .rule _ => false
  | .group _ _ _ => true

/-- Whether no group around a place is nested too deep. -/
def isVisible (maxDepth : Nat) (place : Path × Node) : Bool :=
  place.1.ancestors.all fun above => decide (above.length ≤ maxDepth)

/-- What is reported of a node itself, at a place that is visible. -/
def Node.ownDiagnostics (registry : Registry) (rootTable : String) (maxDepth : Nat) (path : Path) :
    Node → List Diagnostic
  | .rule r => (r.problems registry rootTable).map fun p => ⟨path, p, .rule r⟩
  | .group id combinator children =>
      let node := .group id combinator children
      if path.length = maxDepth + 1 then [⟨path, .tooDeep maxDepth, node⟩]
      else if children = [] then [⟨path, .emptyGroup, node⟩]
      else []

section
variable (registry : Registry) (rootTable : String) (maxDepth : Nat)

theorem isVisible_iff (place : Path × Node) :
    isVisible maxDepth place ↔ place.1.length ≤ maxDepth + 1 := by
  rw [isVisible, List.all_eq_true, ← Path.ancestors_length_le_iff]
  simp only [decide_eq_true_eq]

theorem Node.diagnosticsFrom_eq_flatMap (path : Path) (index : Nat) (nodes : List Node) :
    Node.diagnosticsFrom registry rootTable maxDepth path index nodes =
      (nodes.zipIdx index).flatMap fun child =>
        child.1.diagnostics registry rootTable maxDepth (path ++ [child.2]) := by
  induction nodes generalizing index with
  | nil => rfl
  | cons node more ih => rw [Node.diagnosticsFrom, ih, List.zipIdx_cons, List.flatMap_cons]

/-- Below a group that is nested too deep no place is visible. -/
theorem filter_placesFrom_of_deep {path : Path} (deep : path.length = maxDepth + 1)
    (nodes : List Node) :
    (Node.placesFrom path 0 nodes).filter (isVisible maxDepth) = [] := by
  rw [Node.placesFrom_eq_flatMap, List.filter_eq_nil_iff]
  intro place member visible
  obtain ⟨⟨child, index⟩, -, inside⟩ := List.mem_flatMap.mp member
  obtain ⟨rest, samePath, -⟩ := Node.mem_places.mp inside
  rw [isVisible_iff, samePath] at visible
  simp only [List.length_append, List.length_cons, List.length_nil] at visible
  omega

/-- A walk over a tree reports place by place. -/
theorem Node.diagnostics_eq_flatMap (node : Node) {path : Path}
    (reached : path.length ≤ maxDepth + 1) :
    node.diagnostics registry rootTable maxDepth path =
      ((node.places path).filter (isVisible maxDepth)).flatMap fun place =>
        place.2.ownDiagnostics registry rootTable maxDepth place.1 := by
  induction node generalizing path with
  | rule r =>
      have visible : isVisible maxDepth (path, .rule r) := (isVisible_iff maxDepth _).mpr reached
      rw [Node.places, List.filter_cons_of_pos visible, List.filter_nil, List.flatMap_singleton]
      rfl
  | group id combinator children ih =>
      have visible : isVisible maxDepth (path, .group id combinator children) :=
        (isVisible_iff maxDepth _).mpr reached
      rw [Node.diagnostics, Node.places, List.filter_cons_of_pos visible, List.flatMap_cons]
      by_cases deep : path.length = maxDepth + 1
      · rw [filter_placesFrom_of_deep maxDepth deep, List.flatMap_nil, List.append_nil,
          if_pos (by omega), Node.ownDiagnostics, if_pos deep]
      · rw [if_neg (by omega), Node.ownDiagnostics, if_neg deep, Node.diagnosticsFrom_eq_flatMap,
          Node.placesFrom_eq_flatMap, List.filter_flatMap, List.flatMap_assoc]
        congr 1
        · simp only [List.isEmpty_iff]
        · apply List.flatMap_congr
          rintro ⟨child, index⟩ member
          have isChild := List.mk_mem_zipIdx_iff_getElem?.mp member
          apply ih child (List.mem_of_getElem? isChild)
          simp only [List.length_append, List.length_cons, List.length_nil]
          omega

theorem Group.validate_eq_flatMap (g : Group) :
    g.validate registry rootTable maxDepth =
      ((g.toNode.places []).filter (isVisible maxDepth)).flatMap fun place =>
        place.2.ownDiagnostics registry rootTable maxDepth place.1 :=
  g.toNode.diagnostics_eq_flatMap registry rootTable maxDepth (Nat.zero_le _)

/-- What a node reports of itself names its path and holds the node. -/
theorem Node.path_node_of_mem_ownDiagnostics {node : Node} {path : Path} {d : Diagnostic}
    (own : d ∈ node.ownDiagnostics registry rootTable maxDepth path) :
    d.path = path ∧ d.node = node := by
  cases node with
  | rule r =>
      obtain ⟨p, -, rfl⟩ := List.mem_map.mp own
      exact ⟨rfl, rfl⟩
  | group id combinator children =>
      rw [Node.ownDiagnostics] at own
      split at own
      · rw [List.mem_singleton.mp own]
        exact ⟨rfl, rfl⟩
      · split at own
        · rw [List.mem_singleton.mp own]
          exact ⟨rfl, rfl⟩
        · cases own

theorem Group.mem_validate_iff {g : Group} {d : Diagnostic} :
    d ∈ g.validate registry rootTable maxDepth ↔
      g.toNode.at? d.path = some d.node ∧ d.path.length ≤ maxDepth + 1 ∧
        d ∈ d.node.ownDiagnostics registry rootTable maxDepth d.path := by
  rw [Group.validate_eq_flatMap, List.mem_flatMap]
  constructor
  · intro reported
    obtain ⟨⟨path, node⟩, member, own⟩ := reported
    obtain ⟨isPlace, visible⟩ := List.mem_filter.mp member
    obtain ⟨rfl, rfl⟩ := Node.path_node_of_mem_ownDiagnostics registry rootTable maxDepth own
    exact ⟨Node.mem_places_root.mp isPlace, (isVisible_iff maxDepth _).mp visible, own⟩
  · intro present
    obtain ⟨found, reached, own⟩ := present
    refine ⟨(d.path, d.node), List.mem_filter.mpr ⟨?_, ?_⟩, own⟩
    · exact Node.mem_places_root.mpr found
    · exact (isVisible_iff maxDepth _).mpr reached

/-- Nothing is found exactly where no visible node has anything to report of itself. -/
theorem Group.validate_eq_nil_iff_own (g : Group) :
    g.validate registry rootTable maxDepth = [] ↔
      ∀ path node, g.toNode.at? path = some node → path.length ≤ maxDepth + 1 →
        node.ownDiagnostics registry rootTable maxDepth path = [] := by
  rw [Group.validate_eq_flatMap, List.flatMap_eq_nil_iff]
  constructor
  · intro clean path node found reached
    exact clean (path, node) (List.mem_filter.mpr
      ⟨Node.mem_places_root.mpr found, (isVisible_iff maxDepth _).mpr reached⟩)
  · intro clean place member
    obtain ⟨isPlace, visible⟩ := List.mem_filter.mp member
    exact clean place.1 place.2 (Node.mem_places_root.mp isPlace)
      ((isVisible_iff maxDepth _).mp visible)

end

/-- A text keeps its first character when it is continued. -/
private theorem head?_append {c : Char} {s : String} (head : s.toList.head? = some c) (t : String) :
    (s ++ t).toList.head? = some c := by
  rw [String.toList_append, List.head?_append, head]
  rfl

theorem Misfit.exists_head_message (m : Misfit) :
    ∃ c, c ≠ 'm' ∧ m.message.toList.head? = some c := by
  cases m with
  | kind =>
      refine ⟨'f', by decide, ?_⟩
      iterate 5 refine head?_append ?_ _
      decide
  | notFinite =>
      refine ⟨'f', by decide, ?_⟩
      iterate 2 refine head?_append ?_ _
      decide
  | notDate | notOption =>
      refine ⟨'i', by decide, ?_⟩
      iterate 4 refine head?_append ?_ _
      decide

theorem Problem.exists_head_message {p : Problem} (other : ∀ limit, p ≠ .tooDeep limit) :
    ∃ c, c ≠ 'm' ∧ p.message.toList.head? = some c := by
  cases p with
  | tooDeep limit => exact False.elim (other limit rfl)
  | misfit m => exact m.exists_head_message
  | emptyGroup => exact ⟨'g', by decide, by decide⟩
  | missingId => exact ⟨'r', by decide, by decide⟩
  | missingField => exact ⟨'f', by decide, by decide⟩
  | foreignField =>
      refine ⟨'f', by decide, ?_⟩
      iterate 4 refine head?_append ?_ _
      decide
  | unknownField =>
      refine ⟨'u', by decide, ?_⟩
      iterate 2 refine head?_append ?_ _
      decide
  | operatorNotAllowed =>
      refine ⟨'o', by decide, ?_⟩
      iterate 4 refine head?_append ?_ _
      decide
  | unwantedValue | missingValue | listRequired | singleRequired =>
      refine ⟨'o', by decide, ?_⟩
      iterate 2 refine head?_append ?_ _
      decide
  | itemMisfit =>
      refine ⟨'i', by decide, ?_⟩
      iterate 3 refine head?_append ?_ _
      decide

theorem Problem.message_tooDeep (limit : Nat) : (Problem.tooDeep limit).message =
    "maximum nesting depth of " ++ toString limit ++ " exceeded" := rfl

theorem Problem.tooDeep_message_injective {m n : Nat}
    (same : (Problem.tooDeep m).message = (Problem.tooDeep n).message) : m = n := by
  rw [Problem.message_tooDeep, Problem.message_tooDeep] at same
  have numbers := (String.append_right_inj _).mp ((String.append_left_inj " exceeded").mp same)
  have digits := congrArg String.toList numbers
  rw [Nat.toString_eq_repr, Nat.toString_eq_repr, Nat.toList_repr, Nat.toList_repr] at digits
  exact toDigits_injective digits

/-- Only the depth of a group is reported in the words for it. -/
theorem Problem.message_eq_tooDeep_iff {p : Problem} {limit : Nat} :
    p.message = (Problem.tooDeep limit).message ↔ p = .tooDeep limit := by
  constructor
  · intro same
    by_cases deep : ∃ other, p = .tooDeep other
    · obtain ⟨other, rfl⟩ := deep
      rw [Problem.tooDeep_message_injective same]
    · obtain ⟨c, notM, head⟩ := Problem.exists_head_message fun other isDeep => deep ⟨other, isDeep⟩
      have headDeep : (Problem.tooDeep limit).message.toList.head? = some 'm' :=
        head?_append (head?_append (by decide) _) _
      rw [same, headDeep] at head
      exact False.elim (notM (Option.some.inj head).symm)
  · intro same
    rw [same]

theorem Field.tooDeep_not_mem_valueProblems (f : Field) (op : Operator) (value : Value)
    (limit : Nat) : Problem.tooDeep limit ∉ f.valueProblems op value := by
  intro member
  unfold Field.valueProblems Field.itemProblems at member
  repeat' split at member
  all_goals simp at member

/-- A rule is never reported as nested too deep. -/
theorem Rule.tooDeep_not_mem_problems (registry : Registry) (rootTable : String) (r : Rule)
    (limit : Nat) : Problem.tooDeep limit ∉ r.problems registry rootTable := by
  intro member
  unfold Rule.problems at member
  rcases List.mem_append.mp member with first | rest
  · split at first <;> simp at first
  · split at rest
    · simp at rest
    · split at rest
      · split at rest <;> simp at rest
      · rcases List.mem_append.mp rest with operator | value
        · split at operator <;> simp at operator
        · exact Field.tooDeep_not_mem_valueProblems _ _ _ limit value

section
variable (registry : Registry) (rootTable : String) (maxDepth : Nat)

/-- Whether a diagnostic tells that a group is nested too deep. -/
def Diagnostic.tellsDepth (d : Diagnostic) : Bool :=
  d.problem.message == (Problem.tooDeep maxDepth).message

/-- Whether a place is that of a group one level below the limit. -/
def isPastLimit (place : Path × Node) : Bool :=
  place.2.isGroup && place.1.length == maxDepth + 1

theorem countP_ownDiagnostics (place : Path × Node) :
    (place.2.ownDiagnostics registry rootTable maxDepth place.1).countP
        (Diagnostic.tellsDepth maxDepth) =
      if isPastLimit maxDepth place then 1 else 0 := by
  obtain ⟨path, node⟩ := place
  cases node with
  | rule r =>
      rw [if_neg (by simp [isPastLimit, Node.isGroup]), List.countP_eq_zero]
      intro d own tells
      obtain ⟨p, member, rfl⟩ := List.mem_map.mp own
      rw [Diagnostic.tellsDepth, beq_iff_eq, Problem.message_eq_tooDeep_iff] at tells
      subst tells
      exact Rule.tooDeep_not_mem_problems registry rootTable r maxDepth member
  | group id combinator children =>
      have notEmpty : Problem.emptyGroup.message ≠ (Problem.tooDeep maxDepth).message := by
        intro same
        cases Problem.message_eq_tooDeep_iff.mp same
      by_cases deep : path.length = maxDepth + 1
      · simp [Node.ownDiagnostics, isPastLimit, Node.isGroup, deep, Diagnostic.tellsDepth]
      · by_cases empty : children = [] <;>
          simp [Node.ownDiagnostics, isPastLimit, Node.isGroup, deep, empty, Diagnostic.tellsDepth,
            notEmpty]

/-- Each group one level below the limit is reported as such exactly once. -/
theorem Group.countP_validate (g : Group) :
    (g.validate registry rootTable maxDepth).countP (Diagnostic.tellsDepth maxDepth) =
      (g.toNode.places []).countP (isPastLimit maxDepth) := by
  have general (places : List (Path × Node)) :
      (places.flatMap fun place =>
          place.2.ownDiagnostics registry rootTable maxDepth place.1).countP
        (Diagnostic.tellsDepth maxDepth) = places.countP (isPastLimit maxDepth) := by
    induction places with
    | nil => rfl
    | cons place more ih =>
        rw [List.flatMap_cons, List.countP_append, ih, countP_ownDiagnostics, List.countP_cons,
          Nat.add_comm]
  have visible (place : Path × Node) (past : isPastLimit maxDepth place) :
      isVisible maxDepth place := by
    simp only [isPastLimit, Bool.and_eq_true, beq_iff_eq] at past
    rw [isVisible_iff]
    omega
  rw [Group.validate_eq_flatMap, general, List.countP_filter]
  apply List.countP_congr
  intro place _
  rw [Bool.and_eq_true]
  exact ⟨fun both => both.1, fun past => ⟨past, visible place past⟩⟩

end

/-- A rule alone in a group is reported with the same problems at every limit. -/
theorem Group.validate_singleton (registry : Registry) (rootTable : String) (maxDepth : Nat)
    (id : String) (r : Rule) :
    (Group.validate registry rootTable maxDepth ⟨id, .and, [.rule r]⟩).map (·.problem) =
      r.problems registry rootTable := by
  have flat (start : List Problem) : start.map (fun p => (⟨[0], p, .rule r⟩ : Diagnostic).problem) =
      start := List.map_id' start
  simp only [Group.validate, Group.toNode, Node.diagnostics, Node.diagnosticsFrom,
    List.length_nil, Nat.not_lt_zero, ↓reduceIte, List.isEmpty_cons, Bool.false_eq_true,
    List.nil_append, List.append_nil, List.map_map]
  exact flat _

/-- A validation reports node by node in the order of the document, as far as the
enclosing groups are within the limit. Each diagnostic has the path that leads to its
node, each node has a path of its own, and each group just past the limit is told once. -/
theorem validate_by_place (registry : Registry) (rootTable : String) (maxDepth : Nat) (g : Group) :
    g.validate registry rootTable maxDepth =
        ((g.toNode.places []).filter (isVisible maxDepth)).flatMap (fun place =>
          place.2.ownDiagnostics registry rootTable maxDepth place.1) ∧
      (∀ place, place ∈ g.toNode.places [] ↔ g.toNode.at? place.1 = some place.2) ∧
      ((g.toNode.places []).map Prod.fst).Pairwise (· < ·) ∧
      ((g.toNode.places []).map fun place => place.1.text).Nodup ∧
      (∀ r id limit, (Group.validate registry rootTable limit ⟨id, .and, [.rule r]⟩).map
        (·.problem) = r.problems registry rootTable) ∧
      (∀ d ∈ g.validate registry rootTable maxDepth,
        d.path.text = "root" ++ String.join (d.path.map Path.stepText) ∧
          g.toNode.at? d.path = some d.node) ∧
      (g.validate registry rootTable maxDepth).countP (Diagnostic.tellsDepth maxDepth) =
        (g.toNode.places []).countP (isPastLimit maxDepth) := by
  refine ⟨g.validate_eq_flatMap registry rootTable maxDepth, fun _ => Node.mem_places_root,
    g.toNode.places_sorted [], g.toNode.nodup_text_places, ?_, ?_,
    g.countP_validate registry rootTable maxDepth⟩
  · intro r id limit
    exact Group.validate_singleton registry rootTable limit id r
  · intro d member
    exact ⟨d.path.text_eq_join, ((g.mem_validate_iff registry rootTable maxDepth).mp member).1⟩

/-- The eleventh child of the root, a group past the limit 0, is told at `root.rules[10]`. -/
theorem validate_by_place_eleventh :
    let g : Group := ⟨"root", .and, List.replicate 10 (.rule ⟨"r", "f", .isNull, .absent⟩) ++
      [.group "deep" .or []]⟩
    let d : Diagnostic := ⟨[10], .tooDeep 0, .group "deep" .or []⟩
    d ∈ g.validate Registry.empty "orders" 0 ∧ d.path.text = "root.rules[10]" ∧
      d.path.text = "root" ++ String.join (d.path.map Path.stepText) ∧
      g.toNode.at? d.path = some d.node := by
  intro g d
  have member : d ∈ g.validate Registry.empty "orders" 0 :=
    (Group.mem_validate_iff Registry.empty "orders" 0).mpr
      ⟨rfl, by decide, List.mem_singleton.mpr rfl⟩
  have located := (validate_by_place Registry.empty "orders" 0 g).2.2.2.2.2.1 d member
  exact ⟨member, by decide, located⟩

end Criteria
