import Criteria.Proofs.Trees
import Criteria.Validation

set_option autoImplicit false

/-
The places of the nodes of a tree. The steps of a path lead from the root to one node,
the nodes are listed with their paths in the order of the document, and the text of a
path tells all its steps.
-/
namespace Criteria

/-- The paths of the groups that enclose the node at a path. -/
def Path.ancestors (path : Path) : List Path := (List.range path.length).map path.take

/-- The text of one step of a path. -/
def Path.stepText (index : Nat) : String := ".rules[" ++ toString index ++ "]"

theorem Path.ancestors_length_le_iff (path : Path) (limit : Nat) :
    (∀ above ∈ path.ancestors, above.length ≤ limit) ↔ path.length ≤ limit + 1 := by
  simp only [Path.ancestors, List.mem_map, List.mem_range, forall_exists_index, and_imp,
    forall_apply_eq_imp_iff₂, List.length_take]
  constructor
  · intro each
    rcases Nat.lt_or_ge (limit + 1) path.length with deep | shallow
    · have := each (limit + 1) deep
      omega
    · exact shallow
  · intro bound count below
    omega

theorem Path.text_eq_join (path : Path) :
    path.text = "root" ++ String.join (path.map Path.stepText) := by
  have general (start : String) :
      path.foldl (fun text index => text ++ ".rules[" ++ toString index ++ "]") start =
        start ++ String.join (path.map Path.stepText) := by
    induction path generalizing start with
    | nil => simp
    | cons index more ih =>
        rw [List.foldl_cons, ih, List.map_cons, String.join_cons, Path.stepText]
        simp only [String.append_assoc]
  exact general "root"

theorem toDigits_injective {m n : Nat} (same : Nat.toDigits 10 m = Nat.toDigits 10 n) : m = n := by
  rw [← Nat.ofDigitChars_ten_toDigits (n := m), ← Nat.ofDigitChars_ten_toDigits (n := n), same]

/-- Digits end at the bracket behind them. -/
private theorem digits_of_append_bracket {m n : Nat} {xs ys : List Char}
    (same : Nat.toDigits 10 m ++ ']' :: xs = Nat.toDigits 10 n ++ ']' :: ys) : m = n ∧ xs = ys := by
  have digits (k : Nat) : ∀ c ∈ Nat.toDigits 10 k, (c != ']') = true := by
    intro c member
    have isDigit := Nat.isDigit_of_mem_toDigits (by omega) (by omega) member
    have other : c ≠ ']' := by
      intro same
      subst same
      exact absurd isDigit (by decide)
    simpa using other
  have front := congrArg (List.takeWhile (· != ']')) same
  have back := congrArg (List.dropWhile (· != ']')) same
  rw [List.takeWhile_append_of_pos (digits m), List.takeWhile_append_of_pos (digits n)] at front
  rw [List.dropWhile_append_of_pos (digits m), List.dropWhile_append_of_pos (digits n)] at back
  simp only [bne_self_eq_false, Bool.false_eq_true, not_false_eq_true, List.takeWhile_cons_of_neg,
    List.append_nil, List.dropWhile_cons_of_neg, List.cons.injEq, true_and] at front back
  exact ⟨toDigits_injective front, back⟩

theorem Path.text_injective {p q : Path} (same : p.text = q.text) : p = q := by
  rw [Path.text_eq_join, Path.text_eq_join] at same
  have chars : (p.map Path.stepText).flatMap String.toList =
      (q.map Path.stepText).flatMap String.toList := by
    have := congrArg String.toList same
    rwa [String.toList_append, String.toList_append, List.append_cancel_left_eq,
      String.toList_join, String.toList_join] at this
  clear same
  have step (index : Nat) :
      (Path.stepText index).toList = ".rules[".toList ++ (Nat.toDigits 10 index ++ [']']) := by
    simp [Path.stepText]
  induction p generalizing q with
  | nil =>
      cases q with
      | nil => rfl
      | cons j q => simp [step] at chars
  | cons i p ih =>
      cases q with
      | nil => simp [step] at chars
      | cons j q =>
          simp only [List.map_cons, List.flatMap_cons, step, List.append_assoc,
            List.append_cancel_left_eq, List.singleton_append] at chars
          obtain ⟨rfl, rest⟩ := digits_of_append_bracket chars
          rw [ih rest]

/-- The node that the steps of a path lead to. -/
def Node.at? (node : Node) : Path → Option Node
  | [] => some node
  | index :: path => node.children[index]?.bind fun child => child.at? path

theorem Node.at?_append (node : Node) (front back : Path) :
    node.at? (front ++ back) = (node.at? front).bind fun inner => inner.at? back := by
  induction front generalizing node with
  | nil => rfl
  | cons index front ih =>
      rw [List.cons_append, Node.at?, Node.at?]
      cases node.children[index]? with
      | none => rfl
      | some child => exact ih child

/-- The nodes on the way to another node are groups. -/
theorem Node.exists_group_at?_take {node sub : Node} {path : Path}
    (found : node.at? path = some sub) {count : Nat} (above : count < path.length) :
    ∃ id combinator children,
      node.at? (path.take count) = some (.group id combinator children) := by
  rw [← List.take_append_drop count path, Node.at?_append] at found
  obtain ⟨inner, foundInner, rest⟩ := Option.bind_eq_some_iff.mp found
  rw [foundInner]
  cases inner with
  | rule r =>
      rw [List.drop_eq_getElem_cons above] at rest
      simp [Node.at?, Node.children] at rest
  | group id combinator children => exact ⟨id, combinator, children, rfl⟩

theorem Node.mem_rules_iff {node : Node} {r : Rule} :
    r ∈ node.rules ↔ ∃ path, node.at? path = some (.rule r) := by
  induction node with
  | rule other =>
      rw [Node.rules, List.mem_singleton]
      constructor
      · intro same
        rw [same]
        exact ⟨[], rfl⟩
      · intro reached
        obtain ⟨path, found⟩ := reached
        cases path with
        | nil =>
            cases found
            rfl
        | cons index path => simp [Node.at?, Node.children] at found
  | group id combinator children ih =>
      rw [Node.mem_rules_group]
      constructor
      · intro held
        obtain ⟨child, member, inside⟩ := held
        obtain ⟨path, found⟩ := (ih child member).mp inside
        obtain ⟨index, isChild⟩ := List.mem_iff_getElem?.mp member
        refine ⟨index :: path, ?_⟩
        rw [Node.at?, Node.children, isChild]
        exact found
      · intro reached
        obtain ⟨path, found⟩ := reached
        cases path with
        | nil => cases found
        | cons index path =>
            obtain ⟨child, isChild, foundChild⟩ := Option.bind_eq_some_iff.mp found
            have member := List.mem_of_getElem? isChild
            exact ⟨child, member, (ih child member).mpr ⟨path, foundChild⟩⟩

/-- Nothing is pruned from a tree without empty groups of which every rule is kept. -/
theorem Node.prune_eq_self {keeps : Rule → Bool} {node : Node} (all : ∀ r ∈ node.rules, keeps r)
    (full : ∀ path id combinator children,
      node.at? path = some (.group id combinator children) → children ≠ []) :
    node.isLive keeps ∧ node.prune keeps = node := by
  induction node with
  | rule r =>
      refine ⟨?_, rfl⟩
      rw [Node.isLive_rule]
      exact all r (List.mem_singleton.mpr rfl)
  | group id combinator children ih =>
      have each : ∀ child ∈ children, child.isLive keeps ∧ child.prune keeps = child := by
        intro child member
        obtain ⟨index, isChild⟩ := List.mem_iff_getElem?.mp member
        apply ih child member
        · intro r inside
          exact all r (Node.mem_rules_group.mpr ⟨child, member, inside⟩)
        · intro path id' combinator' children' found
          apply full (index :: path) id' combinator' children'
          rw [Node.at?, Node.children, isChild]
          exact found
      have same := Node.pruneAll_eq_self each
      refine ⟨?_, by rw [Node.prune, same]⟩
      rw [Node.isLive_group, same]
      exact full [] id combinator children rfl

mutual

/-- The nodes of a tree with their paths, depth first and from left to right, where the
root has the given path. -/
def Node.places (path : Path) : Node → List (Path × Node)
  | .rule r => [(path, .rule r)]
  | .group id combinator children =>
      (path, .group id combinator children) :: Node.placesFrom path 0 children

def Node.placesFrom (path : Path) (index : Nat) : List Node → List (Path × Node)
  | [] => []
  | node :: more => node.places (path ++ [index]) ++ Node.placesFrom path (index + 1) more

end

theorem Node.placesFrom_eq_flatMap (path : Path) (index : Nat) (nodes : List Node) :
    Node.placesFrom path index nodes =
      (nodes.zipIdx index).flatMap fun child => child.1.places (path ++ [child.2]) := by
  induction nodes generalizing index with
  | nil => rfl
  | cons node more ih => rw [Node.placesFrom, ih, List.zipIdx_cons, List.flatMap_cons]

/-- The places are those that the steps of a path lead to. -/
theorem Node.mem_places {node : Node} {path : Path} {place : Path × Node} :
    place ∈ node.places path ↔
      ∃ rest, place.1 = path ++ rest ∧ node.at? rest = some place.2 := by
  induction node generalizing path with
  | rule r =>
      rw [Node.places, List.mem_singleton]
      constructor
      · intro same
        subst same
        exact ⟨[], (List.append_nil path).symm, rfl⟩
      · intro reached
        obtain ⟨rest, samePath, found⟩ := reached
        cases rest with
        | nil => exact Prod.ext (by simpa using samePath) (by simpa [Node.at?] using found.symm)
        | cons index rest => simp [Node.at?, Node.children] at found
  | group id combinator children ih =>
      rw [Node.places, List.mem_cons, Node.placesFrom_eq_flatMap, List.mem_flatMap]
      constructor
      · intro isPlace
        rcases isPlace with rfl | ⟨⟨child, index⟩, member, inside⟩
        · exact ⟨[], (List.append_nil path).symm, rfl⟩
        · have isChild := List.mk_mem_zipIdx_iff_getElem?.mp member
          obtain ⟨rest, samePath, found⟩ := (ih child (List.mem_of_getElem? isChild)).mp inside
          refine ⟨index :: rest, by simpa using samePath, ?_⟩
          rw [Node.at?, Node.children, isChild]
          exact found
      · intro reached
        obtain ⟨rest, samePath, found⟩ := reached
        cases rest with
        | nil =>
            refine Or.inl (Prod.ext (by simpa using samePath) ?_)
            simpa [Node.at?] using found.symm
        | cons index rest =>
            obtain ⟨child, isChild, foundChild⟩ := Option.bind_eq_some_iff.mp found
            refine Or.inr ⟨(child, index), List.mk_mem_zipIdx_iff_getElem?.mpr isChild, ?_⟩
            exact (ih child (List.mem_of_getElem? isChild)).mpr
              ⟨rest, by simpa using samePath, foundChild⟩

theorem Node.mem_places_root {node : Node} {place : Path × Node} :
    place ∈ node.places [] ↔ node.at? place.1 = some place.2 := by
  rw [Node.mem_places]
  constructor
  · intro reached
    obtain ⟨rest, rfl, found⟩ := reached
    exact found
  · intro found
    exact ⟨place.1, rfl, found⟩

/-- The paths come in the order of the document, in which a node precedes what is below
it and what is to its right. -/
theorem Node.places_sorted (node : Node) (path : Path) :
    ((node.places path).map Prod.fst).Pairwise (· < ·) := by
  induction node generalizing path with
  | rule r => simp [Node.places]
  | group id combinator children ih =>
      rw [Node.places, List.map_cons, List.pairwise_cons, Node.placesFrom_eq_flatMap,
        List.map_flatMap, List.pairwise_flatMap]
      refine ⟨?_, ?_, ?_⟩
      · intro below member
        obtain ⟨⟨child, index⟩, -, inside⟩ := List.mem_flatMap.mp member
        obtain ⟨place, isPlace, rfl⟩ := List.mem_map.mp inside
        obtain ⟨rest, samePath, -⟩ := Node.mem_places.mp isPlace
        have longer : path ++ [] < path ++ index :: rest :=
          List.append_left_lt (List.nil_lt_cons index rest)
        rw [List.append_nil] at longer
        rw [samePath, List.append_assoc]
        exact longer
      · rintro ⟨child, index⟩ member
        exact ih child (List.mem_of_getElem? (List.mk_mem_zipIdx_iff_getElem?.mp member)) _
      · have increasing : (children.zipIdx.map Prod.snd).Pairwise (· < ·) := by
          rw [List.zipIdx_map_snd]
          exact List.pairwise_lt_range'
        apply (List.pairwise_map.mp increasing).imp
        rintro ⟨left, i⟩ ⟨right, j⟩ before p memberLeft q memberRight
        obtain ⟨first, firstPlace, rfl⟩ := List.mem_map.mp memberLeft
        obtain ⟨second, secondPlace, rfl⟩ := List.mem_map.mp memberRight
        obtain ⟨restFirst, sameFirst, -⟩ := Node.mem_places.mp firstPlace
        obtain ⟨restSecond, sameSecond, -⟩ := Node.mem_places.mp secondPlace
        rw [sameFirst, sameSecond, List.append_assoc, List.append_assoc]
        exact List.append_left_lt (List.cons_lt_cons_iff.mpr (Or.inl before))

/-- No two places of a tree have paths of the same text. -/
theorem Node.nodup_text_places (node : Node) :
    ((node.places []).map fun place => place.1.text).Nodup := by
  have sorted := node.places_sorted []
  rw [List.pairwise_map] at sorted
  rw [List.Nodup, List.pairwise_map]
  apply sorted.imp
  intro a b before same
  rw [Path.text_injective same] at before
  exact List.lt_irrefl _ before

end Criteria
