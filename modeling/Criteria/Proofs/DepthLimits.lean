import Criteria.Proofs.Diagnostics

set_option autoImplicit false

/-
One tree under two limits on its depth. The higher limit opens the groups that were cut
off under the lower one, and changes nothing that is told of the other nodes.
-/
namespace Criteria

mutual

/-- How many groups a node has that stand one in the other, itself included. -/
def Node.nesting : Node → Nat
  | .rule _ => 0
  | .group _ _ children => Node.nestingOf children + 1

def Node.nestingOf : List Node → Nat
  | [] => 0
  | node :: more => max node.nesting (Node.nestingOf more)

end

/-- The depth of the deepest group of a tree, whose root has the depth 0. -/
def Group.deepest (g : Group) : Nat := Node.nestingOf g.children

theorem Node.nesting_le_nestingOf {child : Node} {children : List Node}
    (member : child ∈ children) : child.nesting ≤ Node.nestingOf children := by
  induction children with
  | nil => cases member
  | cons node more ih =>
      rw [Node.nestingOf]
      rcases List.mem_cons.mp member with rfl | inside
      · exact Nat.le_max_left _ _
      · exact Nat.le_trans (ih inside) (Nat.le_max_right _ _)

theorem Node.exists_nesting_eq {children : List Node} (some : 0 < Node.nestingOf children) :
    ∃ child ∈ children, child.nesting = Node.nestingOf children := by
  induction children with
  | nil => exact absurd some (Nat.lt_irrefl 0)
  | cons node more ih =>
      rw [Node.nestingOf] at some ⊢
      rcases Nat.le_total (Node.nestingOf more) node.nesting with first | rest
      · exact ⟨node, List.mem_cons_self, (Nat.max_eq_left first).symm⟩
      · rw [Nat.max_eq_right rest] at some ⊢
        obtain ⟨child, member, same⟩ := ih some
        exact ⟨child, List.mem_cons_of_mem node member, same⟩

theorem Node.length_lt_nesting {node : Node} {path : Path} {id : String} {combinator : Combinator}
    {children : List Node} (found : node.at? path = some (.group id combinator children)) :
    path.length < node.nesting := by
  induction node generalizing path with
  | rule r =>
      cases path with
      | nil => cases found
      | cons index path => simp [Node.at?, Node.children] at found
  | group other joined inner ih =>
      rw [Node.nesting]
      cases path with
      | nil => exact Nat.succ_pos _
      | cons index path =>
          obtain ⟨child, isChild, foundChild⟩ := Option.bind_eq_some_iff.mp found
          have member : child ∈ inner := List.mem_of_getElem? isChild
          have below := ih child member foundChild
          have bound := Node.nesting_le_nestingOf member
          rw [List.length_cons]
          omega

theorem Node.exists_group_at_nesting {node : Node} (some : 0 < node.nesting) :
    ∃ path id combinator children,
      node.at? path = Option.some (.group id combinator children) ∧
        path.length + 1 = node.nesting := by
  induction node with
  | rule r => exact absurd some (Nat.lt_irrefl 0)
  | group id combinator children ih =>
      rw [Node.nesting]
      rcases Nat.eq_zero_or_pos (Node.nestingOf children) with flat | deeper
      · exact ⟨[], id, combinator, children, rfl, by rw [flat]; rfl⟩
      · obtain ⟨child, member, same⟩ := Node.exists_nesting_eq deeper
        obtain ⟨path, id', combinator', children', found, length⟩ :=
          ih child member (same ▸ deeper)
        obtain ⟨index, isChild⟩ := List.mem_iff_getElem?.mp member
        refine ⟨index :: path, id', combinator', children', ?_, ?_⟩
        · rw [Node.at?, Node.children, isChild]
          exact found
        · rw [List.length_cons, length, same]

/-- A limit is at least the depth of the deepest group where it is that of every group. -/
theorem Group.deepest_le_iff (g : Group) (limit : Nat) :
    g.deepest ≤ limit ↔ ∀ path id combinator children,
      g.toNode.at? path = some (.group id combinator children) → path.length ≤ limit := by
  have nesting : g.toNode.nesting = g.deepest + 1 := rfl
  constructor
  · intro bound path id combinator children found
    have below := Node.length_lt_nesting found
    omega
  · intro each
    have some : 0 < g.toNode.nesting := by omega
    obtain ⟨path, id, combinator, children, found, length⟩ := Node.exists_group_at_nesting some
    have bound := each path id combinator children found
    omega

/-- Whether a path leads to or below the node of one of some diagnostics. -/
def Path.IsWithin (tops : List Diagnostic) (path : Path) : Prop :=
  ∃ top ∈ tops, top.path <+: path

instance (tops : List Diagnostic) (path : Path) : Decidable (path.IsWithin tops) :=
  inferInstanceAs (Decidable (∃ top ∈ tops, top.path <+: path))

section
variable (registry : Registry) (rootTable : String)

/-- The diagnostics that tell of groups nested too deep. -/
def Group.depthDiagnostics (limit : Nat) (g : Group) : List Diagnostic :=
  (g.validate registry rootTable limit).filter (Diagnostic.tellsDepth limit)

/-- The diagnostics of all else. -/
def Group.otherDiagnostics (limit : Nat) (g : Group) : List Diagnostic :=
  (g.validate registry rootTable limit).filter fun d => !d.tellsDepth limit

theorem Diagnostic.tellsDepth_iff {limit : Nat} {d : Diagnostic} :
    d.tellsDepth limit ↔ d.problem = .tooDeep limit := by
  rw [Diagnostic.tellsDepth, beq_iff_eq, Problem.message_eq_tooDeep_iff]

/-- Of a node itself the depth is told exactly where it is a group just past the limit. -/
theorem Node.tellsDepth_of_mem_ownDiagnostics {limit : Nat} {node : Node} {path : Path}
    {d : Diagnostic} (own : d ∈ node.ownDiagnostics registry rootTable limit path) :
    d.tellsDepth limit = isPastLimit limit (path, node) := by
  rw [Bool.eq_iff_iff, Diagnostic.tellsDepth_iff]
  cases node with
  | rule r =>
      obtain ⟨p, member, rfl⟩ := List.mem_map.mp own
      have notDepth : p ≠ .tooDeep limit := by
        rintro rfl
        exact Rule.tooDeep_not_mem_problems registry rootTable r limit member
      simp [isPastLimit, Node.isGroup, notDepth]
  | group id combinator children =>
      rw [Node.ownDiagnostics] at own
      split at own
      · rename_i deep
        rw [List.mem_singleton.mp own]
        simp [isPastLimit, Node.isGroup, deep]
      · rename_i notDeep
        split at own
        · rw [List.mem_singleton.mp own]
          simp [isPastLimit, Node.isGroup, notDeep]
        · cases own

theorem Group.mem_depthDiagnostics_iff {limit : Nat} {g : Group} {d : Diagnostic} :
    d ∈ g.depthDiagnostics registry rootTable limit ↔
      g.toNode.at? d.path = some d.node ∧ isPastLimit limit (d.path, d.node) ∧
        d.problem = .tooDeep limit := by
  rw [Group.depthDiagnostics, List.mem_filter, Group.mem_validate_iff]
  constructor
  · rintro ⟨⟨found, -, own⟩, tells⟩
    refine ⟨found, ?_, Diagnostic.tellsDepth_iff.mp tells⟩
    rw [← Node.tellsDepth_of_mem_ownDiagnostics registry rootTable own]
    exact tells
  · rintro ⟨found, past, depth⟩
    refine ⟨⟨found, ?_, ?_⟩, Diagnostic.tellsDepth_iff.mpr depth⟩
    · simp only [isPastLimit, Bool.and_eq_true, beq_iff_eq] at past
      omega
    · obtain ⟨path, problem, node⟩ := d
      cases node with
      | rule r => simp [isPastLimit, Node.isGroup] at past
      | group id combinator children =>
          simp only [isPastLimit, Node.isGroup, Bool.true_and, beq_iff_eq] at past
          dsimp only at depth ⊢
          rw [Node.ownDiagnostics, if_pos past, depth]
          exact List.mem_singleton.mpr rfl

/-- The places at or below the groups told as too deep are those past the limit, except
for rules directly below the limit. -/
theorem Group.isWithin_depthDiagnostics_iff {limit : Nat} {g : Group} {path : Path} {node : Node}
    (found : g.toNode.at? path = some node) :
    path.IsWithin (g.depthDiagnostics registry rootTable limit) ↔
      limit + 1 < path.length ∨ isPastLimit limit (path, node) := by
  constructor
  · rintro ⟨top, member, rest, rfl⟩
    obtain ⟨foundTop, past, -⟩ := (g.mem_depthDiagnostics_iff registry rootTable).mp member
    have length : top.path.length = limit + 1 := by
      simp only [isPastLimit, Bool.and_eq_true, beq_iff_eq] at past
      exact past.2
    cases rest with
    | nil =>
        rw [List.append_nil, foundTop] at found
        cases found
        exact .inr (by rwa [List.append_nil])
    | cons index rest =>
        left
        rw [List.length_append, List.length_cons]
        omega
  · rintro (deeper | past)
    · obtain ⟨id, combinator, children, foundTop⟩ := Node.exists_group_at?_take found deeper
      have length : (path.take (limit + 1)).length = limit + 1 := by
        rw [List.length_take]
        omega
      refine ⟨⟨path.take (limit + 1), .tooDeep limit, .group id combinator children⟩, ?_,
        List.take_prefix _ _⟩
      rw [Group.mem_depthDiagnostics_iff]
      refine ⟨foundTop, ?_, rfl⟩
      simp only [isPastLimit, Node.isGroup, Bool.true_and, beq_iff_eq]
      exact length
    · exact ⟨⟨path, .tooDeep limit, node⟩,
        (g.mem_depthDiagnostics_iff registry rootTable).mpr ⟨found, past, rfl⟩,
        List.prefix_refl path⟩

/-- What is told at a place: nothing unless the groups around it are within the limit. -/
def diagnosticsAt (limit : Nat) (place : Path × Node) : List Diagnostic :=
  if isVisible limit place then place.2.ownDiagnostics registry rootTable limit place.1 else []

theorem Group.validate_eq_flatMap_at (limit : Nat) (g : Group) :
    g.validate registry rootTable limit =
      (g.toNode.places []).flatMap (diagnosticsAt registry rootTable limit) := by
  rw [Group.validate_eq_flatMap]
  generalize g.toNode.places [] = places
  induction places with
  | nil => rfl
  | cons place more ih =>
      rw [List.flatMap_cons, diagnosticsAt, ← ih]
      by_cases visible : isVisible limit place
      · rw [List.filter_cons_of_pos visible, List.flatMap_cons, if_pos visible]
      · rw [List.filter_cons_of_neg visible, if_neg visible, List.nil_append]

theorem path_of_mem_diagnosticsAt {limit : Nat} {place : Path × Node} {d : Diagnostic}
    (told : d ∈ diagnosticsAt registry rootTable limit place) : d.path = place.1 := by
  rw [diagnosticsAt] at told
  split at told
  · exact (Node.path_node_of_mem_ownDiagnostics registry rootTable limit told).1
  · cases told

/-- The limit matters only to groups that are deeper. -/
theorem diagnosticsAt_congr {low high : Nat} (raised : low ≤ high) {place : Path × Node}
    (reached : place.1.length ≤ low + 1) (notPast : isPastLimit low place = false) :
    diagnosticsAt registry rootTable low place = diagnosticsAt registry rootTable high place := by
  obtain ⟨path, node⟩ := place
  dsimp only at reached
  rw [diagnosticsAt, diagnosticsAt, if_pos ((isVisible_iff low _).mpr reached),
    if_pos ((isVisible_iff high _).mpr (by dsimp only; omega))]
  cases node with
  | rule r => rfl
  | group id combinator children =>
      have shallow : path.length ≠ low + 1 := by simpa [isPastLimit, Node.isGroup] using notPast
      have alsoShallow : path.length ≠ high + 1 := by omega
      simp only [Node.ownDiagnostics, if_neg shallow, if_neg alsoShallow]

/-- At each place a higher limit tells the same as a lower one, the depth apart, except at
and below the groups that were told as too deep. -/
theorem Group.filter_diagnosticsAt {low high : Nat} (raised : low ≤ high) {g : Group}
    {place : Path × Node} (isPlace : place ∈ g.toNode.places []) :
    (diagnosticsAt registry rootTable high place).filter
        (fun d => ¬ d.path.IsWithin (g.depthDiagnostics registry rootTable low)) =
      (diagnosticsAt registry rootTable low place).filter fun d => !d.tellsDepth low := by
  have within : place.1.IsWithin (g.depthDiagnostics registry rootTable low) ↔
      low + 1 < place.1.length ∨ isPastLimit low place :=
    g.isWithin_depthDiagnostics_iff registry rootTable (Node.mem_places_root.mp isPlace)
  by_cases cut : place.1.IsWithin (g.depthDiagnostics registry rootTable low)
  · -- Everything at the place is new, and under the lower limit nothing but the depth is told.
    have new : (diagnosticsAt registry rootTable high place).filter
        (fun d => ¬ d.path.IsWithin (g.depthDiagnostics registry rootTable low)) = [] := by
      rw [List.filter_eq_nil_iff]
      intro d told
      rw [path_of_mem_diagnosticsAt registry rootTable told]
      simpa using cut
    rw [new, eq_comm, List.filter_eq_nil_iff]
    intro d told
    rw [diagnosticsAt] at told
    split at told
    · rename_i visible
      have reached := (isVisible_iff low place).mp visible
      rw [Node.tellsDepth_of_mem_ownDiagnostics registry rootTable told]
      rcases within.mp cut with deeper | past
      · omega
      · simpa using past
    · cases told
  · have uncut : ¬ (low + 1 < place.1.length ∨ isPastLimit low place) := mt within.mpr cut
    have notPast : isPastLimit low place = false := by
      cases past : isPastLimit low place with
      | false => rfl
      | true => exact absurd (.inr past) uncut
    have reached : place.1.length ≤ low + 1 := by
      by_contra deeper
      exact uncut (.inl (by omega))
    rw [← diagnosticsAt_congr registry rootTable raised reached notPast]
    apply List.filter_congr
    intro d told
    have own : d.tellsDepth low = false := by
      rw [diagnosticsAt, if_pos ((isVisible_iff low place).mpr reached)] at told
      rw [Node.tellsDepth_of_mem_ownDiagnostics registry rootTable told, notPast]
    rw [path_of_mem_diagnosticsAt registry rootTable told, own]
    simpa using cut

/-- What a higher limit tells outside the groups cut off under a lower one is what the
lower one tells, the depth apart. -/
theorem Group.filter_validate_of_le {low high : Nat} (raised : low ≤ high) (g : Group) :
    (g.validate registry rootTable high).filter
        (fun d => ¬ d.path.IsWithin (g.depthDiagnostics registry rootTable low)) =
      g.otherDiagnostics registry rootTable low := by
  rw [Group.otherDiagnostics, Group.validate_eq_flatMap_at, Group.validate_eq_flatMap_at,
    List.filter_flatMap, List.filter_flatMap]
  exact List.flatMap_congr fun place isPlace =>
    g.filter_diagnosticsAt registry rootTable raised isPlace

/-- No depth is told where the limit is not exceeded. -/
theorem Group.depthDiagnostics_eq_nil {limit : Nat} {g : Group} (within : g.deepest ≤ limit) :
    g.depthDiagnostics registry rootTable limit = [] := by
  rw [List.eq_nil_iff_forall_not_mem]
  intro d member
  obtain ⟨found, past, -⟩ := (g.mem_depthDiagnostics_iff registry rootTable).mp member
  obtain ⟨path, problem, node⟩ := d
  cases node with
  | rule r => simp [isPastLimit, Node.isGroup] at past
  | group id combinator children =>
      have bound := (g.deepest_le_iff limit).mp within _ _ _ _ found
      simp only [isPastLimit, Node.isGroup, Bool.true_and, beq_iff_eq] at past bound
      omega

/-- A limit that is raised from where nothing is cut off changes nothing. -/
theorem Group.validate_eq_of_depthDiagnostics {low high : Nat} (raised : low ≤ high) {g : Group}
    (none : g.depthDiagnostics registry rootTable low = []) :
    g.validate registry rootTable high = g.validate registry rootTable low := by
  have same := g.filter_validate_of_le registry rootTable raised
  have all : g.otherDiagnostics registry rootTable low = g.validate registry rootTable low := by
    rw [Group.otherDiagnostics, List.filter_eq_self]
    intro d member
    have notTold := List.filter_eq_nil_iff.mp none d member
    simpa using notTold
  rw [none, all] at same
  rw [← same, eq_comm, List.filter_eq_self]
  intro d _
  simp [Path.IsWithin]

end

/-- Raising the limit on the depth keeps what was told of anything else, diagnostic for
diagnostic and in its order. What is new is told of the groups that were cut off and of
what is below them, so that a tree without faults stays without, and a limit that no group
exceeds might as well be any other such limit. -/
theorem raised_limit_refines_depth (registry : Registry) (rootTable : String) (g : Group)
    {low high : Nat} (raised : low ≤ high) :
    let before := g.validate registry rootTable low
    let after := g.validate registry rootTable high
    let cut := g.depthDiagnostics registry rootTable low
    let others := g.otherDiagnostics registry rootTable low
    after.filter (fun d => ¬ d.path.IsWithin cut) = others ∧
      others.Sublist after ∧
      (∀ d ∈ after, d ∈ others ∨ ∃ top ∈ cut, ∃ rest, d.path = top.path ++ rest ∧
        d.path.text = top.path.text ++ String.join (rest.map Path.stepText)) ∧
      (before = [] → after = []) ∧
      ∀ limit other, g.deepest ≤ limit → g.deepest ≤ other →
        g.validate registry rootTable limit = g.validate registry rootTable other := by
  intro before after cut others
  have kept : after.filter (fun d => ¬ d.path.IsWithin cut) = others :=
    g.filter_validate_of_le registry rootTable raised
  refine ⟨kept, ?_, ?_, ?_, ?_⟩
  · rw [← kept]
    exact List.filter_sublist
  · intro d member
    by_cases within : d.path.IsWithin cut
    · obtain ⟨top, isTop, rest, same⟩ := within
      refine .inr ⟨top, isTop, rest, same.symm, ?_⟩
      rw [← same, Path.text_eq_join, Path.text_eq_join, List.map_append, String.join_append,
        String.append_assoc]
    · left
      rw [← kept]
      exact List.mem_filter.mpr ⟨member, by simpa using within⟩
  · intro clean
    have none : cut = [] := by
      rw [show cut = before.filter (Diagnostic.tellsDepth low) from rfl, clean, List.filter_nil]
    exact (Group.validate_eq_of_depthDiagnostics registry rootTable raised none).trans clean
  · intro limit other enough alsoEnough
    rcases Nat.le_total limit other with up | down
    · exact (Group.validate_eq_of_depthDiagnostics registry rootTable up
        (Group.depthDiagnostics_eq_nil registry rootTable enough)).symm
    · exact Group.validate_eq_of_depthDiagnostics registry rootTable down
        (Group.depthDiagnostics_eq_nil registry rootTable alsoEnough)

/-- A group is opened in front of a rule that was told of before. -/
theorem raised_limit_refines_depth_in_front :
    let g : Group := ⟨"root", .and, [.group "g" .or [.rule ⟨"a", "x", .isNull, .absent⟩],
      .rule ⟨"b", "y", .isNull, .absent⟩]⟩
    let others := g.otherDiagnostics Registry.empty "orders" 0
    let after := g.validate Registry.empty "orders" 1
    others.map Diagnostic.text = ["root.rules[1]: unknown field 'y'"] ∧
      after.map Diagnostic.text = ["root.rules[0].rules[0]: unknown field 'x'",
        "root.rules[1]: unknown field 'y'"] ∧
      others.Sublist after ∧
      ∀ d ∈ after, d ∈ others ∨ ∃ top ∈ g.depthDiagnostics Registry.empty "orders" 0, ∃ rest,
        d.path = top.path ++ rest ∧
          d.path.text = top.path.text ++ String.join (rest.map Path.stepText) := by
  intro g others after
  obtain ⟨-, inOrder, new, -⟩ :=
    raised_limit_refines_depth Registry.empty "orders" g (Nat.zero_le 1)
  exact ⟨by decide, by decide, inOrder, new⟩

end Criteria
