import Mathlib.Data.List.Basic
import Criteria.Proofs.Joins
import Criteria.Proofs.Registration

set_option autoImplicit false

/-
The names in a storage path. Divided at its dots, it shows the names of the relations on
the way to a column and then the column, as far as these names have no dots of their own.
-/
namespace Criteria

/-- The pieces of a text between its dots. -/
def betweenDots (s : String) : List String := (s.toList.splitOn '.').map String.ofList

theorem betweenDots_append (front back : String) :
    betweenDots (front ++ "." ++ back) = betweenDots front ++ betweenDots back := by
  have dot : (front ++ "." ++ back).toList = front.toList ++ '.' :: back.toList := by simp
  rw [betweenDots, dot, List.splitOn_append_cons_self, List.map_append]
  rfl

theorem betweenDots_of_noDot {s : String} (noDot : '.' ∉ s.toList) : betweenDots s = [s] := by
  rw [betweenDots, List.splitOn_eq_singleton noDot, List.map_singleton, String.ofList_toList]

/-- No character that a list is divided at is left in what it is divided into. -/
theorem not_mem_of_mem_splitOn {mark : Char} {cs piece : List Char}
    (member : piece ∈ cs.splitOn mark) : mark ∉ piece := by
  induction cs generalizing piece with
  | nil =>
      rw [List.splitOn_nil, List.mem_singleton] at member
      simp [member]
  | cons c cs ih =>
      obtain ⟨first, more, shape⟩ := List.exists_cons_of_ne_nil (List.splitOn_ne_nil mark cs)
      rw [List.splitOn_cons_eq_if_modifyHead] at member
      split at member
      · rcases List.mem_cons.mp member with rfl | inside
        · simp
        · exact ih inside
      · rename_i other
        rw [shape, List.modifyHead_cons] at member
        rcases List.mem_cons.mp member with rfl | inside
        · have rest := ih (shape ▸ List.mem_cons_self)
          simp only [beq_iff_eq] at other
          simp [rest, Ne.symm other]
        · exact ih (shape ▸ List.mem_cons_of_mem first inside)

theorem noDot_of_mem_betweenDots {s piece : String} (member : piece ∈ betweenDots s) :
    '.' ∉ piece.toList := by
  obtain ⟨cs, inside, rfl⟩ := List.mem_map.mp member
  rw [String.toList_ofList]
  exact not_mem_of_mem_splitOn inside

theorem betweenDots_intercalate {names : List String} (nonempty : names ≠ []) :
    betweenDots (String.intercalate "." names) = names.flatMap betweenDots := by
  induction names with
  | nil => exact False.elim (nonempty rfl)
  | cons name more ih =>
      cases more with
      | nil => rw [String.intercalate_singleton, List.flatMap_singleton]
      | cons next more =>
          rw [String.intercalate_cons_cons, betweenDots_append, ih (by simp)]
          rfl

/-- Dividing names at dots changes none of them exactly where there are no dots. -/
theorem flatMap_betweenDots_eq_self_iff (names : List String) :
    names.flatMap betweenDots = names ↔ ∀ name ∈ names, '.' ∉ name.toList := by
  constructor
  · intro same name member
    rw [← same] at member
    obtain ⟨whole, -, inside⟩ := List.mem_flatMap.mp member
    exact noDot_of_mem_betweenDots inside
  · intro noDots
    rw [List.flatMap_congr fun name member => betweenDots_of_noDot (noDots name member)]
    exact List.flatMap_singleton' names

namespace Field

/-- A storage path divides into the pieces of its relation names and the column. -/
theorem FollowsChain.betweenDots {f : Field} (follows : f.FollowsChain) :
    ∃ column, column ≠ "" ∧ '.' ∉ column.toList ∧
      betweenDots f.storagePath = f.relationChain.flatMap betweenDots ++ [column] := by
  obtain ⟨column, nonempty, noDot, path⟩ := follows
  refine ⟨column, nonempty, noDot, ?_⟩
  rw [path]
  split
  · rename_i short
    rw [short, betweenDots_of_noDot noDot]
    rfl
  · rename_i long
    rw [betweenDots_append, betweenDots_intercalate long, betweenDots_of_noDot noDot]

/-- Whether no relation name on the way to a field has a dot. -/
def NamesHaveNoDots (f : Field) : Prop := ∀ name ∈ f.relationChain, '.' ∉ name.toList

instance (f : Field) : Decidable f.NamesHaveNoDots :=
  inferInstanceAs (Decidable (∀ name ∈ f.relationChain, '.' ∉ name.toList))

theorem FollowsChain.dropLast_betweenDots {f : Field} (follows : f.FollowsChain)
    (noDots : f.NamesHaveNoDots) :
    (Criteria.betweenDots f.storagePath).dropLast = f.relationChain := by
  obtain ⟨column, -, -, path⟩ := follows.betweenDots
  rw [path, (flatMap_betweenDots_eq_self_iff _).mpr noDots, List.dropLast_concat]

end Field

namespace Registry

theorem followsChain_of_mem {fields : List Field} (consistent : IsConsistent fields) {f : Field}
    (member : f ∈ (holding fields).toList) : f.FollowsChain := by
  obtain ⟨g, listed, rfl⟩ := exists_mem_of_mem_toList consistent member
  exact (consistent.wellFormed g listed).followsChain

end Registry

theorem Group.followsChain_of_mem_knownFields {fields : List Field}
    (consistent : Registry.IsConsistent fields) {rootTable : String} {g : Group} {f : Field}
    (known : f ∈ g.knownFields (Registry.holding fields) rootTable) : f.FollowsChain := by
  obtain ⟨r, -, resolved⟩ := List.mem_filterMap.mp known
  exact Registry.followsChain_of_mem consistent (Registry.mem_toList_of_resolve resolved)

/-- The storage path of a field divides at its dots into what its relation names divide
into, and the column. These pieces are the relations and the column exactly where no
relation name has a dot, and then a selection needs the relations that stand in front of
the last piece in the paths of the conditions. -/
theorem relations_are_path_pieces {fields : List Field} {r : Registry}
    (made : Registry.ofFields fields = .ok r) :
    (∀ f ∈ r.toList, ∃ column, column ≠ "" ∧ '.' ∉ column.toList ∧
      betweenDots f.storagePath = f.relationChain.flatMap betweenDots ++ [column] ∧
      (betweenDots f.storagePath = f.relationChain ++ [column] ↔ f.NamesHaveNoDots)) ∧
    ∀ (q : Query) (g : Group), q.registry = r →
      (∀ f ∈ g.knownFields r q.rootTable, f.NamesHaveNoDots) →
      let relations := Relations.ofTree r q.rootTable g
      relations.needed = ((g.knownFields r q.rootTable).flatMap fun f =>
          (betweenDots f.storagePath).dropLast).eraseDups ∧
        relations.inner = ((g.knownFields r q.rootTable).filterMap fun f =>
          (betweenDots f.storagePath).dropLast.getLast?).eraseDups ∧
        (q.compile g).select = String.intercalate ", " ("*" :: (relations.needed.map (fun name =>
          if name ∈ relations.inner then name ++ "!inner(*)" else name ++ "(*)") ++
            q.extraFields)) ∧
        ∀ rule text, rule.condition? r q.rootTable = some text →
          ∃ f, r.resolve rule.fieldId q.rootTable = some f ∧
            text = f.storagePath ++ "." ++ Condition.predicate rule.operator rule.value ∧
            (g.toNode.rules = [rule] →
              relations.needed = (betweenDots f.storagePath).dropLast.eraseDups) := by
  obtain ⟨consistent, rfl⟩ := Registry.ofFields_eq_ok_iff.mp made
  constructor
  · intro f listed
    have follows := Registry.followsChain_of_mem consistent listed
    obtain ⟨column, nonempty, noDot, path⟩ := follows.betweenDots
    refine ⟨column, nonempty, noDot, path, ?_⟩
    rw [path, List.append_left_inj]
    exact flatMap_betweenDots_eq_self_iff f.relationChain
  · intro q g isRegistry noDots relations
    have paths : ∀ f ∈ g.knownFields (Registry.holding fields) q.rootTable,
        (betweenDots f.storagePath).dropLast = f.relationChain := by
      intro f known
      have follows := Group.followsChain_of_mem_knownFields consistent known
      exact follows.dropLast_betweenDots (noDots f known)
    have collects := Relations.ofTree_collects (Registry.holding fields) q.rootTable g
    have needed : relations.needed =
        ((g.knownFields (Registry.holding fields) q.rootTable).flatMap fun f =>
          (betweenDots f.storagePath).dropLast).eraseDups := by
      rw [List.flatMap_congr paths]
      exact collects.needed
    refine ⟨needed, ?_, ?_, ?_⟩
    · rw [List.filterMap_congr fun f known => congrArg List.getLast? (paths f known)]
      exact collects.inner
    · rw [Query.compile, isRegistry]
      exact Relations.select_eq relations q.extraFields
    · intro rule text compiled
      obtain ⟨f, resolved, rfl⟩ := Option.map_eq_some_iff.mp compiled
      refine ⟨f, resolved, rfl, ?_⟩
      intro alone
      rw [needed, Group.knownFields, alone, List.filterMap_cons, resolved]
      simp

/-- The region of a customer of an order: two relations and a column. -/
theorem relations_are_path_pieces_region :
    let region := (Field.plain "region" "Region" .text "orders" "customers.regions.code").via
      ["customers", "regions"]
    let q : Query := { registry := .holding [region], rootTable := "orders" }
    let rule : Rule := ⟨"a", "region", .eq, .text "EU"⟩
    let g : Group := ⟨"root", .or, [.group "inner" .and [.rule rule]]⟩
    Registry.ofFields [region] = .ok q.registry ∧
      betweenDots region.storagePath = ["customers", "regions"] ++ ["code"] ∧
      rule.condition? q.registry "orders" = some "customers.regions.code.eq.EU" ∧
      (Relations.ofTree q.registry "orders" g).needed = ["customers", "regions"] ∧
      (q.compile g).select = "*, customers(*), regions!inner(*)" := by
  intro region q rule g
  have made : Registry.ofFields [region] = .ok q.registry :=
    Registry.ofFields_of_isConsistent (by decide)
  have known : g.knownFields q.registry "orders" = [region] := rfl
  have noDots : ∀ f ∈ g.knownFields q.registry "orders", f.NamesHaveNoDots := by
    rw [known]
    decide
  have compiled : rule.condition? q.registry "orders" = some "customers.regions.code.eq.EU" := rfl
  obtain ⟨-, selections⟩ := relations_are_path_pieces made
  obtain ⟨-, inner, select, conditions⟩ := selections q g rfl noDots
  obtain ⟨f, resolved, -, needed⟩ := conditions rule _ compiled
  cases resolved
  refine ⟨made, by decide, compiled, ?_, ?_⟩
  · rw [needed rfl]
    decide
  · rw [select, needed rfl, inner, known]
    decide

/-- Relation names may have dots: then a path divides into more pieces than the relations
and the column, and the selection embeds a relation that is not among them. -/
theorem dotted_relation_is_no_path_piece :
    let f := (Field.plain "x" "X" .text "t" "a.b.c").via ["a.b"]
    let q : Query := { registry := .holding [f], rootTable := "t" }
    let rule : Rule := ⟨"r", "x", .eq, .text "v"⟩
    let g : Group := ⟨"root", .and, [.rule rule]⟩
    Registry.ofFields [f] = .ok q.registry ∧ f ∈ q.registry.toList ∧
      betweenDots f.storagePath = ["a", "b", "c"] ∧
      (¬ ∃ column, betweenDots f.storagePath = f.relationChain ++ [column]) ∧
      rule.condition? q.registry "t" = some "a.b.c.eq.v" ∧
      (q.compile g).select = "*, a.b!inner(*)" := by
  intro f q rule g
  have path : betweenDots f.storagePath = ["a", "b", "c"] := by decide
  refine ⟨Registry.ofFields_of_isConsistent (by decide), by decide, path, ?_, rfl, ?_⟩
  · rintro ⟨column, same⟩
    rw [path] at same
    simp [f, Field.via] at same
  · have collects := Relations.ofTree_collects q.registry "t" g
    rw [Query.compile, Relations.select_eq, collects.needed, collects.inner]
    decide

end Criteria
