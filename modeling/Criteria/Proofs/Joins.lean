import Criteria.Query
import Criteria.Proofs.FilterMeaning
import Criteria.Proofs.Occurrences

set_option autoImplicit false

/-
The relations of a selection. Walking over a tree collects the relations on the way to
each known field and the last one of each way, every name where it first comes up.
-/
namespace Criteria

namespace Relations

/-- What has been collected of the fields met so far. -/
structure Collects (r : Relations) (fields : List Field) : Prop where
  needed : r.needed = (fields.flatMap Field.relationChain).eraseDups
  inner : r.inner = (fields.filterMap fun f => f.relationChain.getLast?).eraseDups

theorem Collects.addField {r : Relations} {fields : List Field} (collects : r.Collects fields)
    (f : Field) : (r.addField f).Collects (fields ++ [f]) where
  needed := by
    rw [Relations.addField, collects.needed, foldl_insertNew, List.flatMap_append,
      List.flatMap_singleton]
  inner := by
    rw [Relations.addField, collects.inner, foldl_insertNew, List.filterMap_append]
    cases last : f.relationChain.getLast? <;> simp [Field.owningRelation?, last]

theorem Collects.foldl_addField {r : Relations} {fields : List Field} (collects : r.Collects fields)
    (more : List Field) : (more.foldl Relations.addField r).Collects (fields ++ more) := by
  induction more generalizing r fields with
  | nil => rwa [List.foldl_nil, List.append_nil]
  | cons f more ih =>
      rw [List.foldl_cons, List.append_cons]
      exact ih (collects.addField f)

theorem Collects.needed_nodup {r : Relations} {fields : List Field} (collects : r.Collects fields) :
    r.needed.Nodup := by
  rw [collects.needed]
  exact nodup_eraseDups _

theorem Collects.mem_needed {r : Relations} {fields : List Field} (collects : r.Collects fields)
    {name : String} : name ∈ r.needed ↔ ∃ f ∈ fields, name ∈ f.relationChain := by
  rw [collects.needed, List.mem_eraseDups, List.mem_flatMap]

theorem Collects.mem_inner {r : Relations} {fields : List Field} (collects : r.Collects fields)
    {name : String} : name ∈ r.inner ↔ ∃ f ∈ fields, f.relationChain.getLast? = some name := by
  rw [collects.inner, List.mem_eraseDups, List.mem_filterMap]

theorem Collects.inner_subset {r : Relations} {fields : List Field} (collects : r.Collects fields) :
    r.inner ⊆ r.needed := by
  intro name member
  obtain ⟨f, listed, last⟩ := collects.mem_inner.mp member
  exact collects.mem_needed.mpr ⟨f, listed, List.mem_of_getLast? last⟩

theorem select_eq (r : Relations) (extra : List String) :
    r.select extra = String.intercalate ", " ("*" :: (r.needed.map (fun name =>
      if name ∈ r.inner then name ++ "!inner(*)" else name ++ "(*)") ++ extra)) := by
  have entries : r.entry = fun name =>
      if name ∈ r.inner then name ++ "!inner(*)" else name ++ "(*)" := by
    funext name
    rw [entry, isInner]
    simp only [List.contains_iff_mem]
  rw [select, entries]

end Relations

/-- The fields of the rules of a tree, as far as they are known. -/
def Group.knownFields (registry : Registry) (rootTable : String) (g : Group) : List Field :=
  g.toNode.rules.filterMap fun r => registry.resolve r.fieldId rootTable

theorem Relations.ofTree_collects (registry : Registry) (rootTable : String) (g : Group) :
    (Relations.ofTree registry rootTable g).Collects (g.knownFields registry rootTable) := by
  have nothing : Relations.Collects {} [] := ⟨by simp, by simp⟩
  have all := nothing.foldl_addField (g.knownFields registry rootTable)
  rw [List.nil_append] at all
  rw [Relations.ofTree, Group.rules, Cursor.rules_eq_rulesOf]
  exact all

theorem Relations.ofTree_congr (registry : Registry) (rootTable : String) {g other : Group}
    (same : g.toNode.rules.map Rule.fieldId = other.toNode.rules.map Rule.fieldId) :
    Relations.ofTree registry rootTable g = Relations.ofTree registry rootTable other := by
  have through (tree : Group) : Relations.ofTree registry rootTable tree =
      ((tree.toNode.rules.map Rule.fieldId).filterMap fun id =>
        registry.resolve id rootTable).foldl Relations.addField {} := by
    rw [Relations.ofTree, Group.rules, Cursor.rules_eq_rulesOf, List.filterMap_map]
    rfl
  rw [through, through, same]

/-- The selection of a compiled query embeds the relations on the way to the known fields
of its tree, each once where it first comes up, and joins the last one of each way as an
inner join. Nothing else of the tree or the query tells on it but the further entries. -/
theorem select_embeds_relations (q : Query) (g : Group) :
    let fields := g.knownFields q.registry q.rootTable
    let relations := Relations.ofTree q.registry q.rootTable g
    relations.needed = (fields.flatMap Field.relationChain).eraseDups ∧
      relations.inner = (fields.filterMap fun f => f.relationChain.getLast?).eraseDups ∧
      relations.inner ⊆ relations.needed ∧
      (q.compile g).select = String.intercalate ", " ("*" :: (relations.needed.map (fun name =>
        if name ∈ relations.inner then name ++ "!inner(*)" else name ++ "(*)") ++
          q.extraFields)) ∧
      (∀ r ∈ g.toNode.rules, (r.condition? q.registry q.rootTable).isSome →
        ∃ f, q.registry.resolve r.fieldId q.rootTable = some f ∧
          (∀ name ∈ f.relationChain, relations.needed.count name = 1) ∧
          ∀ name, f.relationChain.getLast? = some name → name ∈ relations.inner) ∧
      (∀ other maxDepth, g.toNode.rules.map Rule.fieldId = other.toNode.rules.map Rule.fieldId →
        ((q.withMaxDepth maxDepth).compile other).select = (q.compile g).select) := by
  intro fields relations
  have collects : relations.Collects fields :=
    Relations.ofTree_collects q.registry q.rootTable g
  refine ⟨collects.needed, collects.inner, collects.inner_subset,
    Relations.select_eq relations q.extraFields, ?_, ?_⟩
  · intro r member compiles
    rw [Rule.isSome_condition?, Rule.resolves] at compiles
    obtain ⟨f, resolved⟩ := Option.isSome_iff_exists.mp compiles
    have listed : f ∈ fields := List.mem_filterMap.mpr ⟨r, member, resolved⟩
    refine ⟨f, resolved, ?_, ?_⟩
    · intro name onTheWay
      exact List.count_eq_one_of_mem collects.needed_nodup
        (collects.mem_needed.mpr ⟨f, listed, onTheWay⟩)
    · intro name last
      exact collects.mem_inner.mpr ⟨f, listed, last⟩
  · intro other maxDepth same
    exact congrArg (·.select q.extraFields)
      (Relations.ofTree_congr q.registry q.rootTable same).symm

/-- Orders by the region of a customer, then by the name: `customers` is on the way to the
one and the end of the way to the other. -/
theorem select_embeds_relations_sample :
    let q : Query := { registry := Registry.orders, rootTable := "orders",
                       extraFields := ["count"] }
    let region : Rule := ⟨"a", "customer_region", .eq, .text "EU"⟩
    let g : Group := ⟨"root", .and, [.rule region, .group "b" .or
      [.rule ⟨"c", "customer_name", .isNull, .absent⟩]]⟩
    let flat : Group := ⟨"flat", .or, [.rule ⟨"d", "customer_region", .isNull, .absent⟩,
      .rule ⟨"e", "customer_name", .eq, .text "O"⟩]⟩
    (q.compile g).select = "*, customers!inner(*), regions!inner(*), count" ∧
      ((q.withMaxDepth 0).compile flat).select = (q.compile g).select ∧
      (Relations.ofTree q.registry q.rootTable g).needed.count "customers" = 1 := by
  intro q region g flat
  obtain ⟨needed, inner, -, select, embedded, unaffected⟩ := select_embeds_relations q g
  refine ⟨?_, unaffected flat 0 rfl, ?_⟩
  · rw [select, needed, inner]
    decide
  · obtain ⟨f, resolved, once, -⟩ := embedded region (by simp [g, Group.toNode, Node.rules,
      Node.rulesOf]) (by decide)
    cases resolved
    exact once "customers" (by decide)

end Criteria
