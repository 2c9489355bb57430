import Criteria.Proofs.DefinitionText
import Criteria.Proofs.RootTables

set_option autoImplicit false

/-
A registry written as a list of definitions and built again from it. The definitions come
one root table after the other, in whatever order they were listed before.
-/
namespace Criteria

namespace Field

/-- A definition that a registry holds is held as it is. -/
theorem normalized_normalized (f : Field) : f.normalized.normalized = f.normalized := by
  rw [normalized, normalized, eraseDups_of_nodup (nodup_eraseDups _)]

theorem IsWellFormed.normalized {f : Field} (formed : f.IsWellFormed) :
    f.normalized.IsWellFormed where
  hasId := formed.hasId
  hasRootTable := formed.hasRootTable
  hasStoragePath := formed.hasStoragePath
  namesRelations := formed.namesRelations
  hasOperators := by
    obtain ⟨op, listed⟩ := List.exists_mem_of_ne_nil _ formed.hasOperators
    exact List.ne_nil_of_mem (List.mem_eraseDups.mpr listed)
  hasOptions := formed.hasOptions
  hasNoOptions := formed.hasNoOptions
  followsChain := formed.followsChain

end Field

namespace Registry

/-- The definitions as a JSON list, one root table after the other. -/
def toJson (r : Registry) : Json := .array (r.toList.map Field.toJson)

theorem IsConsistent.normalized {fields : List Field} (consistent : IsConsistent fields) :
    IsConsistent (fields.map Field.normalized) where
  wellFormed := List.forall_mem_map.mpr fun f member => (consistent.wellFormed f member).normalized
  distinct := List.pairwise_map.mpr consistent.distinct

/-- Definitions that are normalized already stay as they are. -/
theorem map_normalized_toList {fields : List Field} (consistent : IsConsistent fields) :
    (holding fields).toList.map Field.normalized = (holding fields).toList := by
  have each : ∀ f ∈ (holding fields).toList, f.normalized = f := by
    intro f listed
    obtain ⟨g, -, rfl⟩ := exists_mem_of_mem_toList consistent listed
    exact g.normalized_normalized
  exact (List.map_congr_left each).trans (List.map_id' _)

theorem IsConsistent.toList {fields : List Field} (consistent : IsConsistent fields) :
    IsConsistent (holding fields).toList :=
  consistent.normalized.of_perm (toList_perm consistent).symm

/-- The registry that is made of the list of a registry. -/
theorem represents_reloaded {fields : List Field} (consistent : IsConsistent fields) :
    (holding (holding fields).toList).Represents (holding fields).toList := by
  have represents := consistent.toList.represents
  rwa [map_normalized_toList consistent] at represents

namespace Represents

variable {r s : Registry} {fields : List Field} (represents : r.Represents fields)
  (reloaded : s.Represents r.toList)
include represents reloaded

/-- The root tables come up in the same order when each has its definitions together. -/
theorem tables_reloaded : s.tables.keys = r.tables.keys := by
  rw [reloaded.tables, toList_eq_flatMap, List.map_flatMap]
  apply eraseDups_flatMap r.tables.distinct
  · intro rootTable listed
    obtain ⟨f, member, ofTable⟩ := represents.mem_tables.mp listed
    have among : f ∈ r.fieldsOf rootTable := by
      rw [represents.fieldsOf]
      exact List.mem_filter.mpr ⟨member, beq_iff_eq.mpr ofTable⟩
    exact List.ne_nil_of_mem (List.mem_map_of_mem among)
  · intro rootTable x copied
    obtain ⟨f, member, rfl⟩ := List.mem_map.mp copied
    rw [represents.fieldsOf] at member
    exact eq_of_beq (List.mem_filter.mp member).2

theorem fieldsOf_reloaded (rootTable : String) : s.fieldsOf rootTable = r.fieldsOf rootTable := by
  rw [reloaded.fieldsOf, represents.fieldsOf, represents.toList_eq]
  by_cases listed : rootTable ∈ r.tables.keys
  · rw [← represents.tables]
    exact filter_groups Field.rootTable r.tables.distinct fields listed
  · have absent : ∀ f ∈ fields, f.rootTable ≠ rootTable := by
      intro f member ofTable
      exact listed (represents.mem_tables.mpr ⟨f, member, ofTable⟩)
    rw [← represents.toList_eq, List.filter_eq_nil_iff.mpr, List.filter_eq_nil_iff.mpr]
    · intro f member
      simpa using absent f member
    · intro f member
      simpa using absent f (represents.toList_perm.mem_iff.mp member)

theorem toList_reloaded : s.toList = r.toList := by
  rw [toList_eq_flatMap, toList_eq_flatMap, represents.tables_reloaded reloaded]
  exact List.flatMap_congr fun rootTable _ => represents.fieldsOf_reloaded reloaded rootTable

theorem resolve_reloaded (id rootTable : String) :
    s.resolve id rootTable = r.resolve id rootTable := by
  rw [resolve_eq_find?_fieldsOf, resolve_eq_find?_fieldsOf,
    represents.fieldsOf_reloaded reloaded]

end Represents

end Registry

/-- The list of a registry is read back from its JSON text and makes a registry again, which
has the same list, answers alike and gives every tree the same result. -/
theorem registry_reloads {fields : List Field} {r : Registry}
    (made : Registry.ofFields fields = .ok r) :
    ∃ s, Field.listOfText r.toJson.text = .ok r.toList ∧
      Registry.ofFields r.toList = .ok s ∧
      s.toJson.text = r.toJson.text ∧ s.toList = r.toList ∧
      s.size = r.size ∧ s.rootTables = r.rootTables ∧
      (∀ rootTable, s.fieldsOf rootTable = r.fieldsOf rootTable) ∧
      (∀ id rootTable, s.resolve id rootTable = r.resolve id rootTable) ∧
      (∀ id, (s.lookup id).isSome = (r.lookup id).isSome) ∧
      ∀ (rootTable : String) (extraFields : List String) (maxDepth : Nat) (g : Group),
        Query.compile ⟨s, rootTable, extraFields, maxDepth⟩ g =
          Query.compile ⟨r, rootTable, extraFields, maxDepth⟩ g := by
  obtain ⟨consistent, rfl⟩ := Registry.ofFields_eq_ok_iff.mp made
  let r := Registry.holding fields
  let s := Registry.holding r.toList
  have represents := consistent.represents
  have reloaded : s.Represents r.toList := Registry.represents_reloaded consistent
  have toList := represents.toList_reloaded reloaded
  have resolve := represents.resolve_reloaded reloaded
  have known (id : String) : (s.lookup id).isSome = (r.lookup id).isSome := by
    apply Registry.isSome_lookup_congr
    simp only [resolve, r]
  refine ⟨s, Field.listOfText_text r.toList,
    Registry.ofFields_of_isConsistent consistent.toList, ?_, toList, ?_, ?_,
    represents.fieldsOf_reloaded reloaded, resolve, known, ?_⟩
  · rw [Registry.toJson, toList, Registry.toJson]
  · rw [Registry.size_eq, toList, ← Registry.size_eq]
  · rw [Registry.rootTables, represents.tables_reloaded reloaded, Registry.rootTables]
  · intro rootTable
    exact Query.compile_congr (fun id => resolve id rootTable) known

/-- Definitions of two root tables by turns, one of them with an operator twice, come
together by root table. -/
theorem registry_reloads_by_turns :
    let reference := (Field.plain "ref" "Reference" .text "orders" "reference").withOperators
      [.eq, .neq, .eq]
    let email := Field.plain "email" "Email" .text "customers" "email"
    let state := (Field.plain "state" "State" .enum "orders" "state").withOptions ["OPEN", "CLOSED"]
    ∃ r s, Registry.ofFields [reference, email, state] = .ok r ∧
      r.tables.keys = ["orders", "customers"] ∧
      Field.listOfText r.toJson.text = .ok r.toList ∧
      r.toList = [{ reference with operators := [.eq, .neq] }, state, email] ∧
      Registry.ofFields r.toList = .ok s ∧ s.toJson.text = r.toJson.text := by
  intro reference email state
  have consistent : Registry.IsConsistent [reference, email, state] := by decide
  have made := Registry.ofFields_of_isConsistent consistent
  obtain ⟨s, read, remade, text, -⟩ := registry_reloads made
  exact ⟨_, s, made, by decide, read, by decide, remade, text⟩

end Criteria
