import Mathlib.Data.List.Induction
import Mathlib.Data.List.Pairwise
import Criteria.Registry
import Criteria.Proofs.Definitions
import Criteria.Proofs.Occurrences

set_option autoImplicit false

/-
The tables of a registry seen as one list of fields. A field that is taken in joins the list
at its end, and the answers of the registry are answers about the list.
-/
namespace Criteria

namespace Registry

/-- The tables in the order in which the fields of a list come to them, the fields of each in
their order, and for each id the table of its first field. -/
structure Represents (r : Registry) (fields : List Field) : Prop where
  tables : r.tables.keys = (fields.map Field.rootTable).eraseDups
  fieldsOf : ∀ rootTable, r.fieldsOf rootTable = fields.filter fun f => f.rootTable == rootTable
  firstTables : ∀ id,
    r.firstTables.get? id = (fields.find? fun f => f.id == id).map Field.rootTable

theorem resolve_eq_find?_fieldsOf (r : Registry) (id rootTable : String) :
    r.resolve id rootTable = (r.fieldsOf rootTable).find? fun f => f.id == id := by
  rw [resolve, FieldTables.find?_eq, fieldsOf]
  apply KeyedList.get?_eq_find?_values
  intro key f found
  rw [← FieldTables.find?_eq] at found
  exact (r.keyed key rootTable f found).2

theorem toList_eq_flatMap (r : Registry) : r.toList = r.tables.keys.flatMap r.fieldsOf := by
  have each : r.tables.keys.flatMap r.fieldsOf =
      (r.tables.keys.map r.tables.get?).flatMap fun table => (table.getD .empty).values := by
    rw [List.flatMap_map]
    rfl
  rw [each, KeyedList.map_get?_keys, List.flatMap_map, toList]
  rfl

/-- A registry lists the fields that it finds by their own keys. -/
theorem mem_toList_iff {r : Registry} {f : Field} :
    f ∈ r.toList ↔ r.resolve f.id f.rootTable = some f := by
  rw [toList_eq_flatMap, List.mem_flatMap]
  constructor
  · rintro ⟨rootTable, -, listed⟩
    obtain ⟨⟨id, _⟩, entry, rfl⟩ := List.mem_map.mp listed
    have found := KeyedList.get?_eq_some_iff.mpr entry
    rw [← FieldTables.find?_eq] at found
    obtain ⟨rfl, rfl⟩ := r.keyed id rootTable _ found
    exact found
  · intro found
    obtain ⟨table, isTable, inside⟩ := Option.bind_eq_some_iff.mp found
    refine ⟨f.rootTable, KeyedList.isSome_get?_iff.mp (by rw [isTable]; rfl), ?_⟩
    rw [fieldsOf, FieldTables.table, isTable]
    exact List.mem_map_of_mem (KeyedList.get?_eq_some_iff.mp inside)

theorem mem_toList_of_resolve {r : Registry} {id rootTable : String} {f : Field}
    (found : r.resolve id rootTable = some f) : f ∈ r.toList := by
  obtain ⟨rfl, rfl⟩ := r.keyed id rootTable f found
  exact mem_toList_iff.mpr found

theorem size_eq (r : Registry) : r.size = r.toList.length := by
  rw [size, toList, List.length_flatMap, List.sum_eq_foldr]
  congr 1
  apply List.map_congr_left
  intro table _
  exact (List.length_map ..).symm

/-- An id is looked up with success when it is one of some root table. -/
theorem isSome_lookup_iff_resolve (r : Registry) (id : String) :
    (r.lookup id).isSome ↔ ∃ rootTable, (r.resolve id rootTable).isSome := by
  constructor
  · intro known
    obtain ⟨f, found⟩ := Option.isSome_iff_exists.mp known
    obtain ⟨rootTable, -, resolved⟩ := Option.bind_eq_some_iff.mp found
    exact ⟨rootTable, by rw [resolved]; rfl⟩
  · rintro ⟨rootTable, resolved⟩
    obtain ⟨first, led⟩ :=
      Option.isSome_iff_exists.mp (r.indexed.complete id rootTable resolved)
    rw [lookup, led, Option.bind_some]
    exact r.indexed.leads id first led

theorem isSome_lookup_congr {r s : Registry} {id : String}
    (known : (∃ rootTable, (r.resolve id rootTable).isSome) ↔
      ∃ rootTable, (s.resolve id rootTable).isSome) :
    (r.lookup id).isSome = (s.lookup id).isSome := by
  rw [Bool.eq_iff_iff, isSome_lookup_iff_resolve, isSome_lookup_iff_resolve]
  exact known

theorem rootTables_sorted (r : Registry) : r.rootTables.Pairwise (· < ·) := by
  have ordered : r.rootTables.Pairwise fun a b => decide (a ≤ b) :=
    List.pairwise_mergeSort (by simpa using fun _ _ _ => String.le_trans)
      (by simpa using String.le_total) r.tables.keys
  have distinct : r.rootTables.Nodup :=
    (List.mergeSort_perm r.tables.keys _).nodup_iff.mpr r.tables.distinct
  exact (ordered.and distinct).imp fun both =>
    Std.lt_of_le_of_ne (of_decide_eq_true both.1) both.2

namespace Represents

variable {r : Registry} {fields : List Field}

theorem empty : Registry.empty.Represents [] where
  tables := rfl
  fieldsOf _ := rfl
  firstTables _ := rfl

theorem resolve_eq (represents : r.Represents fields) (id rootTable : String) :
    r.resolve id rootTable =
      fields.find? fun f => f.rootTable == rootTable && f.id == id := by
  rw [resolve_eq_find?_fieldsOf, represents.fieldsOf, List.find?_filter]
  simp only [Bool.decide_and, Bool.decide_eq_true]

theorem isSome_resolve_iff (represents : r.Represents fields) (f : Field) :
    (r.resolve f.id f.rootTable).isSome ↔ ∃ g ∈ fields, g.SameKey f := by
  rw [represents.resolve_eq, List.find?_isSome]
  simp only [Bool.and_eq_true, beq_iff_eq, Field.SameKey]

/-- The table that the index leads to has the first field of an id. -/
theorem lookup_eq (represents : r.Represents fields) (id : String) :
    r.lookup id = fields.find? fun f => f.id == id := by
  rw [lookup, represents.firstTables]
  cases found : fields.find? fun f => f.id == id with
  | none => rfl
  | some f =>
      obtain ⟨isId, front, back, shape, others⟩ := List.find?_eq_some_iff_append.mp found
      rw [Option.map_some, Option.bind_some, represents.resolve_eq, shape,
        List.find?_eq_some_iff_append]
      refine ⟨by simpa using isId, front, back, rfl, ?_⟩
      intro g earlier
      have otherId := others g earlier
      simp only [Bool.not_eq_true', Bool.and_eq_false_imp] at otherId ⊢
      exact fun _ => otherId

/-- The step of the construction: a field with a key of its own joins the list at its end. -/
theorem insert (represents : r.Represents fields) {f : Field}
    (fresh : ∀ g ∈ fields, ¬ g.SameKey f) : (r.insert f).Represents (fields ++ [f]) where
  tables := by
    have appended : (fields ++ [f]).map Field.rootTable =
        fields.map Field.rootTable ++ [f.rootTable] := List.map_append
    rw [appended, ← insertNew_eraseDups, ← represents.tables]
    refine (KeyedList.keys_set ..).trans ?_
    simp only [insertNew, List.contains_iff_mem]
  fieldsOf := by
    intro rootTable
    have known := represents.fieldsOf rootTable
    rw [List.filter_append, ← known, Registry.fieldsOf, Registry.insert, FieldTables.table_insert]
    by_cases ofTable : f.rootTable = rootTable
    · subst ofTable
      have new : (r.tables.table f.rootTable).get? f.id = none := by
        rw [← FieldTables.find?_eq, ← Option.not_isSome_iff_eq_none]
        intro taken
        obtain ⟨g, listed, same⟩ := (represents.isSome_resolve_iff f).mp taken
        exact fresh g listed same
      rw [if_pos rfl, KeyedList.values_set_of_new new]
      simp [Registry.fieldsOf]
    · rw [if_neg (Ne.symm ofTable)]
      simp [Registry.fieldsOf, ofTable]
  firstTables := by
    intro id
    refine (KeyedList.get?_setNew ..).trans ?_
    rw [represents.firstTables, represents.firstTables, List.find?_append]
    by_cases ofId : id = f.id
    · subst ofId
      rw [if_pos rfl]
      cases fields.find? fun g => g.id == f.id <;> simp
    · have other : [f].find? (fun g => g.id == id) = none := by simp [Ne.symm ofId]
      rw [if_neg ofId, other, Option.or_none]

/-- The run of the construction, over fields with keys of their own. -/
theorem holding (distinct : fields.Pairwise fun f g => ¬ f.SameKey g) :
    (Registry.holding fields).Represents (fields.map Field.normalized) := by
  induction fields using List.reverseRecOn with
  | nil => exact empty
  | append_singleton fields f ih =>
      obtain ⟨earlier, -, apart⟩ := List.pairwise_append.mp distinct
      have fresh : ∀ g ∈ fields.map Field.normalized, ¬ g.SameKey f.normalized := by
        rw [List.forall_mem_map]
        exact fun g listed => apart g listed f (List.mem_singleton_self f)
      rw [List.map_append, Registry.holding, List.foldl_append]
      exact (ih earlier).insert fresh

theorem mem_tables (represents : r.Represents fields) {rootTable : String} :
    rootTable ∈ r.tables.keys ↔ ∃ f ∈ fields, f.rootTable = rootTable := by
  rw [represents.tables, List.mem_eraseDups, List.mem_map]

theorem mem_rootTables (represents : r.Represents fields) {rootTable : String} :
    rootTable ∈ r.rootTables ↔ ∃ f ∈ fields, f.rootTable = rootTable := by
  rw [rootTables, List.mem_mergeSort, represents.mem_tables]

/-- The fields come one root table after the other. -/
theorem toList_eq (represents : r.Represents fields) :
    r.toList = (fields.map Field.rootTable).eraseDups.flatMap fun rootTable =>
      fields.filter fun f => f.rootTable == rootTable := by
  rw [toList_eq_flatMap, represents.tables]
  exact List.flatMap_congr fun rootTable _ => represents.fieldsOf rootTable

theorem toList_perm (represents : r.Represents fields) : r.toList.Perm fields := by
  rw [represents.toList_eq]
  apply perm_groups Field.rootTable (nodup_eraseDups _)
  intro f listed
  rw [List.mem_eraseDups]
  exact List.mem_map_of_mem listed

theorem size_eq (represents : r.Represents fields) : r.size = fields.length := by
  rw [Registry.size_eq, represents.toList_perm.length_eq]

end Represents

end Registry
end Criteria
