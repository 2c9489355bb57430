import Criteria.Proofs.ListedFields

set_option autoImplicit false

/-
How a registry is made of a list of definitions: which lists it takes, what it says to
the others, and what it answers afterwards.
-/
namespace Criteria

namespace Registry

/-- Whether a definition has the key of an earlier one. -/
def Repeats (f : Field) (earlier : List Field) : Prop :=
  ∃ g ∈ earlier, g.SameKey f

/-- The lists of definitions that make up a registry. -/
structure IsConsistent (fields : List Field) : Prop where
  wellFormed : ∀ f ∈ fields, f.IsWellFormed
  distinct : fields.Pairwise fun f g => ¬ f.SameKey g

instance (fields : List Field) : Decidable (IsConsistent fields) :=
  decidable_of_iff ((∀ f ∈ fields, f.IsWellFormed) ∧ fields.Pairwise fun f g => ¬ f.SameKey g)
    ⟨fun both => ⟨both.1, both.2⟩, fun consistent => ⟨consistent.wellFormed, consistent.distinct⟩⟩

/-- What is said to a definition behind earlier ones. That it breaks a rule comes before
that it repeats a key. -/
inductive Refuses (earlier : List Field) (f : Field) : RegistryError → Prop where
  | broken (e : RegistryError) : f.check = .error e → Refuses earlier f e
  | repeated : f.IsWellFormed → Repeats f earlier → Refuses earlier f (.duplicate f.rootTable f.id)

theorem IsConsistent.nil : IsConsistent [] := ⟨by simp, .nil⟩

theorem IsConsistent.concat {fields : List Field} (consistent : IsConsistent fields) {f : Field}
    (formed : f.IsWellFormed) (fresh : ¬ Repeats f fields) : IsConsistent (fields ++ [f]) where
  wellFormed := by
    intro g member
    rcases List.mem_append.mp member with earlier | last
    · exact consistent.wellFormed g earlier
    · rwa [List.mem_singleton.mp last]
  distinct := by
    rw [List.pairwise_append]
    refine ⟨consistent.distinct, List.pairwise_singleton _ _, ?_⟩
    intro g earlier other last same
    rw [List.mem_singleton.mp last] at same
    exact fresh ⟨g, earlier, same⟩

theorem Refuses.not_isConsistent {earlier rest : List Field} {f : Field} {e : RegistryError}
    (refuses : Refuses earlier f e) : ¬ IsConsistent (earlier ++ f :: rest) := by
  intro consistent
  have formed := consistent.wellFormed f (by simp)
  cases refuses with
  | broken e refused => exact (Field.breaks_of_check refused).not_isWellFormed formed
  | repeated _ repeats =>
      obtain ⟨g, member, same⟩ := repeats
      exact (List.pairwise_append.mp consistent.distinct).2.2 g member f List.mem_cons_self same

theorem IsConsistent.represents {fields : List Field} (consistent : IsConsistent fields) :
    (holding fields).Represents (fields.map Field.normalized) :=
  .holding consistent.distinct

theorem holding_concat (fields : List Field) (f : Field) :
    holding (fields ++ [f]) = (holding fields).insert f.normalized := by
  rw [holding, List.foldl_append]
  rfl

theorem contains_holding_iff {fields : List Field} (consistent : IsConsistent fields) (f : Field) :
    ((holding fields).tables.table f.rootTable).contains f.id ↔ Repeats f fields := by
  have known := consistent.represents.isSome_resolve_iff f
  rw [resolve, FieldTables.find?_eq] at known
  refine known.trans ?_
  simp only [List.mem_map, Repeats]
  constructor
  · rintro ⟨_, ⟨g, listed, rfl⟩, same⟩
    exact ⟨g, listed, same⟩
  · rintro ⟨g, listed, same⟩
    exact ⟨g.normalized, ⟨g, listed, rfl⟩, same⟩

/-- The step of the construction: one more definition is taken in or refused. -/
theorem add_holding {fields : List Field} (consistent : IsConsistent fields) (f : Field) :
    (f.IsWellFormed ∧ ¬ Repeats f fields ∧ (holding fields).add f = .ok (holding (fields ++ [f]))) ∨
      ∃ e, Refuses fields f e ∧ (holding fields).add f = .error e := by
  rw [add]
  cases checked : f.check with
  | error e => exact .inr ⟨e, .broken e checked, rfl⟩
  | ok =>
      have formed := f.check_eq_ok_iff.mp checked
      have taken := contains_holding_iff consistent f
      by_cases repeats : Repeats f fields
      · refine .inr ⟨_, .repeated formed repeats, ?_⟩
        rw [if_pos (taken.mpr repeats)]
        rfl
      · refine .inl ⟨formed, repeats, ?_⟩
        rw [if_neg (mt taken.mp repeats), holding_concat]
        rfl

theorem IsConsistent.of_append {fields more : List Field}
    (consistent : IsConsistent (fields ++ more)) : IsConsistent fields where
  wellFormed f member := consistent.wellFormed f (List.mem_append_left more member)
  distinct := (List.pairwise_append.mp consistent.distinct).1

/-- The run of the construction: a list that is consistent is taken in whole, behind what
is there already. -/
theorem foldlM_add {fields : List Field} (more : List Field)
    (consistent : IsConsistent (fields ++ more)) :
    more.foldlM add (holding fields) = .ok (holding (fields ++ more)) := by
  induction more generalizing fields with
  | nil =>
      rw [List.append_nil]
      rfl
  | cons f more ih =>
      rw [List.foldlM_cons]
      rcases add_holding consistent.of_append f with ⟨-, -, taken⟩ | ⟨e, refuses, -⟩
      · rw [List.append_cons] at consistent ⊢
        rw [taken]
        exact ih consistent
      · exact False.elim (refuses.not_isConsistent consistent)

theorem ofFields_of_isConsistent {fields : List Field} (consistent : IsConsistent fields) :
    ofFields fields = .ok (holding fields) := by
  exact @foldlM_add [] fields consistent

theorem add_of_refuses {fields : List Field} (consistent : IsConsistent fields) {f : Field}
    {e : RegistryError} (refuses : Refuses fields f e) : (holding fields).add f = .error e := by
  rw [add]
  cases refuses with
  | broken e refused =>
      rw [refused]
      rfl
  | repeated formed repeats =>
      rw [f.check_eq_ok_iff.mpr formed]
      dsimp only [Except.bind, bind]
      rw [if_pos ((contains_holding_iff consistent f).mpr repeats)]
      rfl

/-- The first definition that is refused behind consistent ones decides. -/
theorem ofFields_of_refuses {earlier rest : List Field} {f : Field} {e : RegistryError}
    (consistent : IsConsistent earlier) (refuses : Refuses earlier f e) :
    ofFields (earlier ++ f :: rest) = .error e := by
  have front : earlier.foldlM add empty = .ok (holding earlier) :=
    ofFields_of_isConsistent consistent
  rw [ofFields, List.foldlM_append, front]
  change List.foldlM add (holding earlier) (f :: rest) = _
  rw [List.foldlM_cons, add_of_refuses consistent refuses]
  rfl

theorem isConsistent_or_refuses (fields : List Field) : IsConsistent fields ∨
    ∃ earlier f rest e, fields = earlier ++ f :: rest ∧ IsConsistent earlier ∧
      Refuses earlier f e := by
  induction fields using List.reverseRecOn with
  | nil => exact .inl .nil
  | append_singleton fields f ih =>
      rcases ih with consistent | ⟨earlier, g, rest, e, rfl, consistent, refuses⟩
      · rcases add_holding consistent f with ⟨formed, fresh, -⟩ | ⟨e, refuses, -⟩
        · exact .inl (consistent.concat formed fresh)
        · exact .inr ⟨fields, f, [], e, rfl, consistent, refuses⟩
      · exact .inr ⟨earlier, g, rest ++ [f], e, by simp, consistent, refuses⟩

theorem ofFields_eq_ok_iff {fields : List Field} {r : Registry} :
    ofFields fields = .ok r ↔ IsConsistent fields ∧ r = holding fields := by
  rcases isConsistent_or_refuses fields with
    consistent | ⟨earlier, f, rest, e, rfl, front, refuses⟩
  · rw [ofFields_of_isConsistent consistent]
    simp [consistent, eq_comm]
  · rw [ofFields_of_refuses front refuses]
    simp [refuses.not_isConsistent]

theorem ofFields_eq_error_iff {fields : List Field} {e : RegistryError} :
    ofFields fields = .error e ↔ ∃ earlier f rest, fields = earlier ++ f :: rest ∧
      IsConsistent earlier ∧ Refuses earlier f e := by
  constructor
  · intro refused
    rcases isConsistent_or_refuses fields with
      consistent | ⟨earlier, f, rest, e', rfl, front, refuses⟩
    · rw [ofFields_of_isConsistent consistent] at refused
      cases refused
    · rw [ofFields_of_refuses front refuses] at refused
      cases refused
      exact ⟨earlier, f, rest, rfl, front, refuses⟩
  · intro first
    obtain ⟨earlier, f, rest, rfl, front, refuses⟩ := first
    exact ofFields_of_refuses front refuses

theorem resolve_holding {fields : List Field} (consistent : IsConsistent fields)
    (id rootTable : String) : (holding fields).resolve id rootTable =
      (fields.find? fun f => f.rootTable == rootTable && f.id == id).map Field.normalized := by
  rw [consistent.represents.resolve_eq, List.find?_map]
  rfl

theorem lookup_holding {fields : List Field} (consistent : IsConsistent fields) (id : String) :
    (holding fields).lookup id = (fields.find? fun f => f.id == id).map Field.normalized := by
  rw [consistent.represents.lookup_eq, List.find?_map]
  rfl

/-- The definition of a key is the only one with it. -/
theorem resolve_eq_some_iff {fields : List Field} (consistent : IsConsistent fields)
    {id rootTable : String} {found : Field} :
    (holding fields).resolve id rootTable = some found ↔
      ∃ f ∈ fields, f.rootTable = rootTable ∧ f.id = id ∧ f.normalized = found := by
  rw [resolve_holding consistent, Option.map_eq_some_iff]
  constructor
  · intro first
    obtain ⟨f, first, same⟩ := first
    have key := List.find?_some first
    rw [Bool.and_eq_true, beq_iff_eq, beq_iff_eq] at key
    exact ⟨f, List.mem_of_find?_eq_some first, key.1, key.2, same⟩
  · intro listed
    obtain ⟨f, member, rfl, rfl, same⟩ := listed
    have present : (fields.find? fun g => g.rootTable == f.rootTable && g.id == f.id).isSome :=
      List.find?_isSome.mpr ⟨f, member, by simp⟩
    obtain ⟨g, first⟩ := Option.isSome_iff_exists.mp present
    have key := List.find?_some first
    rw [Bool.and_eq_true, beq_iff_eq, beq_iff_eq] at key
    have only : g = f := by
      by_contra other
      exact consistent.distinct.forall (List.mem_of_find?_eq_some first) member other key
    exact ⟨f, only ▸ first, same⟩

theorem fieldsOf_holding {fields : List Field} (consistent : IsConsistent fields)
    (rootTable : String) : (holding fields).fieldsOf rootTable =
      (fields.filter fun f => f.rootTable == rootTable).map Field.normalized := by
  rw [consistent.represents.fieldsOf, List.filter_map]
  rfl

theorem map_rootTable_normalized (fields : List Field) :
    (fields.map Field.normalized).map Field.rootTable = fields.map Field.rootTable := by
  rw [List.map_map]
  rfl

theorem toList_holding {fields : List Field} (consistent : IsConsistent fields) :
    (holding fields).toList = (fields.map Field.rootTable).eraseDups.flatMap
      (holding fields).fieldsOf := by
  rw [toList_eq_flatMap, consistent.represents.tables, map_rootTable_normalized]

theorem toList_perm {fields : List Field} (consistent : IsConsistent fields) :
    (holding fields).toList.Perm (fields.map Field.normalized) :=
  consistent.represents.toList_perm

/-- Each field that is listed is one of the definitions, with each operator once. -/
theorem exists_mem_of_mem_toList {fields : List Field} (consistent : IsConsistent fields)
    {f : Field} (listed : f ∈ (holding fields).toList) : ∃ g ∈ fields, g.normalized = f :=
  List.mem_map.mp ((toList_perm consistent).mem_iff.mp listed)

theorem mem_rootTables_iff {fields : List Field} (consistent : IsConsistent fields)
    {rootTable : String} :
    rootTable ∈ (holding fields).rootTables ↔ ∃ f ∈ fields, f.rootTable = rootTable := by
  rw [consistent.represents.mem_rootTables]
  simp only [List.mem_map, exists_exists_and_eq_and]
  rfl

end Registry

/-- A registry is made of exactly the lists whose definitions are well formed and have
keys of their own; in any other list the first definition at fault decides. The registry
answers with the listed definitions, in their order. -/
theorem registry_of_definitions (fields : List Field) :
    ((∃ r, Registry.ofFields fields = .ok r) ↔
      (∀ f ∈ fields, f.IsWellFormed) ∧
        fields.Pairwise fun f g => ¬ f.SameKey g) ∧
    (∀ e, Registry.ofFields fields = .error e ↔
      ∃ earlier f rest, fields = earlier ++ f :: rest ∧ Registry.IsConsistent earlier ∧
        Registry.Refuses earlier f e) ∧
    (∀ f e, Field.check f = .error e → f.Breaks e ∧ ¬ f.IsWellFormed) ∧
    (∀ r, Registry.ofFields fields = .ok r →
      (∀ id rootTable found, r.resolve id rootTable = some found ↔
        ∃ f ∈ fields, f.rootTable = rootTable ∧ f.id = id ∧
          { f with operators := f.operators.eraseDups } = found) ∧
      (∀ id, r.lookup id = (fields.find? (·.id == id)).map Field.normalized) ∧
      (∀ id, (r.lookup id).isSome ↔ ∃ rootTable, (r.resolve id rootTable).isSome) ∧
      (∀ rootTable, r.fieldsOf rootTable =
        (fields.filter (·.rootTable == rootTable)).map Field.normalized) ∧
      r.toList = (fields.map Field.rootTable).eraseDups.flatMap r.fieldsOf ∧
      r.toList.Perm (fields.map Field.normalized) ∧
      r.rootTables.Pairwise (· < ·) ∧
      (∀ rootTable, rootTable ∈ r.rootTables ↔ ∃ f ∈ fields, f.rootTable = rootTable) ∧
      r.size = fields.length) := by
  refine ⟨?_, fun e => Registry.ofFields_eq_error_iff, ?_, ?_⟩
  · simp only [Registry.ofFields_eq_ok_iff, exists_and_left, exists_eq, and_true]
    exact ⟨fun consistent => ⟨consistent.wellFormed, consistent.distinct⟩,
      fun both => ⟨both.1, both.2⟩⟩
  · intro f e refused
    have breaks := Field.breaks_of_check refused
    exact ⟨breaks, breaks.not_isWellFormed⟩
  · intro r made
    obtain ⟨consistent, rfl⟩ := Registry.ofFields_eq_ok_iff.mp made
    refine ⟨fun id rootTable found => Registry.resolve_eq_some_iff consistent,
      Registry.lookup_holding consistent, Registry.isSome_lookup_iff_resolve _,
      Registry.fieldsOf_holding consistent, Registry.toList_holding consistent,
      Registry.toList_perm consistent, Registry.rootTables_sorted _,
      fun rootTable => Registry.mem_rootTables_iff consistent, ?_⟩
    rw [consistent.represents.size_eq, List.length_map]

/-- Definitions of two root tables by turns, one of them with an operator twice and two with
one id, and the same with the first definition once more at the end. -/
theorem registry_of_definitions_by_turns :
    let reference := (Field.plain "ref" "Reference" .text "orders" "reference").withOperators
      [.eq, .neq, .eq]
    let email := Field.plain "email" "Email" .text "customers" "email"
    let region := (Field.plain "region" "Region" .text "orders" "customers.regions.code").via
      ["customers", "regions"]
    let contact := Field.plain "email" "Contact" .text "orders" "contact"
    (∃ r, Registry.ofFields [reference, email, region, contact] = .ok r ∧
      r.resolve "ref" "orders" = some { reference with operators := [.eq, .neq] } ∧
      r.resolve "email" "orders" = some contact ∧ r.lookup "email" = some email ∧
      r.toList.map Field.label = ["Reference", "Region", "Contact", "Email"]) ∧
    Registry.ofFields [reference, email, region, contact, reference] =
      .error (.duplicate "orders" "ref") := by
  intro reference email region contact
  have consistent : Registry.IsConsistent [reference, email, region, contact] := by decide
  have made := Registry.ofFields_of_isConsistent consistent
  obtain ⟨-, -, -, answers⟩ := registry_of_definitions [reference, email, region, contact]
  obtain ⟨resolve, lookup, -, -, toList, -⟩ := answers _ made
  refine ⟨⟨_, made, ?_, ?_, ?_, ?_⟩, ?_⟩
  · exact (resolve "ref" "orders" _).mpr ⟨reference, List.mem_cons_self, rfl, rfl, rfl⟩
  · exact (resolve "email" "orders" _).mpr ⟨contact, by simp, rfl, rfl, rfl⟩
  · exact lookup "email"
  · rw [toList]
    rfl
  · obtain ⟨-, refused, -⟩ :=
      registry_of_definitions [reference, email, region, contact, reference]
    exact (refused _).mpr ⟨[reference, email, region, contact], reference, [], rfl, consistent,
      .repeated (consistent.wellFormed reference List.mem_cons_self)
        ⟨reference, List.mem_cons_self, rfl, rfl⟩⟩

end Criteria
