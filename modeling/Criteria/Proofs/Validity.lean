import Mathlib.Data.List.TakeWhile
import Criteria.Proofs.Diagnostics

set_option autoImplicit false

/-
Valid filter trees, said without a walk over them, and the proof that a validation
finds nothing exactly in these.
-/
namespace Criteria

def Field.HasOption (f : Field) (s : String) : Prop :=
  ∃ options, f.options = some options ∧ s ∈ options

/-- Whether a single value fits the type of a field. -/
inductive Field.Fits (f : Field) : Value → Prop where
  | text (s : String) : f.type = .text → f.Fits (.text s)
  | number (n : Binary64) : f.type = .number → n.isFinite → f.Fits (.number n)
  | boolean (b : Bool) : f.type = .boolean → f.Fits (.boolean b)
  | option (s : String) : f.type = .enum → f.HasOption s → f.Fits (.text s)
  | date (written : String) (t : Instant) : f.type = .date → Instant.ofText? written = some t →
      f.Fits (.date written)
  | dateText (written : String) (t : Instant) : f.type = .date → Instant.ofText? written = some t →
      f.Fits (.text written)

/-- Whether a value is what an operator takes on a field. -/
inductive Field.Takes (f : Field) (op : Operator) : Value → Prop where
  | nothing : op.isNullary → f.Takes op .absent
  | options (items : List Value) : op.takesList → f.type = .enum →
      (∀ s, Value.text s ∈ items → f.HasOption s) → f.Takes op (.list items)
  | items (items : List Value) : op.takesList → f.type ≠ .enum →
      (∀ item ∈ items, f.Fits item) → f.Takes op (.list items)
  | single (value : Value) : ¬ op.isNullary → ¬ op.takesList → value ≠ .absent →
      (∀ items, value ≠ .list items) → f.Fits value → f.Takes op value

structure Rule.IsValid (registry : Registry) (rootTable : String) (r : Rule) : Prop where
  hasId : Text.trimmed r.id ≠ ""
  hasField : Text.trimmed r.fieldId ≠ ""
  resolved : ∃ f, registry.resolve r.fieldId rootTable = some f ∧ r.operator ∈ f.operators ∧
    f.Takes r.operator r.value

/-- Groups are neither too deep nor empty, and rules are valid, wherever they stand. -/
structure Group.IsValid (registry : Registry) (rootTable : String) (maxDepth : Nat) (g : Group) :
    Prop where
  groups : ∀ path id combinator children,
    g.toNode.at? path = some (.group id combinator children) →
      path.length ≤ maxDepth ∧ children ≠ []
  rules : ∀ path r, g.toNode.at? path = some (.rule r) → r.IsValid registry rootTable

theorem Text.trim_eq_nil_iff (cs : List Char) : Text.trim cs = [] ↔ ∀ c ∈ cs, Text.isBlank c := by
  rw [Text.trim, List.reverse_eq_nil_iff, Text.trimStart, List.dropWhile_eq_nil_iff]
  constructor
  · intro rest c member
    rw [← List.takeWhile_append_dropWhile (p := Text.isBlank) (l := cs)] at member
    rcases List.mem_append.mp member with front | back
    · exact List.mem_takeWhile_imp front
    · exact rest c (List.mem_reverse.mpr back)
  · intro blank c member
    exact blank c ((List.dropWhile_sublist _).subset (List.mem_reverse.mp member))

/-- A text is blank when trimming leaves nothing. -/
theorem Text.isAllBlank_iff (s : String) : Text.isAllBlank s ↔ Text.trimmed s = "" := by
  rw [Text.isAllBlank, List.all_eq_true, Text.trimmed, String.ofList_eq_empty_iff,
    Text.trim_eq_nil_iff]

namespace Field

theorem hasOption_iff (f : Field) (s : String) : f.hasOption s ↔ f.HasOption s := by
  unfold hasOption HasOption
  cases f.options <;> simp

theorem fits_of_misfit? {f : Field} {value : Value} (fitting : f.misfit? value = none) :
    f.Fits value := by
  unfold misfit? at fitting
  split at fitting
  · exact .text _ ‹_›
  · rename_i n isNumber
    split at fitting
    · exact .number n isNumber ‹_›
    · cases fitting
  · rename_i written isDate
    split at fitting
    · obtain ⟨t, read⟩ := Option.isSome_iff_exists.mp ‹_›
      exact .date written t isDate read
    · cases fitting
  · rename_i written isDate
    split at fitting
    · obtain ⟨t, read⟩ := Option.isSome_iff_exists.mp ‹_›
      exact .dateText written t isDate read
    · cases fitting
  · exact .boolean _ ‹_›
  · rename_i s isEnum
    split at fitting
    · exact .option s isEnum ((f.hasOption_iff s).mp ‹_›)
    · cases fitting
  · cases fitting

/-- A value without a misfit is one that fits. -/
theorem misfit?_eq_none_iff (f : Field) (value : Value) :
    f.misfit? value = none ↔ f.Fits value := by
  refine ⟨fits_of_misfit?, fun fits => ?_⟩
  cases fits with
  | text s isText => simp only [misfit?, isText]
  | number n isNumber finite => simp only [misfit?, isNumber, finite, ↓reduceIte]
  | boolean b isBoolean => simp only [misfit?, isBoolean]
  | option s isEnum hasOption =>
      simp only [misfit?, isEnum, (f.hasOption_iff s).mpr hasOption, ↓reduceIte]
  | date written t isDate read => simp only [misfit?, isDate, read, Option.isSome_some, ↓reduceIte]
  | dateText written t isDate read =>
      simp only [misfit?, isDate, read, Option.isSome_some, ↓reduceIte]

theorem itemProblems_of_enum {f : Field} (isEnum : f.type = .enum) (items : List Value) :
    f.itemProblems items = [] ↔ ∀ s, Value.text s ∈ items → f.HasOption s := by
  rw [itemProblems, if_pos isEnum, List.filterMap_eq_nil_iff]
  constructor
  · intro each s member
    have own := each s (List.mem_filterMap.mpr ⟨.text s, member, rfl⟩)
    rw [← hasOption_iff]
    by_contra missing
    rw [if_neg missing] at own
    cases own
  · intro each s found
    obtain ⟨value, member, isText⟩ := List.mem_filterMap.mp found
    cases value with
    | text other =>
        cases isText
        rw [if_pos ((f.hasOption_iff s).mpr (each s member))]
    | _ => cases isText

theorem itemProblems_of_not_enum {f : Field} (notEnum : f.type ≠ .enum) (items : List Value) :
    f.itemProblems items = [] ↔ ∀ item ∈ items, f.Fits item := by
  rw [itemProblems, if_neg notEnum, List.filterMap_eq_nil_iff]
  constructor
  · intro each item member
    obtain ⟨index, found⟩ := List.mem_iff_getElem?.mp member
    have own := each (item, index) (List.mk_mem_zipIdx_iff_getElem?.mpr found)
    exact (f.misfit?_eq_none_iff item).mp (Option.map_eq_none_iff.mp own)
  · rintro each ⟨item, index⟩ member
    have isItem := List.mem_of_getElem? (List.mk_mem_zipIdx_iff_getElem?.mp member)
    exact Option.map_eq_none_iff.mpr ((f.misfit?_eq_none_iff item).mpr (each item isItem))

theorem not_isNullary_of_takesList {op : Operator} (takesList : op.takesList) : ¬ op.isNullary := by
  cases op <;> first | decide | cases takesList

theorem takes_iff_of_nullary {f : Field} {op : Operator} {value : Value} (nullary : op.isNullary) :
    f.Takes op value ↔ value = .absent := by
  constructor
  · intro takes
    cases takes with
    | nothing => rfl
    | options _ takesList | items _ takesList =>
        exact False.elim (not_isNullary_of_takesList takesList nullary)
    | single _ notNullary => exact False.elim (notNullary nullary)
  · intro absent
    subst absent
    exact .nothing nullary

theorem takes_iff_of_takesList {f : Field} {op : Operator} {value : Value}
    (takesList : op.takesList) :
    f.Takes op value ↔ ∃ items, value = .list items ∧ f.itemProblems items = [] := by
  constructor
  · intro takes
    cases takes with
    | nothing nullary => exact False.elim (not_isNullary_of_takesList takesList nullary)
    | options items _ isEnum each =>
        exact ⟨items, rfl, (itemProblems_of_enum isEnum items).mpr each⟩
    | items items _ notEnum each =>
        exact ⟨items, rfl, (itemProblems_of_not_enum notEnum items).mpr each⟩
    | single _ _ single => exact False.elim (single takesList)
  · intro listed
    obtain ⟨items, rfl, clean⟩ := listed
    by_cases isEnum : f.type = .enum
    · exact .options items takesList isEnum ((itemProblems_of_enum isEnum items).mp clean)
    · exact .items items takesList isEnum ((itemProblems_of_not_enum isEnum items).mp clean)

theorem takes_iff_of_single {f : Field} {op : Operator} {value : Value}
    (notNullary : ¬ op.isNullary) (single : ¬ op.takesList) :
    f.Takes op value ↔ value ≠ .absent ∧ (∀ items, value ≠ .list items) ∧ f.Fits value := by
  constructor
  · intro takes
    cases takes with
    | nothing nullary => exact False.elim (notNullary nullary)
    | options _ takesList | items _ takesList => exact False.elim (single takesList)
    | single _ _ _ notAbsent notList fits => exact ⟨notAbsent, notList, fits⟩
  · intro given
    obtain ⟨notAbsent, notList, fits⟩ := given
    exact .single value notNullary single notAbsent notList fits

/-- Nothing is wrong with a value exactly where it is what the operator takes. -/
theorem valueProblems_eq_nil_iff (f : Field) (op : Operator) (value : Value) :
    f.valueProblems op value = [] ↔ f.Takes op value := by
  unfold valueProblems
  by_cases nullary : op.isNullary
  · rw [if_pos nullary, takes_iff_of_nullary nullary]
    cases value <;> simp [Value.isAbsent]
  · rw [if_neg nullary]
    by_cases takesList : op.takesList
    · rw [takes_iff_of_takesList takesList]
      cases value <;> simp [Value.isAbsent, takesList]
    · rw [takes_iff_of_single nullary takesList]
      cases value <;> simp [Value.isAbsent, Value.isList, takesList, misfit?_eq_none_iff]

end Field

theorem Rule.problems_eq_nil_iff (registry : Registry) (rootTable : String) (r : Rule) :
    r.problems registry rootTable = [] ↔ r.IsValid registry rootTable := by
  have hasId : (if Text.isAllBlank r.id then [Problem.missingId] else []) = [] ↔
      Text.trimmed r.id ≠ "" := by
    rw [Ne, ← Text.isAllBlank_iff]
    simp
  unfold Rule.problems
  rw [List.append_eq_nil_iff, hasId]
  by_cases blank : Text.isAllBlank r.fieldId
  · rw [if_pos blank]
    constructor
    · intro empty
      obtain ⟨-, clean⟩ := empty
      cases clean
    · intro valid
      exact False.elim (valid.hasField ((Text.isAllBlank_iff r.fieldId).mp blank))
  · have hasField : Text.trimmed r.fieldId ≠ "" := fun empty =>
      blank ((Text.isAllBlank_iff r.fieldId).mpr empty)
    rw [if_neg blank]
    cases found : registry.resolve r.fieldId rootTable with
    | none =>
        constructor
        · intro empty
          obtain ⟨-, clean⟩ := empty
          dsimp only at clean
          split at clean <;> cases clean
        · intro valid
          obtain ⟨f, resolved, -⟩ := valid.resolved
          cases found.symm.trans resolved
    | some f =>
        have allowed : (if f.allows r.operator then []
            else [Problem.operatorNotAllowed r.operator r.fieldId]) = [] ↔
            r.operator ∈ f.operators := by
          simp [Field.allows]
        dsimp only
        rw [List.append_eq_nil_iff, allowed, f.valueProblems_eq_nil_iff]
        constructor
        · intro parts
          obtain ⟨id, isAllowed, takes⟩ := parts
          exact ⟨id, hasField, f, found, isAllowed, takes⟩
        · intro valid
          obtain ⟨other, resolved, isAllowed, takes⟩ := valid.resolved
          cases found.symm.trans resolved
          exact ⟨valid.hasId, isAllowed, takes⟩

theorem Group.validate_of_isValid {registry : Registry} {rootTable : String} {maxDepth : Nat}
    {g : Group} (valid : g.IsValid registry rootTable maxDepth) :
    g.validate registry rootTable maxDepth = [] := by
  rw [Group.validate_eq_nil_iff_own]
  intro path node found _
  cases node with
  | rule r =>
      have clean := (r.problems_eq_nil_iff registry rootTable).mpr (valid.rules path r found)
      rw [Node.ownDiagnostics, clean, List.map_nil]
  | group id combinator children =>
      obtain ⟨bound, nonempty⟩ := valid.groups path id combinator children found
      rw [Node.ownDiagnostics, if_neg (by omega), if_neg nonempty]

/-- Where nothing is found no group is too deep, since the first such group on the way
to it would have been told. -/
theorem Group.depth_le_of_validate {registry : Registry} {rootTable : String} {maxDepth : Nat}
    {g : Group} (clean : g.validate registry rootTable maxDepth = []) {path : Path} {id : String}
    {combinator : Combinator} {children : List Node}
    (found : g.toNode.at? path = some (.group id combinator children)) :
    path.length ≤ maxDepth := by
  rw [Group.validate_eq_nil_iff_own] at clean
  by_contra deep
  have first : ∃ id combinator children,
      g.toNode.at? (path.take (maxDepth + 1)) = some (.group id combinator children) := by
    rcases Nat.lt_or_ge (maxDepth + 1) path.length with deeper | here
    · exact Node.exists_group_at?_take found deeper
    · rw [List.take_of_length_le here]
      exact ⟨id, combinator, children, found⟩
  obtain ⟨id', combinator', children', foundFirst⟩ := first
  have length : (path.take (maxDepth + 1)).length = maxDepth + 1 := by
    rw [List.length_take]
    omega
  have own := clean _ _ foundFirst (by omega)
  rw [Node.ownDiagnostics, if_pos length] at own
  cases own

theorem Group.isValid_of_validate {registry : Registry} {rootTable : String} {maxDepth : Nat}
    {g : Group} (clean : g.validate registry rootTable maxDepth = []) :
    g.IsValid registry rootTable maxDepth where
  groups := by
    intro path id combinator children found
    have bound := Group.depth_le_of_validate clean found
    refine ⟨bound, ?_⟩
    intro empty
    subst empty
    rw [Group.validate_eq_nil_iff_own] at clean
    have own := clean path _ found (by omega)
    rw [Node.ownDiagnostics, if_neg (by omega), if_pos rfl] at own
    cases own
  rules := by
    intro path r found
    have reached : path.length ≤ maxDepth + 1 := by
      cases shape : path.length with
      | zero => omega
      | succ count =>
          obtain ⟨id, combinator, children, parent⟩ :=
            Node.exists_group_at?_take found (show count < path.length by omega)
          have bound := Group.depth_le_of_validate clean parent
          rw [List.length_take] at bound
          omega
    rw [Group.validate_eq_nil_iff_own] at clean
    have own := clean path _ found reached
    exact (r.problems_eq_nil_iff registry rootTable).mp (List.map_eq_nil_iff.mp own)

/-- A validation finds nothing exactly in valid trees. -/
theorem validate_eq_nil_iff (registry : Registry) (rootTable : String) (maxDepth : Nat)
    (g : Group) :
    g.validate registry rootTable maxDepth = [] ↔ g.IsValid registry rootTable maxDepth :=
  ⟨Group.isValid_of_validate, Group.validate_of_isValid⟩

end Criteria
