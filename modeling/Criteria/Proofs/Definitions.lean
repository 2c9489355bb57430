import Criteria.Field

set_option autoImplicit false

/-
Well-formed definitions of fields. A check refuses exactly the others, and tells of a
rule that is broken.
-/
namespace Criteria

namespace Field

/-- Whether two definitions have the same root table and the same id. -/
def SameKey (f g : Field) : Prop := f.rootTable = g.rootTable ∧ f.id = g.id

instance (f g : Field) : Decidable (f.SameKey g) := inferInstanceAs (Decidable (_ ∧ _))

instance : Std.Symm fun f g : Field => ¬ f.SameKey g :=
  ⟨fun _ _ apart same => apart ⟨same.1.symm, same.2.symm⟩⟩

/-- Whether the storage path is the relation chain with a column name behind it. -/
def FollowsChain (f : Field) : Prop :=
  ∃ column : String, column ≠ "" ∧ '.' ∉ column.toList ∧ f.storagePath =
    if f.relationChain = [] then column
    else String.intercalate "." f.relationChain ++ "." ++ column

/-- The rules for definitions. -/
structure IsWellFormed (f : Field) : Prop where
  hasId : f.id ≠ ""
  hasRootTable : f.rootTable ≠ ""
  hasStoragePath : f.storagePath ≠ ""
  namesRelations : "" ∉ f.relationChain
  hasOperators : f.operators ≠ []
  hasOptions : f.type = .enum → ∃ options, f.options = some options ∧ options ≠ []
  hasNoOptions : f.type ≠ .enum → f.options = none
  followsChain : f.FollowsChain

/-- The errors that tell of a rule which a definition breaks. -/
inductive Breaks (f : Field) : RegistryError → Prop where
  | id : f.id = "" → f.Breaks (.emptyIdentifier .id)
  | rootTable : f.rootTable = "" → f.Breaks (.emptyIdentifier .rootTable)
  | storagePath : f.storagePath = "" → f.Breaks (.emptyIdentifier .storagePath)
  | relationName : "" ∈ f.relationChain → f.Breaks (.emptyIdentifier .relationName)
  | operators : f.operators = [] → f.Breaks (.noOperators f.id)
  | missingOptions : f.type = .enum → (∀ options, f.options = some options → options = []) →
      f.Breaks (.missingOptions f.id)
  | unexpectedOptions (options : List String) : f.type ≠ .enum → f.options = some options →
      f.Breaks (.unexpectedOptions f.id f.type)
  | path : ¬ f.FollowsChain → f.Breaks (.pathMismatch f.id f.storagePath f.relationChain)

theorem stripStart_eq_some_iff {start cs rest : List Char} :
    stripStart start cs = some rest ↔ cs = start ++ rest := by
  induction start generalizing cs with
  | nil => simp [stripStart]
  | cons p ps ih =>
      cases cs with
      | nil => simp [stripStart]
      | cons c cs =>
          rw [stripStart, List.cons_append, List.cons.injEq]
          by_cases same : p = c
          · rw [if_pos same, ih, and_iff_right same.symm]
          · rw [if_neg same]
            simp [Ne.symm same]

/-- The relations of a chain with a dot behind each are the chain joined by dots and a dot. -/
theorem chainChars_eq {chain : List String} (nonempty : chain ≠ []) :
    chainChars chain = (String.intercalate "." chain ++ ".").toList := by
  induction chain with
  | nil => exact False.elim (nonempty rfl)
  | cons relation more ih =>
      cases more with
      | nil => simp [chainChars]
      | cons next more =>
          have rest := ih (by simp)
          rw [chainChars] at rest
          rw [chainChars, List.flatMap_cons, rest]
          simp [String.intercalate_cons_cons]

theorem column?_eq_some_iff (f : Field) (column : String) :
    f.column? = some column.toList ↔ f.storagePath =
      if f.relationChain = [] then column
      else String.intercalate "." f.relationChain ++ "." ++ column := by
  rw [column?, stripStart_eq_some_iff, ← String.toList_inj]
  by_cases short : f.relationChain = []
  · rw [if_pos short, short]
    rfl
  · rw [if_neg short, chainChars_eq short, ← String.toList_append]

theorem followsChain_iff (f : Field) :
    f.FollowsChain ↔ ∃ column, f.column? = some column ∧ column ≠ [] ∧ '.' ∉ column := by
  constructor
  · intro follows
    obtain ⟨column, nonempty, noDot, path⟩ := follows
    refine ⟨column.toList, (f.column?_eq_some_iff column).mpr path, ?_, noDot⟩
    rwa [Ne, String.toList_eq_nil_iff]
  · intro found
    obtain ⟨column, found, nonempty, noDot⟩ := found
    refine ⟨String.ofList column, ?_, ?_, (f.column?_eq_some_iff _).mp ?_⟩
    · rwa [Ne, String.ofList_eq_empty_iff]
    · rwa [String.toList_ofList]
    · rwa [String.toList_ofList]

/-- The last rule that a check looks at. -/
def checkPath (f : Field) : Except RegistryError Unit :=
  match f.column? with
  | some column =>
      if column.isEmpty || column.contains '.' then
        .error (.pathMismatch f.id f.storagePath f.relationChain)
      else .ok ()
  | none => .error (.pathMismatch f.id f.storagePath f.relationChain)

/-- The first rule that is broken, in the order of a check. -/
theorem check_eq (f : Field) : f.check =
    if f.id.isEmpty then .error (.emptyIdentifier .id)
    else if f.rootTable.isEmpty then .error (.emptyIdentifier .rootTable)
    else if f.storagePath.isEmpty then .error (.emptyIdentifier .storagePath)
    else if f.relationChain.any String.isEmpty then .error (.emptyIdentifier .relationName)
    else if f.operators.isEmpty then .error (.noOperators f.id)
    else match f.type, f.options with
      | .enum, some (_ :: _) => f.checkPath
      | .enum, _ => .error (.missingOptions f.id)
      | type, some _ => .error (.unexpectedOptions f.id type)
      | _, none => f.checkPath := rfl

/-- What a check says of a definition. -/
def Told (f : Field) : Except RegistryError Unit → Prop
  | .ok () => f.IsWellFormed
  | .error e => f.Breaks e

theorem told_checkPath {f : Field} (others : f.FollowsChain → f.IsWellFormed) :
    f.Told f.checkPath := by
  rw [followsChain_iff] at others
  have breaks (broken : ¬ f.FollowsChain) :
      f.Told (.error (.pathMismatch f.id f.storagePath f.relationChain)) := .path broken
  rw [followsChain_iff] at breaks
  rw [checkPath]
  cases found : f.column? with
  | none => exact breaks (by simp [found])
  | some column =>
      dsimp only
      rw [found] at others breaks
      split
      · rename_i unfit
        refine breaks ?_
        rintro ⟨other, same, nonempty, noDot⟩
        cases same
        simp [nonempty, noDot] at unfit
      · rename_i fit
        exact others ⟨column, rfl, by simpa using fit⟩

/-- A check tells of a rule that is broken, or else none is. -/
theorem told_check (f : Field) : f.Told f.check := by
  rw [check_eq]
  split
  · exact .id (String.isEmpty_iff.mp ‹_›)
  rename_i hasId
  split
  · exact .rootTable (String.isEmpty_iff.mp ‹_›)
  rename_i hasRootTable
  split
  · exact .storagePath (String.isEmpty_iff.mp ‹_›)
  rename_i hasStoragePath
  split
  · rename_i unnamed
    obtain ⟨name, member, empty⟩ := List.any_eq_true.mp unnamed
    exact .relationName (String.isEmpty_iff.mp empty ▸ member)
  rename_i named
  split
  · exact .operators (List.isEmpty_iff.mp ‹_›)
  rename_i hasOperators
  rw [String.isEmpty_iff] at hasId hasRootTable hasStoragePath
  rw [List.isEmpty_iff] at hasOperators
  have namesRelations : "" ∉ f.relationChain := fun member =>
    named (List.any_eq_true.mpr ⟨"", member, rfl⟩)
  split
  · rename_i first more isEnum found
    exact told_checkPath fun follows =>
      ⟨hasId, hasRootTable, hasStoragePath, namesRelations, hasOperators,
        fun _ => ⟨first :: more, found, by simp⟩, fun other => False.elim (other isEnum), follows⟩
  · rename_i isEnum none
    refine .missingOptions isEnum ?_
    intro options found
    cases options with
    | nil => rfl
    | cons first more => exact False.elim (none first more found)
  · rename_i options found _ other
    exact .unexpectedOptions options other found
  · rename_i none other
    exact told_checkPath fun follows =>
      ⟨hasId, hasRootTable, hasStoragePath, namesRelations, hasOperators,
        fun isEnum => False.elim (other isEnum), fun _ => none, follows⟩

/-- A definition that breaks a rule is not well formed. -/
theorem Breaks.not_isWellFormed {f : Field} {e : RegistryError} (breaks : f.Breaks e) :
    ¬ f.IsWellFormed := by
  intro formed
  cases breaks with
  | id empty => exact formed.hasId empty
  | rootTable empty => exact formed.hasRootTable empty
  | storagePath empty => exact formed.hasStoragePath empty
  | relationName member => exact formed.namesRelations member
  | operators none => exact formed.hasOperators none
  | missingOptions isEnum empty =>
      obtain ⟨options, found, nonempty⟩ := formed.hasOptions isEnum
      exact nonempty (empty options found)
  | unexpectedOptions options other found =>
      rw [formed.hasNoOptions other] at found
      cases found
  | path broken => exact broken formed.followsChain

theorem breaks_of_check {f : Field} {e : RegistryError} (refused : f.check = .error e) :
    f.Breaks e := by
  have told := f.told_check
  rwa [refused] at told

theorem check_eq_ok_iff (f : Field) : f.check = .ok () ↔ f.IsWellFormed := by
  have told := f.told_check
  constructor
  · intro passed
    rwa [passed] at told
  · intro formed
    cases checked : f.check with
    | ok => rfl
    | error e => exact False.elim ((breaks_of_check checked).not_isWellFormed formed)

instance (f : Field) : Decidable f.IsWellFormed :=
  decidable_of_iff (f.check.toBool = true) <| by
    rw [← check_eq_ok_iff]
    cases f.check <;> simp [Except.toBool]

end Field
end Criteria
