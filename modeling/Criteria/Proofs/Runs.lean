import Criteria.Proofs.Attempts
import Criteria.Proofs.JsonTexts
import Criteria.Proofs.Overrides
import Criteria.Proofs.Registration

set_option autoImplicit false

/-
What a run that compiles leaves behind. It depends on what the run loads: by its options, by
the environment behind them, and from the files and the standard input these name.
-/
namespace Criteria

open Settings (SetsDepth filled? domainMapVariable rootTableVariable defaultRootTable)

/-- The registry of a file, or the built-in one where no file is named. -/
inductive System.HasRegistry (system : System Id) : Option String → Registry → Prop where
  | file (path text : String) (r : Registry) : Id.run (system.file path) = .ok text →
      Registry.ofText text = .ok r → HasRegistry system (some path) r
  | builtin (r : Registry) : Registry.builtin = .ok r → HasRegistry system none r

/-- What is read of an input, which is a file unless it is a hyphen. -/
def System.source (system : System Id) (input : String) : Except String String :=
  if input = "-" then Id.run system.input else Id.run (system.file input)

/-- What a run loads before it compiles: a query and a tree. An option goes before a variable
that is not blank, and this goes before a default. -/
structure Command.Loads (system : System Id) (env : Environment) (domainMap : Option String)
    (o : CompileOptions) (q : Query) (g : Group) : Prop where
  registry : system.HasRegistry (domainMap <|> filled? env.lookup domainMapVariable) q.registry
  rootTable : q.rootTable =
    (o.rootTable <|> (filled? env.lookup rootTableVariable).map Text.trimmed).getD defaultRootTable
  maxDepth : ∃ depth, SetsDepth env.lookup depth ∧ q.maxDepth = o.maxDepth.getD depth
  extraFields : q.extraFields = o.extraFields
  tree : ∃ text, system.source o.input = .ok text ∧ Group.ofText text = .ok g

namespace Command

variable {system : System Id}

theorem loadRegistry_none : Id.run (loadRegistry system none) =
    Registry.builtin.mapError fun e => ⟨"builtin domain map is inconsistent: " ++ e.message, []⟩ := by
  rw [loadRegistry]
  -- With its name left in place, the steps below would build the registry field by field.
  generalize Registry.builtin = built
  rw [loadFile, pure_bind]
  cases built <;> rfl

theorem loadRegistry_some (path : String) : Id.run (loadRegistry system (some path)) =
    (Id.run (system.file path)).mapError (.ofLoading path <| .unreadable path ·) >>= fun text =>
      (Registry.ofText text).mapError (.ofLoading path) := by
  simp only [loadRegistry, loadFile, Id.run_bind]
  cases Id.run (system.file path) with
  | error reason => rfl
  | ok text =>
      rw [mapError_ok, ok_bind]
      dsimp only
      cases Registry.ofText text <;> rfl

theorem loadRegistry_eq_ok_iff {path : Option String} {r : Registry} :
    Id.run (loadRegistry system path) = .ok r ↔ system.HasRegistry path r := by
  cases path with
  | none =>
      rw [loadRegistry_none, mapError_eq_ok_iff]
      constructor
      · exact .builtin r
      · rintro ⟨⟩
        assumption
  | some path =>
      rw [loadRegistry_some, bind_eq_ok_iff]
      simp only [mapError_eq_ok_iff]
      constructor
      · rintro ⟨text, read, made⟩
        exact .file path text r read made
      · intro has
        cases has with
        | file _ text _ read made => exact ⟨text, read, made⟩

theorem readSource_eq_ok_iff {input text : String} :
    Id.run (readSource system input) = .ok text ↔ system.source input = .ok text := by
  by_cases standard : input = "-"
  · simp only [readSource, System.source, if_pos standard, Id.run_bind]
    cases Id.run system.input <;> simp
  · simp only [readSource, System.source, if_neg standard, Id.run_bind]
    cases Id.run (system.file input) <;> simp

/-- All that comes before a run compiles, or why it ends before. -/
def load (system : System Id) (env : Environment) (domainMap : Option String)
    (o : CompileOptions) : Except Failure (Query × Group) := do
  let settings ← (Settings.ofLookup env.lookup).mapError Failure.ofSettings
  let r ← Id.run (loadRegistry system (domainMap <|> settings.domainMap))
  let text ← Id.run (readSource system o.input)
  let g ← (Group.ofText text).mapError Failure.ofFilter
  let q : Query := {
    registry := r
    rootTable := o.rootTable.getD settings.rootTable
    extraFields := o.extraFields
    maxDepth := o.maxDepth.getD settings.maxDepth }
  return (q, g)

theorem load_eq_ok_iff {env : Environment} {domainMap : Option String} {o : CompileOptions}
    {q : Query} {g : Group} :
    load system env domainMap o = .ok (q, g) ↔ Loads system env domainMap o q g := by
  have table (s : Option String) : o.rootTable.getD (s.elim defaultRootTable Text.trimmed) =
      (o.rootTable <|> s.map Text.trimmed).getD defaultRootTable := by
    cases o.rootTable <;> cases s <;> simp
  simp only [load, bind_eq_ok_iff, mapError_eq_ok_iff, Settings.ofLookup_eq_ok_iff,
    loadRegistry_eq_ok_iff, readSource_eq_ok_iff]
  constructor
  · rintro ⟨_, ⟨depth, set, rfl⟩, r, has, text, read, g, parsed, same⟩
    cases same
    exact ⟨has, table _, ⟨depth, set, rfl⟩, rfl, text, read, parsed⟩
  · rintro ⟨has, isTable, ⟨depth, set, isDepth⟩, areExtra, text, read, parsed⟩
    obtain ⟨r, rootTable, extraFields, maxDepth⟩ := q
    dsimp only at has isTable isDepth areExtra
    subst isTable isDepth areExtra
    refine ⟨_, ⟨depth, set, rfl⟩, r, has, text, read, g, parsed, ?_⟩
    rw [← table]
    rfl

/-- A run loads one query and one tree at most. -/
theorem Loads.unique {env : Environment} {domainMap : Option String} {o : CompileOptions}
    {q q' : Query} {g g' : Group} (loads : Loads system env domainMap o q g)
    (loads' : Loads system env domainMap o q' g') : q = q' ∧ g = g' := by
  rw [← load_eq_ok_iff] at loads loads'
  rw [loads] at loads'
  cases loads'
  exact ⟨rfl, rfl⟩

section
variable (system) (env : Environment) {arguments : List String} {domainMap : Option String}
  {o : CompileOptions}
  (accepted : Invocation.ofArguments arguments = .ok ⟨domainMap, .compile o⟩)
include accepted

end

end Command

end Criteria
