import Mathlib.Data.String.Basic
import Criteria.Command
import Criteria.Proofs.Validity

set_option autoImplicit false

/-
What the environment sets, and how far options go before it. Options hide all settings that
can be read, but a depth that is no count ends a run even where an option gives the depth.
-/
namespace Criteria

namespace Settings

section
variable (lookup : String → Option String)

/-- What a variable holds, unless it is blank. -/
def filled? (name : String) : Option String :=
  (lookup name).filter fun text => Text.trimmed text ≠ ""

/-- The depth that the variables set: the usual one, or the count that is given. -/
inductive SetsDepth : Nat → Prop where
  | usual : lookup maxDepthVariable = none → SetsDepth defaultMaxDepth
  | count (text : String) (depth : Nat) : lookup maxDepthVariable = some text →
      Text.count (Text.trimmed text) = .ok depth → SetsDepth depth

/-- Whether a depth is given that is no count. -/
def HasBadDepth (cause : Text.CountError) : Prop :=
  ∃ text, lookup maxDepthVariable = some text ∧ Text.count (Text.trimmed text) = .error cause

/-- The settings at a depth, with the variables that are not blank. -/
def ofVariables (depth : Nat) : Settings where
  domainMap := filled? lookup domainMapVariable
  maxDepth := depth
  rootTable := (filled? lookup rootTableVariable).elim defaultRootTable Text.trimmed

theorem filter_lookup (name : String) :
    (lookup name).filter (!Text.isAllBlank ·) = filled? lookup name := by
  refine congrArg (Option.filter · (lookup name)) (funext fun text => ?_)
  rw [Bool.eq_iff_iff, Bool.not_eq_true', Bool.eq_false_iff, Ne, Text.isAllBlank_iff,
    decide_eq_true_iff]

theorem ofLookup_eq :
    ofLookup lookup = (depthOf (lookup maxDepthVariable)).map (ofVariables lookup) := by
  rw [ofLookup, filter_lookup, filter_lookup]
  cases depthOf (lookup maxDepthVariable) <;> rfl

/-- Settings can be read unless there is a depth that is no count. -/
theorem setsDepth_or_hasBadDepth :
    (∃ depth, SetsDepth lookup depth) ∨ ∃ cause, HasBadDepth lookup cause := by
  cases found : lookup maxDepthVariable with
  | none => exact .inl ⟨_, .usual found⟩
  | some text =>
      cases counted : Text.count (Text.trimmed text) with
      | ok depth => exact .inl ⟨_, .count text depth found counted⟩
      | error cause => exact .inr ⟨cause, text, found, counted⟩

end

variable {lookup : String → Option String}

theorem ofLookup_of_setsDepth {depth : Nat} (set : SetsDepth lookup depth) :
    ofLookup lookup = .ok (ofVariables lookup depth) := by
  rw [ofLookup_eq]
  cases set with
  | usual none =>
      rw [none]
      rfl
  | count text depth some isCount =>
      rw [some, depthOf, isCount]
      rfl

theorem ofLookup_of_hasBadDepth {cause : Text.CountError} (bad : HasBadDepth lookup cause) :
    ofLookup lookup = .error ⟨cause⟩ := by
  obtain ⟨text, some, noCount⟩ := bad
  rw [ofLookup_eq, some, depthOf, noCount]
  rfl

theorem ofLookup_eq_ok_iff {s : Settings} :
    ofLookup lookup = .ok s ↔ ∃ depth, SetsDepth lookup depth ∧ s = ofVariables lookup depth := by
  constructor
  · intro read
    rcases setsDepth_or_hasBadDepth lookup with ⟨depth, set⟩ | ⟨cause, bad⟩
    · rw [ofLookup_of_setsDepth set] at read
      cases read
      exact ⟨depth, set, rfl⟩
    · rw [ofLookup_of_hasBadDepth bad] at read
      cases read
  · rintro ⟨depth, set, rfl⟩
    exact ofLookup_of_setsDepth set

end Settings

/-- Whether an action compiles with a registry, a root table and a depth of its own. -/
inductive Invocation.Overrides : Invocation → Prop where
  | compile (path rootTable : String) (maxDepth : Nat) (o : CompileOptions) :
      o.rootTable = some rootTable → o.maxDepth = some maxDepth →
      Overrides ⟨some path, .compile o⟩

/-- A scan for line breaks that finds none behind its position gives the text as it is. -/
theorem splitOnAux_of_not_mem (front : List Char) {rest : List Char} (absent : '\n' ∉ rest) :
    (String.ofList (front ++ rest)).splitOnAux "\n" 0 ⟨String.utf8Len front⟩ 0 [] =
      [String.ofList (front ++ rest)] := by
  induction rest generalizing front with
  | nil =>
      have last := (String.atEnd_of_valid front []).mpr rfl
      have whole := String.extract_of_valid [] front []
      rw [String.splitOnAux, if_pos last]
      simpa using whole
  | cons c rest ih =>
      obtain ⟨other, absent⟩ := not_or.mp (mt List.mem_cons.mpr absent)
      have more := mt (String.atEnd_of_valid front (c :: rest)).mp (List.cons_ne_nil c rest)
      have here := String.get_of_valid front (c :: rest)
      have mark : String.Pos.Raw.get "\n" 0 = '\n' := by decide
      have next := String.next_of_valid front c rest
      have step := ih (front ++ [c]) absent
      rw [String.splitOnAux, if_neg more, here, mark, List.headD_cons,
        if_neg (by simpa using Ne.symm other)]
      simpa [-String.ofList_append, next] using step

/-- A text of one line is indented at its beginning only. -/
theorem Failure.indented_of_oneLine {text : String} (oneLine : '\n' ∉ text.toList)
    (first others : String) : indented first others text = first ++ text := by
  have whole : text.splitOn "\n" = [text] := by
    have aux := splitOnAux_of_not_mem [] oneLine
    rwa [List.nil_append, String.ofList_toList] at aux
  rw [indented, whole, String.intercalate_singleton]

/-- What is told of a depth that is no count. -/
def badDepthText (cause : Text.CountError) : String :=
  "Error: failed to load configuration\n\nCaused by:\n" ++
    "    0: SIEVE_MAX_DEPTH must be a non-negative integer\n" ++
    "    1: " ++ cause.message ++ "\n"

theorem Failure.outcome_ofSettings (cause : Text.CountError) :
    (ofSettings ⟨cause⟩).outcome = { exitCode := 1, stderr := badDepthText cause } := by
  have message : '\n' ∉ "SIEVE_MAX_DEPTH must be a non-negative integer".toList := by decide
  have oneLine : '\n' ∉ cause.message.toList := by cases cause <;> decide
  have first : label 0 = "    0: " := by decide
  have second : label 1 = "    1: " := by decide
  have header : "Error: failed to load configuration\n\nCaused by:\n" =
      "Error: " ++ "failed to load configuration" ++ "\n\nCaused by:" ++ "\n" := by decide
  have body : "    0: SIEVE_MAX_DEPTH must be a non-negative integer\n" =
      "    0: " ++ "SIEVE_MAX_DEPTH must be a non-negative integer" ++ "\n" := by decide
  have whole : "Error: " ++ (ofSettings ⟨cause⟩).text ++ "\n" = badDepthText cause := by
    unfold badDepthText
    rewrite [header, body]
    simp only [text, ofSettings, causeLines, SettingsError.message, indented_of_oneLine message,
      indented_of_oneLine oneLine, first, second, String.append_assoc, String.append_empty]
  simp only [outcome, whole]

namespace Command

section
variable {m : Type → Type} [Monad m] (system : System m)

/-- The run with settings that have been read. -/
def act (settings : Settings) (invocation : Invocation) : m Outcome := do
  match ← loadRegistry system (invocation.domainMap <|> settings.domainMap) with
  | .error failure => return failure.outcome
  | .ok r =>
    match invocation.action with
    | .compile o => compile system r settings o
    | .fields rootTable => return r.listing (rootTable.getD settings.rootTable)

variable {arguments : List String} {invocation : Invocation}

theorem run_of_setsDepth (accepted : Invocation.ofArguments arguments = .ok invocation)
    {env : Environment} {depth : Nat} (set : Settings.SetsDepth env.lookup depth) :
    run system env arguments = act system (.ofVariables env.lookup depth) invocation := by
  simp only [run, accepted, Settings.ofLookup_of_setsDepth set]
  rfl

theorem run_of_hasBadDepth (accepted : Invocation.ofArguments arguments = .ok invocation)
    {env : Environment} {cause : Text.CountError}
    (bad : Settings.HasBadDepth env.lookup cause) :
    run system env arguments = pure { exitCode := 1, stderr := badDepthText cause } := by
  simp only [run, accepted, Settings.ofLookup_of_hasBadDepth bad, Failure.outcome_ofSettings]

/-- Where the options give everything, no setting is used. -/
theorem act_of_overrides (overrides : invocation.Overrides) (settings other : Settings) :
    act system settings invocation = act system other invocation := by
  obtain ⟨path, rootTable, maxDepth, o, hasTable, hasDepth⟩ := overrides
  simp only [act, compile, hasTable, hasDepth, Option.getD_some]
  rfl

end

end Command

open Settings (SetsDepth HasBadDepth)

/-- Where options give the registry, the root table and the depth, a run is the same in all
environments that set a depth. Where the variable of the depth holds no count, the run ends
at once, though its depth is not needed. -/
theorem options_hide_settings {m : Type → Type} [Monad m] (system : System m)
    {arguments : List String} {invocation : Invocation}
    (accepted : Invocation.ofArguments arguments = .ok invocation)
    (overrides : invocation.Overrides) :
    (∀ env other : Environment,
      (∃ depth, SetsDepth env.lookup depth) → (∃ depth, SetsDepth other.lookup depth) →
      Command.run system env arguments = Command.run system other arguments) ∧
    (∀ (env : Environment) (cause : Text.CountError), HasBadDepth env.lookup cause →
      Command.run system env arguments =
        pure { exitCode := 1, stdout := "", stderr := badDepthText cause }) ∧
    ∀ env : Environment,
      (∃ depth, SetsDepth env.lookup depth) ∨ ∃ cause, HasBadDepth env.lookup cause := by
  refine ⟨?_, fun env cause bad => Command.run_of_hasBadDepth system accepted bad,
    fun env => Settings.setsDepth_or_hasBadDepth env.lookup⟩
  rintro env other ⟨depth, set⟩ ⟨depth', set'⟩
  rw [Command.run_of_setsDepth system accepted set, Command.run_of_setsDepth system accepted set']
  exact Command.act_of_overrides system overrides _ _

/-- The environment of a process, with no file of assignments. -/
def Environment.ofList (values : List (String × String)) : Environment where
  ofProcess := fun name => values.lookup name
  assignments := []

/-- A system of some files and a text on its standard input. -/
def System.ofList (files : List (String × String)) (input : String) : System Id where
  file := fun path =>
    match files.lookup path with
    | some text => .ok text
    | none => .error "No such file or directory (os error 2)"
  input := .ok input

/-- All three options against settings of a process and of a file. -/
theorem options_hide_settings_orders :
    let arguments := ["--domain-map", "m.yml", "compile", "-", "--root-table=orders",
      "--max-depth", "5"]
    let system := System.ofList [] ""
    let process := Environment.ofList
      [("SIEVE_ROOT_TABLE", "customers"), ("SIEVE_MAX_DEPTH", " 1 ")]
    let file : Environment := ⟨fun _ => none,
      Assignment.ofText "SIEVE_DOMAIN_MAP=other.yml\nSIEVE_MAX_DEPTH=7\n"⟩
    let bad := Environment.ofList [("SIEVE_MAX_DEPTH", "-1")]
    (∃ invocation, Invocation.ofArguments arguments = .ok invocation ∧ invocation.Overrides) ∧
      SetsDepth process.lookup 1 ∧ SetsDepth file.lookup 7 ∧ HasBadDepth bad.lookup .badDigit ∧
      Command.run system process arguments = Command.run system file arguments ∧
      Command.run system bad arguments =
        pure { exitCode := 1, stderr := badDepthText .badDigit } := by
  intro arguments system process file bad
  let o : CompileOptions := { input := "-", rootTable := some "orders", maxDepth := some 5 }
  have accepted : Invocation.ofArguments arguments = .ok ⟨some "m.yml", .compile o⟩ := by
    decide +kernel
  have overrides : Invocation.Overrides ⟨some "m.yml", .compile o⟩ :=
    .compile _ "orders" 5 _ rfl rfl
  have ofProcess : SetsDepth process.lookup 1 := .count " 1 " 1 (by decide) (by decide)
  have ofFile : SetsDepth file.lookup 7 := .count "7" 7 (by decide +kernel) (by decide)
  have isBad : HasBadDepth bad.lookup .badDigit := ⟨"-1", by decide, by decide⟩
  obtain ⟨equal, ends, -⟩ := options_hide_settings system accepted overrides
  exact ⟨⟨_, accepted, overrides⟩, ofProcess, ofFile, isBad,
    equal process file ⟨1, ofProcess⟩ ⟨7, ofFile⟩, ends bad _ isBad⟩

/-- A filter that is compiled with all three options and nothing in the environment is not
compiled where the environment sets a depth that is no count. -/
theorem settings_show_through_options :
    let arguments := ["compile", "-", "--domain-map", "m.yml", "--root-table", "orders",
      "--max-depth", "5"]
    let definitions := "fields:\n  - id: ref\n    type: text\n    storagePath: reference\n" ++
      "    rootTable: orders\n"
    let filter := "\x7b\"id\":\"root\",\"combinator\":\"and\",\"rules\":[\x7b\"id\":\"a\"," ++
      "\"fieldId\":\"ref\",\"operator\":\"eq\",\"value\":\"A1\"\x7d]\x7d"
    let system := System.ofList [("m.yml", definitions)] filter
    let unset := Environment.ofList []
    let deep := Environment.ofList [("SIEVE_MAX_DEPTH", "deep")]
    (∃ invocation, Invocation.ofArguments arguments = .ok invocation ∧ invocation.Overrides) ∧
      Id.run (Command.run system unset arguments) =
        { exitCode := 0, stdout := "select: *\nfilter: reference.eq.A1\n", stderr := "" } ∧
      Id.run (Command.run system deep arguments) =
        { exitCode := 1
          stdout := ""
          stderr := "Error: failed to load configuration\n\nCaused by:\n" ++
            "    0: SIEVE_MAX_DEPTH must be a non-negative integer\n" ++
            "    1: invalid digit found in string\n" } := by
  intro arguments definitions filter system unset deep
  let o : CompileOptions := { input := "-", rootTable := some "orders", maxDepth := some 5 }
  have accepted : Invocation.ofArguments arguments = .ok ⟨some "m.yml", .compile o⟩ := by
    decide +kernel
  have bad : HasBadDepth deep.lookup .badDigit := ⟨"deep", by decide, by decide⟩
  refine ⟨⟨_, accepted, .compile _ "orders" 5 _ rfl rfl⟩, by decide +kernel, ?_⟩
  rw [Command.run_of_hasBadDepth system accepted bad]
  decide +kernel

end Criteria
