import Criteria.Text.Count

set_option autoImplicit false

/-
Command lines. Options begin with two hyphens and take their value from behind an equals
sign or from the next argument; two hyphens alone end them.
-/
namespace Criteria

structure CompileOptions where
  /-- A file, or a hyphen for standard input. -/
  input : String
  rootTable : Option String := none
  extraFields : List String := []
  maxDepth : Option Nat := none
  json : Bool := false
  deriving DecidableEq

inductive Action where
  | compile (options : CompileOptions)
  | fields (rootTable : Option String)
  deriving DecidableEq

structure Invocation where
  domainMap : Option String
  action : Action
  deriving DecidableEq

/-- Why a command line calls for no action. -/
inductive Notice where
  | help
  | version
  | usage (reason : String)
  deriving DecidableEq

namespace Invocation

/-- What an option takes. -/
inductive ValueKind where
  | nothing | text | path | count
  deriving DecidableEq

structure OptionSpec where
  name : String
  kind : ValueKind
  repeats : Bool := false

def OptionSpec.accepts (spec : OptionSpec) (value : String) : Bool :=
  match spec.kind with
  | .nothing => false
  | .text => true
  | .path => !value.isEmpty
  | .count => (Text.count value).isOk

/-- What the arguments give: options with their values, and words. -/
structure Given where
  options : List (String × String) := []
  words : List String := []

namespace Given

def values (g : Given) (name : String) : List String :=
  g.options.filterMap fun entry => if entry.1 = name then some entry.2 else none

def value? (g : Given) (name : String) : Option String := (g.values name).head?

/-- Takes in an option, which comes once unless it may be repeated. -/
def addOption (g : Given) (spec : OptionSpec) (value : String) : Except Notice Given :=
  if !spec.repeats && (g.value? spec.name).isSome then
    .error (.usage ("--" ++ spec.name ++ " cannot be used multiple times"))
  else .ok { g with options := g.options ++ [(spec.name, value)] }

def addValue (g : Given) (spec : OptionSpec) (value : String) : Except Notice Given :=
  if spec.accepts value then g.addOption spec value
  else .error (.usage ("invalid value for --" ++ spec.name))

/-- Takes in a word, which names a file, unless there are enough. -/
def addWord (limit : Nat) (g : Given) (word : String) : Except Notice Given :=
  if word.isEmpty || limit ≤ g.words.length then
    .error (.usage ("unexpected argument " ++ word))
  else .ok { g with words := g.words ++ [word] }

end Given

/-- An argument by its form. -/
inductive Form where
  | endOfOptions
  | long (name : String) (value : Option String)
  | short (letter : Char)
  | word

def form (argument : String) : Form :=
  match argument.toList with
  | ['-', '-'] => .endOfOptions
  | '-' :: '-' :: text =>
    let name := text.takeWhile (· != '=')
    let value := match text.drop name.length with
      | [] => none
      | _ :: value => some (String.ofList value)
    .long (String.ofList name) value
  | '-' :: letter :: _ => .short letter
  | _ => .word

def isWord (argument : String) : Bool :=
  match form argument with
  | .word => true
  | _ => false

/-- What options are known, and how many words may come. On the root level, the first word
ends the options. -/
structure Level where
  specs : List OptionSpec
  wordLimit : Nat
  isRoot : Bool := false

/-- The notice of an option that calls for one. -/
def Level.notice (level : Level) (name : String) : Notice :=
  if name = "help" then .help
  else if name = "version" && level.isRoot then .version
  else .usage ("unexpected argument --" ++ name)

def Level.letterNotice (level : Level) (letter : Char) : Notice :=
  if letter = 'h' then .help
  else if letter = 'V' && level.isRoot then .version
  else .usage ("unexpected argument -" ++ letter.toString)

/-- Reads arguments from left to right, and stops at the first that is at fault. -/
def read (level : Level) (g : Given) : List String → Except Notice (Given × List String)
  | [] => .ok (g, [])
  | argument :: rest =>
    match form argument with
    | .endOfOptions => do
      return (← rest.foldlM (Given.addWord level.wordLimit) g, [])
    | .short letter => .error (level.letterNotice letter)
    | .word =>
      if level.isRoot then .ok (g, argument :: rest)
      else do read level (← g.addWord level.wordLimit argument) rest
    | .long name attached =>
      match level.specs.find? (·.name == name), attached with
      | none, none => .error (level.notice name)
      | none, some _ => .error (.usage ("unexpected argument --" ++ name))
      | some spec, some value => do read level (← g.addValue spec value) rest
      | some spec, none =>
        if spec.kind = .nothing then do read level (← g.addOption spec "") rest
        else match rest with
          | value :: rest =>
            if isWord value then do read level (← g.addValue spec value) rest
            else .error (.usage ("a value is required for --" ++ name))
          | [] => .error (.usage ("a value is required for --" ++ name))

def domainMapSpec : OptionSpec := ⟨"domain-map", .path, false⟩

def rootTableSpec : OptionSpec := ⟨"root-table", .text, false⟩

def rootLevel : Level := { specs := [domainMapSpec], wordLimit := 0, isRoot := true }

def compileLevel : Level where
  specs := [domainMapSpec, rootTableSpec, ⟨"extra-field", .text, true⟩,
    ⟨"max-depth", .count, false⟩, ⟨"json", .nothing, false⟩]
  wordLimit := 1

def fieldsLevel : Level := { specs := [domainMapSpec, rootTableSpec], wordLimit := 0 }

def compileOptions (g : Given) : Except Notice CompileOptions :=
  match g.words with
  | [] => .error (.usage "the input is missing")
  | input :: _ => .ok {
      input
      rootTable := g.value? "root-table"
      extraFields := g.values "extra-field"
      maxDepth := (g.value? "max-depth").bind fun text => (Text.count text).toOption
      json := (g.value? "json").isSome }

/-- The domain map may be given on either level, and the inner one counts. -/
def domainMap? (outer inner : Given) : Option String :=
  inner.value? "domain-map" <|> outer.value? "domain-map"

/-- Help may be asked for by a word, and on one of the actions. -/
def helpOn : List String → Notice
  | [] => .help
  | [action] =>
    if ["compile", "fields", "help"].contains action then .help
    else .usage ("unrecognized subcommand " ++ action)
  | _ => .usage "unrecognized subcommand"

/-- The action that the arguments of a command ask for. -/
def ofArguments (arguments : List String) : Except Notice Invocation := do
  let (outer, rest) ← read rootLevel {} arguments
  match rest with
  | "compile" :: rest =>
    let (inner, _) ← read compileLevel {} rest
    return { domainMap := domainMap? outer inner, action := .compile (← compileOptions inner) }
  | "fields" :: rest =>
    let (inner, _) ← read fieldsLevel {} rest
    return {
      domainMap := domainMap? outer inner
      action := .fields (inner.value? "root-table") }
  | "help" :: rest => throw (helpOn rest)
  | word :: _ => throw (.usage ("unrecognized subcommand " ++ word))
  | [] => throw (.usage "a subcommand is required")

end Invocation
end Criteria
