import Criteria.Environment
import Criteria.Filter
import Criteria.Invocation
import Criteria.Json.Printer
import Criteria.Query
import Criteria.Registry.Builtin
import Criteria.Registry.Source
import Criteria.Settings

set_option autoImplicit false

/-
The command: it compiles a filter, or lists the fields of a table. What it reads comes from
a system that is left open, so that a run is a function of what the system gives.
-/
namespace Criteria

/-- What a run leaves behind. -/
structure Outcome where
  exitCode : Nat
  stdout : String := ""
  stderr : String := ""
  deriving DecidableEq

/-- Where a run reads from. What cannot be read has a reason. -/
structure System (m : Type → Type) where
  file : String → m (Except String String)
  input : m (Except String String)

/-- Why a run ends early: what failed, and the causes one behind the other. -/
structure Failure where
  message : String
  causes : List String := []
  deriving DecidableEq

namespace Failure

/-- A text with all its lines indented, the first one in its own way. -/
def indented (first others : String) (text : String) : String :=
  first ++ String.intercalate ("\n" ++ others) (text.splitOn "\n")

/-- The number of a cause, in a column of its own. -/
def label (index : Nat) : String :=
  let digits := toString index
  String.ofList (List.replicate (5 - digits.length) ' ') ++ digits ++ ": "

def causeLines (index : Nat) : List String → String
  | [] => ""
  | cause :: more => "\n" ++ indented (label index) "       " cause ++ causeLines (index + 1) more

/-- Several causes are numbered. -/
def text (f : Failure) : String :=
  f.message ++
    match f.causes with
    | [] => ""
    | [cause] => "\n\nCaused by:\n" ++ indented "    " "    " cause
    | causes => "\n\nCaused by:" ++ causeLines 0 causes

def outcome (f : Failure) : Outcome where
  exitCode := 1
  stderr := "Error: " ++ f.text ++ "\n"

def ofSettings (e : SettingsError) : Failure :=
  ⟨"failed to load configuration", [e.message, e.cause.message]⟩

def ofLoading (path : String) (e : LoadError) : Failure :=
  ⟨"failed to load domain map " ++ path, e.message :: e.cause?.toList⟩

def ofFilter (e : FilterError) : Failure :=
  ⟨"failed to parse filter", e.message :: e.cause?.toList⟩

end Failure

def Notice.text : Notice → String
  | .help => "Usage: sieve [--domain-map <PATH>] compile <INPUT> [--root-table <TABLE>] " ++
      "[--extra-field <FIELD>]... [--max-depth <COUNT>] [--json]\n" ++
      "       sieve [--domain-map <PATH>] fields [--root-table <TABLE>]\n"
  | .version => "sieve-kernel 0.2.1-devel\n"
  | .usage reason => "error: " ++ reason ++ "\n"

def Notice.outcome (notice : Notice) : Outcome :=
  match notice with
  | .usage _ => { exitCode := 2, stderr := notice.text }
  | _ => { exitCode := 0, stdout := notice.text }

namespace CompiledQuery

/-- The strings and the diagnostics as lines of text, or all of it as JSON. -/
def outcome (c : CompiledQuery) (json : Bool) : Outcome :=
  let exitCode := if c.isValid then 0 else 1
  if json then { exitCode, stdout := c.toJson.pretty ++ "\n" }
  else {
    exitCode
    stdout := "select: " ++ c.select ++ "\n" ++ "filter: " ++ c.filter ++ "\n"
    stderr := String.join (c.diagnostics.map fun d => "error: " ++ d.text ++ "\n") }

end CompiledQuery

def Field.line (f : Field) : String :=
  f.id ++ "\t" ++ f.type.name ++ "\t" ++ f.storagePath ++ "\t" ++
    String.intercalate "," (f.operators.map Operator.name) ++ "\n"

/-- A line for each field of a table, of which there must be one. -/
def Registry.listing (r : Registry) (rootTable : String) : Outcome :=
  let fields := r.fieldsOf rootTable
  { exitCode := if fields.isEmpty then 1 else 0
    stdout := String.join (fields.map Field.line) }

namespace Command

variable {m : Type → Type} [Monad m]

/-- The registry of a file, if there is one to be read. -/
def loadFile (system : System m) : Option String → m (Except Failure (Option Registry))
  | none => pure (.ok none)
  | some path => do
    match ← system.file path with
    | .error reason => return .error (.ofLoading path (.unreadable path reason))
    | .ok text =>
      match Registry.ofText text with
      | .ok r => return .ok (some r)
      | .error e => return .error (.ofLoading path e)

/-- The registry of a file, or the built-in one. -/
def loadRegistry (system : System m) (path : Option String) : m (Except Failure Registry) := do
  match ← loadFile system path with
  | .error failure => return .error failure
  | .ok (some r) => return .ok r
  | .ok none =>
    match Registry.builtin with
    | .ok r => return .ok r
    | .error e => return .error ⟨"builtin domain map is inconsistent: " ++ e.message, []⟩

def readSource (system : System m) (input : String) : m (Except Failure String) := do
  if input = "-" then
    match ← system.input with
    | .ok text => return .ok text
    | .error reason => return .error ⟨"failed to read stdin", [reason]⟩
  else
    match ← system.file input with
    | .ok text => return .ok text
    | .error reason => return .error ⟨"failed to read " ++ input, [reason]⟩

def compile (system : System m) (r : Registry) (settings : Settings) (o : CompileOptions) :
    m Outcome := do
  match ← readSource system o.input with
  | .error failure => return failure.outcome
  | .ok text =>
    match Group.ofText text with
    | .error e => return (Failure.ofFilter e).outcome
    | .ok g =>
      let q : Query := {
        registry := r
        rootTable := o.rootTable.getD settings.rootTable
        extraFields := o.extraFields
        maxDepth := o.maxDepth.getD settings.maxDepth }
      return (q.compile g).outcome o.json

/-- Runs the command. Arguments at fault are told first, then settings, then the registry;
options go before settings. -/
def run (system : System m) (env : Environment) (arguments : List String) : m Outcome := do
  match Invocation.ofArguments arguments with
  | .error notice => return notice.outcome
  | .ok invocation =>
    match Settings.ofLookup env.lookup with
    | .error e => return (Failure.ofSettings e).outcome
    | .ok settings =>
      match ← loadRegistry system (invocation.domainMap <|> settings.domainMap) with
      | .error failure => return failure.outcome
      | .ok r =>
        match invocation.action with
        | .compile o => compile system r settings o
        | .fields rootTable => return r.listing (rootTable.getD settings.rootTable)

end Command
end Criteria
