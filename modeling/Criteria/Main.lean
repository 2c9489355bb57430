import Criteria.Command

set_option autoImplicit false

/- The command as a program: its files, variables, arguments and streams. -/
namespace Criteria.Program

/-- The reason in the words of the operating system. -/
def reason : IO.Error → String
  | .noFileOrDirectory _ _ _ => "No such file or directory (os error 2)"
  | .permissionDenied _ _ _ => "Permission denied (os error 13)"
  | .inappropriateType _ code _ => "Is a directory (os error " ++ toString code ++ ")"
  | e => toString e

def decoded (bytes : ByteArray) : Except String String :=
  match String.fromUTF8? bytes with
  | some text => .ok text
  | none => .error "stream did not contain valid UTF-8"

def attempt (read : IO ByteArray) : IO (Except String String) := do
  match ← read.toBaseIO with
  | .ok bytes => return decoded bytes
  | .error e => return .error (reason e)

def system : System IO where
  file path := attempt (IO.FS.readBinFile path)
  input := do attempt (← IO.getStdin).readBinToEnd

/-- The text of the first of some files that can be read. -/
def firstText : List String → IO String
  | [] => return ""
  | path :: more => do
    match ← system.file path with
    | .ok text => return text
    | .error _ => firstText more

/-- The file of assignments may lie in the working directory or in one above it. -/
def assignmentFiles (directory : String) : List String :=
  let depth := (directory.toList.filter (· == '/')).length
  (List.range (depth + 1)).map fun n => String.join (List.replicate n "../") ++ ".env"

/-- The variables of the process that a run may look up. -/
def processVariables (assignments : List Assignment) : IO (List (String × String)) := do
  let names := [Settings.domainMapVariable, Settings.maxDepthVariable,
    Settings.rootTableVariable] ++ assignments.flatMap fun a => a.name :: a.references
  let found ← names.mapM fun name => do return (← IO.getEnv name).map (name, ·)
  return found.filterMap id

def environment : IO Environment := do
  let assignments :=
    Assignment.ofText (← firstText (assignmentFiles (← IO.currentDir).toString))
  let found ← processVariables assignments
  return { ofProcess := fun name => found.lookup name, assignments }

end Criteria.Program

def main (arguments : List String) : IO UInt32 := do
  let outcome ←
    Criteria.Command.run Criteria.Program.system (← Criteria.Program.environment) arguments
  (← IO.getStdout).putStr outcome.stdout
  (← IO.getStderr).putStr outcome.stderr
  return outcome.exitCode.toUInt32
