import Criteria.Environment.Assignment

set_option autoImplicit false

/-
The variables that a command sees: those of the process, and behind them those that a file
assigns.
-/
namespace Criteria

structure Environment where
  /-- The variables of the process. -/
  ofProcess : String → Option String
  /-- What the file assigns, in order. -/
  assignments : List Assignment

namespace Environment

/-- A value, with nothing in place of what is not defined. -/
def fill (lookup : String → Option String) (value : List Piece) : String :=
  String.join (value.map fun piece => match piece with
    | .char c => c.toString
    | .reference name => (lookup name).getD "")

/-- A variable of the process, or one among the definitions. -/
def lookupIn (env : Environment) (definitions : List (String × String)) (name : String) :
    Option String :=
  env.ofProcess name <|> definitions.lookup name

/-- What the assignments define. A value may refer to earlier ones, and the first
definition of a name counts. -/
def definitions (env : Environment) : List (String × String) :=
  env.assignments.foldl (fun definitions a =>
    let lookup := env.lookupIn definitions
    if (lookup a.name).isSome then definitions
    else definitions ++ [(a.name, fill lookup a.value)]) []

def lookup (env : Environment) (name : String) : Option String :=
  env.lookupIn env.definitions name

end Environment
end Criteria
