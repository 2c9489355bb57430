import Criteria.Text.Blank
import Criteria.Text.Count
import Criteria.Validation

set_option autoImplicit false

/- Settings from the variables of the environment. -/
namespace Criteria

structure Settings where
  /-- The file of the registry that takes the place of the built-in one. -/
  domainMap : Option String
  maxDepth : Nat
  rootTable : String
  deriving DecidableEq

/-- A depth that is no count. -/
structure SettingsError where
  cause : Text.CountError
  deriving DecidableEq

def SettingsError.message (_ : SettingsError) : String :=
  "SIEVE_MAX_DEPTH must be a non-negative integer"

namespace Settings

def domainMapVariable : String := "SIEVE_DOMAIN_MAP"
def maxDepthVariable : String := "SIEVE_MAX_DEPTH"
def rootTableVariable : String := "SIEVE_ROOT_TABLE"

def defaultRootTable : String := "applications"

def depthOf : Option String → Except SettingsError Nat
  | none => .ok defaultMaxDepth
  | some text =>
    match Text.count (Text.trimmed text) with
    | .ok n => .ok n
    | .error cause => .error ⟨cause⟩

/-- Blank settings count as missing. The depth and the table are trimmed, the file is not. -/
def ofLookup (lookup : String → Option String) : Except SettingsError Settings := do
  let maxDepth ← depthOf (lookup maxDepthVariable)
  return {
    domainMap := (lookup domainMapVariable).filter (!Text.isAllBlank ·)
    maxDepth
    rootTable := ((lookup rootTableVariable).filter (!Text.isAllBlank ·)).elim
      defaultRootTable Text.trimmed }

end Settings
end Criteria
