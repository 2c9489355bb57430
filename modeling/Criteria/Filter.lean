import Criteria.Wire.Tree

set_option autoImplicit false

/- Filters as they arrive: JSON text of limited size that describes a group. -/
namespace Criteria

/-- Why a text is no filter. -/
inductive FilterError where
  | tooLarge
  | invalid (text : String) (fault : Json.Fault)

/-- How many bytes the text of a filter may take. -/
def filterLimit : Nat := 65536

namespace FilterError

/-- What is wrong with the JSON, if the size is not. -/
def cause? : FilterError → Option String
  | .tooLarge => none
  | .invalid text fault => some (fault.message text.toList)

def message : FilterError → String
  | .tooLarge => "filter JSON exceeds maximum size of " ++ toString filterLimit ++ " bytes"
  | .invalid text fault => "invalid filter JSON: " ++ fault.message text.toList

end FilterError

/-- The filter tree that a text describes. -/
def Group.ofText (text : String) : Except FilterError Group :=
  if filterLimit < text.utf8ByteSize then .error .tooLarge
  else match Json.readAll Group.record.read text.toList with
    | .ok g => .ok g
    | .error fault => .error (.invalid text fault)

end Criteria
