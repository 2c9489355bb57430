import Criteria.Binary64
import Criteria.Instant.Iso

set_option autoImplicit false

/- The values that rules compare fields with. -/
namespace Criteria

inductive Value where
  | boolean (b : Bool)
  | number (n : Binary64)
  | text (s : String)
  | list (items : List Value)
  /-- A date kept as it was written; it may turn out not to be one. -/
  | date (text : String)
  | absent

namespace Value

def kind : Value → String
  | .boolean _ => "boolean"
  | .number _ => "number"
  | .text _ => "string"
  | .list _ => "list"
  | .date _ => "date"
  | .absent => "absent"

def isAbsent : Value → Bool
  | .absent => true
  | _ => false

def isList : Value → Bool
  | .list _ => true
  | _ => false

def text? : Value → Option String
  | .text s => some s
  | _ => none

def ofInstant (t : Instant) : Value := .date t.iso

def ofTexts (texts : List String) : Value := .list (texts.map .text)

end Value
end Criteria
