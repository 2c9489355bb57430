import Criteria.Binary64.Text

set_option autoImplicit false

/- JSON values. -/
namespace Criteria

/-- A number as it was written: whole and in range, or a double. -/
inductive JsonNumber where
  | natural (n : Nat)
  /-- The number `-n`. -/
  | negative (n : Nat)
  | double (negative : Bool) (m : Magnitude)

inductive Json where
  | null
  | bool (b : Bool)
  | number (n : JsonNumber)
  | string (s : String)
  | array (items : List Json)
  | object (members : List (String × Json))

namespace JsonNumber

def toBinary64 : JsonNumber → Binary64
  | .natural n => .ofInt n
  | .negative n => .ofInt (-n)
  | .double sign m => .finite sign m

/-- Doubles in JSON: the fewest digits, with a point even in whole numbers, written
out from 10⁻⁵ up to 10¹⁶ and with an exponent elsewhere. -/
def style : NumberStyle where
  tie := .even
  isPositional _ d := -5 ≤ d.leading && d.leading < 16
  wholeMark := ['.', '0']
  signedZero := true

def chars : JsonNumber → List Char
  | .natural n => Nat.toDigits 10 n
  | .negative n => '-' :: Nat.toDigits 10 n
  | .double sign m => style.finite sign m

end JsonNumber

/-- A double as JSON, which lacks the numbers that are not finite. -/
def Json.ofBinary64 : Binary64 → Json
  | .finite negative m => .number (.double negative m)
  | _ => .null

end Criteria
