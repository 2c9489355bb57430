import Criteria.Text.Digits

set_option autoImplicit false

/- Counts in decimal, as far as 64 bits hold them. -/
namespace Criteria.Text

/-- Why a text is no count. -/
inductive CountError where
  | empty
  | badDigit
  | tooLarge
  deriving DecidableEq

def CountError.message : CountError → String
  | .empty => "cannot parse integer from empty string"
  | .badDigit => "invalid digit found in string"
  | .tooLarge => "number too large to fit in target type"

/-- The counts lie below this. -/
def countLimit : Nat := 2 ^ (64 : Nat)

/-- Reads digits behind a number, up to the first that is at fault. -/
def countDigits (n : Nat) : List Char → Except CountError Nat
  | [] => .ok n
  | c :: rest =>
    if c.isDigit then
      let n := 10 * n + digitValue c
      if n < countLimit then countDigits n rest else .error .tooLarge
    else .error .badDigit

/-- A count has one digit at least, and may have a plus sign in front. -/
def count (text : String) : Except CountError Nat :=
  match text.toList with
  | [] => .error .empty
  | ['+'] => .error .badDigit
  | '+' :: digits => countDigits 0 digits
  | digits => countDigits 0 digits

end Criteria.Text
