import Criteria.Binary64.Shortest
import Criteria.Text.Digits

set_option autoImplicit false

/- Reading decimal text as the nearest double. -/
namespace Criteria

namespace Decimal

/-- An exponent with or without a sign, which makes up the rest of a text. -/
def exponent? : List Char → Option Int
  | '-' :: ds => if ds.isEmpty || !ds.all Char.isDigit then none else some (-(Text.digitsValue ds : Int))
  | '+' :: ds => if ds.isEmpty || !ds.all Char.isDigit then none else some (Text.digitsValue ds)
  | ds => if ds.isEmpty || !ds.all Char.isDigit then none else some (Text.digitsValue ds)

/-- Digits, around a point or not, and an exponent or none. -/
def ofChars? (cs : List Char) : Option Decimal :=
  let whole := cs.takeWhile Char.isDigit
  let (fraction, rest) := match cs.dropWhile Char.isDigit with
    | '.' :: rest => (rest.takeWhile Char.isDigit, rest.dropWhile Char.isDigit)
    | rest => ([], rest)
  if whole.isEmpty && fraction.isEmpty then none
  else
    let exponent := match rest with
      | [] => some 0
      | e :: rest => if e = 'e' ∨ e = 'E' then exponent? rest else none
    exponent.map fun e => ⟨Text.digitsValue (whole ++ fraction), e - fraction.length⟩

/-- The nearest magnitude, if it does not overflow. What is far beyond the range of
doubles is told by its leading digit. -/
def magnitude? (d : Decimal) : Option Magnitude :=
  if d.coefficient = 0 ∨ d.leading < -400 then some .zero
  else if 400 < d.leading then none
  else Magnitude.ofDecimal? d.coefficient d.exponent

end Decimal

namespace Binary64

def ofUnsigned? (negative : Bool) (cs : List Char) : Option Binary64 :=
  let word := cs.map Char.toLower
  if word = ['n', 'a', 'n'] then some .nan
  else if word = ['i', 'n', 'f'] ∨ word = ['i', 'n', 'f', 'i', 'n', 'i', 't', 'y'] then
    some (.infinite negative)
  else (Decimal.ofChars? cs).map fun d => ofMagnitude? negative d.magnitude?

/-- The double nearest to a decimal with or without a sign. -/
def ofText? (text : String) : Option Binary64 :=
  match text.toList with
  | '-' :: cs => ofUnsigned? true cs
  | '+' :: cs => ofUnsigned? false cs
  | cs => ofUnsigned? false cs

end Binary64
end Criteria
