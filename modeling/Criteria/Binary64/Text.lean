import Criteria.Binary64.Shortest

set_option autoImplicit false

/- How a double is written: the choices that a format makes on top of the digits. -/
namespace Criteria

/-- A format for doubles. -/
structure NumberStyle where
  tie : Tie
  /-- Whether the digits are written out rather than with an exponent. -/
  isPositional : Magnitude → Decimal → Bool
  /-- What follows the digits of a whole number that is written out. -/
  wholeMark : List Char
  /-- Whether a negative zero keeps its sign. -/
  signedZero : Bool

namespace NumberStyle

def magnitude (style : NumberStyle) (m : Magnitude) : List Char :=
  let d := m.shortest style.tie
  if style.isPositional m d then
    if 0 ≤ d.exponent then d.positional ++ style.wholeMark else d.positional
  else d.scientific

/-- The text of a finite double. -/
def finite (style : NumberStyle) (negative : Bool) (m : Magnitude) : List Char :=
  if negative && (style.signedZero || !m.isZero) then '-' :: style.magnitude m
  else style.magnitude m

end NumberStyle
end Criteria
