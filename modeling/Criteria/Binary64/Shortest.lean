import Criteria.Binary64

set_option autoImplicit false

/-
The fewest decimal digits that read back as a given double. The reals that round
to it form an interval; for one digit, two digits and so on the two neighbours
of the value on that decimal grid are tried, and the first grid with a neighbour
inside the interval wins.
-/
namespace Criteria

/-- The number `coefficient · 10 ^ exponent`. -/
structure Decimal where
  coefficient : Nat
  exponent : Int
  deriving DecidableEq

/-- Which of two equally near candidates is taken. -/
inductive Tie where
  | even
  | up
  deriving DecidableEq

namespace Decimal

def digits (d : Decimal) : List Char := Nat.toDigits 10 d.coefficient

/-- The exponent of the leading digit. -/
def leading (d : Decimal) : Int := d.exponent + (d.digits.length - 1 : Nat)

/-- The digits written out around a decimal point, which a whole number lacks. -/
def positional (d : Decimal) : List Char :=
  let point := d.exponent + d.digits.length
  if 0 ≤ d.exponent then d.digits ++ List.replicate d.exponent.toNat '0'
  else if 0 < point then d.digits.take point.toNat ++ '.' :: d.digits.drop point.toNat
  else '0' :: '.' :: (List.replicate (-point).toNat '0' ++ d.digits)

/-- One digit, the others after a point, and the exponent with its sign. -/
def scientific (d : Decimal) : List Char :=
  let mantissa := match d.digits with
    | first :: second :: rest => first :: '.' :: second :: rest
    | short => short
  let sign := if d.leading < 0 then '-' else '+'
  mantissa ++ 'e' :: sign :: Nat.toDigits 10 d.leading.natAbs

end Decimal

namespace Magnitude

/-- The exponent of the leading decimal digit of a positive magnitude. The least
one is above 10⁻³²⁴, so that scaling by 10³²⁴ leaves a digit before the point. -/
def decimalExponent (m : Magnitude) : Int :=
  (Nat.toDigits 10 (m.units * 10 ^ (324 : Nat) / unitsPerOne)).length - 325

/-- Whether `p / q` units round to the magnitude. The ends of the interval do so
when the significand is even, and below a power of two the gap is half as wide. -/
def roundsTo (m : Magnitude) (p q : Nat) : Bool :=
  let gap := 2 ^ (m.units.log2 - 52)
  let gapBelow := if m.units = 2 ^ (52 : Nat) * gap ∧ 1 < gap then gap else 2 * gap
  let low := (4 * m.units - gapBelow) * q
  let high := (4 * m.units + 2 * gap) * q
  if m.units / gap % 2 = 0 then low ≤ 4 * p && 4 * p ≤ high
  else low < 4 * p && 4 * p < high

/-- The nearest number with the given count of digits that reads back as the
magnitude, if there is one. The exponent is that of its leading digit. -/
def withDigits? (tie : Tie) (m : Magnitude) (exponent : Int) (count : Nat) : Option Decimal :=
  let grid := exponent + 1 - count
  let up := 10 ^ grid.toNat * unitsPerOne
  let down := 10 ^ (-grid).toNat
  let below := m.units * down / up
  let hit (c : Nat) : Option Decimal :=
    if m.roundsTo (c * up) down then
      some (if c = 10 ^ count then ⟨1, grid + count⟩ else ⟨c, grid⟩)
    else none
  let nearer := (2 * below + 1) * up
  match hit below, hit (below + 1) with
  | some a, some b =>
    if 2 * m.units * down < nearer then some a
    else if nearer < 2 * m.units * down then some b
    else match tie with
      | .even => some (if below % 2 = 0 then a else b)
      | .up => some b
  | some a, none => some a
  | none, b => b

/-- The shortest decimal that reads back as the magnitude; 17 digits always do. -/
def shortest (tie : Tie) (m : Magnitude) : Decimal :=
  if m.isZero then ⟨0, 0⟩
  else
    let exponent := m.decimalExponent
    ((List.range 17).findSome? fun n => m.withDigits? tie exponent (n + 1)).getD ⟨0, 0⟩

end Magnitude
end Criteria
