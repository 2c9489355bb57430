import Criteria.Instant

set_option autoImplicit false

/- The ISO 8601 text of an instant, with milliseconds and a final `Z`. -/
namespace Criteria

/-- A number in decimal with zeros in front up to a width. -/
def padded (width n : Nat) : List Char :=
  let digits := Nat.toDigits 10 n
  List.replicate (width - digits.length) '0' ++ digits

namespace Instant

/-- Four digits, and a sign for the years that do not fit. -/
def isoYear (year : Int) : List Char :=
  if year < 0 then '-' :: padded 4 year.natAbs
  else if year ≤ 9999 then padded 4 year.toNat
  else '+' :: padded 4 year.toNat

def isoChars (t : Instant) : List Char :=
  let d := t.date
  let c := t.clockTime
  isoYear d.year ++ '-' :: padded 2 d.month ++ '-' :: padded 2 d.day ++
    'T' :: padded 2 c.hour ++ ':' :: padded 2 c.minute ++ ':' :: padded 2 c.second ++
    '.' :: padded 3 (c.nanos / 1000000) ++ ['Z']

/-- The instant as text; what is finer than a millisecond is cut off. -/
def iso (t : Instant) : String := String.ofList t.isoChars

end Instant
end Criteria
