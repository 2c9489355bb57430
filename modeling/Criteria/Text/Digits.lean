set_option autoImplicit false

/- Decimal digits and the numbers that they write. -/
namespace Criteria.Text

-- Powers of whole numbers are the core ones, also where Mathlib offers those of a monoid.
attribute [instance (high)] instPowNat

def digitValue (c : Char) : Nat := c.toNat - '0'.toNat

/-- The number that digits write; without any, it is zero. -/
def digitsValue (ds : List Char) : Nat := ds.foldl (fun n d => 10 * n + digitValue d) 0

end Criteria.Text
