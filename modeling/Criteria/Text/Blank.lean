set_option autoImplicit false

/- Blank characters and trimming, by the White_Space property of Unicode. -/
namespace Criteria.Text

/-- The 25 characters with the White_Space property. -/
def isBlank (c : Char) : Bool :=
  let n := c.toNat
  (9 ≤ n && n ≤ 13) || n == 0x20 || n == 0x85 || n == 0xA0 || n == 0x1680 ||
    (0x2000 ≤ n && n ≤ 0x200A) || n == 0x2028 || n == 0x2029 || n == 0x202F ||
    n == 0x205F || n == 0x3000

def trimStart (cs : List Char) : List Char := cs.dropWhile isBlank

def trim (cs : List Char) : List Char :=
  (trimStart (trimStart cs).reverse).reverse

/-- Whether trimming leaves nothing. -/
def isAllBlank (s : String) : Bool := s.toList.all isBlank

def trimmed (s : String) : String := String.ofList (trim s.toList)

end Criteria.Text
