import Mathlib.Data.Nat.Digits.Defs
import Criteria.Json

set_option autoImplicit false

/-
The characters of number texts. Every format writes digits, signs, a point and the
letter of an exponent only, and digits end in front of every other character.
-/
namespace Criteria

def isNumeralChar (c : Char) : Bool := c.isDigit || c == '-' || c == '+' || c == '.' || c == 'e'

theorem isNumeralChar_of_isDigit {c : Char} (digit : c.isDigit) : isNumeralChar c := by
  simp [isNumeralChar, digit]

def IsNumeral (cs : List Char) : Prop := ∀ c ∈ cs, isNumeralChar c

/-- Whether digits cannot go on into a text. -/
def StopsDigits (rest : List Char) : Prop := ∀ c ∈ rest.head?, c.isDigit = false

theorem stopsDigits_nil : StopsDigits [] := by simp [StopsDigits]

theorem stopsDigits_cons {c : Char} (mark : c.isDigit = false) (rest : List Char) :
    StopsDigits (c :: rest) := by simpa [StopsDigits] using mark

namespace StopsDigits

theorem dropWhile {rest : List Char} (stops : StopsDigits rest) :
    rest.dropWhile Char.isDigit = rest := by
  cases rest with
  | nil => rfl
  | cons c rest => exact List.dropWhile_cons_of_neg (by simp [stops c rfl])

theorem takeWhile {rest : List Char} (stops : StopsDigits rest) :
    rest.takeWhile Char.isDigit = [] := by
  cases rest with
  | nil => rfl
  | cons c rest => exact List.takeWhile_cons_of_neg (by simp [stops c rfl])

theorem take {rest : List Char} (stops : StopsDigits rest) (n : Nat) :
    StopsDigits (rest.take n) := by
  cases rest with
  | nil => simpa using stops
  | cons c rest =>
      cases n with
      | zero => exact stopsDigits_nil
      | succ n => exact stopsDigits_cons (stops c rfl) _

theorem dropWhile_append {ds rest : List Char} (stops : StopsDigits rest)
    (digits : ∀ d ∈ ds, d.isDigit) : (ds ++ rest).dropWhile Char.isDigit = rest := by
  rw [List.dropWhile_append_of_pos digits, stops.dropWhile]

theorem takeWhile_append {ds rest : List Char} (stops : StopsDigits rest)
    (digits : ∀ d ∈ ds, d.isDigit) : (ds ++ rest).takeWhile Char.isDigit = ds := by
  rw [List.takeWhile_append_of_pos digits, stops.takeWhile, List.append_nil]

end StopsDigits

namespace IsNumeral

instance (cs : List Char) : Decidable (IsNumeral cs) :=
  List.decidableBAll (fun c => isNumeralChar c) cs

theorem nil : IsNumeral [] := List.forall_mem_nil _

theorem cons {c : Char} {cs : List Char} (first : isNumeralChar c) (rest : IsNumeral cs) :
    IsNumeral (c :: cs) := List.forall_mem_cons.mpr ⟨first, rest⟩

theorem append {front back : List Char} (first : IsNumeral front) (second : IsNumeral back) :
    IsNumeral (front ++ back) := List.forall_mem_append.mpr ⟨first, second⟩

theorem subset {few many : List Char} (numeral : IsNumeral many) (sub : few ⊆ many) :
    IsNumeral few := fun c member => numeral c (sub member)

theorem toDigits (n : Nat) : IsNumeral (Nat.toDigits 10 n) := by
  intro c member
  exact isNumeralChar_of_isDigit (Nat.isDigit_of_mem_toDigits (by decide) (by decide) member)

theorem zeros (n : Nat) : IsNumeral (List.replicate n '0') := by
  intro c member
  cases List.eq_of_mem_replicate member
  rfl

end IsNumeral

namespace Decimal

theorem isNumeral_positional (d : Decimal) : IsNumeral d.positional := by
  have digits : IsNumeral d.digits := IsNumeral.toDigits d.coefficient
  unfold positional
  split
  · exact digits.append (IsNumeral.zeros _)
  · dsimp only
    split
    · exact (digits.subset (List.take_subset _ _)).append
        (.cons rfl (digits.subset (List.drop_subset _ _)))
    · exact .cons rfl (.cons rfl ((IsNumeral.zeros _).append digits))

theorem isNumeral_scientific (d : Decimal) : IsNumeral d.scientific := by
  have digits : IsNumeral d.digits := IsNumeral.toDigits d.coefficient
  have exponent : IsNumeral (Nat.toDigits 10 d.leading.natAbs) := IsNumeral.toDigits _
  unfold scientific
  dsimp only
  refine IsNumeral.append ?_ (.cons rfl (.cons ?_ exponent))
  · split
    · rename_i first second rest shape
      rw [shape] at digits
      exact .cons (digits first (by simp)) (.cons rfl (digits.subset (List.subset_cons_self _ _)))
    · exact digits
  · split <;> rfl

end Decimal

namespace NumberStyle

theorem isNumeral_magnitude {style : NumberStyle} (mark : IsNumeral style.wholeMark)
    (m : Magnitude) : IsNumeral (style.magnitude m) := by
  unfold magnitude
  dsimp only
  split
  · split
    · exact (Decimal.isNumeral_positional _).append mark
    · exact Decimal.isNumeral_positional _
  · exact Decimal.isNumeral_scientific _

theorem isNumeral_finite {style : NumberStyle} (mark : IsNumeral style.wholeMark)
    (negative : Bool) (m : Magnitude) : IsNumeral (style.finite negative m) := by
  unfold finite
  split
  · exact .cons rfl (isNumeral_magnitude mark m)
  · exact isNumeral_magnitude mark m

end NumberStyle

end Criteria
