import Criteria.Text.Digits

set_option autoImplicit false

/-
Double-precision numbers held exactly. Every finite double is a whole number of
units of 2⁻¹⁰⁷⁴, so a magnitude is a count of units that 53 significant bits can
hold, and each operation is the exact result rounded to the nearest such count,
ties to even.
-/
namespace Criteria

/-- How many units make up the number one. -/
def unitsPerOne : Nat := 2 ^ (1074 : Nat)

/-- A count of units that 53 significant bits below the overflow limit can hold. -/
def Representable (units : Nat) : Prop :=
  units.log2 < 2098 ∧ 2 ^ (units.log2 - 52) ∣ units

instance (units : Nat) : Decidable (Representable units) :=
  inferInstanceAs (Decidable (_ ∧ _))

/-- The absolute value of a finite double, `units · 2⁻¹⁰⁷⁴`. -/
structure Magnitude where
  units : Nat
  fits : Representable units
  deriving DecidableEq

/-- A double-precision number; the two zeros differ in sign only. -/
inductive Binary64 where
  | finite (negative : Bool) (magnitude : Magnitude)
  | infinite (negative : Bool)
  | nan
  deriving DecidableEq

/-- The quotient rounded to the nearest whole number, ties to even. -/
def roundHalfEven (num den : Nat) : Nat :=
  let quotient := num / den
  let remainder := num % den
  if 2 * remainder < den then quotient
  else if den < 2 * remainder then quotient + 1
  else quotient + quotient % 2

theorem le_roundHalfEven (num den : Nat) : num / den ≤ roundHalfEven num den := by
  unfold roundHalfEven
  dsimp only
  split
  · omega
  · split <;> omega

theorem roundHalfEven_le (num den : Nat) : roundHalfEven num den ≤ num / den + 1 := by
  unfold roundHalfEven
  dsimp only
  split
  · omega
  · split <;> omega

/-- The count of units nearest to `num / den` among those with 53 significant bits. -/
def nearestUnits (num den : Nat) : Nat :=
  let step := 2 ^ ((num / den).log2 - 52)
  roundHalfEven num (den * step) * step

theorem pow_dvd_of_window {m e : Nat} (low : 2 ^ (52 : Nat) ≤ m) (high : m ≤ 2 ^ (53 : Nat)) :
    2 ^ ((m * 2 ^ e).log2 - 52) ∣ m * 2 ^ e := by
  have positive : 0 < 2 ^ e := Nat.two_pow_pos e
  have nonzero : m * 2 ^ e ≠ 0 := Nat.ne_of_gt (Nat.mul_pos (by omega) positive)
  rcases Nat.lt_or_eq_of_le high with below | top
  · have upper : (m * 2 ^ e).log2 < 53 + e := by
      rw [Nat.log2_lt nonzero, Nat.pow_add]
      exact Nat.mul_lt_mul_of_pos_right below positive
    exact Nat.dvd_trans (Nat.pow_dvd_pow 2 (by omega)) (Nat.dvd_mul_left _ m)
  · subst top
    rw [← Nat.pow_add, Nat.log2_two_pow]
    exact Nat.pow_dvd_pow 2 (by omega)

theorem pow_dvd_of_le {m : Nat} (high : m ≤ 2 ^ (53 : Nat)) : 2 ^ (m.log2 - 52) ∣ m := by
  rcases Nat.lt_or_ge m (2 ^ (52 : Nat)) with small | large
  · have flat : m.log2 - 52 = 0 := by
      rcases Nat.eq_zero_or_pos m with rfl | positive
      · rfl
      · have := (Nat.log2_lt (n := m) (k := 52) (by omega)).2 small
        omega
    rw [flat]
    exact Nat.one_dvd m
  · simpa using pow_dvd_of_window (m := m) (e := 0) large high

theorem nearestUnits_dvd (num den : Nat) :
    2 ^ ((nearestUnits num den).log2 - 52) ∣ nearestUnits num den := by
  unfold nearestUnits
  dsimp only
  generalize hq : num / den = q
  have below := le_roundHalfEven num (den * 2 ^ (q.log2 - 52))
  have above := roundHalfEven_le num (den * 2 ^ (q.log2 - 52))
  rw [← Nat.div_div_eq_div_mul, hq] at below above
  generalize roundHalfEven num (den * 2 ^ (q.log2 - 52)) = m at below above
  rcases Nat.lt_or_ge q (2 ^ (53 : Nat)) with small | large
  · have flat : q.log2 - 52 = 0 := by
      rcases Nat.eq_zero_or_pos q with rfl | positive
      · rfl
      · have := (Nat.log2_lt (n := q) (k := 53) (by omega)).2 small
        omega
    rw [flat] at below above ⊢
    simp only [Nat.pow_zero, Nat.div_one, Nat.mul_one] at below above ⊢
    exact pow_dvd_of_le (by omega)
  · have nonzero : q ≠ 0 := by omega
    have atLeast : 53 ≤ q.log2 := (Nat.le_log2 nonzero).2 large
    have lower : 2 ^ (52 : Nat) ≤ q / 2 ^ (q.log2 - 52) := by
      rw [Nat.le_div_iff_mul_le (Nat.two_pow_pos _), ← Nat.pow_add,
        show 52 + (q.log2 - 52) = q.log2 by omega]
      exact Nat.log2_self_le nonzero
    have upper : q / 2 ^ (q.log2 - 52) < 2 ^ (53 : Nat) := by
      rw [Nat.div_lt_iff_lt_mul (Nat.two_pow_pos _), ← Nat.pow_add,
        show 53 + (q.log2 - 52) = q.log2 + 1 by omega]
      exact Nat.lt_log2_self
    exact pow_dvd_of_window (by omega) (by omega)

namespace Magnitude

/-- The magnitude nearest to `num / den` units, if it is finite. -/
def nearest? (num den : Nat) : Option Magnitude :=
  if below : (nearestUnits num den).log2 < 2098 then
    some ⟨nearestUnits num den, below, nearestUnits_dvd num den⟩
  else none

def zero : Magnitude := ⟨0, by decide⟩

def isZero (m : Magnitude) : Bool := m.units == 0

def ofNat? (n : Nat) : Option Magnitude := nearest? (n * unitsPerOne) 1

def mul? (a b : Magnitude) : Option Magnitude := nearest? (a.units * b.units) (unitsPerOne)

def div? (a b : Magnitude) : Option Magnitude := nearest? (a.units * unitsPerOne) b.units

/-- The magnitude nearest to `digits · 10 ^ exponent`, if it is finite. -/
def ofDecimal? (digits : Nat) (exponent : Int) : Option Magnitude :=
  nearest? (digits * 10 ^ exponent.toNat * unitsPerOne) (10 ^ (-exponent).toNat)

end Magnitude

namespace Binary64

/-- A signed magnitude, infinite where the magnitude overflows. -/
def ofMagnitude? (negative : Bool) : Option Magnitude → Binary64
  | some m => .finite negative m
  | none => .infinite negative

/-- The double nearest to an integer. -/
def ofInt (n : Int) : Binary64 :=
  ofMagnitude? (n < 0) (Magnitude.ofNat? n.natAbs)

/-- The double with the given interchange encoding. -/
def ofBits (word : UInt64) : Binary64 :=
  let bits := word.toNat
  let negative := 2 ^ (63 : Nat) ≤ bits
  let exponent := bits / 2 ^ (52 : Nat) % 2 ^ (11 : Nat)
  let fraction := bits % 2 ^ (52 : Nat)
  if exponent = 2047 then
    if fraction = 0 then .infinite negative else .nan
  else if exponent = 0 then
    ofMagnitude? negative (Magnitude.nearest? fraction 1)
  else
    ofMagnitude? negative (Magnitude.nearest? ((2 ^ (52 : Nat) + fraction) * 2 ^ (exponent - 1)) 1)

def isFinite : Binary64 → Bool
  | .finite _ _ => true
  | _ => false

end Binary64
end Criteria
