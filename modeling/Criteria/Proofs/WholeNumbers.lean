import Criteria.Proofs.ReadDigits

set_option autoImplicit false

/-
Whole numbers that a double holds. Their shortest digits are their own, since a decimal with
fewer digits would be off by one at least.
-/
namespace Criteria

theorem log2_mul_two_pow_lt {k a : Nat} (positive : 0 < k) (small : k < 2 ^ a) (e : Nat) :
    (k * 2 ^ e).log2 < a + e := by
  rw [Nat.log2_lt (Nat.ne_of_gt (Nat.mul_pos positive (Nat.two_pow_pos e))), Nat.pow_add]
  exact Nat.mul_lt_mul_of_pos_right small (Nat.two_pow_pos e)

/-- Whole numbers of 53 bits are held. -/
theorem representable_mul {k : Nat} (small : k ≤ 2 ^ (53 : Nat)) :
    Representable (k * unitsPerOne) := by
  rcases Nat.eq_zero_or_pos k with rfl | positive
  · rw [Nat.zero_mul]
    decide
  have held (e : Nat) (low : 54 + e ≤ 2098) : Representable (k * 2 ^ e) := by
    have below : k < 2 ^ (54 : Nat) := Nat.lt_of_le_of_lt small (by decide)
    refine ⟨(log2_mul_two_pow_lt positive below e).trans_le low, ?_⟩
    rcases Nat.lt_or_ge k (2 ^ (52 : Nat)) with low | high
    · have := log2_mul_two_pow_lt positive low e
      exact Nat.dvd_trans (Nat.pow_dvd_pow 2 (by omega)) (Nat.dvd_mul_left _ k)
    · exact pow_dvd_of_window high small
  rw [unitsPerOne]
  exact held 1074 (by decide)

namespace Magnitude

/-- Below 2⁵³ the gap between doubles is one at most. -/
theorem gap_le_unitsPerOne {m : Magnitude} {k : Nat} (units : m.units = k * unitsPerOne)
    (positive : 0 < k) (small : k < 2 ^ (53 : Nat)) : m.gap ≤ unitsPerOne := by
  have narrow (e : Nat) : 2 ^ ((k * 2 ^ e).log2 - 52) ≤ 2 ^ e := by
    have := log2_mul_two_pow_lt positive small e
    exact Nat.pow_le_pow_right (by decide) (by omega)
  rw [gap, units, unitsPerOne]
  exact narrow 1074

end Magnitude

namespace Decimal

variable {d : Decimal} {m : Magnitude} {k : Nat}

theorem value_nat (c e : Nat) : value ⟨c, e⟩ = (c * 10 ^ e : Nat) := by
  rw [value, zpow_natCast, Nat.cast_mul, Nat.cast_pow, Nat.cast_ofNat]

/-- No power of ten lies between a number and its shortest decimal: it has one digit and would
be nearer. -/
theorem IsShortest.pow_le_value (shortest : d.IsShortest m) {n : Nat}
    (below : ((10 ^ n : Nat) : ℚ) * unitsPerOne ≤ m.units) : ((10 ^ n : Nat) : ℚ) ≤ d.value := by
  by_contra above
  have one : (0 : ℚ) < unitsPerOne := by exact_mod_cast unitsPerOne_pos
  have aboveU := mul_lt_mul_of_pos_right (lt_of_not_ge above) one
  have value : value ⟨1, (n : Nat)⟩ = (10 ^ n : Nat) := by rw [value_nat, Nat.one_mul]
  have reads : ReadsAs ⟨1, (n : Nat)⟩ m := by
    rw [ReadsAs, value]
    exact shortest.reads.of_between m.takes_units aboveU.le below
  have some : 0 < d.digits.length := Nat.length_toDigits_pos
  have single : (digits ⟨1, (n : Nat)⟩).length = 1 :=
    congrArg List.length (Nat.toDigits_of_lt_base (b := 10) (n := 1) (by decide))
  have least := shortest.fewest _ reads
  have near := shortest.nearest _ reads (by omega)
  rw [value, abs_of_neg (by linarith), abs_of_nonpos (by linarith)] at near
  linarith

/-- A decimal without digits behind the point reads as no whole number but itself. -/
theorem ReadsAs.value_eq_of_whole (reads : d.ReadsAs m) (units : m.units = k * unitsPerOne)
    (positive : 0 < k) (small : k < 2 ^ (53 : Nat)) (whole : 0 ≤ d.exponent) : d.value = k := by
  have one : (0 : ℚ) < unitsPerOne := by exact_mod_cast unitsPerOne_pos
  have gap : (m.gap : ℚ) ≤ unitsPerOne := by
    exact_mod_cast Magnitude.gap_le_unitsPerOne units positive small
  obtain ⟨e, exponent⟩ := Int.eq_ofNat_of_zero_le whole
  have value : d.value = (d.coefficient * 10 ^ e : Nat) := by rw [← value_nat, ← exponent]
  have error := reads.error
  rw [units, Nat.cast_mul, ← sub_mul, abs_mul, abs_of_pos one] at error
  have near : |(k : ℚ) - d.value| < 1 := by
    refine lt_of_mul_lt_mul_right ?_ one.le
    linarith
  rw [value] at near ⊢
  have apart : |(k : Int) - (d.coefficient * 10 ^ e : Nat)| < 1 := by exact_mod_cast near
  have same : (k : Int) = (d.coefficient * 10 ^ e : Nat) :=
    sub_eq_zero.mp (Int.abs_lt_one_iff.mp apart)
  exact_mod_cast same.symm

/-- The shortest decimal of a whole number is that number. -/
theorem IsShortest.value_eq_of_whole (shortest : d.IsShortest m)
    (units : m.units = k * unitsPerOne) (positive : 0 < k) (small : k < 2 ^ (53 : Nat)) :
    d.value = k := by
  have one : (0 : ℚ) < unitsPerOne := by exact_mod_cast unitsPerOne_pos
  have unitsQ : (m.units : ℚ) = k * unitsPerOne := by rw [units, Nat.cast_mul]
  have value : value ⟨k, (0 : Nat)⟩ = k := by rw [value_nat, Nat.pow_zero, Nat.mul_one]
  have own : ReadsAs ⟨k, (0 : Nat)⟩ m := by
    rw [ReadsAs, value, ← unitsQ]
    exact m.takes_units
  rcases Nat.eq_or_lt_of_le (shortest.fewest _ own) with same | fewer
  · -- With as many digits as the number it is no farther away than the number itself.
    have near := shortest.nearest _ own same
    rw [value, unitsQ, sub_self, abs_zero, abs_nonpos_iff, ← sub_mul] at near
    exact sub_eq_zero.mp ((mul_eq_zero.mp near).resolve_right one.ne')
  · -- With fewer, some of them behind the point, it would lie below a power of ten.
    refine shortest.reads.value_eq_of_whole units positive small
      (Int.le_of_not_gt fun decimals => ?_)
    refine absurd (shortest.pow_le_value (n := d.digits.length) ?_) (not_le_of_gt ?_)
    · have most := pow_length_toDigits_le positive
      have fewer : d.digits.length ≤ (Nat.toDigits 10 k).length - 1 := Nat.le_sub_one_of_lt fewer
      rw [unitsQ]
      refine mul_le_mul_of_nonneg_right ?_ one.le
      exact_mod_cast (Nat.pow_le_pow_right (by decide) fewer).trans most
    · refine (value_window shortest.positive).2.trans_le ?_
      rw [Nat.cast_pow, Nat.cast_ofNat, ← zpow_natCast]
      exact zpow_le_zpow_right₀ (by norm_num) (by rw [leading]; omega)

/-- Its last digit is needed, so that no zero is left behind the point. -/
theorem IsShortest.exponent_nonneg (shortest : d.IsShortest m) (value : d.value = k) :
    0 ≤ d.exponent := by
  refine Int.le_of_not_gt fun decimals => shortest.mod_ne_zero ?_
  rw [value_of_neg decimals, div_eq_iff (by positivity)] at value
  have whole : d.coefficient = k * 10 ^ d.exponent.natAbs := by exact_mod_cast value
  obtain ⟨e, more⟩ := Nat.exists_eq_succ_of_ne_zero (n := d.exponent.natAbs) (by omega)
  rw [whole, more, Nat.pow_succ, ← Nat.mul_assoc]
  exact Nat.mul_mod_left _ _

/-- A whole number is written out with a zero behind the point, which the reader gathers. -/
theorem IsShortest.gathered_of_whole (shortest : d.IsShortest m)
    (units : m.units = k * unitsPerOne) (positive : 0 < k) (small : k < 2 ^ (53 : Nat)) :
    d.gathered = ⟨10 * k, -1⟩ := by
  have value := shortest.value_eq_of_whole units positive small
  have whole := shortest.exponent_nonneg value
  have leading : d.leading < 16 := by
    have low := (value_window shortest.positive).1
    have : (k : ℚ) < (10 ^ 16 : Nat) := by
      exact_mod_cast small.trans_le (by decide)
    rw [value] at low
    have below : (10 : ℚ) ^ d.leading < 10 ^ (16 : Int) := low.trans_lt (by exact_mod_cast this)
    exact (zpow_lt_zpow_iff_right₀ (by norm_num)).mp below
  have coefficient : d.coefficient * 10 ^ (d.exponent.toNat + 1) = 10 * k := by
    rw [value_of_nonneg whole, show d.exponent.natAbs = d.exponent.toNat by omega] at value
    have : d.coefficient * 10 ^ d.exponent.toNat = k := by exact_mod_cast value
    rw [Nat.pow_succ, ← Nat.mul_assoc, this, Nat.mul_comm]
  rw [gathered, if_pos ⟨whole, leading⟩, coefficient]

end Decimal

end Criteria
