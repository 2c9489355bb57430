import Criteria.Json.Number
import Criteria.Proofs.ReadDigits

set_option autoImplicit false

/-
How far rounding twice leads. Each rounding moves a number by a part of 2⁵³ at most, below the
normal numbers by half a unit; the roundings of the digits, of the power of ten and of their
product or quotient add up to a few gaps.
-/
namespace Criteria

namespace Magnitude

variable {m n : Magnitude} {x y : ℚ}

theorem Takes.error_le (takes : m.Takes x) : |m.units - x| ≤ m.units / 2 ^ 53 + 1 / 2 := by
  have := takes.error
  have := m.gap_le
  linarith

theorem Takes.error_le_of_normal (takes : m.Takes x) (normal : 2 ^ (52 : Nat) ≤ m.units) :
    |m.units - x| ≤ m.units / 2 ^ 53 := by
  have := takes.error
  have := gap_le_of_normal normal
  linarith

section

variable {a b w p u : ℚ}

theorem abs_mul_sub_le (pos : 0 < w) (error : |p - b| ≤ u * p) : |w * (p - b)| ≤ w * (u * p) := by
  rw [abs_mul, abs_of_pos pos]
  exact mul_le_mul_of_nonneg_left error pos.le

/-- The product of two rounded numbers. -/
theorem mul_error (pos : 0 < w) (pos' : 0 < p) (nonneg : 0 ≤ u) (small : u ≤ 1 / 1000)
    (first : |w - a| ≤ u * w) (second : |p - b| ≤ u * p) :
    |a * b - w * p| ≤ 201 / 100 * u * (w * p) := by
  have products : |(p - b) * (w - a)| ≤ u * p * (u * w) := by
    rw [abs_mul]
    exact mul_le_mul second first (abs_nonneg _) (by positivity)
  have left := abs_mul_sub_le pos second
  have right := abs_mul_sub_le pos' first
  have tiny : u * p * (u * w) ≤ 1 / 100 * (u * (w * p)) := by
    have part : 0 ≤ u * (w * p) := by positivity
    have := mul_le_mul_of_nonneg_right small part
    linarith
  calc |a * b - w * p| = |(p - b) * (w - a) - w * (p - b) - p * (w - a)| := by
        congr 1
        ring
    _ ≤ |(p - b) * (w - a)| + |w * (p - b)| + |p * (w - a)| := by
        have outer := abs_sub ((p - b) * (w - a) - w * (p - b)) (p * (w - a))
        have inner := abs_sub ((p - b) * (w - a)) (w * (p - b))
        linarith
    _ ≤ 201 / 100 * u * (w * p) := by linarith

/-- The quotient of two rounded numbers. -/
theorem div_error (pos : 0 < w) (pos' : 0 < p) (nonneg : 0 ≤ u) (small : u ≤ 1 / 1000)
    (first : |w - a| ≤ u * w) (second : |p - b| ≤ u * p) :
    0 < b ∧ |a / b - w / p| ≤ 201 / 100 * u * (w / p) := by
  have least : (1 - u) * p ≤ b := by
    have := (abs_le.mp second).2
    linarith
  have posB : 0 < b := lt_of_lt_of_le (mul_pos (by linarith) pos') least
  refine ⟨posB, ?_⟩
  have left := abs_mul_sub_le pos second
  have right := abs_mul_sub_le pos' first
  have cross : |a * p - w * b| ≤ 2 * u * (w * p) := by
    calc |a * p - w * b| = |w * (p - b) - p * (w - a)| := by
          congr 1
          ring
      _ ≤ |w * (p - b)| + |p * (w - a)| := abs_sub _ _
      _ ≤ 2 * u * (w * p) := by linarith
  rw [div_sub_div _ _ posB.ne' pos'.ne', abs_div, abs_of_pos (mul_pos posB pos'),
    mul_comm b w, div_le_iff₀ (mul_pos posB pos')]
  have whole : 201 / 100 * u * (w / p) * (b * p) = 201 / 100 * u * (w * b) := by
    field_simp
  rw [whole]
  refine cross.trans ?_
  have part : 0 ≤ u * w * p := by positivity
  have := mul_le_mul_of_nonneg_left least (show 0 ≤ u * w by positivity)
  have := mul_le_mul_of_nonneg_right small part
  linarith

end

theorem units_le_of_gap (m : Magnitude) : (m.units : ℚ) + m.gap ≤ 2 ^ 53 * m.gap := by
  have most := Nat.mul_le_mul_right m.gap (Nat.succ_le_of_lt m.significand_lt)
  rw [Nat.succ_mul, significand_mul_gap] at most
  exact_mod_cast most

theorem two_mul_gap_le {k : Nat} (finer : m.gap < 2 ^ k) : 2 * m.gap ≤ 2 ^ k := by
  rcases two_pow_cases finer with twice | more
  · exact Nat.le_of_eq twice.symm
  · exact Nat.le_trans (Nat.mul_le_mul_right _ (by decide)) more

/-- Multiples of a gap that are less than one more gap apart. -/
theorem le_add_mul_of_lt {g a b k : Nat} (first : g ∣ a) (second : g ∣ b)
    (less : (a : ℚ) < b + (k + 1) * g) : a ≤ b + k * g := by
  obtain ⟨c, rfl⟩ := first
  obtain ⟨d, rfl⟩ := second
  have below : g * c < g * (d + k).succ := by
    have : ((g * c : Nat) : ℚ) < (g * (d + k).succ : Nat) := by
      push_cast at less ⊢
      linarith
    exact_mod_cast this
  rw [Nat.mul_comm k, ← Nat.mul_add]
  exact Nat.mul_le_mul_left g (Nat.le_of_lt_succ (Nat.lt_of_mul_lt_mul_left below))

/-- Whether a magnitude is no more than a number of gaps away from another. -/
def IsWithin (gaps : Nat) (m n : Magnitude) : Prop :=
  n.units ≤ m.units + gaps * m.gap ∧ m.units ≤ n.units + gaps * m.gap

theorem isWithin_self (gaps : Nat) (m : Magnitude) : IsWithin gaps m m :=
  ⟨Nat.le_add_right _ _, Nat.le_add_right _ _⟩

theorem IsWithin.mono {k l : Nat} (within : IsWithin k m n) (le : k ≤ l) : IsWithin l m n := by
  have more := Nat.mul_le_mul_right m.gap le
  obtain ⟨low, high⟩ := within
  constructor <;> omega

/-- What is close to a number that rounds to a magnitude is close to the magnitude. -/
theorem apart_of_close {j : Nat} {c : ℚ} (few : j ≤ 4) (share : c ≤ 101 / 100 * j)
    (takes : m.Takes x) (nonneg : 0 ≤ y) (close : |x - y| ≤ c * (1 / 2 ^ 53) * y + 1 / 16) :
    |(m.units : ℚ) - y| ≤ (1012 / 1000 * j + 5625 / 10000) * m.gap := by
  have fewQ : (j : ℚ) ≤ 4 := by exact_mod_cast few
  have gap : (1 : ℚ) ≤ m.gap := by exact_mod_cast m.gap_pos
  have most := m.units_le_of_gap
  have near := abs_le.mp takes.error
  have part : 0 ≤ y / 2 ^ 53 := by positivity
  have toward := abs_le.mp close
  have moved : c * (y / 2 ^ 53) ≤ j * (101 / 100 * (y / 2 ^ 53)) := by
    have := mul_le_mul_of_nonneg_right share part
    linarith
  have bound : (j : ℚ) * (101 / 100 * (y / 2 ^ 53)) ≤ 4 * (101 / 100 * (y / 2 ^ 53)) :=
    mul_le_mul_of_nonneg_right fewQ (by linarith)
  -- The number is hardly greater than the magnitude, so that its part of 2⁵³ is hardly a gap.
  have small : y / 2 ^ 53 ≤ 1001 / 1000 * m.gap := by linarith
  have scaled : (j : ℚ) * (101 / 100 * (y / 2 ^ 53)) ≤ j * (1012 / 1000 * m.gap) :=
    mul_le_mul_of_nonneg_left (by linarith) (Nat.cast_nonneg j)
  exact abs_le.mpr ⟨by linarith, by linarith⟩

/-- A few gaps above a magnitude the gap is at most doubled. -/
theorem gap_cases (rounds : n.Takes y) (near : y ≤ m.units + 5 * m.gap) (coarser : m.gap ≤ n.gap) :
    n.gap = m.gap ∨ n.gap = 2 * m.gap := by
  rcases Nat.eq_or_lt_of_le coarser with same | wider
  · exact .inl same.symm
  refine .inr ((two_pow_cases wider).resolve_right fun far => ?_)
  have great := Nat.mul_le_mul_right n.gap
    (le_significand (m := n) (Nat.lt_of_le_of_lt m.gap_pos wider))
  rw [significand_mul_gap] at great
  have greatQ : (2 : ℚ) ^ 52 * n.gap ≤ n.units := by exact_mod_cast great
  have farQ : 4 * (m.gap : ℚ) ≤ n.gap := by exact_mod_cast far
  have gap : (1 : ℚ) ≤ m.gap := by exact_mod_cast m.gap_pos
  have most := m.units_le_of_gap
  have landing := abs_le.mp rounds.error
  linarith

/-- What is close to a number that rounds to a magnitude is rounded to a close one. -/
theorem isWithin_of_close {j : Nat} {c : ℚ} (few : j ≤ 4) (share : c ≤ 101 / 100 * j)
    (takes : m.Takes x) (nonneg : 0 ≤ y) (rounds : n.Takes y)
    (close : |x - y| ≤ c * (1 / 2 ^ 53) * y + 1 / 16) : IsWithin (j + 1) m n := by
  have toward := abs_le.mp (apart_of_close few share takes nonneg close)
  have landing := abs_le.mp rounds.error
  have gap : (1 : ℚ) ≤ m.gap := by exact_mod_cast m.gap_pos
  have fewQ : (j : ℚ) ≤ 4 := by exact_mod_cast few
  have few' : (j : ℚ) * m.gap ≤ 4 * m.gap := mul_le_mul_of_nonneg_right fewQ (by linarith)
  rcases Nat.lt_or_ge n.gap m.gap with finer | coarser
  · -- The steps below a power of two are half as wide at most.
    have half : 2 * (n.gap : ℚ) ≤ m.gap := by exact_mod_cast two_mul_gap_le finer
    constructor <;> rw [← Nat.cast_le (α := ℚ)] <;> push_cast <;> linarith
  · -- Elsewhere both are multiples of the gap, so that parts of it do not count.
    have steps := gap_cases rounds (by linarith) coarser
    have wide : (n.gap : ℚ) ≤ 2 * m.gap := by
      have : n.gap ≤ 2 * m.gap := by omega
      exact_mod_cast this
    have divides : m.gap ∣ n.units := by
      refine Nat.dvd_trans ?_ n.fits.2
      rcases steps with same | twice
      · exact dvd_of_eq same.symm
      · exact Dvd.intro_left 2 twice.symm
    constructor
    · refine le_add_mul_of_lt divides m.fits.2 ?_
      push_cast
      linarith
    · refine le_add_mul_of_lt m.fits.2 divides ?_
      push_cast
      linarith

/-- Whatever is not beyond a number that rounds to some magnitude rounds to one. -/
theorem exists_nearest?_eq {b : Magnitude} {p q : Nat} (pos : 0 < q) (takes : b.Takes y)
    (le : (p : ℚ) / q ≤ y) : ∃ n, nearest? p q = some n ∧ n.Takes (p / q) ∧ n.units ≤ b.units := by
  have nonneg : 0 ≤ y := le_trans (by positivity) le
  have most : nearestUnits p q ≤ b.units := by
    rw [← (takes_iff_nearestUnits nonneg).mp takes]
    refine nearestUnits_mono pos y.den_pos ?_
    have whole : ((y.num.toNat : Nat) : ℚ) / y.den = y := by
      have num : ((y.num.toNat : Int) : ℚ) = y.num := by
        rw [Int.toNat_of_nonneg (Rat.num_nonneg.mpr nonneg)]
      rw [← Int.cast_natCast, num, Rat.num_div_den]
    rw [← whole, div_le_div_iff₀ (by exact_mod_cast pos) (by exact_mod_cast y.den_pos)] at le
    exact_mod_cast le
  have finite : (nearestUnits p q).log2 < 2098 := (log2_mono most).trans_lt b.fits.1
  refine ⟨⟨nearestUnits p q, finite, nearestUnits_dvd p q⟩, ?_, ?_, most⟩
  · rw [nearest?, dif_pos finite]
  · rw [← roundsTo_iff_takes _ _ pos, ← nearestUnits_eq_iff _ pos]

theorem units_powerOfTen : ∀ k < 23, (powerOfTen k).units = 10 ^ k * unitsPerOne := by
  decide +kernel

/-- What is at least one rounds to no less. -/
theorem Takes.unitsPerOne_le (takes : m.Takes x) (least : (unitsPerOne : ℚ) ≤ x) :
    unitsPerOne ≤ m.units := by
  have one : (powerOfTen 0).units = unitsPerOne := by
    rw [units_powerOfTen 0 (by decide), Nat.pow_zero, Nat.one_mul]
  have own := (powerOfTen 0).takes_units
  rw [one] at own
  have := own.units_le takes (Nat.cast_nonneg _) least
  rwa [one] at this

theorem Takes.normal (takes : m.Takes x) (least : (unitsPerOne : ℚ) ≤ x) :
    2 ^ (52 : Nat) ≤ m.units := by
  have fine : 2 ^ (52 : Nat) ≤ unitsPerOne := by decide +kernel
  exact fine.trans (takes.unitsPerOne_le least)

theorem ofDecimal?_eq_nearest? (k : Nat) :
    ofDecimal? 1 k = nearest? (10 ^ k * unitsPerOne) 1 := by
  rw [ofDecimal?, Int.toNat_natCast, Nat.one_mul, show (-(k : Int)).toNat = 0 by omega,
    Nat.pow_zero]

/-- A whole number rounds to a magnitude if a greater one does. -/
theorem exists_nearest?_whole {k l : Nat} {b : Magnitude} (takes : b.Takes (l * unitsPerOne))
    (le : k ≤ l) : ∃ n, nearest? (k * unitsPerOne) 1 = some n ∧ n.Takes (k * unitsPerOne) := by
  have whole (k : Nat) : ((k * unitsPerOne : Nat) : ℚ) / (1 : Nat) = k * unitsPerOne := by
    rw [Nat.cast_one, div_one, Nat.cast_mul]
  have leQ : ((k * unitsPerOne : Nat) : ℚ) / (1 : Nat) ≤ l * unitsPerOne := by
    rw [whole]
    exact mul_le_mul_of_nonneg_right (by exact_mod_cast le) (Nat.cast_nonneg _)
  obtain ⟨n, is, takesToo, -⟩ := exists_nearest?_eq Nat.one_pos takes leQ
  rw [whole] at takesToo
  exact ⟨n, is, takesToo⟩

theorem takes_powerOfTen_of_le {k l : Nat} (finite : (ofDecimal? 1 l).isSome) (le : k ≤ l) :
    (powerOfTen k).Takes ((10 ^ k : Nat) * unitsPerOne) := by
  obtain ⟨b, found⟩ := Option.isSome_iff_exists.mp finite
  rw [ofDecimal?_eq_nearest?, nearest?_eq_some_iff_takes _ _ Nat.one_pos, Nat.cast_one, div_one,
    Nat.cast_mul] at found
  obtain ⟨n, is, takes⟩ := exists_nearest?_whole found (Nat.pow_le_pow_right (by decide) le)
  rw [powerOfTen, ofDecimal?_eq_nearest?, is, Option.getD_some]
  exact takes

/-- The powers of ten that the reader scales by are finite. -/
theorem takes_powerOfTen {k : Nat} (small : k ≤ 308) :
    (powerOfTen k).Takes ((10 ^ k : Nat) * unitsPerOne) :=
  takes_powerOfTen_of_le (by decide +kernel) small

/-- The words that the reader gathers are finite. -/
theorem takes_ofNat? {word : Nat} (small : word < 10 ^ (17 : Nat)) :
    ((ofNat? word).getD .zero).Takes (word * unitsPerOne) := by
  obtain ⟨n, is, takes⟩ := exists_nearest?_whole (takes_powerOfTen (k := 17) (by decide)) small.le
  rw [ofNat?, is, Option.getD_some]
  exact takes

section

variable {w k : Nat} {W P : Magnitude}

/-- The word that the reader gathers, and the power of ten that it scales by. -/
structure Rounds (w k : Nat) (W P : Magnitude) : Prop where
  some : 0 < w
  word : W.Takes (w * unitsPerOne)
  power : P.Takes ((10 ^ k : Nat) * unitsPerOne)

theorem unitsPerOne_le_mul {k : Nat} (positive : 0 < k) :
    (unitsPerOne : ℚ) ≤ k * unitsPerOne := by
  have : (1 : ℚ) ≤ k := by exact_mod_cast positive
  exact le_mul_of_one_le_left (Nat.cast_nonneg _) this

namespace Rounds

variable (rounds : Rounds w k W P)

include rounds

theorem error_word : |(W.units : ℚ) - w * unitsPerOne| ≤ 1 / 2 ^ 53 * W.units := by
  have := rounds.word.error_le_of_normal (rounds.word.normal (unitsPerOne_le_mul rounds.some))
  linarith

theorem error_power : |(P.units : ℚ) - (10 ^ k : Nat) * unitsPerOne| ≤ 1 / 2 ^ 53 * P.units := by
  have some : 0 < 10 ^ k := Nat.pow_pos (by decide)
  have := rounds.power.error_le_of_normal (rounds.power.normal (unitsPerOne_le_mul some))
  linarith

theorem le_word : unitsPerOne ≤ W.units :=
  rounds.word.unitsPerOne_le (unitsPerOne_le_mul rounds.some)

theorem le_power : unitsPerOne ≤ P.units :=
  rounds.power.unitsPerOne_le (unitsPerOne_le_mul (Nat.pow_pos (by decide)))

/-- The rounded product before it is rounded again. -/
theorem mul_close : |(w * 10 ^ k : ℚ) * unitsPerOne - W.units * P.units / unitsPerOne| ≤
    201 / 100 * (1 / 2 ^ 53) * (W.units * P.units / unitsPerOne) := by
  have units : (0 : ℚ) < unitsPerOne := by exact_mod_cast unitsPerOne_pos
  have posW : (0 : ℚ) < W.units := by exact_mod_cast unitsPerOne_pos.trans_le rounds.le_word
  have posP : (0 : ℚ) < P.units := by exact_mod_cast unitsPerOne_pos.trans_le rounds.le_power
  have error := mul_error posW posP (by norm_num) (by norm_num) rounds.error_word
    rounds.error_power
  rw [Nat.cast_pow, Nat.cast_ofNat] at error
  generalize (unitsPerOne : ℚ) = u at units error ⊢
  have split : (w * 10 ^ k : ℚ) * u - W.units * P.units / u =
      (w * u * (10 ^ k * u) - W.units * P.units) / u := by
    field_simp
  rw [split, abs_div, abs_of_pos units, mul_div_assoc']
  exact div_le_div_of_nonneg_right error units.le

/-- The rounded quotient before it is rounded again. -/
theorem div_close : |(w / 10 ^ k : ℚ) * unitsPerOne - W.units * unitsPerOne / P.units| ≤
    201 / 100 * (1 / 2 ^ 53) * (W.units * unitsPerOne / P.units) := by
  have units : (0 : ℚ) < unitsPerOne := by exact_mod_cast unitsPerOne_pos
  have posW : (0 : ℚ) < W.units := by exact_mod_cast unitsPerOne_pos.trans_le rounds.le_word
  have posP : (0 : ℚ) < P.units := by exact_mod_cast unitsPerOne_pos.trans_le rounds.le_power
  obtain ⟨-, error⟩ := div_error posW posP (by norm_num) (by norm_num) rounds.error_word
    rounds.error_power
  rw [Nat.cast_pow, Nat.cast_ofNat] at error
  generalize (unitsPerOne : ℚ) = u at units error ⊢
  have split : (w / 10 ^ k : ℚ) * u - W.units * u / P.units =
      (w * u / (10 ^ k * u) - W.units / P.units) * u := by
    field_simp
  rw [split, abs_mul, abs_of_pos units]
  refine (mul_le_mul_of_nonneg_right error units.le).trans (le_of_eq ?_)
  ring

/-- A second quotient of what the first is rounded to. The half unit that the first may be off
below the normal numbers is divided along. -/
theorem div_div_close {Y Q : Magnitude} {l : Nat} (some : 0 < l)
    (first : Y.Takes (W.units * unitsPerOne / P.units))
    (second : Q.Takes ((10 ^ l : Nat) * unitsPerOne)) :
    |(w / 10 ^ (k + l) : ℚ) * unitsPerOne - Y.units * unitsPerOne / Q.units| ≤
      404 / 100 * (1 / 2 ^ 53) * (Y.units * unitsPerOne / Q.units) + 1 / 16 := by
  have units : (0 : ℚ) < unitsPerOne := by exact_mod_cast unitsPerOne_pos
  have nonneg : (0 : ℚ) ≤ Y.units := Nat.cast_nonneg _
  have positive : 0 < 10 ^ l := Nat.pow_pos (by decide)
  have tens : (10 : ℚ) ≤ 10 ^ l := by
    calc (10 : ℚ) = 10 ^ 1 := (pow_one 10).symm
      _ ≤ 10 ^ l := pow_le_pow_right₀ (by norm_num) some
  have power := second.error_le_of_normal (second.normal (unitsPerOne_le_mul positive))
  have posQ : (0 : ℚ) < Q.units := by
    exact_mod_cast unitsPerOne_pos.trans_le
      (second.unitsPerOne_le (unitsPerOne_le_mul positive))
  have apart : |(w / 10 ^ k : ℚ) * unitsPerOne - Y.units| ≤
      303 / 100 * (1 / 2 ^ 53) * Y.units + 51 / 100 := by
    have close := abs_le.mp rounds.div_close
    have landing := abs_le.mp first.error_le
    exact abs_le.mpr ⟨by linarith, by linarith⟩
  rw [Nat.cast_pow, Nat.cast_ofNat] at power
  rw [pow_add]
  generalize (unitsPerOne : ℚ) = u at units apart power ⊢
  generalize (10 : ℚ) ^ l = a at tens power ⊢
  have posA : 0 < a := by linarith
  have part : (0 : ℚ) ≤ Y.units / a := div_nonneg nonneg posA.le
  -- the first quotient over the power itself lies between the two numbers
  have shifted : |(w / (10 ^ k * a) : ℚ) * u - Y.units / a| ≤
      303 / 100 * (1 / 2 ^ 53) * (Y.units / a) + 51 / 1000 := by
    have split : (w / (10 ^ k * a) : ℚ) * u - Y.units / a =
        ((w / 10 ^ k : ℚ) * u - Y.units) / a := by field_simp
    have half : (51 / 100 : ℚ) / a ≤ 51 / 1000 := by
      rw [div_le_iff₀ posA]
      linarith
    rw [split, abs_div, abs_of_pos posA]
    refine (div_le_div_of_nonneg_right apart posA.le).trans ?_
    rw [add_div, mul_div_assoc]
    linarith
  have scaled : |Y.units / a - Y.units * u / Q.units| ≤
      1 / 2 ^ 53 * (Y.units / a : ℚ) := by
    have split : (Y.units : ℚ) / a - Y.units * u / Q.units =
        Y.units / a * ((Q.units - a * u) / Q.units) := by field_simp
    rw [split, abs_mul, abs_of_nonneg part, abs_div, abs_of_pos posQ, mul_comm]
    refine mul_le_mul_of_nonneg_right ?_ part
    rw [div_le_iff₀ posQ]
    linarith
  have toward := abs_le.mp shifted
  have beyond := abs_le.mp scaled
  exact abs_le.mpr ⟨by linarith, by linarith⟩

end Rounds

end

theorem scale?_of_nonneg (m : Magnitude) {exponent : Int} (low : 0 ≤ exponent)
    (high : exponent ≤ 308) :
    m.scale? exponent =
      nearest? (m.units * (powerOfTen exponent.natAbs).units) unitsPerOne := by
  unfold scale?
  dsimp only
  rw [if_pos low, if_pos (by omega), mul?]

theorem scale?_of_neg (m : Magnitude) {exponent : Int} (low : -308 ≤ exponent)
    (high : exponent < 0) :
    m.scale? exponent =
      nearest? (m.units * unitsPerOne) (powerOfTen exponent.natAbs).units := by
  unfold scale?
  dsimp only
  rw [if_neg (by omega), show (exponent.natAbs - 1) / 308 = 0 by omega, Nat.mul_zero,
    Nat.sub_zero, divideAgain, Option.bind_eq_bind, Option.bind_some, div?]

theorem scale?_of_far {m : Magnitude} (positive : 0 < m.units) {exponent : Int}
    (low : -616 ≤ exponent) (high : exponent < -308) :
    m.scale? exponent =
      (nearest? (m.units * unitsPerOne) (powerOfTen 308).units).bind fun n =>
        nearest? (n.units * unitsPerOne) (powerOfTen (exponent.natAbs - 308)).units := by
  have nonzero : m.isZero = false := beq_eq_false_iff_ne.mpr (Nat.ne_of_gt positive)
  unfold scale?
  dsimp only
  rw [if_neg (by omega), show (exponent.natAbs - 1) / 308 = 1 by omega, Nat.mul_one, divideAgain,
    nonzero, if_neg Bool.false_ne_true]
  simp only [divideAgain, div?, Option.bind_eq_bind, Option.bind_fun_some]

/-- A quotient by one or more is found. -/
theorem exists_quotient (m : Magnitude) {b : Magnitude} (least : unitsPerOne ≤ b.units) :
    ∃ n, nearest? (m.units * unitsPerOne) b.units = some n := by
  have positive := unitsPerOne_pos.trans_le least
  have le : ((m.units * unitsPerOne : Nat) : ℚ) / b.units ≤ m.units := by
    rw [div_le_iff₀ (by exact_mod_cast positive)]
    exact_mod_cast Nat.mul_le_mul_left m.units least
  obtain ⟨n, is, -⟩ := exists_nearest?_eq positive m.takes_units le
  exact ⟨n, is⟩

theorem quotient_nonneg (a b c : Nat) : (0 : ℚ) ≤ a * b / c := by positivity

section

variable {d : Decimal} {m : Magnitude}

/-- The digits of a magnitude as the reader of JSON gathers them. -/
structure Gathers (d : Decimal) (m : Magnitude) : Prop where
  reads : d.ReadsAs m
  nonzero : 0 < d.coefficient
  short : d.coefficient < 10 ^ (17 : Nat)
  low : -616 ≤ d.exponent
  high : d.exponent ≤ 308

/-- The digits, rounded for the first time. -/
def word (d : Decimal) : Magnitude := (ofNat? d.coefficient).getD .zero

namespace Gathers

variable (gathers : Gathers d m)

include gathers

theorem rounds {k : Nat} (small : k ≤ 308) : Rounds d.coefficient k (word d) (powerOfTen k) :=
  ⟨gathers.nonzero, takes_ofNat? gathers.short, takes_powerOfTen small⟩

/-- A product that is rounded is three gaps away at most. -/
theorem isWithin_of_nonneg {n : Magnitude} (nonneg : 0 ≤ d.exponent)
    (scaled : (word d).scale? d.exponent = some n) : IsWithin 3 m n := by
  have rounds := gathers.rounds (k := d.exponent.natAbs) (by have := gathers.high; omega)
  rw [scale?_of_nonneg _ nonneg gathers.high, nearest?_eq_some_iff_takes _ _ unitsPerOne_pos,
    Nat.cast_mul] at scaled
  have reads := gathers.reads
  rw [Decimal.ReadsAs, Decimal.value_of_nonneg nonneg] at reads
  exact isWithin_of_close (by decide) (by norm_num) reads (quotient_nonneg _ _ _) scaled
    (rounds.mul_close.trans (le_add_of_nonneg_right (by norm_num)))

/-- So is a quotient. -/
theorem isWithin_of_neg {n : Magnitude} (low : -308 ≤ d.exponent) (neg : d.exponent < 0)
    (scaled : (word d).scale? d.exponent = some n) : IsWithin 3 m n := by
  have rounds := gathers.rounds (k := d.exponent.natAbs) (by omega)
  have positive := unitsPerOne_pos.trans_le rounds.le_power
  rw [scale?_of_neg _ low neg, nearest?_eq_some_iff_takes _ _ positive, Nat.cast_mul] at scaled
  have reads := gathers.reads
  rw [Decimal.ReadsAs, Decimal.value_of_neg neg] at reads
  exact isWithin_of_close (by decide) (by norm_num) reads (quotient_nonneg _ _ _) scaled
    (rounds.div_close.trans (le_add_of_nonneg_right (by norm_num)))

/-- A quotient of a quotient is five gaps away at most. -/
theorem isWithin_of_far {n : Magnitude} (far : d.exponent < -308)
    (scaled : (word d).scale? d.exponent = some n) : IsWithin 5 m n := by
  have low := gathers.low
  have rounds := gathers.rounds (k := 308) le_rfl
  have rest : d.exponent.natAbs - 308 ≤ 308 := by omega
  have positive := unitsPerOne_pos.trans_le rounds.le_power
  have positive' := unitsPerOne_pos.trans_le (gathers.rounds rest).le_power
  rw [scale?_of_far (unitsPerOne_pos.trans_le rounds.le_word) low far, Option.bind_eq_some_iff]
    at scaled
  obtain ⟨y, first, second⟩ := scaled
  rw [nearest?_eq_some_iff_takes _ _ positive, Nat.cast_mul] at first
  rw [nearest?_eq_some_iff_takes _ _ positive', Nat.cast_mul] at second
  have close := rounds.div_div_close (by omega) first (takes_powerOfTen rest)
  have reads := gathers.reads
  rw [Decimal.ReadsAs, Decimal.value_of_neg (by omega),
    show d.exponent.natAbs = 308 + (d.exponent.natAbs - 308) by omega] at reads
  exact isWithin_of_close le_rfl (by norm_num) reads (quotient_nonneg _ _ _) second close

/-- A quotient is always found. -/
theorem exists_scale?_of_neg (neg : d.exponent < 0) :
    ∃ n, (word d).scale? d.exponent = some n := by
  rcases Int.lt_or_le d.exponent (-308) with far | low
  · have low := gathers.low
    have rounds := gathers.rounds (k := 308) le_rfl
    have rest : d.exponent.natAbs - 308 ≤ 308 := by omega
    obtain ⟨y, first⟩ := exists_quotient (word d) rounds.le_power
    obtain ⟨n, second⟩ := exists_quotient y (gathers.rounds rest).le_power
    refine ⟨n, ?_⟩
    rw [scale?_of_far (unitsPerOne_pos.trans_le rounds.le_word) low far, first, Option.bind_some,
      second]
  · rw [scale?_of_neg _ low neg]
    exact exists_quotient (word d) (gathers.rounds (by omega)).le_power

/-- So is a product that does not reach the greatest of the magnitudes. -/
theorem exists_scale?_of_nonneg (nonneg : 0 ≤ d.exponent) {b : Magnitude} {g : Nat}
    (gap : m.gap ≤ g) (most : m.units ≤ (2 ^ (53 : Nat) - 4) * g)
    (bound : b.units = (2 ^ (53 : Nat) - 1) * g) :
    ∃ n, (word d).scale? d.exponent = some n := by
  have rounds := gathers.rounds (k := d.exponent.natAbs) (by have := gathers.high; omega)
  have reads := gathers.reads
  rw [Decimal.ReadsAs, Decimal.value_of_nonneg nonneg] at reads
  have near := abs_le.mp reads.error
  have close := abs_le.mp rounds.mul_close
  have gapQ : (m.gap : ℚ) ≤ g := by exact_mod_cast gap
  have mostQ : (m.units : ℚ) ≤ (2 ^ 53 - 4) * g := by
    have cast : (((2 ^ (53 : Nat) - 4) * g : Nat) : ℚ) = (2 ^ 53 - 4) * g := by
      rw [Nat.cast_mul]
      norm_num
    rw [← cast]
    exact_mod_cast most
  have boundQ : (b.units : ℚ) = (2 ^ 53 - 1) * g := by
    rw [bound, Nat.cast_mul]
    norm_num
  have least : (0 : ℚ) ≤ g := Nat.cast_nonneg g
  have below : (word d).units * (powerOfTen d.exponent.natAbs).units / (unitsPerOne : ℚ) ≤
      b.units := by
    rw [boundQ]
    generalize (word d).units * (powerOfTen d.exponent.natAbs).units / (unitsPerOne : ℚ) = y at *
    by_contra above
    linarith
  rw [scale?_of_nonneg _ nonneg gathers.high]
  rw [← Nat.cast_mul] at below
  obtain ⟨n, is, -⟩ := exists_nearest?_eq unitsPerOne_pos b.takes_units below
  exact ⟨n, is⟩

/-- Where neither the word nor the power of ten needs rounding, the digits are read as the
magnitude that they are the digits of. -/
theorem scale?_eq_self (exact : Representable (d.coefficient * unitsPerOne))
    (few : d.exponent.natAbs ≤ 22) : (word d).scale? d.exponent = some m := by
  have units : (0 : ℚ) < unitsPerOne := by exact_mod_cast unitsPerOne_pos
  have rounds := gathers.rounds (k := d.exponent.natAbs) (by omega)
  have whole : (word d).units = d.coefficient * unitsPerOne := by
    have own := takes_units ⟨d.coefficient * unitsPerOne, exact⟩
    rw [Nat.cast_mul] at own
    rw [rounds.word.unique own (mul_nonneg (Nat.cast_nonneg _) units.le)]
  have power := units_powerOfTen d.exponent.natAbs (by omega)
  have reads := gathers.reads
  rw [Decimal.ReadsAs] at reads
  rcases Int.lt_or_le d.exponent 0 with neg | nonneg
  · rw [Decimal.value_of_neg neg] at reads
    rw [scale?_of_neg _ (by omega) neg, nearest?_eq_some_iff_takes _ _
      (unitsPerOne_pos.trans_le rounds.le_power), whole, power]
    convert reads using 1
    push_cast
    field_simp
  · rw [Decimal.value_of_nonneg nonneg] at reads
    rw [scale?_of_nonneg _ nonneg gathers.high, nearest?_eq_some_iff_takes _ _ unitsPerOne_pos,
      whole, power]
    convert reads using 1
    push_cast
    field_simp

end Gathers

end

end Magnitude

end Criteria
