import Mathlib.Tactic.Ring
import Criteria.Proofs.Rounding

set_option autoImplicit false

/-
The shortest decimals. On a decimal grid the two neighbours of a magnitude decide whether any
point rounds to it; seventeen digits make the grid fine enough, and the first grid with such a
point has the decimal with the fewest digits, the nearest one of them.
-/
namespace Criteria

theorem lt_pow_length_toDigits (n : Nat) : n < 10 ^ (Nat.toDigits 10 n).length :=
  (Nat.length_toDigits_le_iff (by decide) Nat.length_toDigits_pos).mp (Nat.le_refl _)

theorem pow_length_toDigits_le {n : Nat} (positive : 0 < n) :
    10 ^ ((Nat.toDigits 10 n).length - 1) ≤ n := by
  rcases Nat.eq_zero_or_pos ((Nat.toDigits 10 n).length - 1) with single | more
  · rw [single]
    exact positive
  · refine Nat.le_of_not_lt fun less => ?_
    have := (Nat.length_toDigits_le_iff (by decide) more).mpr less
    omega

/-- What is found in a range is found first. -/
theorem findSome?_range_eq_some {α : Type} {f : Nat → Option α} {n : Nat} {a : α}
    (found : (List.range n).findSome? f = some a) :
    ∃ k < n, f k = some a ∧ ∀ j < k, f j = none := by
  induction n with
  | zero => cases found
  | succ n ih =>
      rw [List.range_succ, List.findSome?_append] at found
      cases earlier : (List.range n).findSome? f with
      | some b =>
          rw [earlier, Option.some_or] at found
          obtain ⟨k, below, foundAt, missed⟩ := ih (earlier.trans found)
          exact ⟨k, Nat.lt_succ_of_lt below, foundAt, missed⟩
      | none =>
          rw [earlier, Option.none_or, List.findSome?_singleton] at found
          rw [List.findSome?_eq_none_iff] at earlier
          exact ⟨n, Nat.lt_succ_self n, found, fun j below => earlier j (List.mem_range.mpr below)⟩

namespace Decimal

def value (d : Decimal) : ℚ := d.coefficient * 10 ^ d.exponent

/-- Whether the magnitude is the one nearest to the decimal. -/
def ReadsAs (d : Decimal) (m : Magnitude) : Prop := m.Takes (d.value * unitsPerOne)

end Decimal

theorem unitsPerOne_pos : 0 < unitsPerOne := by
  rw [unitsPerOne]
  exact Nat.two_pow_pos 1074

theorem unitsPerOne_le : unitsPerOne ≤ 10 ^ (324 : Nat) := by decide +kernel

theorem zpow_eq_div (exponent : Int) :
    (10 : ℚ) ^ exponent = (10 : ℚ) ^ exponent.toNat / (10 : ℚ) ^ (-exponent).toNat := by
  rw [← zpow_natCast, ← zpow_natCast, ← zpow_sub₀ (by norm_num)]
  congr 1
  omega

namespace Decimal

variable {d : Decimal}

theorem value_of_nonneg (nonneg : 0 ≤ d.exponent) :
    d.value = d.coefficient * 10 ^ d.exponent.natAbs := by
  rw [value, ← zpow_natCast, Int.natAbs_of_nonneg nonneg]

theorem value_of_neg (neg : d.exponent < 0) :
    d.value = d.coefficient / 10 ^ d.exponent.natAbs := by
  rw [value, div_eq_mul_inv, ← zpow_natCast, ← zpow_neg,
    show -((d.exponent.natAbs : Nat) : Int) = d.exponent by omega]

end Decimal

namespace Magnitude

variable {m : Magnitude}

/-- The exponent is the one of the leading digit. -/
theorem decimalExponent_spec (positive : 0 < m.units) :
    (10 : ℚ) ^ m.decimalExponent * unitsPerOne ≤ m.units ∧
      m.units < (10 : ℚ) ^ (m.decimalExponent + 1) * unitsPerOne := by
  have scaled : 0 < m.units * 10 ^ (324 : Nat) / unitsPerOne :=
    Nat.div_pos (Nat.le_trans unitsPerOne_le (Nat.le_mul_of_pos_left _ positive))
      unitsPerOne_pos
  have length := Nat.length_toDigits_pos (b := 10)
    (n := m.units * 10 ^ (324 : Nat) / unitsPerOne)
  have low := pow_length_toDigits_le scaled
  have high := lt_pow_length_toDigits (m.units * 10 ^ (324 : Nat) / unitsPerOne)
  rw [Nat.le_div_iff_mul_le unitsPerOne_pos, ← Nat.cast_le (α := ℚ)] at low
  rw [Nat.div_lt_iff_lt_mul unitsPerOne_pos, ← Nat.cast_lt (α := ℚ)] at high
  unfold decimalExponent
  generalize (Nat.toDigits 10 (m.units * 10 ^ (324 : Nat) / unitsPerOne)).length = count at *
  simp only [Nat.cast_mul, Nat.cast_pow, Nat.cast_ofNat] at low high
  have shift (n : Nat) : (10 : ℚ) ^ ((n : Int) - 324) = 10 ^ n / 10 ^ (324 : Nat) := by
    rw [zpow_sub₀ (by norm_num), zpow_natCast, zpow_ofNat]
  constructor
  · rw [show (count : Int) - 325 = ((count - 1 : Nat) : Int) - 324 by omega, shift]
    rw [div_mul_eq_mul_div, div_le_iff₀ (by positivity)]
    exact low
  · rw [show (count : Int) - 325 + 1 = (count : Int) - 324 by omega, shift]
    rw [div_mul_eq_mul_div, lt_div_iff₀ (by positivity)]
    exact high

/-- A point of the grid; the one with a digit more is written with a single digit. -/
def gridPoint (grid : Int) (count c : Nat) : Decimal :=
  if c = 10 ^ count then ⟨1, grid + count⟩ else ⟨c, grid⟩

theorem value_gridPoint (grid : Int) (count c : Nat) :
    (gridPoint grid count c).value = c * 10 ^ grid := by
  unfold gridPoint Decimal.value
  split_ifs with power
  · rw [power, zpow_add₀ (by norm_num), zpow_natCast]
    push_cast
    ring
  · rfl

/-- The last point of the grid that is not above the magnitude. -/
def pointBelow (m : Magnitude) (grid : Int) : Nat :=
  m.units * 10 ^ (-grid).toNat / (10 ^ grid.toNat * unitsPerOne)

theorem pointBelow_spec (m : Magnitude) (grid : Int) :
    m.pointBelow grid * ((10 : ℚ) ^ grid * unitsPerOne) ≤ m.units ∧
      m.units < (m.pointBelow grid + 1) * ((10 : ℚ) ^ grid * unitsPerOne) := by
  have up : 0 < 10 ^ grid.toNat * unitsPerOne :=
    Nat.mul_pos (Nat.pow_pos (by decide)) unitsPerOne_pos
  have low := Nat.div_mul_le_self (m.units * 10 ^ (-grid).toNat) (10 ^ grid.toNat * unitsPerOne)
  have high := Nat.lt_div_mul_add (a := m.units * 10 ^ (-grid).toNat) up
  rw [← pointBelow] at low high
  rw [← Nat.cast_le (α := ℚ)] at low
  rw [← Nat.cast_lt (α := ℚ)] at high
  push_cast at low high
  have down : (0 : ℚ) < 10 ^ (-grid).toNat := by positivity
  rw [zpow_eq_div, div_mul_eq_mul_div, mul_div_assoc', mul_div_assoc', div_le_iff₀ down,
    lt_div_iff₀ down]
  exact ⟨low, by linarith⟩

theorem roundsTo_iff_takes_point (m : Magnitude) (grid : Int) (c : Nat) :
    m.roundsTo (c * (10 ^ grid.toNat * unitsPerOne)) (10 ^ (-grid).toNat) ↔
      m.Takes (c * ((10 : ℚ) ^ grid * unitsPerOne)) := by
  rw [m.roundsTo_iff_takes _ (Nat.pow_pos (by decide)), zpow_eq_div, div_mul_eq_mul_div,
    mul_div_assoc']
  push_cast
  rfl

/-- Twice the magnitude against the middle between a point and the next one. -/
theorem twice_lt_iff (m : Magnitude) (grid : Int) (c : Nat) :
    (2 * m.units * 10 ^ (-grid).toNat < (2 * c + 1) * (10 ^ grid.toNat * unitsPerOne) ↔
      2 * m.units < (2 * c + 1) * ((10 : ℚ) ^ grid * unitsPerOne)) ∧
    ((2 * c + 1) * (10 ^ grid.toNat * unitsPerOne) < 2 * m.units * 10 ^ (-grid).toNat ↔
      (2 * c + 1) * ((10 : ℚ) ^ grid * unitsPerOne) < 2 * m.units) := by
  have down : (0 : ℚ) < 10 ^ (-grid).toNat := by positivity
  rw [zpow_eq_div, div_mul_eq_mul_div, mul_div_assoc', lt_div_iff₀ down, div_lt_iff₀ down,
    ← Nat.cast_lt (α := ℚ), ← Nat.cast_lt (α := ℚ)]
  push_cast
  exact ⟨Iff.rfl, Iff.rfl⟩

/-- Of the two points next to the magnitude the nearer one is taken among those that
round to it. -/
theorem withDigits?_cases (tie : Tie) (m : Magnitude) (exponent : Int) (count : Nat) :
    let grid := exponent + 1 - count
    let width : ℚ := (10 : ℚ) ^ grid * unitsPerOne
    let c := m.pointBelow grid
    (m.withDigits? tie exponent count = none ∧ ¬ m.Takes (c * width) ∧
      ¬ m.Takes ((c + 1 : Nat) * width)) ∨
    (m.withDigits? tie exponent count = some (gridPoint grid count c) ∧ m.Takes (c * width) ∧
      (m.Takes ((c + 1 : Nat) * width) → 2 * m.units ≤ (2 * c + 1) * width)) ∨
    (m.withDigits? tie exponent count = some (gridPoint grid count (c + 1)) ∧
      m.Takes ((c + 1 : Nat) * width) ∧
      (m.Takes (c * width) → (2 * c + 1) * width ≤ 2 * m.units)) := by
  dsimp only
  generalize hgrid : exponent + 1 - count = grid
  unfold withDigits?
  dsimp only
  rw [hgrid, ← pointBelow]
  generalize m.pointBelow grid = c
  have low := m.roundsTo_iff_takes_point grid c
  have high := m.roundsTo_iff_takes_point grid (c + 1)
  obtain ⟨nearer, farther⟩ := m.twice_lt_iff grid c
  rw [← gridPoint, ← gridPoint]
  by_cases first : m.Takes (c * ((10 : ℚ) ^ grid * unitsPerOne)) <;>
    by_cases second : m.Takes ((c + 1 : Nat) * ((10 : ℚ) ^ grid * unitsPerOne))
  · rw [if_pos (low.mpr first), if_pos (high.mpr second)]
    dsimp only
    by_cases isNearer : 2 * (m.units : ℚ) < (2 * c + 1) * ((10 : ℚ) ^ grid * unitsPerOne)
    · rw [if_pos (nearer.mpr isNearer)]
      exact .inr (.inl ⟨rfl, first, fun _ => isNearer.le⟩)
    rw [if_neg (nearer.not.mpr isNearer)]
    have far := le_of_not_gt isNearer
    by_cases isFarther : (2 * c + 1) * ((10 : ℚ) ^ grid * unitsPerOne) < 2 * (m.units : ℚ)
    · rw [if_pos (farther.mpr isFarther)]
      exact .inr (.inr ⟨rfl, second, fun _ => far⟩)
    rw [if_neg (farther.not.mpr isFarther)]
    cases tie with
    | up => exact .inr (.inr ⟨rfl, second, fun _ => far⟩)
    | even =>
        dsimp only
        split_ifs
        · exact .inr (.inl ⟨rfl, first, fun _ => le_of_not_gt isFarther⟩)
        · exact .inr (.inr ⟨rfl, second, fun _ => far⟩)
  · rw [if_pos (low.mpr first), if_neg (high.not.mpr second)]
    exact .inr (.inl ⟨rfl, first, fun other => absurd other second⟩)
  · rw [if_neg (low.not.mpr first), if_pos (high.mpr second)]
    exact .inr (.inr ⟨rfl, second, fun other => absurd other first⟩)
  · rw [if_neg (low.not.mpr first), if_neg (high.not.mpr second)]
    exact .inl ⟨rfl, first, second⟩

theorem width_pos (grid : Int) : (0 : ℚ) < (10 : ℚ) ^ grid * unitsPerOne :=
  mul_pos (zpow_pos (by norm_num) grid) (by exact_mod_cast unitsPerOne_pos)

theorem pow_mul_width (n : Nat) (grid : Int) :
    ((10 ^ n : Nat) : ℚ) * ((10 : ℚ) ^ grid * unitsPerOne) = 10 ^ (grid + n) * unitsPerOne := by
  rw [zpow_add₀ (by norm_num), zpow_natCast, Nat.cast_pow, Nat.cast_ofNat]
  ring

/-- A grid with any point that rounds to the magnitude gives the nearest of them. -/
theorem exists_withDigits?_eq (tie : Tie) {exponent : Int} {count c : Nat}
    (takes : m.Takes (c * ((10 : ℚ) ^ (exponent + 1 - count) * unitsPerOne))) :
    ∃ d, m.withDigits? tie exponent count = some d ∧
      |d.value * unitsPerOne - m.units| ≤
        |c * ((10 : ℚ) ^ (exponent + 1 - count) * unitsPerOne) - m.units| := by
  have cases := withDigits?_cases tie m exponent count
  dsimp only at cases
  obtain ⟨below, above⟩ := m.pointBelow_spec (exponent + 1 - count)
  have width := width_pos (exponent + 1 - count)
  have value (c : Nat) := value_gridPoint (exponent + 1 - count) count c
  generalize exponent + 1 - (count : Int) = grid at *
  generalize m.pointBelow grid = b at *
  have onGrid (c : Nat) : (gridPoint grid count c).value * unitsPerOne =
      c * ((10 : ℚ) ^ grid * unitsPerOne) := by rw [value, mul_assoc]
  generalize (10 : ℚ) ^ grid * unitsPerOne = w at *
  push_cast at cases
  have less : |b * w - m.units| = m.units - b * w := by
    rw [abs_sub_comm, abs_of_nonneg (by linarith)]
  have more : |(b + 1 : Nat) * w - m.units| = (b + 1) * w - m.units := by
    rw [abs_of_nonneg (by push_cast; linarith)]
    push_cast
    rfl
  rcases Nat.lt_or_ge b c with upper | lower
  · -- the next point lies between the magnitude and the given point
    have next : ((b + 1 : Nat) : ℚ) * w ≤ c * w :=
      mul_le_mul_of_nonneg_right (by exact_mod_cast upper) width.le
    push_cast at next
    have second : m.Takes ((b + 1) * w) := m.takes_units.of_between takes above.le next
    have far : (b + 1) * w - m.units ≤ |c * w - m.units| := by
      rw [abs_of_nonneg (by linarith)]
      linarith
    obtain ⟨-, -, no⟩ | ⟨found, -, near⟩ | ⟨found, -, -⟩ := cases
    · exact absurd second no
    · refine ⟨_, found, ?_⟩
      rw [onGrid, less]
      have := near second
      linarith
    · refine ⟨_, found, ?_⟩
      rw [onGrid, more]
      exact far
  · have last : (c : ℚ) * w ≤ b * w :=
      mul_le_mul_of_nonneg_right (by exact_mod_cast lower) width.le
    have first : m.Takes (b * w) := takes.of_between m.takes_units last below
    have far : m.units - b * w ≤ |c * w - m.units| := by
      rw [abs_sub_comm, abs_of_nonneg (by linarith)]
      linarith
    obtain ⟨-, no, -⟩ | ⟨found, -, -⟩ | ⟨found, -, near⟩ := cases
    · exact absurd first no
    · refine ⟨_, found, ?_⟩
      rw [onGrid, less]
      exact far
    · refine ⟨_, found, ?_⟩
      rw [onGrid, more]
      have := near first
      linarith

/-- Seventeen digits tell every magnitude from its neighbours. -/
theorem exists_takes_seventeen (positive : 0 < m.units) :
    ∃ c : Nat, m.Takes (c * ((10 : ℚ) ^ (m.decimalExponent + 1 - (17 : Nat)) * unitsPerOne)) := by
  obtain ⟨least, -⟩ := decimalExponent_spec positive
  have width := width_pos (m.decimalExponent + 1 - (17 : Nat))
  have narrow : 10 ^ 16 * ((10 : ℚ) ^ (m.decimalExponent + 1 - (17 : Nat)) * unitsPerOne) ≤
      m.units := by
    refine le_trans (le_of_eq ?_) least
    rw [show m.decimalExponent + 1 - (17 : Nat) = m.decimalExponent - 16 by omega,
      zpow_sub₀ (by norm_num), zpow_ofNat]
    ring
  obtain ⟨below, above⟩ := m.pointBelow_spec (m.decimalExponent + 1 - (17 : Nat))
  generalize m.pointBelow (m.decimalExponent + 1 - (17 : Nat)) = b at *
  generalize (10 : ℚ) ^ (m.decimalExponent + 1 - (17 : Nat)) * unitsPerOne = w at *
  have units : (m.units : ℚ) = m.significand * m.gap := by exact_mod_cast m.significand_mul_gap.symm
  have gap : (0 : ℚ) < m.gap := by exact_mod_cast m.gap_pos
  have few : (m.significand : ℚ) ≤ 2 ^ 53 := by exact_mod_cast m.significand_lt.le
  have most : (m.units : ℚ) ≤ 2 ^ 53 * m.gap :=
    units ▸ mul_le_mul_of_nonneg_right few gap.le
  by_cases near : (b + 1) * w < m.units + m.gap / 2
  · refine ⟨b + 1, ?_⟩
    push_cast
    exact ⟨fun _ => by linarith, by linarith, by linarith, fun _ => ⟨by linarith, by linarith⟩⟩
  · have notAtPower : ¬ m.IsAtPower := by
      intro atPower
      rw [atPower.1] at units
      push_cast at units
      linarith
    exact ⟨b, fun atPower => absurd atPower notAtPower, by linarith, by linarith,
      fun _ => ⟨by linarith, by linarith⟩⟩

/-- The decimal is found on the first grid that has a point for the magnitude. -/
theorem exists_shortest_eq (tie : Tie) (positive : 0 < m.units) :
    ∃ count, 0 < count ∧ count ≤ 17 ∧
      m.withDigits? tie m.decimalExponent count = some (m.shortest tie) ∧
      ∀ fewer, 0 < fewer → fewer < count →
        m.withDigits? tie m.decimalExponent fewer = none := by
  have nonzero : m.isZero = false := beq_eq_false_iff_ne.mpr (Nat.ne_of_gt positive)
  cases search : (List.range 17).findSome?
      fun n => m.withDigits? tie m.decimalExponent (n + 1) with
  | none =>
      obtain ⟨c, takes⟩ := exists_takes_seventeen positive
      obtain ⟨d, found, -⟩ := exists_withDigits?_eq tie takes
      rw [List.findSome?_eq_none_iff] at search
      cases found.symm.trans (search 16 (by decide))
  | some d =>
      have shortest : m.shortest tie = d := by
        unfold Magnitude.shortest
        rw [nonzero]
        dsimp only
        rw [search]
        rfl
      obtain ⟨n, inRange, found, missed⟩ := findSome?_range_eq_some search
      refine ⟨n + 1, Nat.succ_pos n, inRange, shortest ▸ found, ?_⟩
      intro fewer positive less
      have earlier := missed (fewer - 1) (by omega)
      rwa [Nat.sub_add_cancel positive] at earlier

/-- Between a decimal and the magnitude lies a point of the grid with as many digits. -/
theorem exists_gridPoint_between (positive : 0 < m.units) (d : Decimal) :
    ∃ c : Nat, let x := c * ((10 : ℚ) ^ (m.decimalExponent + 1 - d.digits.length) * unitsPerOne)
      x = d.value * unitsPerOne ∨ d.value * unitsPerOne ≤ x ∧ x ≤ m.units := by
  obtain ⟨least, -⟩ := decimalExponent_spec positive
  have some : 0 < d.digits.length := Nat.length_toDigits_pos
  rcases Int.lt_or_le d.exponent (m.decimalExponent + 1 - d.digits.length) with finer | coarser
  · have point : ((10 ^ (d.digits.length - 1) : Nat) : ℚ) *
        ((10 : ℚ) ^ (m.decimalExponent + 1 - d.digits.length) * unitsPerOne) =
        10 ^ m.decimalExponent * unitsPerOne := by
      rw [pow_mul_width, show m.decimalExponent + 1 - d.digits.length +
        (d.digits.length - 1 : Nat) = m.decimalExponent by omega]
    refine ⟨10 ^ (d.digits.length - 1), .inr ?_⟩
    rw [point]
    refine ⟨mul_le_mul_of_nonneg_right ?_ (Nat.cast_nonneg _), least⟩
    have below : (d.coefficient : ℚ) ≤ 10 ^ (d.digits.length : Int) := by
      rw [zpow_natCast]
      exact_mod_cast (lt_pow_length_toDigits d.coefficient).le
    calc d.value ≤ 10 ^ (d.digits.length : Int) * 10 ^ d.exponent :=
          mul_le_mul_of_nonneg_right below (zpow_nonneg (by norm_num) _)
      _ = 10 ^ ((d.digits.length : Int) + d.exponent) := (zpow_add₀ (by norm_num) _ _).symm
      _ ≤ 10 ^ m.decimalExponent := zpow_le_zpow_right₀ (by norm_num) (by omega)
  · obtain ⟨n, same⟩ := Int.eq_ofNat_of_zero_le (Int.sub_nonneg_of_le coarser)
    refine ⟨d.coefficient * 10 ^ n, .inl ?_⟩
    rw [Decimal.value, show d.exponent = m.decimalExponent + 1 - d.digits.length + n by omega,
      zpow_add₀ (by norm_num), zpow_natCast]
    push_cast
    ring

end Magnitude

/-- A decimal that reads back as a magnitude with the fewest digits, the nearest of those. -/
structure Decimal.IsShortest (d : Decimal) (m : Magnitude) : Prop where
  positive : 0 < d.coefficient
  reads : d.ReadsAs m
  fewest : ∀ other : Decimal, other.ReadsAs m → d.digits.length ≤ other.digits.length
  nearest : ∀ other : Decimal, other.ReadsAs m → d.digits.length = other.digits.length →
    |d.value * unitsPerOne - m.units| ≤ |other.value * unitsPerOne - m.units|

namespace Magnitude

variable {m : Magnitude}

theorem length_digits_gridPoint_le {grid : Int} {count c : Nat} (counted : 0 < count)
    (within : c ≤ 10 ^ count) : (gridPoint grid count c).digits.length ≤ count := by
  unfold gridPoint Decimal.digits
  split_ifs with power
  · exact (Nat.length_toDigits_le_iff (by decide) counted).mpr
      (Nat.one_lt_pow (Nat.ne_of_gt counted) (by decide))
  · exact (Nat.length_toDigits_le_iff (by decide) counted).mpr (Nat.lt_of_le_of_ne within power)

theorem coefficient_gridPoint_pos {grid : Int} {count c : Nat} (positive : 0 < c) :
    0 < (gridPoint grid count c).coefficient := by
  unfold gridPoint
  split_ifs
  · exact Nat.one_pos
  · exact positive

theorem pointBelow_window (positive : 0 < m.units) {count : Nat} (counted : 0 < count) :
    0 < m.pointBelow (m.decimalExponent + 1 - count) ∧
      m.pointBelow (m.decimalExponent + 1 - count) < 10 ^ count := by
  obtain ⟨least, greatest⟩ := decimalExponent_spec positive
  obtain ⟨below, above⟩ := m.pointBelow_spec (m.decimalExponent + 1 - count)
  have width := width_pos (m.decimalExponent + 1 - count)
  have units : (0 : ℚ) < unitsPerOne := by exact_mod_cast unitsPerOne_pos
  have narrow : (10 : ℚ) ^ (m.decimalExponent + 1 - count) * unitsPerOne ≤
      10 ^ m.decimalExponent * unitsPerOne :=
    mul_le_mul_of_nonneg_right (zpow_le_zpow_right₀ (by norm_num) (by omega)) units.le
  have whole : (10 : ℚ) ^ (m.decimalExponent + 1) * unitsPerOne =
      (10 ^ count : Nat) * (10 ^ (m.decimalExponent + 1 - count) * unitsPerOne) := by
    rw [pow_mul_width, Int.sub_add_cancel]
  rw [whole] at greatest
  generalize m.pointBelow (m.decimalExponent + 1 - count) = b at *
  generalize (10 : ℚ) ^ (m.decimalExponent + 1 - count) * unitsPerOne = w at *
  constructor
  · refine Nat.pos_of_ne_zero fun zero => ?_
    rw [zero, Nat.cast_zero, zero_add, one_mul] at above
    linarith
  · exact_mod_cast lt_of_mul_lt_mul_right (below.trans_lt greatest) width.le

theorem withDigits?_spec (positive : 0 < m.units) {tie : Tie} {count : Nat} (counted : 0 < count)
    {d : Decimal} (found : m.withDigits? tie m.decimalExponent count = some d) :
    0 < d.coefficient ∧ d.ReadsAs m ∧ d.digits.length ≤ count := by
  obtain ⟨low, high⟩ := pointBelow_window positive counted
  have cases := withDigits?_cases tie m m.decimalExponent count
  dsimp only at cases
  rw [found] at cases
  have reads {c : Nat}
      (takes : m.Takes (c * ((10 : ℚ) ^ (m.decimalExponent + 1 - count) * unitsPerOne))) :
      (gridPoint (m.decimalExponent + 1 - count) count c).ReadsAs m := by
    have point : (gridPoint (m.decimalExponent + 1 - count) count c).value * unitsPerOne =
        c * ((10 : ℚ) ^ (m.decimalExponent + 1 - count) * unitsPerOne) := by
      rw [value_gridPoint, mul_assoc]
    rw [Decimal.ReadsAs, point]
    exact takes
  obtain ⟨none, -⟩ | ⟨same, takes, -⟩ | ⟨same, takes, -⟩ := cases
  · cases none
  · cases same
    exact ⟨coefficient_gridPoint_pos low, reads takes, length_digits_gridPoint_le counted high.le⟩
  · cases same
    exact ⟨coefficient_gridPoint_pos (Nat.succ_pos _), reads takes,
      length_digits_gridPoint_le counted high⟩

theorem isShortest_shortest (tie : Tie) (positive : 0 < m.units) :
    (m.shortest tie).IsShortest m := by
  obtain ⟨count, counted, -, found, missed⟩ := exists_shortest_eq tie positive
  obtain ⟨nonzero, reads, atMost⟩ := withDigits?_spec positive counted found
  have between (other : Decimal) (readsOther : other.ReadsAs m) :
      ∃ d, m.withDigits? tie m.decimalExponent other.digits.length = some d ∧
        |d.value * unitsPerOne - m.units| ≤ |other.value * unitsPerOne - m.units| := by
    obtain ⟨c, point⟩ := exists_gridPoint_between positive other
    dsimp only at point
    rcases point with same | ⟨above, below⟩
    · have takes : m.Takes (other.value * unitsPerOne) := readsOther
      rw [← same] at takes ⊢
      exact exists_withDigits?_eq tie takes
    · have takes := Takes.of_between readsOther m.takes_units above below
      obtain ⟨d, foundOther, near⟩ := exists_withDigits?_eq tie takes
      refine ⟨d, foundOther, near.trans ?_⟩
      rw [abs_sub_comm, abs_of_nonneg (by linarith), abs_sub_comm, abs_of_nonneg (by linarith)]
      linarith
  have fewest (other : Decimal) (readsOther : other.ReadsAs m) :
      count ≤ other.digits.length := by
    obtain ⟨d, foundOther, -⟩ := between other readsOther
    refine Nat.le_of_not_lt fun fewer => ?_
    cases foundOther.symm.trans (missed _ Nat.length_toDigits_pos fewer)
  refine ⟨nonzero, reads, fun other readsOther => ?_, fun other readsOther same => ?_⟩
  · exact Nat.le_trans atMost (fewest other readsOther)
  · obtain ⟨d, foundOther, near⟩ := between other readsOther
    have := fewest other readsOther
    rw [show other.digits.length = count by omega, found, Option.some.injEq] at foundOther
    rwa [foundOther]

theorem length_digits_shortest_le (tie : Tie) (positive : 0 < m.units) :
    (m.shortest tie).digits.length ≤ 17 := by
  obtain ⟨count, counted, most, found, -⟩ := exists_shortest_eq tie positive
  exact Nat.le_trans (withDigits?_spec positive counted found).2.2 most

end Magnitude

/-- The last digit of a shortest decimal is needed. -/
theorem Decimal.IsShortest.mod_ne_zero {d : Decimal} {m : Magnitude} (shortest : d.IsShortest m) :
    d.coefficient % 10 ≠ 0 := by
  intro zero
  have positive := shortest.positive
  have less : (⟨d.coefficient / 10, d.exponent + 1⟩ : Decimal).value = d.value := by
    have whole : (d.coefficient : ℚ) = 10 * (d.coefficient / 10 : Nat) := by
      exact_mod_cast (Nat.mul_div_cancel' (Nat.dvd_of_mod_eq_zero zero)).symm
    rw [value, value, whole, zpow_add_one₀ (by norm_num)]
    ring
  have fewest := shortest.fewest ⟨d.coefficient / 10, d.exponent + 1⟩ (by
    rw [ReadsAs, less]
    exact shortest.reads)
  rw [digits, Nat.toDigits_of_base_le (by decide) (by omega), List.length_append] at fewest
  exact Nat.not_succ_le_self _ fewest

end Criteria
