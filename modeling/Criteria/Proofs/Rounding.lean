import Mathlib.Data.Nat.Log
import Mathlib.Data.Rat.Floor
import Mathlib.Tactic.Linarith
import Mathlib.Tactic.Positivity
import Mathlib.Tactic.SplitIfs
import Criteria.Binary64.Shortest

set_option autoImplicit false

/-
Rounding to doubles. The counts of units that round to a magnitude make up an interval
around it, which `roundsTo` describes by its ends and `nearestUnits` by computing the
nearest count.
-/
namespace Criteria

/-- The rounded quotient is at most half away, and an odd one is nearer than that. -/
theorem roundHalfEven_eq_iff {p q k : Nat} (positive : 0 < q) :
    roundHalfEven p q = k ↔
      2 * (k * q) ≤ 2 * p + q ∧ 2 * p ≤ 2 * (k * q) + q ∧
        (k % 2 = 1 → 2 * (k * q) < 2 * p + q ∧ 2 * p < 2 * (k * q) + q) := by
  have division : p / q * q + p % q = p := Nat.div_add_mod' p q
  have rest : p % q < q := Nat.mod_lt p positive
  unfold roundHalfEven
  generalize p / q = quotient at division ⊢
  generalize p % q = remainder at division rest ⊢
  dsimp only
  have more := Nat.add_one_mul quotient q
  rcases Nat.lt_or_ge k quotient with below | atLeast
  · have := Nat.mul_le_mul_right q (show k + 1 ≤ quotient from below)
    have := Nat.add_one_mul k q
    split_ifs <;> omega
  · rcases Nat.lt_or_ge (quotient + 1) k with above | atMost
    · have := Nat.mul_le_mul_right q (show quotient + 1 + 1 ≤ k from above)
      have := Nat.add_one_mul (quotient + 1) q
      split_ifs <;> omega
    · obtain rfl | rfl : k = quotient ∨ k = quotient + 1 := by omega
      · split_ifs <;> omega
      · split_ifs <;> omega

theorem roundHalfEven_mul (k : Nat) {q : Nat} (positive : 0 < q) :
    roundHalfEven (k * q) q = k := by
  rw [roundHalfEven_eq_iff positive]
  omega

theorem roundHalfEven_mono {p q p' q' : Nat} (positive : 0 < q) (positive' : 0 < q')
    (le : p * q' ≤ p' * q) : roundHalfEven p q ≤ roundHalfEven p' q' := by
  obtain ⟨low, -, odd⟩ := (roundHalfEven_eq_iff positive (p := p)).mp rfl
  obtain ⟨-, high, odd'⟩ := (roundHalfEven_eq_iff positive' (p := p')).mp rfl
  generalize roundHalfEven p q = k at low odd ⊢
  generalize roundHalfEven p' q' = k' at high odd' ⊢
  by_contra less
  -- the greater of two neighbours is reached from one half only, and one of them is odd
  have strict : 2 * (k * q) < 2 * p + q ∨ 2 * p' < 2 * (k' * q') + q' ∨
      k' + 1 < k := by
    rcases Nat.lt_or_ge (k' + 1) k with far | next
    · exact .inr (.inr far)
    · have : k % 2 = 1 ∨ k' % 2 = 1 := by omega
      rcases this with isOdd | isOdd
      · exact .inl (odd isOdd).1
      · exact .inr (.inl (odd' isOdd).2)
  have scaled : (2 * k) * (q * q') < (2 * k' + 2) * (q * q') ∨ k' + 1 < k := by
    rcases strict with less | less | far
    · refine .inl ?_
      nlinarith [Nat.mul_lt_mul_of_pos_right less positive', Nat.mul_le_mul_right q high]
    · refine .inl ?_
      nlinarith [Nat.mul_le_mul_right q' low, Nat.mul_lt_mul_of_pos_right less positive]
    · exact .inr far
  have spread := Nat.mul_pos positive positive'
  rcases scaled with less | far
  · have := Nat.lt_of_mul_lt_mul_right less
    omega
  · nlinarith [Nat.mul_le_mul_right q' low, Nat.mul_le_mul_right q high,
      Nat.mul_le_mul_right (q * q') far]

theorem roundHalfEven_le_of_le {p q k : Nat} (positive : 0 < q) (le : p ≤ k * q) :
    roundHalfEven p q ≤ k := by
  have := roundHalfEven_mono positive positive (Nat.mul_le_mul_right q le)
  rwa [roundHalfEven_mul k positive] at this

theorem le_roundHalfEven_of_le {p q k : Nat} (positive : 0 < q) (le : k * q ≤ p) :
    k ≤ roundHalfEven p q := by
  have := roundHalfEven_mono positive positive (Nat.mul_le_mul_right q le)
  rwa [roundHalfEven_mul k positive] at this

/-- The distance of the counts that are tried for `p / q`. -/
def stepAt (p q : Nat) : Nat := 2 ^ ((p / q).log2 - 52)

theorem stepAt_pos (p q : Nat) : 0 < stepAt p q := Nat.two_pow_pos _

theorem nearestUnits_eq (p q : Nat) :
    nearestUnits p q = roundHalfEven p (stepAt p q * q) * stepAt p q := by
  rw [nearestUnits, stepAt, Nat.mul_comm q]

theorem lt_of_stepAt {p q : Nat} (positive : 0 < q) :
    p < 2 ^ (53 : Nat) * (stepAt p q * q) := by
  have below : p / q < 2 ^ (53 : Nat) * stepAt p q := by
    have : p / q < 2 ^ ((p / q).log2 + 1) := Nat.lt_log2_self
    refine Nat.lt_of_lt_of_le this ?_
    rw [stepAt, ← Nat.pow_add]
    exact Nat.pow_le_pow_right (by decide) (by omega)
  rwa [Nat.div_lt_iff_lt_mul positive, Nat.mul_assoc] at below

theorem le_of_stepAt {p q : Nat} (positive : 0 < q) (coarse : 1 < stepAt p q) :
    2 ^ (52 : Nat) * (stepAt p q * q) ≤ p := by
  have exponent : 52 < (p / q).log2 := by
    refine Nat.lt_of_not_le fun small => ?_
    rw [stepAt, Nat.sub_eq_zero_of_le small] at coarse
    omega
  have nonzero : p / q ≠ 0 := by
    intro zero
    rw [zero, Nat.log2_zero] at exponent
    omega
  have above : 2 ^ (52 : Nat) * stepAt p q ≤ p / q := by
    rw [stepAt, ← Nat.pow_add, show 52 + ((p / q).log2 - 52) = (p / q).log2 by omega]
    exact Nat.log2_self_le nonzero
  rwa [Nat.le_div_iff_mul_le positive, Nat.mul_assoc] at above

namespace Magnitude

/-- The distance to the next greater magnitude. -/
def gap (m : Magnitude) : Nat := 2 ^ (m.units.log2 - 52)

def significand (m : Magnitude) : Nat := m.units / m.gap

theorem gap_pos (m : Magnitude) : 0 < m.gap := Nat.two_pow_pos _

theorem gap_eq_stepAt (m : Magnitude) : m.gap = stepAt m.units 1 := by
  rw [gap, stepAt, Nat.div_one]

theorem significand_mul_gap (m : Magnitude) : m.significand * m.gap = m.units :=
  Nat.div_mul_cancel m.fits.2

theorem significand_lt (m : Magnitude) : m.significand < 2 ^ (53 : Nat) := by
  have below := lt_of_stepAt (p := m.units) Nat.one_pos
  rw [← gap_eq_stepAt, Nat.mul_one] at below
  exact (Nat.div_lt_iff_lt_mul m.gap_pos).mpr below

theorem le_significand {m : Magnitude} (coarse : 1 < m.gap) :
    2 ^ (52 : Nat) ≤ m.significand := by
  have above := le_of_stepAt (p := m.units) Nat.one_pos (by rwa [← gap_eq_stepAt])
  rw [← gap_eq_stepAt, Nat.mul_one] at above
  exact (Nat.le_div_iff_mul_le m.gap_pos).mpr above

/-- Below a power of two the distance to the next magnitude is half as wide. -/
def IsAtPower (m : Magnitude) : Prop := m.significand = 2 ^ (52 : Nat) ∧ 1 < m.gap

theorem isAtPower_iff (m : Magnitude) :
    m.IsAtPower ↔ m.units = 2 ^ (52 : Nat) * m.gap ∧ 1 < m.gap := by
  rw [IsAtPower, ← m.significand_mul_gap, Nat.mul_left_inj (Nat.ne_of_gt m.gap_pos)]

theorem two_pow_cases {a b : Nat} (below : (2 : Nat) ^ a < 2 ^ b) :
    (2 : Nat) ^ b = 2 * 2 ^ a ∨ 4 * 2 ^ a ≤ (2 : Nat) ^ b := by
  have less : a < b := (Nat.pow_lt_pow_iff_right (by decide)).mp below
  rcases Nat.eq_or_lt_of_le (Nat.succ_le_of_lt less) with next | far
  · exact .inl (by rw [← next, Nat.pow_succ'])
  · refine .inr (Nat.le_trans (Nat.le_of_eq ?_) (Nat.pow_le_pow_right (by decide) far))
    rw [Nat.pow_succ, Nat.pow_succ]
    omega

theorem roundsTo_iff (m : Magnitude) (p q : Nat) :
    m.roundsTo p q ↔
      (m.IsAtPower → 4 * (m.units * q) ≤ 4 * p + m.gap * q) ∧
      2 * (m.units * q) ≤ 2 * p + m.gap * q ∧ 2 * p ≤ 2 * (m.units * q) + m.gap * q ∧
        (m.significand % 2 = 1 →
          2 * (m.units * q) < 2 * p + m.gap * q ∧ 2 * p < 2 * (m.units * q) + m.gap * q) := by
  unfold roundsTo
  dsimp only
  rw [← gap, ← significand]
  by_cases atPower : m.IsAtPower
  · have even : m.significand % 2 = 0 := by rw [atPower.1]
    rw [if_pos ((isAtPower_iff m).mp atPower), if_pos even, Bool.and_eq_true, decide_eq_true_eq,
      decide_eq_true_eq, Nat.sub_mul, Nat.add_mul, Nat.mul_assoc, Nat.mul_assoc]
    simp only [atPower, even, true_implies]
    omega
  · rw [if_neg fun isPower => atPower ((isAtPower_iff m).mpr isPower)]
    simp only [atPower, false_implies, true_and]
    have wide (odd : m.significand % 2 ≠ 0) : m.gap * q ≤ m.units * q := by
      refine Nat.mul_le_mul_right q ?_
      rw [← m.significand_mul_gap]
      exact Nat.le_mul_of_pos_left _ (by omega)
    split_ifs with even <;>
      rw [Bool.and_eq_true, decide_eq_true_eq, decide_eq_true_eq, Nat.sub_mul, Nat.add_mul,
        Nat.mul_assoc, Nat.mul_assoc] <;> omega

/-- The interval of a magnitude holds what rounds to it. -/
theorem nearestUnits_eq_iff (m : Magnitude) {p q : Nat} (pos : 0 < q) :
    nearestUnits p q = m.units ↔ m.roundsTo p q := by
  have stepPos := stepAt_pos p q
  have spread : 0 < stepAt p q * q := Nat.mul_pos stepPos pos
  have below := lt_of_stepAt (p := p) pos
  have above := le_of_stepAt (p := p) pos
  have few := m.significand_lt
  have many := le_significand (m := m)
  have gapPos := m.gap_pos
  rw [nearestUnits_eq, roundsTo_iff, ← m.significand_mul_gap]
  rcases Nat.lt_trichotomy (stepAt p q) m.gap with finer | same | coarser
  · -- a finer step is taken right below a power of two only, and is half the gap there
    have halves : m.gap = 2 * stepAt p q ∨ 4 * stepAt p q ≤ m.gap := two_pow_cases finer
    have atMost : roundHalfEven p (stepAt p q * q) ≤ 2 ^ (53 : Nat) :=
      roundHalfEven_le_of_le spread (Nat.le_of_lt below)
    have atLeast : 2 ^ (52 : Nat) ≤ m.significand := many (by omega)
    have twice (half : m.gap = 2 * stepAt p q) : m.gap * q = 2 * (stepAt p q * q) := by
      rw [half, Nat.mul_assoc]
    constructor
    · intro rounded
      have half : m.gap = 2 * stepAt p q := by
        refine halves.resolve_right fun less => ?_
        have := Nat.mul_le_mul_right (stepAt p q) atMost
        have := Nat.mul_le_mul atLeast less
        omega
      have double : roundHalfEven p (stepAt p q * q) = m.significand * 2 := by
        rwa [half, ← Nat.mul_assoc, Nat.mul_left_inj (Nat.ne_of_gt stepPos)] at rounded
      have power : m.significand = 2 ^ (52 : Nat) := by omega
      obtain ⟨low, high, -⟩ := (roundHalfEven_eq_iff spread).mp double
      rw [Nat.mul_assoc, twice half, power]
      rw [power] at low high
      omega
    · rintro ⟨half, low, -⟩
      rw [Nat.mul_assoc] at half low
      have power : m.significand = 2 ^ (52 : Nat) := by
        refine Nat.le_antisymm (Nat.le_of_not_lt fun more => ?_) atLeast
        have := Nat.mul_le_mul_right (m.gap * q) (show 2 ^ (52 : Nat) + 1 ≤ m.significand from more)
        have := Nat.mul_le_mul_right q (show 2 * stepAt p q ≤ m.gap by omega)
        rw [Nat.mul_assoc] at this
        omega
      have near := half ⟨power, by omega⟩
      rw [power] at near
      have double : m.gap = 2 * stepAt p q := by
        refine halves.resolve_right fun less => ?_
        have := Nat.mul_le_mul_right q less
        rw [Nat.mul_assoc] at this
        omega
      have top : roundHalfEven p (stepAt p q * q) = 2 ^ (53 : Nat) := by
        have := twice double
        rw [roundHalfEven_eq_iff spread]
        omega
      rw [top, power, double]
      omega
  · rw [← same, Nat.mul_left_inj (Nat.ne_of_gt stepPos), roundHalfEven_eq_iff spread,
      Nat.mul_assoc]
    rw [← same] at many
    refine ⟨fun near => ⟨fun atPower => ?_, near⟩, fun near => near.2⟩
    obtain ⟨power, coarse⟩ := atPower
    have := above (same ▸ coarse)
    rw [power]
    omega
  · -- a coarser step begins above all that the gap is for
    have wide : 2 * m.gap ≤ stepAt p q := by
      rcases two_pow_cases coarser with half | less
      · exact Nat.le_of_eq half.symm
      · exact Nat.le_trans (Nat.mul_le_mul_right _ (by decide)) less
    have far := above (by omega)
    constructor
    · intro rounded
      have atLeast := Nat.mul_le_mul_right (stepAt p q) (le_roundHalfEven_of_le spread far)
      have := Nat.mul_lt_mul_of_pos_right few gapPos
      omega
    · rintro ⟨-, -, high, -⟩
      have top := Nat.mul_le_mul_right (m.gap * q) (Nat.succ_le_of_lt few)
      have spreadWide := Nat.mul_le_mul_right q wide
      have := Nat.mul_pos gapPos pos
      rw [Nat.succ_mul] at top
      rw [Nat.mul_assoc] at high spreadWide
      omega

theorem eq_of_units_eq {a b : Magnitude} (same : a.units = b.units) : a = b := by
  cases a
  cases b
  cases same
  rfl

theorem nearest?_eq_some_iff (m : Magnitude) {p q : Nat} (pos : 0 < q) :
    nearest? p q = some m ↔ m.roundsTo p q := by
  rw [← m.nearestUnits_eq_iff pos, nearest?]
  split_ifs with finite
  · rw [Option.some.injEq]
    exact ⟨fun same => same ▸ rfl, fun same => eq_of_units_eq same⟩
  · refine iff_of_false (fun same => by cases same) fun same => ?_
    rw [same] at finite
    exact finite m.fits.1

/-- Whether the magnitude is the one nearest to a number of units. -/
def Takes (m : Magnitude) (x : ℚ) : Prop :=
  (m.IsAtPower → m.units - (m.gap : ℚ) / 4 ≤ x) ∧
  m.units - (m.gap : ℚ) / 2 ≤ x ∧ x ≤ m.units + (m.gap : ℚ) / 2 ∧
    (m.significand % 2 = 1 → m.units - (m.gap : ℚ) / 2 < x ∧ x < m.units + (m.gap : ℚ) / 2)

theorem roundsTo_iff_takes (m : Magnitude) (p : Nat) {q : Nat} (pos : 0 < q) :
    m.roundsTo p q ↔ m.Takes (p / q) := by
  have posQ : (0 : ℚ) < q := by exact_mod_cast pos
  rw [roundsTo_iff, Takes]
  refine and_congr (imp_congr_right fun _ => ?_) (and_congr ?_ (and_congr ?_
    (imp_congr_right fun _ => and_congr ?_ ?_)))
  · rw [← Nat.cast_le (α := ℚ), le_div_iff₀ posQ]
    push_cast
    constructor <;> intro near <;> linarith
  · rw [← Nat.cast_le (α := ℚ), le_div_iff₀ posQ]
    push_cast
    constructor <;> intro near <;> linarith
  · rw [← Nat.cast_le (α := ℚ), div_le_iff₀ posQ]
    push_cast
    constructor <;> intro near <;> linarith
  · rw [← Nat.cast_lt (α := ℚ), lt_div_iff₀ posQ]
    push_cast
    constructor <;> intro near <;> linarith
  · rw [← Nat.cast_lt (α := ℚ), div_lt_iff₀ posQ]
    push_cast
    constructor <;> intro near <;> linarith

theorem Takes.of_between {m : Magnitude} {x y z : ℚ} (low : m.Takes x) (high : m.Takes z)
    (above : x ≤ y) (below : y ≤ z) : m.Takes y := by
  obtain ⟨power, least, -, odd⟩ := low
  obtain ⟨-, -, greatest, odd'⟩ := high
  exact ⟨fun atPower => (power atPower).trans above, least.trans above, below.trans greatest,
    fun isOdd => ⟨(odd isOdd).1.trans_le above, below.trans_lt (odd' isOdd).2⟩⟩

theorem units_le (m : Magnitude) : (m.units : ℚ) ≤ 2 ^ (1024 : Nat) * unitsPerOne := by
  have below (a b : Nat) (log : m.units.log2 < a + b) : m.units ≤ 2 ^ a * 2 ^ b := by
    rw [← Nat.pow_add]
    exact (Nat.lt_log2_self.trans_le (Nat.pow_le_pow_right (by decide) log)).le
  have whole : m.units ≤ 2 ^ (1024 : Nat) * unitsPerOne := by
    rw [unitsPerOne]
    exact below 1024 1074 m.fits.1
  have := Nat.cast_le (α := ℚ).mpr whole
  simpa only [Nat.cast_mul, Nat.cast_pow, Nat.cast_ofNat] using this

theorem gap_le_units {m : Magnitude} (positive : 0 < m.units) : m.gap ≤ m.units := by
  rw [← m.significand_mul_gap] at positive ⊢
  exact Nat.le_mul_of_pos_left _ (Nat.pos_of_mul_pos_right positive)

/-- What rounds to a magnitude is within a factor of two of it. -/
theorem Takes.within_twice {m : Magnitude} {x : ℚ} (takes : m.Takes x) (positive : 0 < m.units) :
    (m.units : ℚ) / 2 ≤ x ∧ x ≤ 2 * m.units := by
  have gap : (m.gap : ℚ) ≤ m.units := by exact_mod_cast gap_le_units positive
  obtain ⟨-, low, high, -⟩ := takes
  constructor <;> linarith

/-- A magnitude is half a gap away from what rounds to it at most. -/
theorem Takes.error {m : Magnitude} {x : ℚ} (takes : m.Takes x) :
    |m.units - x| ≤ (m.gap : ℚ) / 2 := by
  obtain ⟨-, low, high, -⟩ := takes
  exact abs_le.mpr ⟨by linarith, by linarith⟩

/-- The gap is a small part of the magnitude, or a single unit. -/
theorem gap_le (m : Magnitude) : (m.gap : ℚ) ≤ m.units / 2 ^ 52 + 1 := by
  have units : (0 : ℚ) ≤ m.units := Nat.cast_nonneg _
  rcases Nat.lt_or_ge 1 m.gap with coarse | single
  · have wide := Nat.mul_le_mul_right m.gap (le_significand coarse)
    rw [significand_mul_gap] at wide
    have : (2 : ℚ) ^ 52 * m.gap ≤ m.units := by exact_mod_cast wide
    linarith
  · have : (m.gap : ℚ) ≤ 1 := by exact_mod_cast single
    linarith

theorem gap_le_of_normal {m : Magnitude} (normal : 2 ^ (52 : Nat) ≤ m.units) :
    (m.gap : ℚ) ≤ m.units / 2 ^ 52 := by
  have units : (2 : ℚ) ^ 52 ≤ m.units := by exact_mod_cast normal
  rcases Nat.lt_or_ge 1 m.gap with coarse | single
  · have wide := Nat.mul_le_mul_right m.gap (le_significand coarse)
    rw [significand_mul_gap] at wide
    have : (2 : ℚ) ^ 52 * m.gap ≤ m.units := by exact_mod_cast wide
    linarith
  · have : (m.gap : ℚ) ≤ 1 := by exact_mod_cast single
    linarith

theorem takes_units (m : Magnitude) : m.Takes m.units := by
  have : (0 : ℚ) < m.gap := by exact_mod_cast m.gap_pos
  exact ⟨fun _ => by linarith, by linarith, by linarith, fun _ => ⟨by linarith, by linarith⟩⟩

theorem nearest?_eq_some_iff_takes (m : Magnitude) (p : Nat) {q : Nat} (pos : 0 < q) :
    nearest? p q = some m ↔ m.Takes (p / q) := by
  rw [m.nearest?_eq_some_iff pos, m.roundsTo_iff_takes p pos]

end Magnitude

theorem log2_mono {a b : Nat} (le : a ≤ b) : a.log2 ≤ b.log2 := by
  rw [Nat.log2_eq_log_two, Nat.log2_eq_log_two]
  exact Nat.log_mono_right le

theorem nearestUnits_mono {p q p' q' : Nat} (pos : 0 < q) (pos' : 0 < q')
    (le : p * q' ≤ p' * q) : nearestUnits p q ≤ nearestUnits p' q' := by
  have quotients : p / q ≤ p' / q' := by
    refine (Nat.le_div_iff_mul_le pos').mpr (Nat.le_of_mul_le_mul_right ?_ pos)
    calc p / q * q' * q = p / q * q * q' := Nat.mul_right_comm _ _ _
      _ ≤ p * q' := Nat.mul_le_mul_right q' (Nat.div_mul_le_self p q)
      _ ≤ p' * q := le
  have exponents : (p / q).log2 - 52 ≤ (p' / q').log2 - 52 :=
    Nat.sub_le_sub_right (log2_mono quotients) 52
  have spread := Nat.mul_pos (stepAt_pos p q) pos
  have spread' := Nat.mul_pos (stepAt_pos p' q') pos'
  rw [nearestUnits_eq, nearestUnits_eq]
  rcases Nat.eq_or_lt_of_le exponents with same | finer
  · have step : stepAt p q = stepAt p' q' := by rw [stepAt, same, stepAt]
    refine Nat.mul_le_mul (roundHalfEven_mono spread spread' ?_) (Nat.le_of_eq step)
    rw [step, Nat.mul_left_comm, Nat.mul_left_comm p']
    exact Nat.mul_le_mul_left _ le
  · have wide : 2 * stepAt p q ≤ stepAt p' q' := by
      rw [stepAt, ← Nat.pow_succ']
      exact Nat.pow_le_pow_right (by decide) finer
    have coarse : 1 < stepAt p' q' := by
      have := stepAt_pos p q
      omega
    have low := roundHalfEven_le_of_le spread (Nat.le_of_lt (lt_of_stepAt (p := p) pos))
    have high := le_roundHalfEven_of_le spread' (le_of_stepAt pos' coarse)
    calc roundHalfEven p (stepAt p q * q) * stepAt p q
        ≤ 2 ^ (53 : Nat) * stepAt p q := Nat.mul_le_mul_right _ low
      _ ≤ 2 ^ (52 : Nat) * stepAt p' q' := by omega
      _ ≤ _ := Nat.mul_le_mul_right _ high

namespace Magnitude

theorem takes_iff_nearestUnits {m : Magnitude} {x : ℚ} (nonneg : 0 ≤ x) :
    m.Takes x ↔ nearestUnits x.num.toNat x.den = m.units := by
  have whole : ((x.num.toNat : Int) : ℚ) / x.den = x := by
    rw [Int.toNat_of_nonneg (Rat.num_nonneg.mpr nonneg), Rat.num_div_den]
  rw [m.nearestUnits_eq_iff x.den_pos, m.roundsTo_iff_takes _ x.den_pos]
  exact iff_of_eq (congrArg m.Takes whole.symm)

/-- Of two numbers the greater is rounded to no smaller magnitude. -/
theorem Takes.units_le {m n : Magnitude} {x y : ℚ} (first : m.Takes x) (second : n.Takes y)
    (nonneg : 0 ≤ x) (le : x ≤ y) : m.units ≤ n.units := by
  rw [← (takes_iff_nearestUnits nonneg).mp first,
    ← (takes_iff_nearestUnits (nonneg.trans le)).mp second]
  refine nearestUnits_mono x.den_pos y.den_pos ?_
  have order : x.num * y.den ≤ y.num * x.den := (Rat.le_iff x y).mp le
  zify
  rwa [Int.toNat_of_nonneg (Rat.num_nonneg.mpr nonneg),
    Int.toNat_of_nonneg (Rat.num_nonneg.mpr (nonneg.trans le))]

theorem Takes.unique {m n : Magnitude} {x : ℚ} (first : m.Takes x) (second : n.Takes x)
    (nonneg : 0 ≤ x) : m = n :=
  eq_of_units_eq (Nat.le_antisymm (first.units_le second nonneg le_rfl)
    (second.units_le first nonneg le_rfl))

end Magnitude

end Criteria
