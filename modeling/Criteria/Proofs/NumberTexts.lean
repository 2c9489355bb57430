import Criteria.Condition
import Criteria.Proofs.DecimalTexts

set_option autoImplicit false

/-
Numbers in conditions. The notation is chosen by comparing a number with the doubles of 10⁻⁶
and 10²¹, which comes to the same as looking at the exponent of its first digit.
-/
namespace Criteria

/-- The double of a power of ten. -/
def boundary (exponent : Int) : Magnitude := (Magnitude.ofDecimal? 1 exponent).getD .zero

/-- Whether a power of ten is written as itself. -/
structure IsBoundary (exponent : Int) : Prop where
  reads : (⟨1, exponent⟩ : Decimal).ReadsAs (boundary exponent)
  shortest : (boundary exponent).shortest .up = ⟨1, exponent⟩

theorem isBoundary_of_shortest {exponent : Int}
    (finite : (Magnitude.ofDecimal? 1 exponent).isSome)
    (shortest : (boundary exponent).shortest .up = ⟨1, exponent⟩) : IsBoundary exponent := by
  obtain ⟨m, found⟩ := Option.isSome_iff_exists.mp finite
  refine ⟨Magnitude.ofDecimal?_eq_some_iff.mp ?_, shortest⟩
  rw [boundary, found, Option.getD_some]

theorem isBoundary_least : IsBoundary (-6) :=
  isBoundary_of_shortest (by decide +kernel) (by decide +kernel)

theorem isBoundary_greatest : IsBoundary 21 :=
  isBoundary_of_shortest (by decide +kernel) (by decide +kernel)

/-- A number is at least a boundary where its first digit is at or in front of the place of
the boundary's. -/
theorem IsBoundary.units_le_iff {exponent : Int} (isBoundary : IsBoundary exponent)
    {m : Magnitude} (positive : 0 < m.units) :
    (boundary exponent).units ≤ m.units ↔ exponent ≤ (m.shortest .up).leading := by
  have shortest := m.isShortest_shortest .up positive
  have units : (0 : ℚ) ≤ unitsPerOne := Nat.cast_nonneg _
  obtain ⟨low, high⟩ := Decimal.value_window shortest.positive
  have own : (⟨1, exponent⟩ : Decimal).value = 10 ^ exponent := by
    rw [Decimal.value, Nat.cast_one, one_mul]
  have reads := isBoundary.reads
  rw [Decimal.ReadsAs, own] at reads
  constructor
  · intro le
    by_contra less
    have below : (m.shortest .up).value ≤ 10 ^ exponent :=
      high.le.trans (zpow_le_zpow_right₀ (by norm_num) (by omega))
    have most := shortest.reads.units_le reads
      (mul_nonneg ((zpow_nonneg (by norm_num) _).trans low) units)
      (mul_le_mul_of_nonneg_right below units)
    have same : m = boundary exponent := Magnitude.eq_of_units_eq (Nat.le_antisymm most le)
    have place : (⟨1, exponent⟩ : Decimal).leading = exponent := by
      rw [Decimal.leading, Decimal.digits, Nat.toDigits_of_lt_base (show 1 < 10 by decide)]
      exact Int.add_zero exponent
    rw [same, isBoundary.shortest, place] at less
    exact less (Int.le_refl _)
  · intro le
    have above : (10 : ℚ) ^ exponent ≤ (m.shortest .up).value :=
      (zpow_le_zpow_right₀ (by norm_num) le).trans low
    exact reads.units_le shortest.reads (mul_nonneg (zpow_nonneg (by norm_num) _) units)
      (mul_le_mul_of_nonneg_right above units)

theorem isPositional_conditionStyle {m : Magnitude} (positive : 0 < m.units) (d : Decimal) :
    conditionStyle.isPositional m d ↔
      -6 ≤ (m.shortest .up).leading ∧ (m.shortest .up).leading ≤ 20 := by
  have low := isBoundary_least.units_le_iff positive
  have high := isBoundary_greatest.units_le_iff positive
  have nonzero : m.isZero = false := beq_eq_false_iff_ne.mpr (Nat.ne_of_gt positive)
  have choice : conditionStyle.isPositional m d =
      (m.isZero || ((boundary (-6)).units ≤ m.units && m.units < (boundary 21).units)) := rfl
  rw [choice, nonzero, Bool.false_or, Bool.and_eq_true, decide_eq_true_eq, decide_eq_true_eq]
  omega

/-- The digits of a number in conditions, without its sign. -/
theorem magnitude_conditionStyle {m : Magnitude} (positive : 0 < m.units) :
    conditionStyle.magnitude m =
      if -6 ≤ (m.shortest .up).leading ∧ (m.shortest .up).leading ≤ 20 then
        (m.shortest .up).positional
      else (m.shortest .up).scientific := by
  unfold NumberStyle.magnitude
  dsimp only
  have choice := isPositional_conditionStyle positive (m.shortest .up)
  have mark : conditionStyle.wholeMark = [] := rfl
  have tie : conditionStyle.tie = .up := rfl
  rw [tie, mark, List.append_nil, ite_self]
  exact if_congr choice rfl rfl

theorem finite_conditionStyle (negative : Bool) {m : Magnitude} (positive : 0 < m.units) :
    conditionStyle.finite negative m =
      if negative then '-' :: conditionStyle.magnitude m else conditionStyle.magnitude m := by
  have nonzero : m.isZero = false := beq_eq_false_iff_ne.mpr (Nat.ne_of_gt positive)
  rw [NumberStyle.finite, nonzero]
  cases negative <;> rfl

theorem finite_conditionStyle_zero (negative : Bool) {m : Magnitude} (zero : m.units = 0) :
    conditionStyle.finite negative m = ['0'] := by
  obtain rfl : m = .zero := Magnitude.eq_of_units_eq zero
  cases negative <;> decide

theorem toLower_of_isDigit {c : Char} (digit : c.isDigit) : c.toLower = c := by
  simp only [Char.isDigit, Bool.and_eq_true, decide_eq_true_eq] at digit
  refine dif_neg fun upper => ?_
  exact absurd (UInt32.le_trans upper.1 digit.2) (by decide)

/-- A decimal of a double is read as the double. -/
theorem Binary64.ofUnsigned?_eq {c : Char} {cs : List Char} {d : Decimal} {m : Magnitude}
    (digit : c.isDigit) (read : Decimal.ofChars? (c :: cs) = some d) (reads : d.ReadsAs m)
    (positive : 0 < m.units) (negative : Bool) :
    ofUnsigned? negative (c :: cs) = some (.finite negative m) := by
  have noWord (letter : Char) (word : List Char) (notDigit : letter.isDigit = false) :
      (c :: cs).map Char.toLower ≠ letter :: word := by
    intro same
    have lower : c.toLower = letter := (List.cons.inj same).1
    rw [toLower_of_isDigit digit] at lower
    rw [← lower, digit] at notDigit
    cases notDigit
  unfold ofUnsigned?
  dsimp only
  rw [if_neg (noWord _ _ rfl), if_neg (not_or.mpr ⟨noWord _ _ rfl, noWord _ _ rfl⟩), read,
    Option.map_some, Decimal.magnitude?_eq reads positive]
  rfl

theorem Binary64.ofText?_signed {c : Char} {cs : List Char} {d : Decimal} {m : Magnitude}
    (digit : c.isDigit) (read : Decimal.ofChars? (c :: cs) = some d) (reads : d.ReadsAs m)
    (positive : 0 < m.units) (negative : Bool) :
    ofText? (String.ofList (if negative then '-' :: c :: cs else c :: cs)) =
      some (.finite negative m) := by
  unfold ofText?
  rw [String.toList_ofList]
  cases negative with
  | true => exact ofUnsigned?_eq digit read reads positive true
  | false =>
      rw [if_neg Bool.false_ne_true]
      split
      · rename_i sign
        cases (List.cons.inj sign).1
        cases digit
      · rename_i sign
        cases (List.cons.inj sign).1
        cases digit
      · exact ofUnsigned?_eq digit read reads positive false

/-- The texts of positive numbers, without their sign, are read as decimals of theirs. -/
theorem exists_magnitude_conditionStyle {m : Magnitude} (positive : 0 < m.units) :
    ∃ c cs d, conditionStyle.magnitude m = c :: cs ∧ c.isDigit ∧
      Decimal.ofChars? (c :: cs) = some d ∧ d.ReadsAs m := by
  have shortest := m.isShortest_shortest .up positive
  have written := magnitude_conditionStyle positive
  generalize m.shortest .up = d at shortest written
  split_ifs at written
  · have expansion := Decimal.isExpansion shortest.mod_ne_zero
    obtain ⟨e, read, same⟩ := expansion.exists_ofChars?_eq
    obtain ⟨c, more, isWhole⟩ := List.exists_cons_of_ne_nil expansion.nonempty
    have digits := expansion.digits
    rw [Decimal.positional_eq, isWhole] at written
    rw [isWhole] at read digits
    exact ⟨c, more ++ pointed d.decimals, e, written, (List.forall_mem_cons.mp digits).1,
      read, shortest.reads.congr same⟩
  · obtain ⟨c, more, shape, digit, -⟩ := JsonNumber.exists_toDigits_eq_cons d.coefficient
    have read := d.ofChars?_scientific
    rw [Decimal.scientific_eq shape] at read written
    exact ⟨c, _, d, written, digit, read, shortest.reads⟩

theorem numberText_zero (negative : Bool) {m : Magnitude} (zero : m.units = 0) :
    Condition.numberText (.finite negative m) = "0" := by
  rw [Condition.numberText, finite_conditionStyle_zero negative zero]

theorem ofText?_numberText (negative : Bool) {m : Magnitude} (positive : 0 < m.units) :
    Binary64.ofText? (Condition.numberText (.finite negative m)) = some (.finite negative m) := by
  obtain ⟨c, cs, d, written, digit, read, reads⟩ := exists_magnitude_conditionStyle positive
  rw [Condition.numberText, finite_conditionStyle negative positive, written]
  exact Binary64.ofText?_signed digit read reads positive negative

/-- Only the zeros share a text. -/
theorem eq_of_numberText_eq {negative other : Bool} {m n : Magnitude}
    (same : Condition.numberText (.finite other n) = Condition.numberText (.finite negative m)) :
    m.units = 0 ∧ n.units = 0 ∨ other = negative ∧ n = m := by
  have zero : Binary64.ofText? "0" = some (.finite false .zero) := by decide
  have apart {sign : Bool} {k : Magnitude} (positive : 0 < k.units)
      (text : Condition.numberText (.finite sign k) = "0") : False := by
    have read := ofText?_numberText sign positive
    rw [text, zero] at read
    cases read
    exact Nat.lt_irrefl 0 positive
  rcases Nat.eq_zero_or_pos m.units with isZero | positive
  · rcases Nat.eq_zero_or_pos n.units with isZeroToo | positive
    · exact .inl ⟨isZero, isZeroToo⟩
    · exact absurd (same.trans (numberText_zero negative isZero)) (apart positive)
  · rcases Nat.eq_zero_or_pos n.units with isZero | positiveToo
    · exact absurd (same.symm.trans (numberText_zero other isZero)) (apart positive)
    · have read := ofText?_numberText other positiveToo
      rw [same, ofText?_numberText negative positive] at read
      cases read
      exact .inr ⟨rfl, rfl⟩

/-- Numbers in conditions are written in the shortest decimal that reads back as them: written
out from 10⁻⁶ up to 10²¹, with an exponent elsewhere, and a minus in front of negative ones.
Their texts are read as the numbers, so that only the zeros share one. -/
theorem number_texts_are_natural (negative : Bool) (m : Magnitude) :
    let d := m.shortest .up
    let text := Condition.numberText (.finite negative m)
    (m.units = 0 → text = "0") ∧
    (0 < m.units → d.IsShortest m ∧
      (∃ digits, text.toList = (if negative then ['-'] else []) ++ digits ∧
        if -6 ≤ d.leading ∧ d.leading ≤ 20 then
          ∃ whole fraction, digits = whole ++ pointed fraction ∧ d.IsExpansion whole fraction
        else
          ∃ first more, d.digits = first :: more ∧
            digits = first :: (pointed more ++
              'e' :: (if d.leading < 0 then '-' else '+') :: Nat.toDigits 10 d.leading.natAbs)) ∧
      Binary64.ofText? text = some (.finite negative m)) ∧
    ∀ other n, Condition.numberText (.finite other n) = text →
      m.units = 0 ∧ n.units = 0 ∨ other = negative ∧ n = m := by
  dsimp only
  refine ⟨numberText_zero negative, fun positive => ?_, fun other n => eq_of_numberText_eq⟩
  have shortest := m.isShortest_shortest .up positive
  refine ⟨shortest, ⟨conditionStyle.magnitude m, ?_, ?_⟩, ofText?_numberText negative positive⟩
  · rw [Condition.numberText, String.toList_ofList, finite_conditionStyle negative positive]
    cases negative <;> rfl
  · rw [magnitude_conditionStyle positive]
    by_cases plain : -6 ≤ (m.shortest .up).leading ∧ (m.shortest .up).leading ≤ 20
    · rw [if_pos plain, if_pos plain]
      exact ⟨_, _, Decimal.positional_eq _, Decimal.isExpansion shortest.mod_ne_zero⟩
    · rw [if_neg plain, if_neg plain]
      obtain ⟨first, more, shape, -⟩ :=
        JsonNumber.exists_toDigits_eq_cons (m.shortest .up).coefficient
      exact ⟨first, more, shape, Decimal.scientific_eq shape⟩

theorem number_texts_are_natural_boundary :
    Condition.numberText (.finite true (boundary 21)) = "-1e+21" ∧
      Binary64.ofText? "-1e+21" = some (.finite true (boundary 21)) := by
  obtain ⟨-, natural, -⟩ := number_texts_are_natural true (boundary 21)
  obtain ⟨-, -, read⟩ := natural (by decide +kernel)
  have text : Condition.numberText (.finite true (boundary 21)) = "-1e+21" := by decide +kernel
  rw [text] at read
  exact ⟨text, read⟩

end Criteria
