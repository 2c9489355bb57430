import Criteria.Binary64.Reading
import Criteria.Proofs.JsonNumbers
import Criteria.Proofs.ReadInstants
import Criteria.Proofs.ShortestDigits

set_option autoImplicit false

/-
Decimals as texts. Digits around a point, or a mantissa and an exponent, are read as a decimal
of the same value.
-/
namespace Criteria

theorem Text.digitsValue_append (front back : List Char) :
    digitsValue (front ++ back) = digitsValue front * 10 ^ back.length + digitsValue back := by
  have behind (n : Nat) : back.foldl (fun n d => 10 * n + digitValue d) n =
      n * 10 ^ back.length + digitsValue back := by
    induction back generalizing n with
    | nil => simp [digitsValue]
    | cons d back ih =>
        rw [digitsValue, List.foldl_cons, List.foldl_cons, ih, ih, List.length_cons, Nat.pow_succ']
        ring
  rw [digitsValue, List.foldl_append, ← digitsValue, behind]

theorem Text.digitsValue_toDigits (n : Nat) : digitsValue (Nat.toDigits 10 n) = n :=
  Nat.ofDigitChars_toDigits (by decide) (by decide)

theorem Text.digitsValue_zeros (n : Nat) : digitsValue (List.replicate n '0') = 0 := by
  induction n with
  | zero => rfl
  | succ n ih => exact ih

theorem isDigit_of_mem_toDigits {n : Nat} : ∀ c ∈ Nat.toDigits 10 n, c.isDigit :=
  fun _ member => Nat.isDigit_of_mem_toDigits (by decide) (by decide) member

/-- Decimals behind a point, or nothing where there are none. -/
def pointed (fraction : List Char) : List Char := if fraction = [] then [] else '.' :: fraction

theorem stopsDigits_pointed {fraction rest : List Char} (stops : StopsDigits rest) :
    StopsDigits (pointed fraction ++ rest) := by
  unfold pointed
  split_ifs
  · exact stops
  · exact stopsDigits_cons rfl _

theorem Magnitude.ofDecimal?_eq_some_iff {digits : Nat} {exponent : Int} {m : Magnitude} :
    ofDecimal? digits exponent = some m ↔ (⟨digits, exponent⟩ : Decimal).ReadsAs m := by
  have units : ((digits * 10 ^ exponent.toNat * unitsPerOne : Nat) : ℚ) /
      (10 ^ (-exponent).toNat : Nat) = (⟨digits, exponent⟩ : Decimal).value * unitsPerOne := by
    rw [Decimal.value, zpow_eq_div]
    push_cast
    ring
  rw [ofDecimal?, nearest?_eq_some_iff_takes _ _ (Nat.pow_pos (by decide)), Decimal.ReadsAs,
    units]

namespace Decimal

/-- The exponent that a text ends with, behind its letter. -/
def power? : List Char → Option Int
  | [] => some 0
  | e :: rest => if e = 'e' ∨ e = 'E' then exponent? rest else none

/-- A text of digits around a point, and what may stand behind it. -/
theorem ofChars?_append {whole fraction rest : List Char} (nonempty : whole ≠ [])
    (digits : ∀ c ∈ whole, c.isDigit) (decimals : ∀ c ∈ fraction, c.isDigit)
    (stops : StopsDigits rest) (noPoint : rest.head? ≠ some '.') :
    ofChars? (whole ++ (pointed fraction ++ rest)) = (power? rest).map fun e =>
      ⟨Text.digitsValue (whole ++ fraction), e - fraction.length⟩ := by
  unfold ofChars?
  dsimp only
  rw [(stopsDigits_pointed stops).takeWhile_append digits,
    (stopsDigits_pointed stops).dropWhile_append digits]
  rw [List.isEmpty_eq_false_iff.mpr nonempty, Bool.false_and, if_neg Bool.false_ne_true]
  cases fraction with
  | nil =>
      rw [pointed, if_pos rfl, List.nil_append]
      split
      · exact absurd rfl noPoint
      · cases rest <;> rfl
  | cons d fraction =>
      rw [pointed, if_neg (List.cons_ne_nil _ _), List.cons_append]
      split
      · rename_i shape
        cases shape
        rw [stops.takeWhile_append decimals, stops.dropWhile_append decimals]
        cases rest <;> rfl
      · rename_i noShape
        exact absurd rfl (noShape _)

/-- Digits around a point that write a decimal out: no zero stands in front of other digits
of the whole part, and none at the end of the decimals. -/
structure IsExpansion (d : Decimal) (whole fraction : List Char) : Prop where
  nonempty : whole ≠ []
  digits : ∀ c ∈ whole, c.isDigit
  decimals : ∀ c ∈ fraction, c.isDigit
  first : whole.head? = some '0' → whole = ['0']
  last : fraction.getLast? ≠ some '0'
  value : Text.digitsValue (whole ++ fraction) = d.value * 10 ^ fraction.length

theorem head?_digits_ne {d : Decimal} (positive : 0 < d.coefficient) :
    d.digits.head? ≠ some '0' := by
  intro zero
  have least := pow_length_toDigits_le positive
  have value := Text.digitsValue_toDigits d.coefficient
  have digits := isDigit_of_mem_toDigits (n := d.coefficient)
  rw [Decimal.digits] at zero
  cases shape : Nat.toDigits 10 d.coefficient with
  | nil => exact Nat.toDigits_ne_nil shape
  | cons c ds =>
      rw [shape] at zero least value digits
      cases zero
      have := Text.digitsValue_lt (List.forall_mem_cons.mp digits).2
      rw [← List.singleton_append, Text.digitsValue_append] at value
      rw [List.length_cons, Nat.add_sub_cancel] at least
      rw [show Text.digitsValue ['0'] = 0 from rfl, Nat.zero_mul] at value
      omega

theorem getLast?_digits_ne {d : Decimal} (last : d.coefficient % 10 ≠ 0) :
    d.digits.getLast? ≠ some '0' := by
  have digit (n : Nat) (small : n < 10) (nonzero : n ≠ 0) : Nat.digitChar n ≠ '0' := by
    revert n
    decide
  rw [digits]
  rcases Nat.lt_or_ge d.coefficient 10 with small | large
  · rw [Nat.toDigits_of_lt_base small]
    have := digit d.coefficient small (by omega)
    simpa using this
  · rw [Nat.toDigits_of_base_le (by decide) large, List.getLast?_append]
    have := digit (d.coefficient % 10) (Nat.mod_lt _ (by decide)) last
    simpa using this

theorem value_mul_pow {d : Decimal} {n : Nat} (exponent : d.exponent = -n) :
    d.value * 10 ^ n = d.coefficient := by
  rw [value, exponent, mul_assoc, ← zpow_natCast, ← zpow_add₀ (by norm_num), Int.add_left_neg,
    zpow_zero, mul_one]

/-- The digits in front of the point. -/
def wholePart (d : Decimal) : List Char :=
  if 0 ≤ d.exponent then d.digits ++ List.replicate d.exponent.toNat '0'
  else if 0 < d.exponent + d.digits.length then
    d.digits.take (d.exponent + d.digits.length).toNat
  else ['0']

/-- The digits behind the point. -/
def decimals (d : Decimal) : List Char :=
  if 0 ≤ d.exponent then []
  else if 0 < d.exponent + d.digits.length then
    d.digits.drop (d.exponent + d.digits.length).toNat
  else List.replicate (-(d.exponent + d.digits.length)).toNat '0' ++ d.digits

theorem digits_ne_nil (d : Decimal) : d.digits ≠ [] := Nat.toDigits_ne_nil

theorem length_decimals (d : Decimal) : d.decimals.length = (-d.exponent).toNat := by
  unfold decimals
  split_ifs with whole inside
  · rw [List.length_nil]
    omega
  · rw [List.length_drop]
    omega
  · rw [List.length_append, List.length_replicate]
    omega

theorem positional_eq (d : Decimal) : d.positional = d.wholePart ++ pointed d.decimals := by
  have some (decimals : d.exponent < 0) : d.decimals ≠ [] := by
    rw [← List.length_pos_iff, length_decimals]
    omega
  unfold pointed positional
  dsimp only
  split_ifs with whole none inside none
  · rw [wholePart, if_pos whole, List.append_nil]
  · rw [decimals, if_pos whole] at none
    exact absurd rfl none
  · exact absurd none (some (by omega))
  · rw [wholePart, if_neg whole, if_pos inside, decimals, if_neg whole, if_pos inside]
  · exact absurd ‹_› (some (by omega))
  · rw [wholePart, if_neg whole, if_neg inside, decimals, if_neg whole, if_neg inside]
    rfl

/-- The digits around the point are those of the coefficient, and zeros. -/
theorem digitsValue_parts (d : Decimal) :
    Text.digitsValue (d.wholePart ++ d.decimals) = d.coefficient * 10 ^ d.exponent.toNat := by
  have written : Text.digitsValue d.digits = d.coefficient := Text.digitsValue_toDigits _
  unfold wholePart decimals
  split_ifs with whole inside
  · rw [List.append_nil, Text.digitsValue_append, Text.digitsValue_zeros, written,
      List.length_replicate, Nat.add_zero]
  · have flat : d.exponent.toNat = 0 := by omega
    rw [List.take_append_drop, written, flat, Nat.pow_zero, Nat.mul_one]
  · have flat : d.exponent.toNat = 0 := by omega
    have zero : Text.digitsValue ['0'] = 0 := rfl
    rw [Text.digitsValue_append, Text.digitsValue_append, Text.digitsValue_zeros, written, flat,
      zero, Nat.zero_mul, Nat.zero_mul, Nat.zero_add, Nat.zero_add, Nat.pow_zero, Nat.mul_one]

theorem isDigit_wholePart (d : Decimal) : ∀ c ∈ d.wholePart, c.isDigit := by
  have digits : ∀ c ∈ d.digits, c.isDigit := isDigit_of_mem_toDigits
  unfold wholePart
  split_ifs
  · exact List.forall_mem_append.mpr ⟨digits, JsonNumber.forall_mem_replicate_zero _⟩
  · exact fun c member => digits c (List.mem_of_mem_take member)
  · exact List.forall_mem_singleton.mpr rfl

theorem isDigit_decimals (d : Decimal) : ∀ c ∈ d.decimals, c.isDigit := by
  have digits : ∀ c ∈ d.digits, c.isDigit := isDigit_of_mem_toDigits
  unfold decimals
  split_ifs
  · exact List.forall_mem_nil _
  · exact fun c member => digits c (List.mem_of_mem_drop member)
  · exact List.forall_mem_append.mpr ⟨JsonNumber.forall_mem_replicate_zero _, digits⟩

theorem wholePart_ne_nil (d : Decimal) : d.wholePart ≠ [] := by
  have nonempty := d.digits_ne_nil
  unfold wholePart
  split_ifs with whole inside
  · simp [nonempty]
  · simp only [ne_eq, List.take_eq_nil_iff, nonempty, or_false]
    omega
  · exact List.cons_ne_nil _ _

/-- No zero stands in front of other digits. -/
theorem wholePart_eq_of_head? {d : Decimal} (positive : 0 < d.coefficient)
    (zero : d.wholePart.head? = some '0') : d.wholePart = ['0'] := by
  have first := head?_digits_ne positive
  have nonempty := d.digits_ne_nil
  unfold wholePart at zero ⊢
  split_ifs at zero ⊢ with whole inside
  · rw [List.head?_append_of_ne_nil _ nonempty] at zero
    exact absurd zero first
  · rw [List.head?_take, if_neg (by omega)] at zero
    exact absurd zero first
  · rfl

theorem getLast?_decimals_ne {d : Decimal} (last : d.coefficient % 10 ≠ 0) :
    d.decimals.getLast? ≠ some '0' := by
  have atEnd := getLast?_digits_ne last
  unfold decimals
  split_ifs with whole inside
  · exact nofun
  · rw [List.getLast?_drop, if_neg (by omega)]
    exact atEnd
  · rw [List.getLast?_append_of_ne_nil _ d.digits_ne_nil]
    exact atEnd

/-- A decimal with no zero at its end is written out as its expansion. -/
theorem isExpansion {d : Decimal} (last : d.coefficient % 10 ≠ 0) :
    d.IsExpansion d.wholePart d.decimals := by
  refine ⟨d.wholePart_ne_nil, d.isDigit_wholePart, d.isDigit_decimals,
    wholePart_eq_of_head? (by omega), getLast?_decimals_ne last, ?_⟩
  rw [digitsValue_parts, length_decimals, value, mul_assoc]
  have scale : (10 : ℚ) ^ d.exponent * 10 ^ (-d.exponent).toNat = 10 ^ d.exponent.toNat := by
    rw [← zpow_natCast, ← zpow_natCast, ← zpow_add₀ (by norm_num)]
    congr 1
    omega
  rw [scale]
  push_cast
  rfl

theorem IsExpansion.exists_ofChars?_eq {d : Decimal} {whole fraction : List Char}
    (expansion : d.IsExpansion whole fraction) :
    ∃ e, ofChars? (whole ++ pointed fraction) = some e ∧ e.value = d.value := by
  refine ⟨⟨Text.digitsValue (whole ++ fraction), 0 - fraction.length⟩, ?_, ?_⟩
  · have read := ofChars?_append expansion.nonempty expansion.digits expansion.decimals
      stopsDigits_nil (by decide)
    rwa [List.append_nil] at read
  · have written := value_mul_pow (d := ⟨Text.digitsValue (whole ++ fraction), 0 - fraction.length⟩)
      (n := fraction.length) (Int.zero_sub _)
    rw [expansion.value] at written
    exact mul_right_cancel₀ (by positivity) written

theorem scientific_eq {d : Decimal} {first : Char} {more : List Char}
    (shape : d.digits = first :: more) :
    d.scientific = first :: (pointed more ++
      'e' :: (if d.leading < 0 then '-' else '+') :: Nat.toDigits 10 d.leading.natAbs) := by
  rw [scientific, shape]
  cases more <;> rfl

/-- An exponent is written with its sign. -/
theorem exponent?_signed (n : Int) :
    exponent? ((if n < 0 then '-' else '+') :: Nat.toDigits 10 n.natAbs) = some n := by
  have nonempty : (Nat.toDigits 10 n.natAbs).isEmpty = false :=
    List.isEmpty_eq_false_iff.mpr Nat.toDigits_ne_nil
  have digits : (Nat.toDigits 10 n.natAbs).all Char.isDigit = true :=
    List.all_eq_true.mpr isDigit_of_mem_toDigits
  split_ifs with below
  · rw [exponent?, nonempty, digits, Text.digitsValue_toDigits]
    exact congrArg some (by omega)
  · rw [exponent?, nonempty, digits, Text.digitsValue_toDigits]
    exact congrArg some (by omega)

theorem ofChars?_scientific (d : Decimal) : ofChars? d.scientific = some d := by
  obtain ⟨first, more, shape, isDigit, areDigits⟩ :=
    JsonNumber.exists_toDigits_eq_cons d.coefficient
  have read := ofChars?_append (List.cons_ne_nil first [])
    (List.forall_mem_singleton.mpr isDigit) areDigits
    (stopsDigits_cons rfl ((if d.leading < 0 then '-' else '+') ::
      Nat.toDigits 10 d.leading.natAbs)) (show some 'e' ≠ some '.' by decide)
  have power : power? ('e' :: (if d.leading < 0 then '-' else '+') ::
      Nat.toDigits 10 d.leading.natAbs) = some d.leading := by
    rw [power?, if_pos (show 'e' = 'e' ∨ 'e' = 'E' from .inl rfl), exponent?_signed]
  rw [power, Option.map_some, List.singleton_append, List.singleton_append, ← shape,
    Text.digitsValue_toDigits] at read
  rw [scientific_eq shape, read]
  have place : d.leading - more.length = d.exponent := by
    rw [leading, digits, shape, List.length_cons, Nat.add_sub_cancel, Int.add_sub_cancel]
  rw [place]

/-- What a decimal reads as depends on its value alone. -/
theorem ReadsAs.congr {d e : Decimal} {m : Magnitude} (reads : d.ReadsAs m)
    (same : e.value = d.value) : e.ReadsAs m := by
  rw [ReadsAs, same]
  exact reads

/-- The value between two powers of ten, by its leading digit. -/
theorem value_window {d : Decimal} (positive : 0 < d.coefficient) :
    (10 : ℚ) ^ d.leading ≤ d.value ∧ d.value < (10 : ℚ) ^ (d.leading + 1) := by
  have length : 0 < d.digits.length := Nat.length_toDigits_pos
  have low : ((10 ^ (d.digits.length - 1) : Nat) : ℚ) ≤ d.coefficient := by
    exact_mod_cast pow_length_toDigits_le positive
  have high : (d.coefficient : ℚ) < (10 ^ d.digits.length : Nat) := by
    exact_mod_cast lt_pow_length_toDigits d.coefficient
  have scale : (0 : ℚ) < 10 ^ d.exponent := zpow_pos (by norm_num) _
  rw [value]
  constructor
  · refine le_trans (le_of_eq ?_) (mul_le_mul_of_nonneg_right low scale.le)
    rw [leading, Nat.cast_pow, Nat.cast_ofNat, zpow_add₀ (by norm_num), zpow_natCast, mul_comm]
  · refine (mul_lt_mul_of_pos_right high scale).trans_le (le_of_eq ?_)
    rw [Nat.cast_pow, Nat.cast_ofNat, ← zpow_natCast, ← zpow_add₀ (by norm_num)]
    congr 1
    rw [leading]
    omega

theorem unitsPerOne_le_zpow : (unitsPerOne : ℚ) ≤ 10 ^ (324 : Int) := by
  rw [show (324 : Int) = (324 : Nat) from rfl, zpow_natCast]
  have := Nat.cast_le (α := ℚ).mpr unitsPerOne_le
  simpa only [Nat.cast_pow, Nat.cast_ofNat] using this

theorem twice_limit_lt : 2 * (2 : ℚ) ^ (1024 : Nat) < 10 ^ (309 : Int) := by
  have whole : 2 * 2 ^ (1024 : Nat) < 10 ^ (309 : Nat) := by decide +kernel
  have := Nat.cast_lt (α := ℚ).mpr whole
  rw [show (309 : Int) = (309 : Nat) from rfl, zpow_natCast]
  simpa only [Nat.cast_mul, Nat.cast_pow, Nat.cast_ofNat] using this

/-- No decimal that reads as a double lies so far out that its digits are not looked at. -/
theorem leading_of_readsAs {d : Decimal} {m : Magnitude} (reads : d.ReadsAs m)
    (positive : 0 < m.units) : 0 < d.coefficient ∧ -400 ≤ d.leading ∧ d.leading ≤ 308 := by
  obtain ⟨low, high⟩ := Magnitude.Takes.within_twice reads positive
  have one : (1 : ℚ) ≤ m.units := by exact_mod_cast positive
  have most := m.units_le
  have units : (0 : ℚ) < unitsPerOne := by exact_mod_cast unitsPerOne_pos
  have nonzero : 0 < d.coefficient := by
    refine Nat.pos_of_ne_zero fun zero => ?_
    rw [value, zero, Nat.cast_zero, zero_mul, zero_mul] at low
    linarith
  obtain ⟨least, greatest⟩ := value_window nonzero
  refine ⟨nonzero, Int.le_of_not_gt fun below => ?_, Int.le_of_not_gt fun above => ?_⟩
  · have tiny : d.value < 10 ^ (-400 : Int) :=
      greatest.trans_le (zpow_le_zpow_right₀ (by norm_num) (by omega))
    have small := mul_lt_mul_of_pos_right tiny units
    have : (10 : ℚ) ^ (-400 : Int) * unitsPerOne < 1 / 2 := by
      calc (10 : ℚ) ^ (-400 : Int) * unitsPerOne
          ≤ 10 ^ (-400 : Int) * 10 ^ (324 : Int) :=
            mul_le_mul_of_nonneg_left unitsPerOne_le_zpow (zpow_nonneg (by norm_num) _)
        _ = 10 ^ (-76 : Int) := (zpow_add₀ (by norm_num) _ _).symm
        _ ≤ 10 ^ (-1 : Int) := zpow_le_zpow_right₀ (by norm_num) (by omega)
        _ < 1 / 2 := by norm_num
    linarith
  · have huge : (10 : ℚ) ^ (309 : Int) ≤ d.value :=
      (zpow_le_zpow_right₀ (by norm_num) (by omega)).trans least
    have great := mul_le_mul_of_nonneg_right huge units.le
    have beyond := mul_lt_mul_of_pos_right twice_limit_lt units
    have limit : 2 * (m.units : ℚ) ≤ 2 * 2 ^ (1024 : Nat) * unitsPerOne := by
      rw [mul_assoc]
      exact mul_le_mul_of_nonneg_left most (by norm_num)
    exact absurd (beyond.trans_le (great.trans (high.trans limit))) (lt_irrefl _)

theorem magnitude?_eq {d : Decimal} {m : Magnitude} (reads : d.ReadsAs m)
    (positive : 0 < m.units) : d.magnitude? = some m := by
  obtain ⟨nonzero, low, high⟩ := leading_of_readsAs reads positive
  rw [magnitude?, if_neg (by omega), if_neg (by omega)]
  exact Magnitude.ofDecimal?_eq_some_iff.mpr reads

end Decimal

end Criteria
