import Mathlib.Tactic.FieldSimp
import Criteria.Proofs.DecimalTexts

set_option autoImplicit false

/-
The digits of a double as the reader of JSON gathers them. A double has 17 digits at most, so
that none is beyond the word and the exponent stays small.
-/
namespace Criteria

theorem Text.digitsValue_cons (d : Char) (ds : List Char) :
    digitsValue (d :: ds) = digitValue d * 10 ^ ds.length + digitsValue ds := by
  have single : digitsValue [d] = digitValue d := by
    rw [digitsValue, List.foldl_cons, List.foldl_nil, Nat.mul_zero, Nat.zero_add]
  rw [← List.singleton_append, digitsValue_append, single]

namespace JsonNumber

/-- Digits that stay within the word are gathered to the last. -/
theorem gather_eq {ds rest : List Char} (digits : ∀ d ∈ ds, d.isDigit)
    (stops : StopsDigits rest) {word : Nat}
    (fits : word * 10 ^ ds.length + Text.digitsValue ds ≤ maxWord) (count : Nat) :
    gather word count (ds ++ rest) =
      (word * 10 ^ ds.length + Text.digitsValue ds, count + ds.length, rest) := by
  induction ds generalizing word count with
  | nil =>
      have none : Text.digitsValue [] = 0 := rfl
      rw [List.nil_append, List.length_nil, Nat.pow_zero, Nat.mul_one, none]
      cases rest with
      | nil => rfl
      | cons c rest => simp [gather, stops c rfl]
  | cons d ds ih =>
      obtain ⟨digit, more⟩ := List.forall_mem_cons.mp digits
      have shift : word * 10 ^ (d :: ds).length + Text.digitsValue (d :: ds) =
          (10 * word + Text.digitValue d) * 10 ^ ds.length + Text.digitsValue ds := by
        rw [Text.digitsValue_cons, List.length_cons, Nat.pow_succ', Nat.add_mul]
        ring
      rw [shift] at fits ⊢
      have next : 10 * word + Text.digitValue d ≤ maxWord := by
        refine Nat.le_trans ?_ fits
        exact Nat.le_add_right_of_le (Nat.le_mul_of_pos_right _ (Nat.pow_pos (by decide)))
      rw [List.cons_append, gather, if_pos (by simp [digit, next]), ih more fits,
        List.length_cons, Nat.add_assoc, Nat.add_comm 1]

/-- So is an exponent that is not too great. -/
theorem gatherExponent_eq {ds : List Char} (digits : ∀ d ∈ ds, d.isDigit) {exponent : Nat}
    (fits : exponent * 10 ^ ds.length + Text.digitsValue ds < 2 ^ (31 : Nat)) :
    gatherExponent exponent ds = (some (exponent * 10 ^ ds.length + Text.digitsValue ds), []) := by
  induction ds generalizing exponent with
  | nil => simp [gatherExponent, Text.digitsValue]
  | cons d ds ih =>
      obtain ⟨digit, more⟩ := List.forall_mem_cons.mp digits
      have shift : exponent * 10 ^ (d :: ds).length + Text.digitsValue (d :: ds) =
          (10 * exponent + Text.digitValue d) * 10 ^ ds.length + Text.digitsValue ds := by
        rw [Text.digitsValue_cons, List.length_cons, Nat.pow_succ', Nat.add_mul]
        ring
      rw [shift] at fits ⊢
      have next : 10 * exponent + Text.digitValue d < 2 ^ (31 : Nat) := by
        refine Nat.lt_of_le_of_lt ?_ fits
        exact Nat.le_add_right_of_le (Nat.le_mul_of_pos_right _ (Nat.pow_pos (by decide)))
      rw [gatherExponent, if_pos digit, if_pos next, ih more fits]

theorem readPower_eq (sign : Bool) (word : Nat) (exponent : Int) (down : Bool) {n : Nat}
    (small : n < 2 ^ (30 : Nat)) (near : exponent.natAbs < 2 ^ (30 : Nat)) :
    readPower sign word exponent down (Nat.toDigits 10 n) =
      assemble sign word (if down then exponent - n else exponent + n) [] := by
  obtain ⟨c, ds, shape, digit, digits⟩ := exists_toDigits_eq_cons n
  have value := Text.digitsValue_toDigits n
  rw [shape, Text.digitsValue_cons] at value
  rw [shape, readPower, if_pos digit, gatherExponent_eq digits (by omega), value]
  dsimp only
  cases down with
  | true =>
      rw [if_pos rfl, if_pos rfl, Int.max_eq_left (by omega)]
  | false =>
      rw [if_neg Bool.false_ne_true, if_neg Bool.false_ne_true, Int.min_eq_left (by omega)]

theorem readExponent_eq (sign : Bool) (word : Nat) {exponent n : Int}
    (small : n.natAbs < 2 ^ (30 : Nat)) (near : exponent.natAbs < 2 ^ (30 : Nat)) :
    readExponent sign word exponent ((if n < 0 then '-' else '+') :: Nat.toDigits 10 n.natAbs) =
      assemble sign word (exponent + n) [] := by
  unfold readExponent
  split_ifs with below
  · refine (readPower_eq sign word exponent true small near).trans ?_
    rw [if_pos rfl, show exponent - (n.natAbs : Int) = exponent + n by omega]
  · refine (readPower_eq sign word exponent false small near).trans ?_
    rw [if_neg Bool.false_ne_true, show exponent + (n.natAbs : Int) = exponent + n by omega]

/-- The decimals behind a point and what follows them. -/
theorem readDecimals_eq (sign : Bool) {ds rest : List Char} (digits : ∀ d ∈ ds, d.isDigit)
    (nonempty : ds ≠ []) (stops : StopsDigits rest) {word : Nat}
    (fits : word * 10 ^ ds.length + Text.digitsValue ds ≤ maxWord) (exponent : Int) :
    readDecimals sign word exponent (ds ++ rest) =
      readTail sign (word * 10 ^ ds.length + Text.digitsValue ds) (exponent - ds.length) rest := by
  have some : ds.length ≠ 0 := by simpa using nonempty
  rw [readDecimals, gather_eq digits stops fits, Nat.zero_add]
  cases rest with
  | nil =>
      dsimp only
      rw [if_neg some]
  | cons c rest =>
      dsimp only
      rw [if_neg (by simp [stops c rfl]), if_neg some]

/-- The digits in front of a point or an exponent. -/
theorem read_eq (sign : Bool) {ds rest : List Char} (digits : ∀ d ∈ ds, d.isDigit)
    (nonempty : ds ≠ []) (first : ds.head? = some '0' → ds = ['0']) (stops : StopsDigits rest)
    (fits : Text.digitsValue ds ≤ maxWord) :
    read sign (ds ++ rest) = readAfterDigits sign (Text.digitsValue ds) rest := by
  have noDigit : rest.head?.any Char.isDigit = false := by
    cases rest with
    | nil => rfl
    | cons c rest => exact stops c rfl
  obtain ⟨c, more, rfl⟩ := List.exists_cons_of_ne_nil nonempty
  obtain ⟨digit, areDigits⟩ := List.forall_mem_cons.mp digits
  by_cases zero : c = '0'
  · subst zero
    obtain rfl : more = [] := (List.cons.inj (first rfl)).2
    rw [List.cons_append, List.nil_append, read, noDigit]
    rfl
  · rw [Text.digitsValue_cons] at fits ⊢
    rw [List.cons_append, read_of_ne_zero sign zero digit, gather_eq areDigits stops fits]
    dsimp only
    rw [noDigit]
    rfl

theorem digitsValue_le_append (front back : List Char) :
    Text.digitsValue front ≤ Text.digitsValue (front ++ back) := by
  have scale : 0 < 10 ^ back.length := Nat.pow_pos (by decide)
  rw [Text.digitsValue_append]
  exact Nat.le_add_right_of_le (Nat.le_mul_of_pos_right _ scale)

/-- Digits around a point. -/
theorem read_pointed (sign : Bool) {whole fraction : List Char} (digits : ∀ d ∈ whole, d.isDigit)
    (nonempty : whole ≠ []) (first : whole.head? = some '0' → whole = ['0'])
    (decimals : ∀ d ∈ fraction, d.isDigit) (some : fraction ≠ [])
    (fits : Text.digitsValue (whole ++ fraction) ≤ maxWord) :
    read sign (whole ++ '.' :: fraction) =
      assemble sign (Text.digitsValue (whole ++ fraction)) (-fraction.length) [] := by
  have front := Nat.le_trans (digitsValue_le_append whole fraction) fits
  rw [Text.digitsValue_append] at fits ⊢
  have behind := readDecimals_eq sign decimals some stopsDigits_nil fits 0
  rw [List.append_nil, Int.zero_sub] at behind
  rw [read_eq sign digits nonempty first (stopsDigits_cons rfl _) front]
  exact behind

/-- A mantissa and an exponent. -/
theorem read_mantissa (sign : Bool) {first : Char} {more : List Char} {n : Int}
    (digit : first.isDigit) (notZero : first ≠ '0') (digits : ∀ d ∈ more, d.isDigit)
    (fits : Text.digitsValue (first :: more) ≤ maxWord) (small : n.natAbs < 2 ^ (30 : Nat))
    (short : more.length < 2 ^ (30 : Nat)) :
    read sign (first :: (pointed more ++
        'e' :: (if n < 0 then '-' else '+') :: Nat.toDigits 10 n.natAbs)) =
      assemble sign (Text.digitsValue (first :: more)) (n - more.length) [] := by
  have front := Nat.le_trans (digitsValue_le_append [first] more) fits
  have whole {rest : List Char} (stops : StopsDigits rest) :=
    read_eq sign (List.forall_mem_singleton.mpr digit) (List.cons_ne_nil first [])
      (fun zero => absurd (Option.some.inj zero) notZero) stops front
  rw [← List.singleton_append, Text.digitsValue_append] at fits
  cases more with
  | nil =>
      refine (whole (stopsDigits_cons rfl _)).trans ?_
      refine (readExponent_eq sign (Text.digitsValue [first]) small (by decide)).trans ?_
      rw [Int.zero_add, List.length_nil, Int.natCast_zero, Int.sub_zero]
  | cons d more =>
      rw [pointed, if_neg (List.cons_ne_nil d more)]
      refine (whole (stopsDigits_cons rfl _)).trans ?_
      refine (readDecimals_eq sign digits (List.cons_ne_nil d more) (stopsDigits_cons rfl _) fits
        0).trans ?_
      refine (readExponent_eq sign _ small (by omega)).trans ?_
      rw [← Text.digitsValue_append, show 0 - ((d :: more).length : Int) + n =
        n - (d :: more).length by omega]
      rfl

end JsonNumber

namespace Decimal

/-- The word and the power of ten that the reader makes of the digits: whole numbers that are
written out bring the zero behind their point along. -/
def gathered (d : Decimal) : Decimal :=
  if 0 ≤ d.exponent ∧ d.leading < 16 then ⟨d.coefficient * 10 ^ (d.exponent.toNat + 1), -1⟩ else d

theorem value_gathered (d : Decimal) : d.gathered.value = d.value := by
  unfold gathered
  split_ifs with whole
  · rw [value_of_nonneg whole.1, value, zpow_neg_one, Nat.cast_mul, Nat.cast_pow, Nat.cast_ofNat,
      pow_succ, show d.exponent.toNat = d.exponent.natAbs by omega]
    field_simp
  · rfl

/-- The word has 17 digits at most. -/
theorem coefficient_gathered_lt {d : Decimal} (short : d.digits.length ≤ 17) :
    d.gathered.coefficient < 10 ^ (17 : Nat) := by
  have below : d.coefficient < 10 ^ d.digits.length := lt_pow_length_toDigits _
  unfold gathered
  split_ifs with whole
  · obtain ⟨isWhole, small⟩ := whole
    rw [leading] at small
    calc d.coefficient * 10 ^ (d.exponent.toNat + 1)
        < 10 ^ d.digits.length * 10 ^ (d.exponent.toNat + 1) :=
          Nat.mul_lt_mul_of_pos_right below (Nat.pow_pos (by decide))
      _ = 10 ^ (d.digits.length + (d.exponent.toNat + 1)) := (Nat.pow_add 10 _ _).symm
      _ ≤ 10 ^ (17 : Nat) := Nat.pow_le_pow_right (by decide) (by omega)
  · exact Nat.lt_of_lt_of_le below (Nat.pow_le_pow_right (by decide) short)

end Decimal

namespace JsonNumber

theorem read_magnitude (sign : Bool) {m : Magnitude} (positive : 0 < m.units) :
    let d := (m.shortest .even).gathered
    read sign (style.magnitude m) = assemble sign d.coefficient d.exponent [] := by
  have shortest := m.isShortest_shortest .even positive
  have short := Magnitude.length_digits_shortest_le .even positive
  have fits := Nat.lt_of_lt_of_le (Decimal.coefficient_gathered_lt short)
    (show 10 ^ (17 : Nat) ≤ maxWord by decide)
  obtain ⟨nonzero, low, high⟩ := Decimal.leading_of_readsAs shortest.reads positive
  have choice (d : Decimal) : style.isPositional m d = (decide (-5 ≤ d.leading) &&
    decide (d.leading < 16)) := rfl
  have tie : style.tie = .even := rfl
  dsimp only
  unfold NumberStyle.magnitude
  dsimp only
  rw [tie]
  generalize m.shortest .even = d at *
  by_cases positional : -5 ≤ d.leading ∧ d.leading < 16
  · rw [if_pos (by simpa [choice] using positional), Decimal.positional_eq]
    by_cases whole : 0 ≤ d.exponent
    · have none : d.decimals = [] := by
        rw [← List.length_eq_zero_iff, Decimal.length_decimals]
        omega
      have parts := d.digitsValue_parts
      rw [none, List.append_nil] at parts
      have tens : Text.digitsValue (d.wholePart ++ ['0']) =
          d.coefficient * 10 ^ (d.exponent.toNat + 1) := by
        have zero : Text.digitsValue ['0'] = 0 := rfl
        rw [Text.digitsValue_append, parts, zero, List.length_singleton, Nat.add_zero,
          Nat.mul_assoc, ← Nat.pow_add]
      have gathered : d.gathered = ⟨d.coefficient * 10 ^ (d.exponent.toNat + 1), -1⟩ :=
        if_pos ⟨whole, positional.2⟩
      rw [gathered, ← tens] at fits ⊢
      rw [if_pos whole, none]
      have found := read_pointed sign d.isDigit_wholePart d.wholePart_ne_nil
        (Decimal.wholePart_eq_of_head? nonzero) (List.forall_mem_singleton.mpr rfl)
        (List.cons_ne_nil '0' []) (Nat.le_of_lt fits)
      rw [pointed, if_pos rfl, List.append_nil]
      exact found
    · have some : d.decimals ≠ [] := by
        rw [← List.length_pos_iff, Decimal.length_decimals]
        omega
      have parts := d.digitsValue_parts
      rw [show d.exponent.toNat = 0 by omega, Nat.pow_zero, Nat.mul_one] at parts
      have gathered : d.gathered = d := if_neg fun isWhole => whole isWhole.1
      rw [gathered, ← parts] at fits
      rw [gathered, ← parts]
      have found := read_pointed sign d.isDigit_wholePart d.wholePart_ne_nil
        (Decimal.wholePart_eq_of_head? nonzero) d.isDigit_decimals some (Nat.le_of_lt fits)
      rw [Decimal.length_decimals] at found
      rw [if_neg whole, pointed, if_neg some, found,
        show -((-d.exponent).toNat : Int) = d.exponent by omega]
  · obtain ⟨first, more, shape, digit, digits⟩ := exists_toDigits_eq_cons d.coefficient
    have notWhole : ¬ (0 ≤ d.exponent ∧ d.leading < 16) := by
      rintro ⟨isWhole, small⟩
      rw [Decimal.leading] at positional small
      omega
    have head := Decimal.head?_digits_ne nonzero
    have length : d.digits.length = more.length + 1 := by rw [Decimal.digits, shape]; rfl
    have value := Text.digitsValue_toDigits d.coefficient
    rw [Decimal.digits, shape] at head
    rw [shape] at value
    have gathered : d.gathered = d := if_neg notWhole
    rw [gathered, ← value] at fits
    rw [gathered, ← value]
    have found := read_mantissa sign digit (fun zero => head (congrArg some zero)) digits
      (Nat.le_of_lt fits) (n := d.leading) (by omega) (by omega)
    have place : d.leading - more.length = d.exponent := by
      rw [Decimal.leading, length, Nat.add_sub_cancel, Int.add_sub_cancel]
    rw [if_neg (by simpa [choice] using positional), Decimal.scientific_eq shape, found, place]

/-- The reader finds the digits of a double, and rounds twice. -/
theorem readSigned_double (negative : Bool) {m : Magnitude} (positive : 0 < m.units) :
    let d := (m.shortest .even).gathered
    readSigned (JsonNumber.double negative m).chars =
      assemble negative d.coefficient d.exponent [] := by
  obtain ⟨c, ds, fraction, power, shape, unsigned, -⟩ := exists_magnitude_eq m
  have found := read_magnitude negative positive
  dsimp only at found ⊢
  rw [← found, chars_double, shape]
  cases negative with
  | true => rfl
  | false => exact readSigned_of_digit unsigned.first _

end JsonNumber

end Criteria
