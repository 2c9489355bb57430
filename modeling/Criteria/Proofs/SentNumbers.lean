import Criteria.Registry.Sample
import Criteria.FilterText
import Criteria.Proofs.ScaledDigits
import Criteria.Proofs.WholeNumbers
import Criteria.Proofs.WrittenFilters

set_option autoImplicit false

/-
Numbers that are sent as JSON. Each is read again as a number of its sign that is a few gaps
away at most, and as itself where neither its digits nor their power of ten need rounding.
-/
namespace Criteria

namespace Magnitude

/-- The digits and the power of ten that a magnitude is sent as. -/
def sent (m : Magnitude) : Decimal := (m.shortest .even).gathered

/-- What a magnitude is read as when it has been sent. -/
def arrival? (m : Magnitude) : Option Magnitude := (word m.sent).scale? m.sent.exponent

/-- The greatest power of two that is a gap. -/
def widestPower : Nat := 2045

def widestGap : Nat := 2 ^ widestPower

section

variable {m : Magnitude}

theorem gap_le_two_pow {k : Nat} (below : m.units.log2 < k + 53) : m.gap ≤ 2 ^ k :=
  Nat.pow_le_pow_right (by decide) (by omega)

theorem gap_le_widestGap (m : Magnitude) : m.gap ≤ widestGap := gap_le_two_pow m.fits.1

theorem gathers_sent (positive : 0 < m.units) : Gathers m.sent m := by
  have shortest := m.isShortest_shortest .even positive
  have short := length_digits_shortest_le .even positive
  unfold sent
  generalize m.shortest .even = d at *
  obtain ⟨-, low, high⟩ := Decimal.leading_of_readsAs shortest.reads positive
  have reads := shortest.reads.congr d.value_gathered
  have some : 0 < d.digits.length := Nat.length_toDigits_pos
  have range : -616 ≤ d.gathered.exponent ∧ d.gathered.exponent ≤ 308 := by
    unfold Decimal.leading at low high
    unfold Decimal.gathered
    split_ifs
    · exact ⟨by simp, by simp⟩
    · constructor <;> omega
  exact ⟨reads, (Decimal.leading_of_readsAs reads positive).1,
    Decimal.coefficient_gathered_lt short, range.1, range.2⟩

/-- Three magnitudes are so close to the overflow limit that only looking at them tells that
they do not pass it on the way. -/
theorem exists_greatest (far : (2 ^ (53 : Nat) - 4) * widestGap < m.units) :
    ∃ s ∈ [2 ^ (53 : Nat) - 3, 2 ^ (53 : Nat) - 2, 2 ^ (53 : Nat) - 1],
      m.units = s * widestGap := by
  have gap : m.gap = widestGap := by
    refine (Nat.eq_or_lt_of_le m.gap_le_widestGap).resolve_right fun finer => ?_
    have half : 2 * m.gap ≤ widestGap := two_mul_gap_le finer
    have most := Nat.mul_le_mul_right m.gap m.significand_lt.le
    rw [significand_mul_gap] at most
    omega
  have units := m.significand_mul_gap
  rw [gap] at units
  refine ⟨m.significand, ?_, units.symm⟩
  rw [← units] at far
  have := Nat.lt_of_mul_lt_mul_right far
  have := m.significand_lt
  simp only [List.mem_cons, List.not_mem_nil, or_false]
  omega

theorem isSome_arrival?_greatest :
    ∀ s ∈ [2 ^ (53 : Nat) - 3, 2 ^ (53 : Nat) - 2, 2 ^ (53 : Nat) - 1],
      ∃ fits : Representable (s * widestGap), (arrival? ⟨s * widestGap, fits⟩).isSome := by
  decide +kernel

theorem arrival?_zero : zero.arrival? = some zero := by
  decide +kernel

theorem eq_zero_or_pos (m : Magnitude) : m = zero ∨ 0 < m.units :=
  (Nat.eq_zero_or_pos m.units).imp eq_of_units_eq id

/-- Whatever is sent is read again. -/
theorem isSome_arrival? (m : Magnitude) : m.arrival?.isSome := by
  rcases m.eq_zero_or_pos with rfl | positive
  · rw [arrival?_zero]
    rfl
  have gathers := gathers_sent positive
  rw [Option.isSome_iff_exists]
  rcases Int.lt_or_le m.sent.exponent 0 with neg | nonneg
  · exact gathers.exists_scale?_of_neg neg
  rcases Nat.lt_or_ge ((2 ^ (53 : Nat) - 4) * widestGap) m.units with far | most
  · obtain ⟨s, near, units⟩ := exists_greatest far
    obtain ⟨fits, found⟩ := isSome_arrival?_greatest s near
    rw [← eq_of_units_eq (a := m) (b := ⟨s * widestGap, fits⟩) units] at found
    exact Option.isSome_iff_exists.mp found
  · obtain ⟨fits, -⟩ := isSome_arrival?_greatest (2 ^ (53 : Nat) - 1) (by simp)
    exact gathers.exists_scale?_of_nonneg nonneg (b := ⟨_, fits⟩) m.gap_le_widestGap most rfl

/-- The two roundings lead a few gaps away at most. -/
theorem isWithin_of_arrival? {n : Magnitude} (arrives : m.arrival? = some n) :
    IsWithin 5 m n ∧ (-308 ≤ m.sent.exponent → IsWithin 3 m n) := by
  rcases m.eq_zero_or_pos with rfl | positive
  · cases arrival?_zero.symm.trans arrives
    exact ⟨isWithin_self 5 _, fun _ => isWithin_self 3 _⟩
  have gathers := gathers_sent positive
  have near (low : -308 ≤ m.sent.exponent) : IsWithin 3 m n := by
    rcases Int.lt_or_le m.sent.exponent 0 with neg | nonneg
    · exact gathers.isWithin_of_neg low neg arrives
    · exact gathers.isWithin_of_nonneg nonneg arrives
  refine ⟨?_, near⟩
  rcases Int.lt_or_le m.sent.exponent (-308) with far | low
  · exact gathers.isWithin_of_far far arrives
  · exact (near low).mono (by decide)

/-- Where neither the word nor the power of ten is rounded, a magnitude comes back. -/
theorem arrival?_eq_self (exact : Representable (m.sent.coefficient * unitsPerOne))
    (few : m.sent.exponent.natAbs ≤ 22) : m.arrival? = some m := by
  rcases m.eq_zero_or_pos with rfl | positive
  · exact arrival?_zero
  · exact (gathers_sent positive).scale?_eq_self exact few

/-- Small whole numbers come back. -/
theorem arrival?_of_whole {k : Nat} (units : m.units = k * unitsPerOne)
    (small : 10 * k ≤ 2 ^ (53 : Nat)) : m.arrival? = some m := by
  rcases m.eq_zero_or_pos with rfl | positive
  · exact arrival?_zero
  rw [units] at positive
  have sent : m.sent = ⟨10 * k, -1⟩ :=
    (m.isShortest_shortest .even (units ▸ positive)).gathered_of_whole units
      (Nat.pos_of_mul_pos_right positive) (by omega)
  refine arrival?_eq_self ?_ (by simp [sent])
  rw [sent]
  exact representable_mul small

end

end Magnitude

namespace JsonNumber

theorem toOption_assemble (sign : Bool) (word : Nat) (exponent : Int) (rest : List Char) :
    (assemble sign word exponent rest).toOption =
      (((Magnitude.ofNat? word).getD .zero).scale? exponent).map fun m =>
        (.double sign m, rest) := by
  rw [assemble]
  split <;> rename_i found <;> rw [found] <;> rfl

/-- The reader finds the digits that a double is sent as, those of zero included. -/
theorem readSigned_sent (negative : Bool) (m : Magnitude) :
    readSigned (JsonNumber.double negative m).chars =
      assemble negative m.sent.coefficient m.sent.exponent [] := by
  rcases m.eq_zero_or_pos with rfl | positive
  · have digits : style.magnitude .zero = ['0'] ++ '.' :: ['0'] := by decide +kernel
    have sent : Magnitude.sent .zero = ⟨0, -1⟩ := by decide +kernel
    have found (sign : Bool) : read sign (['0'] ++ '.' :: ['0']) = assemble sign 0 (-1) [] :=
      read_pointed sign (List.forall_mem_singleton.mpr rfl) (List.cons_ne_nil _ _) (fun _ => rfl)
        (List.forall_mem_singleton.mpr rfl) (List.cons_ne_nil _ _) (by decide)
    rw [chars_double, digits, sent]
    cases negative with
    | true => exact found true
    | false => exact (readSigned_of_digit rfl _).trans (found false)
  · exact readSigned_double negative positive

/-- What a double is read as by itself. -/
theorem reread?_double (negative : Bool) (m : Magnitude) :
    (JsonNumber.double negative m).reread? = m.arrival?.map (.double negative) := by
  rw [reread?, readSigned_sent, toOption_assemble, Option.map_map]
  rfl

end JsonNumber

namespace Binary64

variable {negative : Bool} {m n : Magnitude}

/-- A finite number is read again, as the same number or another. -/
theorem readAll_sent (arrives : m.arrival? = some n) :
    Json.readAll Value.read (Value.number (.finite negative m)).toJson.text.toList =
      .ok (.number (.finite negative n)) := by
  have reread : (JsonNumber.double negative m).reread = .double negative n := by
    rw [JsonNumber.reread, JsonNumber.reread?_double, arrives]
    rfl
  have readable : (JsonNumber.double negative m).reread?.isSome := by
    rw [JsonNumber.reread?_double, arrives]
    rfl
  have shape : Value.ofJson? (Json.reread (.number (.double negative m))) =
      some (.number (.finite negative n)) := by
    rw [Json.reread, reread]
    rfl
  rw [Value.toJson, Json.text, String.toList_ofList]
  exact (Json.readAll_of_reads (Json.isTextOf_chars _) fun enough =>
    Json.reads_shaped shape enough _).1 (Json.fits_number_iff.mpr readable)

theorem ofInt_eq {k : Int} (small : k.natAbs ≤ 2 ^ (53 : Nat)) :
    ofInt k = .finite (k < 0) ⟨k.natAbs * unitsPerOne, representable_mul small⟩ := by
  have own : Magnitude.ofNat? k.natAbs =
      some ⟨k.natAbs * unitsPerOne, representable_mul small⟩ := by
    rw [Magnitude.ofNat?, Magnitude.nearest?_eq_some_iff_takes _ _ Nat.one_pos, Nat.cast_one,
      div_one]
    exact Magnitude.takes_units _
  rw [ofInt, own]
  rfl

theorem readsBack_ofInt {k : Int} (small : 10 * k.natAbs ≤ 2 ^ (53 : Nat)) :
    (ofInt k).ReadsBack := by
  rw [ofInt_eq (by omega)]
  exact readAll_sent (Magnitude.arrival?_of_whole rfl small)

theorem reread_eq (arrives : m.arrival? = some n) :
    (Binary64.finite negative m).reread = .number (.finite negative n) := by
  rw [Binary64.reread, JsonNumber.reread, JsonNumber.reread?_double, arrives]
  rfl

end Binary64

/-- All numbers of a tree are in range when it is sent, so that only its depth counts. -/
theorem Node.fits_toJson (node : Node) {budget : Nat} (shallow : node.toJson.depth ≤ budget) :
    Json.Fits budget node.toJson := by
  refine ⟨shallow, node.forall_mem_numbers_toJson fun _ _ negative m _ => ?_⟩
  rw [JsonNumber.reread?_double, Option.isSome_map]
  exact m.isSome_arrival?

/-- A tree that is sent arrives with each number as the number is read. -/
theorem Group.ofText_sent (g : Group) (small : g.toJson.text.utf8ByteSize ≤ filterLimit)
    (shallow : g.toJson.depth ≤ Json.nestingLimit) : Group.ofText g.toJson.text = .ok g.reread := by
  rw [Group.ofText_eq_ok_iff small, Json.text, String.toList_ofList]
  exact (Group.readAll_form_eq_ok_iff g.toNode.form_toJson (Json.isTextOf_chars _)).mpr
    ⟨g.toNode.fits_toJson shallow, rfl⟩

/-- A finite number that is sent arrives as a number of its sign. The digits of its text make a
word, which is rounded, scaled by a rounded power of ten, below 10⁻³⁰⁸ by two, and rounded again.
What arrives is three gaps away at most, or five where there are two powers. It is what was sent
where a double holds the word and the power is one of the 22 that doubles hold, or the inverse of
one. Zeros of either sign and whole numbers up to a tenth of 2⁵³ are such numbers. A tree arrives
with each of its numbers so replaced, and makes the same filter if they all arrive as they were
sent. -/
theorem numbers_arrive_nearby :
    (∀ negative m, ∃ n : Magnitude,
      Json.readAll Value.read (Value.number (.finite negative m)).toJson.text.toList =
        .ok (.number (.finite negative n)) ∧
      (Binary64.finite negative m).reread = .number (.finite negative n) ∧
      (Magnitude.word m.sent).scale? m.sent.exponent = some n ∧
      Magnitude.IsWithin 5 m n ∧ (-308 ≤ m.sent.exponent → Magnitude.IsWithin 3 m n) ∧
      (Representable (m.sent.coefficient * unitsPerOne) → m.sent.exponent.natAbs ≤ 22 → n = m)) ∧
    (∀ k : Int, 10 * k.natAbs ≤ 2 ^ (53 : Nat) → (Binary64.ofInt k).ReadsBack) ∧
    (∀ g : Group, g.toJson.text.utf8ByteSize ≤ filterLimit →
      g.toJson.depth ≤ Json.nestingLimit →
      Group.ofText g.toJson.text = .ok g.reread ∧
      ((∀ r ∈ g.toNode.rules, ∀ x ∈ r.value.numbers, x.ReadsBack) →
        g.reread = g ∧ ∀ registry rootTable,
          g.reread.filterText registry rootTable = g.filterText registry rootTable)) := by
  refine ⟨fun negative m => ?_, fun k small => Binary64.readsBack_ofInt small,
    fun g small shallow => ⟨g.ofText_sent small shallow, fun back => ?_⟩⟩
  · obtain ⟨n, arrives⟩ := Option.isSome_iff_exists.mp m.isSome_arrival?
    obtain ⟨within, near⟩ := Magnitude.isWithin_of_arrival? arrives
    refine ⟨n, Binary64.readAll_sent arrives, Binary64.reread_eq arrives, arrives, within, near,
      fun exact few => ?_⟩
    exact Option.some.inj (arrives.symm.trans (Magnitude.arrival?_eq_self exact few))
  · have same : g.reread = g := by rw [Group.reread, Node.rereads_eq_self g.children back]
    refine ⟨same, fun registry rootTable => ?_⟩
    rw [same]

/-- The magnitude nearest to a tenth. -/
def Magnitude.tenth : Magnitude := (ofDecimal? 1 (-1)).getD zero

theorem numbers_arrive_nearby_tenth :
    Json.readAll Value.read (Value.number (.finite true .tenth)).toJson.text.toList =
      .ok (.number (.finite true .tenth)) ∧
    (Binary64.ofInt (-900719925474099)).ReadsBack ∧
    Group.ofText Group.wireSample.toJson.text = .ok Group.wireSample.reread ∧
      Group.wireSample.reread = Group.wireSample := by
  obtain ⟨numbers, whole, trees⟩ := numbers_arrive_nearby
  obtain ⟨n, found, -, -, -, -, exact⟩ := numbers true .tenth
  have same : n = .tenth := exact (by decide +kernel) (by decide +kernel)
  rw [same] at found
  have small : Group.wireSample.toJson.text.utf8ByteSize ≤ filterLimit := by
    rw [Json.text, String.utf8ByteSize_ofList]
    decide +kernel
  have shallow : Group.wireSample.toJson.depth ≤ Json.nestingLimit := by decide +kernel
  obtain ⟨arrives, back⟩ := trees Group.wireSample small shallow
  exact ⟨found, whole _ (by decide), arrives, (back (by decide +kernel)).1⟩

/-- A rule on a whole number of 53 bits whose word has 17 digits and is rounded. -/
def Group.totalSample : Group where
  id := "root"
  combinator := .and
  children := [.rule ⟨"r", "order_total", .eq, .number (.ofInt 9007199254740991)⟩]

theorem whole_number_arrives_less :
    (Value.number (.ofInt 9007199254740991)).toJson.text = "9007199254740991.0" ∧
    Json.readAll Value.read "9007199254740991.0".toList =
      .ok (.number (.ofInt 9007199254740990)) ∧
    Binary64.ofInt 9007199254740990 ≠ .ofInt 9007199254740991 ∧
    Group.totalSample.filterText Registry.orders "orders" = "total.eq.9007199254740991" ∧
    (Group.ofText Group.totalSample.toJson.text).toOption.map
        (Group.filterText Registry.orders "orders") =
      some "total.eq.9007199254740990" := by
  have text : (Value.number (.ofInt 9007199254740991)).toJson.text = "9007199254740991.0" := by
    decide +kernel
  refine ⟨text, ?_, by decide +kernel, by decide +kernel, by decide +kernel⟩
  rw [← text, Binary64.ofInt_eq (by decide), Binary64.ofInt_eq (by decide)]
  exact Binary64.readAll_sent (by decide +kernel)

end Criteria
