import Mathlib.Data.List.Basic
import Criteria.Json.Number
import Criteria.Proofs.Numerals

set_option autoImplicit false

/-
Numbers of JSON text in front of other text. A reader takes the whole of a number or fails,
and does so in front of everything that cannot belong to a number.
-/
namespace Criteria.JsonNumber

/-- Whether a number can go on with a character. -/
def goesOn (c : Char) : Bool := c.isDigit || c == '.' || c == 'e' || c == 'E'

/-- What can stand behind a number. -/
def Ends (rest : List Char) : Prop := ∀ c ∈ rest.head?, goesOn c = false

theorem ends_nil : Ends [] := by simp [Ends]

theorem ends_cons {c : Char} {rest : List Char} (ends : goesOn c = false) : Ends (c :: rest) := by
  simpa [Ends] using ends

theorem Ends.head_ne {c : Char} {rest : List Char} (ends : Ends (c :: rest)) :
    c.isDigit = false ∧ c ≠ '.' ∧ c ≠ 'e' ∧ c ≠ 'E' := by
  have own := ends c rfl
  simp only [goesOn, Bool.or_eq_false_iff, beq_eq_false_iff_ne, ne_eq] at own
  obtain ⟨⟨⟨notDigit, notPoint⟩, notLower⟩, notUpper⟩ := own
  exact ⟨notDigit, notPoint, notLower, notUpper⟩

theorem Ends.stopsDigits {rest : List Char} (ends : Ends rest) : StopsDigits rest := by
  cases rest with
  | nil => exact stopsDigits_nil
  | cons c rest => exact stopsDigits_cons ends.head_ne.1 rest

/-- Gathering stops at the same digit whatever follows the digits. -/
theorem exists_gather_eq {ds : List Char} (digits : ∀ d ∈ ds, d.isDigit) (word count : Nat) :
    ∃ value taken left, (∀ d ∈ left, d.isDigit) ∧ ∀ other, StopsDigits other →
      gather word count (ds ++ other) = (value, taken, left ++ other) := by
  induction ds generalizing word count with
  | nil =>
      refine ⟨word, count, [], List.forall_mem_nil _, ?_⟩
      intro other stops
      cases other with
      | nil => rfl
      | cons c other => simp [gather, stops c rfl]
  | cons d ds ih =>
      obtain ⟨digit, more⟩ := List.forall_mem_cons.mp digits
      by_cases fits : 10 * word + Text.digitValue d ≤ maxWord
      · obtain ⟨value, taken, left, leftDigits, found⟩ :=
          ih more (10 * word + Text.digitValue d) (count + 1)
        refine ⟨value, taken, left, leftDigits, ?_⟩
        intro other stops
        rw [List.cons_append, gather, if_pos (by simp [digit, fits])]
        exact found other stops
      · refine ⟨word, count, d :: ds, digits, ?_⟩
        intro other _
        rw [List.cons_append, gather, if_neg (by simp [fits])]

/-- An exponent that is not too great takes all its digits. -/
theorem exists_gatherExponent_eq {ds : List Char} (digits : ∀ d ∈ ds, d.isDigit)
    (exponent : Nat) :
    ∃ power left, (∀ d ∈ left, d.isDigit) ∧ (power.isSome → left = []) ∧
      ∀ other, StopsDigits other →
        gatherExponent exponent (ds ++ other) = (power, left ++ other) := by
  induction ds generalizing exponent with
  | nil =>
      refine ⟨some exponent, [], List.forall_mem_nil _, fun _ => rfl, ?_⟩
      intro other stops
      cases other with
      | nil => rfl
      | cons c other => simp [gatherExponent, stops c rfl]
  | cons d ds ih =>
      obtain ⟨digit, more⟩ := List.forall_mem_cons.mp digits
      by_cases fits : 10 * exponent + Text.digitValue d < 2 ^ (31 : Nat)
      · obtain ⟨power, left, leftDigits, all, found⟩ := ih more (10 * exponent + Text.digitValue d)
        refine ⟨power, left, leftDigits, all, ?_⟩
        intro other stops
        rw [List.cons_append, gatherExponent, if_pos digit, if_pos fits]
        exact found other stops
      · refine ⟨none, ds, more, (fun isSome => by cases isSome), ?_⟩
        intro other _
        rw [List.cons_append, gatherExponent, if_pos digit, if_neg fits]

/-- What a reader makes of a number is settled by its text: whatever follows, it takes it all
for the same number, of which something holds, or fails. -/
def Settles (reader : List Char → Except Json.Fault (JsonNumber × List Char)) (cs : List Char)
    (Holds : JsonNumber → Prop) : Prop :=
  ∃ outcome : Option JsonNumber, (∀ x ∈ outcome, Holds x) ∧ ∀ other, Ends other →
    (reader (cs ++ other)).toOption = outcome.map fun x => (x, other)

def IsDouble (sign : Bool) (x : JsonNumber) : Prop := ∃ m, x = .double sign m

section

variable {reader inner : List Char → Except Json.Fault (JsonNumber × List Char)}
  {cs : List Char} {Holds : JsonNumber → Prop}

theorem settles_of_ok {x : JsonNumber} (holds : Holds x)
    (gives : ∀ other, Ends other → reader (cs ++ other) = .ok (x, other)) :
    Settles reader cs Holds := by
  refine ⟨some x, fun y same => Option.some.inj same ▸ holds, ?_⟩
  intro other ends
  rw [gives other ends]
  rfl

theorem settles_of_error
    (fails : ∀ other, Ends other → ∃ fault, reader (cs ++ other) = .error fault) :
    Settles reader cs Holds := by
  refine ⟨none, (fun y absent => by cases absent), ?_⟩
  intro other ends
  obtain ⟨fault, failed⟩ := fails other ends
  rw [failed]
  rfl

/-- A reader that passes over the front of a text and leaves the rest to another. -/
theorem Settles.behind (settles : Settles inner cs Holds) {whole : List Char}
    (passes : ∀ other, Ends other → reader (whole ++ other) = inner (cs ++ other)) :
    Settles reader whole Holds := by
  obtain ⟨outcome, holds, found⟩ := settles
  refine ⟨outcome, holds, ?_⟩
  intro other ends
  rw [passes other ends, found other ends]

theorem Settles.imp {Also : JsonNumber → Prop} (settles : Settles reader cs Holds)
    (also : ∀ x, Holds x → Also x) : Settles reader cs Also := by
  obtain ⟨outcome, holds, found⟩ := settles
  exact ⟨outcome, fun x isOutcome => also x (holds x isOutcome), found⟩

/-- What is settled is what is read from the text alone. -/
theorem Settles.toOption_eq (settles : Settles reader cs Holds) {rest : List Char}
    (ends : Ends rest) :
    (reader (cs ++ rest)).toOption =
      ((reader cs).toOption.map Prod.fst).map fun x => (x, rest) := by
  obtain ⟨outcome, -, found⟩ := settles
  have alone := found [] ends_nil
  rw [List.append_nil] at alone
  rw [found rest ends, alone]
  cases outcome <;> rfl

theorem Settles.holds (settles : Settles reader cs Holds) {x : JsonNumber}
    (isRead : (reader cs).toOption.map Prod.fst = some x) : Holds x := by
  obtain ⟨outcome, holds, found⟩ := settles
  have alone := found [] ends_nil
  rw [List.append_nil] at alone
  rw [alone] at isRead
  cases outcome with
  | none => cases isRead
  | some y =>
      cases isRead
      exact holds _ rfl

end

/-- Decimals behind a point, or none. -/
inductive IsFraction : List Char → Prop where
  | none : IsFraction []
  | decimals {ds : List Char} (digits : ∀ d ∈ ds, d.isDigit) : IsFraction ('.' :: ds)

/-- An exponent behind its letter and with a sign, or none. -/
inductive IsExponent : List Char → Prop where
  | none : IsExponent []
  | power {sign : Char} {ds : List Char} (isSign : sign = '+' ∨ sign = '-')
      (digits : ∀ d ∈ ds, d.isDigit) : IsExponent ('e' :: sign :: ds)

theorem IsExponent.stopsDigits {power other : List Char} (isExponent : IsExponent power)
    (ends : Ends other) : StopsDigits (power ++ other) := by
  cases isExponent with
  | none => exact ends.stopsDigits
  | power isSign digits => exact stopsDigits_cons rfl _

theorem IsExponent.head?_ne {power other : List Char} (isExponent : IsExponent power)
    (ends : Ends other) : (power ++ other).head? ≠ some '.' := by
  cases isExponent with
  | none =>
      intro isHead
      cases ends '.' isHead
  | power isSign digits =>
      intro isHead
      cases isHead

theorem IsFraction.stopsDigits {fraction power other : List Char}
    (isFraction : IsFraction fraction) (isExponent : IsExponent power) (ends : Ends other) :
    StopsDigits (fraction ++ (power ++ other)) := by
  cases isFraction with
  | none => exact isExponent.stopsDigits ends
  | decimals digits => exact stopsDigits_cons rfl _

section

variable (sign : Bool) (word : Nat) (exponent : Int) {ds fraction power : List Char}

theorem settles_assemble : Settles (assemble sign word exponent) [] (IsDouble sign) := by
  cases scaled : ((Magnitude.ofNat? word).getD .zero).scale? exponent with
  | some m =>
      refine settles_of_ok ⟨m, rfl⟩ ?_
      intro other _
      rw [List.nil_append, assemble, scaled]
  | none =>
      refine settles_of_error ?_
      intro other _
      rw [List.nil_append, assemble, scaled]
      exact ⟨_, rfl⟩

theorem settles_readPower (digits : ∀ d ∈ ds, d.isDigit) (down : Bool) :
    Settles (readPower sign word exponent down) ds (IsDouble sign) := by
  cases ds with
  | nil =>
      refine settles_of_error ?_
      intro other ends
      cases other with
      | nil => exact ⟨_, rfl⟩
      | cons c other =>
          rw [List.nil_append, readPower, if_neg (by simp [ends.head_ne.1])]
          exact ⟨_, rfl⟩
  | cons d ds =>
      obtain ⟨digit, more⟩ := List.forall_mem_cons.mp digits
      obtain ⟨power, left, leftDigits, all, gathered⟩ :=
        exists_gatherExponent_eq more (Text.digitValue d)
      cases power with
      | some n =>
          obtain rfl := all rfl
          let total := if down then max (exponent - n) (-2 ^ (31 : Nat))
            else min (exponent + n) (2 ^ (31 : Nat) - 1)
          refine (settles_assemble sign word total).behind ?_
          intro other ends
          rw [List.cons_append, readPower, if_pos digit, gathered other ends.stopsDigits]
      | none =>
          by_cases great : word ≠ 0 ∧ down = false
          · refine settles_of_error ?_
            intro other ends
            rw [List.cons_append, readPower, if_pos digit, gathered other ends.stopsDigits]
            exact ⟨_, if_pos (by simpa using great)⟩
          · refine settles_of_ok ⟨.zero, rfl⟩ ?_
            intro other ends
            rw [List.cons_append, readPower, if_pos digit, gathered other ends.stopsDigits]
            dsimp only
            rw [if_neg (by simpa using great), ends.stopsDigits.dropWhile_append leftDigits]

theorem settles_readTail (isExponent : IsExponent power) :
    Settles (readTail sign word exponent) power (IsDouble sign) := by
  cases isExponent with
  | none =>
      refine (settles_assemble sign word exponent).behind ?_
      intro other ends
      cases other with
      | nil => rfl
      | cons c other =>
          obtain ⟨-, -, notLower, notUpper⟩ := ends.head_ne
          simp [readTail, notLower, notUpper]
  | power isSign digits =>
      rcases isSign with rfl | rfl
      · exact (settles_readPower sign word exponent digits false).behind fun _ _ => rfl
      · exact (settles_readPower sign word exponent digits true).behind fun _ _ => rfl

theorem settles_readDecimals (digits : ∀ d ∈ ds, d.isDigit) (isExponent : IsExponent power) :
    Settles (readDecimals sign word exponent) (ds ++ power) (IsDouble sign) := by
  obtain ⟨value, count, left, leftDigits, gathered⟩ := exists_gather_eq digits word 0
  have ahead (other : List Char) (ends : Ends other) :
      gather word 0 (ds ++ power ++ other) = (value, count, left ++ (power ++ other)) := by
    rw [List.append_assoc]
    exact gathered _ (isExponent.stopsDigits ends)
  cases left with
  | cons d left =>
      obtain ⟨digit, more⟩ := List.forall_mem_cons.mp leftDigits
      refine (settles_readTail sign value (exponent - count) isExponent).behind ?_
      intro other ends
      rw [readDecimals, ahead other ends, List.cons_append]
      dsimp only
      rw [if_pos digit, (isExponent.stopsDigits ends).dropWhile_append more]
  | nil =>
      by_cases nothing : count = 0
      · refine settles_of_error ?_
        intro other ends
        have stops := isExponent.stopsDigits ends
        rw [readDecimals, ahead other ends, List.nil_append]
        cases behind : power ++ other with
        | nil => exact ⟨_, if_pos nothing⟩
        | cons c more =>
            rw [behind] at stops
            dsimp only
            rw [if_neg (by simp [stops c rfl]), if_pos nothing]
            exact ⟨_, rfl⟩
      · refine (settles_readTail sign value (exponent - count) isExponent).behind ?_
        intro other ends
        have stops := isExponent.stopsDigits ends
        rw [readDecimals, ahead other ends, List.nil_append]
        cases behind : power ++ other with
        | nil => exact if_neg nothing
        | cons c more =>
            rw [behind] at stops
            dsimp only
            rw [if_neg (by simp [stops c rfl]), if_neg nothing]

theorem settles_readAfterDigits (isFraction : IsFraction fraction)
    (isExponent : IsExponent power) :
    Settles (readAfterDigits sign word) (fraction ++ power)
      fun x => fraction ++ power ≠ [] → IsDouble sign x := by
  cases isFraction with
  | decimals digits =>
      refine Settles.imp ?_ fun x isDouble _ => isDouble
      exact (settles_readDecimals sign word 0 digits isExponent).behind fun _ _ => rfl
  | none =>
      cases isExponent with
      | none =>
          refine settles_of_ok (x := ofWord sign word) (fun some => absurd rfl some) ?_
          intro other ends
          cases other with
          | nil => rfl
          | cons c other => simp [readAfterDigits, ends.head_ne.2]
      | power isSign digits =>
          refine Settles.imp ?_ fun x isDouble _ => isDouble
          exact (settles_readTail sign word 0 (.power isSign digits)).behind fun _ _ => rfl

theorem settles_readAfterOverflow (digits : ∀ d ∈ ds, d.isDigit)
    (isFraction : IsFraction fraction) (isExponent : IsExponent power) :
    Settles (readAfterOverflow sign word) (ds ++ (fraction ++ power)) (IsDouble sign) := by
  have behindDigits (other : List Char) (ends : Ends other) :
      (ds ++ (fraction ++ power) ++ other).dropWhile Char.isDigit =
        fraction ++ (power ++ other) := by
    rw [List.append_assoc, List.append_assoc]
    exact (isFraction.stopsDigits isExponent ends).dropWhile_append digits
  have extra (other : List Char) (ends : Ends other) :
      (ds ++ (fraction ++ power) ++ other).takeWhile Char.isDigit = ds := by
    rw [List.append_assoc, List.append_assoc]
    exact (isFraction.stopsDigits isExponent ends).takeWhile_append digits
  cases isFraction with
  | decimals decimals =>
      refine (settles_readDecimals sign word ds.length decimals isExponent).behind ?_
      intro other ends
      rw [readAfterOverflow, behindDigits other ends, extra other ends, List.append_assoc]
      rfl
  | none =>
      refine (settles_readTail sign word ds.length isExponent).behind ?_
      intro other ends
      rw [readAfterOverflow, behindDigits other ends, extra other ends, List.nil_append]
      split
      · rename_i point
        exact absurd (congrArg List.head? point) (isExponent.head?_ne ends)
      · rfl

theorem read_of_ne_zero {c : Char} {cs : List Char} (notZero : c ≠ '0') (digit : c.isDigit) :
    read sign (c :: cs) =
      match gather (Text.digitValue c) 0 cs with
      | (word, _, next) =>
        if next.head?.any Char.isDigit then readAfterOverflow sign word next
        else readAfterDigits sign word next := by
  simp [read, digit]

/-- A number without its sign: digits, decimals or none, and an exponent or none. -/
structure IsUnsigned (c : Char) (digits fraction power : List Char) : Prop where
  first : c.isDigit
  digits : ∀ d ∈ digits, d.isDigit
  fraction : IsFraction fraction
  power : IsExponent power

theorem settles_read {c : Char} (unsigned : IsUnsigned c ds fraction power) :
    Settles (read sign) (c :: (ds ++ (fraction ++ power)))
      fun x => fraction ++ power ≠ [] → IsDouble sign x := by
  obtain ⟨digit, digits, isFraction, isExponent⟩ := unsigned
  have noDigit (other : List Char) (ends : Ends other) :
      (fraction ++ power ++ other).head?.any Char.isDigit = false := by
    have stops := isFraction.stopsDigits isExponent ends
    rw [List.append_assoc]
    cases behind : fraction ++ (power ++ other) with
    | nil => rfl
    | cons c more =>
        rw [behind] at stops
        exact stops c rfl
  by_cases zero : c = '0'
  · -- A leading zero is not gathered: it is passed over alone.
    subst zero
    cases ds with
    | nil =>
        refine (settles_readAfterDigits sign 0 isFraction isExponent).behind ?_
        intro other ends
        rw [List.cons_append, List.nil_append, read, noDigit other ends]
        rfl
    | cons d ds =>
        refine settles_of_error ?_
        intro other _
        have digit := (List.forall_mem_cons.mp digits).1
        rw [List.cons_append, List.cons_append, List.cons_append, read,
          if_pos (by simpa using digit)]
        exact ⟨_, rfl⟩
  · obtain ⟨value, count, left, leftDigits, gathered⟩ :=
      exists_gather_eq digits (Text.digitValue c) 0
    have ahead (other : List Char) (ends : Ends other) :
        gather (Text.digitValue c) 0 (ds ++ (fraction ++ power) ++ other) =
          (value, count, left ++ (fraction ++ power) ++ other) := by
      have found := gathered _ (isFraction.stopsDigits isExponent ends)
      simpa only [List.append_assoc] using found
    cases left with
    | nil =>
        refine (settles_readAfterDigits sign value isFraction isExponent).behind ?_
        intro other ends
        rw [List.cons_append, read_of_ne_zero sign zero digit, ahead other ends, List.nil_append]
        dsimp only
        rw [noDigit other ends]
        rfl
    | cons d left =>
        refine Settles.imp ?_ fun x isDouble _ => isDouble
        refine (settles_readAfterOverflow sign value leftDigits isFraction isExponent).behind ?_
        intro other ends
        have more := (List.forall_mem_cons.mp leftDigits).1
        rw [List.cons_append, read_of_ne_zero sign zero digit, ahead other ends, List.cons_append,
          List.cons_append]
        dsimp only
        rw [if_pos (by simpa using more)]

end

/-- The digits of a number, the first apart. -/
theorem exists_toDigits_eq_cons (n : Nat) :
    ∃ c ds, Nat.toDigits 10 n = c :: ds ∧ c.isDigit ∧ ∀ d ∈ ds, d.isDigit := by
  have digits : ∀ d ∈ Nat.toDigits 10 n, d.isDigit :=
    fun d member => Nat.isDigit_of_mem_toDigits (by decide) (by decide) member
  cases shape : Nat.toDigits 10 n with
  | nil => exact absurd shape Nat.toDigits_ne_nil
  | cons c ds =>
      rw [shape] at digits
      obtain ⟨first, more⟩ := List.forall_mem_cons.mp digits
      exact ⟨c, ds, rfl, first, more⟩

theorem forall_mem_replicate_zero (n : Nat) : ∀ d ∈ List.replicate n '0', d.isDigit := by
  intro d member
  cases List.eq_of_mem_replicate member
  rfl

end Criteria.JsonNumber

namespace Criteria.Decimal

open JsonNumber

/-- A whole number is written out in digits. -/
theorem exists_positional_eq_of_whole {d : Decimal} (whole : 0 ≤ d.exponent) :
    ∃ c ds, d.positional = c :: ds ∧ c.isDigit ∧ ∀ e ∈ ds, e.isDigit := by
  obtain ⟨c, ds, shape, digit, more⟩ := exists_toDigits_eq_cons d.coefficient
  refine ⟨c, ds ++ List.replicate d.exponent.toNat '0', ?_, digit, ?_⟩
  · rw [positional, if_pos whole, digits, shape, List.cons_append]
  · exact List.forall_mem_append.mpr ⟨more, forall_mem_replicate_zero _⟩

/-- Any other has digits on both sides of a point. -/
theorem exists_positional_eq_of_decimals {d : Decimal} (decimals : d.exponent < 0) :
    ∃ c ds es, d.positional = c :: (ds ++ '.' :: es) ∧ c.isDigit ∧ (∀ e ∈ ds, e.isDigit) ∧
      ∀ e ∈ es, e.isDigit := by
  obtain ⟨c, ds, shape, digit, more⟩ := exists_toDigits_eq_cons d.coefficient
  have all : ∀ e ∈ c :: ds, e.isDigit := List.forall_mem_cons.mpr ⟨digit, more⟩
  by_cases inside : 0 < d.exponent + d.digits.length
  · obtain ⟨n, place⟩ : ∃ n, (d.exponent + d.digits.length).toNat = n + 1 :=
      ⟨_, (Nat.sub_add_cancel (by omega)).symm⟩
    refine ⟨c, ds.take n, ds.drop n, ?_, digit, ?_, ?_⟩
    · rw [positional, if_neg (by omega), if_pos inside, place, digits, shape,
        List.take_succ_cons, List.drop_succ_cons, List.cons_append]
    · exact fun e member => more e (List.mem_of_mem_take member)
    · exact fun e member => more e (List.mem_of_mem_drop member)
  · refine ⟨'0', [], List.replicate (-(d.exponent + d.digits.length)).toNat '0' ++ d.digits, ?_,
      rfl, List.forall_mem_nil _, ?_⟩
    · rw [positional, if_neg (by omega), if_neg inside]
      rfl
    · rw [digits, shape]
      exact List.forall_mem_append.mpr ⟨forall_mem_replicate_zero _, all⟩

/-- In scientific notation there is an exponent, with a sign. -/
theorem exists_scientific_eq (d : Decimal) :
    ∃ c fraction sign ds, d.scientific = c :: (fraction ++ 'e' :: sign :: ds) ∧ c.isDigit ∧
      IsFraction fraction ∧ (sign = '+' ∨ sign = '-') ∧ ∀ e ∈ ds, e.isDigit := by
  obtain ⟨c, ds, shape, digit, more⟩ := exists_toDigits_eq_cons d.coefficient
  have power : ∀ e ∈ Nat.toDigits 10 d.leading.natAbs, e.isDigit :=
    fun e member => Nat.isDigit_of_mem_toDigits (by decide) (by decide) member
  have isSign : (if d.leading < 0 then '-' else '+') = '+' ∨
      (if d.leading < 0 then '-' else '+') = '-' := by
    split
    · exact .inr rfl
    · exact .inl rfl
  cases ds with
  | nil =>
      refine ⟨c, [], _, _, ?_, digit, .none, isSign, power⟩
      rw [scientific, digits, shape]
      rfl
  | cons second ds =>
      refine ⟨c, '.' :: second :: ds, _, _, ?_, digit, .decimals more, isSign, power⟩
      rw [scientific, digits, shape]
      rfl

end Criteria.Decimal

namespace Criteria.JsonNumber

/-- A double is written with a point or an exponent. -/
theorem exists_magnitude_eq (m : Magnitude) :
    ∃ c ds fraction power, style.magnitude m = c :: (ds ++ (fraction ++ power)) ∧
      IsUnsigned c ds fraction power ∧ fraction ++ power ≠ [] := by
  unfold NumberStyle.magnitude
  dsimp only
  split
  · split
    · rename_i whole
      obtain ⟨c, ds, shape, digit, more⟩ := Decimal.exists_positional_eq_of_whole whole
      refine ⟨c, ds, ['.', '0'], [], ?_, ⟨digit, more, .decimals ?_, .none⟩, by simp⟩
      · rw [shape]
        rfl
      · exact List.forall_mem_singleton.mpr rfl
    · rename_i notWhole
      obtain ⟨c, ds, es, shape, digit, more, decimals⟩ :=
        Decimal.exists_positional_eq_of_decimals (Int.not_le.mp notWhole)
      refine ⟨c, ds, '.' :: es, [], ?_, ⟨digit, more, .decimals decimals, .none⟩, by simp⟩
      rw [shape, List.append_nil]
  · obtain ⟨c, fraction, sign, ds, shape, digit, isFraction, isSign, power⟩ :=
      (m.shortest style.tie).exists_scientific_eq
    exact ⟨c, [], fraction, _, shape, ⟨digit, List.forall_mem_nil _, isFraction,
      .power isSign power⟩, by simp⟩

theorem chars_double (negative : Bool) (m : Magnitude) :
    (JsonNumber.double negative m).chars =
      (if negative then ['-'] else []) ++ style.magnitude m := by
  cases negative <;> rfl

/-- A number with its sign. -/
def readSigned : List Char → Except Json.Fault (JsonNumber × List Char)
  | '-' :: cs => read true cs
  | cs => read false cs

theorem readSigned_of_digit {c : Char} (digit : c.isDigit) (cs : List Char) :
    readSigned (c :: cs) = read false (c :: cs) := by
  unfold readSigned
  split
  · rename_i same
    rw [(List.cons.inj same).1] at digit
    cases digit
  · rfl

/-- Every number is written as a digit and more, behind a sign or none. -/
theorem exists_chars_eq (n : JsonNumber) :
    ∃ sign c ds fraction power,
      n.chars = (if sign then ['-'] else []) ++ c :: (ds ++ (fraction ++ power)) ∧
        IsUnsigned c ds fraction power ∧
        ∀ negative m, n = .double negative m → sign = negative ∧ fraction ++ power ≠ [] := by
  cases n with
  | natural k =>
      obtain ⟨c, ds, shape, digit, more⟩ := exists_toDigits_eq_cons k
      refine ⟨false, c, ds, [], [], ?_, ⟨digit, more, .none, .none⟩, fun _ _ same => by cases same⟩
      rw [chars, shape, List.append_nil, List.append_nil]
      rfl
  | negative k =>
      obtain ⟨c, ds, shape, digit, more⟩ := exists_toDigits_eq_cons k
      refine ⟨true, c, ds, [], [], ?_, ⟨digit, more, .none, .none⟩, fun _ _ same => by cases same⟩
      rw [chars, shape, List.append_nil, List.append_nil]
      rfl
  | double sign m =>
      obtain ⟨c, ds, fraction, power, shape, unsigned, some⟩ := exists_magnitude_eq m
      refine ⟨sign, c, ds, fraction, power, by rw [chars_double, shape], unsigned, ?_⟩
      rintro _ _ same
      cases same
      exact ⟨rfl, some⟩

/-- The text of a number settles what it is read as, and a double is read as one. -/
theorem settles_readSigned (n : JsonNumber) :
    Settles readSigned n.chars fun x =>
      ∀ negative m, n = .double negative m → IsDouble negative x := by
  obtain ⟨sign, c, ds, fraction, power, chars, unsigned, double⟩ := n.exists_chars_eq
  refine ((settles_read sign unsigned).behind ?_).imp ?_
  · intro other _
    rw [chars]
    cases sign with
    | true => rfl
    | false => exact readSigned_of_digit unsigned.first _
  · intro x isDouble negative m same
    obtain ⟨rfl, some⟩ := double negative m same
    exact isDouble some

/-- What the text of a number is read as by itself. -/
def reread? (n : JsonNumber) : Option JsonNumber := (readSigned n.chars).toOption.map Prod.fst

/-- Whatever follows a number, it is read as it is by itself. -/
theorem readSigned_chars (n : JsonNumber) {rest : List Char} (ends : Ends rest) :
    (readSigned (n.chars ++ rest)).toOption = n.reread?.map fun x => (x, rest) :=
  n.settles_readSigned.toOption_eq ends

theorem isDouble_of_reread? {negative : Bool} {m : Magnitude} {x : JsonNumber}
    (found : (JsonNumber.double negative m).reread? = some x) : IsDouble negative x :=
  (settles_readSigned _).holds found negative m rfl

end Criteria.JsonNumber
