import Mathlib.Data.List.TakeWhile
import Mathlib.Data.Option.Basic
import Criteria.Instant.Layout

set_option autoImplicit false

/-
What texts can be read as. No piece of a layout finds a billion nanoseconds, and offsets
are whole minutes, so that a leap second that is read is at the end of its minute.
-/
namespace Criteria

theorem Text.digitsValue_lt {ds : List Char} (digits : ∀ d ∈ ds, d.isDigit) :
    digitsValue ds < 10 ^ ds.length := by
  have behind (n : Nat) :
      ds.foldl (fun n d => 10 * n + digitValue d) n < (n + 1) * 10 ^ ds.length := by
    induction ds generalizing n with
    | nil => simp
    | cons d ds ih =>
        obtain ⟨digit, digits⟩ := List.forall_mem_cons.mp digits
        have small : digitValue d ≤ 9 := by
          simp only [Char.isDigit, Bool.and_eq_true, decide_eq_true_eq] at digit
          have most : d.toNat ≤ 57 := digit.2
          exact Nat.sub_le_of_le_add most
        calc (d :: ds).foldl (fun n d => 10 * n + digitValue d) n
            < (10 * n + digitValue d + 1) * 10 ^ ds.length := ih digits _
          _ ≤ ((n + 1) * 10) * 10 ^ ds.length := Nat.mul_le_mul_right _ (by omega)
          _ = (n + 1) * 10 ^ (d :: ds).length := by
            rw [List.length_cons, Nat.pow_succ', Nat.mul_assoc]
  exact Nat.lt_of_lt_of_eq (behind 0) (Nat.one_mul _)

namespace Instant

theorem isDigit_of_mem_takeDigits {limit : Nat} {cs : List Char} {d : Char}
    (member : d ∈ (takeDigits limit cs).1) : d.isDigit :=
  List.mem_takeWhile_imp member

theorem length_takeDigits_le (limit : Nat) (cs : List Char) :
    (takeDigits limit cs).1.length ≤ limit :=
  Nat.le_trans (List.takeWhile_prefix _).length_le (List.length_take_le _ _)

/-- Up to nine decimals stand for less than a billion nanoseconds. -/
theorem nanos_lt {ds : List Char} (digits : ∀ d ∈ ds, d.isDigit) (short : ds.length ≤ 9) :
    Text.digitsValue ds * 10 ^ (9 - ds.length) < 1000000000 := by
  calc Text.digitsValue ds * 10 ^ (9 - ds.length)
      < 10 ^ ds.length * 10 ^ (9 - ds.length) :=
        Nat.mul_lt_mul_of_pos_right (Text.digitsValue_lt digits) (Nat.pow_pos (by decide))
    _ = 1000000000 := by
        rw [← Nat.pow_add, Nat.add_sub_cancel' short]

theorem readFraction_lt {nanos : Nat} {cs rest : List Char}
    (found : readFraction cs = some (nanos, rest)) : nanos < 1000000000 := by
  unfold readFraction at found
  split at found
  · rename_i decimals
    have short := length_takeDigits_le 9 decimals
    have small := nanos_lt (@isDigit_of_mem_takeDigits 9 decimals) short
    split at found
    · cases found
    · rename_i taken
      cases found
      rwa [taken] at small
  · cases found
    decide

theorem readOffset_minutes {between : List Char → Option (List Char)} {offset : Int}
    {cs rest : List Char} (found : readOffset between cs = some (offset, rest)) :
    offset % 60 = 0 := by
  simp only [readOffset, Option.bind_eq_bind] at found
  split at found
  case h_4 => cases found
  all_goals
    simp only [Option.bind_some, Option.bind_eq_some_iff] at found
    obtain ⟨_, _, _, _, _, _, _, _, same⟩ := found
    cases same
    simp only [if_true, Bool.false_eq_true, if_false]
    omega

/-- The time of a reading can be one of a day in a zone that is whole minutes ahead. -/
structure Reading.IsTimely (r : Reading) : Prop where
  second : r.second ≤ 60
  nanos : r.nanos < 1000000000
  offset : r.offset % 60 = 0

theorem Reading.IsTimely.of_set {r next : Reading} (timely : r.IsTimely) {part : Part} {n : Int}
    (found : r.set part n = some next) : next.IsTimely := by
  obtain ⟨second, nanos, offset⟩ := timely
  cases part <;> simp only [set] at found
  case year =>
    cases found
    exact ⟨second, nanos, offset⟩
  case second =>
    split at found
    · rename_i within
      cases found
      exact ⟨Int.toNat_le.mpr within.2, nanos, offset⟩
    · cases found
  all_goals
    split at found
    · cases found
      exact ⟨second, nanos, offset⟩
    · cases found

theorem Piece.isTimely_of_read {piece : Piece} {r next : Reading} {cs rest : List Char}
    (timely : r.IsTimely) (found : piece.read r cs = some (next, rest)) : next.IsTimely := by
  cases piece with
  | exact width part =>
      simp only [Piece.read, Option.bind_eq_bind, Option.bind_eq_some_iff] at found
      obtain ⟨_, _, _, set, same⟩ := found
      cases same
      exact timely.of_set set
  | number part =>
      cases part <;>
        simp only [Piece.read, Option.bind_eq_bind, Option.bind_eq_some_iff] at found <;>
        obtain ⟨_, _, _, set, same⟩ := found <;>
        cases same <;>
        exact timely.of_set set
  | mark c =>
      cases cs with
      | nil => cases found
      | cons first cs =>
          simp only [Piece.read] at found
          split at found <;> cases found
          exact timely
  | separator =>
      cases cs with
      | nil => cases found
      | cons first cs =>
          simp only [Piece.read] at found
          split at found <;> cases found
          exact timely
  | blanks =>
      cases found
      exact timely
  | fraction =>
      simp only [Piece.read, Option.bind_eq_bind, Option.bind_eq_some_iff] at found
      obtain ⟨⟨nanos, left⟩, digits, same⟩ := found
      cases same
      exact ⟨timely.second, readFraction_lt digits, timely.offset⟩
  | zone =>
      simp only [Piece.read] at found
      split at found
      · cases found
        exact timely
      · cases found
        exact timely
      · simp only [Option.bind_eq_bind, Option.bind_eq_some_iff] at found
        obtain ⟨⟨offset, left⟩, shift, same⟩ := found
        cases same
        exact ⟨timely.second, timely.nanos, readOffset_minutes shift⟩
  | looseOffset =>
      simp only [Piece.read, Option.bind_eq_bind, Option.bind_eq_some_iff] at found
      obtain ⟨⟨offset, left⟩, shift, same⟩ := found
      cases same
      exact ⟨timely.second, timely.nanos, readOffset_minutes shift⟩

theorem Layout.isTimely_of_readFrom {layout : Layout} {r last : Reading} {cs : List Char}
    (timely : r.IsTimely) (found : layout.readFrom r cs = some last) : last.IsTimely := by
  induction layout generalizing r cs with
  | nil =>
      cases cs with
      | nil =>
          cases found
          exact timely
      | cons c cs => cases found
  | cons piece more ih =>
      simp only [Layout.readFrom, Option.bind_eq_bind, Option.bind_eq_some_iff] at found
      obtain ⟨⟨next, rest⟩, step, found⟩ := found
      exact ih (Piece.isTimely_of_read timely step) found

/-- The layouts in the order in which they are tried, each with the text that it is tried on. -/
def attempts (cs : List Char) : List (Layout × List Char) :=
  [(Layout.internet, cs)] ++ (Layout.plain.map (·, dropZulu cs) ++
    (Layout.shifted.map (·, cs) ++
      ([(Layout.fullDate, cs)] ++ [(Layout.fullDate, cs ++ ['-', '0', '1'])])))

theorem ofChars?_eq_findSome? (text : List Char) :
    ofChars? text =
      (attempts (Text.trim text)).findSome? fun attempt => attempt.1.read? attempt.2 := by
  simp only [ofChars?, attempts, List.findSome?_append, List.findSome?_map,
    List.findSome?_singleton, Option.orElse_eq_orElse, Option.orElse_eq_or]
  rfl

theorem exists_attempt_of_ofText? {text : String} {t : Instant} (read : ofText? text = some t) :
    ∃ attempt ∈ attempts (Text.trim text.toList), attempt.1.read? attempt.2 = some t := by
  rw [ofText?, ofChars?_eq_findSome?] at read
  exact List.exists_of_findSome?_eq_some read

/-- An instant in the range of years, in a leap second only where it ends a minute. -/
structure IsProper (t : Instant) : Prop where
  range : t.inRange
  within : t.nanos < 2000000000
  leap : 1000000000 ≤ t.nanos → t.seconds % 60 = 59

theorem ofLocal_isProper {r : Reading} (timely : r.IsTimely) (date : CalendarDate)
    (range : (ofLocal date ⟨r.hour, r.minute, r.second, r.nanos⟩ r.offset).inRange) :
    (ofLocal date ⟨r.hour, r.minute, r.second, r.nanos⟩ r.offset).IsProper := by
  obtain ⟨second, nanos, offset⟩ := timely
  refine ⟨range, ?_, ?_⟩
  · simp only [ofLocal]
    split <;> omega
  · simp only [ofLocal]
    split <;> omega

/-- Every instant that a text is read as is a proper one. -/
theorem isProper_of_ofText? {text : String} {t : Instant} (read : ofText? text = some t) :
    t.IsProper := by
  obtain ⟨attempt, -, found⟩ := exists_attempt_of_ofText? read
  obtain ⟨r, isR, found⟩ := Option.bind_eq_some_iff.mp found
  have timely : r.IsTimely := Layout.isTimely_of_readFrom ⟨by decide, by decide, rfl⟩ isR
  simp only [Reading.instant?] at found
  split at found
  · rename_i valid
    cases found
    exact ofLocal_isProper timely _ (Bool.and_eq_true_iff.mp valid).2
  · cases found

end Instant
end Criteria
