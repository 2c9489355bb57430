import Criteria.Calendar

set_option autoImplicit false

/-
Days and their dates. Years follow each other without a gap, and so do the months of a
year, so that every day has a date whose day number it is, and every date in the calendar
is that of the day it numbers.
-/
namespace Criteria

-- Holds the start of sums to the numeral in every context.
attribute [local instance (high)] Zero.ofOfNat0

namespace Calendar

theorem sum_monthLengths (leap : Bool) :
    (monthLengths leap).sum = if leap then 366 else 365 := by
  cases leap <;> rfl

theorem length_monthLengths (leap : Bool) : (monthLengths leap).length = 12 := rfl

theorem monthLength_le (leap : Bool) : ∀ length ∈ monthLengths leap, length ≤ 31 := by
  cases leap <;> decide

/-- A year begins when the months of the one before are over. -/
theorem yearStart_succ (year : Int) :
    yearStart (year + 1) = yearStart year + (monthLengths (isLeap year)).sum := by
  rw [sum_monthLengths]
  unfold yearStart isLeap
  simp only [Bool.and_eq_true, Bool.or_eq_true, beq_iff_eq, bne_iff_ne]
  split <;> omega

/-- The year of a day is the one that the day is in. -/
theorem yearOf_holds (day : Int) :
    yearStart (yearOf day) ≤ day ∧ day < yearStart (yearOf day + 1) := by
  unfold yearOf
  dsimp only
  generalize guessed : 400 * day / 146097 + 1 = guess
  -- Years drift off their average by less than two days, so that a guess is at most one off.
  split
  · rename_i early
    refine ⟨?_, by simpa using early⟩
    unfold yearStart
    omega
  · rename_i reached
    split
    · rename_i late
      refine ⟨late, ?_⟩
      unfold yearStart
      omega
    · exact ⟨by omega, by omega⟩

theorem yearStart_le {year later : Int} (le : year ≤ later) : yearStart year ≤ yearStart later := by
  unfold yearStart
  omega

theorem le_yearOf {day year : Int} (reached : yearStart year ≤ day) : year ≤ yearOf day := by
  obtain ⟨-, ends⟩ := yearOf_holds day
  refine Int.not_lt.mp fun early => ?_
  have later := yearStart_le (show yearOf day + 1 ≤ year by omega)
  omega

theorem yearOf_le {day year : Int} (within : day < yearStart (year + 1)) : yearOf day ≤ year := by
  obtain ⟨starts, -⟩ := yearOf_holds day
  refine Int.not_lt.mp fun late => ?_
  have earlier := yearStart_le (show year + 1 ≤ yearOf day by omega)
  omega

/-- No other year holds a day. -/
theorem yearOf_eq {day year : Int} (reached : yearStart year ≤ day)
    (within : day < yearStart (year + 1)) : yearOf day = year :=
  Int.le_antisymm (yearOf_le within) (le_yearOf reached)

/-- A day inside one of the lengths is found there. -/
theorem splitLengths_eq {lengths : List Nat} {count length rest : Nat}
    (found : lengths[count]? = some length) (inside : rest < length) :
    splitLengths lengths ((lengths.take count).sum + rest) = (count, rest) := by
  induction lengths generalizing count with
  | nil => cases found
  | cons first more ih =>
      cases count with
      | zero =>
          obtain rfl : first = length := by simpa using found
          rw [splitLengths, if_pos (by simpa using inside)]
          simp
      | succ count =>
          have behind : (first + (more.take count).sum + rest) - first =
              (more.take count).sum + rest := by omega
          rw [List.take_succ_cons, List.sum_cons, splitLengths, if_neg (by omega), behind,
            ih (by simpa using found)]

/-- The lengths in front of the one that holds a day make up the day, but for the days left. -/
theorem splitLengths_holds {lengths : List Nat} {day : Nat} (inside : day < lengths.sum) :
    ∃ length, lengths[(splitLengths lengths day).1]? = some length ∧
      (splitLengths lengths day).2 < length ∧
      (lengths.take (splitLengths lengths day).1).sum + (splitLengths lengths day).2 = day := by
  induction lengths generalizing day with
  | nil => exact absurd inside (Nat.not_lt_zero day)
  | cons length more ih =>
      rw [splitLengths]
      split
      · rename_i here
        exact ⟨length, rfl, here, by simp⟩
      · rename_i beyond
        rw [List.sum_cons] at inside
        obtain ⟨other, found, left, total⟩ := ih (show day - length < more.sum by omega)
        refine ⟨other, found, left, ?_⟩
        dsimp only
        rw [List.take_succ_cons, List.sum_cons]
        omega

end Calendar

namespace CalendarDate

open Calendar

/-- The date of a day is in the calendar and has the number of the day. -/
theorem ofDayNumber_holds (n : Int) :
    ∃ length, (monthLengths (isLeap (ofDayNumber n).year))[(ofDayNumber n).month - 1]? =
        some length ∧
      1 ≤ (ofDayNumber n).month ∧ 1 ≤ (ofDayNumber n).day ∧ (ofDayNumber n).day ≤ length ∧
      (ofDayNumber n).dayNumber = n := by
  obtain ⟨reached, within⟩ := yearOf_holds n
  rw [yearStart_succ] at within
  have inside : (n - yearStart (yearOf n)).toNat < (monthLengths (isLeap (yearOf n))).sum := by
    omega
  obtain ⟨length, found, left, total⟩ := splitLengths_holds inside
  refine ⟨length, found, Nat.le_add_left 1 _, Nat.le_add_left 1 _, left, ?_⟩
  simp only [ofDayNumber, dayNumber, Nat.add_sub_cancel]
  rw [total]
  omega

theorem dayNumber_ofDayNumber (n : Int) : (ofDayNumber n).dayNumber = n := by
  obtain ⟨_, _, _, _, _, same⟩ := ofDayNumber_holds n
  exact same

theorem isValid_iff (d : CalendarDate) :
    d.isValid ↔ (firstYear ≤ d.year ∧ d.year ≤ lastYear) ∧ 1 ≤ d.month ∧ 1 ≤ d.day ∧
      ∃ length, (monthLengths (isLeap d.year))[d.month - 1]? = some length ∧ d.day ≤ length := by
  unfold isValid
  cases (monthLengths (isLeap d.year))[d.month - 1]? <;> simp [and_assoc]

/-- The day of a date in the calendar is in the year of the date. -/
theorem dayNumber_within {d : CalendarDate} (valid : d.isValid) :
    yearStart d.year ≤ d.dayNumber ∧ d.dayNumber < yearStart (d.year + 1) := by
  obtain ⟨-, -, day, length, found, within⟩ := d.isValid_iff.mp valid
  obtain ⟨bound, same⟩ := List.getElem?_eq_some_iff.mp found
  have whole := congrArg List.sum
    (List.take_append_drop (d.month - 1) (monthLengths (isLeap d.year)))
  rw [List.sum_append, List.drop_eq_getElem_cons bound, List.sum_cons, same] at whole
  rw [yearStart_succ, dayNumber]
  omega

/-- A date in the calendar is the date of its day. -/
theorem ofDayNumber_dayNumber {d : CalendarDate} (valid : d.isValid) :
    ofDayNumber d.dayNumber = d := by
  obtain ⟨-, month, day, length, found, within⟩ := d.isValid_iff.mp valid
  have days := splitLengths_eq found (show d.day - 1 < length by omega)
  obtain ⟨starts, ends⟩ := dayNumber_within valid
  have year : yearOf d.dayNumber = d.year := yearOf_eq starts ends
  have rest : (d.dayNumber - yearStart d.year).toNat =
      ((monthLengths (isLeap d.year)).take (d.month - 1)).sum + (d.day - 1) := by
    rw [dayNumber]
    omega
  simp only [ofDayNumber, year, rest, days]
  rw [Nat.sub_add_cancel month, Nat.sub_add_cancel day]

theorem isValid_ofDayNumber {n : Int} (first : firstYear ≤ (ofDayNumber n).year)
    (last : (ofDayNumber n).year ≤ lastYear) : (ofDayNumber n).isValid := by
  obtain ⟨length, found, month, day, within, -⟩ := ofDayNumber_holds n
  simp [isValid, first, last, month, day, found, within]

theorem month_ofDayNumber (n : Int) :
    1 ≤ (ofDayNumber n).month ∧ (ofDayNumber n).month ≤ 12 := by
  obtain ⟨length, found, month, -⟩ := ofDayNumber_holds n
  obtain ⟨inside, -⟩ := List.getElem?_eq_some_iff.mp found
  rw [length_monthLengths] at inside
  omega

theorem day_ofDayNumber (n : Int) : 1 ≤ (ofDayNumber n).day ∧ (ofDayNumber n).day ≤ 31 := by
  obtain ⟨length, found, -, day, within, -⟩ := ofDayNumber_holds n
  exact ⟨day, Nat.le_trans within (monthLength_le _ _ (List.mem_of_getElem? found))⟩

end CalendarDate
end Criteria
