import Criteria.Instant
import Criteria.Proofs.DayNumbers

set_option autoImplicit false

/-
Instants of local dates and times. A clock that is ahead by the offset shows the date and the
time that the instant was made of.
-/
namespace Criteria

/-- Whether a time is one of a day; a leap second is not. -/
structure ClockTime.IsTimeOfDay (time : ClockTime) : Prop where
  hour : time.hour ≤ 23
  minute : time.minute ≤ 59
  second : time.second ≤ 59
  nanos : time.nanos < 1000000000

def ClockTime.midnight : ClockTime := ⟨0, 0, 0, 0⟩

instance (time : ClockTime) : Decidable time.IsTimeOfDay :=
  decidable_of_iff (time.hour ≤ 23 ∧ time.minute ≤ 59 ∧ time.second ≤ 59 ∧ time.nanos < 1000000000)
    ⟨fun ⟨hour, minute, second, nanos⟩ => ⟨hour, minute, second, nanos⟩,
      fun ⟨hour, minute, second, nanos⟩ => ⟨hour, minute, second, nanos⟩⟩

theorem ClockTime.midnight_isTimeOfDay : midnight.IsTimeOfDay := by decide

namespace Instant

/-- What clocks that are some seconds ahead show at an instant is the universal time of this. -/
def ahead (t : Instant) (offset : Int) : Instant := { t with seconds := t.seconds + offset }

section
variable {date : CalendarDate} {time : ClockTime} {offset : Int}

theorem seconds_lt_of_isTimeOfDay (ofDay : time.IsTimeOfDay) :
    time.hour * 3600 + time.minute * 60 + time.second < 86400 := by
  obtain ⟨hour, minute, second, -⟩ := ofDay
  omega

theorem ahead_ofLocal (ofDay : time.IsTimeOfDay) :
    (ofLocal date time offset).ahead offset =
      { seconds := (date.dayNumber - epoch) * 86400 +
          (time.hour * 3600 + time.minute * 60 + time.second : Nat)
        nanos := time.nanos } := by
  have noLeap : ¬ time.second = 60 := by
    have second := ofDay.second
    omega
  simp only [ofLocal, ahead, beq_iff_eq, if_neg noLeap, Int.sub_add_cancel]

/-- A clock that is ahead shows the date that it was read with. -/
theorem date_ahead_ofLocal (valid : date.isValid) (ofDay : time.IsTimeOfDay) :
    ((ofLocal date time offset).ahead offset).date = date := by
  have within := seconds_lt_of_isTimeOfDay ofDay
  rw [ahead_ofLocal ofDay, Instant.date]
  generalize time.hour * 3600 + time.minute * 60 + time.second = second at within
  have day : ((date.dayNumber - epoch) * 86400 + (second : Int)) / 86400 + epoch =
      date.dayNumber := by omega
  dsimp only
  rw [day, CalendarDate.ofDayNumber_dayNumber valid]

/-- And the time of day. -/
theorem clockTime_ahead_ofLocal (ofDay : time.IsTimeOfDay) :
    ((ofLocal date time offset).ahead offset).clockTime = time := by
  have within := seconds_lt_of_isTimeOfDay ofDay
  rw [ahead_ofLocal ofDay]
  obtain ⟨-, minute, second, nanos⟩ := ofDay
  generalize whole : time.hour * 3600 + time.minute * 60 + time.second = seconds at within
  have rest : (((date.dayNumber - epoch) * 86400 + (seconds : Int)) % 86400).toNat = seconds := by
    omega
  have hours : seconds / 3600 = time.hour := by omega
  have minutes : seconds / 60 % 60 = time.minute := by omega
  have left : seconds % 60 = time.second := by omega
  have noLeap : ¬ 1000000000 ≤ time.nanos := by omega
  simp only [clockTime, rest, hours, minutes, left, noLeap, if_false, Nat.add_zero]

/-- The years of four digits are well inside the calendar, whatever the offset. -/
theorem inRange_ofLocal (valid : date.isValid) (first : 0 ≤ date.year) (last : date.year ≤ 9999)
    (ofDay : time.IsTimeOfDay) (near : -86400 < offset ∧ offset < 86400) :
    (ofLocal date time offset).inRange := by
  have within := seconds_lt_of_isTimeOfDay ofDay
  have seconds : (ofLocal date time offset).seconds + offset = (date.dayNumber - epoch) * 86400 +
      (time.hour * 3600 + time.minute * 60 + time.second : Nat) :=
    congrArg Instant.seconds (ahead_ofLocal ofDay)
  have day : date.dayNumber - 1 ≤ (ofLocal date time offset).seconds / 86400 + epoch ∧
      (ofLocal date time offset).seconds / 86400 + epoch ≤ date.dayNumber + 1 := by
    omega
  have year : (ofLocal date time offset).date.year =
      Calendar.yearOf ((ofLocal date time offset).seconds / 86400 + epoch) := rfl
  rw [inRange, year]
  generalize (ofLocal date time offset).seconds / 86400 + epoch = n at day
  obtain ⟨starts, ends⟩ := CalendarDate.dayNumber_within valid
  have low := Calendar.yearStart_le first
  have high := Calendar.yearStart_le (show date.year + 1 ≤ 10000 by omega)
  have zero : Calendar.yearStart 0 = -366 := by decide
  have tenThousand : Calendar.yearStart 10000 = 3652059 := by decide
  have least : Calendar.yearStart CalendarDate.firstYear ≤ -366 - 1 := by decide
  have most : 3652059 + 1 < Calendar.yearStart (CalendarDate.lastYear + 1) := by decide
  have notEarly : CalendarDate.firstYear ≤ Calendar.yearOf n := Calendar.le_yearOf (by omega)
  have notLate : Calendar.yearOf n ≤ CalendarDate.lastYear := Calendar.yearOf_le (by omega)
  rw [decide_eq_true notEarly, decide_eq_true notLate]
  rfl

end

end Instant
end Criteria
