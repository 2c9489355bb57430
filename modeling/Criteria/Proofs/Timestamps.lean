import Criteria.Condition
import Criteria.Proofs.DayNumbers
import Criteria.Proofs.IsoTexts
import Criteria.Proofs.ReadInstants
import Criteria.Registry.Sample

set_option autoImplicit false

/-
Instants and their texts. An instant is read again from its text to the millisecond, and
what is read from any text is an instant of which this holds.
-/
namespace Criteria

/-- The time to the millisecond. -/
def ClockTime.toMillis (time : ClockTime) : ClockTime :=
  { time with nanos := time.nanos / 1000000 * 1000000 }

namespace Instant

theorem ext {s t : Instant} (seconds : s.seconds = t.seconds) (nanos : s.nanos = t.nanos) :
    s = t := by
  cases s
  cases t
  exact (mk.injEq ..).mpr ⟨seconds, nanos⟩

/-- The instant to the millisecond; a leap second stays one. -/
def toMillis (t : Instant) : Instant := { t with nanos := t.nanos / 1000000 * 1000000 }

/-- The instant that the text of an instant names. Only the last second of a minute has room
for a leap second; the text of any other names the second that follows. -/
def written (t : Instant) : Instant :=
  if 1000000000 ≤ t.nanos ∧ t.seconds % 60 ≠ 59 then
    toMillis ⟨t.seconds + 1, t.nanos - 1000000000⟩
  else t.toMillis

theorem written_eq_toMillis {t : Instant} (leap : 1000000000 ≤ t.nanos → t.seconds % 60 = 59) :
    t.written = t.toMillis := by
  rw [written, if_neg]
  rintro ⟨isLeap, inside⟩
  exact inside (leap isLeap)

theorem written_eq_next {t : Instant} (leap : 1000000000 ≤ t.nanos)
    (inside : t.seconds % 60 ≠ 59) :
    t.written = toMillis ⟨t.seconds + 1, t.nanos - 1000000000⟩ := if_pos ⟨leap, inside⟩

theorem date_written (t : Instant) : t.written.date = t.date := by
  unfold written
  split
  · have sameDay : (t.seconds + 1) / 86400 = t.seconds / 86400 := by omega
    simp only [toMillis, date, sameDay]
  · rfl

theorem inRange_written (t : Instant) : t.written.inRange = t.inRange := by
  rw [inRange, date_written, inRange]

theorem second_clockTime (t : Instant) :
    t.clockTime.second =
      (t.seconds % 60).toNat + if 1000000000 ≤ t.nanos then 1 else 0 := by
  have inDay : (t.seconds % 86400).toNat % 60 = (t.seconds % 60).toNat := by omega
  rw [← inDay]
  rfl

theorem seconds_clockTime (t : Instant) :
    t.clockTime.hour * 3600 + t.clockTime.minute * 60 + (t.seconds % 60).toNat =
      (t.seconds % 86400).toNat := by
  have hour : t.clockTime.hour = (t.seconds % 86400).toNat / 3600 := rfl
  have minute : t.clockTime.minute = (t.seconds % 86400).toNat / 60 % 60 := rfl
  omega

theorem nanos_clockTime (t : Instant) : t.clockTime.nanos =
    if 1000000000 ≤ t.nanos then t.nanos - 1000000000 else t.nanos := rfl

theorem clockTime_toMillis (t : Instant) : t.toMillis.clockTime = t.clockTime.toMillis := by
  have whole : 1000000000 ≤ t.nanos / 1000000 * 1000000 ↔ 1000000000 ≤ t.nanos := by omega
  simp only [clockTime, toMillis, ClockTime.toMillis, whole, ClockTime.mk.injEq, true_and]
  split <;> omega

theorem clockTime_next {t : Instant} (within : t.nanos < 2000000000) (leap : 1000000000 ≤ t.nanos)
    (inside : t.seconds % 60 ≠ 59) :
    clockTime ⟨t.seconds + 1, t.nanos - 1000000000⟩ = t.clockTime := by
  have none : ¬ 1000000000 ≤ t.nanos - 1000000000 := by omega
  simp only [clockTime, if_pos leap, if_neg none, ClockTime.mk.injEq, and_true]
  refine ⟨?_, ?_, ?_⟩ <;> omega

/-- The text of an instant is the text of the instant that it names. -/
theorem iso_written {t : Instant} (within : t.nanos < 2000000000) : t.written.iso = t.iso := by
  have sameTime : t.written.clockTime = t.clockTime.toMillis := by
    by_cases leap : 1000000000 ≤ t.nanos ∧ t.seconds % 60 ≠ 59
    · obtain ⟨leap, inside⟩ := leap
      rw [written_eq_next leap inside, clockTime_toMillis, clockTime_next within leap inside]
    · rw [written, if_neg leap, clockTime_toMillis]
  have sameMillis : t.clockTime.nanos / 1000000 * 1000000 / 1000000 =
      t.clockTime.nanos / 1000000 := by omega
  simp only [iso, isoChars, date_written, sameTime, ClockTime.toMillis, sameMillis]

theorem hasParts {t : Instant} (within : t.nanos < 2000000000) :
    HasParts t.date t.clockTime where
  month := CalendarDate.month_ofDayNumber _
  day := CalendarDate.day_ofDayNumber _
  hour := by
    change (t.seconds % 86400).toNat / 3600 ≤ 23
    omega
  minute := by
    change (t.seconds % 86400).toNat / 60 % 60 ≤ 59
    omega
  second := by
    change t.clockTime.second ≤ 60
    rw [second_clockTime]
    split <;> omega
  nanos := by
    rw [nanos_clockTime]
    split <;> omega

theorem ofLocal_of_leap (date : CalendarDate) {time : ClockTime} (leap : time.second = 60) :
    ofLocal date time 0 = ⟨(date.dayNumber - epoch) * 86400 +
      (time.hour * 3600 + time.minute * 60 + 59 : Nat), 1000000000 + time.nanos⟩ := by
  simp [ofLocal, leap]

theorem ofLocal_of_plain (date : CalendarDate) {time : ClockTime} (plain : time.second ≠ 60) :
    ofLocal date time 0 = ⟨(date.dayNumber - epoch) * 86400 +
      (time.hour * 3600 + time.minute * 60 + time.second : Nat), time.nanos⟩ := by
  simp [ofLocal, plain]

/-- The instant of a date and a time to the millisecond. -/
theorem ofLocal_clockTime (t : Instant) :
    ofLocal t.date t.clockTime.toMillis 0 = t.written := by
  have day : t.date.dayNumber - epoch = t.seconds / 86400 := by
    rw [date, CalendarDate.dayNumber_ofDayNumber, Int.add_sub_cancel]
  have second := second_clockTime t
  have nanos := nanos_clockTime t
  have inDay := seconds_clockTime t
  -- Only a leap second at the end of a minute gets the second 60, which is where one is read.
  by_cases leap : 1000000000 ≤ t.nanos
  · rw [if_pos leap] at second nanos
    by_cases last : t.seconds % 60 = 59
    · have sixty : t.clockTime.toMillis.second = 60 := second.trans (by omega)
      rw [ofLocal_of_leap _ sixty, day, written_eq_toMillis (fun _ => last)]
      exact ext (by dsimp only [toMillis, ClockTime.toMillis]; omega)
        (by dsimp only [toMillis, ClockTime.toMillis]; omega)
    · have plain : t.clockTime.toMillis.second ≠ 60 := second.trans_ne (by omega)
      rw [ofLocal_of_plain _ plain, day, written_eq_next leap last]
      exact ext (by dsimp only [toMillis, ClockTime.toMillis]; omega)
        (congrArg (· / 1000000 * 1000000) nanos)
  · rw [if_neg leap] at second nanos
    have plain : t.clockTime.toMillis.second ≠ 60 := second.trans_ne (by omega)
    rw [ofLocal_of_plain _ plain, day, written_eq_toMillis (fun isLeap => absurd isLeap leap)]
    exact ext (by dsimp only [toMillis, ClockTime.toMillis]; omega)
      (congrArg (· / 1000000 * 1000000) nanos)

theorem instant?_of {t : Instant} (range : t.inRange) :
    (Reading.of t.date t.clockTime).instant? = some t.written := by
  obtain ⟨first, last⟩ : CalendarDate.firstYear ≤ t.date.year ∧
      t.date.year ≤ CalendarDate.lastYear := by simpa [inRange] using range
  have valid : t.date.isValid := CalendarDate.isValid_ofDayNumber first last
  have same : (Reading.of t.date t.clockTime).instant? =
      if t.date.isValid && t.written.inRange then some t.written else none := by
    rw [← ofLocal_clockTime]
    rfl
  rw [same, inRange_written, valid, range]
  rfl

/-- What the text of an instant is read as. -/
theorem ofText?_iso {t : Instant} (range : t.inRange) (within : t.nanos < 2000000000) :
    ofText? t.iso = some t.written :=
  ofText?_iso_of_parts (hasParts within) (instant?_of range)

theorem IsProper.ofText?_iso {t : Instant} (proper : t.IsProper) :
    ofText? t.iso = some t.toMillis := by
  rw [Instant.ofText?_iso proper.range proper.within, written_eq_toMillis proper.leap]

theorem IsProper.iso_toMillis {t : Instant} (proper : t.IsProper) : t.toMillis.iso = t.iso := by
  rw [← written_eq_toMillis proper.leap, iso_written proper.within]

end Instant

end Criteria
