import Criteria.Calendar

set_option autoImplicit false

/-
Instants of coordinated universal time, counted in seconds from the start of 1970.
-/
namespace Criteria

/-- A second and the nanoseconds after it; a billion or more nanoseconds are in
the leap second that follows. -/
structure Instant where
  seconds : Int
  nanos : Nat
  deriving DecidableEq

/-- A time of day; the second 60 is a leap second. -/
structure ClockTime where
  hour : Nat
  minute : Nat
  second : Nat
  nanos : Nat
  deriving DecidableEq

namespace Instant

/-- The day number of the first of January 1970. -/
def epoch : Int := 719162

/-- The instant at a date and time of a clock that is `offset` seconds ahead. -/
def ofLocal (date : CalendarDate) (time : ClockTime) (offset : Int) : Instant :=
  let leap := time.second == 60
  let second := if leap then 59 else time.second
  { seconds := (date.dayNumber - epoch) * 86400
      + (time.hour * 3600 + time.minute * 60 + second : Nat) - offset
    nanos := if leap then 1000000000 + time.nanos else time.nanos }

def date (t : Instant) : CalendarDate :=
  CalendarDate.ofDayNumber (t.seconds / 86400 + epoch)

def clockTime (t : Instant) : ClockTime :=
  let second := (t.seconds % 86400).toNat
  let leap := 1000000000 ≤ t.nanos
  { hour := second / 3600
    minute := second / 60 % 60
    second := second % 60 + if leap then 1 else 0
    nanos := if leap then t.nanos - 1000000000 else t.nanos }

/-- Whether the year is one that a date may have. -/
def inRange (t : Instant) : Bool :=
  CalendarDate.firstYear ≤ t.date.year && t.date.year ≤ CalendarDate.lastYear

end Instant
end Criteria
