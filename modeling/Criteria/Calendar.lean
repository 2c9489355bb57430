set_option autoImplicit false

/-
The proleptic Gregorian calendar as a count of days. Day 0 is the first of
January of the year 1.
-/
namespace Criteria

-- Holds the start of sums to the numeral in every context.
attribute [local instance (high)] Zero.ofOfNat0

structure CalendarDate where
  year : Int
  month : Nat
  day : Nat
  deriving DecidableEq

namespace Calendar

def isLeap (year : Int) : Bool :=
  year % 4 == 0 && (year % 100 != 0 || year % 400 == 0)

def monthLengths (leap : Bool) : List Nat :=
  [31, if leap then 29 else 28, 31, 30, 31, 30, 31, 31, 30, 31, 30, 31]

/-- The day number of the first of January. -/
def yearStart (year : Int) : Int :=
  365 * (year - 1) + (year - 1) / 4 - (year - 1) / 100 + (year - 1) / 400

/-- The year that holds a day. A year has 146097 / 400 days on average, which
gives it or one of its neighbours. -/
def yearOf (day : Int) : Int :=
  let guess := 400 * day / 146097 + 1
  if day < yearStart guess then guess - 1
  else if yearStart (guess + 1) ≤ day then guess + 1
  else guess

/-- How many of the lengths fit in front of a day, and the days left over. -/
def splitLengths : List Nat → Nat → Nat × Nat
  | [], day => (0, day)
  | length :: more, day =>
    if day < length then (0, day)
    else
      let (count, rest) := splitLengths more (day - length)
      (count + 1, rest)

end Calendar

namespace CalendarDate

/-- The years that a date may have. -/
def firstYear : Int := -262143

def lastYear : Int := 262142

/-- Whether the date is in the calendar and in the range of years. -/
def isValid (d : CalendarDate) : Bool :=
  firstYear ≤ d.year && d.year ≤ lastYear && 1 ≤ d.month && 1 ≤ d.day &&
    match (Calendar.monthLengths (Calendar.isLeap d.year))[d.month - 1]? with
    | some length => d.day ≤ length
    | none => false

def dayNumber (d : CalendarDate) : Int :=
  Calendar.yearStart d.year +
    (((Calendar.monthLengths (Calendar.isLeap d.year)).take (d.month - 1)).sum + (d.day - 1) : Nat)

def ofDayNumber (n : Int) : CalendarDate :=
  let year := Calendar.yearOf n
  let (months, days) := Calendar.splitLengths (Calendar.monthLengths (Calendar.isLeap year))
    (n - Calendar.yearStart year).toNat
  ⟨year, months + 1, days + 1⟩

end CalendarDate
end Criteria
