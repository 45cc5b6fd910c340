/-! Dates of the Gregorian calendar, continued before its introduction, and their number of days since
    1970-01-01. The count uses years that start in March, so that a leap day is the last day of its year. -/

namespace PageWidgets
namespace Calendar

/-- A year, a month from 1, and a day from 1. -/
structure Date where
  year : Int
  month : Nat
  day : Nat
  deriving DecidableEq, Repr

/-- A year with a 29th of February. -/
def isLeap (year : Int) : Bool := year % 4 = 0 ∧ (year % 100 ≠ 0 ∨ year % 400 = 0)

/-- The number of days of a month. -/
def monthLength (year : Int) (month : Nat) : Nat :=
  if month = 2 then if isLeap year then 29 else 28
  else if month = 4 ∨ month = 6 ∨ month = 9 ∨ month = 11 then 30
  else 31

namespace Date

/-- The month and day exist in the year. -/
def valid (d : Date) : Bool :=
  1 ≤ d.month && d.month ≤ 12 && 1 ≤ d.day && d.day ≤ monthLength d.year d.month

/-- Days from the first of March to the first of a month, counted from March as 0. -/
def daysBeforeMonth (fromMarch : Int) : Int := (153 * fromMarch + 2) / 5

/-- The number of days since 1970-01-01. -/
def days (d : Date) : Int :=
  let year := if d.month ≤ 2 then d.year - 1 else d.year
  let fromMarch : Int := if d.month ≤ 2 then d.month + 9 else d.month - 3
  let cycle := year / 400
  let ofCycle := year - cycle * 400
  cycle * 146097 + ofCycle * 365 + ofCycle / 4 - ofCycle / 100 + daysBeforeMonth fromMarch + (d.day - 1) - 719468

/-- The date of a number of days since 1970-01-01. -/
def ofDays (n : Int) : Date :=
  let shifted := n + 719468
  let cycle := shifted / 146097
  let dayOfCycle := shifted - cycle * 146097
  let yearOfCycle := (dayOfCycle - dayOfCycle / 1460 + dayOfCycle / 36524 - dayOfCycle / 146096) / 365
  let dayOfYear := dayOfCycle - (365 * yearOfCycle + yearOfCycle / 4 - yearOfCycle / 100)
  let fromMarch := (5 * dayOfYear + 2) / 153
  let month := if fromMarch < 10 then fromMarch + 3 else fromMarch - 9
  let year := yearOfCycle + cycle * 400
  ⟨if month ≤ 2 then year + 1 else year, month.toNat, (dayOfYear - daysBeforeMonth fromMarch + 1).toNat⟩

end Date

/-- The day of the week of a number of days since 1970-01-01, a Thursday; Sunday is 0. -/
def weekday (n : Int) : Nat := ((n + 4) % 7).toNat

/-- The short names of the days of the week. -/
def weekdayNames : List String := ["Sun", "Mon", "Tue", "Wed", "Thu", "Fri", "Sat"]

/-- The short names of the months. -/
def monthNames : List String :=
  ["Jan", "Feb", "Mar", "Apr", "May", "Jun", "Jul", "Aug", "Sep", "Oct", "Nov", "Dec"]

end Calendar
end PageWidgets
