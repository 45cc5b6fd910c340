import PageWidgets.Calendar.Date

/-! Instants, in milliseconds since 1970-01-01, and the range of them that can be told. -/

namespace PageWidgets
namespace Calendar

/-- Milliseconds since the start of 1970. -/
abbrev Instant := Int

def dayMillis : Int := 86400000

/-- The first and the last year of the range. -/
def firstYear : Int := -262143

def lastYear : Int := 262142

namespace Instant

/-- The start of the first year. -/
def earliest : Instant := (Date.mk firstYear 1 1).days * dayMillis

/-- The end of the last year, in whole milliseconds. -/
def latest : Instant := ((Date.mk lastYear 12 31).days + 1) * dayMillis - 1

/-- Does the instant belong to the range? -/
def inRange (t : Instant) : Bool := earliest ≤ t && t ≤ latest

/-- The instant that number of days later, unless it leaves the range. -/
def plusDays? (t : Instant) (n : Nat) : Option Instant :=
  let later := t + n * dayMillis
  if inRange later then some later else none

/-- The instant that a program takes it to be when its clock stands there: 1970 past the range. -/
def told (t : Instant) : Instant := if t.inRange then t else 0

/-- The number of days since 1970-01-01. -/
def day (t : Instant) : Int := t / dayMillis

/-- The second of the day; a part of a second is dropped. -/
def secondOfDay (t : Instant) : Nat := (t % dayMillis / 1000).toNat

/-- The start of the second that the instant belongs to. -/
def wholeSecond (t : Instant) : Instant := t / 1000 * 1000

end Instant
end Calendar
end PageWidgets
