/-!
# The calendar

Days counted from 1970-01-01 and dates of the proleptic Gregorian calendar. Years are taken to begin
in March, so that a leap day is the last day of its year, and of the 4, 100 or 400 years that end
with it. Each of these spans is then a whole number of the next smaller ones and a day at its end.
-/

set_option autoImplicit false

namespace Depot.Time

/-- A date. The months count from one, and so do the days of a month. -/
structure Date where
  year : Int
  month : Nat
  day : Nat
  deriving DecidableEq, Repr, Inhabited

/-- Whether a year of the calendar has a leap day. -/
def isLeapYear (year : Int) : Bool := year % 4 = 0 && (year % 100 ≠ 0 || year % 400 = 0)

/-- The days of a month. -/
def daysInMonth (year : Int) (month : Nat) : Nat :=
  if month = 2 then if isLeapYear year then 29 else 28
  else if month = 4 ∨ month = 6 ∨ month = 9 ∨ month = 11 then 30
  else 31

/-- Whether there is such a date. -/
def Date.isValid (d : Date) : Bool :=
  1 ≤ d.month && d.month ≤ 12 && 1 ≤ d.day && d.day ≤ daysInMonth d.year d.month

/-- The days of 400 years. -/
def daysPerEra : Nat := 146097

/-- The days of 100 years that do not end with a leap day. -/
def daysPerCentury : Nat := 36524

/-- The days of four years that end with a leap day. -/
def daysPerQuad : Nat := 1461

/-- The days from 0000-03-01 to 1970-01-01. -/
def epochDays : Int := 719468

/-- The day of a year that begins in March, on which its month `m` starts; March is month 0. -/
def monthStart (m : Nat) : Nat := (153 * m + 2) / 5

/-- The month, counted from March as 0, of a day of a year that begins in March. -/
def monthOfDay (day : Nat) : Nat := (5 * day + 2) / 153

/-- The number of a date, counted from 1970-01-01 as 0. -/
def Date.toDays (d : Date) : Int :=
  let march := if d.month ≤ 2 then d.month + 9 else d.month - 3
  let year := if d.month ≤ 2 then d.year - 1 else d.year
  let era := year / 400
  let ofEra := (year % 400).toNat
  let leaps := ofEra / 4 - ofEra / 100
  era * daysPerEra + (ofEra * 365 + leaps + monthStart march + (d.day - 1) : Nat) - epochDays

/-- The date of a day counted from 1970-01-01. -/
def Date.ofDays (days : Int) : Date :=
  let era := (days + epochDays) / daysPerEra
  let ofEra := ((days + epochDays) % daysPerEra).toNat
  let century := min (ofEra / daysPerCentury) 3
  let ofCentury := ofEra - century * daysPerCentury
  let quad := ofCentury / daysPerQuad
  let ofQuad := ofCentury - quad * daysPerQuad
  let yearOfQuad := min (ofQuad / 365) 3
  let ofYear := ofQuad - yearOfQuad * 365
  let march := monthOfDay ofYear
  let year := era * 400 + (century * 100 + quad * 4 + yearOfQuad : Nat)
  { year := if march < 10 then year else year + 1
    month := if march < 10 then march + 3 else march - 9
    day := ofYear - monthStart march + 1 }

end Depot.Time
