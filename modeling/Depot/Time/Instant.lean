import Depot.Decimal.Digits
import Depot.Time.Calendar

/-!
# Instants

A point in time, in nanoseconds from the start of 1970, within the years −9999 to 9999 less a margin
for offsets from the prime meridian. It is written as a date, a time of day and the letter `Z`, with
as many digits after the second as it takes.
-/

set_option autoImplicit false

namespace Depot.Time

/-- Nanoseconds of a second. -/
def nanosPerSecond : Nat := 1000000000

/-- Seconds of a day. -/
def secondsPerDay : Nat := 86400

/-- The second of the earliest instant, −009999-01-02T01:59:59Z. -/
def minSecond : Int := -377705023201

/-- The second of the latest instant, 9999-12-30T22:00:00.999999999Z. -/
def maxSecond : Int := 253402207200

/-- The earliest instant. -/
def minNanos : Int := minSecond * nanosPerSecond

/-- The latest instant. -/
def maxNanos : Int := maxSecond * nanosPerSecond + (nanosPerSecond - 1 : Nat)

/-- A point in time. -/
structure Instant where
  nanos : Int
  min_le : minNanos ≤ nanos := by decide
  le_max : nanos ≤ maxNanos := by decide
  deriving DecidableEq, Repr

/-- The start of 1970. -/
instance : Inhabited Instant := ⟨{ nanos := 0 }⟩

namespace Instant

/-- The instant of so many nanoseconds, if it is in range. -/
def ofNanos? (nanos : Int) : Option Instant :=
  if h : minNanos ≤ nanos ∧ nanos ≤ maxNanos then some ⟨nanos, h.1, h.2⟩ else none

/-- The instant `nanosecond` nanoseconds after `second`, or before it if that is negative. The two
parts have to be in range and so has their sum. -/
def ofParts? (second nanosecond : Int) : Option Instant :=
  if minSecond ≤ second ∧ second ≤ maxSecond ∧ nanosecond.natAbs < nanosPerSecond then
    ofNanos? (second * nanosPerSecond + nanosecond)
  else none

/-- Whole seconds from the start of 1970, toward zero. -/
def second (t : Instant) : Int := t.nanos.tdiv nanosPerSecond

/-- What is left after the whole seconds; it has the sign of the instant. -/
def nanosecond (t : Instant) : Int := t.nanos.tmod nanosPerSecond

/-- The second at or before the instant. -/
def floorSecond (t : Instant) : Int := t.nanos / nanosPerSecond

/-- The nanoseconds since that second. -/
def fraction (t : Instant) : Nat := (t.nanos % nanosPerSecond).toNat

/-- The date of an instant. -/
def date (t : Instant) : Date := Date.ofDays (t.floorSecond / secondsPerDay)

/-- The second of the day of an instant. -/
def secondOfDay (t : Instant) : Nat := (t.floorSecond % secondsPerDay).toNat

/-- The digits after the point, without zeros at the end, and the point if there is any. -/
def fractionText (nanos : Nat) : List Char :=
  if nanos = 0 then []
  else '.' :: ((Decimal.padded 9 nanos).reverse.dropWhile (· == '0')).reverse

/-- A year in four digits, or with its sign in six if it is before the year 0. -/
def yearText (year : Int) : List Char :=
  if year < 0 then '-' :: Decimal.padded 6 year.natAbs else Decimal.padded 4 year.natAbs

/-- Month and day of a date, each behind a hyphen. -/
def monthDayText (d : Date) : List Char :=
  '-' :: (Decimal.padded 2 d.month ++ '-' :: Decimal.padded 2 d.day)

/-- A time of day to the second. -/
def clockText (second : Nat) : List Char :=
  Decimal.padded 2 (second / 3600) ++ ':' :: Decimal.padded 2 (second / 60 % 60) ++
    ':' :: Decimal.padded 2 (second % 60)

/-- The characters of the exact form. -/
def chars (t : Instant) : List Char :=
  yearText t.date.year ++ monthDayText t.date ++ 'T' :: clockText t.secondOfDay ++
    fractionText t.fraction ++ ['Z']

/-- The exact form of an instant. -/
def text (t : Instant) : String := String.ofList t.chars

/-- A year filled up with zeros to four characters, its sign counted among them. -/
def displayYear (year : Int) : List Char :=
  if year < 0 then '-' :: Decimal.padded 3 year.natAbs else Decimal.padded 4 year.natAbs

/-- The form shown to people, to the second. -/
def display (t : Instant) : String :=
  String.ofList (displayYear t.date.year ++ monthDayText t.date ++ ' ' :: clockText t.secondOfDay)
    ++ " UTC"

end Instant

end Depot.Time
