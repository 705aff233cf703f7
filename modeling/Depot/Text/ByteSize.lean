import Depot.Decimal.Digits

/-!
# Sizes for people

A number of bytes in the largest binary unit of which there is at least one, with two places unless
it is a whole number of units. The number is taken as a floating point number of 53 binary digits,
and what is left of a unit below the precision of such a number counts as nothing.
-/

set_option autoImplicit false

namespace Depot.Text

/-- The units, each 1024 times the one before. -/
def sizeUnits : List String := ["B", "KiB", "MiB", "GiB", "TiB", "PiB", "EiB", "ZiB", "YiB"]

/-- The binary digits of a floating point number. -/
def precision : Nat := 53

/-- A quotient rounded to the nearest whole number, a half to the even neighbour. -/
def roundEven (num den : Nat) : Nat :=
  let q := num / den
  let twice := 2 * (num % den)
  if den < twice ∨ (twice = den ∧ q % 2 = 1) then q + 1 else q

/-- The number of 53 binary digits nearest to `n`. -/
def roundToPrecision (n : Nat) : Nat :=
  let step := Nat.pow 2 (n.log2 + 1 - precision)
  roundEven n step * step

/-- How often a size can be divided by 1024 before it is below 1024, at most as often as there are
larger units. -/
def unitIndex : Nat → Nat → Nat
  | 0, _ => 0
  | more + 1, n => if n < 1024 then 0 else unitIndex more (n / 1024) + 1

/-- A size with its unit. -/
def byteSize (bytes : Nat) : String :=
  let n := roundToPrecision bytes
  let index := unitIndex (sizeUnits.length - 1) n
  let unit := Nat.pow 1024 index
  let whole := n / unit
  let number :=
    if n % unit * Nat.pow 2 (precision - 1) ≤ unit then Decimal.text whole
    else
      let hundredths := roundEven (n * 100) unit
      Decimal.text (hundredths / 100) ++ '.' :: Decimal.padded 2 (hundredths % 100)
  String.ofList number ++ " " ++ sizeUnits.getD index ""

/-- A text filled up with spaces in front. -/
def padLeft (width : Nat) (s : String) : String :=
  String.ofList (List.replicate (width - s.length) ' ') ++ s

/-- A text filled up with spaces behind. -/
def padRight (width : Nat) (s : String) : String :=
  s ++ String.ofList (List.replicate (width - s.length) ' ')

end Depot.Text
