/-!
# Digits

Decimal and hexadecimal digits of natural numbers, and numbers read back from digits.
-/

set_option autoImplicit false

namespace Depot.Decimal

/-- The value of a decimal digit. -/
def digit? (c : Char) : Option Nat :=
  if '0' ≤ c ∧ c ≤ '9' then some (c.toNat - '0'.toNat) else none

/-- Whether a character is a decimal digit. -/
def isDigit (c : Char) : Bool := '0' ≤ c && c ≤ '9'

/-- The value of a hexadecimal digit of either case. -/
def hexDigit? (c : Char) : Option Nat :=
  if '0' ≤ c ∧ c ≤ '9' then some (c.toNat - '0'.toNat)
  else if 'a' ≤ c ∧ c ≤ 'f' then some (c.toNat - 'a'.toNat + 10)
  else if 'A' ≤ c ∧ c ≤ 'F' then some (c.toNat - 'A'.toNat + 10)
  else none

/-- The character of a digit below 16, in lower case. -/
def digitChar (n : Nat) : Char :=
  if n < 10 then Char.ofNat ('0'.toNat + n) else Char.ofNat ('a'.toNat + (n - 10))

/-- The digits of a number in a base of at least two, most significant first; zero has none. -/
def digitsFrom (base : Nat) (acc : List Char) (n : Nat) : List Char :=
  if _h : n = 0 ∨ base < 2 then acc
  else digitsFrom base (digitChar (n % base) :: acc) (n / base)
termination_by n
decreasing_by exact Nat.div_lt_self (by omega) (by omega)

/-- A number in decimal. -/
def text (n : Nat) : List Char := if n = 0 then ['0'] else digitsFrom 10 [] n

/-- A number in hexadecimal, in lower case. -/
def hexText (n : Nat) : List Char := if n = 0 then ['0'] else digitsFrom 16 [] n

/-- The text of a number, filled up with zeros in front to at least `width` characters. -/
def padded (width n : Nat) : List Char :=
  let digits := text n
  List.replicate (width - digits.length) '0' ++ digits

/-- An integer in decimal, with a minus sign if it is negative. -/
def intText : Int → List Char
  | .ofNat n => text n
  | .negSucc n => '-' :: text (n + 1)

/-- The number that a row of digits stands for in a base, given the value of each digit. -/
def ofDigits (base : Nat) (digits : List Nat) : Nat := digits.foldl (fun n d => n * base + d) 0

end Depot.Decimal
