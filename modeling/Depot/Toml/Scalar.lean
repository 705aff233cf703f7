import Depot.Decimal.Digits
import Depot.Time.Calendar

/-!
# Numbers, truth values and times in TOML

What a value without quotes and brackets stands for. Digits may be grouped by single underscores
between them. Times are checked for their form and range only, since nothing asks for their value.
-/

set_option autoImplicit false

namespace Depot.Toml

/-- A value without parts. -/
inductive Scalar where
  | bool (value : Bool)
  | integer (value : Int)
  | real
  | time
  deriving DecidableEq, Repr

/-! ## Digits -/

/-- Digits with single underscores between them, without these. -/
def ungroup (isDigit : Char → Bool) : List Char → Option (List Char)
  | [] => none
  | [c] => if isDigit c then some [c] else none
  | c :: '_' :: rest => if isDigit c then (ungroup isDigit rest).map (c :: ·) else none
  | c :: rest => if isDigit c then (ungroup isDigit rest).map (c :: ·) else none

/-- The number of some digits in a base. -/
def inBase (base : Nat) (cs : List Char) : Option Nat := do
  let isDigit (c : Char) : Bool := (Decimal.hexDigit? c).any (· < base)
  let digits ← ungroup isDigit cs
  pure (Decimal.ofDigits base (digits.filterMap Decimal.hexDigit?))

/-- A number in decimal, without zeros in front. -/
def plainDecimal (cs : List Char) : Option Nat :=
  match cs with
  | '0' :: _ :: _ => none
  | cs => inBase 10 cs

/-- A sign and what follows it. -/
def splitSign : List Char → Option Bool × List Char
  | '+' :: cs => (some false, cs)
  | '-' :: cs => (some true, cs)
  | cs => (none, cs)

/-- An integer. Those in other bases than ten have no sign. -/
def integer? (cs : List Char) : Option Int :=
  match cs with
  | '0' :: 'x' :: ds => (inBase 16 ds).map Int.ofNat
  | '0' :: 'o' :: ds => (inBase 8 ds).map Int.ofNat
  | '0' :: 'b' :: ds => (inBase 2 ds).map Int.ofNat
  | cs =>
    match splitSign cs with
    | (some true, ds) => (plainDecimal ds).map fun n => -(n : Int)
    | (_, ds) => (plainDecimal ds).map Int.ofNat

/-- Whether an integer is within the 128 bits that are kept. -/
def isKept (n : Int) : Bool := -(Nat.pow 2 127 : Int) ≤ n && n < (Nat.pow 2 128 : Int)

/-- The exponent of a number, behind its letter. -/
def exponent? (cs : List Char) : Option Int :=
  match splitSign cs with
  | (some true, ds) => (inBase 10 ds).map fun n => -(n : Int)
  | (_, ds) => (inBase 10 ds).map Int.ofNat

/-- Whether `n · 10 ^ e` is too large for a floating point number of 64 bits. -/
def overflows (n : Nat) (e : Int) : Bool :=
  let limit := Nat.pow 2 1024 - Nat.pow 2 970
  let size := (Decimal.text n).length + e
  if n = 0 ∨ size < 308 then false
  else if 310 < size then true
  else if 0 ≤ e then limit ≤ n * Nat.pow 10 e.toNat
  else limit * Nat.pow 10 (-e).toNat ≤ n

/-- Whether a text is a number with a point or an exponent, or one of the words for infinity and for
no number. -/
def isReal (cs : List Char) : Bool :=
  let body := (splitSign cs).2
  let isE (c : Char) : Bool := c == 'e' || c == 'E'
  if body = ['i', 'n', 'f'] ∨ body = ['n', 'a', 'n'] then true
  else
    let mantissa := body.takeWhile fun c => !isE c
    let whole := mantissa.takeWhile (· ≠ '.')
    let fraction := mantissa.dropWhile (· ≠ '.')
    let power := body.dropWhile fun c => !isE c
    let places := if fraction.isEmpty then some [] else ungroup Decimal.isDigit (fraction.drop 1)
    let exponent := if power.isEmpty then some 0 else exponent? (power.drop 1)
    match plainDecimal whole, places, exponent with
    | some n, some ds, some e =>
      !(fraction.isEmpty && power.isEmpty)
        && !overflows (n * Nat.pow 10 ds.length + Decimal.ofDigits 10 (ds.filterMap Decimal.digit?))
          (e - ds.length)
    | _, _, _ => false

/-! ## Times -/

/-- A number of exactly `n` digits. -/
def fixed? (n : Nat) (cs : List Char) : Option (Nat × List Char) := do
  let digits ← (cs.take n).mapM Decimal.digit?
  if digits.length = n then pure (Decimal.ofDigits 10 digits, cs.drop n) else none

/-- What follows a character. -/
def after (c : Char) : List Char → Option (List Char)
  | d :: cs => if d = c then some cs else none
  | [] => none

/-- What follows a date. -/
def afterDate (cs : List Char) : Option (List Char) := do
  let (year, cs) ← fixed? 4 cs
  let (month, cs) ← fixed? 2 (← after '-' cs)
  let (day, cs) ← fixed? 2 (← after '-' cs)
  if 1 ≤ month ∧ month ≤ 12 ∧ 1 ≤ day ∧ day ≤ Time.daysInMonth year month then pure cs else none

/-- What follows the digits behind the point of a second. -/
def afterFraction : List Char → Option (List Char)
  | '.' :: c :: cs => if Decimal.isDigit c then some (cs.dropWhile Decimal.isDigit) else none
  | '.' :: [] => none
  | cs => some cs

/-- What follows a time of day. The seconds may be left out. -/
def afterClock (cs : List Char) : Option (List Char) := do
  let (hour, cs) ← fixed? 2 cs
  let (minute, cs) ← fixed? 2 (← after ':' cs)
  if 23 < hour ∨ 59 < minute then none
  else
    match cs with
    | ':' :: cs => do
      let (second, cs) ← fixed? 2 cs
      if second ≤ 60 then afterFraction cs else none
    | cs => some cs

/-- Whether a text is an offset from the prime meridian, or nothing. -/
def isOffset : List Char → Bool
  | [] => true
  | [c] => c == 'Z' || c == 'z'
  | c :: cs =>
    (c == '+' || c == '-') &&
      match fixed? 2 cs with
      | some (hour, ':' :: cs) =>
        match fixed? 2 cs with
        | some (minute, []) => hour ≤ 23 && minute ≤ 59
        | _ => false
      | _ => false

/-- Whether a text is a date, a time of day, or both, perhaps with an offset. -/
def isTime (cs : List Char) : Bool :=
  match afterDate cs with
  | some [] => true
  | some (c :: rest) =>
    (c == 'T' || c == 't' || c == ' ') && ((afterClock rest).map isOffset).getD false
  | none => (afterClock cs).map (·.isEmpty) == some true

/-- What a text stands for. -/
def scalar? (cs : List Char) : Option Scalar :=
  if cs = ['t', 'r', 'u', 'e'] then some (.bool true)
  else if cs = ['f', 'a', 'l', 's', 'e'] then some (.bool false)
  else
    match integer? cs with
    | some n => if isKept n then some (.integer n) else none
    | none => if isReal cs then some .real else if isTime cs then some .time else none

end Depot.Toml
