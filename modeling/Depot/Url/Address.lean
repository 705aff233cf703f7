import Depot.Decimal.Digits
import Depot.Key

/-!
# Numeric addresses of hosts

Version 4 addresses have up to four numbers, each decimal, octal behind a zero, or hexadecimal
behind `0x`; the last number fills all places that are left. Version 6 addresses have eight groups
of hexadecimal digits, of which one row of zeros may be left out, and may end with a version 4
address.
-/

set_option autoImplicit false

namespace Depot.Url

/-- The pieces of a text between dots. -/
def splitDots (cs : List Char) : List (List Char) := Key.pieces (· == '.') cs

/-- Whether a character is a hexadecimal digit. -/
def isHexDigit (c : Char) : Bool := (Decimal.hexDigit? c).isSome

/-- The values of hexadecimal digits. -/
def digitValues (cs : List Char) : List Nat := cs.filterMap Decimal.hexDigit?

/-- A number of a version 4 address; `none` if the text is no number. -/
def number? (cs : List Char) : Option Nat :=
  match cs with
  | [] => none
  | '0' :: 'x' :: ds =>
    if ds.all isHexDigit then some (Decimal.ofDigits 16 (digitValues ds)) else none
  | '0' :: 'X' :: ds =>
    if ds.all isHexDigit then some (Decimal.ofDigits 16 (digitValues ds)) else none
  | '0' :: d :: ds =>
    if (d :: ds).all fun c => '0' ≤ c ∧ c ≤ '7' then
      some (Decimal.ofDigits 8 (digitValues (d :: ds)))
    else none
  | ds => if ds.all Decimal.isDigit then some (Decimal.ofDigits 10 (digitValues ds)) else none

/-- Whether the last piece of a name, not counting an empty one behind a dot at the end, is a
number. Such a name has to be a version 4 address. -/
def endsInNumber (host : List Char) : Bool :=
  match (splitDots host).reverse with
  | [] => false
  | [] :: [] => false
  | [] :: piece :: _ => isNumber piece
  | piece :: _ => isNumber piece
where
  /-- Whether a piece is a number, perhaps one that is out of bounds. -/
  isNumber (piece : List Char) : Bool :=
    (!piece.isEmpty && piece.all Decimal.isDigit) || (number? piece).isSome

/-- Whether a name is a version 4 address. -/
def isAddress4 (host : List Char) : Bool :=
  let pieces := splitDots host
  let pieces := if pieces.getLast? = some [] then pieces.dropLast else pieces
  match (pieces.mapM number?).map List.reverse with
  | some (last :: rest) =>
    rest.length ≤ 3 && rest.all (· ≤ 255) && last < Nat.pow 256 (4 - rest.length)
  | _ => false

/-! ## Version 6 -/

/-- The version 4 address at the end of a version 6 address: four decimal numbers without leading
zeros. -/
def isEmbedded4 (cs : List Char) : Bool :=
  let pieces := splitDots cs
  pieces.length = 4 && pieces.all fun p =>
    !p.isEmpty && p.all Decimal.isDigit && (p.head? ≠ some '0' || p.length = 1)
      && Decimal.ofDigits 10 (digitValues p) ≤ 255

/-- Whether groups follow that fill an address up, when `groups` groups were read and `compressed`
says whether a row of zeros was left out. -/
def groups6 : Nat → Nat → Bool → List Char → Bool
  | 0, _, _, _ => false
  | _, groups, compressed, [] => if compressed then true else groups = 8
  | fuel + 1, groups, compressed, ':' :: cs =>
    groups ≠ 8 && !compressed && groups6 fuel (groups + 1) true cs
  | fuel + 1, groups, compressed, cs =>
    if groups = 8 then false
    else
      let digits := (cs.take 4).takeWhile isHexDigit
      match cs.drop digits.length with
      | [] => groups6 fuel (groups + 1) compressed []
      | '.' :: _ =>
        !digits.isEmpty && groups ≤ 6 && isEmbedded4 cs && (compressed || groups = 6)
      | ':' :: [] => false
      | ':' :: rest => groups6 fuel (groups + 1) compressed rest
      | _ => false

/-- Whether a text is a version 6 address. -/
def isAddress6 (cs : List Char) : Bool :=
  match cs with
  | [] => false
  | [_] => false
  | ':' :: ':' :: rest => groups6 (rest.length + 1) 1 true rest
  | ':' :: _ => false
  | cs => groups6 (cs.length + 1) 0 false cs

end Depot.Url
