import Depot.Decimal.Digits
import Depot.Text.Utf8

/-!
# Percent encoding

Text written with the characters that have no special meaning in an address. Every other byte of it
is written as a percent sign and two hexadecimal digits.
-/

set_option autoImplicit false

namespace Depot.Text.Percent

/-- The bytes that are written as they are: letters, digits, and `-`, `.`, `_`, `~`. -/
def isPlain (b : UInt8) : Bool :=
  let c := Char.ofNat b.toNat
  b < 128 && (c.isAlphanum || c == '-' || c == '.' || c == '_' || c == '~')

/-- A hexadecimal digit in upper case. -/
def upperDigit (n : Nat) : Char :=
  if n < 10 then Char.ofNat (48 + n) else Char.ofNat (55 + n)

/-- A byte as it is written. -/
def encodeByte (b : UInt8) : List Char :=
  if isPlain b then [Char.ofNat b.toNat]
  else ['%', upperDigit (b.toNat / 16), upperDigit (b.toNat % 16)]

/-- A text as it is written. -/
def encode (s : String) : String :=
  String.ofList ((Utf8.encode s.toList).flatMap encodeByte)

/-- The bytes of a written text. A percent sign that is not followed by two digits stands for
itself. -/
def decodeBytes : List UInt8 → List UInt8
  | 37 :: a :: b :: rest =>
    match Decimal.hexDigit? (Char.ofNat a.toNat), Decimal.hexDigit? (Char.ofNat b.toNat) with
    | some x, some y => (x * 16 + y).toUInt8 :: decodeBytes rest
    | _, _ => 37 :: decodeBytes (a :: b :: rest)
  | b :: rest => b :: decodeBytes rest
  | [] => []

/-- The text that was written, if its bytes are a text. -/
def decode? (s : String) : Option String :=
  (Utf8.decode (decodeBytes (Utf8.encode s.toList))).toOption.map String.ofList

end Depot.Text.Percent
