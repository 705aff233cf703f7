import Depot.Text.Percent
import Depot.Url.Address

/-!
# Names of hosts

A name is brought into a plain form before it is looked at: percent escapes are undone, letters are
taken as lower case, and full width characters as the common ones. A label that begins with `xn--`
has to be the written form of a label with characters beyond ASCII.
-/

set_option autoImplicit false

namespace Depot.Url

/-! ## Written labels

A label with characters beyond ASCII is written as its ASCII characters, a hyphen, and a row of
numbers in base 36, each of which says how far on the next character is and where it stands.
-/

/-- The value of a digit in base 36. -/
def digit36? (c : Char) : Option Nat :=
  if 'a' ≤ c ∧ c ≤ 'z' then some (c.toNat - 'a'.toNat)
  else if '0' ≤ c ∧ c ≤ '9' then some (c.toNat - '0'.toNat + 26)
  else none

/-- A digit below this value is the last one of its number; `k` is 36 for the first digit, and 36
more for each further one. -/
def threshold (k bias : Nat) : Nat := if k ≤ bias then 1 else if bias + 26 ≤ k then 26 else k - bias

/-- One number: its value, and the text behind it. -/
def readDelta (bias : Nat) : Nat → Nat → Nat → List Char → Option (Nat × List Char)
  | _, _, _, [] => none
  | k, weight, value, c :: cs => do
    let d ← digit36? c
    let value := value + d * weight
    if value ≥ Nat.pow 2 32 then none
    else if d < threshold k bias then pure (value, cs)
    else readDelta bias (k + 36) (weight * (36 - threshold k bias)) value cs

/-- A number divided by 35 until it is small, and 36 for each division. -/
def reduceDelta : Nat → Nat → Nat → Nat × Nat
  | 0, k, delta => (k, delta)
  | fuel + 1, k, delta => if delta ≤ 455 then (k, delta) else reduceDelta fuel (k + 36) (delta / 35)

/-- The bias of the next number. -/
def adaptBias (delta count : Nat) (first : Bool) : Nat :=
  let delta := if first then delta / 700 else delta / 2
  let (k, delta) := reduceDelta 32 0 (delta + delta / count)
  k + 36 * delta / (delta + 38)

/-- Whether a code is that of a character. -/
def isScalar (n : Nat) : Bool := n < 0xD800 || (0xDFFF < n && n < 0x110000)

/-- Puts the characters that the numbers stand for in their places. The next character is `code` or
follows it, and is counted from the place `place`. -/
def insertCodes : Nat → List Char → Nat → Nat → Nat → List Char → Option (List Char)
  | _, out, _, _, _, [] => some out
  | 0, _, _, _, _, _ => none
  | fuel + 1, out, code, place, bias, cs => do
    let (delta, rest) ← readDelta bias 36 1 0 cs
    let count := out.length + 1
    let code := code + (place + delta) / count
    let here := (place + delta) % count
    if isScalar code then
      insertCodes fuel (out.take here ++ Char.ofNat code :: out.drop here) code (here + 1)
        (adaptBias delta count (place = 0)) rest
    else none

/-- The label that a written label stands for, without its mark `xn--`. -/
def decodeLabel (cs : List Char) : Option (List Char) :=
  let (digits, front) := cs.reverse.span (· ≠ '-')
  insertCodes (cs.length + 1) (front.drop 1).reverse 128 0 72 digits.reverse

/-! ## Characters -/

/-- The characters that no name may hold in its plain form. -/
def isForbidden (c : Char) : Bool :=
  c.toNat ≤ 0x20 || c.toNat = 0x7F || "#/:<>?@[\\]^|%".toList.contains c

/-- Characters beyond ASCII that have no place in a name. -/
def isRefused (c : Char) : Bool :=
  let n := c.toNat
  (0x80 ≤ n && n < 0xA0) || n == 0x1680 || (0x2000 ≤ n && n ≤ 0x200F) || (0x2028 ≤ n && n ≤ 0x202F)
    || (0x205F ≤ n && n ≤ 0x206F) || (0xE000 ≤ n && n < 0xF900) || (0xFFF0 ≤ n && n ≤ 0xFFFF)
    || 0xE0000 ≤ n

/-- Characters that a name is read without. -/
def isIgnored (c : Char) : Bool :=
  let n := c.toNat
  n == 0xAD || n == 0x34F || (0x180B ≤ n && n ≤ 0x180F) || n == 0x200B || n == 0x2060 || n == 0x2064
    || (0xFE00 ≤ n && n ≤ 0xFE0F) || n == 0xFEFF

/-- The marks that cannot begin a label. -/
def isMark (c : Char) : Bool := 0x300 ≤ c.toNat && c.toNat ≤ 0x36F

/-- The plain form of a character. -/
def plainChar (c : Char) : Char :=
  let n := c.toNat
  if n < 128 then c.toLower
  else if n = 0x3002 ∨ n = 0xFF61 then '.'
  else if n = 0x3000 ∨ n = 0xA0 then ' '
  else if 0xFF01 ≤ n ∧ n ≤ 0xFF5E then (Char.ofNat (n - 0xFEE0)).toLower
  else c

/-- Whether a label in plain form is in order. -/
def isLabel (label : List Char) : Bool :=
  match label with
  | 'x' :: 'n' :: '-' :: '-' :: rest =>
    rest.all (·.toNat < 128) &&
      match decodeLabel rest with
      | some cs => cs.any (128 ≤ ·.toNat) && !cs.any isRefused && !isMark (cs.headD 'a')
      | none => false
  | _ => !label.any isRefused && !isMark (label.headD 'a')

/-- The plain form of a name, if it is in order. -/
def plainName? (host : List Char) : Option (List Char) := do
  let cs ← (Text.Utf8.decode (Text.Percent.decodeBytes (Text.Utf8.encode host))).toOption
  let name := (cs.filter fun c => !isIgnored c).map plainChar
  if name.any isForbidden then none
  else if (splitDots name).all isLabel then some name
  else none

end Depot.Url
