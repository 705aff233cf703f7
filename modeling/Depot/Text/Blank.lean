/-!
# Blanks

The characters that count as white space, and texts without those at their ends.
-/

set_option autoImplicit false

namespace Depot.Text

/-- White space by the Unicode character database. -/
def isBlank (c : Char) : Bool :=
  let n := c.toNat
  (9 ≤ n && n ≤ 13) || n == 32 || n == 0x85 || n == 0xA0 || n == 0x1680
    || (0x2000 ≤ n && n ≤ 0x200A) || n == 0x2028 || n == 0x2029 || n == 0x202F || n == 0x205F
    || n == 0x3000

/-- A text without the characters at both ends that satisfy a condition. -/
def trimBy (p : Char → Bool) (cs : List Char) : List Char :=
  ((cs.dropWhile p).reverse.dropWhile p).reverse

/-- A text without blanks at both ends. -/
def trim (s : String) : String := String.ofList (trimBy isBlank s.toList)

end Depot.Text
