import Depot.Json.Fault
import Depot.Json.Value

/-!
# The leaves of a JSON text

Space, words, strings and numbers, each read from the front of a text. A scanner gives what it read
and what is left of the text, or a fault. Strings and numbers come in two forms: read for their
value, or passed over, in which case less is checked.
-/

set_option autoImplicit false

namespace Depot.Json

/-- Reading from the front of a text. -/
abbrev Scan (α : Type) := List Char → Except Fault (α × List Char)

/-- The characters that may stand between any two tokens. -/
def isSpace (c : Char) : Bool := c == ' ' || c == '\n' || c == '\t' || c == '\r'

/-- The text from its first character on that is no space. -/
def skipSpace (cs : List Char) : List Char := cs.dropWhile isSpace

/-- The rest of a word whose first letter was read. -/
def scanWord : List Char → List Char → Except Fault (List Char)
  | [], cs => .ok cs
  | _ :: _, [] => .error (Problem.eofInValue.here [])
  | w :: word, c :: cs =>
    if c = w then scanWord word cs else .error (Problem.expectedIdent.ahead (c :: cs))

/-! ## Strings -/

/-- The value of four hexadecimal digits. -/
def hexCode? : List Char → Option (Nat × List Char)
  | a :: b :: c :: d :: cs =>
    match Decimal.hexDigit? a, Decimal.hexDigit? b, Decimal.hexDigit? c, Decimal.hexDigit? d with
    | some a, some b, some c, some d => some (((a * 16 + b) * 16 + c) * 16 + d, cs)
    | _, _, _, _ => none
  | _ => none

/-- Four hexadecimal digits. Fewer than four bytes are an early end; of four other bytes all are
taken for the digits. -/
def scanHex (cs : List Char) : Except Fault (Nat × List Char) :=
  match hexCode? cs with
  | some r => .ok r
  | none =>
    if byteSize cs < 4 then .error (Problem.eofInString.here [])
    else .error ⟨.invalidEscape, byteSize cs - 4⟩

/-- Whether a code is the first of a surrogate pair. -/
def isHighSurrogate (n : Nat) : Bool := 0xD800 ≤ n && n ≤ 0xDBFF

/-- Whether a code is the second of a surrogate pair. -/
def isLowSurrogate (n : Nat) : Bool := 0xDC00 ≤ n && n ≤ 0xDFFF

/-- The character of a numeric escape, after its `\u`. A character beyond the first 65536 is written
as two escapes. -/
def scanCode (cs : List Char) : Except Fault (Char × List Char) := do
  let (n, cs) ← scanHex cs
  if isLowSurrogate n then throw (Problem.loneSurrogate.here cs)
  if isHighSurrogate n then
    match cs with
    | [] => throw (Problem.eofInString.here [])
    | '\\' :: [] => throw (Problem.eofInString.here [])
    | '\\' :: 'u' :: cs =>
      let (low, cs) ← scanHex cs
      if isLowSurrogate low then
        pure (Char.ofNat ((n - 0xD800) * 0x400 + (low - 0xDC00) + 0x10000), cs)
      else throw (Problem.loneSurrogate.here cs)
    | '\\' :: cs => throw (Problem.endOfHexEscape.ahead cs)
    | cs => throw (Problem.endOfHexEscape.ahead cs)
  else pure (Char.ofNat n, cs)

/-- The character of a short escape. -/
def shortEscape? (c : Char) : Option Char :=
  match c with
  | '"' => some '"'
  | '\\' => some '\\'
  | '/' => some '/'
  | 'b' => some '\x08'
  | 'f' => some '\x0c'
  | 'n' => some '\n'
  | 'r' => some '\r'
  | 't' => some '\t'
  | _ => none

/-- The next character of a string: `none` at its closing quote. -/
def scanChar : Scan (Option Char)
  | [] => .error (Problem.eofInString.here [])
  | '"' :: cs => .ok (none, cs)
  | '\\' :: [] => .error (Problem.eofInString.here [])
  | '\\' :: 'u' :: cs => (scanCode cs).map fun (c, rest) => (some c, rest)
  | '\\' :: e :: cs =>
    match shortEscape? e with
    | some c => .ok (some c, cs)
    | none => .error (Problem.invalidEscape.ahead (e :: cs))
  | c :: cs =>
    if c.toNat < 32 then .error (Problem.controlCharacter.here cs) else .ok (some c, cs)

/-- The characters of a string up to its closing quote, in at most `fuel` steps. -/
def scanChars : Nat → Scan (List Char)
  | 0, cs => .error (Problem.eofInString.here cs)
  | fuel + 1, cs =>
    match scanChar cs with
    | .error f => .error f
    | .ok (none, rest) => .ok ([], rest)
    | .ok (some c, rest) => (scanChars fuel rest).map fun (s, rest) => (c :: s, rest)

/-- A string after its opening quote. -/
def scanString (cs : List Char) : Except Fault (String × List Char) :=
  (scanChars (cs.length + 1) cs).map fun (s, rest) => (String.ofList s, rest)

/-- Passes over a string after its opening quote, in at most `fuel` steps. Numeric escapes may stand
for any code here. -/
def skipChars : Nat → List Char → Except Fault (List Char)
  | 0, cs => .error (Problem.eofInString.here cs)
  | _ + 1, [] => .error (Problem.eofInString.here [])
  | _ + 1, '"' :: cs => .ok cs
  | _ + 1, '\\' :: [] => .error (Problem.eofInString.here [])
  | fuel + 1, '\\' :: 'u' :: cs =>
    match scanHex cs with
    | .error f => .error f
    | .ok (_, rest) => skipChars fuel rest
  | fuel + 1, '\\' :: e :: cs =>
    if (shortEscape? e).isSome then skipChars fuel cs
    else .error (Problem.invalidEscape.ahead (e :: cs))
  | fuel + 1, c :: cs =>
    if c.toNat < 32 then .error (Problem.controlCharacter.here (c :: cs)) else skipChars fuel cs

/-- Passes over a string after its opening quote. -/
def skipString (cs : List Char) : Except Fault (List Char) := skipChars (cs.length + 1) cs

/-! ## Numbers -/

/-- The largest integer that is kept exactly. -/
def maxInteger : Nat := Nat.pow 2 64 - 1

/-- The digits at the front of a text. -/
def spanDigits (cs : List Char) : List Nat × List Char :=
  ((cs.takeWhile Decimal.isDigit).filterMap Decimal.digit?, cs.dropWhile Decimal.isDigit)

/-- The leading digits whose value stays below the limit, as that value, and how many digits
follow. -/
def significand : Nat → List Nat → Nat × Nat
  | n, [] => (n, 0)
  | n, d :: ds =>
    if n * 10 + d ≤ maxInteger then significand (n * 10 + d) ds else (n, ds.length + 1)

/-- `f · 10 ^ e`, with one division or product for each step of at most 308 powers; `none` if it
grows beyond all floating point numbers. -/
def scaleReal (f : Float) (e : Int) : Option Float :=
  let power (n : Nat) : Float := Float.ofScientific 1 false n
  if 0 ≤ e then
    if e ≤ 308 then
      let g := f * power e.toNat
      if g.isInf then none else some g
    else if f == 0.0 then some f else none
  else
    let n := (-e).toNat
    if n ≤ 308 then some (f / power n)
    else if f == 0.0 then some f
    else
      let f := f / power 308
      if n ≤ 616 then some (f / power (n - 308))
      else some (f / power 308 / power 308)

/-- A number that is no integer, in front of `rest`. -/
def realNumber (negative : Bool) (n : Nat) (e : Int) (rest : List Char) :
    Except Fault (Number × List Char) :=
  match scaleReal (Float.ofNat n) e with
  | none => .error (Problem.numberOutOfRange.here rest)
  | some f => .ok (.real (if negative then -f else f).toBits, rest)

/-- The digits that follow the first one with which the number read so far exceeds `limit`. -/
def digitsBeyond (limit : Nat) : Nat → List Nat → List Nat
  | _, [] => []
  | n, d :: ds => if limit < n * 10 + d then ds else digitsBeyond limit (n * 10 + d) ds

/-- The largest exponent that is read for its value. -/
def maxExponent : Nat := Nat.pow 2 31 - 1

/-- The exponent after its letter, for a number `n · 10 ^ e`. -/
def scanExponent (negative : Bool) (n : Nat) (e : Int) (cs : List Char) :
    Except Fault (Number × List Char) :=
  let (down, cs) := match cs with
    | '+' :: cs => (false, cs)
    | '-' :: cs => (true, cs)
    | cs => (false, cs)
  match cs with
  | [] => .error (Problem.eofInValue.here [])
  | c :: rest =>
    if Decimal.isDigit c then
      let (digits, rest) := spanDigits (c :: rest)
      let exponent := Decimal.ofDigits 10 digits
      if exponent ≤ maxExponent then
        realNumber negative n (if down then e - exponent else e + exponent) rest
      else if n ≠ 0 ∧ ¬ down then
        .error ⟨.numberOutOfRange, (digitsBeyond maxExponent 0 digits).length + byteSize rest⟩
      else realNumber negative 0 0 rest
    else .error (Problem.invalidNumber.ahead (c :: rest))

/-- The part after the point, for a number `n · 10 ^ e` in front of it. -/
def scanFraction (negative : Bool) (n : Nat) (e : Int) (cs : List Char) :
    Except Fault (Number × List Char) :=
  let (digits, rest) := spanDigits cs
  if digits.isEmpty then
    match cs with
    | [] => .error (Problem.eofInValue.ahead [])
    | cs => .error (Problem.invalidNumber.ahead cs)
  else
    let (n, dropped) := significand n digits
    let e := e - ((digits.length - dropped : Nat) : Int)
    match rest with
    | 'e' :: rest => scanExponent negative n e rest
    | 'E' :: rest => scanExponent negative n e rest
    | rest => realNumber negative n e rest

/-- What follows the integer part of a number. -/
def scanTail (negative : Bool) (digits : List Nat) (rest : List Char) :
    Except Fault (Number × List Char) :=
  let (n, dropped) := significand 0 digits
  match rest with
  | '.' :: rest => scanFraction negative n dropped rest
  | 'e' :: rest => scanExponent negative n dropped rest
  | 'E' :: rest => scanExponent negative n dropped rest
  | rest =>
    if dropped ≠ 0 then realNumber negative n dropped rest
    else if ¬ negative then .ok (.integer n, rest)
    else if 0 < n ∧ n ≤ Nat.pow 2 63 then .ok (.integer (-(n : Int)), rest)
    else realNumber true n 0 rest

/-- A number after its sign. -/
def scanNumber (negative : Bool) : Scan Number
  | [] => .error (Problem.eofInValue.here [])
  | c :: cs =>
    if c = '0' then
      match cs with
      | d :: _ =>
        if Decimal.isDigit d then .error (Problem.invalidNumber.ahead cs)
        else scanTail negative [0] cs
      | [] => scanTail negative [0] cs
    else if Decimal.isDigit c then
      let (digits, rest) := spanDigits (c :: cs)
      scanTail negative digits rest
    else .error (Problem.invalidNumber.ahead (c :: cs))

/-- Passes over an exponent after its letter. -/
def skipExponent (cs : List Char) : Except Fault (List Char) :=
  let cs := match cs with
    | '+' :: cs => cs
    | '-' :: cs => cs
    | cs => cs
  match cs with
  | [] => .error (Problem.invalidNumber.here [])
  | c :: rest =>
    if Decimal.isDigit c then .ok (rest.dropWhile Decimal.isDigit)
    else .error (Problem.invalidNumber.ahead (c :: rest))

/-- Passes over what follows the digits of a number, in front of the point if `point` is to be
looked for. -/
def skipTail (point : Bool) : List Char → Except Fault (List Char)
  | 'e' :: rest => skipExponent rest
  | 'E' :: rest => skipExponent rest
  | '.' :: rest =>
    if ¬ point then .ok ('.' :: rest)
    else
      match rest with
      | c :: more =>
        if Decimal.isDigit c then
          match more.dropWhile Decimal.isDigit with
          | 'e' :: rest => skipExponent rest
          | 'E' :: rest => skipExponent rest
          | rest => .ok rest
        else .error (Problem.invalidNumber.ahead rest)
      | [] => .error (Problem.invalidNumber.ahead [])
  | rest => .ok rest

/-- Passes over a number after its sign. Its size does not matter. -/
def skipNumber : List Char → Except Fault (List Char)
  | [] => .error (Problem.invalidNumber.here [])
  | c :: cs =>
    if c = '0' then
      match cs with
      | d :: _ =>
        if Decimal.isDigit d then .error (Problem.invalidNumber.ahead cs) else skipTail true cs
      | [] => .ok []
    else if Decimal.isDigit c then skipTail true (cs.dropWhile Decimal.isDigit)
    else .error (Problem.invalidNumber.ahead (c :: cs))

end Depot.Json
