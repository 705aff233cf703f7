import Depot.Decimal.Digits

/-!
# Strings in TOML

Four kinds of strings: in double quotes with escapes, or in single quotes without, each on one line
or between three quotes on several.
-/

set_option autoImplicit false

namespace Depot.Toml

/-- Reading from the front of a text. -/
abbrev Scan (α : Type) := List Char → Option (α × List Char)

/-- The control characters that may stand nowhere; a line feed is looked at before. -/
def isControl (c : Char) : Bool := (c.toNat < 32 && c != '\t') || c.toNat = 127

/-- The character of a code of exactly `n` hexadecimal digits. -/
def scanCode (n : Nat) (cs : List Char) : Option (Char × List Char) := do
  let digits ← (cs.take n).mapM Decimal.hexDigit?
  let code := Decimal.ofDigits 16 digits
  if digits.length = n ∧ (code < 0xD800 ∨ (0xDFFF < code ∧ code < 0x110000)) then
    pure (Char.ofNat code, cs.drop n)
  else none

/-- The character of an escape, behind its backslash. -/
def scanEscape : Scan Char
  | [] => none
  | c :: cs =>
    match c with
    | 'b' => some ('\x08', cs)
    | 't' => some ('\t', cs)
    | 'n' => some ('\n', cs)
    | 'f' => some ('\x0c', cs)
    | 'r' => some ('\r', cs)
    | 'e' => some ('\x1b', cs)
    | '"' => some ('"', cs)
    | '\\' => some ('\\', cs)
    | 'x' => scanCode 2 cs
    | 'u' => scanCode 4 cs
    | 'U' => scanCode 8 cs
    | _ => none

/-- A string on one line, behind its opening quote. -/
def scanLine (escapes : Bool) (quote : Char) : Nat → Scan (List Char)
  | 0, _ => none
  | _ + 1, [] => none
  | fuel + 1, c :: cs =>
    if c = quote then some ([], cs)
    else if c = '\\' ∧ escapes then do
      let (c, cs) ← scanEscape cs
      let (s, rest) ← scanLine escapes quote fuel cs
      pure (c :: s, rest)
    else if isControl c then none
    else do
      let (s, rest) ← scanLine escapes quote fuel cs
      pure (c :: s, rest)

/-- Spaces and tabs. -/
def isSpace (c : Char) : Bool := c == ' ' || c == '\t'

/-- What follows the end of a line. -/
def afterNewline : List Char → Option (List Char)
  | '\n' :: cs => some cs
  | '\r' :: '\n' :: cs => some cs
  | _ => none

/-- Passes over spaces and ends of lines. -/
def skipLines : Nat → List Char → List Char
  | 0, cs => cs
  | fuel + 1, cs =>
    let cs := cs.dropWhile isSpace
    match afterNewline cs with
    | some rest => skipLines fuel rest
    | none => cs

/-- A string on several lines, behind its opening quotes. Up to two quotes may stand in front of the
closing ones, and a backslash at the end of a line joins it with the next text. -/
def scanLines (escapes : Bool) (quote : Char) : Nat → Scan (List Char)
  | 0, _ => none
  | _ + 1, [] => none
  | fuel + 1, c :: cs =>
    if c = quote then
      let quotes := ((c :: cs).take 5).takeWhile (· = quote)
      if 3 ≤ quotes.length then some (quotes.drop 3, (c :: cs).drop quotes.length)
      else do
        let (s, rest) ← scanLines escapes quote fuel cs
        pure (c :: s, rest)
    else if c = '\\' ∧ escapes then
      match afterNewline (cs.dropWhile isSpace) with
      | some rest => scanLines escapes quote fuel (skipLines (rest.length + 1) rest)
      | none => do
        let (c, cs) ← scanEscape cs
        let (s, rest) ← scanLines escapes quote fuel cs
        pure (c :: s, rest)
    else
      match afterNewline (c :: cs) with
      | some cs' => do
        let (s, rest) ← scanLines escapes quote fuel cs'
        pure (if c = '\r' then '\r' :: '\n' :: s else '\n' :: s, rest)
      | none =>
        if isControl c then none
        else do
          let (s, rest) ← scanLines escapes quote fuel cs
          pure (c :: s, rest)

/-- A string from its first quote on. An end of line right behind three opening quotes does not
count. -/
def scanString (cs : List Char) : Option (String × List Char) :=
  let fuel := cs.length + 1
  let read (scan : Scan (List Char)) (cs : List Char) : Option (String × List Char) :=
    (scan cs).map fun (s, rest) => (String.ofList s, rest)
  let trimmed (cs : List Char) : List Char := (afterNewline cs).getD cs
  match cs with
  | '"' :: '"' :: '"' :: cs => read (scanLines true '"' fuel) (trimmed cs)
  | '\'' :: '\'' :: '\'' :: cs => read (scanLines false '\'' fuel) (trimmed cs)
  | '"' :: cs => read (scanLine true '"' fuel) cs
  | '\'' :: cs => read (scanLine false '\'' fuel) cs
  | _ => none

end Depot.Toml
