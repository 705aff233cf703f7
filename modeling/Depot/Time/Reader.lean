import Depot.Time.Instant

/-!
# Reading instants

An instant is read from a date, a time of day and an offset from the prime meridian. The date has
hyphens throughout or not at all, and the time and the offset have colons throughout or not at all.
Annotations in brackets may follow; they do not change the instant.
-/

set_option autoImplicit false

namespace Depot.Time

/-- Reading from the front of a text. -/
abbrev Scan (α : Type) := List Char → Option (α × List Char)

/-- A number of exactly `n` digits. -/
def scanFixed (n : Nat) (cs : List Char) : Option (Nat × List Char) := do
  let digits ← (cs.take n).mapM Decimal.digit?
  if digits.length = n then pure (Decimal.ofDigits 10 digits, cs.drop n) else none

/-- A number of two digits between two bounds. -/
def scanBetween (low high : Nat) (cs : List Char) : Option (Nat × List Char) := do
  let (n, cs) ← scanFixed 2 cs
  if low ≤ n ∧ n ≤ high then pure (n, cs) else none

/-- The year: four digits, or a sign and six. There is no year −0. -/
def scanYear : Scan Int
  | '+' :: cs => do
    let (n, cs) ← scanFixed 6 cs
    if n ≤ 9999 then pure (n, cs) else none
  | '-' :: cs => do
    let (n, cs) ← scanFixed 6 cs
    if 0 < n ∧ n ≤ 9999 then pure (-n, cs) else none
  | cs => do
    let (n, cs) ← scanFixed 4 cs
    pure (n, cs)

/-- The hyphen of a date that is written with hyphens. -/
def scanHyphen (hyphens : Bool) : List Char → Option (List Char)
  | '-' :: cs => if hyphens then some cs else none
  | cs => if hyphens then none else some cs

/-- The date. -/
def scanDate (cs : List Char) : Option (Date × List Char) := do
  let (year, cs) ← scanYear cs
  let hyphens := cs.head? = some '-'
  let cs ← scanHyphen hyphens cs
  let (month, cs) ← scanBetween 1 12 cs
  let cs ← scanHyphen hyphens cs
  let (day, cs) ← scanBetween 1 31 cs
  let date : Date := ⟨year, month, day⟩
  if date.isValid then pure (date, cs) else none

/-- Whether another part of a time follows, and the text behind its colon. Without colons, two
digits do. -/
def nextPart (colons : Bool) : List Char → Option (List Char)
  | ':' :: cs => if colons then some cs else none
  | a :: b :: cs =>
    if ¬ colons ∧ Decimal.isDigit a ∧ Decimal.isDigit b then some (a :: b :: cs) else none
  | _ => none

/-- Nanoseconds behind a point or a comma: up to nine digits, at least one. -/
def scanFraction : Scan Nat
  | [] => some (0, [])
  | c :: cs =>
    if c = '.' ∨ c = ',' then
      let digits := ((cs.take 9).takeWhile Decimal.isDigit).filterMap Decimal.digit?
      if digits.isEmpty then none
      else
        some (Decimal.ofDigits 10 digits * Nat.pow 10 (9 - digits.length), cs.drop digits.length)
    else some (0, c :: cs)

/-- Hours, minutes, seconds and nanoseconds. -/
structure Parts where
  hour : Nat
  minute : Nat
  second : Nat
  nano : Nat
  deriving DecidableEq, Repr

/-- The seconds of the parts. -/
def Parts.seconds (p : Parts) : Nat := p.hour * 3600 + p.minute * 60 + p.second

/-- Hours, with minutes and seconds if they follow. -/
def scanParts (maxHour maxSecond : Nat) (cs : List Char) : Option (Parts × List Char) := do
  let (hour, cs) ← scanBetween 0 maxHour cs
  let colons := cs.head? = some ':'
  match nextPart colons cs with
  | none => pure (⟨hour, 0, 0, 0⟩, cs)
  | some cs =>
    let (minute, cs) ← scanBetween 0 59 cs
    match nextPart colons cs with
    | none => pure (⟨hour, minute, 0, 0⟩, cs)
    | some cs =>
      let (second, cs) ← scanBetween 0 maxSecond cs
      let (nano, cs) ← scanFraction cs
      pure (⟨hour, minute, second, nano⟩, cs)

/-- The time of day. A leap second is read as the second before it. -/
def scanTime (cs : List Char) : Option (Parts × List Char) := do
  let (p, cs) ← scanParts 23 60 cs
  pure ({ p with second := min p.second 59 }, cs)

/-- The largest offset, in seconds. -/
def maxOffset : Nat := 25 * 3600 + 59 * 60 + 59

/-- The offset in seconds, to the nearest. -/
def scanOffset : Scan Int
  | [] => none
  | c :: cs =>
    if c = 'Z' ∨ c = 'z' then some (0, cs)
    else if c = '+' ∨ c = '-' then do
      let (p, cs) ← scanParts 25 59 cs
      let seconds := p.seconds + if p.nano < 500000000 then 0 else 1
      if seconds ≤ maxOffset then pure (if c = '+' then seconds else -seconds, cs) else none
    else none

/-! ## Annotations -/

/-- Whether a character is a letter or a digit. -/
def isAlnum (c : Char) : Bool := c.isAlphanum

/-- A part of the name of a time zone. -/
def skipZonePart : List Char → Option (List Char)
  | [] => none
  | c :: cs =>
    if c.isAlpha || c == '_' || c == '.' then
      some (cs.dropWhile fun c => isAlnum c || c == '_' || c == '.' || c == '+' || c == '-')
    else none

/-- The closing bracket. -/
def skipClosing : List Char → Option (List Char)
  | ']' :: cs => some cs
  | _ => none

/-- Further parts of the name of a time zone, each behind a slash. -/
def skipZoneParts : Nat → List Char → Option (List Char)
  | 0, _ => none
  | fuel + 1, '/' :: cs => do skipZoneParts fuel (← skipZonePart cs)
  | _ + 1, cs => skipClosing cs

/-- The time zone in brackets, if the first annotation is one; the text as it is if not. -/
def skipZone (cs : List Char) : Option (List Char) :=
  match cs with
  | '[' :: inner =>
    let inner := match inner with
      | '!' :: inner => inner
      | inner => inner
    match inner with
    | [] => none
    | c :: rest =>
      if c = '+' ∨ c = '-' then do
        -- An offset in place of a name has no seconds.
        let (_, rest) ← scanBetween 0 25 rest
        match nextPart (rest.head? = some ':') rest with
        | none => skipClosing rest
        | some rest => do
          let (_, rest) ← scanBetween 0 59 rest
          skipClosing rest
      else do
        let rest ← skipZonePart (c :: rest)
        if rest.head? = some '=' then pure cs else skipZoneParts (rest.length + 1) rest
  | cs => some cs

/-- The value of an annotation: letters and digits, with hyphens between. -/
def skipValue : Nat → List Char → Option (List Char)
  | 0, _ => none
  | fuel + 1, cs =>
    let rest := cs.dropWhile isAlnum
    if rest.length = cs.length then none
    else match rest with
      | '-' :: rest => skipValue fuel rest
      | rest => skipClosing rest

/-- Whether a character may begin the key of an annotation. -/
def isKeyStart (c : Char) : Bool := c.isLower || c == '_'

/-- Annotations with a key and a value. One that must not be ignored is refused. -/
def skipAnnotations : Nat → List Char → Option (List Char)
  | 0, _ => none
  | fuel + 1, '[' :: c :: cs =>
    if isKeyStart c then
      match cs.dropWhile fun c => isKeyStart c || c.isDigit || c == '-' with
      | '=' :: cs => do skipAnnotations fuel (← skipValue (cs.length + 1) cs)
      | _ => none
    else none
  | _ + 1, '[' :: [] => none
  | _ + 1, cs => some cs

/-- The instant that a whole text stands for. -/
def Instant.ofChars? (cs : List Char) : Option Instant := do
  let (date, cs) ← scanDate cs
  match cs with
  | [] => none
  | c :: cs =>
    if c = 'T' ∨ c = 't' ∨ c = ' ' then
      let (time, cs) ← scanTime cs
      let (offset, cs) ← scanOffset cs
      let cs ← skipZone cs
      let cs ← skipAnnotations (cs.length + 1) cs
      if cs.isEmpty then
        Instant.ofNanos?
          ((date.toDays * secondsPerDay + time.seconds - offset) * nanosPerSecond + time.nano)
      else none
    else none

/-- The instant that a text stands for. -/
def Instant.ofText? (text : String) : Option Instant := Instant.ofChars? text.toList

end Depot.Time
