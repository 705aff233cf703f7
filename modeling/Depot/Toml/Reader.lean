import Depot.Toml.Table
import Depot.Toml.Text

/-!
# Reading TOML

The lines of a document, and the values in them. Arrays and tables in one piece may take several
lines, with comments between, and may end with a comma.
-/

set_option autoImplicit false

namespace Depot.Toml

/-- Passes over spaces. -/
def skipSpaces (cs : List Char) : List Char := cs.dropWhile isSpace

/-- Passes over a comment, up to the end of its line. -/
def skipComment : List Char → Option (List Char)
  | '#' :: cs =>
    let comment := cs.takeWhile fun c => !isControl c
    let rest := cs.drop comment.length
    if rest.isEmpty ∨ (afterNewline rest).isSome then some rest else none
  | cs => some cs

/-- Passes over spaces, comments and ends of lines. -/
def skipFree : Nat → List Char → Option (List Char)
  | 0, cs => some cs
  | fuel + 1, cs => do
    let cs ← skipComment (skipSpaces cs)
    match afterNewline cs with
    | some rest => skipFree fuel rest
    | none => pure cs

/-- Passes over all that may stand between the values of an array. -/
def skipBetween (cs : List Char) : Option (List Char) := skipFree (cs.length + 1) cs

/-! ## Keys -/

/-- The characters of a key without quotes. -/
def isBare (c : Char) : Bool := c.isAlphanum || c == '_' || c == '-'

/-- A key without dots. -/
def scanKey (cs : List Char) : Option (String × List Char) :=
  match cs with
  | '"' :: rest =>
    (scanLine true '"' (cs.length + 1) rest).map fun (s, rest) => (String.ofList s, rest)
  | '\'' :: rest =>
    (scanLine false '\'' (cs.length + 1) rest).map fun (s, rest) => (String.ofList s, rest)
  | cs =>
    let key := cs.takeWhile isBare
    if key.isEmpty then none else some (String.ofList key, cs.drop key.length)

/-- A key with its dots, and spaces around. -/
def scanPath : Nat → Scan (List String)
  | 0, _ => none
  | fuel + 1, cs => do
    let (key, cs) ← scanKey (skipSpaces cs)
    match skipSpaces cs with
    | '.' :: cs => do
      let (path, rest) ← scanPath fuel cs
      pure (key :: path, rest)
    | cs => pure ([key], cs)

/-! ## Values -/

/-- The characters that end a value without quotes. -/
def endsScalar (c : Char) : Bool :=
  isSpace c || c == '\n' || c == '\r' || c == ',' || c == ']' || c == '}' || c == '#'

/-- A value without quotes and brackets. A date may be followed by a space and a time of day. -/
def scanScalar (cs : List Char) : Option (Scalar × List Char) :=
  let word (cs : List Char) : List Char := cs.takeWhile fun c => !endsScalar c
  let front := word cs
  let rest := cs.drop front.length
  let long := match afterDate front, rest with
    | some [], ' ' :: c :: more =>
      if Decimal.isDigit c then front ++ ' ' :: word (c :: more) else front
    | _, _ => front
  (scalar? long).map fun s => (s, cs.drop long.length)

/-- How deep arrays and tables may lie in one another. -/
def depthLimit : Nat := 80

mutual

/-- A value with at most `depth` levels, in at most `fuel` nested steps. -/
def scanValue : Nat → Nat → Scan Value
  | 0, _, _ => none
  | fuel + 1, depth, cs =>
    match cs with
    | '"' :: _ => (scanString cs).map fun (s, rest) => (.string s, rest)
    | '\'' :: _ => (scanString cs).map fun (s, rest) => (.string s, rest)
    | '[' :: rest =>
      if depth = 0 then none
      else do
        let (items, rest) ← scanItems fuel (depth - 1) (← skipBetween rest)
        pure (.array items, rest)
    | '{' :: rest =>
      if depth = 0 then none
      else do
        let (entries, rest) ← scanEntries fuel (depth - 1) [] (← skipBetween rest)
        pure (.inline entries, rest)
    | _ => (scanScalar cs).map fun (s, rest) => (.scalar s, rest)

/-- The values of an array, up to its closing bracket. -/
def scanItems : Nat → Nat → Scan (List Value)
  | 0, _, _ => none
  | fuel + 1, depth, cs =>
    match cs with
    | ']' :: rest => some ([], rest)
    | _ => do
      let (v, cs) ← scanValue fuel depth cs
      match ← skipBetween cs with
      | ',' :: cs => do
        let (vs, rest) ← scanItems fuel depth (← skipBetween cs)
        pure (v :: vs, rest)
      | ']' :: rest => pure ([v], rest)
      | _ => none

/-- The entries of a table in braces, with those in front of them, up to its closing brace. -/
def scanEntries : Nat → Nat → Entries → Scan Entries
  | 0, _, _, _ => none
  | fuel + 1, depth, entries, cs =>
    match cs with
    | '}' :: rest => some (entries, rest)
    | _ => do
      let (path, cs) ← scanPath (cs.length + 1) cs
      match cs with
      | '=' :: cs => do
        let (v, cs) ← scanValue fuel depth (skipSpaces cs)
        let entries ← assign path v entries
        match ← skipBetween cs with
        | ',' :: cs => do scanEntries fuel depth entries (← skipBetween cs)
        | '}' :: rest => pure (entries, rest)
        | _ => none
      | _ => none

end

/-! ## Lines -/

/-- The end of a line: spaces, perhaps a comment, and an end of line or of the text. -/
def endLine (cs : List Char) : Option (List Char) := do
  let cs ← skipComment (skipSpaces cs)
  if cs.isEmpty then pure [] else afterNewline cs

/-- A header or an assignment at the front of a text. -/
def scanStatement (cs : List Char) : Option (Statement × List Char) :=
  match cs with
  | '[' :: '[' :: cs => do
    match ← scanPath (cs.length + 1) cs with
    | (path, ']' :: ']' :: rest) => pure (.tablesHeader path, rest)
    | _ => none
  | '[' :: cs => do
    match ← scanPath (cs.length + 1) cs with
    | (path, ']' :: rest) => pure (.header path, rest)
    | _ => none
  | cs => do
    match ← scanPath (cs.length + 1) cs with
    | (path, '=' :: rest) =>
      let (v, rest) ← scanValue (rest.length + 1) depthLimit (skipSpaces rest)
      pure (.assignment path v, rest)
    | _ => none

/-- The lines of a text. -/
def scanLinesOf : Nat → List Char → Option (List Statement)
  | 0, _ => none
  | fuel + 1, cs =>
    match skipSpaces cs with
    | [] => some []
    | c :: cs =>
      if c = '#' ∨ (afterNewline (c :: cs)).isSome then do
        scanLinesOf fuel (← endLine (c :: cs))
      else do
        let (line, cs) ← scanStatement (c :: cs)
        let lines ← scanLinesOf fuel (← endLine cs)
        pure (line :: lines)

/-- The entries of a document. A mark of the byte order may stand in front. -/
def read (text : String) : Option Entries := do
  let cs := match text.toList with
    | c :: cs => if c.toNat = 0xFEFF then cs else c :: cs
    | [] => []
  let lines ← scanLinesOf (cs.length + 1) cs
  Document.ofStatements lines

end Depot.Toml
