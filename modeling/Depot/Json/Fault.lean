/-!
# Faults of a JSON text

What can be wrong with a JSON document, and where. A place is the number of bytes that are left of
the text; it is shown as a line and a column of the whole, the line counted from one, the column as
the bytes read of the line.
-/

set_option autoImplicit false

namespace Depot.Json

/-- The ways in which a text fails to be the document that was asked for. -/
inductive Problem where
  | eofInList
  | eofInObject
  | eofInString
  | eofInValue
  | expectedColon
  | expectedListCommaOrEnd
  | expectedObjectCommaOrEnd
  | expectedIdent
  | expectedValue
  | invalidEscape
  | invalidNumber
  | numberOutOfRange
  | controlCharacter
  | keyMustBeString
  | loneSurrogate
  | trailingComma
  | trailingCharacters
  | endOfHexEscape
  | recursionLimit
  /-- The text is JSON so far, and not of the form that was asked for. -/
  | data (text : String)
  deriving DecidableEq, Repr, Inhabited

/-- The coarse kind of a problem. -/
inductive Category where
  | eof
  | syntaxError
  | data
  deriving DecidableEq, Repr

namespace Problem

/-- The kind of a problem: the text ends too early, is no JSON, or is not of the right form. -/
def category : Problem → Category
  | eofInList => .eof
  | eofInObject => .eof
  | eofInString => .eof
  | eofInValue => .eof
  | data _ => .data
  | _ => .syntaxError

/-- The wording of a problem. -/
def text : Problem → String
  | eofInList => "EOF while parsing a list"
  | eofInObject => "EOF while parsing an object"
  | eofInString => "EOF while parsing a string"
  | eofInValue => "EOF while parsing a value"
  | expectedColon => "expected `:`"
  | expectedListCommaOrEnd => "expected `,` or `]`"
  | expectedObjectCommaOrEnd => "expected `,` or `\x7d`"
  | expectedIdent => "expected ident"
  | expectedValue => "expected value"
  | invalidEscape => "invalid escape"
  | invalidNumber => "invalid number"
  | numberOutOfRange => "number out of range"
  | controlCharacter =>
    "control character (\\u0000-\\u001F) found while parsing a string"
  | keyMustBeString => "key must be a string"
  | loneSurrogate => "lone leading surrogate in hex escape"
  | trailingComma => "trailing comma"
  | trailingCharacters => "trailing characters"
  | endOfHexEscape => "unexpected end of hex escape"
  | recursionLimit => "recursion limit exceeded"
  | data text => text

end Problem

/-- A problem, and its place as the number of bytes of the text that are left behind it. -/
structure Fault where
  problem : Problem
  left : Nat
  deriving DecidableEq, Repr, Inhabited

/-- The bytes of a text. -/
def byteSize (text : List Char) : Nat := text.foldl (fun n c => n + c.utf8Size) 0

namespace Problem

/-- The problem in front of `rest`, which is left. -/
def here (p : Problem) (rest : List Char) : Fault := ⟨p, byteSize rest⟩

/-- The problem on the first byte of `rest`. -/
def ahead (p : Problem) (rest : List Char) : Fault := ⟨p, byteSize rest - 1⟩

end Problem

namespace Fault

/-- The line and the column reached after `bytes`: the line is one more than the line feeds before,
the column the bytes since the last of them. -/
def position (bytes : List UInt8) : Nat × Nat :=
  bytes.foldl (fun (p : Nat × Nat) (b : UInt8) => if b == 10 then (p.1 + 1, 0) else (p.1, p.2 + 1))
    (1, 0)

/-- The fault as shown for the document `source`. -/
def message (source : String) (f : Fault) : String :=
  let bytes := source.toUTF8.toList
  let (line, column) := position (bytes.take (bytes.length - f.left))
  s!"{f.problem.text} at line {line} column {column}"

end Fault

end Depot.Json
