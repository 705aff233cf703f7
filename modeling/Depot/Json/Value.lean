import Depot.Decimal.Shortest

/-!
# JSON values and their printed form

A document as a value, and two ways to write it: compact, and indented by two spaces a level.
Strings are written with the short escapes where there is one, other control characters as four
hexadecimal digits, and all else as it is.
-/

set_option autoImplicit false

namespace Depot.Json

/-- A number: an integer that was written as one, or a 64 bit floating point number by its bits. -/
inductive Number where
  | integer (value : Int)
  | real (bits : UInt64)
  deriving DecidableEq, Repr, Inhabited

/-- A JSON document. Members of an object keep their order. -/
inductive Value where
  | null
  | bool (value : Bool)
  | number (value : Number)
  | string (value : String)
  | array (items : List Value)
  | object (members : List (String × Value))
  deriving Repr, Inhabited

/-- A character as it is written inside of a string. -/
def escapeChar (c : Char) : List Char :=
  if c = '"' then ['\\', '"']
  else if c = '\\' then ['\\', '\\']
  else if c = '\x08' then ['\\', 'b']
  else if c = '\x0c' then ['\\', 'f']
  else if c = '\n' then ['\\', 'n']
  else if c = '\r' then ['\\', 'r']
  else if c = '\t' then ['\\', 't']
  else if c.toNat < 32 then
    ['\\', 'u', '0', '0', Decimal.digitChar (c.toNat / 16), Decimal.digitChar (c.toNat % 16)]
  else [c]

/-- The characters of a string between its quotes. -/
def escape (cs : List Char) : List Char := cs.flatMap escapeChar

/-- A string with its quotes. -/
def quote (s : String) : List Char := '"' :: (escape s.toList ++ ['"'])

/-- The number `n · 10 ^ -places`. It is an integer if it has no places and fits into 64 bits. -/
def Number.ofDecimal (n : Int) (places : Nat) : Number :=
  if places = 0 ∧ -(Nat.pow 2 63 : Int) ≤ n ∧ n < (Nat.pow 2 64 : Int) then .integer n
  else
    let f := Float.ofScientific n.natAbs true places
    .real (if n < 0 then -f else f).toBits

/-- The text of a number. What is infinite, or no number, is written as nothing. -/
def Number.text : Number → List Char
  | integer value => Decimal.intText value
  | real bits =>
    if Decimal.isFinite bits then (Decimal.realText bits).toList else ['n', 'u', 'l', 'l']

mutual

/-- A value without any space. -/
def Value.compact : Value → List Char
  | .null => "null".toList
  | .bool true => "true".toList
  | .bool false => "false".toList
  | .number n => n.text
  | .string s => quote s
  | .array items => '[' :: (Value.compactItems items ++ [']'])
  | .object members => '{' :: (Value.compactMembers members ++ ['}'])

/-- The items of an array, with commas between. -/
def Value.compactItems : List Value → List Char
  | [] => []
  | [v] => v.compact
  | v :: rest => v.compact ++ ',' :: Value.compactItems rest

/-- The members of an object, with commas between. -/
def Value.compactMembers : List (String × Value) → List Char
  | [] => []
  | [(name, v)] => quote name ++ ':' :: v.compact
  | (name, v) :: rest => quote name ++ ':' :: (v.compact ++ ',' :: Value.compactMembers rest)

end

/-- A new line at a level of indentation. -/
def newline (level : Nat) : List Char := '\n' :: List.replicate (2 * level) ' '

mutual

/-- A value with one line an item; an empty array or object stays on one line. -/
def Value.indented (level : Nat) : Value → List Char
  | .null => "null".toList
  | .bool true => "true".toList
  | .bool false => "false".toList
  | .number n => n.text
  | .string s => quote s
  | .array [] => ['[', ']']
  | .array (v :: rest) =>
    '[' :: (newline (level + 1) ++ v.indented (level + 1) ++
      Value.indentedItems (level + 1) rest ++ newline level ++ [']'])
  | .object [] => ['{', '}']
  | .object ((name, v) :: rest) =>
    '{' :: (newline (level + 1) ++ quote name ++ [':', ' '] ++ v.indented (level + 1) ++
      Value.indentedMembers (level + 1) rest ++ newline level ++ ['}'])

/-- The items of an array after the first. -/
def Value.indentedItems (level : Nat) : List Value → List Char
  | [] => []
  | v :: rest => ',' :: (newline level ++ v.indented level ++ Value.indentedItems level rest)

/-- The members of an object after the first. -/
def Value.indentedMembers (level : Nat) : List (String × Value) → List Char
  | [] => []
  | (name, v) :: rest =>
    ',' :: (newline level ++ quote name ++ [':', ' '] ++ v.indented level ++
      Value.indentedMembers level rest)

end

/-- The compact text of a document. -/
def Value.toText (v : Value) : String := String.ofList v.compact

/-- The indented text of a document. -/
def Value.toPretty (v : Value) : String := String.ofList (v.indented 0)

end Depot.Json
