import Depot.Decimal.Digits
import Depot.Text.Hidden

/-!
# Quoted text

Text as it is shown in a message to a developer: in double quotes, with every character made
visible. A character that does not show is written as its hexadecimal code in braces.
-/

set_option autoImplicit false

namespace Depot.Text

/-- A character as its code. -/
def codeEscape (c : Char) : List Char :=
  ['\\', 'u', '{'] ++ Decimal.hexText c.toNat ++ ['}']

/-- A character of a quoted text. -/
def quotedChar (c : Char) : List Char :=
  if c = '\x00' then ['\\', '0']
  else if c = '\t' then ['\\', 't']
  else if c = '\r' then ['\\', 'r']
  else if c = '\n' then ['\\', 'n']
  else if c = '"' then ['\\', '"']
  else if c = '\\' then ['\\', '\\']
  else if c.toNat < 32 then codeEscape c
  else if c.toNat < 127 then [c]
  else if isHidden c then codeEscape c
  else [c]

/-- A text in quotes. -/
def quoted (s : String) : String :=
  String.ofList ('"' :: (s.toList.flatMap quotedChar ++ ['"']))

end Depot.Text
