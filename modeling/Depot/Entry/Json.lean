import Depot.Entry.Basic
import Depot.Json.Record
import Depot.Time.Reader

/-!
# Entries as JSON

An entry is written as an object whose first member tells its type. It is read from an object with
the members in any order, or from an array with the type first and the other members in order.
-/

set_option autoImplicit false

namespace Depot.Entry

open Depot.Json

/-- The largest size of an object. -/
def maxSize : Nat := Nat.pow 2 64 - 1

/-- The two types of entries. -/
inductive Tag where
  | object
  | directory
  deriving DecidableEq, Repr

/-- The word for a type. -/
def Tag.word : Tag → String
  | object => "object"
  | directory => "prefix"

/-- The type that a word stands for. -/
def Tag.ofWord? (word : String) : Option Tag :=
  if word = Tag.object.word then some .object
  else if word = Tag.directory.word then some .directory
  else none

/-- The JSON form of an entry. An unknown time is left out. -/
def toJson : Entry → Value
  | .object name size modified =>
    .object <|
      [("type", .string Tag.object.word), ("name", .string name),
        ("size", .number (.integer size))] ++
      (modified.map fun t => ("last_modified", Value.string t.text)).toList
  | .directory name => .object [("type", .string Tag.directory.word), ("name", .string name)]

/-! ## Reading -/

/-- What is wrong with an entry that is JSON. -/
def missing (name : String) : Problem := .data s!"missing field `{name}`"

/-- The complaint about a second member of one name. -/
def duplicate (name : String) : Problem := .data s!"duplicate field `{name}`"

/-- The type, which has to be one of the two words. -/
def readTag (cs : List Char) : Except Fault (Tag × List Char) := do
  let (word, rest) ← readString cs
  match Tag.ofWord? word with
  | some tag => pure (tag, rest)
  | none =>
    throw ((Problem.data s!"unknown variant `{word}`, expected `object` or `prefix`").here rest)

/-- The members of an entry read so far: its type, and all others in order. -/
structure Members where
  tag : Option Tag
  others : List (String × Value)

/-- Reads one more member, from its colon on. -/
def readMember (m : Members) (name : String) (cs : List Char) :
    Except Fault (Members × List Char) := do
  if name = "type" then
    if m.tag.isSome then throw ((duplicate name).here cs)
    let (tag, rest) ← readTag (← scanColon cs)
    pure ({ m with tag := some tag }, rest)
  else
    let (v, rest) ← scanValue (depthLimit - 1) (← scanColon cs)
    pure ({ m with others := m.others ++ [(name, v)] }, rest)

/-- The member of a name, if there is one; more than one are refused. -/
def member? (name : String) (members : List (String × Value)) : Except Problem (Option Value) :=
  match members.filter (·.1 = name) with
  | [] => .ok none
  | [(_, v)] => .ok (some v)
  | _ => .error (duplicate name)

/-- A name. -/
def nameOf : Value → Except Problem String
  | .string s => .ok s
  | v => .error (.wrongType v "a string")

/-- A size: an integer of 64 bits. -/
def sizeOf : Value → Except Problem Nat
  | .number (.integer n) =>
    if 0 ≤ n ∧ n ≤ maxSize then .ok n.toNat
    else .error (.data s!"invalid value: integer `{n}`, expected u64")
  | v => .error (.wrongType v "u64")

/-- A time, or none. -/
def modifiedOf : Value → Except Problem (Option Time.Instant)
  | .null => .ok none
  | .string s =>
    match Time.Instant.ofText? s with
    | some t => .ok (some t)
    | none => .error (.data s!"invalid timestamp {Text.quoted s}")
  | v => .error (.wrongType v "a timestamp")

/-- The entry with these members besides its type. Members of other names do not matter. -/
def ofMembers (tag : Tag) (members : List (String × Value)) : Except Problem Entry := do
  let name? ← member? "name" members
  match tag with
  | .directory =>
    let some name := name? | throw (missing "name")
    pure (.directory (← nameOf name))
  | .object =>
    let size? ← member? "size" members
    let modified? ← member? "last_modified" members
    let some name := name? | throw (missing "name")
    let some size := size? | throw (missing "size")
    pure (.object (← nameOf name) (← sizeOf size) (← modifiedOf (modified?.getD .null)))

/-- The entry with these values behind its type, in order. -/
def ofItems (tag : Tag) (items : List Value) : Except Problem Entry :=
  match tag, items with
  | .directory, [name] => do pure (.directory (← nameOf name))
  | .object, [name, size, modified] => do
    pure (.object (← nameOf name) (← sizeOf size) (← modifiedOf modified))
  | _, items => .error (.data s!"invalid length {items.length}")

/-- An entry from the front of a text. -/
def scan (cs : List Char) : Except Fault (Entry × List Char) := do
  match skipSpace cs with
  | '{' :: cs =>
    let (m, rest) ← readObject readMember ⟨none, []⟩ cs
    let some tag := m.tag | throw ((missing "type").here rest)
    match ofMembers tag m.others with
    | .ok e => pure (e, rest)
    | .error p => throw (p.here rest)
  | '[' :: cs =>
    match ← nextItem true cs with
    | (.done, rest) => throw ((missing "type").here rest)
    | (.more, rest) =>
      let (tag, rest) ← readTag rest
      let (items, rest) ← readItems (rest.length + 2) (depthLimit - 1) false rest
      let rest ← endArray rest
      match ofItems tag items with
      | .ok e => pure (e, rest)
      | .error p => throw (p.here rest)
  | cs => throw (wrongType "an entry" cs)

/-- The entry that a whole text stands for. -/
def ofText (text : String) : Except Fault Entry := do
  let (e, rest) ← scan text.toList
  endDocument rest
  pure e

end Depot.Entry
