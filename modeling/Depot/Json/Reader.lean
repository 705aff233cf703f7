import Depot.Json.Scan

/-!
# Reading JSON values

A value is read from the front of a text, arrays and objects to a limited depth. Values that nobody
asks for are passed over instead, to any depth. A whole document is one value with space around it.
-/

set_option autoImplicit false

namespace Depot.Json

/-- How deep arrays and objects may lie in one another, plus one. -/
def depthLimit : Nat := 128

/-- What stands at the front of an array or object after some of its items. -/
inductive Continuation where
  /-- The closing bracket, not yet taken. -/
  | done
  /-- The next item. -/
  | more
  deriving DecidableEq, Repr

/-- Looks for the next item of an array; `first` if none was read so far. -/
def nextItem (first : Bool) (cs : List Char) : Except Fault (Continuation × List Char) :=
  match skipSpace cs with
  | [] => .error (Problem.eofInList.ahead [])
  | ']' :: cs => .ok (.done, ']' :: cs)
  | c :: cs =>
    if first then .ok (.more, c :: cs)
    else if c = ',' then
      match skipSpace cs with
      | [] => .error (Problem.eofInValue.ahead [])
      | ']' :: cs => .error (Problem.trailingComma.ahead (']' :: cs))
      | cs => .ok (.more, cs)
    else .error (Problem.expectedListCommaOrEnd.ahead (c :: cs))

/-- Looks for the next member of an object, whose opening quote is taken; `first` if none was read
so far. -/
def nextMember (first : Bool) (cs : List Char) : Except Fault (Continuation × List Char) :=
  match skipSpace cs with
  | [] => .error (Problem.eofInObject.ahead [])
  | '}' :: cs => .ok (.done, '}' :: cs)
  | c :: cs =>
    if first then
      if c = '"' then .ok (.more, cs) else .error (Problem.keyMustBeString.ahead (c :: cs))
    else if c = ',' then
      match skipSpace cs with
      | [] => .error (Problem.eofInValue.ahead [])
      | '"' :: cs => .ok (.more, cs)
      | '}' :: cs => .error (Problem.trailingComma.ahead ('}' :: cs))
      | cs => .error (Problem.keyMustBeString.ahead cs)
    else .error (Problem.expectedObjectCommaOrEnd.ahead (c :: cs))

/-- The colon between a name and its value. -/
def scanColon (cs : List Char) : Except Fault (List Char) :=
  match skipSpace cs with
  | [] => .error (Problem.eofInObject.ahead [])
  | ':' :: cs => .ok cs
  | cs => .error (Problem.expectedColon.ahead cs)

/-- The closing bracket of an array. -/
def endArray (cs : List Char) : Except Fault (List Char) :=
  match skipSpace cs with
  | [] => .error (Problem.eofInList.ahead [])
  | ']' :: cs => .ok cs
  | ',' :: cs =>
    match skipSpace cs with
    | ']' :: cs => .error (Problem.trailingComma.ahead (']' :: cs))
    | cs => .error (Problem.trailingCharacters.ahead cs)
  | cs => .error (Problem.trailingCharacters.ahead cs)

/-- The closing bracket of an object. -/
def endObject (cs : List Char) : Except Fault (List Char) :=
  match skipSpace cs with
  | [] => .error (Problem.eofInObject.ahead [])
  | '}' :: cs => .ok cs
  | ',' :: cs => .error (Problem.trailingComma.ahead (',' :: cs))
  | cs => .error (Problem.trailingCharacters.ahead cs)

/-- A value that is no array and no object, from its first character on. -/
def scanScalar : Scan Value
  | [] => .error (Problem.eofInValue.ahead [])
  | c :: cs =>
    if c = '"' then (scanString cs).map fun (s, rest) => (.string s, rest)
    else if c = 'n' then (scanWord ['u', 'l', 'l'] cs).map fun rest => (.null, rest)
    else if c = 't' then (scanWord ['r', 'u', 'e'] cs).map fun rest => (.bool true, rest)
    else if c = 'f' then (scanWord ['a', 'l', 's', 'e'] cs).map fun rest => (.bool false, rest)
    else if c = '-' then (scanNumber true cs).map fun (n, rest) => (.number n, rest)
    else if Decimal.isDigit c then
      (scanNumber false (c :: cs)).map fun (n, rest) => (.number n, rest)
    else .error (Problem.expectedValue.ahead (c :: cs))

mutual

/-- A value with arrays and objects of less than `depth` levels, in at most `fuel` nested steps. -/
def readValue : Nat → Nat → Scan Value
  | 0, _, cs => .error (Problem.eofInValue.here cs)
  | fuel + 1, depth, cs =>
    match skipSpace cs with
    | '[' :: cs =>
      if depth ≤ 1 then .error (Problem.recursionLimit.ahead ('[' :: cs))
      else do
        let (items, rest) ← readItems fuel (depth - 1) true cs
        pure (.array items, ← endArray rest)
    | '{' :: cs =>
      if depth ≤ 1 then .error (Problem.recursionLimit.ahead ('{' :: cs))
      else do
        let (members, rest) ← readMembers fuel (depth - 1) true cs
        pure (.object members, ← endObject rest)
    | cs => scanScalar cs

/-- The items of an array up to its closing bracket. -/
def readItems : Nat → Nat → Bool → Scan (List Value)
  | 0, _, _, cs => .error (Problem.eofInList.here cs)
  | fuel + 1, depth, first, cs => do
    match ← nextItem first cs with
    | (.done, rest) => pure ([], rest)
    | (.more, rest) =>
      let (v, rest) ← readValue fuel depth rest
      let (vs, rest) ← readItems fuel depth false rest
      pure (v :: vs, rest)

/-- The members of an object up to its closing bracket. -/
def readMembers : Nat → Nat → Bool → Scan (List (String × Value))
  | 0, _, _, cs => .error (Problem.eofInObject.here cs)
  | fuel + 1, depth, first, cs => do
    match ← nextMember first cs with
    | (.done, rest) => pure ([], rest)
    | (.more, rest) =>
      let (name, rest) ← scanString rest
      let rest ← scanColon rest
      let (v, rest) ← readValue fuel depth rest
      let (vs, rest) ← readMembers fuel depth false rest
      pure ((name, v) :: vs, rest)

end

/-- A value at some depth of a document. Every nested step takes a character. -/
def scanValue (depth : Nat) (cs : List Char) : Except Fault (Value × List Char) :=
  readValue (cs.length + 2) depth cs

/-- What is left behind a document must be space. -/
def endDocument (cs : List Char) : Except Fault Unit :=
  match skipSpace cs with
  | [] => .ok ()
  | cs => .error (Problem.trailingCharacters.ahead cs)

/-- The document of a text. -/
def Value.ofText (text : String) : Except Fault Value := do
  let (v, rest) ← scanValue depthLimit text.toList
  endDocument rest
  pure v

/-! ## Passing over a value -/

/-- An array or object that is being passed over. -/
inductive Frame where
  | array
  | object
  deriving DecidableEq, Repr

/-- Passes over a value that is no array and no object. -/
def skipScalar : List Char → Except Fault (List Char)
  | [] => .error (Problem.eofInValue.ahead [])
  | c :: cs =>
    if c = '"' then skipString cs
    else if c = 'n' then scanWord ['u', 'l', 'l'] cs
    else if c = 't' then scanWord ['r', 'u', 'e'] cs
    else if c = 'f' then scanWord ['a', 'l', 's', 'e'] cs
    else if c = '-' then skipNumber cs
    else if Decimal.isDigit c then skipNumber (c :: cs)
    else .error (Problem.expectedValue.ahead (c :: cs))

/-- The name and the colon of a member that is passed over. -/
def skipName (cs : List Char) : Except Fault (List Char) :=
  match skipSpace cs with
  | [] => .error (Problem.eofInObject.ahead [])
  | '"' :: cs => do scanColon (← skipString cs)
  | cs => .error (Problem.keyMustBeString.ahead cs)

/-- What stands in front of the next item of the innermost open array or object. -/
def skipLead (frame : Frame) (cs : List Char) : Except Fault (List Char) :=
  match frame with
  | .array => .ok cs
  | .object => skipName cs

/-- Passes over closing brackets and one comma, in front of which `comma` says whether one may
stand: what is left, and what is still open. -/
def skipClosing (comma : Bool) : List Frame → List Char → Except Fault (List Frame × List Char)
  | [], cs => .ok ([], cs)
  | frame :: frames, cs =>
    match skipSpace cs with
    | [] => .error ((match frame with
        | .array => Problem.eofInList
        | .object => Problem.eofInObject).ahead [])
    | c :: rest =>
      if comma ∧ c = ',' then .ok (frame :: frames, rest)
      else if (c = ']' ∧ frame = .array) ∨ (c = '}' ∧ frame = .object) then
        skipClosing true frames rest
      else if comma then
        .error ((match frame with
          | .array => Problem.expectedListCommaOrEnd
          | .object => Problem.expectedObjectCommaOrEnd).ahead (c :: rest))
      else .ok (frame :: frames, c :: rest)

/-- Passes over a value within the open arrays and objects, and over all that follows in them. -/
def skipWithin : Nat → List Frame → List Char → Except Fault (List Char)
  | 0, _, cs => .error (Problem.eofInValue.here cs)
  | fuel + 1, frames, cs => do
    let (frames, rest) ← match skipSpace cs with
      | '[' :: cs => skipClosing false (.array :: frames) cs
      | '{' :: cs => skipClosing false (.object :: frames) cs
      | cs => do skipClosing true frames (← skipScalar cs)
    match frames with
    | [] => pure rest
    | frame :: _ => skipWithin fuel frames (← skipLead frame rest)

/-- Passes over a value. -/
def skipValue (cs : List Char) : Except Fault (List Char) := skipWithin (cs.length + 1) [] cs

end Depot.Json
