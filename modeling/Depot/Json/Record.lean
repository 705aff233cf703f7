import Depot.Decimal.Shortest
import Depot.Json.Reader
import Depot.Text.Quoted

/-!
# Reading records

A record is read from an object whose members are known by name, or from an array that holds the
same values in a fixed order. The reader of a record says what to do with each member; what is of
the wrong type is named in the complaint.
-/

set_option autoImplicit false

namespace Depot.Json

/-- How a value is named in a complaint about its type. -/
def Value.described : Value → String
  | .null => "null"
  | .bool b => s!"boolean `{b}`"
  | .number (.integer n) => s!"integer `{n}`"
  | .number (.real bits) => s!"floating point `{Decimal.realText bits}`"
  | .string s => s!"string {Text.quoted s}"
  | .array _ => "sequence"
  | .object _ => "map"

/-- The complaint that something else than `expected` was found. -/
def Problem.wrongType (found : Value) (expected : String) : Problem :=
  .data s!"invalid type: {found.described}, expected {expected}"

/-- The fault of a value that is not `expected`. Arrays and objects are not looked into; of any
other value the text is read first. -/
def wrongType (expected : String) (cs : List Char) : Fault :=
  match cs with
  | '[' :: cs => (Problem.wrongType (.array []) expected).here ('[' :: cs)
  | '{' :: cs => (Problem.wrongType (.object []) expected).here ('{' :: cs)
  | cs =>
    match scanScalar cs with
    | .error f => f
    | .ok (v, rest) => (Problem.wrongType v expected).here rest

/-- A string, and nothing else. -/
def readString (cs : List Char) : Except Fault (String × List Char) :=
  match skipSpace cs with
  | '"' :: cs => scanString cs
  | cs => .error (wrongType "a string" cs)

/-- A string or the word for none. -/
def readString? (cs : List Char) : Except Fault (Option String × List Char) :=
  match skipSpace cs with
  | 'n' :: cs => (scanWord ['u', 'l', 'l'] cs).map fun rest => (none, rest)
  | cs => (readString cs).map fun (s, rest) => (some s, rest)

/-- The members of an object, each given to `member` with its name and the text from its colon on,
together with what the members before it came to. -/
def readFields {σ : Type} (member : σ → String → Scan σ) : Nat → Bool → σ → Scan σ
  | 0, _, _, cs => .error (Problem.eofInObject.here cs)
  | fuel + 1, first, state, cs => do
    match ← nextMember first cs with
    | (.done, rest) => pure (state, rest)
    | (.more, rest) =>
      let (name, rest) ← scanString rest
      let (state, rest) ← member state name rest
      readFields member fuel false state rest

/-- The members of an object whose opening bracket is taken, and its closing bracket. -/
def readObject {σ : Type} (member : σ → String → Scan σ) (state : σ) (cs : List Char) :
    Except Fault (σ × List Char) := do
  let (state, rest) ← readFields member (cs.length + 1) true state cs
  pure (state, ← endObject rest)

/-- A problem that is found when an object is left: behind its closing bracket if that is next. -/
def Problem.leavingObject (p : Problem) (cs : List Char) : Fault :=
  match skipSpace cs with
  | '}' :: cs => p.here cs
  | cs => p.here cs

end Depot.Json
