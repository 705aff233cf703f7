import Depot.Toml.Scalar

/-!
# Tables

The values of a TOML document. A table remembers how it came about, since only tables that were
merely implied by others can be defined later, and only tables made by dotted keys can be extended
by further ones.
-/

set_option autoImplicit false

namespace Depot.Toml

/-- How a table came about. -/
inductive Origin where
  /-- By a header of its own, as a value, or as the document. -/
  | defined
  /-- As a part of the path in a header. -/
  | implied
  /-- As a part of a dotted key. -/
  | dotted
  deriving DecidableEq, Repr

/-- A value. -/
inductive Value where
  | string (s : String)
  | scalar (s : Scalar)
  | array (items : List Value)
  /-- A table that was written in one piece; nothing can be added to it. -/
  | inline (entries : List (String × Value))
  | table (origin : Origin) (entries : List (String × Value))
  /-- The tables of one header in double brackets, each as its entries, in order. -/
  | tables (items : List (List (String × Value)))
  deriving Repr, Inhabited

/-- The entries of a table. -/
abbrev Entries := List (String × Value)

/-- Sets the value of a key, in place if there is one. -/
def Entries.set (entries : Entries) (key : String) (v : Value) : Entries :=
  if entries.any (·.1 = key) then entries.map fun e => if e.1 = key then (key, v) else e
  else entries ++ [(key, v)]

/-- Changes the table that a dotted key leads to. Tables on the way are made if need be. -/
def extend (change : Entries → Option Entries) : List String → Bool → Entries → Option Entries
  | [], isDotted, entries => if isDotted then change entries else none
  | key :: path, _, entries =>
    match entries.lookup key with
    | none => do
      let inner ← extend change path true []
      pure (entries.set key (.table .dotted inner))
    | some (.table .dotted inner) => do
      let inner ← extend change path true inner
      pure (entries.set key (.table .dotted inner))
    | some (.table .implied inner) => do
      let inner ← extend change path false inner
      pure (entries.set key (.table .implied inner))
    | some _ => none

/-- Adds a key that is not there. -/
def addNew (key : String) (v : Value) (entries : Entries) : Option Entries :=
  if entries.any (·.1 = key) then none else some (entries ++ [(key, v)])

/-- Sets the value of a dotted key in a table. -/
def assign (path : List String) (v : Value) (entries : Entries) : Option Entries :=
  match path.getLast?, path.dropLast with
  | some key, [] => addNew key v entries
  | some key, front => extend (addNew key v) front false entries
  | none, _ => none

/-- Changes what a header leads to, or makes it: `change` gets the value that is there, if one is.
Of tables in double brackets the last one is meant. -/
def reach (change : Option Value → Option Value) : List String → Entries → Option Entries
  | [], _ => none
  | [key], entries => do
    let v ← change (entries.lookup key)
    pure (entries.set key v)
  | key :: path, entries =>
    match entries.lookup key with
    | none => do
      let inner ← reach change path []
      pure (entries.set key (.table .implied inner))
    | some (.table origin inner) => do
      let inner ← reach change path inner
      pure (entries.set key (.table origin inner))
    | some (.tables items) =>
      match items.reverse with
      | last :: before => do
        let inner ← reach change path last
        pure (entries.set key (.tables (inner :: before).reverse))
      | [] => none
    | some _ => none

/-- A header in brackets defines a table that was only implied before. -/
def define : Option Value → Option Value
  | none => some (.table .defined [])
  | some (.table .implied inner) => some (.table .defined inner)
  | some _ => none

/-- A header in double brackets adds a table. -/
def append : Option Value → Option Value
  | none => some (.tables [[]])
  | some (.tables items) => some (.tables (items ++ [[]]))
  | some _ => none

/-- A line under a header adds to the table of the header. -/
def within (change : Entries → Option Entries) : Option Value → Option Value
  | some (.table origin inner) => (change inner).map (.table origin ·)
  | some (.tables items) =>
    match items.reverse with
    | last :: before => (change last).map fun last => .tables (last :: before).reverse
    | [] => none
  | _ => none

/-- What a line of a document says. -/
inductive Statement where
  | header (path : List String)
  | tablesHeader (path : List String)
  | assignment (path : List String) (v : Value)
  deriving Repr, Inhabited

/-- A document that was read up to some line: its entries, and the path of the last header. -/
structure Document where
  entries : Entries
  path : List String
  deriving Repr, Inhabited

/-- A document with one more line. -/
def Document.add (d : Document) : Statement → Option Document
  | .header path => (reach define path d.entries).map fun entries => ⟨entries, path⟩
  | .tablesHeader path => (reach append path d.entries).map fun entries => ⟨entries, path⟩
  | .assignment path v =>
    match d.path with
    | [] => (assign path v d.entries).map fun entries => { d with entries }
    | header =>
      (reach (within (assign path v)) header d.entries).map fun entries => { d with entries }

/-- The entries of a document of some lines. -/
def Document.ofStatements (lines : List Statement) : Option Entries :=
  (lines.foldlM Document.add ⟨[], []⟩).map (·.entries)

end Depot.Toml
