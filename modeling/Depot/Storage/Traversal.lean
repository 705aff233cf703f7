import Depot.Storage.Reference

/-!
# Going through a tree of directories

All objects below a path are found by one recursive walk, or by walks that show immediate entries
only, one of them for the path and one for every directory that comes up. Each entry has an address:
the path that was walked and its name lead to the key that it stands for.
-/

set_option autoImplicit false

namespace Depot

/-- A key has the form of a normalized path: none of its pieces is empty, takes back another one or
counts for nothing, and its only separators are those that keys are written with. -/
def Key.IsNormal (key : String) : Prop :=
  ∀ s ∈ pieces (· == separator) key.toList, s ≠ [] ∧ s ≠ ['.'] ∧ s ≠ ['.', '.'] ∧ '\\' ∉ s

instance (key : String) : Decidable (Key.IsNormal key) :=
  inferInstanceAs (Decidable (∀ s ∈ Key.pieces (· == Key.separator) key.toList, _ ∧ _ ∧ _ ∧ _))

/-- A name that was found below a path, joined onto the path. -/
def Key.join (path name : String) : String := normalize (path ++ "/" ++ name)

/-- An entry of a walk of a path, with its name joined onto the path. -/
def Entry.joined (path : String) : Entry → Entry
  | object name size modified => object (Key.join path name) size modified
  | directory name => directory (Key.join path name)

namespace Roots

/-- A key under which an upload or a copy stores an object: that of some path below one of the
roots. -/
def Writes (roots : Roots) (key : String) : Prop :=
  ∃ path, roots.primaryKey path = key ∨ roots.diskKey path = .ok key

/-- Where the name of an entry leads to when it is joined onto the path that was walked: to the key
of an object, or to what the keys of a directory begin with. -/
def address (roots : Roots) (path : String) : Entry → String
  | .object name _ _ => roots.primaryKey (path ++ "/" ++ name)
  | .directory name => roots.walkPrefix (path ++ "/" ++ name)

end Roots

namespace Storage.Machine

variable {World Writer : Type} (env : Env World Writer)

/-- A walk with some visitor is made while nothing else is asked for, until it ends with a result.
These are the entries that it has visited, in order. -/
def Tours (m : Machine World Writer) (path : String) (recursive : Bool) (visitor : Visitor)
    (visited : List Entry) (result : Except StoreError Unit) (m' : Machine World Writer) : Prop :=
  ∃ (steps : List Event) (task : Task Writer) (outcome : Except StoreError Outcome),
    (∀ e ∈ steps, e.isProgress = true) ∧
    m' = m.run env (.request (.walk path recursive visitor) :: steps) ∧
    m'.task? m.nextTask = some task ∧ task.phase = .ended outcome ∧
    visited = task.visited.reverse ∧ result = outcome.map fun _ => ()

/-- A walk is made while nothing else is asked for, until it ends: with an error, or with the
entries that it has visited, in order. -/
def Walks (m : Machine World Writer) (path : String) (recursive : Bool)
    (found : Except StoreError (List Entry)) (m' : Machine World Writer) : Prop :=
  ∃ (steps : List Event) (task : Task Writer) (result : Except StoreError Outcome),
    (∀ e ∈ steps, e.isProgress = true) ∧
    m' = m.run env (.request (.walk path recursive fun _ _ => .ok ()) :: steps) ∧
    m'.task? m.nextTask = some task ∧ task.phase = .ended result ∧
    found = result.map fun _ => task.visited.reverse

/-- A walk is made while nothing else is asked for, and ends with success before more than so many
steps have been made. These are the entries that it has visited, in order. -/
def WalksWithin (m : Machine World Writer) (limit : Nat) (path : String) (recursive : Bool)
    (visited : List Entry) : Prop :=
  ∃ (steps : List Event) (task : Task Writer) (outcome : Outcome),
    steps.length ≤ limit ∧ (∀ e ∈ steps, e.isProgress = true) ∧
    (m.run env (.request (.walk path recursive fun _ _ => .ok ()) :: steps)).task? m.nextTask =
      some task ∧
    task.phase = .ended (.ok outcome) ∧ visited = task.visited.reverse

/-- What was found by a walk of a path is gone through in order: an object is emitted, a directory
is walked itself. The first error ends it all. -/
inductive Visits : Machine World Writer → String → Except StoreError (List Entry) →
    Except StoreError (List Entry) → Machine World Writer → Prop where
  | failed {m : Machine World Writer} {path : String} {e : StoreError} :
      Visits m path (.error e) (.error e) m
  | nil {m : Machine World Writer} {path : String} : Visits m path (.ok []) (.ok []) m
  | object {m m' : Machine World Writer} {path name : String} {size : Nat}
      {modified : Option Time.Instant} {rest : List Entry}
      {emitted : Except StoreError (List Entry)} : Visits m path (.ok rest) emitted m' →
      Visits m path (.ok (.object name size modified :: rest))
        (emitted.map ((Entry.object name size modified).joined path :: ·)) m'
  | directory {m m₁ m₂ m' : Machine World Writer} {path name : String} {rest inner : List Entry}
      {found emitted : Except StoreError (List Entry)} :
      Walks env m (path ++ "/" ++ name) false found m₁ →
      Visits m₁ (path ++ "/" ++ name) found (.ok inner) m₂ → Visits m₂ path (.ok rest) emitted m' →
      Visits m path (.ok (.directory name :: rest)) (emitted.map (inner ++ ·)) m'
  | broken {m m₁ m' : Machine World Writer} {path name : String} {rest : List Entry}
      {found : Except StoreError (List Entry)} {e : StoreError} :
      Walks env m (path ++ "/" ++ name) false found m₁ →
      Visits m₁ (path ++ "/" ++ name) found (.error e) m' →
      Visits m path (.ok (.directory name :: rest)) (.error e) m'

/-- All objects below a path are gone through, directory by directory. -/
def Traverses (m : Machine World Writer) (path : String)
    (emitted : Except StoreError (List Entry)) (m' : Machine World Writer) : Prop :=
  ∃ found m₁, m.Walks env path false found m₁ ∧ m₁.Visits env path found emitted m'

end Storage.Machine

end Depot
