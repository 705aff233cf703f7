import Depot.Time.Instant

/-!
# Entries

What a walk or a look-up reports. A store knows objects only; a directory stands for all keys that
share a beginning, and has no size and no time of its own.
-/

set_option autoImplicit false

namespace Depot

/-- One entry of a storage, named relative to the place that was asked for. -/
inductive Entry where
  /-- A stored object. -/
  | object (name : String) (size : Nat) (modified : Option Time.Instant)
  /-- The keys that begin with a name, which ends with the separator. -/
  | directory (name : String)
  deriving DecidableEq, Repr, Inhabited

namespace Entry

/-- The name of an entry. -/
def name : Entry → String
  | object name _ _ => name
  | directory name => name

/-- The size in bytes; a directory has none. -/
def size : Entry → Nat
  | object _ size _ => size
  | directory _ => 0

/-- The time of the last change, where it is known. -/
def modified : Entry → Option Time.Instant
  | object _ _ modified => modified
  | directory _ => none

/-- Whether the entry stands for more than one object. -/
def isDirectory : Entry → Bool
  | object _ _ _ => false
  | directory _ => true

end Entry

end Depot
