import Depot.Entry.Basic
import Depot.Key

/-!
# Immediate entries

What is shown of a tree of objects when only the entries at its top are shown: objects whose name
has no separator in it, and one directory for all those that share the segment in front of their
first separator.
-/

set_option autoImplicit false

namespace Depot.Entry

/-- What is shown of an entry at the top: itself, or the directory that its name begins with, up to
and including the first separator. -/
def immediate : Entry → Entry
  | object name size modified =>
    if Key.separator ∈ name.toList then
      directory (String.ofList
        (name.toList.takeWhile (· ≠ Key.separator) ++ [Key.separator]))
    else object name size modified
  | directory name => directory name

/-- Entries without the directories that came before. Objects are kept, however often they come. -/
def once : List Entry → List Entry
  | [] => []
  | object name size modified :: rest => object name size modified :: once rest
  | directory name :: rest => directory name :: (once rest).filter (· ≠ directory name)

/-- An entry covers itself, and a directory covers all whose name begins with its own. -/
inductive Covers : Entry → Entry → Prop where
  | same (e : Entry) : Covers e e
  | within {name : String} {e : Entry} : name.toList <+: e.name.toList →
      Covers (directory name) e

end Depot.Entry
