import Depot.Error
import Depot.Key

/-!
# Roots

A storage keeps regular objects below a primary root and, where one is set, the objects of disks
below a second root. This module turns a caller's path into the key below either.
-/

set_option autoImplicit false

namespace Depot

/-- The normalized roots of a storage. -/
structure Roots where
  primary : String
  disk : Option String
  deriving DecidableEq, Repr, Inhabited

namespace Roots

/-- The roots given by two paths. -/
def ofPaths (path : String) (diskPath : Option String) : Roots where
  primary := Key.normalize path
  disk := diskPath.map Key.normalize

/-- The key of `path` below the primary root. -/
def primaryKey (roots : Roots) (path : String) : String := Key.below roots.primary path

/-- The key of `path` below the root of disk objects, which has to be set. -/
def diskKey (roots : Roots) (path : String) : Except StoreError String :=
  match roots.disk with
  | some root => .ok (Key.below root path)
  | none => .error (.config "object_disk_path is not configured")

/-- The prefix that all keys below `path` begin with. The whole bucket is listed with the empty
prefix. -/
def walkPrefix (roots : Roots) (path : String) : String :=
  let key := roots.primaryKey path
  if key.isEmpty then key else key.push Key.separator

end Roots

end Depot
