import Depot.Config.Toml
import Depot.Local
import Depot.Log

/-!
# The configuration file

Where the settings are kept, and how they are loaded from there.
-/

set_option autoImplicit false

namespace Depot.Config

/-- Variables of the surroundings by name. -/
abbrev Variables := List (String × String)

/-- The variable that names the directory of the file. -/
def directoryVariable : String := "RSTORE_CONFIG_DIR"

/-- The home directory of a user for whom none is set. -/
def fallbackHome : String := "/root"

/-- The directory in which the settings of all programs are kept. -/
def commonDirectory (vars : Variables) : String :=
  match (vars.lookup "XDG_CONFIG_HOME").filter LocalPath.isAbsolute with
  | some directory => directory
  | none =>
    let home := ((vars.lookup "HOME").filter fun h => !h.isEmpty).getD fallbackHome
    LocalPath.join home ".config"

/-- The path of the file, unless one is given. -/
def defaultPath (vars : Variables) : String :=
  let directory := match vars.lookup directoryVariable with
    | some directory => directory
    | none => LocalPath.join (commonDirectory vars) "rstore"
  LocalPath.join directory "config.toml"

/-- The settings of a file, which are not checked; none if there is no such file. -/
def readFrom (files : LocalFiles) (path : String) : Except StoreError (Option Config) :=
  match files.readText path with
  | .ok text => (ofToml text).map some
  | .error e => if e.kind = .notFound then .ok none else .error (.io e)

/-- There is no file under a path. -/
def fileMissing (path : String) : StoreError := .config s!"Config file not found: {path}"

/-- The settings of a file, which has to be there and in order. -/
def loadFrom (files : LocalFiles) (path : String) : Except StoreError Config := do
  let some c ← readFrom files path | throw (fileMissing path)
  c.validate
  pure c

end Depot.Config
