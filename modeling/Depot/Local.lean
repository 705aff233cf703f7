import Depot.Error
import Depot.Stream
import Depot.Text.Utf8

/-!
# Local files

The files of the machine that the program runs on, as far as it looks at them, and the failures of
looking.
-/

set_option autoImplicit false

namespace Depot

/-- What is found under a path. -/
inductive LocalNode where
  | file (bytes : ByteArray)
  | directory

/-- The files of a machine: what is found under each path, or why nothing is. -/
abbrev LocalFiles := String → Except IoError LocalNode

namespace IoError

/-- There is nothing under a path. -/
def missingFile : IoError := ⟨.notFound, some "No such file or directory (os error 2)"⟩

/-- A path leads through something that is no directory. -/
def throughFile : IoError := ⟨.notADirectory, some "Not a directory (os error 20)"⟩

/-- A path holds the character that ends texts for the operating system. -/
def zeroInPath : IoError :=
  ⟨.invalidInput, some "file name contained an unexpected NUL byte"⟩

/-- A directory was to be read. -/
def readDirectory : IoError := ⟨.isADirectory, some "Is a directory (os error 21)"⟩

/-- The bytes of a file are no text. -/
def notText : IoError := ⟨.invalidData, some "stream did not contain valid UTF-8"⟩

end IoError

namespace LocalNode

/-- The size of a file. That of a directory says nothing about what is in it. -/
def size : LocalNode → Nat
  | file bytes => bytes.size
  | directory => 4096

/-- What reading yields. A directory can be opened, and not read. -/
def stream : LocalNode → Stream
  | file bytes => .ofBytes bytes
  | directory => [.fail .readDirectory]

/-- The text of a file. -/
def text : LocalNode → Except IoError String
  | file bytes =>
    match Text.Utf8.decode bytes.toList with
    | .ok cs => .ok (String.ofList cs)
    | .error _ => .error .notText
  | directory => .error .readDirectory

end LocalNode

/-- The text of the file under a path. -/
def LocalFiles.readText (files : LocalFiles) (path : String) : Except IoError String := do
  (← files path).text

namespace LocalPath

/-- Whether a path starts from the root of the file system. -/
def isAbsolute (path : String) : Bool := path.startsWith "/"

/-- A path below another one. An absolute path stays what it is. -/
def join (path name : String) : String :=
  if isAbsolute name ∨ path.isEmpty then name
  else if path.endsWith "/" then path ++ name
  else s!"{path}/{name}"

end LocalPath

end Depot
