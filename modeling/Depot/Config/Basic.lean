import Depot.Listing
import Depot.Roots
import Depot.Text.Blank
import Depot.Url.Basic

/-!
# Configuration

The settings of one storage, the checks that they have to pass, and what follows from them for the
other parts of the library.
-/

set_option autoImplicit false

namespace Depot

/-- The settings of a storage. -/
structure Config where
  bucket : String
  /-- The root of regular objects. -/
  path : String
  /-- The root of the objects of disks. -/
  diskPath : Option String
  /-- The address of the store, if it is not that of the provider. -/
  endpoint : Option String
  region : String
  /-- Whether the bucket is named in the path of an address, and not in its host. -/
  pathStyle : Bool
  /-- The credentials document itself. -/
  credentialsJson : Option String
  /-- The credentials document in base 64. -/
  credentialsEncoded : Option String
  /-- The file that holds the credentials document. -/
  credentialsFile : Option String
  storageClass : Option String
  /-- What every uploaded object is labelled with, in the order of the names. -/
  labels : List (String × String)
  poolSize : Nat
  /-- The seconds to wait for a client; without, there is no limit. -/
  waitSeconds : Option Nat
  /-- Whether requests and responses are logged. -/
  debug : Bool
  deriving DecidableEq, Repr

namespace Config

/-- The settings of an empty file. -/
def standard : Config where
  bucket := ""
  path := ""
  diskPath := none
  endpoint := none
  region := "us-east-1"
  pathStyle := false
  credentialsJson := none
  credentialsEncoded := none
  credentialsFile := none
  storageClass := none
  labels := []
  poolSize := 16
  waitSeconds := none
  debug := false

instance : Inhabited Config := ⟨standard⟩

/-- The number of ways in which credentials are given. -/
def credentialForms (c : Config) : Nat :=
  [c.credentialsJson.isSome, c.credentialsEncoded.isSome, c.credentialsFile.isSome].count true

/-- Whether one of the roots lies within the other without being the same. -/
def rootsOverlap (path diskPath : String) : Bool :=
  (Key.isNested path diskPath || Key.isNested diskPath path)
    && Key.normalize path ≠ Key.normalize diskPath

/-- The endpoint must be an absolute address. -/
def checkEndpoint (c : Config) : Except StoreError Unit :=
  match c.endpoint with
  | none => .ok ()
  | some endpoint =>
    match Url.check endpoint with
    | .ok () => .ok ()
    | .error f => .error (.config s!"Invalid endpoint '{endpoint}': {f.message}")

/-- The root of the objects of disks must be apart from that of regular objects, or the same. -/
def checkRoots (c : Config) : Except StoreError Unit :=
  match c.diskPath with
  | none => .ok ()
  | some diskPath =>
    if rootsOverlap c.path diskPath then
      .error (.config s!"object_disk_path '{diskPath}' overlaps path '{c.path}'")
    else .ok ()

/-- Whether the settings can be used together; if not, the first reason why. -/
def validate (c : Config) : Except StoreError Unit := do
  if (Text.trim c.bucket).isEmpty then throw (.config "bucket must be set")
  if c.poolSize = 0 then throw (.config "client_pool_size must be at least 1")
  c.checkEndpoint
  if 1 < c.credentialForms then
    throw <| .config <|
      "credentials_json, credentials_json_encoded and credentials_file are mutually exclusive"
  c.checkRoots

/-- The roots of the storage. -/
def roots (c : Config) : Roots := .ofPaths c.path c.diskPath

/-- What is stored with every upload. An empty storage class counts as none. -/
def writeOptions (c : Config) : WriteOptions :=
  ⟨c.storageClass.filter fun s => !s.isEmpty, c.labels⟩

/-- The milliseconds to wait for a client. There is a deadline for any number of them. That a clock
cannot tell one that is too far ahead, so that an earlier one is taken for it, is left out. -/
def waitMillis (c : Config) : Option Nat := c.waitSeconds.map (· * 1000)

end Config

end Depot
