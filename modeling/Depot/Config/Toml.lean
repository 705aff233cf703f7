import Depot.Config.Basic
import Depot.Toml.Reader

/-!
# Settings as TOML

A document whose keys are the names of the settings. Keys that are not known are passed over, and
settings that are not given keep their standard values.
-/

set_option autoImplicit false

namespace Depot.Config

open Depot.Toml

/-- The setting of a key, read by `read`; the standard value if the key is not there. -/
def setting {α : Type} (entries : Entries) (key : String) (standard : α)
    (read : Value → Option α) : Option α :=
  match entries.lookup key with
  | some v => read v
  | none => some standard

/-- A string. -/
def stringOf : Value → Option String
  | .string s => some s
  | _ => none

/-- A truth value. -/
def boolOf : Value → Option Bool
  | .scalar (.bool b) => some b
  | _ => none

/-- A number of 64 bits. -/
def natOf : Value → Option Nat
  | .scalar (.integer n) => if 0 ≤ n ∧ n < (Nat.pow 2 64 : Int) then some n.toNat else none
  | _ => none

/-- Puts a named value in its place, in the order of the names. -/
def insertLabel (name value : String) : List (String × String) → List (String × String)
  | [] => [(name, value)]
  | (n, v) :: rest => if name < n then (name, value) :: (n, v) :: rest
    else (n, v) :: insertLabel name value rest

/-- Named strings, in the order of the names. -/
def labelsOf (v : Value) : Option (List (String × String)) :=
  let entries := match v with
    | .inline entries => some entries
    | .table _ entries => some entries
    | _ => none
  entries.bind fun entries =>
    entries.foldlM (fun labels (name, v) => (stringOf v).map (insertLabel name · labels)) []

/-- The settings of the entries of a document. -/
def ofEntries (entries : Entries) : Option Config := do
  let s := Config.standard
  let string (key : String) (standard : String) := setting entries key standard stringOf
  let string? (key : String) := setting entries key none fun v => (stringOf v).map some
  pure
    { bucket := ← string "bucket" s.bucket
      path := ← string "path" s.path
      diskPath := ← string? "object_disk_path"
      endpoint := ← string? "endpoint"
      region := ← string "region" s.region
      pathStyle := ← setting entries "force_path_style" s.pathStyle boolOf
      credentialsJson := ← string? "credentials_json"
      credentialsEncoded := ← string? "credentials_json_encoded"
      credentialsFile := ← string? "credentials_file"
      storageClass := ← string? "storage_class"
      labels := ← setting entries "object_labels" s.labels labelsOf
      poolSize := ← setting entries "client_pool_size" s.poolSize natOf
      waitSeconds :=
        ← setting entries "pool_wait_timeout_secs" none fun v => (natOf v).map some
      debug := ← setting entries "debug" s.debug boolOf }

/-- The settings of a document. -/
def ofToml (text : String) : Except StoreError Config :=
  match (Toml.read text).bind ofEntries with
  | some c => .ok c
  | none => .error (.config "Failed to parse config")

end Depot.Config
