import Depot.Config.Basic
import Depot.Json.Record
import Depot.Local
import Depot.Text.Base64

/-!
# Credentials

A document with the parts of a fixed set of credentials, and the ways in which the settings can
bring it: as it is, in base 64, or in a file. All ways lead to the same result.
-/

set_option autoImplicit false

namespace Depot

open Depot.Json

/-- A fixed set of credentials. -/
structure Credentials where
  accessKeyId : String
  secretAccessKey : String
  sessionToken : Option String
  deriving DecidableEq, Repr, Inhabited

namespace Credentials

/-- The JSON form of credentials. A token that is not set is left out. -/
def toJson (c : Credentials) : Value :=
  .object <|
    [("access_key_id", .string c.accessKeyId), ("secret_access_key", .string c.secretAccessKey)] ++
    (c.sessionToken.map fun t => ("session_token", Value.string t)).toList

/-- The form shown to developers, which keeps the secret. -/
def redacted (c : Credentials) : String :=
  "StaticCredentials \x7b access_key_id: " ++ Text.quoted c.accessKeyId ++
    ", secret_access_key: " ++ Text.quoted "<redacted>" ++ " \x7d"

/-- What is asked for where a whole document should be. -/
def expected : String := "struct StaticCredentials"

/-- The members read so far. A token may be there and be none. -/
structure Members where
  accessKeyId : Option String
  secretAccessKey : Option String
  sessionToken : Option (Option String)

/-- A second member of one name. -/
def duplicate (name : String) (cs : List Char) : Fault :=
  (Problem.data s!"duplicate field `{name}`").leavingObject cs

/-- Reads one more member, from its colon on. Members of other names are passed over. -/
def readMember (m : Members) (name : String) (cs : List Char) :
    Except Fault (Members × List Char) := do
  match name with
  | "access_key_id" =>
    if m.accessKeyId.isSome then throw (duplicate name cs)
    let (s, rest) ← readString (← scanColon cs)
    pure ({ m with accessKeyId := some s }, rest)
  | "secret_access_key" =>
    if m.secretAccessKey.isSome then throw (duplicate name cs)
    let (s, rest) ← readString (← scanColon cs)
    pure ({ m with secretAccessKey := some s }, rest)
  | "session_token" =>
    if m.sessionToken.isSome then throw (duplicate name cs)
    let (s, rest) ← readString? (← scanColon cs)
    pure ({ m with sessionToken := some s }, rest)
  | _ => pure (m, ← skipValue (← scanColon cs))

/-- The credentials of all members, in front of what follows the document. -/
def ofMembers (m : Members) (rest : List Char) : Except Fault Credentials :=
  match m.accessKeyId, m.secretAccessKey with
  | none, _ => .error ((Problem.data "missing field `access_key_id`").here rest)
  | _, none => .error ((Problem.data "missing field `secret_access_key`").here rest)
  | some a, some s => .ok ⟨a, s, m.sessionToken.getD none⟩

/-- An array that ends after `n` items, too early. -/
def tooShort (n : Nat) (cs : List Char) : Fault :=
  let p := Problem.data s!"invalid length {n}, expected {expected} with 3 elements"
  match endArray cs with
  | .ok rest => p.here rest
  | .error _ => p.here cs

/-- The credentials of the items of an array. The token may be left out. -/
def scanItems (cs : List Char) : Except Fault (Credentials × List Char) := do
  match ← nextItem true cs with
  | (.done, cs) => throw (tooShort 0 cs)
  | (.more, cs) =>
    let (accessKeyId, cs) ← readString cs
    match ← nextItem false cs with
    | (.done, cs) => throw (tooShort 1 cs)
    | (.more, cs) =>
      let (secretAccessKey, cs) ← readString cs
      match ← nextItem false cs with
      | (.done, cs) => pure (⟨accessKeyId, secretAccessKey, none⟩, ← endArray cs)
      | (.more, cs) =>
        let (sessionToken, cs) ← readString? cs
        pure (⟨accessKeyId, secretAccessKey, sessionToken⟩, ← endArray cs)

/-- Credentials at the front of a text. -/
def scan (cs : List Char) : Except Fault (Credentials × List Char) := do
  match skipSpace cs with
  | '{' :: cs =>
    let (m, rest) ← readObject readMember ⟨none, none, none⟩ cs
    pure (← ofMembers m rest, rest)
  | '[' :: cs => scanItems cs
  | cs => throw (wrongType expected cs)

/-- The credentials of a document. -/
def ofText (text : String) : Except Fault Credentials := do
  let (c, rest) ← scan text.toList
  endDocument rest
  pure c

end Credentials

/-- How a client proves who it is. -/
inductive CredentialSource where
  | fixed (c : Credentials)
  /-- Not at all, at an endpoint of one's own. -/
  | anonymous
  /-- With what the surroundings provide. -/
  | surroundings
  deriving DecidableEq, Repr

namespace Config

/-- The credentials of a document. -/
def readDocument (text : String) : Except StoreError CredentialSource :=
  match Credentials.ofText text with
  | .ok c => .ok (.fixed c)
  | .error f => .error (.config s!"Invalid credentials document: {f.message text}")

/-- The document that a text in base 64 stands for. Blanks around it do not count. -/
def decodeDocument (encoded : String) : Except StoreError String :=
  match Text.Base64.decode (Text.Utf8.encode (Text.trim encoded).toList) with
  | .error f => .error (.config s!"credentials_json_encoded is not base64: {f.message}")
  | .ok bytes =>
    match Text.Utf8.decode bytes with
    | .error f => .error (.config s!"credentials_json_encoded is not UTF-8: {f.message}")
    | .ok cs => .ok (String.ofList cs)

/-- The credentials that the settings lead to. -/
def credentials (files : LocalFiles) (c : Config) : Except StoreError CredentialSource :=
  match c.credentialsJson, c.credentialsEncoded, c.credentialsFile with
  | some json, _, _ => readDocument json
  | none, some encoded, _ => do readDocument (← decodeDocument encoded)
  | none, none, some path =>
    match files.readText path with
    | .ok json => readDocument json
    | .error e => .error (.config s!"Failed to read credentials file {path}: {e.message}")
  | none, none, none => .ok (if c.endpoint.isSome then .anonymous else .surroundings)

end Config

end Depot
