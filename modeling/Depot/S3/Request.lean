import Depot.Config.Credentials
import Depot.Text.Percent

/-!
# Requests

What is sent to an S3 endpoint. Each call of a store is one request, but for a copy, which a look-up
of its source precedes. A bucket is named in front of the key in the path of a request.
-/

set_option autoImplicit false

namespace Depot.S3

/-- What a request asks for. -/
inductive Method where
  | get
  | head
  | put
  | delete
  deriving DecidableEq, Repr, Inhabited

/-- The word for a method. -/
def Method.word : Method → String
  | get => "GET"
  | head => "HEAD"
  | put => "PUT"
  | delete => "DELETE"

/-- Who signed a request, and for which region. -/
structure Signature where
  accessKeyId : String
  sessionToken : Option String
  region : String
  deriving DecidableEq, Repr, Inhabited

/-- One request. -/
structure Request where
  method : Method
  bucket : String
  /-- The object that is asked for; none if it is the bucket. -/
  key : Option String
  query : List (String × String)
  signature : Option Signature
  /-- The storage class of an upload. -/
  storageClass : Option String
  /-- The labels of an upload. -/
  metadata : List (String × String)
  /-- The object that is to be copied, as it is written in a header. -/
  copySource : Option String
  /-- The data of an upload. -/
  body : Option ByteArray

namespace Request

/-- A request that brings nothing with it. -/
def plain (method : Method) (bucket : String) (key : Option String)
    (signature : Option Signature) : Request :=
  ⟨method, bucket, key, [], signature, none, [], none, none⟩

/-- Asks for one page of a listing. -/
def list (signature : Option Signature) (q : Query) : Request :=
  { plain .get q.bucket none signature with
    query :=
      [("list-type", "2")] ++ (q.token.map fun t => ("continuation-token", t)).toList ++
      (q.delimiter.map fun d => ("delimiter", d)).toList ++
      (if q.lead.isEmpty then [] else [("prefix", q.lead)]) }

/-- Asks for the data of an object. -/
def read (signature : Option Signature) (bucket key : String) : Request :=
  plain .get bucket (some key) signature

/-- Asks what is known about an object. -/
def look (signature : Option Signature) (bucket key : String) : Request :=
  plain .head bucket (some key) signature

/-- Stores an object. -/
def upload (signature : Option Signature) (bucket key : String) (options : WriteOptions)
    (data : ByteArray) : Request :=
  { plain .put bucket (some key) signature with
    storageClass := options.storageClass
    metadata := options.metadata
    body := some data }

/-- Removes an object. -/
def remove (signature : Option Signature) (bucket key : String) : Request :=
  plain .delete bucket (some key) signature

/-- A source of a copy as it is written: only its key is encoded, separators within it as well. -/
def sourceText (bucket key : String) : String := bucket ++ "/" ++ Text.Percent.encode key

/-- Copies an object within the store. -/
def copy (signature : Option Signature) (sourceBucket sourceKey bucket key : String) : Request :=
  { plain .put bucket (some key) signature with
    copySource := some (sourceText sourceBucket sourceKey) }

/-- Whether a request can be sent. One whose bucket is blank, or whose key is empty, cannot. Values
that no header can carry, such as a line break in metadata or in the bucket of a source, and buckets
whose names mean something else to an endpoint, such as resource names, count as sendable here. -/
def isSendable (r : Request) : Bool := !(Text.trim r.bucket).isEmpty && r.key ≠ some ""

/-! ## The address of a request -/

/-- A path with all but its separators encoded. -/
def pathText (path : String) : String :=
  "/".intercalate ((Key.pieces (· == Key.separator) path.toList).map fun p =>
    Text.Percent.encode (String.ofList p))

/-- The named values behind the question mark of an address. -/
def queryText (query : List (String × String)) : String :=
  "&".intercalate (query.map fun (name, value) => s!"{name}={Text.Percent.encode value}")

/-- The address of a request below that of an endpoint. -/
def address (endpoint : String) (r : Request) : String :=
  let base := if endpoint.endsWith "/" then endpoint else endpoint.push '/'
  let path := base ++ Text.Percent.encode r.bucket ++ "/" ++ pathText (r.key.getD "")
  if r.query.isEmpty then path else path ++ "?" ++ queryText r.query

end Request

end Depot.S3
