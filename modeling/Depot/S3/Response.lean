import Depot.Listing
import Depot.Stream

/-!
# Responses

What an S3 endpoint answers, and what is made of it. A response counts as a refusal if its status is
none of success or its document reports a failure. Of a refusal only the code that it carries tells
that an object is missing; a look-up has no document, and there the status tells.
-/

set_option autoImplicit false

namespace Depot.S3

/-- A moment as it is told by an endpoint, in seconds and nanoseconds from the start of 1970. -/
structure Moment where
  second : Int
  nanosecond : Nat
  deriving DecidableEq, Repr, Inhabited

/-- The instant of a moment, if that is in range. -/
def Moment.instant? (m : Moment) : Option Time.Instant :=
  Time.Instant.ofParts? m.second m.nanosecond

/-- An object of a listing, as far as it is described. -/
structure ListedObject where
  key : Option String
  size : Option Int64
  modified : Option Moment
  deriving DecidableEq, Repr, Inhabited

/-- The document of one page of a listing. -/
structure ListingDocument where
  objects : List ListedObject
  groups : List (Option String)
  truncated : Option Bool
  next : Option String
  deriving DecidableEq, Repr, Inhabited

/-- What the body of a response says. -/
inductive Document where
  /-- There is no body. -/
  | none
  | listing (l : ListingDocument)
  /-- An object was copied. -/
  | copied
  /-- Something failed. -/
  | failure (code text : Option String)
  /-- The body is no document that could be expected. -/
  | other
  deriving DecidableEq, Repr, Inhabited

/-- A response of an endpoint. -/
structure Response where
  status : Nat
  /-- Headers by their names in lower case. -/
  headers : List (String × String)
  /-- The announced length of the body. -/
  length : Option Int64
  modified : Option Moment
  body : ByteArray
  /-- What the body says. -/
  document : Document
  /-- Whether the body has its announced length. -/
  complete : Bool

/-- What a request comes to on the network. -/
inductive Reply where
  /-- There is no response. -/
  | lost
  | response (r : Response)

/-! ## Failures -/

/-- The failure that a response reports. -/
structure Refusal where
  code : Option String
  text : Option String
  /-- The code in the headers of the response. -/
  headerCode : Option String
  deriving DecidableEq, Repr, Inhabited

/-- Why a request was not answered as it should be. -/
inductive Failure where
  /-- It could not be sent. -/
  | unsendable
  /-- There was no response. -/
  | lost
  /-- The response could not be understood. -/
  | unreadable
  | refused (r : Refusal)
  deriving DecidableEq, Repr, Inhabited

/-- The code of a missing bucket. -/
def noSuchBucket : String := "NoSuchBucket"

/-- The code of a missing object. -/
def noSuchKey : String := "NoSuchKey"

/-- The code of whatever is missing where a response has no document. -/
def notFoundCode : String := "NotFound"

/-- The code of an object that has to be restored before it can be read. -/
def invalidState : String := "InvalidObjectState"

/-- The code of an object that has to be restored before it can be copied. -/
def archived : String := "ObjectNotInActiveTierError"

/-- Whether a request was refused with a code. -/
def Failure.hasCode (f : Failure) (code : String) : Bool :=
  match f with
  | refused r => r.code = some code
  | _ => false

/-- What is told of a refusal. Codes in `known` are told with their text, others as unexpected. -/
def Refusal.message (known : List String) (r : Refusal) : String :=
  let told := match r.code with
    | some code =>
      if known.contains code then
        match r.text with
        | some text => s!"{code}: {text}"
        | none => code
      else s!"unhandled error ({code})"
    | none => "unhandled error"
  match r.headerCode with
  | some code => s!"{told} (code: {code})"
  | none => told

/-- What is told of a failure. Where there was no response to read, a description of the cause
follows after a colon, which is left out here, as only the client library knows it. The text of a
request that timed out (`Request timeout`) is left out as well, since no reply comes late here. -/
def Failure.message (known : List String) : Failure → String
  | unsendable => "Request construction failed"
  | lost => "Network dispatch error"
  | unreadable => "Response error"
  | refused r => s!"Service error: {r.message known}"

/-- The error of a call that failed. -/
def Failure.error (action : String) (known : List String) (f : Failure) : StoreError :=
  .transport s!"{action}: {f.message known}"

namespace Response

/-- Whether the status is one of success. -/
def isSuccess (r : Response) : Bool := 200 ≤ r.status && r.status < 300

/-- The failure that a response reports. Where nothing is said about it, the status can say that
something is missing. -/
def refusal (r : Response) : Refusal :=
  let headerCode := r.headers.lookup "x-amz-error-code"
  match r.document with
  | .failure code text => ⟨code, text, headerCode⟩
  | .none => ⟨if r.status = 404 then some notFoundCode else none, none, headerCode⟩
  | _ => ⟨none, none, headerCode⟩

/-- A response whose body was received, unless it is a refusal. -/
def received (r : Response) : Except Failure Response :=
  if !r.complete then .error .unreadable
  else
    match r.isSuccess, r.document with
    | true, .failure _ _ => .error (.refused r.refusal)
    | true, _ => .ok r
    | false, _ => .error (.refused r.refusal)

/-- A response to a look-up, which has no body whatever its length is announced to be. -/
def receivedHead (r : Response) : Except Failure Response :=
  let r := { r with body := .empty, document := .none, complete := true }
  r.received

/-- A response whose body is still to be read, unless it is a refusal. -/
def receivedStream (r : Response) : Except Failure Response :=
  if r.isSuccess then .ok r else r.received

/-! ## Contents -/

/-- What a listing tells of an object, if it tells its key. A size that is not told counts as zero,
and so does a negative one. -/
def object? (o : ListedObject) : Option Attributes :=
  o.key.map fun key => ⟨key, (o.size.getD 0).toNatClampNeg, o.modified.bind Moment.instant?⟩

/-- Groups and objects as one sequence in the order of their keys. -/
def merge (groups : List String) (objects : List Attributes) : List Listed :=
  (groups.map Listed.group ++ objects.map Listed.object).mergeSort fun a b => a.key ≤ b.key

/-- The page that a document describes. Only a listing that is said to go on has a token. -/
def pageOf (l : ListingDocument) : Page where
  items := merge (l.groups.filterMap id) (l.objects.filterMap object?)
  next := if l.truncated = some true then l.next else none

/-- The page in a response. -/
def page (r : Response) : Except Failure Page :=
  match r.document with
  | .listing l => .ok (pageOf l)
  | _ => .error .unreadable

/-- What a response to a look-up tells of an object. -/
def attributes (r : Response) (key : String) : Attributes :=
  ⟨key, (r.length.getD 0).toNatClampNeg, r.modified.bind Moment.instant?⟩

/-- The data of a response as it comes in. It breaks off if it is not complete. -/
def stream (r : Response) : Stream :=
  (if r.body.isEmpty then [] else Stream.ofBytes r.body) ++
    if r.complete then [] else [.fail ⟨.other, none⟩]

/-- Whether a copy was reported. No report is fine, but any other is not. -/
def confirmCopy (r : Response) : Except Failure Unit :=
  match r.document with
  | .copied => .ok ()
  | .none => .ok ()
  | _ => .error .unreadable

end Response

end Depot.S3
