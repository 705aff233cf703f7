import Depot.Backend
import Depot.S3.Request
import Depot.S3.Response
import Depot.Storage.Connect

/-!
# A store behind an S3 endpoint

The calls of a store as exchanges with an endpoint. Nothing is tried twice. An upload is kept back
until it is complete, since its length has to be known: it takes one request, and none at all if its
source fails.
-/

set_option autoImplicit false

namespace Depot.S3

/-- The name of this kind of store. -/
def kind : String := "S3"

/-- What answers requests. -/
structure Network (State : Type) where
  send : Request → State → State × Reply

/-- A network on which no endpoint can be reached. -/
def Network.unreachable : Network Unit := ⟨fun _ s => (s, .lost)⟩

/-- What all clients have in common. -/
structure Access where
  endpoint : Option String
  region : String
  credentials : CredentialSource
  /-- Whether exchanges are logged. -/
  debug : Bool
  deriving DecidableEq, Repr

/-- How a store is reached under some settings. -/
def Access.ofConfig (files : LocalFiles) (c : Config) : Except StoreError Access := do
  pure ⟨c.endpoint, c.region, ← c.credentials files, c.debug⟩

namespace Access

/-- The signature of requests. Without fixed credentials there is none. So anonymous requests are
exact, but with credentials of the surroundings, of which nothing is known here, requests are
unsigned where signed ones, or a failure to find any credentials, would be exact. -/
def signature (a : Access) : Option Signature :=
  match a.credentials with
  | .fixed c => some ⟨c.accessKeyId, c.sessionToken, a.region⟩
  | _ => none

/-- The address of the endpoint: that of the provider unless one is set. -/
def address (a : Access) : String :=
  a.endpoint.getD s!"https://s3.{a.region}.amazonaws.com"

end Access

/-- The state of a store behind an endpoint. -/
structure World (State : Type) where
  network : State
  /-- The number of the next client. -/
  nextClient : Client
  /-- The requests that were sent, the last one first. -/
  sent : List Request

/-- Before anything was sent. -/
def World.start {State : Type} (network : State) : World State := ⟨network, 1, []⟩

/-! ## Log lines -/

/-- A client was created. -/
def createdLog (c : Client) : LogLine := ⟨.trace, "creating S3 session", [("session", toString c)]⟩

/-- A client is gone. -/
def destroyedLog (c : Client) : LogLine :=
  ⟨.trace, "destroying S3 session", [("session", toString c)]⟩

/-- A request goes out. -/
def requestLog (a : Access) (r : Request) : LogLine :=
  ⟨.info, s!">>> [S3_REQUEST] >>> {r.method.word} {r.address a.address}", []⟩

/-- A response came in, shown with its headers. -/
def responseLog (r : Response) : LogLine :=
  let headers := r.headers.map fun (name, value) => s!"\n{name}: {value}"
  ⟨.info, s!"<<< [S3_RESPONSE] <<< - - {r.status}" ++ String.join headers, []⟩

/-- There was no response. -/
def lostLog : LogLine := ⟨.error, "S3_ERROR: - -", []⟩

/-- What is logged of an exchange. -/
def exchangeLog (a : Access) (r : Request) (reply : Reply) : List LogLine :=
  if a.debug then
    [requestLog a r, match reply with
      | .lost => lostLog
      | .response response => responseLog response]
  else []

/-! ## Exchanges -/

variable {State α : Type}

/-- Sends a request, and answers with what `use` makes of the response. -/
def exchange (network : Network State) (a : Access) (r : Request)
    (use : Response → Except Failure α) (w : World State) :
    Answer (World State) (Except Failure α) :=
  if r.isSendable then
    let (state, reply) := network.send r w.network
    { world := { w with network := state, sent := r :: w.sent }
      log := exchangeLog a r reply
      delay := 0
      result := match reply with
        | .lost => .error .lost
        | .response response => use response }
  else .now w (.error .unsendable)

/-- The answer of a call whose failures are told by `tell`. -/
def telling (tell : Failure → StoreError) (a : Answer (World State) (Except Failure α)) :
    Answer (World State) (Except StoreError α) :=
  { a with result := a.result.mapError tell }

/-- The error of a failed listing. -/
def listError (bucket : String) (f : Failure) : StoreError :=
  if f.hasCode noSuchBucket then .notFound s!"Bucket not found: {bucket}"
  else f.error "ListObjectsV2" []

/-- The error of a failed read. -/
def readError (bucket key : String) (f : Failure) : StoreError :=
  if f.hasCode noSuchKey then .notFound s!"{bucket}/{key}" else f.error "GetObject" [invalidState]

/-- The error of a failed look-up. -/
def lookError (bucket key : String) (f : Failure) : StoreError :=
  if f.hasCode notFoundCode then .notFound s!"{bucket}/{key}" else f.error "HeadObject" []

/-- The error of a failed copy. -/
def copyError (bucket key : String) (f : Failure) : StoreError :=
  if f.hasCode archived then .transport s!"CopyObject: source {bucket}/{key} is archived"
  else f.error "CopyObject" []

/-- An upload that is under way, with all that was written so far. -/
structure Writer where
  bucket : String
  key : String
  options : WriteOptions
  spool : ByteArray

/-- Sends what was written. -/
def finish (network : Network State) (a : Access) (u : Writer) (w : World State) :
    Writer × Answer (World State) (Except StoreError Unit) :=
  (u, telling (fun f => .writeFinalization u.key (f.message [])) <|
    exchange network a (.upload a.signature u.bucket u.key u.options u.spool)
      (fun r => r.received.map fun _ => ()) w)

/-- Creates a client. -/
def create (w : World State) : Answer (World State) (Except StoreError Unit) :=
  ⟨{ w with nextClient := w.nextClient + 1 }, [createdLog w.nextClient], 0, .ok ()⟩

/-- Destroys a client. -/
def destroy (c : Client) (w : World State) : Answer (World State) (Except StoreError Unit) :=
  ⟨w, [destroyedLog c], 0, .ok ()⟩

/-- The store as a backend. -/
def backend (network : Network State) (a : Access) : Backend (World State) Writer where
  create := create
  destroy := destroy
  isValid _ _ := true
  list _ q w :=
    telling (listError q.bucket) <|
      exchange network a (.list a.signature q) (fun r => r.received.bind (·.page)) w
  openReader _ bucket key w :=
    telling (readError bucket key) <|
      exchange network a (.read a.signature bucket key)
        (fun r => r.receivedStream.map (·.stream)) w
  openWriter _ bucket key options w := .now w (.ok ⟨bucket, key, options, .empty⟩)
  write u bytes w := ({ u with spool := u.spool ++ bytes }, .now w (.ok bytes.size))
  flush _ w := .now w (.ok ())
  finish := finish network a
  dropWriter _ w := w
  attributes _ bucket key w :=
    telling (lookError bucket key) <|
      exchange network a (.look a.signature bucket key)
        (fun r => r.receivedHead.map (·.attributes key)) w
  delete _ bucket key w :=
    telling (·.error "DeleteObject" []) <|
      exchange network a (.remove a.signature bucket key) (fun r => r.received.map fun _ => ()) w
  copy _ sourceBucket sourceKey bucket key w :=
    telling (copyError sourceBucket sourceKey) <|
      exchange network a (.copy a.signature sourceBucket sourceKey bucket key)
        (fun r => r.received.bind (·.confirmCopy)) w

/-- A storage behind an endpoint, at its beginning, with its surroundings. -/
def connect (files : LocalFiles) (network : Network State) (c : Config) (state : State) :
    Except StoreError
      (Storage.Env (World State) Writer × Storage.Machine (World State) Writer) := do
  c.validate
  let backend := backend network (← Access.ofConfig files c)
  let m ← Storage.connect kind backend c (.start state)
  pure (⟨.ofConfig kind c, backend⟩, m)

end Depot.S3
