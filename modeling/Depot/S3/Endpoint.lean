import Depot.Memory.Objects
import Depot.S3.Backend

/-!
# Endpoints and listings

What it means that an endpoint lists the objects of a store. A request for a listing is read as the
query that it asks one page of, and the document that answers it tells the groups and the objects of
the page apart from each other, each of them in any order.
-/

set_option autoImplicit false

namespace Depot

/-- An entry apart from its time. -/
def Entry.untimed : Entry → Entry
  | object name size _ => object name size none
  | directory name => directory name

/-- The group that an item stands for. -/
def Listed.group? : Listed → Option String
  | group key => some key
  | object _ => none

/-- The object that an item stands for. -/
def Listed.object? : Listed → Option Attributes
  | group _ => none
  | object a => some a

namespace S3

/-! ## Requests -/

/-- The query that a request asks one page of, if it asks for a listing. -/
def Request.listing? (r : Request) : Option Query :=
  if r.method = .get ∧ r.key = none ∧ r.query.lookup "list-type" = some "2" then
    some ⟨r.bucket, (r.query.lookup "prefix").getD "", r.query.lookup "delimiter",
      r.query.lookup "continuation-token"⟩
  else none

/-- The token that a request carries. -/
def Request.token? (r : Request) : Option String := r.query.lookup "continuation-token"

/-! ## Replies -/

/-- The document of a listing that was received in full and without a failure. -/
def Reply.listing? : Reply → Option ListingDocument
  | .lost => none
  | .response r =>
    match r.isSuccess && r.complete, r.document with
    | true, .listing l => some l
    | _, _ => none

/-- The token that a reply carries. -/
def Reply.token? (reply : Reply) : Option String := reply.listing?.bind (·.next)

/-- A document tells a page: the groups and the objects with their sizes, whether there are more of
them, and with which token. Times do not matter. -/
structure ListingDocument.Tells (l : ListingDocument) (page : Page) : Prop where
  groups : l.groups.Perm ((page.items.filterMap (·.group?)).map some)
  objects : (l.objects.map fun o => (o.key, (o.size.getD 0).toInt)).Perm
    ((page.items.filterMap (·.object?)).map fun a => (some a.key, (a.size : Int)))
  truncated : l.truncated = some true ↔ page.next.isSome = true
  next : l.next = page.next

/-- Whether a document says that there is more, and with which token to ask for it. -/
def ListingDocument.goesOn (l : ListingDocument) : Bool := l.truncated = some true && l.next.isSome

/-- The document of a page, with its groups and its objects in reverse order. -/
def ListingDocument.ofPage (page : Page) : ListingDocument where
  objects := ((page.items.filterMap (·.object?)).map fun a =>
    ⟨some a.key, some (.ofNat a.size), none⟩).reverse
  groups := ((page.items.filterMap (·.group?)).map some).reverse
  truncated := some page.next.isSome
  next := page.next

/-! ## Networks -/

namespace Network

variable {State : Type}

/-- What requests that are sent one after the other are answered with. -/
def answer (network : Network State) : List Request → State → List Reply × State
  | [], s => ([], s)
  | r :: rs, s =>
    let (s, reply) := network.send r s
    let (replies, s) := answer network rs s
    (reply :: replies, s)

/-- Every request for a listing is answered with the page that a store of these objects has. -/
def Serves (network : Network State) (objects : Memory.Objects) (size : Nat) : Prop :=
  ∀ (s : State) (r : Request) (q : Query), r.listing? = some q →
    ∃ l, (network.send r s).2.listing? = some l ∧ l.Tells (objects.page size q)

/-- A network with an endpoint that lists these objects. -/
def lister (objects : Memory.Objects) (size : Nat) : Network Unit where
  send r _ := ((), match r.listing? with
    | some q => .response
      ⟨200, [], none, none, .empty, .listing (.ofPage (objects.page size q)), true⟩
    | none => .lost)

/-- A network on which replies come in as they are listed, whatever is asked for, and none when
all of them have come in. -/
def script : Network (List Reply) where
  send _
    | [] => ([], .lost)
    | reply :: replies => (replies, reply)

end Network

/-- Unsigned requests to an endpoint of one's own. -/
def Access.unsigned : Access := ⟨some "http://localhost", "us-east-1", .anonymous, false⟩

end S3

end Depot
