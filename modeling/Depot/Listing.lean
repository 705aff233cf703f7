import Depot.Entry.Basic
import Depot.Error
import Depot.Key

/-!
# Listings

The part of a bucket whose keys begin alike, a page at a time. With a delimiter, keys that share
what precedes its first occurrence are listed as one group. A page that is not the last carries a
token, with which the next one is asked for.
-/

set_option autoImplicit false

namespace Depot

/-- What a store tells about an object. -/
structure Attributes where
  key : String
  size : Nat
  updated : Option Time.Instant
  deriving DecidableEq, Repr, Inhabited

/-- One item of a listing, by its full key. -/
inductive Listed where
  /-- The keys that begin with a text, which ends with the delimiter. -/
  | group (key : String)
  | object (attributes : Attributes)
  deriving DecidableEq, Repr, Inhabited

/-- The key that an item is sorted by. -/
def Listed.key : Listed → String
  | group key => key
  | object attributes => attributes.key

/-- The entry that an item stands for in a listing of the keys that begin with `lead`. -/
def Listed.entry (lead : String) : Listed → Entry
  | group key => .directory (Key.relativeName lead key)
  | object a => .object (Key.relativeName lead a.key) a.size a.updated

/-- What is asked of a store to list one page. -/
structure Query where
  bucket : String
  /-- The text that all listed keys begin with. -/
  lead : String
  delimiter : Option String
  token : Option String
  deriving DecidableEq, Repr, Inhabited

/-- One page of a listing. -/
structure Page where
  items : List Listed
  /-- The token of the next page, unless this is the last one. -/
  next : Option String
  deriving DecidableEq, Repr, Inhabited

/-- What is stored along with the data of every upload. -/
structure WriteOptions where
  storageClass : Option String
  metadata : List (String × String)
  deriving DecidableEq, Repr, Inhabited

/-! ## Going through a listing -/

/-- How far a listing was gone through. -/
structure Cursor where
  /-- The query of the next page. -/
  query : Query
  /-- Items of the pages received that were not taken yet. -/
  buffered : List Listed
  /-- Whether the last page was received. -/
  exhausted : Bool
  deriving DecidableEq, Repr, Inhabited

namespace Cursor

/-- At the start of a listing. -/
def ofQuery (query : Query) : Cursor := ⟨query, [], false⟩

/-- What there is to do to get on. -/
inductive Next where
  | item (i : Listed) (rest : Cursor)
  | ask (query : Query)
  | finished

/-- The next item, or the page to ask for when those received are used up. -/
def next (c : Cursor) : Next :=
  match c.buffered with
  | i :: rest => .item i { c with buffered := rest }
  | [] => if c.exhausted then .finished else .ask c.query

section Next

variable {c rest : Cursor} {i : Listed} {q : Query}

theorem next_eq_item_iff : c.next = .item i rest ↔
    ∃ items, c.buffered = i :: items ∧ rest = { c with buffered := items } := by
  unfold next
  cases c.buffered with
  | cons i' items =>
    constructor
    · intro h
      cases h
      exact ⟨items, rfl, rfl⟩
    · rintro ⟨items', hbuffered, rfl⟩
      cases hbuffered
      rfl
  | nil => cases c.exhausted <;> simp

theorem next_eq_ask_iff :
    c.next = .ask q ↔ c.buffered = [] ∧ c.exhausted = false ∧ q = c.query := by
  unfold next
  cases c.buffered with
  | cons i items => simp
  | nil => cases c.exhausted <;> simp [eq_comm]

theorem next_eq_finished_iff :
    c.next = .finished ↔ c.buffered = [] ∧ c.exhausted = true := by
  unfold next
  cases c.buffered with
  | cons i items => simp
  | nil => cases c.exhausted <;> simp

end Next

/-- Takes in the page that was asked for. -/
def receive (c : Cursor) (page : Page) : Cursor where
  query := { c.query with token := page.next.or c.query.token }
  buffered := c.buffered ++ page.items
  exhausted := c.exhausted || page.next.isNone

/-- The next item, asking `list` for pages until there is one or the last page was received. An
error leaves the cursor where it is, so that the same page is asked for again. There is no result if
`list` has one page without items after the other for ever. -/
def nextItem {σ : Type} (list : Query → σ → Except StoreError Page × σ) (c : Cursor) (s : σ) :
    Option (Except StoreError (Option Listed) × Cursor × σ) :=
  match c.next with
  | .item i rest => some (.ok (some i), rest, s)
  | .finished => some (.ok none, c, s)
  | .ask query =>
    match list query s with
    | (.error e, s) => some (.error e, c, s)
    | (.ok page, s) => c.receive page |>.nextItem list s
partial_fixpoint

end Cursor

/-! ## Visiting a listing -/

/-- What is done with an entry, given those visited before it, newest first. An error ends the
walk. -/
abbrev Visitor := List Entry → Entry → Except StoreError Unit

/-- A walk through a listing, with the entries visited so far, newest first. -/
structure Walk where
  /-- What all listed keys begin with. -/
  lead : String
  cursor : Cursor
  visitor : Visitor
  visited : List Entry

namespace Walk

/-- At the start of the listing of a query. -/
def ofQuery (query : Query) (visitor : Visitor) : Walk := ⟨query.lead, .ofQuery query, visitor, []⟩

/-- What a walk does next. -/
inductive Step where
  | ask (query : Query)
  | visited (w : Walk)
  | finished (w : Walk) (result : Except StoreError Unit)

/-- Visits the next entry, or says what has to be listed first. -/
def step (w : Walk) : Step :=
  match w.cursor.next with
  | .ask query => .ask query
  | .finished => .finished w (.ok ())
  | .item i rest =>
    let e := i.entry w.lead
    let w' := { w with cursor := rest, visited := e :: w.visited }
    match w.visitor w.visited e with
    | .ok () => .visited w'
    | .error err => .finished w' (.error err)

/-- Takes in the page that was asked for. -/
def receive (w : Walk) (page : Page) : Walk := { w with cursor := w.cursor.receive page }

end Walk

end Depot
