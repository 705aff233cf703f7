import Depot.Backend

/-!
# Asking for pages

The pages that were asked for in the course of a listing, with what was answered. Someone who gives
up at the first error asks for a chain of pages; someone who goes on makes the inquiry that was not
answered once more.
-/

set_option autoImplicit false

namespace Depot

/-- A page that was asked for, and what was answered. -/
structure Inquiry where
  query : Query
  reply : Except StoreError Page

/-- What is asked for after an inquiry: the next page, with the token of this one. Nothing is after
an error, nor after a page without a token. -/
def Inquiry.next (i : Inquiry) : Option Query :=
  match i.reply with
  | .ok page => page.next.map fun token => { i.query with token := some token }
  | .error _ => none

/-- The items of the page that was answered, if one was. -/
def Inquiry.items (i : Inquiry) : List Listed :=
  match i.reply with
  | .ok page => page.items
  | .error _ => []

/-- The entries that they stand for. -/
def Inquiry.entries (lead : String) (i : Inquiry) : List Entry := i.items.map (·.entry lead)

/-- Pages are asked for one after the other, from a query on, each with the token of the page before
it. At the end stands what is to be asked for next, if anything is. -/
inductive Chained : Query → List Inquiry → Option Query → Prop where
  | nil (q : Query) : Chained q [] (some q)
  | last {i : Inquiry} : i.next = none → Chained i.query [i] none
  | more {i : Inquiry} {q : Query} {rest : List Inquiry} {next : Option Query} :
      i.next = some q → Chained q rest next → Chained i.query (i :: rest) next

/-! ## Asking again -/

/-- An inquiry comes next after another one: the same one after an error, and the one with the token
of the page otherwise. -/
def Inquiry.Precedes (i j : Inquiry) : Prop :=
  match i.reply with
  | .error _ => j.query = i.query
  | .ok page => ∃ token, page.next = some token ∧ j.query = { i.query with token := some token }

/-- Replies that tell all pages of a listing, with errors anywhere among them: the last page, and no
other, has no token. -/
inductive TellsAll : List (Except StoreError Page) → Prop where
  | last {page : Page} : page.next = none → TellsAll [.ok page]
  | more {page : Page} {token : String} {later : List (Except StoreError Page)} :
      page.next = some token → TellsAll later → TellsAll (.ok page :: later)
  | failed {error : StoreError} {later : List (Except StoreError Page)} :
      TellsAll later → TellsAll (.error error :: later)

/-- The errors among some results. -/
def failures {α : Type} (results : List (Except StoreError α)) : List StoreError :=
  results.filterMap fun
    | .error e => some e
    | .ok _ => none

/-- How a client of a backend answers when it is asked for a page, apart from what is logged and how
long it takes. -/
def Backend.answering {World Writer : Type} (b : Backend World Writer) (c : Client) (q : Query)
    (w : World) : Except StoreError Page × World :=
  ((b.list c q w).result, (b.list c q w).world)

section Asking

variable {σ : Type}

/-- All pages of a listing are supplied from a query on, and these inquiries take place: each page
is asked for with the token of the page before it, and one that was not answered is asked for again.
The last page has no token. -/
inductive Supplies (list : Query → σ → Except StoreError Page × σ) :
    Query → σ → List Inquiry → σ → Prop where
  | last {q : Query} {s s' : σ} {page : Page} : list q s = (.ok page, s') → page.next = none →
      Supplies list q s [⟨q, .ok page⟩] s'
  | more {q : Query} {s s' s'' : σ} {page : Page} {token : String} {later : List Inquiry} :
      list q s = (.ok page, s') → page.next = some token →
      Supplies list { q with token := some token } s' later s'' →
      Supplies list q s (⟨q, .ok page⟩ :: later) s''
  | failed {q : Query} {s s' s'' : σ} {error : StoreError} {later : List Inquiry} :
      list q s = (.error error, s') → Supplies list q s' later s'' →
      Supplies list q s (⟨q, .error error⟩ :: later) s''

/-- Answers as `list` does, and notes the inquiries, the latest one last. -/
def noting (list : Query → σ → Except StoreError Page × σ) (q : Query) (r : σ × List Inquiry) :
    Except StoreError Page × (σ × List Inquiry) :=
  let (reply, s) := list q r.1
  (reply, s, r.2 ++ [⟨q, reply⟩])

namespace Cursor

/-- What comes of asking for the next item. -/
abbrev Outcome := Except StoreError (Option Listed)

/-- Asks for the next item as often as this, whatever comes of it each time. -/
def nextItems (list : Query → σ → Except StoreError Page × σ) :
    Nat → Cursor → σ → Option (List Outcome × Cursor × σ)
  | 0, c, s => some ([], c, s)
  | n + 1, c, s => do
    let (outcome, c, s) ← nextItem list c s
    let (outcomes, c, s) ← nextItems list n c s
    return (outcome :: outcomes, c, s)

end Cursor

end Asking

/-- What the calls of a cursor come to that an inquiry is made for: the items of the page one by
one, or the one error. -/
def Inquiry.outcomes (i : Inquiry) : List Cursor.Outcome :=
  match i.reply with
  | .ok page => page.items.map fun item => .ok (some item)
  | .error e => [.error e]

end Depot
