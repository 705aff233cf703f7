import Depot.Memory.Basic

/-!
# Going through all pages

What it means that a listing is followed page by page, and what an item of a listing stands for.
-/

set_option autoImplicit false

namespace Depot

/-- The bytes that a key is compared by. -/
def Key.bytes (key : String) : List UInt8 := key.toUTF8.data.toList

namespace Memory

/-- What stands for the object under a key in a listing. -/
inductive StandsFor (q : Query) (key : String) (o : StoredObject) : Listed → Prop where
  /-- The object itself, if no delimiter follows what all listed keys begin with. -/
  | object {rest : List Char} : key.toList = q.lead.toList ++ rest →
      (∀ d, q.delimiter = some d → ¬ d.toList <:+: rest) →
      StandsFor q key o (.object (o.attributes key))
  /-- The group of the keys that have the same front, up to and including the first delimiter
  behind what all listed keys begin with. -/
  | group {d group : String} {front rest : List Char} : q.delimiter = some d →
      key.toList = q.lead.toList ++ (front ++ d.toList ++ rest) →
      (∀ front' rest', front' ++ d.toList ++ rest' = front ++ d.toList ++ rest →
        front.length ≤ front'.length) →
      group.toList = q.lead.toList ++ (front ++ d.toList) → StandsFor q key o (.group group)

/-- A client asks for a page, and for the next one with the token of each page that has one. These
are the pages that it gets. -/
inductive Follows (c : Client) : Memory → Query → List Page → Prop where
  | last {m : Memory} {q : Query} {page : Page} {a : Answer Memory (Except StoreError Page)} :
      backend.list c q m = a → a.result = .ok page → page.next = none → Follows c m q [page]
  | more {m : Memory} {q : Query} {page : Page} {a : Answer Memory (Except StoreError Page)}
      {token : String} {pages : List Page} : backend.list c q m = a → a.result = .ok page →
      page.next = some token → Follows c a.world { q with token := some token } pages →
      Follows c m q (page :: pages)

end Memory

end Depot
