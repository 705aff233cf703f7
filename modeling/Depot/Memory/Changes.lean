import Depot.Memory.Paging

/-!
# A listing while the store changes

Nothing keeps a store as it is while a listing of it is followed. Between one page and the next,
objects are stored, replaced, copied and deleted, the one or the group that the token is the key of
included.
-/

set_option autoImplicit false

namespace Depot.Memory

/-- What can happen to the objects of a store. -/
inductive Change where
  /-- An object is stored directly, in the place of the one that is there. -/
  | insert (l : Location) (data : ByteArray)
  /-- An upload is completed. -/
  | finish (w : Writer)
  | delete (c : Client) (l : Location)
  | copy (c : Client) (source target : Location)
  /-- Time passes, so that objects stored from then on have another time. -/
  | clock (now : Time.Instant)

/-- The store behind a change. A call that fails is a change, too. -/
def Change.apply (m : Memory) : Change → Memory
  | insert l data => m.insert l data
  | finish w => (backend.finish w m).2.world
  | delete c l => (backend.delete c l.bucket l.key m).world
  | copy c source target =>
    (backend.copy c source.bucket source.key target.bucket target.key m).world
  | clock now => { m with clock := now }

/-- The store behind several changes. -/
def Change.applyAll (changes : List Change) (m : Memory) : Memory := changes.foldl Change.apply m

/-- A page, with the store as it was when the page was asked for. -/
structure Glimpse where
  store : Memory
  page : Page

/-- The items of a page, each with the store of that moment. -/
def Glimpse.items (g : Glimpse) : List (Memory × Listed) := g.page.items.map fun i => (g.store, i)

/-- A client follows the tokens of a listing to its end, as in `Follows`, but the store changes
before each page that it comes back for. -/
inductive FollowsAmid (c : Client) :
    Memory → Query → List (List Change) → List Glimpse → Prop where
  | last {m : Memory} {q : Query} {page : Page} {a : Answer Memory (Except StoreError Page)} :
      backend.list c q m = a → a.result = .ok page → page.next = none →
      FollowsAmid c m q [] [⟨m, page⟩]
  | more {m : Memory} {q : Query} {page : Page} {a : Answer Memory (Except StoreError Page)}
      {token : String} {changes : List Change} {later : List (List Change)}
      {glimpses : List Glimpse} : backend.list c q m = a → a.result = .ok page →
      page.next = some token →
      FollowsAmid c (Change.applyAll changes a.world) { q with token := some token } later
        glimpses →
      FollowsAmid c m q (changes :: later) (⟨m, page⟩ :: glimpses)

end Depot.Memory
