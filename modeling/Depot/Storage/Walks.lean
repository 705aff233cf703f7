import Depot.Listing.Inquiry
import Depot.Storage.Uploads

/-!
# What walks ask for

The pages that a walk has asked for, what it was answered, and how it ends that has got a client:
all pages were gone through, its visitor has stopped it, or a page was not answered.
-/

set_option autoImplicit false

namespace Depot

/-- A visitor lets a walk go on at each of these entries, the newest of which comes first. -/
def Visitor.Accepts (visitor : Visitor) : List Entry → Prop
  | [] => True
  | e :: before => visitor before e = .ok () ∧ visitor.Accepts before

/-- How a walk has ended that has got a client: by what it has asked for, what it has visited, the
newest first, and the result. -/
inductive WalkEnds (visitor : Visitor) (lead : String) :
    List Inquiry → List Entry → Except StoreError Storage.Outcome → Prop where
  /-- The last page has no token, and all entries of all pages were visited. -/
  | through {before : List Inquiry} {i : Inquiry} {page : Page} {visited : List Entry} :
      i.reply = .ok page → page.next = none →
      visited.reverse = (before ++ [i]).flatMap (·.entries lead) → visitor.Accepts visited →
      WalkEnds visitor lead (before ++ [i]) visited (.ok .unit)
  /-- The visitor has failed at an entry of the last page that was asked for, behind all entries of
  the earlier pages. -/
  | stopped {before : List Inquiry} {i : Inquiry} {e : Entry} {visited : List Entry}
      {error : StoreError} : visitor visited e = .error error → visitor.Accepts visited →
      before.flatMap (·.entries lead) <+: visited.reverse →
      (e :: visited).reverse <+: (before ++ [i]).flatMap (·.entries lead) →
      WalkEnds visitor lead (before ++ [i]) (e :: visited) (.error error)
  /-- The last page that was asked for was not answered, and all entries of the earlier pages were
  visited. -/
  | failed {before : List Inquiry} {i : Inquiry} {visited : List Entry} {error : StoreError} :
      i.reply = .error error → visited.reverse = before.flatMap (·.entries lead) →
      visitor.Accepts visited →
      WalkEnds visitor lead (before ++ [i]) visited (.error error)

namespace Storage

variable {World Writer : Type}

/-! ## Recorded inquiries -/

/-- The state of a backend, with all pages that were asked for so far, in order. -/
structure Listened (World : Type) where
  world : World
  inquiries : List Inquiry

/-- An answer to a call that asks for no page. -/
def Listened.answer {α : Type} (r : Listened World) (a : Answer World α) :
    Answer (Listened World) α :=
  ⟨⟨a.world, r.inquiries⟩, a.log, a.delay, a.result⟩

/-- A backend that answers as another one does and records the pages that are asked for. -/
def listening (b : Backend World Writer) : Backend (Listened World) Writer where
  create r := r.answer (b.create r.world)
  destroy c r := r.answer (b.destroy c r.world)
  isValid c r := b.isValid c r.world
  list c q r :=
    let a := b.list c q r.world
    ⟨⟨a.world, r.inquiries ++ [⟨q, a.result⟩]⟩, a.log, a.delay, a.result⟩
  openReader c bucket key r := r.answer (b.openReader c bucket key r.world)
  openWriter c bucket key options r := r.answer (b.openWriter c bucket key options r.world)
  write w bytes r :=
    let (writer, a) := b.write w bytes r.world
    (writer, r.answer a)
  flush w r := r.answer (b.flush w r.world)
  finish w r :=
    let (writer, a) := b.finish w r.world
    (writer, r.answer a)
  dropWriter w r := { r with world := b.dropWriter w r.world }
  attributes c bucket key r := r.answer (b.attributes c bucket key r.world)
  delete c bucket key r := r.answer (b.delete c bucket key r.world)
  copy c sourceBucket sourceKey bucket key r :=
    r.answer (b.copy c sourceBucket sourceKey bucket key r.world)

/-- The pages that a task asks for among some occurrences, the first one first: those that are asked
for in its own steps. -/
def askedBy (env : Shared (Listened World) Writer) (id : TaskId) :
    Machine (Listened World) Writer → List Occurrence → List Inquiry
  | _, [] => []
  | m, x :: os =>
    (if x.isOf id then (m.occur env x).world.inquiries.drop m.world.inquiries.length else []) ++
      askedBy env id (m.occur env x) os

end Storage

end Depot
