import Depot.Memory.Changes

/-!
# Writing an object

What is done with one writer from when it was opened: chunks are written, and the object is
completed, whenever and however often. Meanwhile failures are ordered for the next calls, and others
change the store.
-/

set_option autoImplicit false

namespace Depot.Memory

/-- How many failures are ordered for a call and were not taken yet. -/
def ordered (m : Memory) (call : Call) : Nat := (m.failures.lookup call).getD 0

/-- What is done with a writer, or happens meanwhile to the store that it writes to. -/
inductive Writing.Move where
  | write (chunk : ByteArray)
  | finish
  /-- Failures are ordered for the next calls of a kind. -/
  | order (call : Call) (times : Nat)
  /-- Someone else changes the store. -/
  | change (change : Change)

/-- What was done with a writer, and what was answered. -/
inductive Writing.Event where
  | wrote (chunk : ByteArray) (reply : Except IoError Nat)
  | finished (reply : Except StoreError Unit)

/-- A writer and the store that it writes to, with what was done with the writer so far. -/
structure Writing where
  writer : Writer
  store : Memory
  events : List Writing.Event

namespace Writing

/-- A writer that was just opened. -/
def start (w : Writer) (m : Memory) : Writing := ⟨w, m, []⟩

/-- One move. -/
def move (d : Writing) : Move → Writing
  | .write chunk =>
    let (w, a) := backend.write d.writer chunk d.store
    ⟨w, a.world, d.events ++ [.wrote chunk a.result]⟩
  | .finish =>
    let (w, a) := backend.finish d.writer d.store
    ⟨w, a.world, d.events ++ [.finished a.result]⟩
  | .order call times => { d with store := d.store.failNext call times }
  | .change change => { d with store := change.apply d.store }

/-- Any moves, one after the other. -/
def run (d : Writing) (moves : List Move) : Writing := moves.foldl move d

/-- The error of a completion that was ordered to fail. -/
def refusal (key : String) : StoreError :=
  .writeFinalization key "Transport error: injected Finish failure"

/-- Whether an object was completed. -/
def Event.isStored : Event → Bool
  | finished (.ok ()) => true
  | _ => false

/-- The chunk that was written, if one was. -/
def Event.chunk? : Event → Option ByteArray
  | wrote chunk _ => some chunk
  | finished _ => none

/-- The chunks that were written since the last completion that succeeded, or since the writer was
opened if none did. -/
def unstored (events : List Event) : List ByteArray :=
  (events.reverse.takeWhile fun e => !e.isStored).reverse.filterMap Event.chunk?

/-- The data of some chunks, one after the other. -/
def joined (chunks : List ByteArray) : ByteArray := chunks.foldl (· ++ ·) .empty

end Writing

end Depot.Memory
