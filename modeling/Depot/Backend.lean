import Depot.Listing
import Depot.Log
import Depot.Stream

/-!
# Backends

What a store has to be able to do: create, check and tear down clients, and answer the calls that
are made on a client. A call changes the world of the backend at the moment it is made; its answer
may arrive later.
-/

set_option autoImplicit false

namespace Depot

/-- A client, numbered in the order of creation. -/
abbrev Client := Nat

/-- The answer to a call, with the world after it. -/
structure Answer (World α : Type) where
  world : World
  /-- What was logged meanwhile. -/
  log : List LogLine
  /-- The milliseconds until the answer arrives. -/
  delay : Nat
  result : α

/-- An answer that arrives at once, with nothing logged. -/
def Answer.now {World α : Type} (world : World) (result : α) : Answer World α :=
  ⟨world, [], 0, result⟩

/-- The calls of a store, whose state is a `World` and whose open uploads are `Writer`s. -/
structure Backend (World Writer : Type) where
  create : World → Answer World (Except StoreError Unit)
  destroy : Client → World → Answer World (Except StoreError Unit)
  /-- Whether an idle client may be lent out again. -/
  isValid : Client → World → Bool
  list : Client → Query → World → Answer World (Except StoreError Page)
  openReader : Client → String → String → World → Answer World (Except StoreError Stream)
  openWriter :
    Client → String → String → WriteOptions → World → Answer World (Except StoreError Writer)
  /-- Takes some of the bytes, and says how many. -/
  write : Writer → ByteArray → World → Writer × Answer World (Except IoError Nat)
  flush : Writer → World → Answer World (Except IoError Unit)
  /-- Completes the upload; the object exists only if this succeeds. -/
  finish : Writer → World → Writer × Answer World (Except StoreError Unit)
  /-- Lets go of a writer. -/
  dropWriter : Writer → World → World
  attributes : Client → String → String → World → Answer World (Except StoreError Attributes)
  delete : Client → String → String → World → Answer World (Except StoreError Unit)
  copy :
    Client → String → String → String → String → World → Answer World (Except StoreError Unit)

end Depot
