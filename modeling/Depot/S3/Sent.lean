import Depot.S3.Backend
import Depot.Storage.Uploads

/-!
# What is sent for an operation

A storage sends requests for all operations that are under way. Those of one operation are the ones
that go out in its own steps.
-/

set_option autoImplicit false

namespace Depot

namespace S3

open Storage (Machine Occurrence Shared TaskId)

variable {State : Type}

/-- The requests that were sent from one state of a store to a later one, the first one first. -/
def World.sentUntil (w w' : World State) : List Request :=
  (w'.sent.take (w'.sent.length - w.sent.length)).reverse

/-- The requests that a task sends among some occurrences, the first one first. -/
def sentBy (env : Shared (World State) Writer) (id : TaskId) :
    Machine (World State) Writer → List Occurrence → List Request
  | _, [] => []
  | m, x :: os =>
    (if x.isOf id then m.world.sentUntil (m.occur env x).world else []) ++
      sentBy env id (m.occur env x) os

/-- A task has sent a request, alone, with one of its steps, and this is the reply. -/
def Exchanged (network : Network State) (env : Shared (World State) Writer)
    (m : Machine (World State) Writer) (os : List Occurrence) (id : TaskId) (r : Request)
    (reply : Reply) : Prop :=
  ∃ before, before ++ [.event (.step id)] <+: os ∧
    let w := (m.after env before).world
    let w' := (m.after env (before ++ [.event (.step id)])).world
    w.sentUntil w' = [r] ∧ network.send r w.network = (w'.network, reply)

end S3

end Depot
