import Depot.Memory.Basic
import Depot.Storage.History

/-!
# What requests may change

The one object that a request may change, and what becomes of the objects of a store in memory in a
run of the storage above it.
-/

set_option autoImplicit false

namespace Depot

/-- A key is a root or lies below it. The empty root stands for the whole bucket. -/
def Key.Within (root key : String) : Prop :=
  root = "" ∨ key = root ∨ (root.push separator).toList <+: key.toList

namespace Storage

/-- Where the object is that a request may change, if it may change one. -/
def Request.target (setup : Setup) : Request → Option Memory.Location
  | put path _ => some ⟨setup.bucket, setup.roots.primaryKey path⟩
  | delete path => some ⟨setup.bucket, setup.roots.primaryKey path⟩
  | deleteDisk path => (setup.roots.diskKey path).toOption.map fun key => ⟨setup.bucket, key⟩
  | copy _ _ path => (setup.roots.diskKey path).toOption.map fun key => ⟨setup.bucket, key⟩
  | _ => none

/-- The root that the object lies below that a request may change. -/
def Request.targetRoot (roots : Roots) : Request → Option String
  | put _ _ => some roots.primary
  | delete _ => some roots.primary
  | deleteDisk _ => roots.disk
  | copy _ _ _ => roots.disk
  | _ => none

namespace Machine

variable {World Writer : Type}

/-- The state after something was done to the backend from outside. -/
def withWorld (m : Machine World Writer) (world : World) : Machine World Writer := { m with world }

/-- A task is cancelled in a run, at a point where it waits and before it has returned. -/
def Interrupted (env : Env World Writer) (m : Machine World Writer) (events : List Event)
    (id : TaskId) : Prop :=
  ∃ first, first ++ [.cancel id] <+: events ∧ ∃ task, (m.run env first).task? id = some task ∧
    task.returned? = none ∧ task.isSuspended = true

/-- No other task than this one makes steps in a run, apart from those in the background. -/
def Alone (env : Env World Writer) (m : Machine World Writer) (events : List Event)
    (id : TaskId) : Prop :=
  ∀ first id', first ++ [.step id'] <+: events → id' = id ∨
    ∀ task, (m.run env first).task? id' = some task → task.isBackground = true

/-- A step of a task changes what is stored at a location. -/
def Changes (id : TaskId) (l : Memory.Location) (m : Machine Memory Writer) (e : Event)
    (m' : Machine Memory Writer) : Prop :=
  e = .step id ∧ m'.world.objects.get? l ≠ m.world.objects.get? l

end Machine

end Storage

end Depot
