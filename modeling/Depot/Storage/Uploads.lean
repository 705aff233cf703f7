import Depot.Storage.Shared

/-!
# How uploads go

What a task has come through that stores an object: whether it has got a client, what it was
answered when it asked for a writer, and what it was answered when it completed the object.
-/

set_option autoImplicit false

namespace Depot

/-- Whether a stream comes to its end before anything fails, be it an interruption. -/
def Stream.endsFirst : Stream → Bool
  | [] => true
  | .data bytes :: rest => bytes.size = 0 || endsFirst rest
  | .pause _ :: rest => endsFirst rest
  | .fail _ :: _ => false

namespace Storage

variable {World Writer : Type}

/-- What was answered to a task in a phase that has just asked for a writer. -/
def Phase.opening? : Phase Writer → Option (Except StoreError Unit)
  | accepted _ _ reply => some (reply.map fun _ => ())
  | _ => none

/-- What was answered to a task in a phase that has just completed its object. -/
def Phase.completion? : Phase Writer → Option (Except StoreError Unit)
  | completed _ reply => some reply
  | _ => none

namespace Machine

/-- A task was as `P` says at some moment. -/
def Reached (env : Shared World Writer) (m : Machine World Writer) (os : List Occurrence)
    (id : TaskId) (P : Task Writer → Prop) : Prop :=
  ∃ first, first <+: os ∧ ∃ task, (m.after env first).task? id = some task ∧ P task

/-- A task has got a client. -/
def Obtained (env : Shared World Writer) (m : Machine World Writer) (os : List Occurrence)
    (id : TaskId) : Prop :=
  m.Reached env os id fun task => task.client.isSome = true

/-- A task has asked for a writer, and has got this answer. -/
def OpeningIs (env : Shared World Writer) (m : Machine World Writer) (os : List Occurrence)
    (id : TaskId) (answer : Except StoreError Unit) : Prop :=
  m.Reached env os id fun task => task.phase.opening? = some answer

/-- A task has completed its object, and has got this answer. -/
def CompletionIs (env : Shared World Writer) (m : Machine World Writer) (os : List Occurrence)
    (id : TaskId) (answer : Except StoreError Unit) : Prop :=
  m.Reached env os id fun task => task.phase.completion? = some answer

end Machine

end Storage

end Depot
