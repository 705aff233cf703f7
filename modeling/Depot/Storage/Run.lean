import Depot.Storage.Machine

/-!
# Runs of a storage

A run is any sequence of events: requests come in, tasks get on by single steps, requests are
cancelled, and time passes. A schedule runs the tasks in one of these orders.
-/

set_option autoImplicit false

namespace Depot.Storage

variable {World Writer : Type}

/-- What can happen next. -/
inductive Event where
  /-- A request comes in. -/
  | request (r : Request)
  /-- A task makes a step, unless it has to wait. -/
  | step (id : TaskId)
  /-- A request is cancelled where it waits. What runs in the background is not. -/
  | cancel (id : TaskId)
  /-- Some milliseconds pass. -/
  | pass (ms : Nat)

/-- Whether a task destroys a client in the background. -/
def Task.isBackground (task : Task Writer) : Bool :=
  match task.phase with
  | .discard => true
  | .discarded _ => true
  | _ => false

namespace Machine

/-- The state after an event. -/
def happen (env : Env World Writer) (m : Machine World Writer) : Event → Machine World Writer
  | .request r => m.add (.ofRequest Writer r)
  | .step id => m.step env id
  | .cancel id => if (m.task? id).any (·.isBackground) then m else m.cancel env id
  | .pass ms => { m with now := m.now + ms }

/-- The state after some events. -/
def run (env : Env World Writer) (m : Machine World Writer) (events : List Event) :
    Machine World Writer :=
  events.foldl (happen env) m

@[simp] theorem run_nil (env : Env World Writer) (m : Machine World Writer) :
    m.run env [] = m := rfl

@[simp] theorem run_cons (env : Env World Writer) (m : Machine World Writer) (e : Event)
    (events : List Event) : m.run env (e :: events) = (m.happen env e).run env events := rfl

theorem run_append (env : Env World Writer) (m : Machine World Writer)
    (first rest : List Event) : m.run env (first ++ rest) = (m.run env first).run env rest :=
  List.foldl_append

theorem run_concat (env : Env World Writer) (m : Machine World Writer) (events : List Event)
    (e : Event) : m.run env (events ++ [e]) = (m.run env events).happen env e :=
  run_append env m events [e]

end Machine

end Depot.Storage
