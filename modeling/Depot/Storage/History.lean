import Depot.Storage.Run

/-!
# What happens in a run of a storage

The moments and the steps of a run, what a task has and returns at a moment, and a backend that
records the calls made on it.
-/

set_option autoImplicit false

namespace Depot.Storage

variable {World Writer : Type}

/-- Whether a request is one of those that a storage offers. It borrows clients for these only, and
nobody else has access to its pool. -/
def Request.isOperation : Request → Bool
  | borrow => false
  | invalidate _ => false
  | _ => true

/-- What a task has returned to the one who asked, apart from the value: a request to read returns
when the object is opened, and the data is read afterwards. -/
def Task.returned? (task : Task Writer) : Option (Except StoreError Unit) :=
  match task.phase with
  | .draining _ _ => some (.ok ())
  | .ended result => some (result.map fun _ => ())
  | _ => none

/-- Whether a client is still good after a request came to a result on it: the request succeeded, or
it looked up an object that is missing. -/
def Request.LeavesGood (r : Request) (result : Except StoreError Unit) : Prop :=
  result = .ok () ∨ (∃ path, r = .stat path) ∧ ∃ e, result = .error e ∧ e.isNotFound = true

/-- Whether a task stands where it had to wait: it has not begun, it stands in line, or it waits for
an answer or for a pause to end. Only there can it be interrupted. -/
def Task.isSuspended (task : Task Writer) : Bool :=
  match task.phase with
  | .start _ => true
  | .line _ => true
  | _ => task.alarm.isSome

namespace Machine

/-- A task has borrowed a client. -/
def Has (m : Machine World Writer) (id : TaskId) (c : Client) : Prop :=
  ∃ task, m.task? id = some task ∧ task.client = some c

/-- Something holds at some moment of a run, its beginning and its end included. -/
def Sometime (env : Env World Writer) (m : Machine World Writer) (events : List Event)
    (P : Machine World Writer → Prop) : Prop :=
  ∃ first, first <+: events ∧ P (m.run env first)

/-- Something holds at some event of a run, of the states before and after it. -/
def Once (env : Env World Writer) (m : Machine World Writer) (events : List Event)
    (P : Machine World Writer → Event → Machine World Writer → Prop) : Prop :=
  ∃ first e, first ++ [e] <+: events ∧ P (m.run env first) e (m.run env (first ++ [e]))

/-- A task borrows a client in a run. -/
def Borrows (env : Env World Writer) (m : Machine World Writer) (events : List Event) (id : TaskId)
    (c : Client) : Prop :=
  m.Sometime env events fun m => m.Has id c

/-- A task returns with a result in a run. -/
def Returns (env : Env World Writer) (m : Machine World Writer) (events : List Event) (id : TaskId)
    (result : Except StoreError Unit) : Prop :=
  m.Sometime env events fun m => ∃ task, m.task? id = some task ∧ task.returned? = some result

/-- At an event, a task gives the client that it has back to the pool with a step: the client is
idle again, or, if the pool is closed, which is then too late, to be destroyed in the
background. -/
def HandsIn (id : TaskId) (c : Client) (late : Bool) (m : Machine World Writer) (e : Event)
    (m' : Machine World Writer) : Prop :=
  e = .step id ∧ ∃ task t, m.task? id = some task ∧ task.client = some c ∧
    task.ticket = some t ∧ m.pool.closed = late ∧
      if late then m'.pool.party? t = some (.discarding c) else m'.pool.idle = c :: m.pool.idle

/-- A task gives a client back in a run. -/
def GivesBack (env : Env World Writer) (m : Machine World Writer) (events : List Event)
    (id : TaskId) (c : Client) (late : Bool) : Prop :=
  m.Once env events (HandsIn id c late)

/-- A task is over: it has returned, or it was cancelled. -/
def Over (m : Machine World Writer) (id : TaskId) : Prop :=
  ∀ task, m.task? id = some task → task.returned?.isSome = true

end Machine

/-! ## Recorded calls -/

/-- A call on a backend. -/
inductive Call where
  | create
  | destroy (c : Client)
  /-- Any call that is made on a client, or on a writer that was opened on it. -/
  | use (c : Client)
  deriving DecidableEq, Repr

/-- The state of a backend, with all calls made so far in order. -/
structure Recorded (World : Type) where
  world : World
  calls : List Call

/-- An answer, with the call that was made entered. -/
def Recorded.answer {α : Type} (r : Recorded World) (call : Call) (a : Answer World α) :
    Answer (Recorded World) α :=
  ⟨⟨a.world, r.calls ++ [call]⟩, a.log, a.delay, a.result⟩

/-- A backend that answers as another one does and records the calls. A writer goes with the client
that it was opened on. -/
def recorded (b : Backend World Writer) : Backend (Recorded World) (Client × Writer) where
  create r := r.answer .create (b.create r.world)
  destroy c r := r.answer (.destroy c) (b.destroy c r.world)
  isValid c r := b.isValid c r.world
  list c q r := r.answer (.use c) (b.list c q r.world)
  openReader c bucket key r := r.answer (.use c) (b.openReader c bucket key r.world)
  openWriter c bucket key options r :=
    let a := b.openWriter c bucket key options r.world
    r.answer (.use c) ⟨a.world, a.log, a.delay, a.result.map fun w => (c, w)⟩
  write w bytes r :=
    let (writer, a) := b.write w.2 bytes r.world
    ((w.1, writer), r.answer (.use w.1) a)
  flush w r := r.answer (.use w.1) (b.flush w.2 r.world)
  finish w r :=
    let (writer, a) := b.finish w.2 r.world
    ((w.1, writer), r.answer (.use w.1) a)
  dropWriter w r := { r with world := b.dropWriter w.2 r.world }
  attributes c bucket key r := r.answer (.use c) (b.attributes c bucket key r.world)
  delete c bucket key r := r.answer (.use c) (b.delete c bucket key r.world)
  copy c sourceBucket sourceKey bucket key r :=
    r.answer (.use c) (b.copy c sourceBucket sourceKey bucket key r.world)

/-- A step of a task makes a call on a client. -/
def Machine.Uses (env : Env (Recorded World) Writer) (m : Machine (Recorded World) Writer)
    (id : TaskId) (c : Client) : Prop :=
  .use c ∈ (m.step env id).world.calls.drop m.world.calls.length

/-- A client was destroyed, or is destroyed by the next step of a task in the background, which
nobody can cancel. -/
def Machine.Doomed (env : Env (Recorded World) Writer) (m : Machine (Recorded World) Writer)
    (c : Client) : Prop :=
  .destroy c ∈ m.world.calls ∨ ∃ id task, m.task? id = some task ∧ task.isBackground = true ∧
    .destroy c ∈ (m.step env id).world.calls

end Depot.Storage
