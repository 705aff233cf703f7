import Depot.Storage.Effects
import Depot.Storage.Reference

/-!
# A store that is shared

A storage is not the only one that has access to the store behind it: objects are placed in the
store directly, calls are ordered to fail, and time goes on. What happens to both is told here as
one sequence of occurrences, and what it means that an object has come from somewhere.
-/

set_option autoImplicit false

namespace Depot

/-- What is done to a store in memory past the storage. -/
inductive Memory.Deed where
  /-- Stores an object. -/
  | insert (l : Location) (data : ByteArray)
  /-- Makes the next calls of a kind fail. -/
  | failNext (call : Call) (times : Nat)
  /-- The clock shows a time from now on. -/
  | clock (time : Time.Instant)

/-- The store after something was done to it. -/
def Memory.Deed.apply : Deed → Memory → Memory
  | insert l data, m => m.insert l data
  | failNext call times, m => m.failNext call times
  | clock time, m => { m with clock := time }

namespace Storage

variable {World Writer : Type}

/-- What happens next, to the storage or to the store behind it. -/
inductive Occurrence where
  | event (e : Event)
  | deed (d : Memory.Deed)

/-- Whether an occurrence is a step of a task or its cancellation. -/
def Occurrence.isOf (id : TaskId) : Occurrence → Bool
  | event (.step id') => id' = id
  | event (.cancel id') => id' = id
  | _ => false

/-- The surroundings of a storage over a store that others have access to. -/
structure Shared (World Writer : Type) extends Env World Writer where
  /-- What is made of the state of the backend. -/
  apply : Memory.Deed → World → World

/-- The surroundings of a storage that has its store for itself: what is done past it has no
effect. -/
def Shared.alone (env : Env World Writer) : Shared World Writer := ⟨env, fun _ w => w⟩

/-- The surroundings of a storage over a store in memory. -/
def Shared.memory (setup : Setup) : Shared Memory Memory.Writer :=
  ⟨⟨setup, Memory.backend⟩, Memory.Deed.apply⟩

/-- The same with all calls recorded. -/
def Shared.recorded (setup : Setup) : Shared (Recorded Memory) (Client × Memory.Writer) :=
  ⟨⟨setup, Storage.recorded Memory.backend⟩, fun d r => { r with world := d.apply r.world }⟩

namespace Machine

/-! ## Sequences of occurrences -/

/-- The state after an occurrence. -/
def occur (env : Shared World Writer) (m : Machine World Writer) :
    Occurrence → Machine World Writer
  | .event e => m.happen env.toEnv e
  | .deed d => m.withWorld (env.apply d m.world)

/-- The state after some occurrences. -/
def after (env : Shared World Writer) (m : Machine World Writer) (os : List Occurrence) :
    Machine World Writer :=
  os.foldl (occur env) m

@[simp] theorem after_nil (env : Shared World Writer) (m : Machine World Writer) :
    m.after env [] = m := rfl

@[simp] theorem after_concat (env : Shared World Writer) (m : Machine World Writer)
    (os : List Occurrence) (o : Occurrence) :
    m.after env (os ++ [o]) = (m.after env os).occur env o :=
  List.foldl_append

/-- Nothing but operations is asked for. -/
def Operates (os : List Occurrence) : Prop :=
  ∀ r, .event (.request r) ∈ os → r.isOperation = true

/-- Tasks are cancelled only where they wait. -/
def CancelsWaiting (env : Shared World Writer) (m : Machine World Writer) (os : List Occurrence) :
    Prop :=
  ∀ before id, before ++ [.event (.cancel id)] <+: os →
    ∀ task, (m.after env before).task? id = some task → task.isSuspended = true

/-- A task was asked for. -/
def Asked (env : Shared World Writer) (m : Machine World Writer) (os : List Occurrence)
    (id : TaskId) (r : Request) : Prop :=
  ∃ before, before ++ [.event (.request r)] <+: os ∧ (m.after env before).nextTask = id

/-- A task has returned with a result. -/
def HasReturned (env : Shared World Writer) (m : Machine World Writer) (os : List Occurrence)
    (id : TaskId) (result : Except StoreError Unit) : Prop :=
  ∃ first, first <+: os ∧
    ∃ task, (m.after env first).task? id = some task ∧ task.returned? = some result

/-- A task takes the client outside of the pool, to destroy it with a verdict. -/
def TearsDown (env : Shared World Writer) (m : Machine World Writer) (os : List Occurrence)
    (id : TaskId) (verdict : Except StoreError Unit) : Prop :=
  ∃ before c, before ++ [.event (.step id)] <+: os ∧ (m.after env before).direct = some c ∧
    (m.after env (before ++ [.event (.step id)])).direct = none ∧
    (env.backend.destroy c (m.after env before).world).result = verdict

/-! ## Where objects come from -/

/-- A task has returned with success, or does so with its next step, without waiting before. -/
def Succeeds (env : Env World Writer) (m : Machine World Writer) (id : TaskId) : Prop :=
  ∃ task, m.task? id = some task ∧ (task.returned? = some (.ok ()) ∨
    task.isSuspended = false ∧
      ∃ task', (m.step env id).task? id = some task' ∧ task'.returned? = some (.ok ()))

variable (env : Shared Memory Writer) (m : Machine Memory Writer) (os : List Occurrence)

/-- An object is stored at a location from some moment on. -/
def Stays (first : List Occurrence) (l : Memory.Location) (o : Memory.StoredObject) : Prop :=
  ∀ part, first <+: part → part <+: os → (m.after env part).world.objects.get? l = some o

/-- Where an object comes from that is stored at a location, and has stayed there since. The tasks
that have succeeded are known. -/
inductive Origin (succeeded : TaskId → Prop) (l : Memory.Location) (o : Memory.StoredObject) :
    Prop where
  /-- It was there at the beginning. -/
  | initial : Stays env m os [] l o → Origin succeeded l o
  /-- It was stored directly. -/
  | insert {before : List Occurrence} {data : ByteArray} :
      before ++ [.deed (.insert l data)] <+: os →
      Stays env m os (before ++ [.deed (.insert l data)]) l o → o.data = data →
      Origin succeeded l o
  /-- It is all that the source of an upload has yielded, and the upload has succeeded. -/
  | put {before : List Occurrence} {id : TaskId} {path : String} {source : Stream} :
      Asked env m before id (.put path source) → before ++ [.event (.step id)] <+: os →
      Stays env m os (before ++ [.event (.step id)]) l o →
      l = ⟨env.setup.bucket, env.setup.roots.primaryKey path⟩ → source.content = .ok o.data →
      succeeded id → Origin succeeded l o
  /-- It has the data that another object had at the moment when it was copied, and the copying has
  succeeded. -/
  | copy {before : List Occurrence} {id : TaskId} {sourceBucket sourceKey path key : String}
      {o' : Memory.StoredObject} :
      Asked env m before id (.copy sourceBucket sourceKey path) →
      before ++ [.event (.step id)] <+: os → Stays env m os (before ++ [.event (.step id)]) l o →
      env.setup.roots.diskKey path = .ok key → l = ⟨env.setup.bucket, key⟩ →
      (m.after env before).world.objects.get? ⟨sourceBucket, sourceKey⟩ = some o' →
      o.data = o'.data → succeeded id → Origin succeeded l o

/-- A task finds an object where it is stored: it makes the first call on its client, and no read is
ordered to fail. -/
def Finds (id : TaskId) (l : Memory.Location) (o : Memory.StoredObject) : Prop :=
  ∃ before task g, before ++ [.event (.step id)] <+: os ∧
    (m.after env before).task? id = some task ∧ task.phase = .lent g ∧
    (m.after env before).world.objects.get? l = some o ∧ (m.after env before).world.Allows .read

/-- A task has opened the object at a location as it was stored there at that moment. -/
def Opens (id : TaskId) (l : Memory.Location) (o : Memory.StoredObject) : Prop :=
  ∃ before task task' s, before ++ [.event (.step id)] <+: os ∧
    (m.after env before).task? id = some task ∧ task.phase = .lent (.read l.key) ∧
    (m.after env before).world.objects.get? l = some o ∧
    (m.after env (before ++ [.event (.step id)])).task? id = some task' ∧
    task'.phase = .opened (.ok s)

end Machine

end Storage

end Depot
