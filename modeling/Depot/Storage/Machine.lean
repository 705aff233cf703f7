import Depot.Storage.Task

/-!
# The storage at work

The state of a storage with all its tasks, and the single steps by which a task gets on. A task
that was begun runs until it has to wait; only then may another one run, or the waiting one be
cancelled. So every order of such runs is possible, and nothing happens between two steps of one
run.
-/

set_option autoImplicit false

namespace Depot.Storage

variable {World Writer : Type}

/-- The surroundings of a storage, which do not change. -/
structure Env (World Writer : Type) where
  setup : Setup
  backend : Backend World Writer

/-- The state of a storage. -/
structure Machine (World Writer : Type) where
  pool : Pool
  /-- The state of the backend. -/
  world : World
  /-- The client that is kept outside of the pool until the storage is closed. -/
  direct : Option Client
  tasks : List (TaskId × Task Writer)
  nextTask : TaskId
  /-- The time in milliseconds. -/
  now : Nat
  /-- The number of alarms that were set. -/
  alarms : Nat
  /-- The tasks that can go on, in the order in which that was found. -/
  woken : List TaskId
  /-- What was logged, newest first. -/
  log : List LogLine

/-- What a task does after a step. -/
inductive Status where
  | running
  | waiting
  | ended
  deriving DecidableEq, Repr

namespace Machine

/-! ## Parts of the state -/

/-- The task of a number. -/
def task? (m : Machine World Writer) (id : TaskId) : Option (Task Writer) := m.tasks.lookup id

/-- Changes a task. -/
def put (m : Machine World Writer) (id : TaskId) (task : Task Writer) : Machine World Writer :=
  { m with tasks := m.tasks.map fun q => if q.1 = id then (id, task) else q }

/-- Removes a task. -/
def remove (m : Machine World Writer) (id : TaskId) : Machine World Writer :=
  { m with tasks := m.tasks.filter fun q => q.1 ≠ id }

/-- Adds a task. -/
def add (m : Machine World Writer) (task : Task Writer) : Machine World Writer :=
  { m with tasks := m.tasks ++ [(m.nextTask, task)], nextTask := m.nextTask + 1 }

/-- Logs lines, given in order. -/
def note (m : Machine World Writer) (lines : List LogLine) : Machine World Writer :=
  { m with log := lines.reverse ++ m.log }

/-- The alarm that goes off in some milliseconds; without delay there is none. -/
def alarmIn (m : Machine World Writer) (delay : Nat) : Machine World Writer × Option Alarm :=
  if delay = 0 then (m, none)
  else ({ m with alarms := m.alarms + 1 }, some ⟨m.now + delay, m.alarms⟩)

/-- The task whose party has a ticket. -/
def owner? (m : Machine World Writer) (t : Ticket) : Option TaskId :=
  (m.tasks.find? fun q => q.2.ticket = some t).map (·.1)

/-- Takes the pool in a new state, and wakes the tasks for which it has news. -/
def withPool (m : Machine World Writer) (p : Pool) : Machine World Writer :=
  let (p, called) := p.takeCalled
  { m with pool := p, woken := m.woken ++ called.filterMap m.owner? }

/-- Has a client destroyed in the background by the party of a ticket. -/
def discard (m : Machine World Writer) (t : Ticket) : Machine World Writer :=
  let id := m.nextTask
  let m := m.add (.ofDiscard Writer t)
  { m with woken := m.woken ++ [id] }

/-- Moves a task on, with the answer to a call that it made. -/
def answered {α : Type} (m : Machine World Writer) (id : TaskId) (task : Task Writer)
    (a : Answer World α) (phase : α → Phase Writer) : Machine World Writer :=
  let (m, alarm) := ({ m with world := a.world }.note a.log).alarmIn a.delay
  m.put id { task with phase := phase a.result, alarm }

/-- Moves a task on without any call. -/
def goOn (m : Machine World Writer) (id : TaskId) (task : Task Writer) (phase : Phase Writer) :
    Machine World Writer :=
  m.put id { task with phase, alarm := none }

/-! ## Log lines -/

/-- No client could be borrowed. -/
def borrowLog (e : StoreError) : LogLine :=
  ⟨.error, "can't get client connection from pool", [("error", e.message)]⟩

/-- A client could not be destroyed in order. -/
def destroyLog : Except StoreError Unit → List LogLine
  | .ok () => []
  | .error e => [⟨.warn, "failed to destroy pooled client", [("error", e.message)]⟩]

/-- An idle client is not fit. -/
def rejectLog : LogLine := ⟨.debug, "discarding idle client that failed validation", []⟩

/-- A client was created. -/
def createdLog (p : Pool) : LogLine :=
  ⟨.debug, "created pooled client", [("live", toString p.live), ("max", toString p.maxSize)]⟩

/-- A borrowed client was let go of. -/
def droppedLog : LogLine := ⟨.debug, "pooled client dropped while borrowed, destroying it", []⟩

/-- An upload could not be completed. -/
def completionLog (key : String) (e : StoreError) : LogLine :=
  ⟨.warn, "can't close writer", [("key", key), ("error", e.message)]⟩

/-- An object was uploaded. -/
def uploadedLog (setup : Setup) (key : String) (bytes : Nat) : LogLine :=
  ⟨.debug, "uploaded object",
    [("bucket", setup.bucket), ("key", key), ("bytes", toString bytes)]⟩

/-- An object was deleted. -/
def deletedLog (setup : Setup) (key : String) : LogLine :=
  ⟨.debug, "deleted object", [("bucket", setup.bucket), ("key", key)]⟩

/-- An object was copied. -/
def copiedLog (setup : Setup) (sourceBucket sourceKey key : String) : LogLine :=
  ⟨.debug, s!"{setup.kind}->CopyObject {sourceBucket}/{sourceKey} -> {setup.bucket}/{key}", []⟩

/-! ## Borrowing and settling -/

/-- The verdict on idle clients at this moment. -/
def isValid (env : Env World Writer) (m : Machine World Writer) (c : Client) : Bool :=
  env.backend.isValid c m.world

/-- Goes on with an acquisition. -/
def acquire (env : Env World Writer) (id : TaskId) (task : Task Writer) (g : Goal)
    (progress : Pool.Progress) (m : Machine World Writer) : Machine World Writer :=
  match progress with
  | .failed e =>
    let lines := match g with
      | .keep => []
      | _ => [borrowLog e]
    (m.note lines).goOn id { task with ticket := none } (.ended (.error e))
  | .blocked => m.put id { task with phase := .line g }
  | .reject c =>
    (m.note [rejectLog]).answered id task (env.backend.destroy c m.world) (.rejected g)
  | .create => m.answered id task (env.backend.create m.world) (.created g)
  | .lent c => m.goOn id { task with client := some c } (.lent g)

/-- Asks the pool for a client. -/
def borrow (env : Env World Writer) (id : TaskId) (task : Task Writer) (g : Goal)
    (m : Machine World Writer) : Machine World Writer :=
  let (p, t, progress) := m.pool.request (isValid env m) m.now
  let m := m.withPool p
  let task := { task with ticket := some t }
  match progress, m.pool.wait with
  | .blocked, some wait =>
    let (m, alarm) := m.alarmIn wait
    acquire env id { task with alarm } g progress m
  | _, _ => acquire env id task g progress m

/-- Gives the client of a ticket back. -/
def release (t : Ticket) (m : Machine World Writer) : Machine World Writer :=
  let (p, left) := m.pool.release t
  let m := m.withPool p
  match left with
  | some _ => m.discard t
  | none => m

/-- Lets go of the client of a ticket. -/
def drop (t : Ticket) (m : Machine World Writer) : Machine World Writer :=
  let (p, left) := m.pool.drop t
  let m := m.withPool p
  match left with
  | some _ => (m.note [droppedLog]).discard t
  | none => m

/-- Gives the client of a ticket back where nothing can run in the background. -/
def releaseOutside (t : Ticket) (m : Machine World Writer) : Machine World Writer :=
  m.withPool (m.pool.releaseOutside t)

/-- Lets go of the client of a ticket where nothing can run in the background. -/
def dropOutside (t : Ticket) (m : Machine World Writer) : Machine World Writer :=
  (m.note [droppedLog]).withPool (m.pool.dropOutside t)

/-- Ends a task that gives its client back first. -/
def settle (id : TaskId) (task : Task Writer) (result : Except StoreError Outcome)
    (lines : List LogLine) (m : Machine World Writer) : Machine World Writer :=
  let m := match task.ticket with
    | some t => m.release t
    | none => m
  (m.note lines).goOn id { task with ticket := none, client := none } (.ended result)

/-- Destroys the client of a task, which ends with `result` afterwards. -/
def invalidate (env : Env World Writer) (id : TaskId) (task : Task Writer)
    (result : Except StoreError Outcome) (m : Machine World Writer) : Machine World Writer :=
  match task.ticket with
  | none => m.goOn id task (.ended result)
  | some t =>
    match m.pool.invalidate t with
    | (p, some c) =>
      let m := m.withPool p
      m.answered id { task with client := none } (env.backend.destroy c m.world)
        (.invalidated · result)
    | (_, none) => m.goOn id { task with ticket := none, client := none } (.ended result)

/-- Closes the pool for a task, which ends with `result` afterwards. -/
def closePool (env : Env World Writer) (id : TaskId) (task : Task Writer)
    (result : Except StoreError Outcome) (m : Machine World Writer) : Machine World Writer :=
  match m.pool.close with
  | (p, none) => (m.withPool p).goOn id task (.ended result)
  | (p, some (t, c)) =>
    let m := m.withPool p
    m.answered id { task with ticket := some t } (env.backend.destroy c m.world)
      (.closing · result)

/-! ## Steps -/

/-- Begins a request. -/
def start (env : Env World Writer) (id : TaskId) (task : Task Writer) (r : Request)
    (m : Machine World Writer) : Machine World Writer :=
  let roots := env.setup.roots
  match r with
  | .borrow => borrow env id task .keep m
  | .invalidate t => invalidate env id { task with ticket := some t } (.ok .unit) m
  | .walk path recursive visitor =>
    let query : Query :=
      { bucket := env.setup.bucket
        lead := roots.walkPrefix path
        delimiter := if recursive then none else some (String.singleton Key.separator)
        token := none }
    borrow env id task (.walk (.ofQuery query visitor)) m
  | .read path => borrow env id task (.read (roots.primaryKey path)) m
  | .put path source => borrow env id task (.put (roots.primaryKey path) source) m
  | .stat path => borrow env id task (.stat (roots.primaryKey path)) m
  | .delete path => borrow env id task (.delete (roots.primaryKey path)) m
  | .deleteDisk path =>
    match roots.diskKey path with
    | .ok key => borrow env id task (.delete key) m
    | .error e => m.goOn id task (.ended (.error e))
  | .copy sourceBucket sourceKey path =>
    match roots.diskKey path with
    | .ok key => borrow env id task (.copy sourceBucket sourceKey key) m
    | .error e => m.goOn id task (.ended (.error e))
  | .closePool => closePool env id task (.ok .unit) m
  | .close =>
    match m.direct with
    | some c =>
      { m with direct := none }.answered id task (env.backend.destroy c m.world) fun reply =>
        .disconnected (reply.map fun () => .unit)
    | none => m.goOn id task (.disconnected (.ok .unit))

/-- Makes the first call on a client that was lent. -/
def begin (env : Env World Writer) (id : TaskId) (task : Task Writer) (c : Client) (g : Goal)
    (m : Machine World Writer) : Machine World Writer :=
  let bucket := env.setup.bucket
  match g with
  | .keep =>
    match task.ticket with
    | some t => m.goOn id { task with ticket := none } (.ended (.ok (.client t c)))
    | none => m.goOn id task (.ended (.ok .unit))
  | .walk w => m.goOn id task (.walking w)
  | .read key => m.answered id task (env.backend.openReader c bucket key m.world) .opened
  | .put key source =>
    m.answered id task (env.backend.openWriter c bucket key env.setup.options m.world)
      (.accepted key source)
  | .stat key => m.answered id task (env.backend.attributes c bucket key m.world) .found
  | .delete key => m.answered id task (env.backend.delete c bucket key m.world) (.deleted key)
  | .copy sourceBucket sourceKey key =>
    m.answered id task (env.backend.attributes c sourceBucket sourceKey m.world)
      (.measured sourceBucket sourceKey key)

/-- Ends the writing of an upload: the writer is let go of before the client is settled. -/
def endUpload (env : Env World Writer) (id : TaskId) (task : Task Writer) (u : Upload Writer)
    (result : Except StoreError Unit) (m : Machine World Writer) : Machine World Writer :=
  let m := { m with world := env.backend.dropWriter u.writer m.world }
  match result with
  | .ok () => settle id task (.ok .unit) [uploadedLog env.setup u.key u.amount] m
  | .error e => invalidate env id task (.error e) m

/-- One step of an upload. -/
def upload (env : Env World Writer) (id : TaskId) (task : Task Writer) (u : Upload Writer)
    (m : Machine World Writer) : Machine World Writer :=
  match u.step with
  | .write bytes =>
    let (writer, a) := env.backend.write u.writer bytes m.world
    m.answered id task a (.wrote { u with writer })
  | .read u => m.goOn id task (.uploading u)
  | .pause ms u =>
    let (m, alarm) := m.alarmIn ms
    m.put id { task with phase := .uploading u, alarm }
  | .complete => m.answered id task (env.backend.flush u.writer m.world) (.flushed u)
  | .fail e => endUpload env id task u (.error (.io e)) m

/-- One step of reading what was opened. -/
def drain (id : TaskId) (task : Task Writer) (rest : Stream) (data : ByteArray)
    (m : Machine World Writer) : Machine World Writer :=
  match Stream.pull copyBufferSize rest with
  | .data bytes rest => m.goOn id task (.draining rest (data ++ bytes))
  | .pause ms rest =>
    let (m, alarm) := m.alarmIn ms
    m.put id { task with phase := .draining rest data, alarm }
  | .fail e => m.goOn id task (.ended (.ok (.broken data e)))
  | .finished => m.goOn id task (.ended (.ok (.data data)))

/-- One step of a task that has the answer it was waiting for. -/
def resume (env : Env World Writer) (id : TaskId) (task : Task Writer)
    (m : Machine World Writer) : Machine World Writer :=
  let setup := env.setup
  match task.phase with
  | .start r => start env id task r m
  | .line g =>
    match task.ticket with
    | none => m
    | some t =>
      let (p, progress) := m.pool.proceed (isValid env m) m.now t
      match progress with
      | .blocked => m
      | _ => acquire env id { task with alarm := none } g progress (m.withPool p)
  | .rejected g reply =>
    match task.ticket with
    | none => m
    | some t =>
      let (p, progress) := m.pool.rejected (isValid env m) t
      acquire env id task g progress ((m.note (destroyLog reply)).withPool p)
  | .created g reply =>
    match task.ticket with
    | none => m
    | some t =>
      let (p, progress) := m.pool.created t reply
      let m := m.withPool p
      let lines := match progress with
        | .lent _ => [createdLog m.pool]
        | _ => []
      acquire env id task g progress (m.note lines)
  | .lent g =>
    match task.client with
    | some c => begin env id task c g m
    | none => m
  | .walking w =>
    let task := { task with visited := w.visited }
    match w.step with
    | .ask query =>
      match task.client with
      | some c => m.answered id task (env.backend.list c query m.world) (.listed w)
      | none => m
    | .visited w => m.goOn id { task with visited := w.visited } (.walking w)
    | .finished w result =>
      let task := { task with visited := w.visited }
      match result with
      | .ok () => settle id task (.ok .unit) [] m
      | .error e => invalidate env id task (.error e) m
  | .listed w reply =>
    match reply with
    | .ok page => m.goOn id task (.walking (w.receive page))
    | .error e => invalidate env id task (.error e) m
  | .opened reply =>
    match reply with
    | .ok stream =>
      let m := match task.ticket with
        | some t => m.release t
        | none => m
      m.goOn id { task with ticket := none, client := none } (.draining stream .empty)
    | .error e => invalidate env id task (.error e) m
  | .draining rest data => drain id task rest data m
  | .accepted key source reply =>
    match reply with
    | .ok writer => m.goOn id task (.uploading (.start key source writer))
    | .error e => invalidate env id task (.error e) m
  | .uploading u => upload env id task u m
  | .wrote u reply =>
    match reply.bind (u.wrote ·) with
    | .ok u => m.goOn id task (.uploading u)
    | .error e => endUpload env id task u (.error (.io e)) m
  | .flushed u reply =>
    match reply with
    | .ok () =>
      let (writer, a) := env.backend.finish u.writer m.world
      m.answered id task a (.completed { u with writer })
    | .error e => endUpload env id task u (.error (.io e)) m
  | .completed u reply =>
    match reply with
    | .ok () => endUpload env id task u (.ok ()) m
    | .error e =>
      let m := m.note [completionLog u.key e]
      endUpload env id task u (.error (e.toWriteFinalization u.key)) m
  | .found reply =>
    match reply with
    | .ok a =>
      let name := Key.relativeName (setup.roots.walkPrefix "") a.key
      settle id task (.ok (.entry (.object name a.size a.updated))) [] m
    | .error e =>
      if e.isNotFound then settle id task (.error e) [] m else invalidate env id task (.error e) m
  | .deleted key reply =>
    match reply with
    | .ok () => settle id task (.ok .unit) [deletedLog setup key] m
    | .error e => invalidate env id task (.error e) m
  | .measured sourceBucket sourceKey key reply =>
    match reply, task.client with
    | .ok a, some c =>
      m.answered id task (env.backend.copy c sourceBucket sourceKey setup.bucket key m.world)
        (.copied sourceBucket sourceKey key a.size)
    | .ok _, none => m
    | .error e, _ => invalidate env id task (.error e) m
  | .copied sourceBucket sourceKey key size reply =>
    match reply with
    | .ok () =>
      settle id task (.ok (.count size)) [copiedLog setup sourceBucket sourceKey key] m
    | .error e => invalidate env id task (.error e) m
  | .invalidated reply result =>
    let m := m.note (destroyLog reply)
    let m := match task.ticket with
      | some t => m.withPool (m.pool.invalidated t)
      | none => m
    m.goOn id { task with ticket := none } (.ended result)
  | .disconnected result => closePool env id task result m
  | .closing reply result =>
    let m := m.note (destroyLog reply)
    match task.ticket with
    | none => m.goOn id task (.ended result)
    | some t =>
      match m.pool.closedOne t with
      | (p, some c) =>
        let m := m.withPool p
        m.answered id task (env.backend.destroy c m.world) (.closing · result)
      | (p, none) => (m.withPool p).goOn id { task with ticket := none } (.ended result)
  | .discard =>
    match task.ticket with
    | none => m.goOn id task (.ended (.ok .unit))
    | some t =>
      match m.pool.startDestroy t with
      | (p, some c) =>
        let m := m.withPool p
        m.answered id task (env.backend.destroy c m.world) .discarded
      | (_, none) => m.goOn id { task with ticket := none } (.ended (.ok .unit))
  | .discarded reply =>
    let m := m.note (destroyLog reply)
    let m := match task.ticket with
      | some t => m.withPool (m.pool.destroyed t)
      | none => m
    m.goOn id { task with ticket := none } (.ended (.ok .unit))
  | .ended _ => m

/-- What a task does now. A party in line waits although its alarm may have gone off: it finds out
for itself. -/
def status (m : Machine World Writer) (id : TaskId) : Status :=
  match m.task? id with
  | none => .ended
  | some task =>
    match task.phase with
    | .ended _ => .ended
    | .line _ => .waiting
    | _ => if task.alarm.any (m.now < ·.time) then .waiting else .running

/-- One step of a task, unless it has to wait. A task in line sees whether it has to. -/
def step (env : Env World Writer) (id : TaskId) (m : Machine World Writer) :
    Machine World Writer :=
  match m.task? id with
  | none => m
  | some task =>
    match task.phase with
    | .line _ => resume env id task m
    | _ => if task.alarm.any (m.now < ·.time) then m else resume env id task m

/-- Cancels a task where it waits. A writer is let go of before the client. -/
def cancel (env : Env World Writer) (id : TaskId) (m : Machine World Writer) :
    Machine World Writer :=
  match m.task? id with
  | none => m
  | some task =>
    let world := match task.phase with
      | .uploading u => env.backend.dropWriter u.writer m.world
      | .wrote u _ => env.backend.dropWriter u.writer m.world
      | .flushed u _ => env.backend.dropWriter u.writer m.world
      | .completed u _ => env.backend.dropWriter u.writer m.world
      | _ => m.world
    let m := { m with world }.remove id
    match task.ticket with
    | none => m
    | some t =>
      match m.pool.party? t with
      | some (.holding _) => m.drop t
      | _ => m.withPool (m.pool.cancel t)

end Machine

end Depot.Storage
