import Depot.Pool.Run
import Depot.Storage.History

/-!
# What a step of a task can do

A task acquires a client, works with it, settles, and ends. The inversion of its steps is collected
here: how an acquisition goes on (`Asks`), what a task does while it has a client (`Works`), and all
steps together (`Turn`). `resume_turn` says that nothing else happens to a task that stands as its
party in the pool does (`Task.Sound`), and `cancel_cut` says what a cancellation does.

What only orders the tasks and reports on them (the log, the alarms set, the tasks found able to go
on, the open news) is left out of the picture by `bare`.
-/

set_option autoImplicit false

namespace Depot.Storage

variable {World Writer : Type}

/-! ## What a request is about -/

/-- What is asked for to list the entries below a path. -/
def Setup.query (setup : Setup) (path : String) (recursive : Bool) : Query where
  bucket := setup.bucket
  lead := setup.roots.walkPrefix path
  delimiter := if recursive then none else some (String.singleton Key.separator)
  token := none

/-- What a request borrows a client for, if it does. -/
def Request.goal (setup : Setup) : Request → Option (Except StoreError Goal)
  | borrow => some (.ok .keep)
  | walk path recursive visitor =>
    some (.ok (.walk (.ofQuery (setup.query path recursive) visitor)))
  | read path => some (.ok (.read (setup.roots.primaryKey path)))
  | put path source => some (.ok (.put (setup.roots.primaryKey path) source))
  | stat path => some (.ok (.stat (setup.roots.primaryKey path)))
  | delete path => some (.ok (.delete (setup.roots.primaryKey path)))
  | deleteDisk path => some ((setup.roots.diskKey path).map .delete)
  | copy sourceBucket sourceKey path =>
    some ((setup.roots.diskKey path).map (.copy sourceBucket sourceKey))
  | invalidate _ => none
  | closePool => none
  | close => none

/-- Whether a client is borrowed for one of the operations, which settle it themselves. -/
def Goal.isOperation : Goal → Bool
  | keep => false
  | _ => true

theorem Request.isOperation_of_goal {setup : Setup} {r : Request} {g : Goal}
    (hr : r.isOperation = true) (h : r.goal setup = some (.ok g)) : g.isOperation = true := by
  cases r with
  | borrow => simp [isOperation] at hr
  | deleteDisk path | copy _ _ path =>
    simp only [goal, Option.some.injEq] at h
    cases hkey : setup.roots.diskKey path with
    | error e => simp [hkey, Except.map] at h
    | ok key =>
      rw [hkey] at h
      cases h
      rfl
  | invalidate | closePool | close => simp [goal] at h
  | _ =>
    cases h
    rfl

/-- Whether a task has come from one of the operations, or works in the background. -/
def Phase.isPlain : Phase Writer → Bool
  | start r => r.isOperation
  | line g => g.isOperation
  | rejected g _ => g.isOperation
  | created g _ => g.isOperation
  | lent g => g.isOperation
  | _ => true

/-! ## A task and its party -/

/-- Where a task stands with respect to the pool. -/
inductive Stage where
  /-- It has nothing to do with the pool. -/
  | apart
  | inLine
  | rejecting
  | creating
  /-- It has a client. -/
  | holding
  | invalidating
  | closing
  | discarding
  | destroying
  deriving DecidableEq, Repr

/-- Where a task stands with respect to the pool. -/
def Phase.stage : Phase Writer → Stage
  | start _ => .apart
  | line _ => .inLine
  | rejected _ _ => .rejecting
  | created _ _ => .creating
  | draining _ _ => .apart
  | invalidated _ _ => .invalidating
  | disconnected _ => .apart
  | closing _ _ => .closing
  | discard => .discarding
  | discarded _ => .destroying
  | ended _ => .apart
  | _ => .holding

/-- What the party of a task does, and the client that the task has, where it stands. -/
inductive Stands : Stage → Party → Option Client → Prop where
  | waiting (deadline : Option Nat) : Stands .inLine (.waiting deadline) none
  | granted : Stands .inLine .granted none
  | rejecting (c : Client) : Stands .rejecting (.rejecting c) none
  | creating : Stands .creating .creating none
  | holding (c : Client) : Stands .holding (.holding c) (some c)
  | invalidating (c : Client) : Stands .invalidating (.invalidating c) none
  | closing (c : Client) (rest : List Client) : Stands .closing (.closing c rest) none
  | discarding (c : Client) : Stands .discarding (.discarding c) none
  | destroying (c : Client) : Stands .destroying (.destroying c) none

/-- A task stands as its party in the pool does, or has none and needs none. -/
inductive Task.Sound (p : Pool) (task : Task Writer) : Prop where
  | apart : task.phase.stage = .apart → task.ticket = none → task.client = none → Sound p task
  | party {t : Ticket} {x : Party} : task.ticket = some t → p.party? t = some x →
      Stands task.phase.stage x task.client → Sound p task

section Sound

variable {p : Pool} {task : Task Writer}

theorem Task.Sound.eq_none (h : task.Sound p) (hs : task.phase.stage = .apart) :
    task.ticket = none ∧ task.client = none := by
  cases h with
  | apart _ ht hc => exact ⟨ht, hc⟩
  | party _ _ hstands =>
    rw [hs] at hstands
    cases hstands

theorem Task.Sound.exists_party (h : task.Sound p) (hs : task.phase.stage ≠ .apart) :
    ∃ t x, task.ticket = some t ∧ p.party? t = some x ∧ Stands task.phase.stage x task.client := by
  cases h with
  | apart hstage _ _ => exact absurd hstage hs
  | party ht hx hstands => exact ⟨_, _, ht, hx, hstands⟩

/-- Who has a ticket has a party under it, and stands as the party does. -/
theorem Task.Sound.party_of_ticket {t : Ticket} (h : task.Sound p) (ht : task.ticket = some t) :
    ∃ x, p.party? t = some x ∧ Stands task.phase.stage x task.client := by
  cases h with
  | apart _ hnone _ =>
    rw [hnone] at ht
    cases ht
  | party ht' hx hstands =>
    rw [ht] at ht'
    cases ht'
    exact ⟨_, hx, hstands⟩

/-- Only a task that works with a client has it. -/
theorem Task.Sound.client_eq_none (h : task.Sound p) (hs : task.phase.stage ≠ .holding) :
    task.client = none := by
  cases h with
  | apart _ _ hc => exact hc
  | party _ _ hstands =>
    generalize task.phase.stage = stage at hstands hs
    generalize task.client = client at hstands
    cases hstands with
    | holding c => exact absurd rfl hs
    | _ => rfl

theorem Task.Sound.exists_client (h : task.Sound p) (hs : task.phase.stage = .holding) :
    ∃ t c, task.ticket = some t ∧ p.party? t = some (.holding c) ∧ task.client = some c := by
  obtain ⟨t, x, ht, hx, hstands⟩ := h.exists_party (by simp [hs])
  rw [hs] at hstands
  generalize hc : task.client = client at hstands
  cases hstands with
  | holding c => exact ⟨t, c, ht, hx, rfl⟩

end Sound

/-! ## How an acquisition goes on -/

/-- What a step makes of the state. -/
structure Next (World Writer : Type) where
  pool : Pool
  world : World
  direct : Option Client
  /-- The task that made the step. -/
  task : Task Writer
  /-- The party that is to destroy a client in the background from now on. -/
  left : Option Ticket

/-- An alarm is set for a delay, and only for one. -/
def Rings (alarm : Option Alarm) (delay : Nat) : Prop := alarm = none ↔ delay = 0

/-- A task asks the pool for a client, or looks what came of it. -/
inductive Asks (env : Env World Writer) (m : Machine World Writer) (task : Task Writer) (g : Goal)
    (t : Ticket) (p : Pool) (progress : Pool.Progress) : Prop where
  | request {r : Request} : task.phase = .start r → r.goal env.setup = some (.ok g) →
      m.pool.request (Machine.isValid env m) m.now = (p, t, progress) →
      Asks env m task g t p progress
  | proceed : task.phase = .line g → task.ticket = some t →
      m.pool.proceed (Machine.isValid env m) m.now t = (p, progress) → progress ≠ .blocked →
      Asks env m task g t p progress
  | rejected {reply : Except StoreError Unit} : task.phase = .rejected g reply →
      task.ticket = some t → m.pool.rejected (Machine.isValid env m) t = (p, progress) →
      Asks env m task g t p progress
  | created {reply : Except StoreError Unit} : task.phase = .created g reply →
      task.ticket = some t → m.pool.created t reply = (p, progress) → Asks env m task g t p progress

/-- What a task makes of the answer of the pool. -/
inductive Acquires (env : Env World Writer) (m : Machine World Writer) (task : Task Writer)
    (g : Goal) (t : Ticket) (p : Pool) : Pool.Progress → Next World Writer → Prop where
  | refuse {e : StoreError} :
      Acquires env m task g t p (.failed e)
        ⟨p, m.world, m.direct,
          { task with phase := .ended (.error e), ticket := none, alarm := none }, none⟩
  | queue (alarm : Option Alarm) :
      Acquires env m task g t p .blocked
        ⟨p, m.world, m.direct, { task with phase := .line g, ticket := some t, alarm }, none⟩
  | reject {c : Client} {a : Answer World (Except StoreError Unit)} {alarm : Option Alarm} :
      env.backend.destroy c m.world = a → Rings alarm a.delay →
      Acquires env m task g t p (.reject c)
        ⟨p, a.world, m.direct,
          { task with phase := .rejected g a.result, ticket := some t, alarm }, none⟩
  | create {a : Answer World (Except StoreError Unit)} {alarm : Option Alarm} :
      env.backend.create m.world = a → Rings alarm a.delay →
      Acquires env m task g t p .create
        ⟨p, a.world, m.direct,
          { task with phase := .created g a.result, ticket := some t, alarm }, none⟩
  | lend {c : Client} :
      Acquires env m task g t p (.lent c)
        ⟨p, m.world, m.direct,
          { task with phase := .lent g, ticket := some t, client := some c, alarm := none }, none⟩

/-! ## Work with a client -/

/-- What a task does with the client that it has. The world is that after the call that it made, if
it made one. -/
inductive Work (World Writer : Type) where
  /-- It keeps the client. -/
  | keep (phase : Phase Writer) (world : World) (delay : Nat) (visited : List Entry)
  /-- It gives the client back. -/
  | giveBack (phase : Phase Writer) (world : World) (visited : List Entry)
  /-- It destroys the client, and is to end with an error. -/
  | destroy (e : StoreError) (world : World) (visited : List Entry)

/-- The world after the work of a step. -/
def Work.world : Work World Writer → World
  | keep _ world _ _ => world
  | giveBack _ world _ => world
  | destroy _ world _ => world

/-- A call was made on the client. -/
abbrev Work.ofAnswer {α : Type} (a : Answer World α) (phase : α → Phase Writer)
    (visited : List Entry) : Work World Writer :=
  .keep (phase a.result) a.world a.delay visited

/-- What a task does next while it has the client `c`. -/
inductive Works (env : Env World Writer) (c : Client) (w : World) (visited : List Entry) :
    Phase Writer → Work World Writer → Prop where
  -- the first call
  | walk {k : Walk} : Works env c w visited (.lent (.walk k)) (.keep (.walking k) w 0 visited)
  | openReader {key : String} {a : Answer World (Except StoreError Stream)} :
      env.backend.openReader c env.setup.bucket key w = a →
      Works env c w visited (.lent (.read key)) (.ofAnswer a .opened visited)
  | openWriter {key : String} {source : Stream} {a : Answer World (Except StoreError Writer)} :
      env.backend.openWriter c env.setup.bucket key env.setup.options w = a →
      Works env c w visited (.lent (.put key source)) (.ofAnswer a (.accepted key source) visited)
  | look {key : String} {a : Answer World (Except StoreError Attributes)} :
      env.backend.attributes c env.setup.bucket key w = a →
      Works env c w visited (.lent (.stat key)) (.ofAnswer a .found visited)
  | delete {key : String} {a : Answer World (Except StoreError Unit)} :
      env.backend.delete c env.setup.bucket key w = a →
      Works env c w visited (.lent (.delete key)) (.ofAnswer a (.deleted key) visited)
  | measure {sourceBucket sourceKey key : String}
      {a : Answer World (Except StoreError Attributes)} :
      env.backend.attributes c sourceBucket sourceKey w = a →
      Works env c w visited (.lent (.copy sourceBucket sourceKey key))
        (.ofAnswer a (.measured sourceBucket sourceKey key) visited)
  -- a walk
  | ask {k : Walk} {q : Query} {a : Answer World (Except StoreError Page)} : k.step = .ask q →
      env.backend.list c q w = a →
      Works env c w visited (.walking k) (.ofAnswer a (.listed k) k.visited)
  | visit {k k' : Walk} : k.step = .visited k' →
      Works env c w visited (.walking k) (.keep (.walking k') w 0 k'.visited)
  | walked {k k' : Walk} : k.step = .finished k' (.ok ()) →
      Works env c w visited (.walking k) (.giveBack (.ended (.ok .unit)) w k'.visited)
  | stopped {k k' : Walk} {e : StoreError} : k.step = .finished k' (.error e) →
      Works env c w visited (.walking k) (.destroy e w k'.visited)
  | listed {k : Walk} {page : Page} :
      Works env c w visited (.listed k (.ok page)) (.keep (.walking (k.receive page)) w 0 visited)
  | unlisted {k : Walk} {e : StoreError} :
      Works env c w visited (.listed k (.error e)) (.destroy e w visited)
  -- a read
  | opened {s : Stream} :
      Works env c w visited (.opened (.ok s)) (.giveBack (.draining s .empty) w visited)
  | unopened {e : StoreError} : Works env c w visited (.opened (.error e)) (.destroy e w visited)
  -- an upload
  | accepted {key : String} {source : Stream} {writer : Writer} :
      Works env c w visited (.accepted key source (.ok writer))
        (.keep (.uploading (.start key source writer)) w 0 visited)
  | unaccepted {key : String} {source : Stream} {e : StoreError} :
      Works env c w visited (.accepted key source (.error e)) (.destroy e w visited)
  | write {u : Upload Writer} {bytes : ByteArray} {writer : Writer}
      {a : Answer World (Except IoError Nat)} : u.step = .write bytes →
      env.backend.write u.writer bytes w = (writer, a) →
      Works env c w visited (.uploading u) (.ofAnswer a (.wrote { u with writer }) visited)
  | read {u u' : Upload Writer} : u.step = .read u' →
      Works env c w visited (.uploading u) (.keep (.uploading u') w 0 visited)
  | pause {u u' : Upload Writer} {ms : Nat} : u.step = .pause ms u' →
      Works env c w visited (.uploading u) (.keep (.uploading u') w ms visited)
  | flush {u : Upload Writer} {a : Answer World (Except IoError Unit)} : u.step = .complete →
      env.backend.flush u.writer w = a →
      Works env c w visited (.uploading u) (.ofAnswer a (.flushed u) visited)
  | broken {u : Upload Writer} {e : IoError} : u.step = .fail e →
      Works env c w visited (.uploading u)
        (.destroy (.io e) (env.backend.dropWriter u.writer w) visited)
  | wrote {u u' : Upload Writer} {n : Nat} : u.wrote n = .ok u' →
      Works env c w visited (.wrote u (.ok n)) (.keep (.uploading u') w 0 visited)
  | unwritten {u : Upload Writer} {reply : Except IoError Nat} {e : IoError} :
      reply.bind (u.wrote ·) = .error e →
      Works env c w visited (.wrote u reply)
        (.destroy (.io e) (env.backend.dropWriter u.writer w) visited)
  | finish {u : Upload Writer} {writer : Writer} {a : Answer World (Except StoreError Unit)} :
      env.backend.finish u.writer w = (writer, a) →
      Works env c w visited (.flushed u (.ok ()))
        (.ofAnswer a (.completed { u with writer }) visited)
  | unflushed {u : Upload Writer} {e : IoError} :
      Works env c w visited (.flushed u (.error e))
        (.destroy (.io e) (env.backend.dropWriter u.writer w) visited)
  | completed {u : Upload Writer} :
      Works env c w visited (.completed u (.ok ()))
        (.giveBack (.ended (.ok .unit)) (env.backend.dropWriter u.writer w) visited)
  | incomplete {u : Upload Writer} {e : StoreError} :
      Works env c w visited (.completed u (.error e))
        (.destroy (e.toWriteFinalization u.key) (env.backend.dropWriter u.writer w) visited)
  -- a look-up
  | found {a : Attributes} :
      Works env c w visited (.found (.ok a))
        (.giveBack (.ended (.ok (.entry (.object
          (Key.relativeName (env.setup.roots.walkPrefix "") a.key) a.size a.updated)))) w visited)
  | missing {e : StoreError} : e.isNotFound = true →
      Works env c w visited (.found (.error e)) (.giveBack (.ended (.error e)) w visited)
  | unfound {e : StoreError} : e.isNotFound = false →
      Works env c w visited (.found (.error e)) (.destroy e w visited)
  -- a deletion
  | deleted {key : String} :
      Works env c w visited (.deleted key (.ok ())) (.giveBack (.ended (.ok .unit)) w visited)
  | undeleted {key : String} {e : StoreError} :
      Works env c w visited (.deleted key (.error e)) (.destroy e w visited)
  -- a copy
  | copy {sourceBucket sourceKey key : String} {at' : Attributes}
      {a : Answer World (Except StoreError Unit)} :
      env.backend.copy c sourceBucket sourceKey env.setup.bucket key w = a →
      Works env c w visited (.measured sourceBucket sourceKey key (.ok at'))
        (.ofAnswer a (.copied sourceBucket sourceKey key at'.size) visited)
  | unmeasured {sourceBucket sourceKey key : String} {e : StoreError} :
      Works env c w visited (.measured sourceBucket sourceKey key (.error e)) (.destroy e w visited)
  | copied {sourceBucket sourceKey key : String} {size : Nat} :
      Works env c w visited (.copied sourceBucket sourceKey key size (.ok ()))
        (.giveBack (.ended (.ok (.count size))) w visited)
  | uncopied {sourceBucket sourceKey key : String} {size : Nat} {e : StoreError} :
      Works env c w visited (.copied sourceBucket sourceKey key size (.error e))
        (.destroy e w visited)

/-- What a task that has the client `c` makes of its work. -/
inductive Settles (env : Env World Writer) (m : Machine World Writer) (task : Task Writer)
    (t : Ticket) (c : Client) : Work World Writer → Next World Writer → Prop where
  | keep {phase : Phase Writer} {world : World} {delay : Nat} {visited : List Entry}
      {alarm : Option Alarm} : Rings alarm delay →
      Settles env m task t c (.keep phase world delay visited)
        ⟨m.pool, world, m.direct, { task with phase, alarm, visited }, none⟩
  | giveBack {phase : Phase Writer} {world : World} {visited : List Entry} {p : Pool} :
      m.pool.closed = false → m.pool.release t = (p, none) →
      Settles env m task t c (.giveBack phase world visited)
        ⟨p, world, m.direct, ⟨phase, none, none, none, visited⟩, none⟩
  | giveLate {phase : Phase Writer} {world : World} {visited : List Entry} {p : Pool} :
      m.pool.closed = true → m.pool.release t = (p, some c) →
      Settles env m task t c (.giveBack phase world visited)
        ⟨p, world, m.direct, ⟨phase, none, none, none, visited⟩, some t⟩
  | destroy {e : StoreError} {world : World} {visited : List Entry} {p : Pool}
      {a : Answer World (Except StoreError Unit)} {alarm : Option Alarm} :
      m.pool.invalidate t = (p, some c) → env.backend.destroy c world = a → Rings alarm a.delay →
      Settles env m task t c (.destroy e world visited)
        ⟨p, a.world, m.direct, ⟨.invalidated a.result (.error e), some t, none, alarm, visited⟩,
          none⟩

/-- What a task does next that reads what it has opened: the phase that it comes to, and the pause
that it makes. -/
inductive Drains (rest : Stream) (data : ByteArray) : Phase Writer → Nat → Prop where
  | read {bytes : ByteArray} {rest' : Stream} :
      Stream.pull copyBufferSize rest = .data bytes rest' →
      Drains rest data (.draining rest' (data ++ bytes)) 0
  | pause {ms : Nat} {rest' : Stream} : Stream.pull copyBufferSize rest = .pause ms rest' →
      Drains rest data (.draining rest' data) ms
  | broken {e : IoError} : Stream.pull copyBufferSize rest = .fail e →
      Drains rest data (.ended (.ok (.broken data e))) 0
  | finished : Stream.pull copyBufferSize rest = .finished →
      Drains rest data (.ended (.ok (.data data))) 0

/-! ## All steps -/

/-- A task closes the pool now, to end with a result. -/
inductive Shuts : Phase Writer → Except StoreError Outcome → Prop where
  | closePool : Shuts (.start .closePool) (.ok .unit)
  | disconnected {result : Except StoreError Outcome} : Shuts (.disconnected result) result

/-- What a task can do with a step that changes something. -/
inductive Turn (env : Env World Writer) (m : Machine World Writer) (task : Task Writer) :
    Next World Writer → Prop where
  /-- It needs a root that is not set. -/
  | deny {r : Request} {e : StoreError} : task.phase = .start r →
      r.goal env.setup = some (.error e) →
      Turn env m task
        ⟨m.pool, m.world, m.direct, { task with phase := .ended (.error e), alarm := none }, none⟩
  | acquire {g : Goal} {t : Ticket} {p : Pool} {progress : Pool.Progress}
      {n : Next World Writer} : Asks env m task g t p progress →
      Acquires env m task g t p progress n → Turn env m task n
  | work {t : Ticket} {c : Client} {k : Work World Writer} {n : Next World Writer} :
      task.ticket = some t → m.pool.party? t = some (.holding c) → task.client = some c →
      Works env c m.world task.visited task.phase k → Settles env m task t c k n → Turn env m task n
  | invalidated {t : Ticket} {reply : Except StoreError Unit} {result : Except StoreError Outcome} :
      task.phase = .invalidated reply result → task.ticket = some t →
      Turn env m task
        ⟨m.pool.invalidated t, m.world, m.direct,
          { task with phase := .ended result, ticket := none, alarm := none }, none⟩
  /-- It reads what it has opened. -/
  | drain {rest : Stream} {data : ByteArray} {phase : Phase Writer} {delay : Nat}
      {alarm : Option Alarm} : task.phase = .draining rest data → Drains rest data phase delay →
      Rings alarm delay →
      Turn env m task ⟨m.pool, m.world, m.direct, { task with phase, alarm }, none⟩
  -- it closes the storage
  | disconnect {c : Client} {a : Answer World (Except StoreError Unit)} {alarm : Option Alarm} :
      task.phase = .start .close → m.direct = some c → env.backend.destroy c m.world = a →
      Rings alarm a.delay →
      Turn env m task
        ⟨m.pool, a.world, none,
          { task with phase := .disconnected (a.result.map fun () => .unit), alarm }, none⟩
  | apart : task.phase = .start .close → m.direct = none →
      Turn env m task
        ⟨m.pool, m.world, m.direct, { task with phase := .disconnected (.ok .unit), alarm := none },
          none⟩
  | shut {result : Except StoreError Outcome} {p : Pool} : Shuts task.phase result →
      m.pool.close = (p, none) →
      Turn env m task
        ⟨p, m.world, m.direct, { task with phase := .ended result, alarm := none }, none⟩
  | drainPool {result : Except StoreError Outcome} {p : Pool} {t : Ticket} {c : Client}
      {a : Answer World (Except StoreError Unit)} {alarm : Option Alarm} : Shuts task.phase result →
      m.pool.close = (p, some (t, c)) → env.backend.destroy c m.world = a → Rings alarm a.delay →
      Turn env m task
        ⟨p, a.world, m.direct,
          { task with phase := .closing a.result result, ticket := some t, alarm }, none⟩
  | closeNext {reply : Except StoreError Unit} {result : Except StoreError Outcome} {t : Ticket}
      {p : Pool} {c : Client} {a : Answer World (Except StoreError Unit)} {alarm : Option Alarm} :
      task.phase = .closing reply result → task.ticket = some t →
      m.pool.closedOne t = (p, some c) → env.backend.destroy c m.world = a → Rings alarm a.delay →
      Turn env m task
        ⟨p, a.world, m.direct, { task with phase := .closing a.result result, alarm }, none⟩
  | closeLast {reply : Except StoreError Unit} {result : Except StoreError Outcome} {t : Ticket}
      {p : Pool} : task.phase = .closing reply result → task.ticket = some t →
      m.pool.closedOne t = (p, none) →
      Turn env m task
        ⟨p, m.world, m.direct,
          { task with phase := .ended result, ticket := none, alarm := none }, none⟩
  -- it destroys a client in the background
  | startDestroy {t : Ticket} {p : Pool} {c : Client} {a : Answer World (Except StoreError Unit)}
      {alarm : Option Alarm} : task.phase = .discard → task.ticket = some t →
      m.pool.party? t = some (.discarding c) → m.pool.startDestroy t = (p, some c) →
      env.backend.destroy c m.world = a → Rings alarm a.delay →
      Turn env m task
        ⟨p, a.world, m.direct, { task with phase := .discarded a.result, alarm }, none⟩
  | destroyed {t : Ticket} {reply : Except StoreError Unit} : task.phase = .discarded reply →
      task.ticket = some t →
      Turn env m task
        ⟨m.pool.destroyed t, m.world, m.direct,
          { task with phase := .ended (.ok .unit), ticket := none, alarm := none }, none⟩

/-- What a cancellation makes of the pool, of the world, and who is to destroy the client from then
on. A writer may be let go of. -/
inductive Cut (env : Env World Writer) (m : Machine World Writer) (task : Task Writer) :
    Pool → World → Option Ticket → Prop where
  | apart : task.ticket = none → Cut env m task m.pool m.world none
  | cancel {t : Ticket} {x : Party} : task.ticket = some t → m.pool.party? t = some x →
      x.borrowed = [] → Cut env m task (m.pool.cancel t) m.world none
  | drop {t : Ticket} {c : Client} {p : Pool} {world : World} : task.ticket = some t →
      m.pool.party? t = some (.holding c) → task.client = some c → m.pool.drop t = (p, some c) →
      (world = m.world ∨ ∃ writer, world = env.backend.dropWriter writer m.world) →
      Cut env m task p world (some t)

namespace Machine

/-- Leaves a client to be destroyed in the background by a party, if there is one. -/
def handOver (left : Option Ticket) (m : Machine World Writer) : Machine World Writer :=
  match left with
  | some t => m.add (.ofDiscard Writer t)
  | none => m

/-- The state after a step of a task. -/
def follow (m : Machine World Writer) (id : TaskId) (n : Next World Writer) :
    Machine World Writer :=
  ({ m with pool := n.pool, world := n.world, direct := n.direct }.handOver n.left).put id n.task

/-- The state after a task was cancelled. -/
def without (m : Machine World Writer) (id : TaskId) (p : Pool) (world : World)
    (left : Option Ticket) : Machine World Writer :=
  ({ m with pool := p, world }.remove id).handOver left

/-- A state without what only orders the tasks and reports on them. -/
def bare (m : Machine World Writer) : Machine World Writer :=
  { m with pool := { m.pool with called := [] }, alarms := 0, woken := [], log := [] }

/-! ## Inversion -/

section Inversion

variable {env : Env World Writer} {m : Machine World Writer} {id : TaskId} {task : Task Writer}

theorem alarmIn_eq (m : Machine World Writer) (delay : Nat) :
    ∃ alarms alarm, m.alarmIn delay = ({ m with alarms }, alarm) ∧ Rings alarm delay := by
  unfold alarmIn
  by_cases h : delay = 0
  · rw [if_pos h]
    exact ⟨m.alarms, none, rfl, by simp [Rings, h]⟩
  · rw [if_neg h]
    exact ⟨_, _, rfl, by simp [Rings, h]⟩

/-- A task that made a call goes on with the answer. -/
theorem bare_answered {α : Type} (m : Machine World Writer) (id : TaskId) (task : Task Writer)
    (a : Answer World α) (phase : α → Phase Writer) :
    ∃ alarm, Rings alarm a.delay ∧ (m.answered id task a phase).bare =
      ({ m with world := a.world }.put id { task with phase := phase a.result, alarm }).bare := by
  obtain ⟨alarms, alarm, e, h⟩ := alarmIn_eq ({ m with world := a.world }.note a.log) a.delay
  refine ⟨alarm, h, ?_⟩
  simp only [answered, e]
  rfl

/-- Whatever came of asking the pool for a client, the acquisition goes on accordingly. -/
theorem acquire_follow {g : Goal} {t : Ticket} {p : Pool} (progress : Pool.Progress)
    {m' : Machine World Writer} (alarm : Option Alarm) (hm : m'.bare = { m with pool := p }.bare) :
    ∃ n, Acquires env m task g t p progress n ∧
      (acquire env id { task with ticket := some t, alarm } g progress m').bare =
        (m.follow id n).bare := by
  have hworld : m'.world = m.world := congrArg (·.world) hm
  cases progress with
  | failed e => exact ⟨_, .refuse, congrArg (fun k => put k id _) hm⟩
  | blocked => exact ⟨_, .queue alarm, congrArg (fun k => put k id _) hm⟩
  | lent c => exact ⟨_, .lend, congrArg (fun k => put k id _) hm⟩
  | reject c =>
    obtain ⟨alarm', hrings, e⟩ := bare_answered (m'.note [rejectLog]) id
      { task with ticket := some t, alarm } (env.backend.destroy c m'.world) (.rejected g)
    rw [hworld] at hrings
    refine ⟨_, .reject rfl hrings, e.trans ?_⟩
    rw [hworld]
    exact congrArg (fun k : Machine World Writer => put { k with world := _ } id _) hm
  | create =>
    obtain ⟨alarm', hrings, e⟩ := bare_answered m' id { task with ticket := some t, alarm }
      (env.backend.create m'.world) (.created g)
    rw [hworld] at hrings
    refine ⟨_, .create rfl hrings, e.trans ?_⟩
    rw [hworld]
    exact congrArg (fun k : Machine World Writer => put { k with world := _ } id _) hm

theorem acquire_turn {g : Goal} {t : Ticket} {p : Pool} {progress : Pool.Progress}
    {m' : Machine World Writer} {alarm : Option Alarm} (h : Asks env m task g t p progress)
    (hm : m'.bare = { m with pool := p }.bare) :
    ∃ n, Turn env m task n ∧
      (acquire env id { task with ticket := some t, alarm } g progress m').bare =
        (m.follow id n).bare := by
  obtain ⟨n, hn, e⟩ := acquire_follow progress alarm hm
  exact ⟨n, .acquire h hn, e⟩

/-- A task asks the pool for a client. -/
theorem borrow_follow {g : Goal} {t : Ticket} {p : Pool} {progress : Pool.Progress}
    (hreq : m.pool.request (isValid env m) m.now = (p, t, progress)) :
    ∃ n, Acquires env m task g t p progress n ∧
      (borrow env id task g m).bare = (m.follow id n).bare := by
  simp only [borrow, hreq]
  split
  · -- it waits in line until its alarm goes off
    rename_i wait _
    obtain ⟨alarms, alarm, e, -⟩ := alarmIn_eq (m.withPool p) wait
    rw [e]
    exact acquire_follow _ alarm rfl
  · exact acquire_follow _ task.alarm rfl

theorem borrow_turn {r : Request} {g : Goal} (hphase : task.phase = .start r)
    (hgoal : r.goal env.setup = some (.ok g)) :
    ∃ n, Turn env m task n ∧ (borrow env id task g m).bare = (m.follow id n).bare := by
  obtain ⟨p, t, progress, hreq⟩ : ∃ p t progress,
      m.pool.request (isValid env m) m.now = (p, t, progress) := ⟨_, _, _, rfl⟩
  obtain ⟨n, hn, e⟩ : ∃ n, Acquires env m task g t p progress n ∧
      (borrow env id task g m).bare = (m.follow id n).bare := borrow_follow hreq
  exact ⟨n, .acquire (.request hphase hgoal hreq) hn, e⟩

section Holding

variable {t : Ticket} {c : Client} {world : World} {visited : List Entry} {log : List LogLine}

theorem goOn_turn {phase : Phase Writer} (ht : task.ticket = some t)
    (hx : m.pool.party? t = some (.holding c)) (hc : task.client = some c)
    (hw : Works env c m.world task.visited task.phase (.keep phase m.world 0 visited)) :
    ∃ n, Turn env m task n ∧
      (m.goOn id { task with visited } phase).bare = (m.follow id n).bare :=
  ⟨_, .work ht hx hc hw (.keep (show Rings none 0 by simp [Rings])), rfl⟩

theorem answered_turn {α : Type} {a : Answer World α} {phase : α → Phase Writer}
    (ht : task.ticket = some t) (hx : m.pool.party? t = some (.holding c))
    (hc : task.client = some c)
    (hw : Works env c m.world task.visited task.phase (.ofAnswer a phase visited)) :
    ∃ n, Turn env m task n ∧
      (m.answered id { task with visited } a phase).bare = (m.follow id n).bare := by
  obtain ⟨alarm, hrings, e⟩ := bare_answered m id { task with visited } a phase
  exact ⟨_, .work ht hx hc hw (.keep hrings), e⟩

/-- The client is given back: it is idle again, or destroyed in the background. -/
theorem release_turn {phase : Phase Writer} (ht : task.ticket = some t)
    (hx : m.pool.party? t = some (.holding c)) (hc : task.client = some c)
    (hw : Works env c m.world task.visited task.phase (.giveBack phase world visited)) :
    ∃ n, Turn env m task n ∧
      (({ m with world, log }.release t).put id ⟨phase, none, none, none, visited⟩).bare =
        (m.follow id n).bare := by
  cases hclosed : m.pool.closed with
  | false =>
    obtain ⟨p, hp⟩ : ∃ p, m.pool.release t = (p, none) := by
      simp only [Pool.release, hx, hclosed]
      exact ⟨_, rfl⟩
    refine ⟨_, .work ht hx hc hw (.giveBack hclosed hp), ?_⟩
    simp only [release, hp]
    rfl
  | true =>
    obtain ⟨p, hp⟩ : ∃ p, m.pool.release t = (p, some c) := by
      simp only [Pool.release, hx, hclosed]
      exact ⟨_, rfl⟩
    refine ⟨_, .work ht hx hc hw (.giveLate hclosed hp), ?_⟩
    simp only [release, hp]
    rfl

theorem settle_turn {result : Except StoreError Outcome} {lines : List LogLine}
    (ht : task.ticket = some t) (hx : m.pool.party? t = some (.holding c))
    (hc : task.client = some c)
    (hw : Works env c m.world task.visited task.phase (.giveBack (.ended result) world visited)) :
    ∃ n, Turn env m task n ∧
      (settle id { task with visited } result lines { m with world, log }).bare =
        (m.follow id n).bare := by
  simp only [settle, ht]
  exact release_turn ht hx hc hw

/-- The client is destroyed. -/
theorem invalidate_turn {e : StoreError} (ht : task.ticket = some t)
    (hx : m.pool.party? t = some (.holding c)) (hc : task.client = some c)
    (hw : Works env c m.world task.visited task.phase (.destroy e world visited)) :
    ∃ n, Turn env m task n ∧
      (invalidate env id { task with visited } (.error e) { m with world, log }).bare =
        (m.follow id n).bare := by
  obtain ⟨p, hp⟩ : ∃ p, m.pool.invalidate t = (p, some c) := by
    simp only [Pool.invalidate, hx]
    exact ⟨_, rfl⟩
  obtain ⟨alarm, hrings, ha⟩ := bare_answered (({ m with world, log } : Machine _ _).withPool p) id
    { task with visited, client := none } (env.backend.destroy c world) (.invalidated · (.error e))
  refine ⟨_, .work ht hx hc hw (.destroy hp rfl hrings), ?_⟩
  simp only [invalidate, ht, hp] at ha ⊢
  exact ha

end Holding

/-- The first call on a client. -/
theorem begin_turn {t : Ticket} {c : Client} {g : Goal} (hphase : task.phase = .lent g)
    (hg : g.isOperation = true) (ht : task.ticket = some t)
    (hx : m.pool.party? t = some (.holding c)) (hc : task.client = some c) :
    ∃ n, Turn env m task n ∧ (begin env id task c g m).bare = (m.follow id n).bare := by
  have hw : ∀ {k : Work World Writer}, Works env c m.world task.visited (.lent g) k →
      Works env c m.world task.visited task.phase k := fun h => hphase ▸ h
  cases g with
  | keep => simp [Goal.isOperation] at hg
  | walk k => exact goOn_turn ht hx hc (hw .walk)
  | read key => exact answered_turn ht hx hc (hw (.openReader rfl))
  | put key source => exact answered_turn ht hx hc (hw (.openWriter rfl))
  | stat key => exact answered_turn ht hx hc (hw (.look rfl))
  | delete key => exact answered_turn ht hx hc (hw (.delete rfl))
  | copy sourceBucket sourceKey key => exact answered_turn ht hx hc (hw (.measure rfl))

/-- One step of an upload. -/
theorem upload_turn {t : Ticket} {c : Client} {u : Upload Writer}
    (hphase : task.phase = .uploading u) (ht : task.ticket = some t)
    (hx : m.pool.party? t = some (.holding c)) (hc : task.client = some c) :
    ∃ n, Turn env m task n ∧ (upload env id task u m).bare = (m.follow id n).bare := by
  have hw : ∀ {k : Work World Writer}, Works env c m.world task.visited (.uploading u) k →
      Works env c m.world task.visited task.phase k := fun h => hphase ▸ h
  unfold upload
  split
  · rename_i bytes hstep
    exact answered_turn ht hx hc (hw (.write hstep rfl))
  · rename_i u' hstep
    exact goOn_turn ht hx hc (hw (.read hstep))
  · rename_i ms u' hstep
    obtain ⟨alarms, alarm, e, hrings⟩ := alarmIn_eq m ms
    rw [e]
    exact ⟨_, .work ht hx hc (hw (.pause hstep)) (.keep hrings), rfl⟩
  · rename_i hstep
    exact answered_turn ht hx hc (hw (.flush hstep rfl))
  · rename_i e hstep
    exact invalidate_turn ht hx hc (hw (.broken hstep))

/-- A step of a task that has a client. -/
theorem resume_turn_of_holding (hplain : task.phase.isPlain = true) (h : task.Sound m.pool)
    (hs : task.phase.stage = .holding) :
    ∃ n, Turn env m task n ∧ (resume env id task m).bare = (m.follow id n).bare := by
  obtain ⟨t, c, ht, hx, hc⟩ := h.exists_client hs
  obtain ⟨phase, ticket, client, alarm, visited⟩ := task
  obtain rfl : ticket = some t := ht
  obtain rfl : client = some c := hc
  cases phase with
  | lent g => exact begin_turn rfl hplain rfl hx rfl
  | walking k =>
    simp only [resume]
    split
    · rename_i q hstep
      exact answered_turn rfl hx rfl (.ask hstep rfl)
    · rename_i k' hstep
      exact goOn_turn rfl hx rfl (.visit hstep)
    · rename_i k' result hstep
      cases result with
      | ok _ => exact settle_turn rfl hx rfl (.walked hstep)
      | error e => exact invalidate_turn rfl hx rfl (.stopped hstep)
  | listed k reply =>
    cases reply with
    | ok page => exact goOn_turn rfl hx rfl .listed
    | error e => exact invalidate_turn rfl hx rfl .unlisted
  | opened reply =>
    cases reply with
    | ok s => exact release_turn rfl hx rfl .opened
    | error e => exact invalidate_turn rfl hx rfl .unopened
  | accepted key source reply =>
    cases reply with
    | ok writer => exact goOn_turn rfl hx rfl .accepted
    | error e => exact invalidate_turn rfl hx rfl .unaccepted
  | uploading u => exact upload_turn rfl rfl hx rfl
  | wrote u reply =>
    simp only [resume]
    cases hreply : reply.bind (u.wrote ·) with
    | ok u' =>
      cases reply with
      | ok n => exact goOn_turn rfl hx rfl (.wrote hreply)
      | error e => cases hreply
    | error e => exact invalidate_turn rfl hx rfl (.unwritten hreply)
  | flushed u reply =>
    cases reply with
    | ok _ => exact answered_turn rfl hx rfl (.finish rfl)
    | error e => exact invalidate_turn rfl hx rfl .unflushed
  | completed u reply =>
    cases reply with
    | ok _ => exact settle_turn rfl hx rfl .completed
    | error e => exact invalidate_turn rfl hx rfl .incomplete
  | found reply =>
    cases reply with
    | ok a => exact settle_turn rfl hx rfl .found
    | error e =>
      simp only [resume]
      cases hmissing : e.isNotFound with
      | true => exact settle_turn rfl hx rfl (.missing hmissing)
      | false => exact invalidate_turn rfl hx rfl (.unfound hmissing)
  | deleted key reply =>
    cases reply with
    | ok _ => exact settle_turn rfl hx rfl .deleted
    | error e => exact invalidate_turn rfl hx rfl .undeleted
  | measured sourceBucket sourceKey key reply =>
    cases reply with
    | ok a => exact answered_turn rfl hx rfl (.copy rfl)
    | error e => exact invalidate_turn rfl hx rfl .unmeasured
  | copied sourceBucket sourceKey key size reply =>
    cases reply with
    | ok _ => exact settle_turn rfl hx rfl .copied
    | error e => exact invalidate_turn rfl hx rfl .uncopied
  | _ => cases hs

/-- A task closes the pool. -/
theorem closePool_turn {result : Except StoreError Outcome} (h : Shuts task.phase result) :
    ∃ n, Turn env m task n ∧ (closePool env id task result m).bare = (m.follow id n).bare := by
  unfold closePool
  split
  · rename_i p hclose
    exact ⟨_, .shut h hclose, rfl⟩
  · rename_i p t c hclose
    obtain ⟨alarm, hrings, e⟩ := bare_answered (m.withPool p) id { task with ticket := some t }
      (env.backend.destroy c m.world) (.closing · result)
    exact ⟨_, .drainPool h hclose rfl hrings, e⟩

/-- A request begins. -/
theorem start_turn {r : Request} (hphase : task.phase = .start r) (hr : r.isOperation = true) :
    ∃ n, Turn env m task n ∧ (start env id task r m).bare = (m.follow id n).bare := by
  cases r with
  | borrow => cases hr
  | invalidate t => cases hr
  | walk path recursive visitor => exact borrow_turn hphase rfl
  | read path => exact borrow_turn hphase rfl
  | put path source => exact borrow_turn hphase rfl
  | stat path => exact borrow_turn hphase rfl
  | delete path => exact borrow_turn hphase rfl
  | deleteDisk path =>
    simp only [start]
    cases hkey : env.setup.roots.diskKey path with
    | ok key => exact borrow_turn hphase (by simp [Request.goal, hkey, Except.map])
    | error e => exact ⟨_, .deny hphase (by simp [Request.goal, hkey, Except.map]), rfl⟩
  | copy sourceBucket sourceKey path =>
    simp only [start]
    cases hkey : env.setup.roots.diskKey path with
    | ok key => exact borrow_turn hphase (by simp [Request.goal, hkey, Except.map])
    | error e => exact ⟨_, .deny hphase (by simp [Request.goal, hkey, Except.map]), rfl⟩
  | closePool => exact closePool_turn (hphase ▸ .closePool)
  | close =>
    simp only [start]
    cases hdirect : m.direct with
    | some c =>
      obtain ⟨alarm, hrings, e⟩ := bare_answered { m with direct := none } id task
        (env.backend.destroy c m.world) fun reply => .disconnected (reply.map fun () => .unit)
      exact ⟨_, .disconnect hphase hdirect rfl hrings, e⟩
    | none => exact ⟨_, .apart hphase hdirect, rfl⟩

/-- A task reads what it has opened. -/
theorem drain_turn {rest : Stream} {data : ByteArray} (hphase : task.phase = .draining rest data) :
    ∃ n, Turn env m task n ∧ (drain id task rest data m).bare = (m.follow id n).bare := by
  have hzero : Rings none 0 := by simp [Rings]
  unfold drain
  split
  · rename_i bytes rest' hpull
    exact ⟨_, .drain hphase (.read hpull) hzero, rfl⟩
  · rename_i ms rest' hpull
    obtain ⟨alarms, alarm, e, hrings⟩ := alarmIn_eq m ms
    rw [e]
    exact ⟨_, .drain hphase (.pause hpull) hrings, rfl⟩
  · rename_i e hpull
    exact ⟨_, .drain hphase (.broken hpull) hzero, rfl⟩
  · rename_i hpull
    exact ⟨_, .drain hphase (.finished hpull) hzero, rfl⟩

/-- **The steps of a task.** Whatever a task does with a step, it is one of the turns; a task that
is over or in line may also do nothing. -/
theorem resume_turn (hplain : task.phase.isPlain = true) (h : task.Sound m.pool) :
    (resume env id task m = m ∧
        ((∃ result, task.phase = .ended result) ∨ ∃ g, task.phase = .line g)) ∨
      ∃ n, Turn env m task n ∧ (resume env id task m).bare = (m.follow id n).bare := by
  by_cases hs : task.phase.stage = .holding
  · exact Or.inr (resume_turn_of_holding hplain h hs)
  -- outside of that, a task that has to have a party has one
  have hparty := h.exists_party
  obtain ⟨phase, ticket, client, alarm, visited⟩ := task
  cases phase with
  | start r => exact Or.inr (start_turn rfl hplain)
  | line g =>
    obtain ⟨t, -, rfl, -, -⟩ := hparty nofun
    obtain ⟨p, progress, hproceed⟩ : ∃ p progress,
        m.pool.proceed (isValid env m) m.now t = (p, progress) := ⟨_, _, rfl⟩
    simp only [resume, hproceed]
    cases progress with
    | blocked => exact Or.inl ⟨rfl, Or.inr ⟨g, rfl⟩⟩
    | _ => exact Or.inr (acquire_turn (.proceed rfl rfl hproceed nofun) rfl)
  | rejected g reply =>
    obtain ⟨t, -, rfl, -, -⟩ := hparty nofun
    exact Or.inr (acquire_turn (.rejected rfl rfl rfl) rfl)
  | created g reply =>
    obtain ⟨t, -, rfl, -, -⟩ := hparty nofun
    exact Or.inr (acquire_turn (.created rfl rfl rfl) rfl)
  | draining rest data => exact Or.inr (drain_turn rfl)
  | invalidated reply result =>
    obtain ⟨t, -, rfl, -, -⟩ := hparty nofun
    exact Or.inr ⟨_, .invalidated rfl rfl, rfl⟩
  | disconnected result => exact Or.inr (closePool_turn .disconnected)
  | closing reply result =>
    obtain ⟨t, -, rfl, -, -⟩ := hparty nofun
    simp only [resume]
    split
    · rename_i p c hclosed
      obtain ⟨alarm', hrings, e⟩ := bare_answered ((m.note (destroyLog reply)).withPool p) id
        ⟨.closing reply result, some t, client, alarm, visited⟩ (env.backend.destroy c m.world)
        (.closing · result)
      exact Or.inr ⟨_, .closeNext rfl rfl hclosed rfl hrings, e⟩
    · rename_i p hclosed
      exact Or.inr ⟨_, .closeLast rfl rfl hclosed, rfl⟩
  | discard =>
    obtain ⟨t, x, rfl, hx, hstands⟩ := hparty nofun
    cases hstands with
    | discarding c =>
      obtain ⟨p, hp⟩ : ∃ p, m.pool.startDestroy t = (p, some c) := by
        simp only [Pool.startDestroy, hx]
        exact ⟨_, rfl⟩
      obtain ⟨alarm', hrings, e⟩ := bare_answered (m.withPool p) id
        ⟨.discard, some t, none, alarm, visited⟩ (env.backend.destroy c m.world) .discarded
      simp only [resume, hp]
      exact Or.inr ⟨_, .startDestroy rfl rfl hx hp rfl hrings, e⟩
  | discarded reply =>
    obtain ⟨t, -, rfl, -, -⟩ := hparty nofun
    exact Or.inr ⟨_, .destroyed rfl rfl, rfl⟩
  | ended result => exact Or.inl ⟨rfl, Or.inl ⟨result, rfl⟩⟩
  | _ => exact absurd rfl hs

/-- A task that has no alarm to wait for goes on. -/
theorem step_eq_resume (htask : m.task? id = some task)
    (hwait : task.alarm.any (m.now < ·.time) = false) : m.step env id = resume env id task m := by
  simp only [step, htask, hwait, Bool.false_eq_true, if_false]
  split <;> rfl

/-- A step of a task makes a turn, unless the task has to wait or is over. -/
theorem step_turn (hplain : ∀ task, m.task? id = some task → task.phase.isPlain = true)
    (h : ∀ task, m.task? id = some task → task.Sound m.pool) (env : Env World Writer) :
    (m.step env id = m ∧ m.status id ≠ .running) ∨
      ∃ task n, m.task? id = some task ∧ Turn env m task n ∧
        (m.step env id).bare = (m.follow id n).bare := by
  cases htask : m.task? id with
  | none =>
    exact Or.inl ⟨by simp only [step, htask], by simp [status, htask]⟩
  | some task =>
    -- where the task does not wait, a step is what the inversion is about
    have hresume : m.step env id = resume env id task m →
        (m.step env id = m ∧ m.status id ≠ .running) ∨
          ∃ task' n, some task = some task' ∧ Turn env m task' n ∧
            (m.step env id).bare = (m.follow id n).bare := by
      intro e
      rw [e]
      rcases resume_turn (hplain task htask) (h task htask) with ⟨e', hstill⟩ | ⟨n, hturn, e'⟩
      · refine Or.inl ⟨e', ?_⟩
        rcases hstill with ⟨result, hphase⟩ | ⟨g, hphase⟩
        · simp [status, htask, hphase]
        · simp [status, htask, hphase]
      · exact Or.inr ⟨task, n, rfl, hturn, e'⟩
    by_cases hline : ∃ g, task.phase = .line g
    · obtain ⟨g, hphase⟩ := hline
      apply hresume
      simp only [step, htask, hphase]
    · have hne : ∀ g, task.phase ≠ .line g := fun g hg => hline ⟨g, hg⟩
      by_cases hwait : task.alarm.any (m.now < ·.time) = true
      · refine Or.inl ⟨?_, ?_⟩
        · simp [step, htask, hwait]
        · simp only [status, htask, hwait]
          split <;> nofun
      · apply hresume
        exact step_eq_resume htask (by simpa using hwait)

/-- **The cancellation of a task.** -/
theorem cancel_cut (htask : m.task? id = some task) (h : task.Sound m.pool) :
    ∃ p world left, Cut env m task p world left ∧
      (m.cancel env id).bare = (m.without id p world left).bare := by
  obtain ⟨phase, ticket, client, alarm, visited⟩ := task
  -- only a task that has a client can have a writer
  cases h with
  | apart hs ht _ =>
    obtain rfl : ticket = none := ht
    refine ⟨_, _, _, .apart rfl, ?_⟩
    simp only [cancel, htask]
    cases phase with
    | uploading _ | wrote _ _ | flushed _ _ | completed _ _ => cases hs
    | _ => rfl
  | @party t x ht hx hstands =>
    obtain rfl : ticket = some t := ht
    simp only [cancel, htask, remove, hx]
    generalize hs : Phase.stage phase = stage at hstands
    cases hstands with
    | holding c =>
      obtain ⟨p, hp⟩ : ∃ p, m.pool.drop t = (p, some c) := by
        simp only [Pool.drop, hx]
        exact ⟨_, rfl⟩
      simp only [drop, hp]
      cases phase with
      | uploading u | wrote u _ | flushed u _ | completed u _ =>
        exact ⟨_, _, _, .drop rfl hx rfl hp (Or.inr ⟨u.writer, rfl⟩), rfl⟩
      | _ => exact ⟨_, _, _, .drop rfl hx rfl hp (Or.inl rfl), rfl⟩
    | _ =>
      cases phase with
      | uploading _ | wrote _ _ | flushed _ _ | completed _ _ => cases hs
      | _ => exact ⟨_, _, _, .cancel rfl hx rfl, rfl⟩

end Inversion

end Machine

end Depot.Storage
