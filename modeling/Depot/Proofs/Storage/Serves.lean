import Depot.Proofs.Storage.Parties
import Depot.Proofs.Upload

/-!
# What a task is about

Whatever a task does, it stays about its request: the goals that it pursues and the keys that it
works on are those of the request (`Turn.serves`), and the writer that it has was opened on its own
client under its own key (`Turn.bound`). Both are facts about a single task; `Happens.task?` says
where the tasks after an event come from.
-/

set_option autoImplicit false

namespace Depot.Storage

variable {World Writer : Type} {env : Env World Writer} {m m' : Machine World Writer}
  {task task' : Task Writer} {n : Next World Writer} {r : Request} {setup : Setup}

/-! ## Requests -/

/-- A client is borrowed for a goal to carry a request out. -/
def Request.Wants (setup : Setup) (r : Request) (g : Goal) : Prop := r.goal setup = some (.ok g)

/-- Only who asks for an object looks one up. -/
theorem Request.Wants.exists_stat {key : String} (h : r.Wants setup (.stat key)) :
    ∃ path, r = .stat path := by
  cases r with
  | stat path => exact ⟨path, rfl⟩
  | deleteDisk path | copy _ _ path =>
    cases hkey : setup.roots.diskKey path <;> simp [Wants, goal, hkey, Except.map] at h
  | _ => cases h

/-- Only who asks for an object reads one. -/
theorem Request.Wants.exists_read {key : String} (h : r.Wants setup (.read key)) :
    ∃ path, r = .read path := by
  cases r with
  | read path => exact ⟨path, rfl⟩
  | deleteDisk path | copy _ _ path =>
    cases hkey : setup.roots.diskKey path <;> simp [Wants, goal, hkey, Except.map] at h
  | _ => cases h

/-- Only a request to store has a goal to store. -/
theorem Request.Wants.exists_put {key : String} {source : Stream}
    (h : r.Wants setup (.put key source)) :
    ∃ path, r = .put path source ∧ key = setup.roots.primaryKey path := by
  cases r with
  | put path source' =>
    cases h
    exact ⟨path, rfl, rfl⟩
  | deleteDisk path | copy _ _ path =>
    simp only [Wants, goal, Option.some.injEq] at h
    cases hkey : setup.roots.diskKey path <;> simp [hkey, Except.map] at h
  | _ => cases h

/-- What a task in a phase does is done for a request. -/
def Phase.Serves (setup : Setup) (r : Request) : Phase Writer → Prop
  | start r' => r' = r
  | line g => r.Wants setup g
  | rejected g _ => r.Wants setup g
  | created g _ => r.Wants setup g
  | lent g => r.Wants setup g
  | walking _ => ∃ w, r.Wants setup (.walk w)
  | listed _ _ => ∃ w, r.Wants setup (.walk w)
  | opened _ => ∃ key, r.Wants setup (.read key)
  | draining _ _ => ∃ key, r.Wants setup (.read key)
  | accepted key _ _ => ∃ source, r.Wants setup (.put key source)
  | uploading u => ∃ source, r.Wants setup (.put u.key source)
  | wrote u _ => ∃ source, r.Wants setup (.put u.key source)
  | flushed u _ => ∃ source, r.Wants setup (.put u.key source)
  | completed u _ => ∃ source, r.Wants setup (.put u.key source)
  | found _ => ∃ key, r.Wants setup (.stat key)
  | deleted key _ => r.Wants setup (.delete key)
  | measured sourceBucket sourceKey key _ => r.Wants setup (.copy sourceBucket sourceKey key)
  | copied sourceBucket sourceKey key _ _ => r.Wants setup (.copy sourceBucket sourceKey key)
  | disconnected _ => r = .close
  | closing _ _ => r = .closePool ∨ r = .close
  | discard => False
  | discarded _ => False
  | invalidated _ _ => True
  | ended _ => True

/-- A task with a client stays about its request while it keeps the client. -/
theorem Works.serves_of_keep {c : Client} {w world : World} {visited visited' : List Entry}
    {phase phase' : Phase Writer} {delay : Nat}
    (h : Works env c w visited phase (.keep phase' world delay visited'))
    (hs : phase.Serves setup r) : phase'.Serves setup r := by
  cases h with
  | walk | openReader _ | openWriter _ | look _ => exact ⟨_, hs⟩
  | read hstep =>
    obtain ⟨-, _, _, -, rfl⟩ := Upload.pull_of_step_read hstep
    exact hs
  | pause hstep =>
    obtain ⟨-, _, -, rfl⟩ := Upload.pull_of_step_pause hstep
    exact hs
  | wrote hwrote =>
    obtain ⟨-, rfl⟩ := Upload.eq_of_wrote hwrote
    exact hs
  | _ => exact hs

theorem Works.serves_of_giveBack {c : Client} {w world : World} {visited visited' : List Entry}
    {phase phase' : Phase Writer}
    (h : Works env c w visited phase (.giveBack phase' world visited'))
    (hs : phase.Serves setup r) : phase'.Serves setup r := by
  cases h with
  | opened => exact hs
  | _ => trivial

theorem Asks.wants {g : Goal} {t : Ticket} {p : Pool} {progress : Pool.Progress}
    (h : Asks env m task g t p progress) (hs : task.phase.Serves env.setup r) :
    r.Wants env.setup g := by
  cases h with
  | request hphase hgoal _ =>
    rw [hphase] at hs
    obtain rfl := hs
    exact hgoal
  | proceed hphase _ _ _ | rejected hphase _ _ | created hphase _ _ =>
    rw [hphase] at hs
    exact hs

/-- **A task stays about its request.** -/
theorem Turn.serves (h : Turn env m task n) (hs : task.phase.Serves env.setup r) :
    n.task.phase.Serves env.setup r := by
  cases h with
  | acquire hasks hn =>
    cases hn with
    | refuse => trivial
    | _ => exact hasks.wants hs
  | work _ _ _ hw hn =>
    cases hn with
    | keep _ => exact hw.serves_of_keep hs
    | giveBack _ _ | giveLate _ _ => exact hw.serves_of_giveBack hs
    | destroy _ _ _ => trivial
  | drain hphase hdrains _ =>
    rw [hphase] at hs
    cases hdrains with
    | read _ | pause _ => exact hs
    | broken _ | finished _ => trivial
  | disconnect hphase _ _ _ | apart hphase _ =>
    rw [hphase] at hs
    exact hs.symm
  | drainPool hshuts _ _ _ =>
    generalize task.phase = phase at hshuts hs
    cases hshuts with
    | closePool => exact Or.inl hs.symm
    | disconnected => exact Or.inr hs
  | closeNext hphase _ _ _ _ =>
    rw [hphase] at hs
    exact hs
  | startDestroy hphase _ _ _ _ _ =>
    rw [hphase] at hs
    exact hs
  | _ => trivial

/-! ## Turns at one place -/

/-- Whether a task in a phase has not returned and has had no client. -/
def Phase.seeks : Phase Writer → Bool
  | start _ => true
  | line _ => true
  | rejected _ _ => true
  | created _ _ => true
  | disconnected _ => true
  | closing _ _ => true
  | _ => false

theorem Asks.seeks {g : Goal} {t : Ticket} {p : Pool} {progress : Pool.Progress}
    (h : Asks env m task g t p progress) : task.phase.seeks = true := by
  cases h with
  | request hphase _ _ | proceed hphase _ _ _ | rejected hphase _ _ | created hphase _ _ =>
    rw [hphase]
    rfl

theorem Shuts.seeks {phase : Phase Writer} {result : Except StoreError Outcome}
    (h : Shuts phase result) : phase.seeks = true := by
  cases h <;> rfl

/-- A task that has no client yet goes on without one, gets one, or ends. -/
theorem Turn.of_seeks (h : Turn env m task n) (hs : task.phase.seeks = true)
    (hc : task.client = none) :
    (n.task.phase.seeks = true ∧ n.task.client = none) ∨
      (∃ g c, n.task.phase = .lent g ∧ n.task.client = some c) ∨
      ∃ result, n.task.phase = .ended result ∧ n.task.client = none := by
  cases h with
  | acquire _ hn =>
    cases hn with
    | refuse => exact Or.inr (Or.inr ⟨_, rfl, hc⟩)
    | queue _ | reject _ _ | create _ _ => exact Or.inl ⟨rfl, hc⟩
    | lend => exact Or.inr (Or.inl ⟨_, _, rfl, rfl⟩)
  | work _ _ hc' _ _ =>
    rw [hc] at hc'
    cases hc'
  | disconnect _ _ _ _ | apart _ _ | drainPool _ _ _ _ | closeNext _ _ _ _ _ =>
    exact Or.inl ⟨rfl, hc⟩
  | deny _ _ | shut _ _ | closeLast _ _ _ => exact Or.inr (Or.inr ⟨_, rfl, hc⟩)
  | invalidated hphase _ | drain hphase _ _ | startDestroy hphase _ _ _ _ _ | destroyed hphase _ =>
    rw [hphase] at hs
    cases hs

/-- A task that has a client works with it. -/
theorem Turn.of_holding (h : Turn env m task n) (hs : task.phase.stage = .holding) :
    ∃ t c k, task.ticket = some t ∧ m.pool.party? t = some (.holding c) ∧
      task.client = some c ∧ Works env c m.world task.visited task.phase k ∧
      Settles env m task t c k n := by
  have hseeks : task.phase.seeks ≠ true := by
    intro h
    generalize task.phase = phase at hs h
    cases phase <;> simp [Phase.stage, Phase.seeks] at hs h
  cases h with
  | work ht hx hc hw hn => exact ⟨_, _, _, ht, hx, hc, hw, hn⟩
  | acquire hasks _ => exact absurd hasks.seeks hseeks
  | shut hshuts _ | drainPool hshuts _ _ _ => exact absurd hshuts.seeks hseeks
  | deny hphase _ | invalidated hphase _ | drain hphase _ _ | disconnect hphase _ _ _
  | apart hphase _ | closeNext hphase _ _ _ _ | closeLast hphase _ _
  | startDestroy hphase _ _ _ _ _ | destroyed hphase _ =>
    rw [hphase] at hs
    cases hs

/-- A task that has destroyed its client ends. -/
theorem Turn.of_invalidated (h : Turn env m task n) {reply : Except StoreError Unit}
    {result : Except StoreError Outcome} (hphase : task.phase = .invalidated reply result) :
    n.task = { task with phase := .ended result, ticket := none, alarm := none } := by
  have hseeks : task.phase.seeks ≠ true := by
    rw [hphase]
    nofun
  cases h with
  | invalidated hphase' _ =>
    rw [hphase] at hphase'
    cases hphase'
    rfl
  | work _ _ _ hw _ =>
    rw [hphase] at hw
    cases hw
  | acquire hasks _ => exact absurd hasks.seeks hseeks
  | shut hshuts _ | drainPool hshuts _ _ _ => exact absurd hshuts.seeks hseeks
  | deny hphase' _ | drain hphase' _ _ | disconnect hphase' _ _ _
  | apart hphase' _ | closeNext hphase' _ _ _ _ | closeLast hphase' _ _
  | startDestroy hphase' _ _ _ _ _ | destroyed hphase' _ =>
    rw [hphase] at hphase'
    cases hphase'

/-- Whether a request is at its end when its client is settled: it neither keeps the client, nor
reads on without it, nor closes anything. -/
def Request.endsSettled : Request → Bool
  | borrow | invalidate _ | read _ | closePool | close => false
  | _ => true

/-- **A request that is at its end when its client is settled** is refused, looks for a client,
works with it, or ends behind its destruction. -/
theorem Turn.of_endsSettled (h : Turn env m task n) (hserves : task.phase.Serves env.setup r)
    (hr : r.endsSettled = true) :
    (∃ e, task.phase = .start r ∧ r.goal env.setup = some (.error e) ∧
      n = ⟨m.pool, m.world, m.direct, { task with phase := .ended (.error e), alarm := none },
        none⟩) ∨
      (∃ g t p progress, Asks env m task g t p progress ∧
        Acquires env m task g t p progress n) ∨
      (∃ t c k, task.client = some c ∧ Works env c m.world task.visited task.phase k ∧
        Settles env m task t c k n) ∨
      ∃ t reply result, task.phase = .invalidated reply result ∧
        n = ⟨m.pool.invalidated t, m.world, m.direct,
          { task with phase := .ended result, ticket := none, alarm := none }, none⟩ := by
  cases h with
  | deny hphase hgoal =>
    rw [hphase] at hserves
    cases hserves
    exact Or.inl ⟨_, hphase, hgoal, rfl⟩
  | acquire hasks hn => exact Or.inr (Or.inl ⟨_, _, _, _, hasks, hn⟩)
  | work _ _ hc hw hn => exact Or.inr (Or.inr (Or.inl ⟨_, _, _, hc, hw, hn⟩))
  | invalidated hphase _ => exact Or.inr (Or.inr (Or.inr ⟨_, _, _, hphase, rfl⟩))
  | drain hphase _ _ =>
    rw [hphase] at hserves
    obtain ⟨key, hwants⟩ := hserves
    obtain ⟨path, rfl⟩ := hwants.exists_read
    cases hr
  | shut hshuts _ | drainPool hshuts _ _ _ =>
    -- whoever closes has no goal
    generalize task.phase = phase at hshuts hserves
    cases hshuts with
    | closePool | disconnected =>
      cases hserves
      cases hr
  | disconnect hphase _ _ _ | apart hphase _ =>
    rw [hphase] at hserves
    cases hserves
    cases hr
  | closeNext hphase _ _ _ _ | closeLast hphase _ _ =>
    rw [hphase] at hserves
    rcases hserves with rfl | rfl
    · cases hr
    · cases hr
  | startDestroy hphase _ _ _ _ _ | destroyed hphase _ =>
    rw [hphase] at hserves
    exact hserves.elim

/-- A task that has returned reads what it has opened, if anything. -/
theorem Turn.of_returned (h : Turn env m task n) {result : Except StoreError Unit}
    (hr : task.returned? = some result) :
    n.pool = m.pool ∧ n.task.phase.stage = .apart ∧ n.task.client = task.client ∧
      n.task.returned? = some result := by
  have hphase : ∀ phase : Phase Writer, task.phase = phase →
      (∃ rest data, phase = .draining rest data) ∨ ∃ result, phase = .ended result := by
    intro phase hphase
    unfold Task.returned? at hr
    rw [hphase] at hr
    cases phase with
    | draining rest data => exact Or.inl ⟨rest, data, rfl⟩
    | ended result => exact Or.inr ⟨result, rfl⟩
    | _ => cases hr
  have hseeks : task.phase.seeks ≠ true := by
    rcases hphase _ rfl with ⟨rest, data, e⟩ | ⟨result, e⟩
    · rw [e]
      nofun
    · rw [e]
      nofun
  cases h with
  | drain hdraining hdrains _ =>
    have hok : result = .ok () := by
      unfold Task.returned? at hr
      rw [hdraining] at hr
      cases hr
      rfl
    subst hok
    cases hdrains <;> exact ⟨rfl, rfl, rfl, rfl⟩
  | work _ _ _ hw _ =>
    generalize task.phase = phase at hw hphase
    rcases hphase phase rfl with ⟨rest, data, rfl⟩ | ⟨result, rfl⟩
    · cases hw
    · cases hw
  | acquire hasks _ => exact absurd hasks.seeks hseeks
  | shut hshuts _ | drainPool hshuts _ _ _ => exact absurd hshuts.seeks hseeks
  | deny hphase' _ | invalidated hphase' _ | disconnect hphase' _ _ _
  | apart hphase' _ | closeNext hphase' _ _ _ _ | closeLast hphase' _ _
  | startDestroy hphase' _ _ _ _ _ | destroyed hphase' _ =>
    rcases hphase _ hphase' with ⟨_, _, h⟩ | ⟨_, h⟩
    · cases h
    · cases h

/-- A task that has ended makes no step. -/
theorem Turn.phase_ne_ended (h : Turn env m task n) (result : Except StoreError Outcome) :
    task.phase ≠ .ended result := by
  intro hended
  cases h with
  | acquire hasks _ =>
    have hseeks := hasks.seeks
    rw [hended] at hseeks
    cases hseeks
  | work _ _ _ hw _ =>
    have hstage := hw.stage_eq
    rw [hended] at hstage
    cases hstage
  | shut hshuts _ | drainPool hshuts _ _ _ =>
    rw [hended] at hshuts
    cases hshuts
  | deny hphase _ | invalidated hphase _ | drain hphase _ _ | disconnect hphase _ _ _
  | apart hphase _ | closeNext hphase _ _ _ _ | closeLast hphase _ _
  | startDestroy hphase _ _ _ _ _ | destroyed hphase _ =>
    rw [hended] at hphase
    cases hphase

/-- A task that has neither ended nor stands in line can make a step when its alarm has gone off. -/
theorem Machine.status_eq_running {id : TaskId} (htask : m.task? id = some task)
    (hended : ∀ result, task.phase ≠ .ended result) (hline : ∀ g, task.phase ≠ .line g)
    (halarm : ∀ a, task.alarm = some a → a.time ≤ m.now) : m.status id = .running := by
  have hpast : task.alarm.any (m.now < ·.time) = false := by
    cases h : task.alarm with
    | none => rfl
    | some a => simpa using halarm a h
  unfold Machine.status
  rw [htask]
  simp only [hpast, Bool.false_eq_true, if_false]

/-- Such a task makes a turn with its step. -/
theorem Orderly.exists_turn_of_step (ho : Orderly m) (env : Env World Writer) {id : TaskId}
    (htask : m.task? id = some task) (hended : ∀ result, task.phase ≠ .ended result)
    (hline : ∀ g, task.phase ≠ .line g) (halarm : ∀ a, task.alarm = some a → a.time ≤ m.now) :
    ∃ n, Turn env m task n ∧ (m.happen env (.step id)).bare = (m.follow id n).bare := by
  have hstatus := Machine.status_eq_running htask hended hline halarm
  have hh := ho.happens env (.step id)
  generalize m.happen env (.step id) = m' at hh
  cases hh with
  | still hwaits => exact absurd hstatus hwaits
  | turn htask' hturn hm' =>
    rw [htask] at htask'
    cases htask'
    exact ⟨_, hturn, hm'⟩

/-! ## Writers -/

/-- The writer that a task has, with the key that it writes to. -/
def Phase.writer? : Phase Writer → Option (String × Writer)
  | accepted key _ reply => reply.toOption.map (key, ·)
  | uploading u => some (u.key, u.writer)
  | wrote u _ => some (u.key, u.writer)
  | flushed u _ => some (u.key, u.writer)
  | completed u _ => some (u.key, u.writer)
  | _ => none

/-- What a backend says of the writers that it opens for a client under a key, and keeps when it
writes. -/
structure Binds (env : Env World Writer) (W : Client → String → Writer → Prop) : Prop where
  opened : ∀ c key world writer,
    (env.backend.openWriter c env.setup.bucket key env.setup.options world).result = .ok writer →
      W c key writer
  wrote : ∀ c key writer bytes world,
    W c key writer → W c key (env.backend.write writer bytes world).1
  finished : ∀ c key writer world, W c key writer → W c key (env.backend.finish writer world).1

/-- The writer of a task is one that was opened for its client. -/
def Task.Bound (W : Client → String → Writer → Prop) (task : Task Writer) : Prop :=
  ∀ key writer, task.phase.writer? = some (key, writer) →
    ∃ c, task.client = some c ∧ W c key writer

variable {W : Client → String → Writer → Prop}

/-- Who has a client has a writer that was opened for this one. -/
theorem Task.Bound.of_client {c : Client} (h : task.Bound W) (hc : task.client = some c) :
    ∀ key writer, task.phase.writer? = some (key, writer) → W c key writer := by
  intro key writer hwriter
  obtain ⟨c', hc', hW⟩ := h key writer hwriter
  rw [hc] at hc'
  cases hc'
  exact hW

theorem Works.bound {c : Client} {w world : World} {visited visited' : List Entry}
    {phase phase' : Phase Writer} {delay : Nat} (hb : Binds env W)
    (h : Works env c w visited phase (.keep phase' world delay visited'))
    (hs : ∀ key writer, phase.writer? = some (key, writer) → W c key writer) :
    ∀ key writer, phase'.writer? = some (key, writer) → W c key writer := by
  cases h with
  | @openWriter key source a ha =>
    subst ha
    intro key' writer hwriter
    obtain ⟨writer', hresult, e⟩ := Option.map_eq_some_iff.1 hwriter
    cases e
    refine hb.opened c _ w writer ?_
    generalize (env.backend.openWriter c env.setup.bucket key env.setup.options w).result = reply
      at hresult ⊢
    cases reply with
    | ok writer' =>
      cases hresult
      rfl
    | error e => cases hresult
  | accepted => exact hs
  | @write u bytes writer a hstep hwrite =>
    rintro _ _ ⟨⟩
    have hwriter : writer = (env.backend.write u.writer bytes w).1 := by rw [hwrite]
    rw [hwriter]
    exact hb.wrote c u.key u.writer bytes w (hs u.key u.writer rfl)
  | read hstep =>
    obtain ⟨-, _, _, -, rfl⟩ := Upload.pull_of_step_read hstep
    exact hs
  | pause hstep =>
    obtain ⟨-, _, -, rfl⟩ := Upload.pull_of_step_pause hstep
    exact hs
  | flush _ _ => exact hs
  | wrote hwrote =>
    obtain ⟨-, rfl⟩ := Upload.eq_of_wrote hwrote
    exact hs
  | @finish u writer a hfinish =>
    rintro _ _ ⟨⟩
    have hwriter : writer = (env.backend.finish u.writer w).1 := by rw [hfinish]
    rw [hwriter]
    exact hb.finished c u.key u.writer w (hs u.key u.writer rfl)
  | _ => nofun

/-- **A task keeps the writer that was opened for it.** -/
theorem Turn.bound (hb : Binds env W) (h : Turn env m task n)
    (hs : task.Bound W) : n.task.Bound W := by
  cases h with
  | acquire _ hn => cases hn <;> nofun
  | @work _ c _ _ _ _ hc hw hn =>
    cases hn with
    | keep _ =>
      intro key writer hwriter
      exact ⟨c, hc, hw.bound hb (hs.of_client hc) key writer hwriter⟩
    | giveBack _ _ | giveLate _ _ =>
      -- a task gives its client back when it has let go of its writer
      intro key writer hwriter
      generalize task.phase = phase at hw
      cases hw <;> cases hwriter
    | destroy _ _ _ => nofun
  | drain _ hdrains _ =>
    intro key writer hwriter
    cases hdrains <;> cases hwriter
  | _ => nofun

/-! ## Where tasks come from -/

/-- A task after an event was there before, made a step, or is new. -/
theorem Happens.task? {e : Event} {id : TaskId} (h : Happens env m e m')
    (htask' : m'.task? id = some task') :
    m.task? id = some task' ∨
      (∃ task n, e = .step id ∧ m.task? id = some task ∧ Turn env m task n ∧ task' = n.task ∧
        m'.bare = (m.follow id n).bare) ∨
      id = m.nextTask ∧ ((∃ r, e = .request r ∧ task' = .ofRequest Writer r) ∨
        ∃ t, task' = .ofDiscard Writer t) := by
  cases h with
  | request r =>
    rw [Machine.task?_add, Option.or_eq_some_iff] at htask'
    rcases htask' with hold | ⟨-, hnew⟩
    · exact Or.inl hold
    · split at hnew
      · rename_i hid
        cases hnew
        exact Or.inr (Or.inr ⟨hid, Or.inl ⟨r, rfl, rfl⟩⟩)
      · cases hnew
  | turn htask hturn hm' =>
    rw [Machine.task?_congr hm'] at htask'
    rcases Machine.of_task?_follow htask' with ⟨rfl, rfl⟩ | ⟨-, hold⟩ | ⟨-, rfl, t, -, rfl⟩
    · exact Or.inr (Or.inl ⟨_, _, rfl, htask, hturn, rfl, hm'⟩)
    · exact Or.inl hold
    · exact Or.inr (Or.inr ⟨rfl, Or.inr ⟨t, rfl⟩⟩)
  | cut _ _ _ hm' =>
    rw [Machine.task?_congr hm'] at htask'
    rcases Machine.of_task?_without htask' with ⟨-, hold⟩ | ⟨rfl, t, -, rfl⟩
    · exact Or.inl hold
    · exact Or.inr (Or.inr ⟨rfl, Or.inr ⟨t, rfl⟩⟩)
  | still _ => exact Or.inl htask'
  | spared _ => exact Or.inl htask'
  | pass ms => exact Or.inl htask'

/-- What holds of a new task and is kept by its steps holds of all tasks in a run. -/
theorem Orderly.forall_tasks {P : Task Writer → Prop} (ho : Orderly m) {events : List Event}
    (he : ∀ r, .request r ∈ events → r.isOperation = true)
    (hrequest : ∀ r, P (.ofRequest Writer r)) (hdiscard : ∀ t, P (.ofDiscard Writer t))
    (hturn : ∀ m task n, Turn env m task n → P task → P n.task)
    (hm : ∀ id task, m.task? id = some task → P task) :
    ∀ id task, (m.run env events).task? id = some task → P task := by
  induction events generalizing m with
  | nil => exact hm
  | cons e events ih =>
    obtain ⟨hhead, htail⟩ := isOperation_of_cons he
    refine ih (ho.happen hhead) htail ?_
    intro id task' htask'
    -- the task was there before, has made the step, or is new
    rcases (ho.happens env e).task? htask' with
      hold | ⟨task, n, -, htask, h, rfl, -⟩ | ⟨-, ⟨r, -, rfl⟩ | ⟨t, rfl⟩⟩
    · exact hm id task' hold
    · exact hturn m task n h (hm id task htask)
    · exact hrequest r
    · exact hdiscard t

/-- What the steps of a task keep holds of it in a run for as long as it is there. -/
theorem Orderly.forall_task {P : Task Writer → Prop} {id : TaskId} (ho : Orderly m)
    {events : List Event} (he : ∀ r, .request r ∈ events → r.isOperation = true)
    (hid : id < m.nextTask) (hturn : ∀ m task n, Turn env m task n → P task → P n.task)
    (hm : ∀ task, m.task? id = some task → P task) :
    ∀ task, (m.run env events).task? id = some task → P task := by
  induction events generalizing m with
  | nil => exact hm
  | cons e events ih =>
    obtain ⟨hhead, htail⟩ := isOperation_of_cons he
    have hh := ho.happens env e
    refine ih (ho.happen hhead) htail (Nat.lt_of_lt_of_le hid hh.nextTask_le) ?_
    intro task' htask'
    rcases hh.task? htask' with hold | ⟨task, n, -, htask, h, rfl, -⟩ | ⟨hnew, -⟩
    · exact hm task' hold
    · exact hturn m task n h (hm task htask)
    · -- the number of the task is taken already
      exact absurd hid (hnew ▸ Nat.lt_irrefl _)

/-- An operation stays about its request in a run. -/
theorem Orderly.serves {events : List Event} (ho : Orderly m) (env : Env World Writer)
    (he : ∀ r', .request r' ∈ Event.request r :: events → r'.isOperation = true) :
    ∀ task, (m.run env (.request r :: events)).task? m.nextTask = some task →
      task.phase.Serves env.setup r := by
  obtain ⟨hhead, htail⟩ := isOperation_of_cons he
  refine (ho.happen hhead).forall_task htail (Nat.lt_succ_self _) (fun _ _ _ h => h.serves) ?_
  intro task htask
  have hnew : (m.happen env (.request r)).task? m.nextTask = _ := ho.task?_request r
  rw [hnew] at htask
  cases htask
  rfl

/-- At every moment of a run that begins with its request, an operation is about it. -/
theorem Orderly.serves_of_prefix {first after : List Event} (ho : Orderly m)
    (env : Env World Writer)
    (he : ∀ r', .request r' ∈ Event.request r :: after → r'.isOperation = true)
    (hfirst : first <+: .request r :: after) :
    ∀ task, (m.run env first).task? m.nextTask = some task → task.phase.Serves env.setup r := by
  cases first with
  | nil =>
    -- before the request there is no such task
    intro task htask
    rw [Machine.run_nil, ho.fresh _ (Nat.le_refl _)] at htask
    cases htask
  | cons e first =>
    have hmem : ∀ r', .request r' ∈ e :: first → r'.isOperation = true :=
      fun r' hr' => he r' (hfirst.mem hr')
    rw [List.cons_prefix_cons] at hfirst
    obtain ⟨rfl, -⟩ := hfirst
    exact ho.serves env hmem

end Depot.Storage
