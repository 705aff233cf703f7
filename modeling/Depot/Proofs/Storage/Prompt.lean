import Depot.Proofs.Storage.Course
import Depot.Proofs.Storage.Schedule
import Depot.S3.Backend
import Depot.Storage.Traversal

/-!
# Walks that never wait

Nothing holds a walk up if all clients are fit and no call that is made for it takes time
(`Backend.Prompt`). Asked for when nothing goes on, such a walk has the storage to itself (`Sole`):
every step leaves it at one of its phases with no alarm (`Turn.strolls`), and is the same at any
time (`Sole.step_withTime`). So whatever happens meanwhile, the walk is where a number of its own
steps leads (`Sole.exists_run_eq`), and a schedule with the walk in front comes to the end that the
machine comes to (`Schedule.perform_walk_iff`).
-/

set_option autoImplicit false

namespace Depot

/-- A backend does not hold a walk up: all clients are fit, and no call that is made for a walk
takes time. -/
structure Backend.Prompt {World Writer : Type} (b : Backend World Writer) : Prop where
  valid : ∀ c w, b.isValid c w = true
  create : ∀ w, (b.create w).delay = 0
  destroy : ∀ c w, (b.destroy c w).delay = 0
  list : ∀ c q w, (b.list c q w).delay = 0

namespace Storage

variable {World Writer : Type} {env : Env World Writer} {m m' : Machine World Writer}
  {id id' : TaskId} {task : Task Writer} {n : Next World Writer} {visited : List Entry}

/-- The phases of a walk that finds the storage free. -/
inductive Phase.OfWalk : Phase Writer → Prop where
  | start (path : String) (recursive : Bool) (visitor : Visitor) :
      OfWalk (.start (.walk path recursive visitor))
  | created (w : Walk) (reply : Except StoreError Unit) : OfWalk (.created (.walk w) reply)
  | lent (w : Walk) : OfWalk (.lent (.walk w))
  | walking (w : Walk) : OfWalk (.walking w)
  | listed (w : Walk) (reply : Except StoreError Page) : OfWalk (.listed w reply)
  | invalidated (reply : Except StoreError Unit) (result : Except StoreError Outcome) :
      OfWalk (.invalidated reply result)
  | ended (result : Except StoreError Outcome) : OfWalk (.ended result)

/-- A walk gets on without waiting. Its party is the only one in the pool. -/
structure Task.Strolls (p : Pool) (task : Task Writer) : Prop where
  phase : task.phase.OfWalk
  alarm : task.alarm = none
  serving : ∃ party, p.Serving party ∧ party.map (·.1) = task.ticket

/-! ## One step -/

theorem Rings.eq_none {alarm : Option Alarm} {delay : Nat} (h : Rings alarm delay)
    (hdelay : delay = 0) : alarm = none := h.2 hdelay

theorem Asks.strolls {g : Goal} {t : Ticket} {p : Pool} {progress : Pool.Progress}
    (h : Asks env m task g t p progress) (hn : Acquires env m task g t p progress n)
    (hb : env.backend.Prompt) (hsound : task.Sound m.pool) (hs : task.Strolls m.pool) :
    n.task.Strolls n.pool ∧ n.left = none := by
  obtain ⟨hphase, -, party, hserving, hticket⟩ := hs
  cases h with
  | request hstart hgoal hrequest =>
    have hnone := (hsound.eq_none (by rw [hstart]; rfl)).1
    rw [hnone, Option.map_eq_none_iff] at hticket
    subst hticket
    rw [hstart] at hphase
    cases hphase
    cases hgoal
    -- nobody is in front, so there is a slot and perhaps a client, which is fit
    rcases hserving.request (fun c => hb.valid c m.world) hrequest with ⟨rfl, hp⟩ | ⟨c, rfl, hp⟩
    · cases hn with
      | create ha hrings =>
        subst ha
        exact ⟨⟨.created _ _, hrings.eq_none (hb.create m.world), _, hp, rfl⟩, rfl⟩
    · cases hn with
      | lend => exact ⟨⟨.lent _, rfl, _, hp, rfl⟩, rfl⟩
  | proceed hline _ _ _ | rejected hline _ _ =>
    rw [hline] at hphase
    cases hphase
  | @created reply hcreated ht heq =>
    obtain ⟨x, hx, hstands⟩ := hsound.party_of_ticket ht
    obtain rfl := hserving.eq (hticket.trans ht) hx
    rw [hcreated] at hphase hstands
    cases hphase
    generalize task.client = client at hstands
    cases hstands with
    | creating =>
      cases reply with
      | ok _ =>
        obtain ⟨c, rfl, hp⟩ := hserving.created heq
        cases hn with
        | lend => exact ⟨⟨.lent _, rfl, _, hp, rfl⟩, rfl⟩
      | error e =>
        obtain ⟨rfl, hp⟩ := hserving.created_error heq
        cases hn with
        | refuse => exact ⟨⟨.ended _, rfl, none, hp, rfl⟩, rfl⟩

/-- What a walk works out with its client does not take time. -/
inductive Work.OfWalk : Work World Writer → Prop where
  | keep {phase : Phase Writer} (world : World) (visited : List Entry) : phase.OfWalk →
      OfWalk (.keep phase world 0 visited)
  | giveBack {phase : Phase Writer} (world : World) (visited : List Entry) : phase.OfWalk →
      OfWalk (.giveBack phase world visited)
  | destroy (e : StoreError) (world : World) (visited : List Entry) :
      OfWalk (.destroy e world visited)

theorem Works.ofWalk {c : Client} {w : World} {phase : Phase Writer} {work : Work World Writer}
    (h : Works env c w visited phase work) (hb : env.backend.Prompt) (hphase : phase.OfWalk) :
    work.OfWalk := by
  cases hphase with
  | start _ _ _ | created _ _ | invalidated _ _ | ended _ => cases h
  | lent w =>
    cases h with
    | walk => exact .keep _ _ (.walking w)
  | walking w =>
    cases h with
    | @ask _ q a _ ha =>
      subst ha
      rw [Work.ofAnswer, hb.list]
      exact .keep _ _ (.listed w _)
    | visit _ => exact .keep _ _ (.walking _)
    | walked _ => exact .giveBack _ _ (.ended _)
    | stopped _ => exact .destroy _ _ _
  | listed w reply =>
    cases h with
    | listed => exact .keep _ _ (.walking _)
    | unlisted => exact .destroy _ _ _

theorem Settles.strolls {t : Ticket} {c : Client} {work : Work World Writer}
    (h : Settles env m task t c work n) (hb : env.backend.Prompt) (hwork : work.OfWalk)
    (hserving : m.pool.Serving (some (t, .holding c))) (ht : task.ticket = some t) :
    n.task.Strolls n.pool ∧ n.left = none := by
  cases h with
  | keep hrings =>
    cases hwork with
    | keep _ _ hphase => exact ⟨⟨hphase, hrings.eq_none rfl, _, hserving, ht.symm⟩, rfl⟩
  | giveBack _ hp =>
    cases hwork with
    | giveBack _ _ hphase => exact ⟨⟨hphase, rfl, none, (hserving.release hp).2, rfl⟩, rfl⟩
  | giveLate hclosed _ => exact absurd hclosed hserving.not_closed
  | destroy hp ha hrings =>
    subst ha
    exact ⟨⟨.invalidated _ _, hrings.eq_none (hb.destroy c _), _, hserving.invalidate hp, rfl⟩, rfl⟩

/-- **One step of a walk** leaves it at one of its phases with no alarm, and nobody else at work. -/
theorem Turn.strolls (h : Turn env m task n) (hb : env.backend.Prompt)
    (hsound : task.Sound m.pool) (hs : task.Strolls m.pool) :
    n.task.Strolls n.pool ∧ n.left = none := by
  have hs' := hs
  obtain ⟨hphase, halarm, party, hserving, hticket⟩ := hs'
  cases h with
  | acquire hasks hn => exact hasks.strolls hn hb hsound hs
  | work ht hx _ hw hn =>
    obtain rfl := hserving.eq (hticket.trans ht) hx
    exact hn.strolls hb (hw.ofWalk hb hphase) hserving ht
  | deny hstart hgoal =>
    rw [hstart] at hphase
    cases hphase
    cases hgoal
  | @invalidated t reply result hinvalidated ht =>
    obtain ⟨x, hx, hstands⟩ := hsound.party_of_ticket ht
    obtain rfl := hserving.eq (hticket.trans ht) hx
    rw [hinvalidated] at hstands
    generalize task.client = client at hstands
    cases hstands with
    | invalidating c => exact ⟨⟨.ended result, rfl, none, hserving.invalidated, rfl⟩, rfl⟩
  | shut hshuts _ | drainPool hshuts _ _ _ =>
    generalize task.phase = phase at hshuts hphase
    cases hshuts <;> cases hphase
  | drain hother _ _ | disconnect hother _ _ _ | apart hother _ | closeNext hother _ _ _ _
  | closeLast hother _ _ | startDestroy hother _ _ _ _ _ | destroyed hother _ =>
    rw [hother] at hphase
    cases hphase

/-! ## The machine meanwhile -/

/-- A walk has the storage to itself. -/
structure Sole (id : TaskId) (m : Machine World Writer) : Prop where
  orderly : Orderly m
  task : ∃ task, m.task? id = some task ∧ task.Strolls m.pool
  others : ∀ id' task, id' ≠ id → m.task? id' = some task → ∃ result, task.phase = .ended result

/-- A walk that is asked for when nothing goes on has the storage to itself. -/
theorem Resting.sole (h : Resting m) (env : Env World Writer) (path : String) (recursive : Bool)
    (visitor : Visitor) :
    Sole m.nextTask (m.add (.ofRequest Writer (.walk path recursive visitor))) where
  orderly := by
    have hop : ∀ r', Event.request (.walk path recursive visitor) = .request r' →
        r'.isOperation = true := by
      rintro r' ⟨⟩
      rfl
    have ho : Orderly (m.happen env (.request (.walk path recursive visitor))) :=
      h.orderly.happen hop
    exact ho
  task := ⟨_, h.orderly.task?_request _, .start path recursive visitor, rfl, none, h.serving, rfl⟩
  others id' task' hne htask' := by
    rw [Machine.task?_add, if_neg hne, Option.or_none] at htask'
    exact h.ended id' task' htask'

/-- The same state at another time. -/
def Machine.withTime (m : Machine World Writer) (now : Nat) : Machine World Writer := { m with now }

theorem Machine.task?_withTime (m : Machine World Writer) (now : Nat) (id : TaskId) :
    (m.withTime now).task? id = m.task? id := rfl

theorem Machine.answered_withTime {α : Type} (m : Machine World Writer) (id : TaskId)
    (task : Task Writer) {a : Answer World α} (phase : α → Phase Writer) (now : Nat)
    (ha : a.delay = 0) :
    (m.withTime now).answered id task a phase = (m.answered id task a phase).withTime now := by
  simp only [answered, alarmIn, ha, if_true]
  rfl

theorem Machine.acquire_withTime (hb : env.backend.Prompt) (m : Machine World Writer)
    (id : TaskId) (task : Task Writer) (g : Goal) (progress : Pool.Progress) (now : Nat) :
    acquire env id task g progress (m.withTime now) =
      (acquire env id task g progress m).withTime now := by
  cases progress with
  | failed e => rfl
  | blocked => rfl
  | lent c => rfl
  | reject c =>
    exact answered_withTime (m.note [rejectLog]) id task (.rejected g) now (hb.destroy c _)
  | create => exact answered_withTime m id task (.created g) now (hb.create _)

theorem Machine.invalidate_withTime (hb : env.backend.Prompt) (m : Machine World Writer)
    (id : TaskId) (task : Task Writer) (result : Except StoreError Outcome) (now : Nat) :
    invalidate env id task result (m.withTime now) =
      (invalidate env id task result m).withTime now := by
  unfold invalidate
  cases task.ticket with
  | none => rfl
  | some t =>
    have hpool : (m.withTime now).pool.invalidate t = m.pool.invalidate t := rfl
    dsimp only
    rw [hpool]
    rcases m.pool.invalidate t with ⟨p, _ | c⟩
    · rfl
    · exact answered_withTime (m.withPool p) id _ (.invalidated · result) now (hb.destroy c _)

theorem Machine.settle_withTime (m : Machine World Writer) (id : TaskId) (task : Task Writer)
    (result : Except StoreError Outcome) (lines : List LogLine) (now : Nat) :
    settle id task result lines (m.withTime now) =
      (settle id task result lines m).withTime now := by
  have hrelease : ∀ t, (m.withTime now).release t = (m.release t).withTime now := by
    intro t
    have hpool : (m.withTime now).pool.release t = m.pool.release t := rfl
    unfold release
    rw [hpool]
    rcases m.pool.release t with ⟨p, _ | c⟩
    · rfl
    · rfl
  unfold settle
  cases task.ticket with
  | none => rfl
  | some t =>
    dsimp only
    rw [hrelease]
    rfl

theorem Machine.borrow_withTime (hb : env.backend.Prompt) (h : m.pool.Serving none) (id : TaskId)
    (task : Task Writer) (g : Goal) (now : Nat) :
    borrow env id task g (m.withTime now) = (borrow env id task g m).withTime now := by
  have hrequest :
      (m.withTime now).pool.request (isValid env (m.withTime now)) (m.withTime now).now =
        m.pool.request (isValid env m) m.now := h.request_now now
  unfold borrow
  rw [hrequest]
  obtain ⟨p, t, progress, heq⟩ : ∃ p t progress, m.pool.request (isValid env m) m.now =
      (p, t, progress) := ⟨_, _, _, rfl⟩
  rw [heq]
  dsimp only
  rcases h.request (fun c => hb.valid c m.world) heq with ⟨rfl, -⟩ | ⟨c, rfl, -⟩
  · exact acquire_withTime hb (m.withPool p) id _ g .create now
  · exact acquire_withTime hb (m.withPool p) id _ g (.lent c) now

/-- **A step of a walk is the same at any time.** -/
theorem Sole.step_withTime (h : Sole id m) (hb : env.backend.Prompt) (now : Nat) :
    (m.withTime now).step env id = (m.step env id).withTime now := by
  obtain ⟨task, htask, hphase, halarm, party, hserving, hticket⟩ := h.task
  have htask' : (m.withTime now).task? id = some task := htask
  have hstep : ∀ m' : Machine World Writer, m'.task? id = some task →
      m'.step env id = Machine.resume env id task m' := by
    intro m' hm'
    unfold Machine.step
    rw [hm']
    dsimp only
    rw [halarm]
    split <;> rfl
  rw [hstep m htask, hstep _ htask']
  -- a clock is looked at where a client is asked for, and where an answer sets an alarm
  obtain ⟨phase, ticket, client, alarm, visited⟩ := task
  cases hphase with
  | start path recursive visitor =>
    have hnone : ticket = none := ((h.orderly.sound id _ htask).eq_none rfl).1
    rw [hnone, Option.map_eq_none_iff] at hticket
    subst hticket
    exact Machine.borrow_withTime hb hserving id _ _ now
  | created w reply =>
    cases ticket with
    | none => rfl
    | some t =>
      have hpool : (m.withTime now).pool.created t reply = m.pool.created t reply := rfl
      unfold Machine.resume
      dsimp only
      rw [hpool]
      rcases m.pool.created t reply with ⟨p, progress⟩
      exact Machine.acquire_withTime hb ((m.withPool p).note _) id _ (.walk w) progress now
  | lent w => cases client <;> rfl
  | walking w =>
    unfold Machine.resume
    dsimp only
    cases w.step with
    | ask query =>
      cases client with
      | none => rfl
      | some c => exact Machine.answered_withTime m id _ (.listed w) now (hb.list c query m.world)
    | visited w' => rfl
    | finished w' result =>
      cases result with
      | ok _ => exact Machine.settle_withTime m id _ _ _ now
      | error e => exact Machine.invalidate_withTime hb m id _ _ now
  | listed w reply =>
    cases reply with
    | ok page => rfl
    | error e => exact Machine.invalidate_withTime hb _ _ _ _ _
  | invalidated reply result => cases ticket <;> rfl
  | ended result => rfl

/-! ## Runs -/

/-- Whoever has ended makes no step. -/
theorem Machine.step_of_ended {result : Except StoreError Outcome} (env : Env World Writer)
    (htask : m.task? id = some task) (hended : task.phase = .ended result) :
    m.step env id = m := by
  unfold Machine.step
  rw [htask]
  simp only [hended, Machine.resume, ite_self]

/-- The others are over. -/
theorem Sole.step_of_ne (h : Sole id m) (env : Env World Writer) (hne : id' ≠ id) :
    m.step env id' = m := by
  cases htask : m.task? id' with
  | none =>
    unfold Machine.step
    rw [htask]
  | some task =>
    obtain ⟨result, hended⟩ := h.others id' task hne htask
    exact Machine.step_of_ended env htask hended

/-- The walk gets on, and has the storage to itself afterwards. -/
theorem Sole.step (h : Sole id m) (hb : env.backend.Prompt) : Sole id (m.step env id) := by
  have ho : Orderly (m.happen env (.step id)) := h.orderly.happen nofun
  have hh := h.orderly.happens env (.step id)
  obtain ⟨task, htask, hs⟩ := h.task
  show Sole id (m.happen env (.step id))
  generalize m.happen env (.step id) = m' at ho hh
  cases hh with
  | still _ => exact h
  | @turn _ task' n _ htask' hturn hm' =>
    rw [htask] at htask'
    cases htask'
    obtain ⟨⟨hphase, halarm, party, hserving, hticket⟩, hleft⟩ :=
      hturn.strolls hb (h.orderly.sound id task htask) hs
    refine ⟨ho, ⟨n.task, Machine.task?_of_follow hm' htask, hphase, halarm, party, ?_, hticket⟩, ?_⟩
    · rw [Machine.pool_of_follow hm']
      exact ⟨hserving.parties, hserving.free, hserving.size, hserving.closed⟩
    · intro id' task' hne hid'
      rw [Machine.task?_congr hm'] at hid'
      rcases Machine.of_task?_follow hid' with ⟨heq, -⟩ | ⟨-, hold⟩ | ⟨-, -, t, hl, -⟩
      · exact absurd heq hne
      · exact h.others id' task' hne hold
      · rw [hleft] at hl
        cases hl

theorem Sole.withTime (h : Sole id m) (now : Nat) : Sole id (m.withTime now) :=
  ⟨⟨h.orderly.pool, h.orderly.fresh, h.orderly.plain, h.orderly.sound, h.orderly.own⟩, h.task,
    h.others⟩

/-- So many steps of a task in a row. -/
def Machine.steps (env : Env World Writer) (id : TaskId) (k : Nat) (m : Machine World Writer) :
    Machine World Writer :=
  m.run env (List.replicate k (.step id))

theorem Machine.steps_succ (env : Env World Writer) (id : TaskId) (k : Nat)
    (m : Machine World Writer) : m.steps env id (k + 1) = (m.step env id).steps env id k := rfl

theorem Sole.steps (h : Sole id m) (hb : env.backend.Prompt) (k : Nat) :
    Sole id (m.steps env id k) := by
  induction k generalizing m with
  | zero => exact h
  | succ k ih => exact ih (h.step hb)

theorem Machine.steps_add (env : Env World Writer) (id : TaskId) (k k' : Nat)
    (m : Machine World Writer) : m.steps env id (k + k') = (m.steps env id k).steps env id k' := by
  rw [steps, List.replicate_add, run_append]
  rfl

theorem Sole.steps_withTime (h : Sole id m) (hb : env.backend.Prompt) (k now : Nat) :
    (m.withTime now).steps env id k = (m.steps env id k).withTime now := by
  induction k generalizing m with
  | zero => rfl
  | succ k ih =>
    rw [Machine.steps_succ, h.step_withTime hb, ih (h.step hb), Machine.steps_succ]

/-- **Whatever happens in between**, a walk makes its steps, at most as many as there are events. -/
theorem Sole.exists_run_eq (h : Sole id m) (hb : env.backend.Prompt) {events : List Event}
    (hevents : ∀ e ∈ events, e.isProgress = true) :
    ∃ k now, k ≤ events.length ∧ m.run env events = (m.steps env id k).withTime now := by
  -- on the events: only the steps of the walk count, and time is put off to the end
  induction events generalizing m with
  | nil => exact ⟨0, m.now, Nat.le_refl 0, rfl⟩
  | cons e events ih =>
    have he := hevents e List.mem_cons_self
    have hrest : ∀ e ∈ events, e.isProgress = true :=
      fun e he => hevents e (List.mem_cons_of_mem _ he)
    cases e with
    | request r | cancel id' => cases he
    | pass ms =>
      obtain ⟨k, now, hk, hrun⟩ := ih (h.withTime (m.now + ms)) hrest
      refine ⟨k, now, Nat.le_succ_of_le hk, ?_⟩
      rw [h.steps_withTime hb] at hrun
      exact hrun
    | step id' =>
      by_cases hid : id' = id
      · subst hid
        obtain ⟨k, now, hk, hrun⟩ := ih (h.step hb) hrest
        exact ⟨k + 1, now, Nat.succ_le_succ hk, hrun⟩
      · obtain ⟨k, now, hk, hrun⟩ := ih h hrest
        refine ⟨k, now, Nat.le_succ_of_le hk, ?_⟩
        rw [Machine.run_cons]
        show (m.step env id').run env events = _
        rw [h.step_of_ne env hid]
        exact hrun

/-! ## A walk in front -/

/-- A walk that has not ended can get on. -/
theorem Sole.status_eq (h : Sole id m) :
    m.status id = .running ∨ ∃ task result, m.task? id = some task ∧ task.phase = .ended result ∧
      m.status id = .ended := by
  obtain ⟨task, htask, hphase, halarm, -⟩ := h.task
  unfold Machine.status
  rw [htask]
  dsimp only
  rw [halarm]
  generalize hp : task.phase = phase at hphase
  cases hphase with
  | ended result => exact Or.inr ⟨task, result, rfl, hp, rfl⟩
  | _ => exact Or.inl rfl

/-- Whoever has ended stays as it is. -/
theorem Machine.steps_of_ended {result : Except StoreError Outcome} (env : Env World Writer)
    (htask : m.task? id = some task) (hended : task.phase = .ended result) (k : Nat) :
    m.steps env id k = m := by
  induction k with
  | zero => rfl
  | succ k ih => rw [steps_succ, step_of_ended env htask hended, ih]

namespace Schedule

/-- A walk runs until it ends. -/
theorem runSteps_eq (h : Sole id m) (hb : env.backend.Prompt) (fuel : Nat) :
    runSteps env id fuel m = m.steps env id fuel := by
  induction fuel generalizing m with
  | zero => rfl
  | succ fuel ih =>
    rw [runSteps, Machine.steps_succ]
    have hnext := h.step hb
    rcases hnext.status_eq with hstatus | ⟨task, result, htask, hended, hstatus⟩
    · rw [hstatus]
      exact ih hnext
    · rw [hstatus, Machine.steps_of_ended env htask hended]

/-! ## What waking leaves as it is -/

variable {s : Schedule World Writer} {result : Except StoreError Outcome}

theorem wake_kept (s : Schedule World Writer) (id : TaskId) :
    (s.wake id).machine = s.machine ∧ (s.wake id).limits = s.limits ∧
      (s.wake id).endings = s.endings := by
  unfold wake
  split_ifs <;> exact ⟨rfl, rfl, rfl⟩

theorem collect_kept (s : Schedule World Writer) :
    s.collect.machine = { s.machine with woken := [] } ∧ s.collect.limits = s.limits ∧
      s.collect.endings = s.endings := by
  have hwakeAll : ∀ (ids : List TaskId) (s : Schedule World Writer),
      (ids.foldl wake s).machine = s.machine ∧ (ids.foldl wake s).limits = s.limits ∧
        (ids.foldl wake s).endings = s.endings := by
    intro ids
    induction ids with
    | nil => exact fun s => ⟨rfl, rfl, rfl⟩
    | cons id ids ih =>
      intro s
      obtain ⟨hmachine, hlimits, hendings⟩ := wake_kept s id
      rw [← hmachine, ← hlimits, ← hendings]
      exact ih (s.wake id)
  exact hwakeAll s.machine.woken _

/-- The task of a request in front runs, with no limit and nothing else to do. If it has ended by
then that is noted, and otherwise nothing is. -/
theorem run_fronted {r : Request} {fuel : Nat}
    (hrun : { fronted m r with frontReady := false }.run env fuel m.nextTask = s)
    (hm' : runSteps env m.nextTask fuel (m.add (.ofRequest Writer r)) = m') :
    (∃ task result, m'.task? m.nextTask = some task ∧ task.phase = .ended result ∧
      s.endings = [(m.nextTask, .done result task.visited.reverse)]) ∨
    (∀ task result, m'.task? m.nextTask = some task → task.phase ≠ .ended result) ∧
      s.machine = { m' with woken := [] } ∧ s.endings = [] := by
  subst hrun hm'
  let s₀ : Schedule World Writer := { fronted m r with frontReady := false }
  obtain ⟨hmachine, hlimits, hendings⟩ := collect_kept
    { s₀ with machine := runSteps env m.nextTask fuel s₀.machine }
  show (∃ task result, _ ∧ _ ∧ (s₀.run env fuel m.nextTask).endings = _) ∨ _
  unfold run modify
  generalize collect { s₀ with machine := runSteps env m.nextTask fuel s₀.machine } = s'
    at hmachine hlimits hendings
  have htask? : s'.machine.task? m.nextTask =
      (runSteps env m.nextTask fuel (m.add (.ofRequest Writer r))).task? m.nextTask :=
    congrArg (·.task? m.nextTask) hmachine
  have hcheck : s'.checkLimit env m.nextTask = s' := by
    unfold checkLimit
    rw [hlimits]
    rfl
  rw [← htask?]
  dsimp only
  cases htask : s'.machine.task? m.nextTask with
  | none =>
    refine Or.inr ⟨?_, hmachine, hendings⟩
    rintro _ _ ⟨⟩
  | some task =>
    dsimp only
    split
    · rename_i result hended
      exact Or.inl ⟨task, result, rfl, hended, congrArg (· ++ _) hendings⟩
    · rename_i hnot
      rw [hcheck]
      refine Or.inr ⟨?_, hmachine, hendings⟩
      rintro _ result ⟨⟩
      exact hnot result

/-- **A walk in front** ends as it does when nobody but the walk makes steps. -/
theorem perform_walk (h : Resting m) (hb : env.backend.Prompt) (fuel : Nat) (path : String)
    (recursive : Bool) (visitor : Visitor) :
    ((ofMachine m).perform env fuel (.walk path recursive visitor) none).2 =
        some (.done result visited) ↔
      ∃ task, ((m.add (.ofRequest Writer (.walk path recursive visitor))).steps env m.nextTask
          fuel).task? m.nextTask = some task ∧
        task.phase = .ended result ∧ visited = task.visited.reverse := by
  have hsole := h.sole env path recursive visitor
  have hperform : ((ofMachine m).perform env fuel (.walk path recursive visitor) none).2 =
      ((fronted m (.walk path recursive visitor)).runFront env fuel m.nextTask
        fuel).endings.lookup m.nextTask := rfl
  rw [hperform, ← runSteps_eq hsole hb]
  -- the walk runs once, and has ended by then or goes on where it is
  cases fuel with
  | zero =>
    constructor
    · rintro ⟨⟩
    · rintro ⟨task, htask, hended, -⟩
      have hstart := h.orderly.task?_request (.walk path recursive visitor)
      rw [runSteps, hstart] at htask
      cases htask
      cases hended
  | succ fuel =>
    have hnext := hsole.steps hb (fuel + 1)
    rw [← runSteps_eq hsole hb] at hnext
    have hready : (fronted m (.walk path recursive visitor)).frontReady = true := rfl
    unfold runFront
    rw [if_pos hready]
    generalize hs : run env (fuel + 1) m.nextTask
      { fronted m (.walk path recursive visitor) with frontReady := false } = s
    generalize hm' : runSteps env m.nextTask (fuel + 1)
      (m.add (.ofRequest Writer (.walk path recursive visitor))) = m' at hnext
    have hrun := run_fronted hs hm'
    dsimp only
    rcases hrun with ⟨task, result', htask, hended, hendings⟩ | ⟨hnot, hmachine, hendings⟩
    · have hany : s.endings.any (·.1 = m.nextTask) = true := by simp [hendings]
      rw [if_pos hany, hendings, List.lookup_cons_self, htask]
      constructor
      · rintro ⟨⟩
        exact ⟨task, rfl, hended, rfl⟩
      · rintro ⟨_, ⟨⟩, hended', rfl⟩
        rw [hended] at hended'
        cases hended'
        rfl
    · have hrunning : s.machine.status m.nextTask = .running := by
        rw [hmachine]
        rcases hnext.status_eq with hstatus | ⟨task, result', htask, hended, -⟩
        · exact hstatus
        · exact absurd hended (hnot task result' htask)
      rw [hendings, if_neg (by simp), if_pos hrunning, hendings]
      constructor
      · rintro ⟨⟩
      · rintro ⟨task, htask, hended, -⟩
        exact absurd hended (hnot task _ htask)

/-- **A walk in front** of a storage in which nothing goes on comes to its end with success if and
only if the machine brings it there, and it has visited the same entries then. -/
theorem perform_walk_iff (h : Resting m) (hb : env.backend.Prompt) (fuel : Nat) (path : String)
    (recursive : Bool) :
    (∃ outcome, ((ofMachine m).perform env fuel (.walk path recursive fun _ _ => .ok ()) none).2 =
        some (.done (.ok outcome) visited)) ↔
      m.WalksWithin env fuel path recursive visited := by
  constructor
  · rintro ⟨outcome, hdone⟩
    obtain ⟨task, htask, hended, hvisited⟩ := (perform_walk h hb fuel path recursive _).1 hdone
    refine ⟨List.replicate fuel (.step m.nextTask), task, outcome, ?_, ?_, htask, hended, hvisited⟩
    · rw [List.length_replicate]
    · intro e he
      rw [List.eq_of_mem_replicate he]
      rfl
  · rintro ⟨steps, task, outcome, hlength, hsteps, htask, hended, hvisited⟩
    refine ⟨outcome, (perform_walk h hb fuel path recursive _).2 ⟨task, ?_, hended, hvisited⟩⟩
    obtain ⟨k, now, hk, hrun⟩ :=
      (h.sole env path recursive fun _ _ => .ok ()).exists_run_eq hb hsteps
    rw [Machine.run_cons, Machine.happen, hrun, Machine.task?_withTime] at htask
    -- what is left of the steps that may be made changes nothing
    obtain ⟨rest, rfl⟩ := Nat.exists_eq_add_of_le (Nat.le_trans hk hlength)
    rw [Machine.steps_add, Machine.steps_of_ended env htask hended]
    exact htask

end Schedule

end Storage

namespace S3

variable {State α : Type}

/-- How long an endpoint takes is not told. -/
theorem delay_exchange (network : Network State) (access : Access) (r : Request)
    (use : Response → Except Failure α) (w : World State) :
    (exchange network access r use w).delay = 0 := by
  unfold exchange
  split <;> rfl

theorem backend_prompt (network : Network State) (access : Access) :
    (backend network access).Prompt where
  valid _ _ := rfl
  create _ := rfl
  destroy _ _ := rfl
  list _ _ _ := by simp only [backend, telling, delay_exchange]

end S3

end Depot
