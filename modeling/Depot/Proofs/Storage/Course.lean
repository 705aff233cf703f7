import Depot.Proofs.Pool.Single
import Depot.Proofs.Storage.Effects
import Depot.Storage.Reference

/-!
# One operation at a time

An operation that has the storage to itself always gets a client, idle or new, and is on its way to
its end with every step. What keeps it on its way and how far it is from its end is put together in
a `Course`, so that only the first calls, the work with the client and the reading that follows are
left to be looked at. A storage in which an operation goes on (`Busy`) stays on course while tasks
get on and time passes, and comes to the end of the operation (`Busy.exists_end`).
-/

set_option autoImplicit false

namespace Depot.Storage

variable {World Writer : Type} {env : Env World Writer}

/-! ## Courses -/

/-- The part of its way in which a task in a phase is, counted from the end. -/
def Phase.part : Phase Writer → Nat
  | start _ => 9
  | line _ => 8
  | rejected _ _ => 8
  | created _ _ => 7
  | lent _ => 6
  | opened _ => 5
  | accepted _ _ _ => 5
  | found _ => 5
  | deleted _ _ => 5
  | measured _ _ _ _ => 5
  | copied _ _ _ _ _ => 4
  | uploading _ => 4
  | wrote _ _ => 4
  | flushed _ _ => 3
  | completed _ _ => 2
  | walking _ => 2
  | listed _ _ => 2
  | ended _ => 0
  | _ => 1

theorem Phase.one_lt_part {phase : Phase Writer} (h : phase.stage = .holding) :
    1 < phase.part := by
  cases phase <;> simp [Phase.stage, Phase.part] at h ⊢

/-- A phase is nearer to the end than another one: in a later part of the way, or in the same part
with less of it left. How much is left is measured apart for the two. -/
def Phase.Nearer (left left' : Phase Writer → Nat) (phase phase' : Phase Writer) : Prop :=
  Prod.Lex (· < ·) (· < ·) (phase.part, left phase) (phase'.part, left' phase')

section Nearer

variable {left left' : Phase Writer → Nat} {phase phase' : Phase Writer}

theorem Phase.nearer_of_lt (h : phase.part < phase'.part) : phase.Nearer left left' phase' :=
  Prod.lex_def.2 (Or.inl h)

theorem Phase.nearer_of_eq (h : phase.part = phase'.part) (hlt : left phase < left' phase') :
    phase.Nearer left left' phase' :=
  Prod.lex_def.2 (Or.inr ⟨h, hlt⟩)

end Nearer

/-- Whether a task comes to a phase when it is alone: nobody stands in line, all clients are fit,
and the storage is not closed. -/
def Phase.IsAlone (setup : Setup) : Phase Writer → Prop
  | start r => (r.goal setup).isSome = true
  | line _ => False
  | rejected _ _ => False
  | disconnected _ => False
  | closing _ _ => False
  | discard => False
  | discarded _ => False
  | _ => True

/-- Where a task that is alone may be: over which state of the backend, with which entries visited,
in which phase. -/
abbrev Where (World Writer : Type) := World → List Entry → Phase Writer → Prop

/-- The work of a step comes to a place, and is nearer to the end than a phase. -/
def Work.Reaches (env : Env World Writer) (On : Where World Writer)
    (left : World → Phase Writer → Nat) (now : Phase Writer → Nat) (phase : Phase Writer) :
    Work World Writer → Prop
  | keep phase' world _ visited =>
    On world visited phase' ∧ phase'.Nearer (left world) now phase
  | giveBack phase' world visited =>
    On world visited phase' ∧ phase'.Nearer (left world) now phase
  | destroy e world visited =>
    ∀ c, On (env.backend.destroy c world).world visited
      (.invalidated (env.backend.destroy c world).result (.error e))

/-- The course of a task that is alone, from its request to its end. -/
structure Course (env : Env World Writer) where
  On : Where World Writer
  /-- How much is left of the part of the way that a task is in. -/
  left : World → Phase Writer → Nat
  valid : ∀ c w, env.backend.isValid c w = true
  alone : ∀ {w visited phase}, On w visited phase → phase.IsAlone env.setup
  deny : ∀ {w visited r e}, On w visited (.start r) → r.goal env.setup = some (.error e) →
    On w visited (.ended (.error e))
  create : ∀ {w visited r g}, On w visited (.start r) → r.goal env.setup = some (.ok g) →
    On (env.backend.create w).world visited (.created g (env.backend.create w).result)
  lend : ∀ {w visited r g}, On w visited (.start r) → r.goal env.setup = some (.ok g) →
    On w visited (.lent g)
  created : ∀ {w visited g reply}, On w visited (.created g reply) →
    reply = .ok () ∧ On w visited (.lent g)
  work : ∀ {c w visited phase k}, On w visited phase → Works env c w visited phase k →
    k.Reaches env On left (left w) phase
  invalidated : ∀ {w visited reply result}, On w visited (.invalidated reply result) →
    On w visited (.ended result)
  drain : ∀ {w visited rest data phase delay}, On w visited (.draining rest data) →
    Drains rest data phase delay →
    On w visited phase ∧ phase.Nearer (left w) (left w) (.draining rest data)

/-! ## One step -/

/-- A task is on course, and alone in the pool. -/
structure Course.Has (course : Course env) (p : Pool) (w : World) (task : Task Writer) :
    Prop where
  on : course.On w task.visited task.phase
  serving : ∃ party, p.Serving party ∧ party.map (·.1) = task.ticket

/-- What a step makes of the state is on course, and nearer to the end than a phase was over a
state of the backend. -/
structure Course.Advances (course : Course env) (w : World) (phase : Phase Writer)
    (n : Next World Writer) : Prop where
  task : course.Has n.pool n.world n.task
  left : n.left = none
  nearer : n.task.phase.Nearer (course.left n.world) (course.left w) phase

section Turn

variable {course : Course env} {m : Machine World Writer} {task : Task Writer}
  {n : Next World Writer} {g : Goal} {t : Ticket} {c : Client} {p : Pool}
  {progress : Pool.Progress}

/-- A task that asks for a client gets one, at once or after it was created. -/
theorem Asks.advances (h : Asks env m task g t p progress)
    (hn : Acquires env m task g t p progress n) (hsound : task.Sound m.pool)
    (hc : course.Has m.pool m.world task) : course.Advances m.world task.phase n := by
  obtain ⟨hon, party, hserving, hticket⟩ := hc
  cases h with
  | @request r hphase hgoal hrequest =>
    have hnone := (hsound.eq_none (by rw [hphase]; rfl)).1
    rw [hnone, Option.map_eq_none_iff] at hticket
    subst hticket
    rw [hphase] at hon ⊢
    rcases hserving.request (fun c => course.valid c m.world) hrequest with ⟨rfl, hp⟩ | ⟨c, rfl, hp⟩
    · cases hn with
      | create ha _ =>
        subst ha
        refine ⟨⟨course.create hon hgoal, _, hp, rfl⟩, rfl, ?_⟩
        exact Phase.nearer_of_lt (by simp [Phase.part])
    · cases hn with
      | lend =>
        refine ⟨⟨course.lend hon hgoal, _, hp, rfl⟩, rfl, ?_⟩
        exact Phase.nearer_of_lt (by simp [Phase.part])
  | proceed hphase _ _ _ | rejected hphase _ _ =>
    -- nobody stands in line, and all clients are fit
    rw [hphase] at hon
    exact (course.alone hon).elim
  | created hphase ht hcreated =>
    obtain ⟨x, hx, hstands⟩ := hsound.party_of_ticket ht
    obtain rfl := hserving.eq (hticket.trans ht) hx
    rw [hphase] at hon hstands ⊢
    obtain ⟨rfl, hlent⟩ := course.created hon
    generalize task.client = client at hstands
    cases hstands with
    | creating =>
      obtain ⟨c, rfl, hp⟩ := hserving.created hcreated
      cases hn with
      | lend =>
        refine ⟨⟨hlent, _, hp, rfl⟩, rfl, ?_⟩
        exact Phase.nearer_of_lt (by simp [Phase.part])

/-- What a task makes of its work is on course when the work is, and the pool keeps in step. -/
theorem Settles.advances {k : Work World Writer} (h : Settles env m task t c k n)
    (hk : k.Reaches env course.On course.left (course.left m.world) task.phase)
    (hserving : m.pool.Serving (some (t, .holding c))) (hticket : task.ticket = some t)
    (hholding : task.phase.stage = .holding) : course.Advances m.world task.phase n := by
  cases h with
  | keep _ => exact ⟨⟨hk.1, _, hserving, hticket.symm⟩, rfl, hk.2⟩
  | giveBack _ hp => exact ⟨⟨hk.1, _, (hserving.release hp).2, rfl⟩, rfl, hk.2⟩
  | giveLate hclosed _ => exact absurd hclosed hserving.not_closed
  | destroy hp ha _ =>
    subst ha
    exact ⟨⟨hk c, _, hserving.invalidate hp, rfl⟩, rfl,
      Phase.nearer_of_lt (Phase.one_lt_part hholding)⟩

/-- **One step.** A task stays on course with every step, and comes nearer to its end. -/
theorem Turn.advances (h : Turn env m task n) (hsound : task.Sound m.pool)
    (hc : course.Has m.pool m.world task) : course.Advances m.world task.phase n := by
  have hc' := hc
  obtain ⟨hon, party, hserving, hticket⟩ := hc'
  cases h with
  | acquire hasks hn => exact hasks.advances hn hsound hc
  | work ht hx _ hw hn =>
    obtain rfl := hserving.eq (hticket.trans ht) hx
    exact hn.advances (course.work hon hw) hserving ht hw.stage_eq
  | @deny r e hphase hgoal =>
    rw [hphase] at hon ⊢
    refine ⟨⟨course.deny hon hgoal, party, hserving, hticket⟩, rfl, ?_⟩
    exact Phase.nearer_of_lt (by simp [Phase.part])
  | @invalidated t reply result hphase ht =>
    obtain ⟨x, hx, hstands⟩ := hsound.party_of_ticket ht
    obtain rfl := hserving.eq (hticket.trans ht) hx
    rw [hphase] at hon hstands ⊢
    generalize task.client = client at hstands
    cases hstands with
    | invalidating c =>
      refine ⟨⟨course.invalidated hon, _, hserving.invalidated, rfl⟩, rfl, ?_⟩
      exact Phase.nearer_of_lt (by simp [Phase.part])
  | drain hphase hdrains _ =>
    rw [hphase] at hon ⊢
    obtain ⟨hon, hnearer⟩ := course.drain hon hdrains
    exact ⟨⟨hon, party, hserving, hticket⟩, rfl, hnearer⟩
  | shut hshuts _ | drainPool hshuts _ _ _ =>
    generalize task.phase = phase at hshuts hon
    cases hshuts with
    | closePool => exact absurd (course.alone hon) Bool.false_ne_true
    | disconnected => exact (course.alone hon).elim
  | disconnect hphase _ _ _ | apart hphase _ =>
    rw [hphase] at hon
    exact absurd (course.alone hon) Bool.false_ne_true
  | closeNext hphase _ _ _ _ | closeLast hphase _ _ | startDestroy hphase _ _ _ _ _
  | destroyed hphase _ =>
    rw [hphase] at hon
    exact (course.alone hon).elim

end Turn

/-! ## One operation -/

section Operation

variable {course : Course env} {m m' : Machine World Writer} {id : TaskId} {task : Task Writer}
  {e : Event}

/-- A storage in which nothing goes on. -/
structure Resting (m : Machine World Writer) : Prop where
  orderly : Orderly m
  serving : m.pool.Serving none
  ended : ∀ id task, m.task? id = some task → ∃ result, task.phase = .ended result

/-- A storage in which one operation goes on, which is on course. -/
structure Busy (course : Course env) (id : TaskId) (m : Machine World Writer) : Prop where
  orderly : Orderly m
  task : ∃ task, m.task? id = some task ∧ course.Has m.pool m.world task
  others : ∀ id' task, id' ≠ id → m.task? id' = some task → ∃ result, task.phase = .ended result

theorem Resting.of_connect {kind : String} {backend : Backend World Writer} {config : Config}
    {w : World} (h : connect kind backend config w = .ok m) : Resting m := by
  obtain ⟨-, hpool, -⟩ := connect_eq_ok h
  refine ⟨.of_connect h, .of_new hpool, ?_⟩
  intro id task htask
  rw [task?_of_connect h] at htask
  cases htask

/-- An operation that is asked for when nothing goes on has the storage to itself. -/
theorem Resting.request (h : Resting m) {r : Request} (hr : r.isOperation = true)
    (hon : course.On m.world [] (.start r)) :
    Busy course m.nextTask (m.run env [.request r]) := by
  have hop : ∀ r', Event.request r = .request r' → r'.isOperation = true := by
    rintro r' ⟨⟩
    exact hr
  have ho : Orderly (m.happen env (.request r)) := h.orderly.happen hop
  have hh := h.orderly.happens env (.request r)
  refine ⟨ho, ⟨_, h.orderly.task?_request r, hon, none, h.serving, rfl⟩, ?_⟩
  intro id' task' hne htask'
  rcases hh.task? htask' with hold | ⟨_, _, he, -⟩ | ⟨hnew, -⟩
  · exact h.ended id' task' hold
  · cases he
  · exact absurd hnew hne

/-- A step of the operation brings it nearer to its end. -/
theorem Busy.of_turn {n : Next World Writer} (h : Busy course id m)
    (htask : m.task? id = some task) (hc : course.Has m.pool m.world task)
    (hturn : Turn env m task n) (hm' : m'.bare = (m.follow id n).bare)
    (ho : Orderly m') : Busy course id m' ∧
      ∃ task', m'.task? id = some task' ∧
        task'.phase.Nearer (course.left m'.world) (course.left m.world) task.phase := by
  obtain ⟨⟨hon, party, hserving, hticket⟩, hleft, hnearer⟩ :=
    hturn.advances (h.orderly.sound _ _ htask) hc
  have htask' := Machine.task?_of_follow hm' htask
  rw [← Machine.world_of_follow hm'] at hon hnearer
  refine ⟨⟨ho, ⟨n.task, htask', hon, party, ?_, hticket⟩, ?_⟩, n.task, htask', hnearer⟩
  · rw [Machine.pool_of_follow hm']
    exact ⟨hserving.parties, hserving.free, hserving.size, hserving.closed⟩
  · intro id' task' hne hid'
    rw [Machine.task?_congr hm'] at hid'
    rcases Machine.of_task?_follow hid' with ⟨heq, -⟩ | ⟨-, hold⟩ | ⟨-, -, t, hl, -⟩
    · exact absurd heq hne
    · exact h.others id' task' hne hold
    · rw [hleft] at hl
      cases hl

/-- **One event.** While tasks get on and time passes, the operation stays on course. -/
theorem Busy.happen (h : Busy course id m) (he : e.isProgress = true) :
    Busy course id (m.happen env e) := by
  have hop : ∀ r, e = .request r → r.isOperation = true := by
    rintro r rfl
    cases he
  have ho : Orderly (m.happen env e) := h.orderly.happen hop
  have hh := h.orderly.happens env e
  generalize m.happen env e = m' at ho hh
  obtain ⟨task, htask, hc⟩ := h.task
  cases hh with
  | still _ => exact h
  | pass ms => exact ⟨ho, ⟨task, htask, hc⟩, h.others⟩
  | request _ | cut _ _ _ _ | spared _ => cases he
  | @turn id' task' n _ htask' hturn hm' =>
    -- only the operation makes a step
    obtain rfl : id' = id := by
      by_contra hne
      obtain ⟨result, hended⟩ := h.others id' task' hne htask'
      exact hturn.phase_ne_ended result hended
    rw [htask] at htask'
    cases htask'
    exact (h.of_turn htask hc hturn hm' ho).1

theorem Busy.run {steps : List Event} (h : Busy course id m)
    (hsteps : ∀ e ∈ steps, e.isProgress = true) :
    Busy course id (m.run env steps) := by
  induction steps generalizing m with
  | nil => exact h
  | cons e steps ih =>
    exact ih (h.happen (hsteps e List.mem_cons_self))
      fun e' he' => hsteps e' (List.mem_cons_of_mem _ he')

/-- When the operation has ended, it has come to the end of its course, and nothing goes on any
more. -/
theorem Busy.resting (h : Busy course id m) (htask : m.task? id = some task)
    {result : Except StoreError Outcome} (hended : task.phase = .ended result) :
    course.On m.world task.visited (.ended result) ∧ Resting m := by
  obtain ⟨task', htask', hon, party, hserving, hticket⟩ := h.task
  rw [htask] at htask'
  cases htask'
  have hsound := h.orderly.sound _ _ htask
  rw [(hsound.eq_none (by rw [hended]; rfl)).1, Option.map_eq_none_iff] at hticket
  subst hticket
  rw [hended] at hon
  refine ⟨hon, h.orderly, hserving, ?_⟩
  intro id' task' hid'
  by_cases hne : id' = id
  · subst hne
    rw [htask] at hid'
    cases hid'
    exact ⟨result, hended⟩
  · exact h.others id' task' hne hid'

/-- A task that has neither ended nor stands in line makes a turn when its alarm has gone off. -/
theorem Orderly.exists_turn (ho : Orderly m) (env : Env World Writer)
    (htask : m.task? id = some task) (hended : ∀ result, task.phase ≠ .ended result)
    (hline : ∀ g, task.phase ≠ .line g) :
    ∃ wait n, Turn env (m.happen env (.pass wait)) task n ∧
      ((m.happen env (.pass wait)).happen env (.step id)).bare =
        ((m.happen env (.pass wait)).follow id n).bare := by
  -- its alarm goes off, if one is set
  obtain ⟨wait, hwait⟩ : ∃ wait, ∀ a, task.alarm = some a → a.time ≤ m.now + wait := by
    cases task.alarm with
    | none => exact ⟨0, nofun⟩
    | some a =>
      refine ⟨a.time, ?_⟩
      rintro _ ⟨⟩
      exact Nat.le_add_left _ _
  have ho' : Orderly (m.happen env (.pass wait)) := ho.happen nofun
  have htask' : (m.happen env (.pass wait)).task? id = some task := htask
  obtain ⟨n, hturn, hm'⟩ := ho'.exists_turn_of_step env htask' hended hline hwait
  exact ⟨wait, n, hturn, hm'⟩

/-- A task that has not ended gets on, when its time has come. -/
theorem Busy.exists_nearer (h : Busy course id m) (htask : m.task? id = some task)
    (hended : ∀ result, task.phase ≠ .ended result) :
    ∃ steps : List Event, (∀ e ∈ steps, e.isProgress = true) ∧
      ∃ task', (m.run env steps).task? id = some task' ∧
        task'.phase.Nearer (course.left (m.run env steps).world) (course.left m.world)
          task.phase := by
  obtain ⟨task₀, htask₀, hc⟩ := h.task
  rw [htask] at htask₀
  cases htask₀
  have hline : ∀ g, task.phase ≠ .line g := by
    intro g hphase
    have hon := hc.on
    rw [hphase] at hon
    exact course.alone hon
  obtain ⟨wait, n, hturn, hm'⟩ := h.orderly.exists_turn env htask hended hline
  have hm := h.happen (e := .pass wait) rfl
  have ho := (hm.happen (e := .step id) rfl).orderly
  exact ⟨[.pass wait, .step id], by simp [Event.isProgress],
    (hm.of_turn htask hc hturn hm' ho).2⟩

/-- **Every operation comes to its end.** -/
theorem Busy.exists_end (h : Busy course id m) :
    ∃ steps : List Event, (∀ e ∈ steps, e.isProgress = true) ∧
      ∃ task result, (m.run env steps).task? id = some task ∧ task.phase = .ended result := by
  obtain ⟨task, htask, -⟩ := h.task
  have hwf : WellFounded (Prod.Lex (fun a b : Nat => a < b) fun a b : Nat => a < b) :=
    (Prod.lex Nat.lt_wfRel Nat.lt_wfRel).wf
  -- on how far it is to the end
  generalize hrank : (task.phase.part, course.left m.world task.phase) = rank
  induction rank using hwf.induction generalizing m task with
  | h rank ih =>
    by_cases hended : ∃ result, task.phase = .ended result
    · obtain ⟨result, hended⟩ := hended
      exact ⟨[], by simp, task, result, htask, hended⟩
    · obtain ⟨steps, hsteps, task', htask', hnearer⟩ :=
        h.exists_nearer htask fun result hr => hended ⟨result, hr⟩
      subst hrank
      obtain ⟨more, hmore, hend⟩ := ih _ hnearer (h.run hsteps) task' htask' rfl
      refine ⟨steps ++ more, ?_, ?_⟩
      · intro e he
        rcases List.mem_append.1 he with he | he
        · exact hsteps e he
        · exact hmore e he
      · rw [Machine.run_append]
        exact hend

end Operation

end Depot.Storage
