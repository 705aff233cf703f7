import Depot.Proofs.Storage.Serves
import Depot.Storage.Schedule

/-!
# What a schedule makes of a storage

A schedule lets tasks make steps, forgets those that are over, gives up those that take too long,
and lets time pass. `Moves` puts together what that can make of the machine, and counts the steps of
one task meanwhile. Whatever a schedule does while a request is in front is a sequence of such moves
(`Schedule.Underway`), so a result that it comes to is one that the machine comes to
(`Schedule.ends_of_perform`).
-/

set_option autoImplicit false

namespace Depot.Storage

variable {World Writer : Type} {env : Env World Writer} {m m' : Machine World Writer}
  {id id' : TaskId} {k k' : Nat}

/-- What can become of a machine while one of its tasks makes at most some number of steps. Of the
other tasks nothing is said. -/
inductive Moves (env : Env World Writer) (id : TaskId) (m : Machine World Writer) :
    Nat → Machine World Writer → Prop where
  | start : Moves env id m 0 m
  /-- The task whose steps are counted makes one. -/
  | own {k : Nat} {m' : Machine World Writer} : Moves env id m k m' →
      Moves env id m (k + 1) (m'.step env id)
  | other {k : Nat} {m' : Machine World Writer} {id' : TaskId} : id' ≠ id → Moves env id m k m' →
      Moves env id m k (m'.step env id')
  /-- The number of steps need not be used up. -/
  | skip {k : Nat} {m' : Machine World Writer} : Moves env id m k m' → Moves env id m (k + 1) m'
  | cancel {k : Nat} {m' : Machine World Writer} (id' : TaskId) : Moves env id m k m' →
      Moves env id m k (m'.cancel env id')
  /-- A task is forgotten. -/
  | remove {k : Nat} {m' : Machine World Writer} (id' : TaskId) : Moves env id m k m' →
      Moves env id m k (m'.remove id')
  /-- Time passes, and notes about the order of tasks are taken. -/
  | order {k now : Nat} {m' : Machine World Writer} (alarms : Nat) (woken : List TaskId) :
      m'.now ≤ now → Moves env id m k m' → Moves env id m k { m' with now, alarms, woken }

theorem Moves.mono (h : Moves env id m k m') (hk : k ≤ k') : Moves env id m k' m' := by
  induction hk with
  | refl => exact h
  | step _ ih => exact ih.skip

/-- A task comes to a result by moves of the machine, with the entries that it has visited. -/
def Ends (env : Env World Writer) (id : TaskId) (m : Machine World Writer) (k : Nat)
    (result : Except StoreError Outcome) (visited : List Entry) : Prop :=
  ∃ m' task, Moves env id m k m' ∧ m'.task? id = some task ∧ task.phase = .ended result ∧
    visited = task.visited.reverse

theorem Ends.mono {result : Except StoreError Outcome} {visited : List Entry}
    (h : Ends env id m k result visited) (hk : k ≤ k') : Ends env id m k' result visited := by
  obtain ⟨m', task, hmoves, hend⟩ := h
  exact ⟨m', task, hmoves.mono hk, hend⟩

/-! ## What moves keep -/

section Kept

/-- A cancellation keeps the order, and makes nothing new but a task that destroys a client. -/
theorem Orderly.cancel (ho : Orderly m) (env : Env World Writer) (id : TaskId) :
    Orderly (m.cancel env id) ∧ m.nextTask ≤ (m.cancel env id).nextTask ∧
      ∀ id' task', (m.cancel env id).task? id' = some task' →
        m.task? id' = some task' ∨ id' = m.nextTask := by
  cases htask : m.task? id with
  | none =>
    have hcancel : m.cancel env id = m := by simp only [Machine.cancel, htask]
    rw [hcancel]
    exact ⟨ho, Nat.le_refl _, fun _ _ h => Or.inl h⟩
  | some task =>
    obtain ⟨p, world, left, hcut, e⟩ := Machine.cancel_cut htask (ho.sound id task htask)
    have hnext : (m.cancel env id).nextTask = (m.without id p world left).nextTask :=
      congrArg (·.nextTask) e
    refine ⟨(ho.without htask hcut).congr e, ?_, ?_⟩
    · rw [hnext]
      exact Machine.nextTask_handOver ({ m with pool := p, world }.remove id) left
    · intro id' task' h
      rw [Machine.task?_congr e] at h
      rcases Machine.of_task?_without h with ⟨-, hold⟩ | ⟨hnew, -⟩
      · exact Or.inl hold
      · exact Or.inr hnew

theorem Orderly.remove (ho : Orderly m) (id : TaskId) : Orderly (m.remove id) := by
  have hold : ∀ {id' task'}, (m.remove id).task? id' = some task' → m.task? id' = some task' := by
    intro id' task' h
    rw [Machine.task?_remove] at h
    split at h
    · cases h
    · exact h
  refine ⟨ho.pool, ?_, ?_, ?_, ?_⟩
  · intro id' hid'
    rw [Machine.task?_remove, ho.fresh id' hid', ite_self]
  · intro id' task' h
    exact ho.plain id' task' (hold h)
  · intro id' task' h
    exact ho.sound id' task' (hold h)
  · intro id₁ id₂ task₁ task₂ t h₁ h₂
    exact ho.own id₁ id₂ task₁ task₂ t (hold h₁) (hold h₂)

/-- **What moves keep.** Moves keep the order, and what is kept by the steps of the task whose steps
are counted, for that number, holds of it for as long as it is there. -/
theorem Orderly.moves {P : Nat → Task Writer → Prop} (ho : Orderly m) (hid : id < m.nextTask)
    (hskip : ∀ k task, P k task → P (k + 1) task)
    (hturn : ∀ m task n k, Turn env m task n → P k task → P (k + 1) n.task)
    (hm : ∀ task, m.task? id = some task → P 0 task) (h : Moves env id m k m') :
    Orderly m' ∧ id < m'.nextTask ∧ ∀ task, m'.task? id = some task → P k task := by
  -- on the moves: only those of the task itself add to the number, whatever others do
  induction h with
  | start => exact ⟨ho, hid, hm⟩
  | @own k m' _ ih =>
    obtain ⟨ho', hid', hP⟩ := ih
    have hh := ho'.happens env (.step id)
    have hkept : Orderly (m'.happen env (.step id)) := ho'.happen nofun
    refine ⟨hkept, Nat.lt_of_lt_of_le hid' hh.nextTask_le, ?_⟩
    intro task' htask'
    rcases hh.task? htask' with hold | ⟨task, n, -, htask, hstep, rfl, -⟩ | ⟨hnew, -⟩
    · -- the task had to wait, or is over
      exact hskip k task' (hP task' hold)
    · exact hturn m' task n k hstep (hP task htask)
    · -- new tasks have numbers of their own
      exact absurd hid' (hnew ▸ Nat.lt_irrefl _)
  | @other k m' id' hne _ ih =>
    obtain ⟨ho', hid', hP⟩ := ih
    have hh := ho'.happens env (.step id')
    have hkept : Orderly (m'.happen env (.step id')) := ho'.happen nofun
    refine ⟨hkept, Nat.lt_of_lt_of_le hid' hh.nextTask_le, ?_⟩
    intro task' htask'
    rcases hh.task? htask' with hold | ⟨task, n, hother, -⟩ | ⟨hnew, -⟩
    · exact hP task' hold
    · -- the step was that of another task
      cases hother
      exact absurd rfl hne
    · exact absurd hid' (hnew ▸ Nat.lt_irrefl _)
  | skip _ ih =>
    obtain ⟨ho', hid', hP⟩ := ih
    exact ⟨ho', hid', fun task htask => hskip _ task (hP task htask)⟩
  | cancel id' _ ih =>
    obtain ⟨ho', hid', hP⟩ := ih
    obtain ⟨ho'', hnext, htasks⟩ := ho'.cancel env id'
    refine ⟨ho'', Nat.lt_of_lt_of_le hid' hnext, ?_⟩
    intro task' htask'
    rcases htasks id task' htask' with hold | hnew
    · exact hP task' hold
    · exact absurd hid' (hnew ▸ Nat.lt_irrefl _)
  | remove id' _ ih =>
    obtain ⟨ho', hid', hP⟩ := ih
    refine ⟨ho'.remove id', hid', ?_⟩
    intro task' htask'
    rw [Machine.task?_remove] at htask'
    split at htask'
    · cases htask'
    · exact hP task' htask'
  | order alarms woken _ _ ih =>
    obtain ⟨ho', hid', hP⟩ := ih
    exact ⟨⟨ho'.pool, ho'.fresh, ho'.plain, ho'.sound, ho'.own⟩, hid', hP⟩

end Kept

namespace Schedule

variable {s : Schedule World Writer}

/-! ## Steps of one task -/

theorem moves_runSteps (fuel : Nat) (h : Moves env id m k m') :
    Moves env id m (k + fuel) (runSteps env id fuel m') := by
  -- the steps so far are part of the statement, as the number grows from round to round
  induction fuel generalizing k m' with
  | zero => exact h
  | succ fuel ih =>
    have hsum : k + (fuel + 1) = k + 1 + fuel := by omega
    simp only [runSteps, hsum]
    split
    · exact ih h.own
    · exact h.own.mono (Nat.le_add_right _ _)

theorem moves_runSteps_of_ne (hne : id' ≠ id) (fuel : Nat) (h : Moves env id m k m') :
    Moves env id m k (runSteps env id' fuel m') := by
  induction fuel generalizing m' with
  | zero => exact h
  | succ fuel ih =>
    simp only [runSteps]
    split
    · exact ih (h.other hne)
    · exact h.other hne

/-! ## A request in front -/

/-- A request is in front, and so far the machine has made moves in which the task of the request
has made at most some number of steps. Nobody else runs that task, and the notes on how it ended,
unless it was given up, tell of a result that it came to. -/
structure Underway (env : Env World Writer) (id : TaskId) (m : Machine World Writer) (k : Nat)
    (s : Schedule World Writer) : Prop where
  front : s.front = some id
  queue : id ∉ s.queue
  moves : Moves env id m k s.machine
  endings : ∀ result visited, (id, .done result visited) ∈ s.endings →
    Ends env id m k result visited

theorem Underway.mono (h : Underway env id m k s) (hk : k ≤ k') : Underway env id m k' s where
  front := h.front
  queue := h.queue
  moves := h.moves.mono hk
  endings result visited hmem := (h.endings result visited hmem).mono hk

/-- The machine makes moves. -/
theorem Underway.go (h : Underway env id m k s) (hk : k ≤ k') (hmoves : Moves env id m k' m') :
    Underway env id m k' { s with machine := m' } :=
  { h.mono hk with moves := hmoves }

/-- The task in front has a place of its own. -/
theorem Underway.wake (h : Underway env id m k s) (id' : TaskId) :
    Underway env id m k (s.wake id') := by
  unfold Schedule.wake
  split_ifs with hfront hqueue
  · exact ⟨h.front, h.queue, h.moves, h.endings⟩
  · exact h
  · refine ⟨h.front, ?_, h.moves, h.endings⟩
    have hne : id ≠ id' := by
      rintro rfl
      exact hfront h.front
    simp only [List.mem_append, List.mem_singleton, not_or]
    exact ⟨h.queue, hne⟩

theorem Underway.wakeAll (h : Underway env id m k s) (ids : List TaskId) :
    Underway env id m k (ids.foldl Schedule.wake s) := by
  induction ids generalizing s with
  | nil => exact h
  | cons id' ids ih => exact ih (h.wake id')

theorem Underway.collect (h : Underway env id m k s) : Underway env id m k s.collect :=
  Underway.wakeAll (h.go (Nat.le_refl k) (.order s.machine.alarms [] (Nat.le_refl _) h.moves))
    s.machine.woken

/-- The end of a task is noted. If it is the task in front and was not given up, it has come to
that end. -/
theorem Underway.finish {ending : Ending} (h : Underway env id m k s) (id' : TaskId)
    (hend : id' = id → ∀ result visited, ending = .done result visited →
      Ends env id m k result visited) :
    Underway env id m k (s.finish id' ending) where
  front := h.front
  queue := h.queue
  moves := h.moves.remove id'
  endings result visited hmem := by
    rcases List.mem_append.1 hmem with hold | hnew
    · exact h.endings result visited hold
    · obtain ⟨rfl, rfl⟩ := Prod.mk.inj (List.mem_singleton.1 hnew)
      exact hend rfl result visited rfl

/-- A task is cancelled, which is no result. -/
theorem Underway.cutShort {ending : Ending} (h : Underway env id m k s) (id' : TaskId)
    (hending : ∀ result visited, ending ≠ .done result visited) :
    Underway env id m k (s.cutShort env id' ending) := by
  have hcancel : Underway env id m k (s.modify (·.cancel env id')) :=
    (h.go (Nat.le_refl k) (h.moves.cancel id')).collect
  exact hcancel.finish id' fun _ result visited e => absurd e (hending result visited)

theorem Underway.checkLimit (h : Underway env id m k s) (id' : TaskId) :
    Underway env id m k (s.checkLimit env id') := by
  unfold Schedule.checkLimit
  split
  · exact h
  · rename_i l _
    -- the machine has moved, and the alarm says whether the time is over
    have hgo : ∀ (m' : Machine World Writer) (alarm : Alarm), Moves env id m k m' →
        Underway env id m k
          (if alarm.time ≤ m'.now then { s with machine := m' }.cutShort env id' .givenUp
          else
            { s with
              machine := m'
              limits := s.limits.map fun q =>
                if q.1 = id' then (id', { l with alarm := some alarm }) else q }) := by
      intro m' alarm hmoves
      have hm' := h.go (Nat.le_refl k) hmoves
      split
      · exact hm'.cutShort id' fun _ _ => nofun
      · exact ⟨hm'.front, hm'.queue, hm'.moves, hm'.endings⟩
    cases l.alarm with
    | some a => exact hgo s.machine a h.moves
    | none =>
      exact hgo _ _ (.order (s.machine.alarms + 1) s.machine.woken (Nat.le_refl _) h.moves)

/-- A task runs, until it waits or ends. -/
theorem Underway.run {fuel : Nat} (h : Underway env id m k s) (hk : k ≤ k')
    (hmoves : Moves env id m k' (runSteps env id' fuel s.machine)) :
    Underway env id m k' (s.run env fuel id') := by
  have hrun : Underway env id m k' (s.modify (runSteps env id' fuel)) := (h.go hk hmoves).collect
  unfold Schedule.run
  generalize s.modify (runSteps env id' fuel) = s' at hrun
  dsimp only
  split
  · exact hrun
  · rename_i task htask
    split
    · rename_i result hphase
      refine hrun.finish id' ?_
      rintro rfl _ _ ⟨⟩
      exact ⟨s'.machine, task, hrun.moves, htask, hphase, rfl⟩
    · exact hrun.checkLimit id'

/-- Another task has its turn. -/
theorem Underway.turn (h : Underway env id m k s) (hne : id' ≠ id) (fuel : Nat) :
    Underway env id m k (s.turn env fuel id') := by
  unfold Schedule.turn
  split
  · exact Underway.collect ⟨h.front, h.queue, h.moves.cancel id', h.endings⟩
  · exact h.run (Nat.le_refl k) (moves_runSteps_of_ne hne fuel h.moves)

theorem Underway.runQueue (h : Underway env id m k s) (fuel turns : Nat) :
    Underway env id m k (s.runQueue env fuel turns) := by
  -- on the turns: whoever is first in the queue is not the task in front, and stays another one
  induction turns generalizing s with
  | zero => exact h
  | succ turns ih =>
    unfold Schedule.runQueue
    split
    · exact h
    · rename_i id' rest hqueue
      have hnot := h.queue
      rw [hqueue, List.mem_cons, not_or] at hnot
      have hrest : Underway env id m k { s with queue := rest } :=
        ⟨h.front, hnot.2, h.moves, h.endings⟩
      exact ih (hrest.turn (Ne.symm hnot.1) fuel)

theorem Underway.passToNext (h : Underway env id m k s) : Underway env id m k s.passToNext := by
  unfold Schedule.passToNext
  split
  · exact h
  · rename_i a _ _
    have hpass := h.go (Nat.le_refl k) (.order s.machine.alarms s.machine.woken
      (Nat.le_max_left s.machine.now a.1.time) h.moves)
    simp only [passTo, ring]
    rw [← List.foldl_map]
    exact hpass.wakeAll _

/-- In every round the task in front runs once. -/
theorem Underway.runFront (h : Underway env id m k s) (fuel rounds : Nat) :
    Underway env id m (k + rounds * fuel) (s.runFront env fuel id rounds) := by
  -- on the rounds: in each the task makes at most `fuel` steps, and none from the queue
  induction rounds generalizing k s with
  | zero =>
    rw [Nat.zero_mul]
    exact h
  | succ rounds ih =>
    have hrun : Underway env id m (k + fuel)
        (if s.frontReady then { s with frontReady := false }.run env fuel id else s) := by
      split
      · have hready : Underway env id m k { s with frontReady := false } :=
          ⟨h.front, h.queue, h.moves, h.endings⟩
        exact hready.run (Nat.le_add_right k fuel) (moves_runSteps fuel h.moves)
      · exact h.mono (Nat.le_add_right k fuel)
    have hsum : k + (rounds + 1) * fuel = k + fuel + rounds * fuel := by
      rw [Nat.succ_mul, Nat.add_comm (rounds * fuel) fuel, Nat.add_assoc]
    rw [hsum]
    unfold Schedule.runFront
    generalize (if s.frontReady then { s with frontReady := false }.run env fuel id else s) = s'
      at hrun
    have hqueue := hrun.runQueue fuel turnsInRow
    dsimp only
    split_ifs
    · exact hrun.mono (Nat.le_add_right _ _)
    · exact hrun.mono (Nat.le_add_right _ _)
    · have hblocked : Underway env id m (k + fuel)
          ((s'.runQueue env fuel turnsInRow).cutShort env id .blocked) :=
        hqueue.cutShort id fun _ _ => nofun
      exact hblocked.mono (Nat.le_add_right _ _)
    · exact ih hqueue.passToNext
    · exact ih hqueue

/-- A machine with a request in front, and nothing else to do. -/
def fronted (m : Machine World Writer) (r : Request) : Schedule World Writer :=
  ⟨m.add (.ofRequest Writer r), [], some m.nextTask, true, [], [], []⟩

theorem underway_limit (env : Env World Writer) (m : Machine World Writer) (r : Request)
    (ms : Option Nat) :
    Underway env m.nextTask (m.add (.ofRequest Writer r)) 0
      ((fronted m r).limit m.nextTask ms) := by
  have hfronted : Underway env m.nextTask (m.add (.ofRequest Writer r)) 0 (fronted m r) :=
    ⟨rfl, List.not_mem_nil, .start, fun _ _ hmem => absurd hmem List.not_mem_nil⟩
  cases ms with
  | none => exact hfronted
  | some ms => exact ⟨hfronted.front, hfronted.queue, hfronted.moves, hfronted.endings⟩

/-- **A schedule runs the machine.** A result that a request in front comes to, if it was not given
up, is one that its task comes to by moves of the machine, and a bound on the rounds of the schedule
is one on the steps of the task. -/
theorem ends_of_perform {fuel : Nat} {r : Request} {limit : Option Nat}
    {s' : Schedule World Writer} {result : Except StoreError Outcome} {visited : List Entry}
    (h : (ofMachine m).perform env fuel r limit = (s', some (.done result visited))) :
    Ends env m.nextTask (m.add (.ofRequest Writer r)) (fuel * fuel) result visited := by
  obtain ⟨-, hending⟩ := Prod.mk.inj h
  have hrun := (underway_limit env m r limit).runFront fuel fuel
  rw [Nat.zero_add] at hrun
  exact hrun.endings result visited (mem_of_lookup hending)

end Schedule

end Depot.Storage
