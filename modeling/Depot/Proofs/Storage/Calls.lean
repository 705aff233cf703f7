import Depot.Proofs.Storage.Serves

/-!
# Calls on clients

Over a backend that records its calls, a step of a task adds calls to the record, and the calls on a
client that it adds are made on the client that the task has (`Turn.calls`). As no two tasks have
one client (`Orderly.has_unique`), nobody else uses a client meanwhile. A client that is retired and
destroyed stays so (`Lost.happen`).
-/

set_option autoImplicit false

namespace Depot.Storage

variable {World Writer : Type} {setup : Setup} {b : Backend World Writer}

/-- The surroundings of a storage over a backend whose calls are recorded. -/
abbrev recording (setup : Setup) (b : Backend World Writer) :
    Env (Recorded World) (Client × Writer) :=
  ⟨setup, recorded b⟩

/-- A writer goes with the client that it was opened on. -/
def OpenedOn (c : Client) (_ : String) (w : Client × Writer) : Prop := w.1 = c

theorem binds_recorded (setup : Setup) (b : Backend World Writer) :
    Binds (recording setup b) OpenedOn where
  opened := by
    intro c key world writer h
    simp only [recorded, Recorded.answer] at h
    generalize (b.openWriter c setup.bucket key setup.options world.world).result = reply at h
    cases reply with
    | ok w =>
      cases h
      rfl
    | error e => cases h
  wrote _ _ _ _ _ h := h
  finished _ _ _ _ h := h

/-! ## What a step adds to the record -/

section Calls

variable {m : Machine (Recorded World) (Client × Writer)} {task : Task (Client × Writer)}
  {n : Next (Recorded World) (Client × Writer)} {c : Client}

/-- Calls were added to the record, those on a client to be found by `own`. -/
def Adds (own : Client → Prop) (w w' : Recorded World) : Prop :=
  ∃ more, w'.calls = w.calls ++ more ∧ ∀ c, .use c ∈ more → own c

theorem Adds.refl (own : Client → Prop) (w : Recorded World) : Adds own w w :=
  ⟨[], by simp, by simp⟩

theorem Adds.one {own : Client → Prop} {w w' : Recorded World} {call : Call}
    (h : w'.calls = w.calls ++ [call]) (hown : ∀ c, call = .use c → own c) : Adds own w w' := by
  refine ⟨[call], h, ?_⟩
  intro c hc
  rw [List.mem_singleton] at hc
  exact hown c hc.symm

theorem Adds.trans {own : Client → Prop} {w w' w'' : Recorded World} (h : Adds own w w')
    (h' : Adds own w' w'') : Adds own w w'' := by
  obtain ⟨more, e, hown⟩ := h
  obtain ⟨more', e', hown'⟩ := h'
  refine ⟨more ++ more', ?_, ?_⟩
  · rw [e', e, List.append_assoc]
  · intro c hc
    rcases List.mem_append.1 hc with hc | hc
    · exact hown c hc
    · exact hown' c hc

/-- A task that has a client calls nothing but this client. -/
theorem Works.calls {w : Recorded World} {visited : List Entry} {phase : Phase (Client × Writer)}
    {k : Work (Recorded World) (Client × Writer)}
    (h : Works (recording setup b) c w visited phase k)
    (hs : ∀ key writer, phase.writer? = some (key, writer) → OpenedOn c key writer) :
    Adds (· = c) w k.world := by
  have hself : ∀ c', Call.use c = .use c' → c' = c := by
    rintro _ ⟨⟩
    rfl
  cases h with
  | openReader ha | openWriter ha | look ha | delete ha | measure ha | ask _ ha | copy ha =>
    subst ha
    exact .one rfl hself
  | flush _ ha =>
    subst ha
    obtain rfl : _ = c := hs _ _ rfl
    exact .one rfl hself
  | write _ ha =>
    cases ha
    obtain rfl : _ = c := hs _ _ rfl
    exact .one rfl hself
  | finish ha =>
    cases ha
    obtain rfl : _ = c := hs _ _ rfl
    exact .one rfl hself
  | broken _ | unwritten _ | unflushed | completed | incomplete =>
    -- a writer that is let go of is no call
    exact ⟨[], by simp [Work.world, recorded], by simp⟩
  | _ => exact .refl _ _

/-- **The calls of a step.** A task calls no client but the one that it has. -/
theorem Turn.calls (h : Turn (recording setup b) m task n) (hs : task.Bound OpenedOn) :
    Adds (fun c => task.client = some c) m.world n.world := by
  cases h with
  | acquire _ hn =>
    cases hn with
    | reject ha _ | create ha _ =>
      subst ha
      exact .one rfl nofun
    | _ => exact .refl _ _
  | @work t c k _ _ _ hc hw hn =>
    obtain ⟨more, e, hmore⟩ := hw.calls (hs.of_client hc)
    have hadds : Adds (fun c' => task.client = some c') m.world k.world := by
      refine ⟨more, e, ?_⟩
      intro c' hc'
      rw [hc, hmore c' hc']
    cases hn with
    | keep _ | giveBack _ _ | giveLate _ _ => exact hadds
    | destroy _ ha _ =>
      subst ha
      exact hadds.trans (.one rfl nofun)
  | disconnect _ _ ha _ | drainPool _ _ ha _ | closeNext _ _ _ ha _ | startDestroy _ _ _ _ ha _ =>
    subst ha
    exact .one rfl nofun
  | _ => exact .refl _ _

theorem Cut.calls {p : Pool} {world : Recorded World} {left : Option Ticket}
    (h : Cut (recording setup b) m task p world left) : world.calls = m.world.calls := by
  cases h with
  | drop _ _ _ _ hworld =>
    rcases hworld with rfl | ⟨writer, rfl⟩
    · rfl
    · rfl
  | _ => rfl

end Calls

/-! ## Clients of tasks -/

section Clients

variable {m m' : Machine (Recorded World) (Client × Writer)} {id id' : TaskId} {c : Client}
  {task : Task (Client × Writer)} {e : Event}

/-- The party of a task that has a client has it too. -/
theorem Task.Sound.exists_holder {World Writer : Type} {m : Machine World Writer}
    {task : Task Writer} (h : task.Sound m.pool) (hc : task.client = some c) :
    ∃ t, task.ticket = some t ∧ m.pool.party? t = some (.holding c) ∧
      task.phase.stage = .holding := by
  cases h with
  | apart _ _ hnone =>
    rw [hnone] at hc
    cases hc
  | party ht hx hstands =>
    rw [hc] at hstands
    generalize task.phase.stage = stage at hstands ⊢
    cases hstands with
    | holding c => exact ⟨_, ht, hx, rfl⟩

/-- No two tasks have one client. -/
theorem Orderly.has_unique {World Writer : Type} {m : Machine World Writer} (ho : Orderly m)
    (h : m.Has id c) (h' : m.Has id' c) : id = id' := by
  obtain ⟨task, htask, hc⟩ := h
  obtain ⟨task', htask', hc'⟩ := h'
  obtain ⟨t, ht, hx, -⟩ := (ho.sound id task htask).exists_holder hc
  obtain ⟨t', ht', hx', -⟩ := (ho.sound id' task' htask').exists_holder hc'
  obtain rfl := ho.pool.holder_unique hx hx'
  exact ho.own id id' task task' t htask htask' ht ht'

/-- A retired client is no task's. -/
theorem Orderly.not_has_of_retired {World Writer : Type} {m : Machine World Writer}
    (ho : Orderly m) (hc : m.pool.Retired c) : ¬ m.Has id c := by
  rintro ⟨task, htask, hclient⟩
  obtain ⟨t, -, hx, -⟩ := (ho.sound id task htask).exists_holder hclient
  exact hc.borrowed (Pool.mem_borrowed hx)

/-- All writers were opened on the clients of their tasks. -/
def AllBound (m : Machine (Recorded World) (Client × Writer)) : Prop :=
  ∀ id task, m.task? id = some task → task.Bound OpenedOn

theorem AllBound.run (ho : Orderly m) (hm : AllBound m) {events : List Event}
    (he : ∀ r, .request r ∈ events → r.isOperation = true) :
    AllBound (m.run (recording setup b) events) :=
  ho.forall_tasks he (fun _ => nofun) (fun _ => nofun)
    (fun _ _ _ h => h.bound (binds_recorded setup b)) hm

/-- What happens only adds to the record. -/
theorem Happens.calls (h : Happens (recording setup b) m e m') (hm : AllBound m) :
    ∃ more, m'.world.calls = m.world.calls ++ more := by
  cases h with
  | turn htask hturn hm' =>
    obtain ⟨more, hmore, -⟩ := hturn.calls (hm _ _ htask)
    rw [Machine.world_of_follow hm']
    exact ⟨more, hmore⟩
  | cut _ _ hcut hm' =>
    rw [Machine.world_of_without hm', hcut.calls]
    exact ⟨[], by simp⟩
  | _ => exact ⟨[], by simp [Machine.add]⟩

/-- Who uses a client has it. -/
theorem Orderly.has_of_uses (ho : Orderly m) (hm : AllBound m)
    (h : m.Uses (recording setup b) id c) : m.Has id c := by
  rcases Machine.step_turn (ho.plain id) (ho.sound id) (recording setup b) with
    ⟨e, -⟩ | ⟨task, n, htask, hturn, e⟩
  · -- a task that waits makes no call
    rw [Machine.Uses, e] at h
    simp at h
  · obtain ⟨more, hmore, hown⟩ := hturn.calls (hm id task htask)
    rw [Machine.Uses, Machine.world_of_follow e, hmore, List.drop_left] at h
    exact ⟨task, htask, hown c h⟩

/-! ## Clients that are lost -/

/-- A client is not in use, nor will be, and is destroyed: the call was made, or a task that has not
begun is to make it in the background. -/
structure Lost (m : Machine (Recorded World) (Client × Writer)) (c : Client) : Prop where
  retired : m.pool.Retired c
  doomed : .destroy c ∈ m.world.calls ∨ ∃ id t, m.task? id = some (.ofDiscard (Client × Writer) t) ∧
    m.pool.party? t = some (.discarding c)

/-- The first step of a task in the background is to destroy its client. -/
theorem step_ofDiscard {t : Ticket} (htask : m.task? id = some (.ofDiscard (Client × Writer) t))
    (hx : m.pool.party? t = some (.discarding c)) :
    .destroy c ∈ (m.step (recording setup b) id).world.calls := by
  obtain ⟨p, hp⟩ : ∃ p, m.pool.startDestroy t = (p, some c) := by
    simp only [Pool.startDestroy, hx]
    exact ⟨_, rfl⟩
  have hstep : m.step (recording setup b) id =
      (m.withPool p).answered id (.ofDiscard _ t) ((recorded b).destroy c m.world) .discarded := by
    rw [Machine.step_eq_resume htask rfl]
    simp only [Machine.resume, Task.ofDiscard, hp]
    rfl
  obtain ⟨alarm, -, e⟩ := Machine.bare_answered (m.withPool p) id (.ofDiscard (Client × Writer) t)
    ((recorded b).destroy c m.world) .discarded
  have hworld : (m.step (recording setup b) id).world = ((recorded b).destroy c m.world).world := by
    rw [hstep]
    exact congrArg (·.world) e
  rw [hworld]
  exact List.mem_append_right _ (List.mem_singleton.2 rfl)

theorem Lost.doom (h : Lost m c) : m.Doomed (recording setup b) c := by
  rcases h.doomed with hcall | ⟨id, t, htask, hx⟩
  · exact Or.inl hcall
  · exact Or.inr ⟨id, _, htask, rfl, step_ofDiscard htask hx⟩

/-- **What is lost stays lost.** -/
theorem Lost.happen (h : Lost m c) (ho : Orderly m) (hm : AllBound m) (e : Event) :
    Lost (m.happen (recording setup b) e) c := by
  have hh := ho.happens (recording setup b) e
  obtain ⟨es, hsteps⟩ := ho.steps_of_happens hh
  obtain ⟨more, hcalls⟩ := hh.calls hm
  refine ⟨h.retired.steps ho.pool.table hsteps, ?_⟩
  rcases h.doomed with hcall | ⟨id, t, htask, hx⟩
  · rw [hcalls]
    exact Or.inl (List.mem_append_left _ hcall)
  · by_cases hstep : e = .step id
    · -- the task in the background destroys the client now
      subst hstep
      exact Or.inl (step_ofDiscard htask hx)
    · by_cases hcancel : e = .cancel id
      · -- it is not cancelled
        subst hcancel
        have hback : (Task.ofDiscard (Client × Writer) t).isBackground = true := rfl
        simp only [Machine.happen, htask, Option.any_some, hback, if_true]
        exact Or.inr ⟨id, t, htask, hx⟩
      · obtain ⟨htask', hparty⟩ := ho.untouched hh htask hstep hcancel
        rcases hparty t _ rfl hx with hx' | ⟨hw, -⟩
        · exact Or.inr ⟨id, t, htask', hx'⟩
        · cases hw

theorem Lost.run (h : Lost m c) (ho : Orderly m) (hm : AllBound m) {events : List Event}
    (he : ∀ r, .request r ∈ events → r.isOperation = true) :
    Lost (m.run (recording setup b) events) c := by
  induction events generalizing m with
  | nil => exact h
  | cons e events ih =>
    have hone : ∀ r, .request r ∈ [e] → r.isOperation = true := by
      intro r hr
      rw [List.mem_singleton] at hr
      exact he r (hr ▸ List.mem_cons_self)
    exact ih (h.happen ho hm e) (ho.run hone) (hm.run ho hone) (isOperation_of_cons he).2

end Clients

end Depot.Storage
