import Depot.Proofs.Key.Algebra
import Depot.Proofs.Memory
import Depot.Proofs.Storage.Serves
import Depot.Storage.Connect
import Depot.Storage.Effects
import Mathlib.Data.List.Infix

/-!
# What operations change

Over a store in memory a request changes at most one object, at a place below its own root, and only
with the one call that completes it. A task that has made this call has got its answer at once
(`Phase.isDone`), makes no other, and returns with success. The main statement is
`operation_contained`: an operation that fails, or is cancelled where it waits, has changed nothing.
-/

set_option autoImplicit false

namespace Depot

/-- **No path leaves its root.** -/
theorem Key.within_below (root path : String) :
    Within (normalize root) (below (normalize root) path) := by
  have hroot := canonical_resolve root.toList
  have hpath := canonical_resolve path.toList
  rw [below_normalize]
  by_cases hr : resolve [] root.toList = []
  · refine Or.inl ?_
    rw [normalize, hr]
    rfl
  · by_cases hp : resolve [] path.toList = []
    · refine Or.inr (Or.inl ?_)
      rw [hp, List.append_nil, normalize]
    · refine Or.inr (Or.inr ?_)
      exact (render_push_prefix_iff hroot hr (hroot.append hpath)).2 ⟨_, hp, rfl⟩

namespace Storage

/-! ## Requests and the objects that they may change -/

section Target

variable {setup : Setup} {r : Request} {l : Memory.Location}

/-- The key that a goal may change. -/
def Goal.changed? : Goal → Option String
  | put key _ => some key
  | delete key => some key
  | copy _ _ key => some key
  | _ => none

theorem Request.Wants.target {g : Goal} (h : r.Wants setup g) :
    r.target setup = g.changed?.map fun key => ⟨setup.bucket, key⟩ := by
  cases r with
  | deleteDisk path | copy _ _ path =>
    simp only [Wants, goal, Option.some.injEq] at h
    cases hkey : setup.roots.diskKey path with
    | error e =>
      rw [hkey] at h
      cases h
    | ok key =>
      rw [hkey] at h
      cases h
      simp only [target, hkey]
      rfl
  | invalidate | closePool | close => cases h
  | _ =>
    cases h
    rfl

/-- The object that a request may change lies in the bucket of the storage and below its root. -/
theorem Request.target_within {kind : String} {c : Config}
    (h : r.target (.ofConfig kind c) = some l) :
    l.bucket = c.bucket ∧ ∃ root, r.targetRoot c.roots = some root ∧ Key.Within root l.key := by
  have hdisk : ∀ path, ((c.roots.diskKey path).toOption.map fun key =>
      (⟨c.bucket, key⟩ : Memory.Location)) = some l →
      l.bucket = c.bucket ∧ ∃ root, c.roots.disk = some root ∧ Key.Within root l.key := by
    intro path hl
    cases hroot : c.diskPath with
    | none => simp [Config.roots, Roots.ofPaths, Roots.diskKey, hroot, Except.toOption] at hl
    | some root =>
      simp only [Config.roots, Roots.ofPaths, Roots.diskKey, hroot, Option.map_some,
        Except.toOption, Option.some.injEq] at hl ⊢
      subst hl
      exact ⟨rfl, _, rfl, Key.within_below root path⟩
  cases r with
  | put path _ | delete path =>
    cases h
    exact ⟨rfl, _, rfl, Key.within_below c.path path⟩
  | deleteDisk path | copy _ _ path => exact hdisk path h
  | _ => cases h

end Target

/-! ## One step -/

/-- Whether a task has completed what it was to change, and has only to return. -/
def Phase.isDone {Writer : Type} : Phase Writer → Bool
  | completed _ (.ok ()) => true
  | deleted _ (.ok ()) => true
  | copied _ _ _ _ (.ok ()) => true
  | _ => false

section Step

variable {setup : Setup} {r : Request} {m : Machine Memory Memory.Writer}
  {task : Task Memory.Writer} {n : Next Memory Memory.Writer} {c : Client}

/-- A writer stores what was written where it was opened. -/
def OpenedAt (setup : Setup) (_ : Client) (key : String) (w : Memory.Writer) : Prop :=
  w.location = ⟨setup.bucket, key⟩

/-- The surroundings of a storage over a store in memory. -/
abbrev storing (setup : Setup) : Env Memory Memory.Writer := ⟨setup, Memory.backend⟩

/-- Clients of a store in memory stay valid. -/
theorem storing_isValid (setup : Setup) (c : Client) (w : Memory) :
    (storing setup).backend.isValid c w = true := rfl

theorem binds_memory (setup : Setup) : Binds (storing setup) (OpenedAt setup) where
  opened := by
    intro c key world writer h
    rw [Memory.eq_of_openWriter h]
    rfl
  wrote _ _ _ _ _ h := h
  finished _ _ writer world h := (Memory.finish_writer writer world).1.trans h

/-- What a task that has a client does changes no object, unless it completes its change. -/
theorem Works.objects {w : Memory} {visited : List Entry} {phase : Phase Memory.Writer}
    {k : Work Memory Memory.Writer} (h : Works (storing setup) c w visited phase k)
    (hs : phase.Serves setup r)
    (hb : ∀ key writer, phase.writer? = some (key, writer) → OpenedAt setup c key writer) :
    k.world.objects = w.objects ∨ phase.isDone = false ∧
      (∃ l, r.target setup = some l ∧
        ∀ l', l' ≠ l → k.world.objects.get? l' = w.objects.get? l') ∧
      ∃ phase', phase'.isDone = true ∧ k = .keep phase' k.world 0 visited := by
  cases h with
  | openReader ha | look ha | measure ha =>
    subst ha
    exact Or.inl (Memory.call_objects _ (Memory.look_fst _ _) c _ w)
  | openWriter ha =>
    subst ha
    exact Or.inl (Memory.call_objects (fun m => (m, .ok _)) (fun _ => rfl) c _ w)
  | ask _ ha =>
    subst ha
    exact Or.inl (Memory.call_objects _ (fun _ => rfl) c _ w)
  | flush _ ha =>
    subst ha
    exact Or.inl rfl
  | write _ ha =>
    cases ha
    exact Or.inl rfl
  | @delete key a ha =>
    have halters : Memory.Alters ⟨setup.bucket, key⟩ w a :=
      ha ▸ Memory.alters_delete ⟨setup.bucket, key⟩ c w
    rcases halters.result with ⟨hsame, -⟩ | ⟨hok, hframe⟩
    · exact Or.inl hsame
    · refine Or.inr ⟨rfl, ⟨_, hs.target, hframe⟩, .deleted key (.ok ()), rfl, ?_⟩
      rw [← hok, ← halters.delay]
      rfl
  | @finish u writer a ha =>
    have halters : Memory.Alters u.writer.location w a := by
      have h := Memory.alters_finish u.writer w
      rwa [show Memory.finish u.writer w = (writer, a) from ha] at h
    rcases halters.result with ⟨hsame, -⟩ | ⟨hok, hframe⟩
    · exact Or.inl hsame
    · obtain ⟨source, hwants⟩ := hs
      have hlocation : u.writer.location = ⟨setup.bucket, u.key⟩ := hb u.key u.writer rfl
      rw [hlocation] at hframe
      refine Or.inr ⟨rfl, ⟨_, hwants.target, hframe⟩, ?_⟩
      refine ⟨.completed { u with writer } (.ok ()), rfl, ?_⟩
      rw [← hok, ← halters.delay]
      rfl
  | @copy sourceBucket sourceKey key at' a ha =>
    have halters : Memory.Alters ⟨setup.bucket, key⟩ w a :=
      ha ▸ Memory.alters_copy ⟨sourceBucket, sourceKey⟩ ⟨setup.bucket, key⟩ c w
    rcases halters.result with ⟨hsame, -⟩ | ⟨hok, hframe⟩
    · exact Or.inl hsame
    · refine Or.inr ⟨rfl, ⟨_, Request.Wants.target hs, hframe⟩,
        .copied sourceBucket sourceKey key at'.size (.ok ()), rfl, ?_⟩
      rw [← hok, ← halters.delay]
      rfl
  | _ => exact Or.inl rfl

/-- A task that has no client changes no object. -/
theorem Turn.objects_of_stage (h : Turn (storing setup) m task n)
    (hs : task.phase.stage ≠ .holding) : n.world.objects = m.world.objects := by
  cases h with
  | work _ _ _ hw _ => exact absurd hw.stage_eq hs
  | acquire _ hn =>
    cases hn with
    | reject ha _ =>
      subst ha
      exact Memory.destroy_objects m.world
    | create ha _ =>
      subst ha
      exact Memory.create_objects m.world
    | _ => rfl
  | disconnect _ _ ha _ | drainPool _ _ ha _ | closeNext _ _ _ ha _ | startDestroy _ _ _ _ ha _ =>
    subst ha
    exact Memory.destroy_objects m.world
  | _ => rfl

/-- **Every step.** A task changes no object, or at most the one that its request is for, and then
it has completed what it was to do. -/
theorem Turn.objects (h : Turn (storing setup) m task n) (hs : task.phase.Serves setup r)
    (hb : task.Bound (OpenedAt setup)) : n.world.objects = m.world.objects ∨
      task.phase.isDone = false ∧ n.task.phase.isDone = true ∧ n.task.alarm = none ∧
        ∃ l, r.target setup = some l ∧
          ∀ l', l' ≠ l → n.world.objects.get? l' = m.world.objects.get? l' := by
  by_cases hstage : task.phase.stage = .holding
  · obtain ⟨t, c, k, -, -, hc, hw, hn⟩ := h.of_holding hstage
    rcases hw.objects hs (hb.of_client hc) with hsame | ⟨hnot, hl, phase', hdone, hk⟩
    · -- to destroy the client is no change either
      refine Or.inl (Eq.trans ?_ hsame)
      cases hn with
      | destroy _ ha _ =>
        subst ha
        exact Memory.destroy_objects _
      | _ => rfl
    · refine Or.inr ⟨hnot, ?_⟩
      generalize k.world = world at hk hl
      subst hk
      cases hn with
      | keep hrings => exact ⟨hdone, hrings.2 rfl, hl⟩
  · exact Or.inl (h.objects_of_stage hstage)

/-- A task has completed what it was to change, or has returned with success. -/
def Task.IsDone {Writer : Type} (task : Task Writer) : Prop :=
  task.phase.isDone = true ∧ task.alarm = none ∨ task.returned? = some (.ok ())

theorem Phase.stage_of_isDone {Writer : Type} {phase : Phase Writer} (h : phase.isDone = true) :
    phase.stage = .holding := by
  cases phase <;> first | rfl | cases h

theorem Task.returned?_of_stage {Writer : Type} {task : Task Writer}
    (h : task.phase.stage = .holding) : task.returned? = none := by
  unfold Task.returned?
  split
  · rename_i heq
    rw [heq] at h
    cases h
  · rename_i heq
    rw [heq] at h
    cases h
  · rfl

/-- Who has completed its change gives its client back and returns with success. -/
theorem Works.of_isDone {World Writer : Type} {env : Env World Writer} {w : World}
    {visited : List Entry} {phase : Phase Writer} {k : Work World Writer}
    (h : Works env c w visited phase k) (hd : phase.isDone = true) :
    ∃ outcome world, k = .giveBack (.ended (.ok outcome)) world visited := by
  cases h with
  | completed | deleted | copied => exact ⟨_, _, rfl⟩
  | _ => cases hd

theorem Turn.isDone {World Writer : Type} {env : Env World Writer} {m : Machine World Writer}
    {task : Task Writer} {n : Next World Writer} (h : Turn env m task n) (hd : task.IsDone) :
    n.task.IsDone := by
  rcases hd with ⟨hphase, -⟩ | hr
  · obtain ⟨t, c, k, -, -, -, hw, hn⟩ := h.of_holding (Phase.stage_of_isDone hphase)
    obtain ⟨outcome, world, rfl⟩ := hw.of_isDone hphase
    cases hn with
    | giveBack _ _ | giveLate _ _ => exact Or.inr rfl
  · exact Or.inr (h.of_returned hr).2.2.2

end Step

/-! ## Runs -/

section Run

variable {setup : Setup} {r : Request} {m m' : Machine Memory Memory.Writer} {id : TaskId}
  {task : Task Memory.Writer} {l : Memory.Location} {e : Event} {first events : List Event}

/-- Objects change in steps of tasks that have a client. -/
theorem Happens.objects (h : Happens (storing setup) m e m') :
    m'.world.objects = m.world.objects ∨
      ∃ id task n, e = .step id ∧ m.task? id = some task ∧ task.phase.stage = .holding ∧
        Turn (storing setup) m task n ∧ m'.bare = (m.follow id n).bare := by
  cases h with
  | @turn id task n _ htask hturn hm' =>
    by_cases hstage : task.phase.stage = .holding
    · exact Or.inr ⟨id, task, n, rfl, htask, hstage, hturn, hm'⟩
    · refine Or.inl ?_
      rw [Machine.world_of_follow hm']
      exact hturn.objects_of_stage hstage
  | cut _ _ hcut hm' =>
    refine Or.inl ?_
    rw [Machine.world_of_without hm']
    cases hcut with
    | drop _ _ _ _ hworld =>
      rcases hworld with rfl | ⟨writer, rfl⟩
      · rfl
      · rfl
    | _ => rfl
  | _ => exact Or.inl rfl

/-- Who changes an object has a client. -/
theorem Orderly.holding_of_changes (ho : Orderly m)
    (h : Machine.Changes id l m e (m.happen (storing setup) e)) :
    ∃ task, m.task? id = some task ∧ task.phase.stage = .holding := by
  obtain ⟨rfl, hne⟩ := h
  rcases (ho.happens (storing setup) (.step id)).objects with
    hsame | ⟨_, task, n, he, htask, hstage, -⟩
  · rw [hsame] at hne
    exact absurd rfl hne
  · cases he
    exact ⟨task, htask, hstage⟩

/-- Who changes an object was to do so, and has completed it. -/
theorem Orderly.isDone_of_changes (ho : Orderly m)
    (hserves : ∀ task, m.task? id = some task → task.phase.Serves setup r)
    (hbound : ∀ task, m.task? id = some task → task.Bound (OpenedAt setup))
    (h : Machine.Changes id l m e (m.happen (storing setup) e)) :
    r.target setup = some l ∧ (∀ task, m.task? id = some task → ¬ task.IsDone) ∧
      ∀ task, (m.happen (storing setup) e).task? id = some task → task.IsDone := by
  obtain ⟨rfl, hne⟩ := h
  rcases (ho.happens (storing setup) (.step id)).objects with
    hsame | ⟨_, task, n, he, htask, hstage, hturn, hm'⟩
  · rw [hsame] at hne
    exact absurd rfl hne
  · cases he
    rw [Machine.world_of_follow hm'] at hne
    rcases hturn.objects (hserves task htask) (hbound task htask) with
      hsame | ⟨hnot, hdone, halarm, l', htarget, hframe⟩
    · rw [hsame] at hne
      exact absurd rfl hne
    · refine ⟨?_, ?_, ?_⟩
      · by_cases hl : l = l'
        · rw [hl, htarget]
        · exact absurd (hframe l hl) hne
      · intro task' htask'
        rw [htask] at htask'
        cases htask'
        rintro (⟨hd, -⟩ | hr)
        · rw [hnot] at hd
          cases hd
        · rw [Task.returned?_of_stage hstage] at hr
          cases hr
      · intro task' htask'
        rw [Machine.task?_of_follow hm' htask] at htask'
        cases htask'
        exact Or.inl ⟨hdone, halarm⟩

/-- What differs after a run was changed by a task in a step of the run. -/
theorem Orderly.exists_changes (ho : Orderly m)
    (he : ∀ r, .request r ∈ events → r.isOperation = true)
    (h : (m.run (storing setup) events).world.objects.get? l ≠ m.world.objects.get? l) :
    ∃ id, m.Once (storing setup) events (Machine.Changes id l) := by
  induction events using List.reverseRecOn with
  | nil => exact absurd rfl h
  | append_singleton events e ih =>
    have he' : ∀ r, .request r ∈ events → r.isOperation = true :=
      fun r hr => he r (List.mem_append_left _ hr)
    by_cases hsame : (m.run (storing setup) events).world.objects.get? l =
        m.world.objects.get? l
    · -- it was the last event
      rw [← hsame] at h
      have hchanged : (m.run (storing setup) (events ++ [e])).world.objects ≠
          (m.run (storing setup) events).world.objects := fun heq => h (by rw [heq])
      rw [Machine.run_concat] at h hchanged
      rcases ((ho.run he').happens (storing setup) e).objects with
        heq | ⟨id, -, -, rfl, -⟩
      · exact absurd heq hchanged
      · refine ⟨id, events, .step id, List.prefix_rfl, rfl, ?_⟩
        rw [Machine.run_concat]
        exact h
    · obtain ⟨id, first, e', hfirst, hchanges⟩ := ih he' hsame
      exact ⟨id, first, e', hfirst.trans (List.prefix_append _ _), hchanges⟩

/-- An event is among the first ones of a run, among those that follow them, or later. -/
theorem prefix_cases {before rest : List Event} (h : before ++ [e] <+: events)
    (h' : first ++ rest <+: events) :
    before ++ [e] <+: first ∨ e ∈ rest ∨ first ++ rest <+: before := by
  have hsplit : before ++ [e] <+: first ++ rest ∨ first ++ rest <+: before := by
    rcases List.prefix_or_prefix_of_prefix h h' with hle | hge
    · exact Or.inl hle
    · rcases List.prefix_concat_iff.1 hge with heq | hge
      · exact Or.inl (heq ▸ List.prefix_rfl)
      · exact Or.inr hge
  rcases hsplit with hle | hge
  · rcases List.prefix_or_prefix_of_prefix hle (List.prefix_append first rest) with h₁ | h₁
    · exact Or.inl h₁
    · rcases List.prefix_concat_iff.1 h₁ with heq | ⟨more, rfl⟩
      · exact Or.inl (heq ▸ List.prefix_rfl)
      · rw [List.append_assoc, List.prefix_append_right_inj] at hle
        exact Or.inr (Or.inl (hle.mem (by simp)))
  · exact Or.inr (Or.inr hge)

/-- What the steps of a task keep holds of it later in a run. -/
theorem Orderly.forall_task_of_prefix {World Writer : Type} {env : Env World Writer}
    {m : Machine World Writer} {P : Task Writer → Prop} (ho : Orderly m)
    (he : ∀ r, .request r ∈ events → r.isOperation = true) (hfirst : first <+: events)
    (hid : id < (m.run env first).nextTask)
    (hturn : ∀ m task n, Turn env m task n → P task → P n.task)
    (hm : ∀ task, (m.run env first).task? id = some task → P task) :
    ∀ task, (m.run env events).task? id = some task → P task := by
  obtain ⟨more, rfl⟩ := hfirst
  rw [Machine.run_append]
  exact (ho.run fun r hr => he r (List.mem_append_left _ hr)).forall_task
    (fun r hr => he r (List.mem_append_right _ hr)) hid hturn hm

/-- A task that changes something is about its request, and had not completed it. -/
theorem Orderly.of_once_changes {before after : List Event} (ho : Orderly m)
    (he : ∀ r', .request r' ∈ Event.request r :: after → r'.isOperation = true)
    (hb : ∀ id task, m.task? id = some task → task.Bound (OpenedAt setup))
    (hbefore : before ++ [e] <+: .request r :: after)
    (h : Machine.Changes m.nextTask l (m.run (storing setup) before) e
      (m.run (storing setup) (before ++ [e]))) :
    r.target setup = some l ∧ ∀ task,
      (m.run (storing setup) (before ++ [e])).task? m.nextTask = some task → task.IsDone := by
  have hpart := (List.prefix_append before [e]).trans hbefore
  have hops : ∀ r', .request r' ∈ before → r'.isOperation = true :=
    fun r' hr' => he r' (hpart.mem hr')
  have hbound : ∀ task, (m.run (storing setup) before).task? m.nextTask = some task →
      task.Bound (OpenedAt setup) :=
    ho.forall_tasks hops (fun _ => nofun) (fun _ => nofun)
      (fun _ _ _ h => h.bound (binds_memory setup)) hb m.nextTask
  rw [Machine.run_concat] at h ⊢
  have hserves := ho.serves_of_prefix (storing setup) he hpart
  have hchanged := (ho.run hops).isDone_of_changes hserves hbound h
  exact ⟨hchanged.1, hchanged.2.2⟩

/-- An operation changes nothing in a run in which it has not completed its change at some moment,
and makes no step from then on until it is over. -/
theorem Orderly.not_changes {after : List Event} (ho : Orderly m)
    (he : ∀ r', .request r' ∈ Event.request r :: after → r'.isOperation = true)
    (hb : ∀ id task, m.task? id = some task → task.Bound (OpenedAt setup))
    (rest : List Event) (hfirst : first ++ rest <+: .request r :: after)
    (hrest : .step m.nextTask ∉ rest)
    (htask : (m.run (storing setup) first).task? m.nextTask = some task)
    (hnot : ¬ task.IsDone) (hover : (m.run (storing setup) (first ++ rest)).Over m.nextTask) :
    ¬ m.Once (storing setup) (.request r :: after) (Machine.Changes m.nextTask l) := by
  rintro ⟨before, e, hbefore, hchanges⟩
  have hops : ∀ {part}, part <+: Event.request r :: after →
      ∀ r', .request r' ∈ part → r'.isOperation = true :=
    fun hpart r' hr' => he r' (hpart.mem hr')
  have hpart := (List.prefix_append before [e]).trans hbefore
  have hpart' := (List.prefix_append first rest).trans hfirst
  obtain ⟨-, hdone⟩ := ho.of_once_changes he hb hbefore hchanges
  obtain ⟨task', htask', hstage⟩ : ∃ task',
      (m.run (storing setup) before).task? m.nextTask = some task' ∧
        task'.phase.stage = .holding := by
    rw [Machine.run_concat] at hchanges
    exact (ho.run (hops hpart)).holding_of_changes hchanges
  rcases prefix_cases hbefore hfirst with hearly | hbetween | hlate
  · -- what was completed before stays so
    have hid : m.nextTask < (m.run (storing setup) (before ++ [e])).nextTask := by
      rw [Machine.run_concat]
      have hlt := (ho.run (hops hpart)).lt_nextTask htask'
      exact Nat.lt_of_lt_of_le hlt ((ho.run (hops hpart)).happens _ e).nextTask_le
    exact hnot (ho.forall_task_of_prefix (hops hpart') hearly hid
      (fun _ _ _ h => h.isDone) hdone task htask)
  · -- it has made no step in between
    exact hrest (hchanges.1 ▸ hbetween)
  · -- who is over stays so
    have hid : m.nextTask < (m.run (storing setup) (first ++ rest)).nextTask := by
      rw [Machine.run_append]
      have hlt := (ho.run (hops hpart')).lt_nextTask htask
      refine Nat.lt_of_lt_of_le hlt ((ho.run (hops hpart')).nextTask_le_run ?_)
      exact fun r' hr' => hops hfirst r' (List.mem_append_right _ hr')
    have hreturned : ∀ m task n, Turn (storing setup) m task n →
        task.returned?.isSome = true → n.task.returned?.isSome = true := by
      intro m task n hturn hr
      obtain ⟨result, hr⟩ := Option.isSome_iff_exists.1 hr
      rw [(hturn.of_returned hr).2.2.2]
      rfl
    have hr := ho.forall_task_of_prefix (hops hpart) hlate hid hreturned hover task' htask'
    rw [Task.returned?_of_stage hstage] at hr
    cases hr

/-- A task that is interrupted has not completed its change. -/
theorem Task.not_isDone_of_suspended (hr : task.returned? = none) (hs : task.isSuspended = true) :
    ¬ task.IsDone := by
  rintro (⟨hdone, halarm⟩ | hok)
  · unfold Task.isSuspended at hs
    split at hs
    · rename_i heq
      rw [heq] at hdone
      cases hdone
    · rename_i heq
      rw [heq] at hdone
      cases hdone
    · rw [halarm] at hs
      cases hs
  · rw [hr] at hok
    cases hok

theorem Phase.Serves.isBackground (h : task.phase.Serves setup r) : task.isBackground = false := by
  unfold Task.isBackground
  split
  · rename_i heq
    rw [heq] at h
    exact h.elim
  · rename_i heq
    rw [heq] at h
    exact h.elim
  · rfl

/-- Who works in the background has no client. -/
theorem Task.isBackground_of_stage (h : task.phase.stage = .holding) :
    task.isBackground = false := by
  unfold Task.isBackground
  split
  · rename_i heq
    rw [heq] at h
    cases h
  · rename_i heq
    rw [heq] at h
    cases h
  · rfl

/-- An operation that fails, or is cancelled where it waits, changes nothing. -/
theorem Orderly.not_changes_of_fails {after : List Event} (ho : Orderly m)
    (he : ∀ r', .request r' ∈ Event.request r :: after → r'.isOperation = true)
    (hb : ∀ id task, m.task? id = some task → task.Bound (OpenedAt setup))
    (h : (∃ e, m.Returns (storing setup) (.request r :: after) m.nextTask (.error e)) ∨
      m.Interrupted (storing setup) (.request r :: after) m.nextTask) :
    ¬ m.Once (storing setup) (.request r :: after) (Machine.Changes m.nextTask l) := by
  rcases h with ⟨e, first, hfirst, task, htask, hr⟩ | ⟨first, hfirst, task, htask, hr, hs⟩
  · -- it is over at the moment when it has returned
    refine ho.not_changes he hb [] ?_ List.not_mem_nil htask ?_ ?_
    · rwa [List.append_nil]
    · rintro (⟨hdone, -⟩ | hok)
      · rw [Task.returned?_of_stage (Phase.stage_of_isDone hdone)] at hr
        cases hr
      · rw [hr] at hok
        cases hok
    · intro task' htask'
      rw [List.append_nil, htask] at htask'
      cases htask'
      rw [hr]
      rfl
  · -- it is over after its cancellation, which is no step of it
    refine ho.not_changes he hb [.cancel m.nextTask] hfirst (by simp) htask
      (Task.not_isDone_of_suspended hr hs) ?_
    have hpart := (List.prefix_append first [.cancel m.nextTask]).trans hfirst
    have hops : ∀ r', .request r' ∈ first → r'.isOperation = true :=
      fun r' hr' => he r' (hpart.mem hr')
    have hserves : task.phase.Serves setup r :=
      ho.serves_of_prefix (storing setup) he hpart task htask
    have ho' : Orderly (m.run (storing setup) first) := ho.run hops
    have hh := ho'.happens (storing setup) (.cancel m.nextTask)
    rw [Machine.run_concat]
    generalize (m.run (storing setup) first).happen (storing setup) (.cancel m.nextTask) = m'
      at hh ⊢
    cases hh with
    | cut htask' _ _ hm' =>
      intro task' htask''
      rw [ho'.task?_cancel htask' hm'] at htask''
      cases htask''
    | spared hback =>
      -- only who works in the background is not cancelled
      have hback := hback task htask
      rw [hserves.isBackground] at hback
      cases hback

/-- **Operations stay below their roots, and those that fail leave everything as it was.** Over a
store in memory with any objects in it and any failures ordered, after any history of the storage:

- the object that a request may change lies in the bucket of the storage, and its key is the root
  that it belongs to or lies below it;
- an operation changes nothing else, however it takes turns with others;
- if it returns an error, or is cancelled where it waits before it has returned, it has changed
  nothing;
- while no other operation is at work, nothing but the object that it may change differs in the end,
  and nothing at all if it fails. -/
theorem operation_contained {kind : String} {config : Config} {world : Memory}
    {m₀ : Machine Memory Memory.Writer}
    (hconnect : connect kind Memory.backend config world = .ok m₀) (before : List Event)
    (w : Memory) (r : Request) (after : List Event)
    (hoperations : ∀ r', .request r' ∈ before ++ .request r :: after → r'.isOperation = true) :
    let env : Env Memory Memory.Writer := ⟨.ofConfig kind config, Memory.backend⟩
    let m := (m₀.run env before).withWorld w
    let id := m.nextTask
    let events := .request r :: after
    let last := m.run env events
    let fails := (∃ e, m.Returns env events id (.error e)) ∨ m.Interrupted env events id
    (∀ l, r.target env.setup = some l →
      l.bucket = config.bucket ∧ ∃ root, r.targetRoot config.roots = some root ∧
        Key.Within root l.key) ∧
    (∀ l, m.Once env events (Machine.Changes id l) → r.target env.setup = some l) ∧
    (fails → ∀ l, ¬ m.Once env events (Machine.Changes id l)) ∧
    (m.Alone env events id →
      (∀ l, last.world.objects.get? l ≠ w.objects.get? l → r.target env.setup = some l) ∧
        (fails → ∀ l, last.world.objects.get? l = w.objects.get? l)) := by
  intro env m id events last fails
  have hbefore : ∀ r', .request r' ∈ before → r'.isOperation = true :=
    fun r' hr' => hoperations r' (List.mem_append_left _ hr')
  have hevents : ∀ r', .request r' ∈ events → r'.isOperation = true :=
    fun r' hr' => hoperations r' (List.mem_append_right _ hr')
  have ho₀ := Orderly.of_connect hconnect
  have hb : ∀ id task, m.task? id = some task → task.Bound (OpenedAt env.setup) := by
    refine ho₀.forall_tasks hbefore (fun _ => nofun) (fun _ => nofun)
      (fun _ _ _ h => h.bound (binds_memory env.setup)) ?_
    intro id task htask
    rw [task?_of_connect hconnect] at htask
    cases htask
  have ho : Orderly m := by
    -- the order of tasks and parties says nothing about what is stored
    have ho : Orderly (m₀.run env before) := ho₀.run hbefore
    exact ⟨ho.pool, ho.fresh, ho.plain, ho.sound, ho.own⟩
  have htarget : ∀ l, m.Once env events (Machine.Changes id l) → r.target env.setup = some l := by
    rintro l ⟨first, e, hfirst, hchanges⟩
    exact (ho.of_once_changes hevents hb hfirst hchanges).1
  have hfails : fails → ∀ l, ¬ m.Once env events (Machine.Changes id l) :=
    fun h l => ho.not_changes_of_fails hevents hb h
  refine ⟨fun l hl => Request.target_within hl, htarget, hfails, fun halone => ?_⟩
  have hself : ∀ l, last.world.objects.get? l ≠ w.objects.get? l →
      m.Once env events (Machine.Changes id l) := by
    intro l hne
    obtain ⟨id', first, e, hfirst, hchanges⟩ := ho.exists_changes hevents hne
    obtain rfl : e = .step id' := hchanges.1
    rcases halone first id' hfirst with rfl | hback
    · exact ⟨first, _, hfirst, hchanges⟩
    · -- nothing is changed in the background
      have hpart := (List.prefix_append first [.step id']).trans hfirst
      have hops : ∀ r', .request r' ∈ first → r'.isOperation = true :=
        fun r' hr' => hevents r' (hpart.mem hr')
      rw [Machine.run_concat] at hchanges
      obtain ⟨task, htask, hstage⟩ := (ho.run hops).holding_of_changes hchanges
      have hback := hback task htask
      rw [Task.isBackground_of_stage hstage] at hback
      cases hback
  refine ⟨fun l hl => htarget l (hself l hl), fun hf l => ?_⟩
  by_contra hne
  exact hfails hf l (hself l hne)

/-- An upload over an object that is cancelled in a pause of its source leaves the object as it
was. -/
theorem operation_contained_of_pause :
    ∃ (config : Config) (m : Machine Memory Memory.Writer) (w : Memory),
      connect "memory" Memory.backend config (.new 1) = .ok m ∧
      w.objects.get? ⟨"b", "a"⟩ ≠ none ∧
      ∀ l, ((m.withWorld w).run ⟨.ofConfig "memory" config, Memory.backend⟩
        (.request (.put "a" [.data ⟨#[2]⟩, .pause 5]) ::
          (List.replicate 8 (.step 0) ++ [.cancel 0]))).world.objects.get? l =
        w.objects.get? l := by
  let config : Config := { Config.standard with bucket := "b" }
  have hvalid : config.validate = .ok () := Config.validate_standard (by decide)
  obtain ⟨m, hconnect⟩ : ∃ m, connect "memory" Memory.backend config (.new 1) = .ok m :=
    exists_connect "memory" hvalid rfl
  let env : Env Memory Memory.Writer := ⟨.ofConfig "memory" config, Memory.backend⟩
  let w := (Memory.new 1).insert ⟨"b", "a"⟩ ⟨#[1]⟩
  let upload := Event.request (.put "a" [.data ⟨#[2]⟩, .pause 5])
  let events := upload :: (List.replicate 8 (Event.step 0) ++ [Event.cancel 0])
  have hid : m.nextTask = 0 := (connect_eq_ok hconnect).2.2.2.2.2
  have halone : Machine.Alone env (m.withWorld w) events m.nextTask := by
    intro first id' hfirst
    have hmem : Event.step id' ∈ events := hfirst.mem (by simp)
    rw [hid]
    exact Or.inl (by simpa [events, upload] using hmem)
  have hpauses : Machine.Interrupted env (m.withWorld w) events m.nextTask := by
    rw [hid]
    refine ⟨upload :: List.replicate 8 (Event.step 0), List.prefix_rfl, ?_⟩
    -- the state is written out, for the run to be evaluated
    unfold connect at hconnect
    rw [hvalid] at hconnect
    cases hconnect
    have hwaits : ∀ o : Option (Task Memory.Writer),
        (o.any fun task => task.returned?.isNone && task.isSuspended) = true →
        ∃ task, o = some task ∧ task.returned? = none ∧ task.isSuspended = true := by
      intro o ho
      obtain ⟨task, rfl, h⟩ := (Option.any_eq_true _ _).1 ho
      rw [Bool.and_eq_true, Option.isNone_iff_eq_none] at h
      exact ⟨task, rfl, h⟩
    exact hwaits _ (by decide +kernel)
  obtain ⟨-, -, -, h⟩ := operation_contained hconnect [] w
    (.put "a" [.data ⟨#[2]⟩, .pause 5]) (List.replicate 8 (.step 0) ++ [.cancel 0])
    (by simp [Request.isOperation])
  simp only [Machine.run_nil] at h
  refine ⟨config, m, w, hconnect, ?_, (h halone).2 (Or.inr hpauses)⟩
  rw [← Option.isSome_iff_ne_none]
  decide +kernel

end Run

end Storage

end Depot
