import Depot.Proofs.Storage.Serves
import Depot.Storage.Shared
import Mathlib.Data.List.Induction
import Mathlib.Data.List.Infix

/-!
# Tasks among other occurrences

What is done to the store from outside leaves the tasks and the pool alone, so the order of a
storage is kept (`Orderly.after`). Every task was asked for, or works in the background
(`Orderly.exists_asked`), and what its steps keep holds of a task from its request on
(`Orderly.forall_asked`).
-/

set_option autoImplicit false

namespace Depot.Storage

variable {World Writer : Type} {env : Shared World Writer} {m : Machine World Writer}
  {os os' : List Occurrence} {x : Occurrence} {id id' : TaskId} {r : Request}
  {task task' : Task Writer}

/-! ## One occurrence -/

namespace Machine

theorem Operates.of_prefix (h : Operates os) (hos : os' <+: os) : Operates os' :=
  fun r hr => h r (hos.mem hr)

theorem CancelsWaiting.of_prefix (h : CancelsWaiting env m os) (hos : os' <+: os) :
    CancelsWaiting env m os' :=
  fun before id hbefore => h before id (hbefore.trans hos)

theorem cancelsWaiting_nil (env : Shared World Writer) (m : Machine World Writer) :
    CancelsWaiting env m [] := by
  intro before id hbefore
  exact absurd (List.prefix_nil.1 hbefore) (by simp)

/-- Someone who waits is cancelled. -/
theorem CancelsWaiting.concat (h : CancelsWaiting env m os)
    (hwaits : ∀ task, (m.after env os).task? id = some task → task.isSuspended = true) :
    CancelsWaiting env m (os ++ [.event (.cancel id)]) := by
  intro before id' hbefore
  rcases List.prefix_concat_iff.1 hbefore with heq | hbefore
  · obtain ⟨rfl, hid⟩ := List.append_inj' heq rfl
    cases hid
    exact hwaits
  · exact h before id' hbefore

/-- Nobody else is cancelled afterwards. -/
theorem CancelsWaiting.append (h : CancelsWaiting env m os)
    (hno : ∀ id, .event (.cancel id) ∉ os') : CancelsWaiting env m (os ++ os') := by
  induction os' using List.reverseRecOn with
  | nil => rwa [List.append_nil]
  | append_singleton os' x ih =>
    rw [← List.append_assoc]
    intro before id hbefore
    rcases List.prefix_concat_iff.1 hbefore with heq | hbefore
    · obtain ⟨-, hx⟩ := List.append_inj' heq rfl
      refine absurd (List.mem_append_right os' ?_) (hno id)
      rw [← hx]
      exact List.mem_singleton_self _
    · exact ih (fun id hid => hno id (List.mem_append_left _ hid)) before id hbefore

/-- The last one of some occurrences asks for an operation, if it asks for anything. -/
theorem Operates.last (h : Operates (os ++ [x])) :
    ∀ e, x = .event e → ∀ r, e = .request r → r.isOperation = true := by
  rintro e rfl r rfl
  exact h r (by simp)

/-- Nobody is cancelled last who does not wait. -/
theorem CancelsWaiting.last (h : CancelsWaiting env m (os ++ [x])) (hx : x = .event (.cancel id))
    (htask : (m.after env os).task? id = some task) : task.isSuspended = true :=
  h os id (hx ▸ List.prefix_rfl) task htask

theorem Asked.of_prefix (h : m.Asked env os' id r) (hos : os' <+: os) : m.Asked env os id r := by
  obtain ⟨before, hbefore, hid⟩ := h
  exact ⟨before, hbefore.trans hos, hid⟩

/-- A task was asked for before, or is asked for last. -/
theorem asked_concat : m.Asked env (os ++ [x]) id r ↔
    m.Asked env os id r ∨ x = .event (.request r) ∧ (m.after env os).nextTask = id := by
  constructor
  · rintro ⟨before, hbefore, hid⟩
    rcases List.prefix_concat_iff.1 hbefore with heq | hbefore
    · obtain ⟨rfl, hx⟩ := List.append_inj' heq rfl
      exact Or.inr ⟨(List.singleton_inj.1 hx).symm, hid⟩
    · exact Or.inl ⟨before, hbefore, hid⟩
  · rintro (h | ⟨rfl, hid⟩)
    · exact h.of_prefix (List.prefix_append _ _)
    · exact ⟨os, List.prefix_rfl, hid⟩

end Machine

open Machine (Operates)

/-- What is done to the store does not concern the order of the storage. -/
theorem Orderly.withWorld (ho : Orderly m) (world : World) : Orderly (m.withWorld world) :=
  ⟨ho.pool, ho.fresh, ho.plain, ho.sound, ho.own⟩

theorem Orderly.occur (ho : Orderly m)
    (hx : ∀ e, x = .event e → ∀ r, e = .request r → r.isOperation = true) :
    Orderly (m.occur env x) := by
  cases x with
  | event e => exact ho.happen (hx e rfl)
  | deed d => exact ho.withWorld _

/-- Numbers of tasks are not used again. -/
theorem Orderly.nextTask_le_occur (ho : Orderly m) (env : Shared World Writer) (x : Occurrence) :
    m.nextTask ≤ (m.occur env x).nextTask := by
  cases x with
  | event e => exact (ho.happens env.toEnv e).nextTask_le
  | deed d => exact Nat.le_refl _

/-- A task was there before, has made a step, or is new. -/
theorem Orderly.of_task?_occur (ho : Orderly m) (h : (m.occur env x).task? id = some task') :
    m.task? id = some task' ∨
      (∃ task n, x = .event (.step id) ∧ m.task? id = some task ∧ Turn env.toEnv m task n ∧
        task' = n.task ∧ (m.occur env x).bare = (m.follow id n).bare) ∨
      id = m.nextTask ∧ ((∃ r, x = .event (.request r) ∧ task' = .ofRequest Writer r) ∨
        ∃ t, task' = .ofDiscard Writer t) := by
  cases x with
  | deed d => exact Or.inl h
  | event e =>
    rcases (ho.happens env.toEnv e).task? h with
      hold | ⟨task, n, rfl, htask, hturn, rfl, hm'⟩ | ⟨hnew, ⟨r, rfl, rfl⟩ | hdiscard⟩
    · exact Or.inl hold
    · exact Or.inr (Or.inl ⟨task, n, rfl, htask, hturn, rfl, hm'⟩)
    · exact Or.inr (Or.inr ⟨hnew, Or.inl ⟨r, rfl, rfl⟩⟩)
    · exact Or.inr (Or.inr ⟨hnew, Or.inr hdiscard⟩)

/-- An occurrence is a step of a task that changes something, or it is none of the task's own, or it
leaves the state of the backend alone but for a writer that is let go of. -/
theorem Orderly.occur_cases (ho : Orderly m) (env : Shared World Writer) (x : Occurrence)
    (id : TaskId) :
    (∃ task n, x = .event (.step id) ∧ m.task? id = some task ∧ Turn env.toEnv m task n ∧
      (m.occur env x).bare = (m.follow id n).bare) ∨
    x.isOf id = false ∨ (m.occur env x).world = m.world ∨
      ∃ writer, (m.occur env x).world = env.backend.dropWriter writer m.world := by
  cases x with
  | deed d => exact Or.inr (Or.inl rfl)
  | event e =>
    have hh := ho.happens env.toEnv e
    change (∃ task n, _ ∧ _ ∧ _ ∧ (m.happen env.toEnv e).bare = _) ∨
      _ ∨ (m.happen env.toEnv e).world = _ ∨ ∃ writer, (m.happen env.toEnv e).world = _
    generalize m.happen env.toEnv e = m' at hh
    cases hh with
    | @turn id' task n _ htask hturn hm' =>
      by_cases hid : id' = id
      · subst hid
        exact Or.inl ⟨task, n, rfl, htask, hturn, hm'⟩
      · exact Or.inr (Or.inl (decide_eq_false hid))
    | cut _ _ hcut hm' =>
      rw [Machine.world_of_without hm']
      cases hcut with
      | drop _ _ _ _ hworld => exact Or.inr (Or.inr hworld)
      | _ => exact Or.inr (Or.inr (Or.inl rfl))
    | _ => exact Or.inr (Or.inr (Or.inl rfl))

/-! ## Sequences of occurrences -/

theorem Orderly.after (ho : Orderly m) (hops : Operates os) : Orderly (m.after env os) := by
  induction os using List.reverseRecOn with
  | nil => exact ho
  | append_singleton os x ih =>
    rw [Machine.after_concat]
    exact (ih (hops.of_prefix (List.prefix_append _ _))).occur hops.last

/-- A task that was asked for has a number that is in use. -/
theorem Orderly.lt_of_asked (ho : Orderly m) (hops : Operates os) (h : m.Asked env os id r) :
    id < (m.after env os).nextTask := by
  induction os using List.reverseRecOn with
  | nil =>
    obtain ⟨before, hbefore, -⟩ := h
    exact absurd (List.prefix_nil.1 hbefore) (by simp)
  | append_singleton os x ih =>
    have hops' := hops.of_prefix (List.prefix_append os [x])
    rw [Machine.after_concat]
    rcases Machine.asked_concat.1 h with hold | ⟨rfl, rfl⟩
    · exact Nat.lt_of_lt_of_le (ih hops' hold) ((ho.after hops').nextTask_le_occur env x)
    · exact Nat.lt_succ_self _

/-- What every occurrence keeps stays as it is. -/
theorem Orderly.persists {P : Machine World Writer → Prop} {first : List Occurrence}
    (ho : Orderly m) (hops : Operates os)
    (hkeep : ∀ (m : Machine World Writer) (x : Occurrence),
      Orderly m → P m → P (m.occur env x))
    (hfirst : first <+: os) (h : P (m.after env first)) : P (m.after env os) := by
  obtain ⟨rest, rfl⟩ := hfirst
  induction rest using List.reverseRecOn with
  | nil => rwa [List.append_nil]
  | append_singleton rest x ih =>
    rw [← List.append_assoc] at hops ⊢
    have hops' := hops.of_prefix (List.prefix_append _ [x])
    rw [Machine.after_concat]
    exact hkeep _ x (ho.after hops') (ih hops')

/-- What the steps of a task keep holds of it from some moment on. -/
theorem Orderly.forall_later {P : Task Writer → Prop} {first : List Occurrence} (ho : Orderly m)
    (hops : Operates os)
    (hturn : ∀ (m : Machine World Writer) (task : Task Writer) (n : Next World Writer),
      Turn env.toEnv m task n → P task → P n.task) (hfirst : first <+: os)
    (htask : (m.after env first).task? id = some task) (h : P task)
    (htask' : (m.after env os).task? id = some task') : P task' := by
  have hlt := (ho.after (hops.of_prefix hfirst)).lt_nextTask htask
  have hlater := ho.persists hops
    (P := fun m' => id < m'.nextTask ∧ ∀ task', m'.task? id = some task' → P task') ?_ hfirst
    ⟨hlt, fun task' h' => Option.some.inj (htask.symm.trans h') ▸ h⟩
  · exact hlater.2 task' htask'
  rintro m' x ho' ⟨hlt, hkept⟩
  refine ⟨Nat.lt_of_lt_of_le hlt (ho'.nextTask_le_occur env x), fun task' htask' => ?_⟩
  rcases ho'.of_task?_occur htask' with hold | ⟨task₀, n, -, htask₀, hn, rfl, -⟩ | ⟨hnew, -⟩
  · exact hkept task' hold
  · exact hturn m' task₀ n hn (hkept task₀ htask₀)
  · exact absurd hlt (hnew ▸ Nat.lt_irrefl _)

/-- A task that was there at an earlier moment was asked for by then. -/
theorem Orderly.asked_of_task? {first : List Occurrence} {r : Request} (ho : Orderly m)
    (hops : Operates os) (hasked : m.Asked env os id r) (hfirst : first <+: os)
    (htask : (m.after env first).task? id = some task) : m.Asked env first id r := by
  have hops' := hops.of_prefix hfirst
  have hlt := (ho.after hops').lt_nextTask htask
  obtain ⟨before, hbefore, rfl⟩ := hasked
  -- the number was not in use before the request
  have hearly : ¬ first <+: before := by
    intro hfirst
    refine absurd (ho.persists (hops.of_prefix ((List.prefix_append _ _).trans hbefore))
      (P := fun m' => (m.after env before).nextTask < m'.nextTask) ?_ hfirst hlt)
      (Nat.lt_irrefl _)
    exact fun m' x ho' h => Nat.lt_of_lt_of_le h (ho'.nextTask_le_occur env x)
  refine ⟨before, ?_, rfl⟩
  rcases List.prefix_or_prefix_of_prefix hfirst hbefore with hfirst | hbefore
  · rcases List.prefix_concat_iff.1 hfirst with rfl | hfirst
    · exact List.prefix_rfl
    · exact absurd hfirst hearly
  · exact hbefore

/-- What holds of a task when it is asked for, and is kept by its steps and by all that happens
besides, holds of it at every moment. The state after a step is that which the step makes. -/
theorem Orderly.forall_asked_of_follow
    {P : List Occurrence → TaskId → Request → Task Writer → Prop} (ho : Orderly m)
    (hops : Operates os) (hkeep : ∀ os x id r task, P os id r task → P (os ++ [x]) id r task)
    (hstart : ∀ os id r, r.isOperation = true → P os id r (.ofRequest Writer r))
    (hturn : ∀ os id r task n, Operates (os ++ [.event (.step id)]) → m.Asked env os id r →
      (m.after env os).task? id = some task → Turn env.toEnv (m.after env os) task n →
      (m.after env (os ++ [.event (.step id)])).bare = ((m.after env os).follow id n).bare →
      P os id r task → P (os ++ [.event (.step id)]) id r n.task)
    (hasked : m.Asked env os id r) (htask : (m.after env os).task? id = some task) :
    P os id r task := by
  induction os using List.reverseRecOn generalizing id r task with
  | nil =>
    obtain ⟨before, hbefore, -⟩ := hasked
    exact absurd (List.prefix_nil.1 hbefore) (by simp)
  | append_singleton os x ih =>
    have hops' := hops.of_prefix (List.prefix_append os [x])
    have ho' : Orderly (m.after env os) := ho.after hops'
    rw [Machine.after_concat] at htask
    rcases Machine.asked_concat.1 hasked with hold | ⟨rfl, rfl⟩
    · -- it was asked for before
      rcases ho'.of_task?_occur htask with
        hsame | ⟨task₀, n, rfl, htask₀, hn, rfl, hm'⟩ | ⟨hnew, -⟩
      · exact hkeep os x id r task (ih hops' hold hsame)
      · rw [← Machine.after_concat] at hm'
        exact hturn os id r task₀ n hops hold htask₀ hn hm' (ih hops' hold htask₀)
      · exact absurd (ho.lt_of_asked hops' hold) (hnew ▸ Nat.lt_irrefl _)
    · have hnew : ((m.after env os).occur env (.event (.request r))).task?
          (m.after env os).nextTask = _ := ho'.task?_request r
      rw [hnew] at htask
      cases htask
      exact hkeep os _ _ r _ (hstart os _ r (hops r (by simp)))

/-- **From its request on.** What holds of a task when it is asked for, and is kept by its steps and
by all that happens besides, holds of it at every moment. -/
theorem Orderly.forall_asked {P : List Occurrence → TaskId → Request → Task Writer → Prop}
    (ho : Orderly m) (hops : Operates os)
    (hkeep : ∀ os x id r task, P os id r task → P (os ++ [x]) id r task)
    (hstart : ∀ os id r, r.isOperation = true → P os id r (.ofRequest Writer r))
    (hturn : ∀ os id r task n, Orderly (m.after env os) →
      (m.after env os).task? id = some task → Turn env.toEnv (m.after env os) task n →
      (m.after env (os ++ [.event (.step id)])).task? id = some n.task →
      P os id r task → P (os ++ [.event (.step id)]) id r n.task)
    (hasked : m.Asked env os id r) (htask : (m.after env os).task? id = some task) :
    P os id r task :=
  ho.forall_asked_of_follow hops hkeep hstart
    (fun os id r task n hops' _ htask hn hm' =>
      hturn os id r task n (ho.after (hops'.of_prefix (List.prefix_append os _))) htask hn
        (Machine.task?_of_follow hm' htask)) hasked htask

/-- **A task stays about its request.** -/
theorem Orderly.serves_of_asked (ho : Orderly m) (hops : Operates os) (hasked : m.Asked env os id r)
    (htask : (m.after env os).task? id = some task) : task.phase.Serves env.setup r :=
  ho.forall_asked (P := fun _ _ r task => task.phase.Serves env.setup r) hops
    (fun _ _ _ _ _ h => h) (fun _ _ _ _ => rfl) (fun _ _ _ _ _ _ _ hn _ h => hn.serves h)
    hasked htask

/-- Whether a task in a phase works in the background or is at its end. -/
def Phase.isLate : Phase Writer → Bool
  | discard => true
  | discarded _ => true
  | ended _ => true
  | _ => false

theorem Turn.isLate {env : Env World Writer} {n : Next World Writer} (h : Turn env m task n)
    (hlate : task.phase.isLate = true) : n.task.phase.isLate = true := by
  have hseeks : task.phase.seeks ≠ true := by
    intro h
    generalize task.phase = phase at hlate h
    cases phase <;> simp [Phase.isLate, Phase.seeks] at hlate h
  cases h with
  | acquire hasks _ => exact absurd hasks.seeks hseeks
  | shut hshuts _ | drainPool hshuts _ _ _ => exact absurd hshuts.seeks hseeks
  | work _ _ _ hw _ =>
    have hstage := hw.stage_eq
    generalize task.phase = phase at hlate hstage
    cases phase <;> simp [Phase.isLate, Phase.stage] at hlate hstage
  | deny hphase _ | drain hphase _ _ | disconnect hphase _ _ _ | apart hphase _
  | closeNext hphase _ _ _ _ =>
    rw [hphase] at hlate
    cases hlate
  | invalidated _ _ | closeLast _ _ _ | startDestroy _ _ _ _ _ _ | destroyed _ _ => rfl

/-- **Where tasks come from.** Every task was asked for, or works in the background. -/
theorem Orderly.exists_asked (ho : Orderly m) (hm : ∀ id, m.task? id = none) (hops : Operates os)
    (htask : (m.after env os).task? id = some task) :
    (∃ r, m.Asked env os id r) ∨ task.phase.isLate = true := by
  induction os using List.reverseRecOn generalizing id task with
  | nil =>
    rw [Machine.after_nil, hm id] at htask
    cases htask
  | append_singleton os x ih =>
    have hops' := hops.of_prefix (List.prefix_append os [x])
    rw [Machine.after_concat] at htask
    have hmore : (∃ r, m.Asked env os id r) → ∃ r, m.Asked env (os ++ [x]) id r :=
      fun ⟨r, h⟩ => ⟨r, h.of_prefix (List.prefix_append _ _)⟩
    rcases (ho.after hops').of_task?_occur htask with
      hsame | ⟨task₀, n, rfl, htask₀, hn, rfl, -⟩ | ⟨rfl, ⟨r, rfl, rfl⟩ | ⟨t, rfl⟩⟩
    · exact (ih hops' hsame).imp_left hmore
    · exact (ih hops' htask₀).imp hmore fun hlate => hn.isLate hlate
    · exact Or.inl ⟨r, Machine.asked_concat.2 (Or.inr ⟨rfl, rfl⟩)⟩
    · exact Or.inr rfl

end Depot.Storage
