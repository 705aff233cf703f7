import Depot.Proofs.Config.Validate
import Depot.Proofs.Pool.Parties
import Depot.Proofs.Storage.Turn
import Depot.Storage.Connect

/-!
# Tasks and their parties

Every task stands as its party in the pool does, and no two tasks have one party (`Orderly`). One
step of a task keeps that for itself and for all others, and so does a cancellation; hence it holds
in every run of operations (`Orderly.run`).
-/

set_option autoImplicit false

namespace Depot.Storage

variable {World Writer : Type}

namespace Machine

/-! ## The table of tasks -/

section Table

variable {m m' : Machine World Writer} {id id' : TaskId} {task task' : Task Writer}
  {n : Next World Writer}

theorem mem_of_task? (h : m.task? id = some task) : (id, task) ∈ m.tasks := mem_of_lookup h

theorem task?_put (m : Machine World Writer) (id id' : TaskId) (task : Task Writer) :
    (m.put id task).task? id' =
      if id' = id then (m.task? id).map fun _ => task else m.task? id' :=
  lookup_replace id id' task m.tasks

theorem task?_remove (m : Machine World Writer) (id id' : TaskId) :
    (m.remove id).task? id' = if id' = id then none else m.task? id' :=
  lookup_remove id id' m.tasks

theorem task?_add (m : Machine World Writer) (task : Task Writer) (id : TaskId) :
    (m.add task).task? id = (m.task? id).or (if id = m.nextTask then some task else none) :=
  lookup_concat m.nextTask id task m.tasks

theorem task?_handOver (m : Machine World Writer) (left : Option Ticket) (id : TaskId) :
    (m.handOver left).task? id =
      (m.task? id).or (if id = m.nextTask then left.map (.ofDiscard Writer) else none) := by
  cases left with
  | none => simp [handOver]
  | some t => exact task?_add m (.ofDiscard Writer t) id

/-- States that are the same apart from order and reports have the same tasks. -/
theorem task?_congr (h : m'.bare = m.bare) (id : TaskId) : m'.task? id = m.task? id := by
  have htasks : m'.tasks = m.tasks := congrArg (·.tasks) h
  rw [task?, task?, htasks]

theorem task?_follow_self (h : m.task? id = some task) (n : Next World Writer) :
    (m.follow id n).task? id = some n.task := by
  have h' : ({ m with pool := n.pool, world := n.world, direct := n.direct } : Machine _ _).task?
      id = some task := h
  rw [follow, task?_put, if_pos rfl, task?_handOver, h']
  rfl

theorem task?_of_follow (h : m'.bare = (m.follow id n).bare) (htask : m.task? id = some task) :
    m'.task? id = some n.task := by
  rw [task?_congr h]
  exact task?_follow_self htask n

theorem task?_follow_of_ne (hne : id' ≠ id) (h : m.task? id' = some task) (n : Next World Writer) :
    (m.follow id n).task? id' = some task := by
  have h' : ({ m with pool := n.pool, world := n.world, direct := n.direct } : Machine _ _).task?
      id' = some task := h
  rw [follow, task?_put, if_neg hne, task?_handOver, h']
  rfl

/-- Who is left a client to destroy is a new task. -/
theorem task?_follow_left (hne : m.nextTask ≠ id) (hfresh : m.task? m.nextTask = none) {t : Ticket}
    (hleft : n.left = some t) : (m.follow id n).task? m.nextTask = some (.ofDiscard Writer t) := by
  have h' : ({ m with pool := n.pool, world := n.world, direct := n.direct } : Machine _ _).task?
      m.nextTask = none := hfresh
  rw [follow, task?_put, if_neg hne, task?_handOver, h', hleft, if_pos rfl]
  rfl

/-- The tasks after a step are that which made the step, the others as they were, and that which was
left a client to destroy. -/
theorem of_task?_follow (h : (m.follow id n).task? id' = some task') :
    (id' = id ∧ task' = n.task) ∨ (id' ≠ id ∧ m.task? id' = some task') ∨
      id' ≠ id ∧ id' = m.nextTask ∧ ∃ t, n.left = some t ∧ task' = .ofDiscard Writer t := by
  rw [follow, task?_put] at h
  by_cases hid : id' = id
  · rw [if_pos hid] at h
    obtain ⟨_, -, e⟩ := Option.map_eq_some_iff.1 h
    exact Or.inl ⟨hid, e.symm⟩
  · rw [if_neg hid, task?_handOver, Option.or_eq_some_iff] at h
    right
    rcases h with h | ⟨-, h⟩
    · exact Or.inl ⟨hid, h⟩
    · right
      by_cases hnext : id' = m.nextTask
      · rw [if_pos hnext] at h
        obtain ⟨t, ht, e⟩ := Option.map_eq_some_iff.1 h
        exact ⟨hid, hnext, t, ht, e.symm⟩
      · rw [if_neg hnext] at h
        cases h

variable {p : Pool} {world : World} {left : Option Ticket}

theorem task?_without_of_ne (hne : id' ≠ id) (h : m.task? id' = some task) (p : Pool)
    (world : World) (left : Option Ticket) :
    (m.without id p world left).task? id' = some task := by
  have h' : ({ m with pool := p, world } : Machine _ _).task? id' = some task := h
  rw [without, task?_handOver, task?_remove, if_neg hne, h']
  rfl

theorem task?_without_left (hfresh : m.task? m.nextTask = none) (p : Pool) (world : World)
    (t : Ticket) :
    (m.without id p world (some t)).task? m.nextTask = some (.ofDiscard Writer t) := by
  have h' : ({ m with pool := p, world }.remove id).task? m.nextTask = none := by
    rw [task?_remove]
    split
    · rfl
    · exact hfresh
  rw [without, task?_handOver, h']
  exact if_pos rfl

theorem of_task?_without (h : (m.without id p world left).task? id' = some task') :
    (id' ≠ id ∧ m.task? id' = some task') ∨
      id' = m.nextTask ∧ ∃ t, left = some t ∧ task' = .ofDiscard Writer t := by
  rw [without, task?_handOver, task?_remove, Option.or_eq_some_iff] at h
  rcases h with h | ⟨-, h⟩
  · by_cases hid : id' = id
    · rw [if_pos hid] at h
      cases h
    · rw [if_neg hid] at h
      exact Or.inl ⟨hid, h⟩
  · right
    by_cases hnext : id' = m.nextTask
    · have hnext' : id' = ({ m with pool := p, world }.remove id).nextTask := hnext
      rw [if_pos hnext'] at h
      obtain ⟨t, ht, e⟩ := Option.map_eq_some_iff.1 h
      exact ⟨hnext, t, ht, e.symm⟩
    · have hnext' : id' ≠ ({ m with pool := p, world }.remove id).nextTask := hnext
      rw [if_neg hnext'] at h
      cases h

theorem nextTask_handOver (m : Machine World Writer) (left : Option Ticket) :
    m.nextTask ≤ (m.handOver left).nextTask := by
  cases left with
  | none => exact Nat.le_refl _
  | some t => exact Nat.le_succ _

/-- The number of a task that was left a client to destroy is in use. -/
theorem nextTask_lt_handOver (m : Machine World Writer) (t : Ticket) :
    m.nextTask < (m.handOver (some t)).nextTask :=
  Nat.lt_succ_self _

end Table

end Machine

/-! ## One step of a task -/

section Turn

variable {env : Env World Writer} {m : Machine World Writer} {task : Task Writer}
  {n : Next World Writer} {g : Goal} {t : Ticket} {p : Pool} {progress : Pool.Progress}

/-- Parties of other tasks are as they were, unless one in line was given a slot. -/
def Spares (task : Task Writer) (p q : Pool) : Prop :=
  ∀ s x, task.ticket ≠ some s → p.party? s = some x →
    q.party? s = some x ∨ x.isWaiting = true ∧ q.party? s = some .granted

theorem Spares.of_keeps {p q : Pool} (ht : task.ticket = some t) (h : Pool.Keeps t p q) :
    Spares task p q := by
  intro s x hne hx
  refine h s x ?_ hx
  rintro rfl
  exact hne ht

/-- Whoever has a party does not have the next ticket. -/
theorem Spares.of_new (hpool : m.pool.Tidy) (h : Pool.Keeps m.pool.nextTicket m.pool p) :
    Spares task m.pool p := by
  intro s x _ hx
  refine h s x ?_ hx
  rintro rfl
  rw [Pool.party?_nextTicket hpool.table.fresh] at hx
  cases hx

/-- What asking for a client comes to: the pool makes some steps that others hardly see, the ticket
is the task's own or a new one, and its party does what the answer says. -/
structure Asked (m : Machine World Writer) (task : Task Writer) (g : Goal) (t : Ticket) (p : Pool)
    (progress : Pool.Progress) : Prop where
  steps : ∃ es, Pool.Steps m.pool es p
  spares : Spares task m.pool p
  ticket : task.ticket = some t ∨ m.pool.party? t = none
  client : task.client = none
  goal : g.isOperation = true
  fits : progress.Fits (p.party? t)

theorem Asks.asked (h : Asks env m task g t p progress) (hplain : task.phase.isPlain = true)
    (hsound : task.Sound m.pool) (hpool : m.pool.Tidy) : Asked m task g t p progress := by
  -- outside of a request, the task has a party under its ticket, which gets on
  cases h with
  | @request r hphase hgoal hreq =>
    obtain ⟨hticket, hclient⟩ := hsound.eq_none (by rw [hphase]; rfl)
    have hsteps := Pool.request_steps (Machine.isValid env m) m.now m.pool
    have hkeeps := Pool.Keeps.request hpool.table (Machine.isValid env m) m.now
    have hfits := Pool.request_fits hpool.table (Machine.isValid env m) m.now
    have hnext := Pool.request_ticket (Machine.isValid env m) m.now m.pool
    have hnone := Pool.party?_nextTicket hpool.table.fresh
    rw [hreq] at hsteps hkeeps hfits hnext
    obtain rfl : t = m.pool.nextTicket := hnext
    rw [hphase] at hplain
    exact ⟨⟨_, hsteps⟩, .of_new hpool hkeeps, Or.inr hnone, hclient,
      Request.isOperation_of_goal hplain hgoal, hfits⟩
  | proceed hphase ht hproceed _ =>
    obtain ⟨x, hx, hstands⟩ := hsound.party_of_ticket ht
    have hadvances := Pool.proceed_advances (Machine.isValid env m) m.now t m.pool
    have hfits : x = .granted ∨ (∃ deadline, x = .waiting deadline) →
        progress.Fits (p.party? t) := by
      intro hw
      have h := Pool.proceed_fits (Machine.isValid env m) m.now hx hw
      rwa [hproceed] at h
    rw [hproceed] at hadvances
    rw [hphase] at hstands hplain
    generalize hc : task.client = client at hstands
    have hclient : client = none ∧ (x = .granted ∨ ∃ deadline, x = .waiting deadline) := by
      cases hstands with
      | waiting deadline => exact ⟨rfl, Or.inr ⟨deadline, rfl⟩⟩
      | granted => exact ⟨rfl, Or.inl rfl⟩
    exact ⟨⟨_, (Pool.Step.advance hadvances).steps⟩, .of_keeps ht (.advance hpool.table hadvances),
      Or.inl ht, hc.trans hclient.1, hplain, hfits hclient.2⟩
  | rejected hphase ht hrejected =>
    obtain ⟨x, hx, hstands⟩ := hsound.party_of_ticket ht
    have hadvances := Pool.rejected_advances (Machine.isValid env m) t m.pool
    rw [hrejected] at hadvances
    rw [hphase] at hstands hplain
    generalize hc : task.client = client at hstands
    cases hstands with
    | rejecting c =>
      have hfits := (Pool.rejected_fits (Machine.isValid env m) hx).1
      rw [hrejected] at hfits
      exact ⟨⟨_, (Pool.Step.advance hadvances).steps⟩,
        .of_keeps ht (.advance hpool.table hadvances), Or.inl ht, hc, hplain, hfits⟩
  | @created reply hphase ht hcreated =>
    obtain ⟨x, hx, hstands⟩ := hsound.party_of_ticket ht
    have hadvances := Pool.created_advances t reply m.pool
    rw [hcreated] at hadvances
    rw [hphase] at hstands hplain
    generalize hc : task.client = client at hstands
    cases hstands with
    | creating =>
      have hfits := (Pool.created_fits reply hx).1
      rw [hcreated] at hfits
      exact ⟨⟨_, (Pool.Step.advance hadvances).steps⟩,
        .of_keeps ht (.advance hpool.table hadvances), Or.inl ht, hc, hplain, hfits⟩

/-- While a task keeps its client, it works on. -/
theorem Works.stage_eq {c : Client} {w : World} {visited : List Entry} {phase : Phase Writer}
    {k : Work World Writer} (h : Works env c w visited phase k) : phase.stage = .holding := by
  cases h <;> rfl

theorem Works.keeps {c : Client} {w world : World} {visited visited' : List Entry}
    {phase phase' : Phase Writer} {delay : Nat}
    (h : Works env c w visited phase (.keep phase' world delay visited')) :
    phase'.stage = .holding ∧ phase'.isPlain = true := by
  cases h <;> exact ⟨rfl, rfl⟩

/-- A task that gives its client back has returned. -/
theorem Works.gives {c : Client} {w world : World} {visited visited' : List Entry}
    {phase phase' : Phase Writer}
    (h : Works env c w visited phase (.giveBack phase' world visited')) :
    phase'.stage = .apart ∧ phase'.isPlain = true ∧
      ∃ result, ∀ ticket client alarm,
        (⟨phase', ticket, client, alarm, visited'⟩ : Task Writer).returned? = some result := by
  cases h <;> exact ⟨rfl, rfl, _, fun _ _ _ => rfl⟩

/-- What a step has to leave in order: the pool makes some steps that others hardly see, the task
stands as its party does, its party is its own, and a client that it leaves behind has a party that
is to destroy it. -/
structure Next.Fair (m : Machine World Writer) (task : Task Writer) (n : Next World Writer) :
    Prop where
  steps : ∃ es, Pool.Steps m.pool es n.pool
  spares : Spares task m.pool n.pool
  plain : n.task.phase.isPlain = true
  sound : n.task.Sound n.pool
  ticket : ∀ t, n.task.ticket = some t → task.ticket = some t ∨ m.pool.party? t = none
  left : ∀ t, n.left = some t →
    task.ticket = some t ∧ n.task.ticket = none ∧ ∃ c, n.pool.party? t = some (.discarding c)

theorem Spares.refl (task : Task Writer) (p : Pool) : Spares task p p :=
  fun _ _ _ hx => Or.inl hx

theorem Shuts.stage {phase : Phase Writer} {result : Except StoreError Outcome}
    (h : Shuts phase result) : phase.stage = .apart := by
  cases h <;> rfl

theorem steps_spares_of_advances {es : List Pool.Event} (hpool : m.pool.Tidy)
    (ht : task.ticket = some t) (h : Pool.Advances m.pool t es p) :
    (∃ es, Pool.Steps m.pool es p) ∧ Spares task m.pool p :=
  ⟨⟨es, (Pool.Step.advance h).steps⟩, .of_keeps ht (.advance hpool.table h)⟩

theorem Asked.fair (h : Asked m task g t p progress) (hn : Acquires env m task g t p progress n) :
    n.Fair m task := by
  have hticket : ∀ s, some t = some s → task.ticket = some s ∨ m.pool.party? s = none := by
    rintro _ ⟨⟩
    exact h.ticket
  have hfits := h.fits
  cases hn with
  | refuse => exact ⟨h.steps, h.spares, rfl, .apart rfl rfl h.client, nofun, nofun⟩
  | queue alarm =>
    obtain ⟨deadline, hx⟩ := hfits
    refine ⟨h.steps, h.spares, h.goal, .party rfl hx ?_, hticket, nofun⟩
    exact h.client ▸ .waiting deadline
  | reject _ _ =>
    refine ⟨h.steps, h.spares, h.goal, .party rfl hfits ?_, hticket, nofun⟩
    exact h.client ▸ .rejecting _
  | create _ _ =>
    refine ⟨h.steps, h.spares, h.goal, .party rfl hfits ?_, hticket, nofun⟩
    exact h.client ▸ .creating
  | lend => exact ⟨h.steps, h.spares, h.goal, .party rfl hfits (.holding _), hticket, nofun⟩

theorem Works.fair {c : Client} {k : Work World Writer}
    (h : Works env c m.world task.visited task.phase k) (hpool : m.pool.Tidy)
    (ht : task.ticket = some t) (hx : m.pool.party? t = some (.holding c))
    (hc : task.client = some c) (hn : Settles env m task t c k n) : n.Fair m task := by
  cases hn with
  | keep _ =>
    obtain ⟨hstage, hplain⟩ := h.keeps
    refine ⟨⟨[], .refl⟩, .refl _ _, hplain, .party ht hx ?_, fun t h => Or.inl h, nofun⟩
    rw [hstage, hc]
    exact .holding c
  | giveBack _ hp =>
    obtain ⟨hstage, hplain, -⟩ := h.gives
    have hadvances := Pool.release_advances t m.pool
    rw [hp] at hadvances
    obtain ⟨hsteps, hspares⟩ := steps_spares_of_advances hpool ht hadvances
    exact ⟨hsteps, hspares, hplain, .apart hstage rfl rfl, nofun, nofun⟩
  | giveLate hclosed hp =>
    obtain ⟨hstage, hplain, -⟩ := h.gives
    have hadvances := Pool.release_advances t m.pool
    have hparty := Pool.party?_drop hx
    rw [← Pool.release_of_closed hclosed, hp] at hparty
    rw [hp] at hadvances
    obtain ⟨hsteps, hspares⟩ := steps_spares_of_advances hpool ht hadvances
    refine ⟨hsteps, hspares, hplain, .apart hstage rfl rfl, nofun, ?_⟩
    rintro _ ⟨⟩
    exact ⟨ht, rfl, c, hparty⟩
  | destroy hp _ _ =>
    have hadvances := Pool.invalidate_advances t m.pool
    have hparty := Pool.party?_invalidate hx
    rw [hp] at hadvances hparty
    obtain ⟨hsteps, hspares⟩ := steps_spares_of_advances hpool ht hadvances
    refine ⟨hsteps, hspares, rfl, .party rfl hparty (.invalidating c), ?_, nofun⟩
    rintro _ ⟨⟩
    exact Or.inl ht

theorem Turn.fair (h : Turn env m task n) (hplain : task.phase.isPlain = true)
    (hsound : task.Sound m.pool) (hpool : m.pool.Tidy) : n.Fair m task := by
  have hrefl : ∃ es, Pool.Steps m.pool es m.pool := ⟨[], .refl⟩
  have hapart := hsound.eq_none
  have hclient := hsound.client_eq_none
  cases h with
  | deny hphase _ =>
    obtain ⟨ht, hc⟩ := hapart (by rw [hphase]; rfl)
    exact ⟨hrefl, .refl _ _, rfl, .apart rfl ht hc, fun t h => Or.inl h, nofun⟩
  | acquire hasks hn => exact (hasks.asked hplain hsound hpool).fair hn
  | work ht hx hc hw hn => exact hw.fair hpool ht hx hc hn
  | @invalidated t _ _ hphase ht =>
    have h := Pool.invalidated_advances t m.pool
    obtain ⟨hsteps, hspares⟩ := steps_spares_of_advances hpool ht h
    exact ⟨hsteps, hspares, rfl, .apart rfl rfl (hclient (by rw [hphase]; nofun)), nofun, nofun⟩
  | drain hphase hdrains _ =>
    obtain ⟨ht, hc⟩ := hapart (by rw [hphase]; rfl)
    have hstage : ∀ {phase : Phase Writer} {delay : Nat} {rest : Stream} {data : ByteArray},
        Drains rest data phase delay → phase.stage = .apart ∧ phase.isPlain = true := by
      intro phase delay rest data h
      cases h <;> exact ⟨rfl, rfl⟩
    obtain ⟨hstage', hplain'⟩ := hstage hdrains
    exact ⟨hrefl, .refl _ _, hplain', .apart hstage' ht hc, fun t h => Or.inl h, nofun⟩
  | disconnect hphase _ _ _ | apart hphase _ =>
    obtain ⟨ht, hc⟩ := hapart (by rw [hphase]; rfl)
    exact ⟨hrefl, .refl _ _, rfl, .apart rfl ht hc, fun t h => Or.inl h, nofun⟩
  | @shut result p hshuts hp =>
    obtain ⟨ht, hc⟩ := hapart hshuts.stage
    have hsteps := (Pool.close_step m.pool).steps
    have hkeeps := Pool.Keeps.close m.pool m.pool.nextTicket
    rw [hp] at hsteps hkeeps
    exact ⟨⟨_, hsteps⟩, .of_new hpool hkeeps, rfl, .apart rfl ht hc, fun t h => Or.inl h, nofun⟩
  | drainPool hshuts hp _ _ =>
    obtain ⟨ht, hc⟩ := hapart hshuts.stage
    have hsteps := (Pool.close_step m.pool).steps
    have hkeeps := Pool.Keeps.close m.pool m.pool.nextTicket
    obtain ⟨rfl, rest, hx⟩ := Pool.party?_close hpool.table hp
    rw [hp] at hsteps hkeeps
    refine ⟨⟨_, hsteps⟩, .of_new hpool hkeeps, rfl, .party rfl hx ?_, ?_, nofun⟩
    · rw [hc]
      exact .closing _ rest
    · rintro _ ⟨⟩
      exact Or.inr (Pool.party?_nextTicket hpool.table.fresh)
  | @closeNext _ _ t _ _ _ _ hphase ht hp _ _ =>
    obtain ⟨x, hx, hstands⟩ := hsound.party_of_ticket ht
    have h := Pool.closedOne_advances t m.pool
    rw [hphase] at hstands
    rw [hp] at h
    obtain ⟨hsteps, hspares⟩ := steps_spares_of_advances hpool ht h
    rw [hclient (by rw [hphase]; nofun)] at hstands
    cases hstands with
    | closing d rest =>
      obtain ⟨rest', hx'⟩ := Pool.party?_closedOne hx hp
      refine ⟨hsteps, hspares, rfl, .party ht hx' ?_, fun t h => Or.inl h, nofun⟩
      rw [hclient (by rw [hphase]; nofun)]
      exact .closing _ rest'
  | @closeLast _ _ t _ hphase ht hp =>
    have h := Pool.closedOne_advances t m.pool
    rw [hp] at h
    obtain ⟨hsteps, hspares⟩ := steps_spares_of_advances hpool ht h
    exact ⟨hsteps, hspares, rfl, .apart rfl rfl (hclient (by rw [hphase]; nofun)), nofun, nofun⟩
  | @startDestroy t _ _ _ _ hphase ht hx hp _ _ =>
    have h := Pool.startDestroy_advances t m.pool
    have hx' := Pool.party?_startDestroy hx
    rw [hp] at h hx'
    obtain ⟨hsteps, hspares⟩ := steps_spares_of_advances hpool ht h
    refine ⟨hsteps, hspares, rfl, .party ht hx' ?_, fun t h => Or.inl h, nofun⟩
    rw [hclient (by rw [hphase]; nofun)]
    exact .destroying _
  | @destroyed t _ hphase ht =>
    have h := Pool.destroyed_advances t m.pool
    obtain ⟨hsteps, hspares⟩ := steps_spares_of_advances hpool ht h
    exact ⟨hsteps, hspares, rfl, .apart rfl rfl (hclient (by rw [hphase]; nofun)), nofun, nofun⟩

theorem Cut.fair {world : World} {left : Option Ticket} (h : Cut env m task p world left)
    (hpool : m.pool.Tidy) :
    (∃ es, Pool.Steps m.pool es p) ∧ Spares task m.pool p ∧
      ∀ t, left = some t → task.ticket = some t ∧ ∃ c, p.party? t = some (.discarding c) := by
  cases h with
  | apart _ => exact ⟨⟨[], .refl⟩, .refl _ _, nofun⟩
  | @cancel t _ ht _ _ =>
    have h := Pool.cancel_advances t m.pool
    obtain ⟨hsteps, hspares⟩ := steps_spares_of_advances hpool ht h
    exact ⟨hsteps, hspares, nofun⟩
  | @drop t c p _ ht hx _ hp _ =>
    have h := Pool.drop_advances t m.pool
    have hx' := Pool.party?_drop hx
    rw [hp] at h hx'
    obtain ⟨hsteps, hspares⟩ := steps_spares_of_advances hpool ht h
    refine ⟨hsteps, hspares, ?_⟩
    rintro _ ⟨⟩
    exact ⟨ht, c, hx'⟩

end Turn

/-! ## All tasks -/

section Orderly

variable {env : Env World Writer} {m m' : Machine World Writer} {id : TaskId}
  {task task' : Task Writer} {n : Next World Writer} {e : Event}

/-- Every task stands as its party does, and has a party of its own. -/
structure Orderly (m : Machine World Writer) : Prop where
  pool : m.pool.Tidy
  fresh : ∀ id, m.nextTask ≤ id → m.task? id = none
  plain : ∀ id task, m.task? id = some task → task.phase.isPlain = true
  sound : ∀ id task, m.task? id = some task → task.Sound m.pool
  own : ∀ id id' task task' t, m.task? id = some task → m.task? id' = some task' →
    task.ticket = some t → task'.ticket = some t → id = id'

/-- Who stands in line stands there when it was given a slot. -/
theorem Stands.grant {stage : Stage} {x : Party} {client : Option Client}
    (h : Stands stage x client) (hw : x.isWaiting = true) : Stands stage .granted client := by
  cases h with
  | waiting deadline => exact .granted
  | _ => cases hw

/-- A task stands as its party does when another one has made a step. -/
theorem Task.Sound.spare {p q : Pool} (h : task'.Sound p) (hs : Spares task p q)
    (hne : ∀ t, task'.ticket = some t → task.ticket ≠ some t) : task'.Sound q := by
  cases h with
  | apart hstage ht hc => exact .apart hstage ht hc
  | party ht hx hstands =>
    rcases hs _ _ (hne _ ht) hx with hx' | ⟨hw, hx'⟩
    · exact .party ht hx' hstands
    · exact .party ht hx' (hstands.grant hw)

/-- States that are the same apart from order and reports have the same pool apart from the news. -/
theorem Machine.pool_congr (h : m'.bare = m.bare) :
    m'.pool = { m.pool with called := m'.pool.called } := by
  have hpool : { m'.pool with called := [] } = { m.pool with called := [] } :=
    congrArg (·.pool) h
  exact congrArg (fun p => { p with called := m'.pool.called }) hpool

theorem Orderly.congr (ho : Orderly m) (h : m'.bare = m.bare) : Orderly m' := by
  have htask := Machine.task?_congr h
  have hnext : m'.nextTask = m.nextTask := congrArg (·.nextTask) h
  have hpool := Machine.pool_congr h
  have hparty : ∀ t, m'.pool.party? t = m.pool.party? t := by
    intro t
    rw [hpool]
    rfl
  refine ⟨?_, ?_, ?_, ?_, ?_⟩
  · rw [hpool]
    exact ho.pool.steps (Pool.Step.hear _).steps
  · intro id hid
    rw [htask]
    exact ho.fresh id (hnext ▸ hid)
  · intro id task hid
    rw [htask] at hid
    exact ho.plain id task hid
  · intro id task hid
    rw [htask] at hid
    have hsound := ho.sound id task hid
    cases hsound with
    | apart hstage ht hc => exact .apart hstage ht hc
    | party ht hx hstands => exact .party ht ((hparty _).trans hx) hstands
  · intro id id' task task' t hid hid'
    rw [htask] at hid hid'
    exact ho.own id id' task task' t hid hid'

/-- A task whose ticket is that of another one has no party. -/
theorem Orderly.ticket_ne (ho : Orderly m) {id' : TaskId} {t : Ticket}
    (htask : m.task? id = some task) (htask' : m.task? id' = some task') (hne : id' ≠ id)
    (ht : task'.ticket = some t) : task.ticket ≠ some t :=
  fun h => hne (ho.own id' id task' task t htask' htask ht h)

/-- A task has a party under its ticket. -/
theorem Orderly.party?_ne_none (ho : Orderly m) {t : Ticket} (htask : m.task? id = some task)
    (ht : task.ticket = some t) : m.pool.party? t ≠ none := by
  obtain ⟨x, hx, -⟩ := (ho.sound id task htask).party_of_ticket ht
  rw [hx]
  nofun

theorem Orderly.lt_nextTask (ho : Orderly m) (htask : m.task? id = some task) :
    id < m.nextTask := by
  by_contra hge
  rw [ho.fresh id (Nat.not_lt.1 hge)] at htask
  cases htask

/-- Order is kept when one task goes on or is cancelled, which may leave its party to a new task
that destroys a client, while the others see hardly anything of it. -/
theorem Orderly.of_others (ho : Orderly m) (htask : m.task? id = some task)
    (self : Option (Task Writer)) (left : Option Ticket) (hpool : m'.pool.Tidy)
    (hspares : Spares task m.pool m'.pool) (hnext : m.nextTask ≤ m'.nextTask)
    (hlt : ∀ t, left = some t → m.nextTask < m'.nextTask)
    (htasks : ∀ id' task', m'.task? id' = some task' →
      (id' = id ∧ self = some task') ∨ (id' ≠ id ∧ m.task? id' = some task') ∨
        id' = m.nextTask ∧ ∃ t, left = some t ∧ task' = .ofDiscard Writer t)
    (hself : ∀ task', self = some task' → task'.phase.isPlain = true ∧ task'.Sound m'.pool ∧
      ∀ t, task'.ticket = some t →
        (task.ticket = some t ∨ m.pool.party? t = none) ∧ left ≠ some t)
    (hleft : ∀ t, left = some t →
      task.ticket = some t ∧ ∃ c, m'.pool.party? t = some (.discarding c)) :
    Orderly m' := by
  -- the ticket of a task that only looks on is neither that of the task that went on nor the one
  -- left
  have hother : ∀ {id' task' t}, id' ≠ id → m.task? id' = some task' → task'.ticket = some t →
      left ≠ some t ∧ ∀ task'', self = some task'' → task''.ticket ≠ some t := by
    intro id' task' t hne hid' ht
    have htne := ho.ticket_ne htask hid' hne ht
    refine ⟨fun hl => htne (hleft t hl).1, fun task'' hs ht'' => ?_⟩
    rcases ((hself task'' hs).2.2 t ht'').1 with hold | hnone
    · exact htne hold
    · exact ho.party?_ne_none hid' ht hnone
  refine ⟨hpool, ?_, ?_, ?_, ?_⟩
  · intro id' hid'
    rw [Option.eq_none_iff_forall_ne_some]
    intro task' h
    rcases htasks id' task' h with ⟨rfl, -⟩ | ⟨-, hold⟩ | ⟨rfl, t, hl, -⟩
    · exact absurd (ho.lt_nextTask htask) (Nat.not_lt.2 (Nat.le_trans hnext hid'))
    · exact absurd (ho.lt_nextTask hold) (Nat.not_lt.2 (Nat.le_trans hnext hid'))
    · exact absurd (hlt t hl) (Nat.not_lt.2 hid')
  · intro id' task' h
    rcases htasks id' task' h with ⟨-, hs⟩ | ⟨-, hold⟩ | ⟨-, t, -, rfl⟩
    · exact (hself task' hs).1
    · exact ho.plain id' task' hold
    · rfl
  · intro id' task' h
    rcases htasks id' task' h with ⟨-, hs⟩ | ⟨hne, hold⟩ | ⟨-, t, hl, rfl⟩
    · exact (hself task' hs).2.1
    · exact (ho.sound id' task' hold).spare hspares fun t ht => ho.ticket_ne htask hold hne ht
    · obtain ⟨-, c, hx⟩ := hleft t hl
      exact .party rfl hx (.discarding c)
  · intro id₁ id₂ task₁ task₂ t h₁ h₂ ht₁ ht₂
    rcases htasks id₁ task₁ h₁ with ⟨rfl, hs₁⟩ | ⟨hne₁, hold₁⟩ | ⟨rfl, s₁, hl₁, rfl⟩
    · rcases htasks id₂ task₂ h₂ with ⟨rfl, -⟩ | ⟨hne₂, hold₂⟩ | ⟨-, s₂, hl₂, rfl⟩
      · rfl
      · exact absurd ht₁ ((hother hne₂ hold₂ ht₂).2 task₁ hs₁)
      · exact absurd (ht₂ ▸ hl₂) ((hself task₁ hs₁).2.2 t ht₁).2
    · rcases htasks id₂ task₂ h₂ with ⟨rfl, hs₂⟩ | ⟨-, hold₂⟩ | ⟨-, s₂, hl₂, rfl⟩
      · exact absurd ht₂ ((hother hne₁ hold₁ ht₁).2 task₂ hs₂)
      · exact ho.own id₁ id₂ task₁ task₂ t hold₁ hold₂ ht₁ ht₂
      · exact absurd (ht₂ ▸ hl₂) (hother hne₁ hold₁ ht₁).1
    · rcases htasks id₂ task₂ h₂ with ⟨rfl, hs₂⟩ | ⟨hne₂, hold₂⟩ | ⟨rfl, -⟩
      · exact absurd (ht₁ ▸ hl₁) ((hself task₂ hs₂).2.2 t ht₂).2
      · exact absurd (ht₁ ▸ hl₁) (hother hne₂ hold₂ ht₂).1
      · rfl

theorem Machine.follow_pool (m : Machine World Writer) (id : TaskId) (n : Next World Writer) :
    (m.follow id n).pool = n.pool := by
  obtain ⟨pool, world, direct, task, left⟩ := n
  cases left <;> rfl

theorem Machine.follow_world (m : Machine World Writer) (id : TaskId) (n : Next World Writer) :
    (m.follow id n).world = n.world := by
  obtain ⟨pool, world, direct, task, left⟩ := n
  cases left <;> rfl

theorem Machine.without_pool (m : Machine World Writer) (id : TaskId) (p : Pool) (world : World)
    (left : Option Ticket) : (m.without id p world left).pool = p := by
  cases left <;> rfl

theorem Machine.without_world (m : Machine World Writer) (id : TaskId) (p : Pool) (world : World)
    (left : Option Ticket) : (m.without id p world left).world = world := by
  cases left <;> rfl

theorem Machine.follow_direct (m : Machine World Writer) (id : TaskId) (n : Next World Writer) :
    (m.follow id n).direct = n.direct := by
  obtain ⟨pool, world, direct, task, left⟩ := n
  cases left <;> rfl

theorem Machine.without_direct (m : Machine World Writer) (id : TaskId) (p : Pool) (world : World)
    (left : Option Ticket) : (m.without id p world left).direct = m.direct := by
  cases left <;> rfl

/-- A state after a step has the world and the parties that the step made. -/
theorem Machine.world_of_follow (h : m'.bare = (m.follow id n).bare) : m'.world = n.world := by
  have hworld : m'.world = (m.follow id n).world := congrArg (·.world) h
  rw [hworld, Machine.follow_world]

theorem Machine.pool_of_follow (h : m'.bare = (m.follow id n).bare) :
    m'.pool = { n.pool with called := m'.pool.called } := by
  have hpool := Machine.pool_congr h
  rwa [Machine.follow_pool] at hpool

theorem Machine.world_of_without {p : Pool} {world : World} {left : Option Ticket}
    (h : m'.bare = (m.without id p world left).bare) : m'.world = world := by
  have hworld : m'.world = (m.without id p world left).world := congrArg (·.world) h
  rw [hworld, Machine.without_world]

theorem Machine.direct_of_follow (h : m'.bare = (m.follow id n).bare) : m'.direct = n.direct := by
  have hdirect : m'.direct = (m.follow id n).direct := congrArg (·.direct) h
  rw [hdirect, Machine.follow_direct]

theorem Machine.direct_of_without {p : Pool} {world : World} {left : Option Ticket}
    (h : m'.bare = (m.without id p world left).bare) : m'.direct = m.direct := by
  have hdirect : m'.direct = (m.without id p world left).direct := congrArg (·.direct) h
  rw [hdirect, Machine.without_direct]

theorem Machine.pool_of_without {p : Pool} {world : World} {left : Option Ticket}
    (h : m'.bare = (m.without id p world left).bare) :
    m'.pool = { p with called := m'.pool.called } := by
  have hpool := Machine.pool_congr h
  rwa [Machine.without_pool] at hpool

/-- A step of a task keeps the order. -/
theorem Orderly.follow (ho : Orderly m) (htask : m.task? id = some task) (hn : n.Fair m task) :
    Orderly (m.follow id n) := by
  obtain ⟨es, hsteps⟩ := hn.steps
  have hpool := m.follow_pool id n
  have hnext : m.nextTask ≤ (m.follow id n).nextTask :=
    Machine.nextTask_handOver { m with pool := n.pool, world := n.world, direct := n.direct } n.left
  refine ho.of_others htask (some n.task) n.left ?_ ?_ hnext ?_ ?_ ?_ ?_
  · rw [hpool]
    exact ho.pool.steps hsteps
  · rw [hpool]
    exact hn.spares
  · intro t ht
    rw [Machine.follow, ht]
    exact Machine.nextTask_lt_handOver { m with pool := n.pool, world := n.world } t
  · intro id' task' h
    rcases Machine.of_task?_follow h with ⟨rfl, rfl⟩ | h' | ⟨-, h'⟩
    · exact Or.inl ⟨rfl, rfl⟩
    · exact Or.inr (Or.inl h')
    · exact Or.inr (Or.inr h')
  · rintro _ ⟨⟩
    rw [hpool]
    refine ⟨hn.plain, hn.sound, fun t ht => ⟨hn.ticket t ht, fun hl => ?_⟩⟩
    rw [(hn.left t hl).2.1] at ht
    cases ht
  · intro t ht
    rw [hpool]
    exact ⟨(hn.left t ht).1, (hn.left t ht).2.2⟩

/-- A cancellation keeps the order. -/
theorem Orderly.without {p : Pool} {world : World} {left : Option Ticket} (ho : Orderly m)
    (htask : m.task? id = some task) (hcut : Cut env m task p world left) :
    Orderly (m.without id p world left) := by
  obtain ⟨⟨es, hsteps⟩, hspares, hleft⟩ := hcut.fair ho.pool
  have hpool := m.without_pool id p world left
  have hnext : m.nextTask ≤ (m.without id p world left).nextTask :=
    Machine.nextTask_handOver ({ m with pool := p, world }.remove id) left
  refine ho.of_others htask none left ?_ ?_ hnext ?_ ?_ (fun _ h => nomatch h) ?_
  · rw [hpool]
    exact ho.pool.steps hsteps
  · rw [hpool]
    exact hspares
  · rintro t rfl
    exact Machine.nextTask_lt_handOver ({ m with pool := p, world }.remove id) t
  · intro id' task' h
    exact Or.inr (Machine.of_task?_without h)
  · intro t ht
    rw [hpool]
    exact hleft t ht

/-! ## Runs -/

/-- What an event can bring about. -/
inductive Happens (env : Env World Writer) (m : Machine World Writer) :
    Event → Machine World Writer → Prop where
  | request (r : Request) : Happens env m (.request r) (m.add (.ofRequest Writer r))
  | turn {id : TaskId} {task : Task Writer} {n : Next World Writer} {m' : Machine World Writer} :
      m.task? id = some task → Turn env m task n → m'.bare = (m.follow id n).bare →
      Happens env m (.step id) m'
  | cut {id : TaskId} {task : Task Writer} {p : Pool} {world : World} {left : Option Ticket}
      {m' : Machine World Writer} : m.task? id = some task → task.isBackground = false →
      Cut env m task p world left → m'.bare = (m.without id p world left).bare →
      Happens env m (.cancel id) m'
  /-- A task that has to wait makes no step. -/
  | still {id : TaskId} : m.status id ≠ .running → Happens env m (.step id) m
  /-- What is over, or works in the background, is not cancelled. -/
  | spared {id : TaskId} : (∀ task, m.task? id = some task → task.isBackground = true) →
      Happens env m (.cancel id) m
  | pass (ms : Nat) : Happens env m (.pass ms) { m with now := m.now + ms }

theorem Orderly.happens (ho : Orderly m) (env : Env World Writer) (e : Event) :
    Happens env m e (m.happen env e) := by
  cases e with
  | request r => exact .request r
  | pass ms => exact .pass ms
  | step id =>
    show Happens env m (.step id) (m.step env id)
    rcases Machine.step_turn (ho.plain id) (ho.sound id) env with
      ⟨e, hwait⟩ | ⟨task, n, htask, hturn, e⟩
    · rw [e]
      exact .still hwait
    · exact .turn htask hturn e
  | cancel id =>
    simp only [Machine.happen]
    cases htask : m.task? id with
    | none =>
      have hcancel : m.cancel env id = m := by simp only [Machine.cancel, htask]
      rw [hcancel]
      simp only [Option.any_none, Bool.false_eq_true, if_false]
      exact .spared (by simp [htask])
    | some task =>
      cases hback : task.isBackground with
      | true =>
        simp only [Option.any_some, hback, if_true]
        exact .spared (by simp [htask, hback])
      | false =>
        simp only [Option.any_some, hback, Bool.false_eq_true, if_false]
        obtain ⟨p, world, left, hcut, e⟩ := Machine.cancel_cut htask (ho.sound id task htask)
        exact .cut htask hback hcut e

/-- Numbers of tasks are not used again. -/
theorem Happens.nextTask_le (h : Happens env m e m') : m.nextTask ≤ m'.nextTask := by
  cases h with
  | request r => exact Nat.le_succ _
  | @turn id task n _ _ _ hm' =>
    have hnext : m'.nextTask = (m.follow id n).nextTask := congrArg (·.nextTask) hm'
    rw [hnext]
    exact Machine.nextTask_handOver { m with pool := n.pool, world := n.world, direct := n.direct }
      n.left
  | @cut id task p world left _ _ _ _ hm' =>
    have hnext : m'.nextTask = (m.without id p world left).nextTask := congrArg (·.nextTask) hm'
    rw [hnext]
    exact Machine.nextTask_handOver ({ m with pool := p, world }.remove id) left
  | still _ | spared _ => exact Nat.le_refl _
  | pass ms => exact Nat.le_refl _

/-- The pool makes steps in whatever happens. -/
theorem Orderly.steps_of_happens (ho : Orderly m) (h : Happens env m e m') :
    ∃ es, Pool.Steps m.pool es m'.pool := by
  cases h with
  | turn htask hturn hm' =>
    obtain ⟨es, hsteps⟩ := (hturn.fair (ho.plain _ _ htask) (ho.sound _ _ htask) ho.pool).steps
    rw [Machine.pool_of_follow hm']
    exact ⟨_, hsteps.tail (.hear _)⟩
  | cut _ _ hcut hm' =>
    obtain ⟨⟨es, hsteps⟩, -, -⟩ := hcut.fair ho.pool
    rw [Machine.pool_of_without hm']
    exact ⟨_, hsteps.tail (.hear _)⟩
  | request r => exact ⟨[], .refl⟩
  | still _ | spared _ => exact ⟨[], .refl⟩
  | pass ms => exact ⟨[], .refl⟩

/-- Who has no part in what happens stays where it is, unless it is given a slot. -/
theorem Orderly.untouched (ho : Orderly m) (h : Happens env m e m') (htask : m.task? id = some task)
    (hstep : e ≠ .step id) (hcancel : e ≠ .cancel id) :
    m'.task? id = some task ∧ ∀ t x, task.ticket = some t → m.pool.party? t = some x →
      m'.pool.party? t = some x ∨ x.isWaiting = true ∧ m'.pool.party? t = some .granted := by
  cases h with
  | @turn id' task' n _ htask' hturn hm' =>
    have hne : id ≠ id' := fun h => hstep (h ▸ rfl)
    have hspares := (hturn.fair (ho.plain _ _ htask') (ho.sound _ _ htask') ho.pool).spares
    refine ⟨?_, ?_⟩
    · rw [Machine.task?_congr hm']
      exact Machine.task?_follow_of_ne hne htask n
    · intro t x ht hx
      rw [Machine.pool_of_follow hm']
      exact hspares t x (ho.ticket_ne htask' htask hne ht) hx
  | @cut id' task' p world left _ htask' _ hcut hm' =>
    have hne : id ≠ id' := fun h => hcancel (h ▸ rfl)
    obtain ⟨-, hspares, -⟩ := hcut.fair ho.pool
    refine ⟨?_, ?_⟩
    · rw [Machine.task?_congr hm']
      exact Machine.task?_without_of_ne hne htask p world left
    · intro t x ht hx
      rw [Machine.pool_of_without hm']
      exact hspares t x (ho.ticket_ne htask' htask hne ht) hx
  | request r =>
    refine ⟨?_, fun t x _ hx => Or.inl hx⟩
    rw [Machine.task?_add, htask]
    rfl
  | still _ | spared _ => exact ⟨htask, fun t x _ hx => Or.inl hx⟩
  | pass ms => exact ⟨htask, fun t x _ hx => Or.inl hx⟩

/-- A request is a new task. -/
theorem Orderly.task?_request (ho : Orderly m) (r : Request) :
    (m.add (.ofRequest Writer r)).task? m.nextTask = some (.ofRequest Writer r) := by
  rw [Machine.task?_add, ho.fresh _ (Nat.le_refl _), if_pos rfl]
  rfl

/-- A task that is cancelled is gone. -/
theorem Orderly.task?_cancel (ho : Orderly m) {p : Pool} {world : World} {left : Option Ticket}
    (htask : m.task? id = some task) (hm' : m'.bare = (m.without id p world left).bare) :
    m'.task? id = none := by
  rw [Machine.task?_congr hm', Option.eq_none_iff_forall_ne_some]
  intro task' htask'
  rcases Machine.of_task?_without htask' with ⟨hne, -⟩ | ⟨hid, -⟩
  · exact hne rfl
  · exact Nat.ne_of_lt (ho.lt_nextTask htask) hid

/-- **Order in a run.** What happens keeps the order, as long as only operations are asked for. -/
theorem Orderly.happen (ho : Orderly m) (he : ∀ r, e = .request r → r.isOperation = true) :
    Orderly (m.happen env e) := by
  have h := ho.happens env e
  generalize m.happen env e = m' at h
  cases h with
  | request r =>
    have htasks : ∀ id' task', (m.add (.ofRequest Writer r)).task? id' = some task' →
        m.task? id' = some task' ∨ id' = m.nextTask ∧ task' = .ofRequest Writer r := by
      intro id' task' h
      rw [Machine.task?_add, Option.or_eq_some_iff] at h
      rcases h with h | ⟨-, h⟩
      · exact Or.inl h
      · split at h
        · rename_i hid
          cases h
          exact Or.inr ⟨hid, rfl⟩
        · cases h
    have hsound : (Task.ofRequest Writer r).Sound m.pool := .apart rfl rfl rfl
    refine ⟨ho.pool, ?_, ?_, ?_, ?_⟩
    · intro id' hid'
      rw [Option.eq_none_iff_forall_ne_some]
      intro task' h
      have hid' : m.nextTask < id' := hid'
      rcases htasks id' task' h with hold | ⟨rfl, -⟩
      · exact absurd (ho.lt_nextTask hold) (Nat.not_lt.2 (Nat.le_of_lt hid'))
      · exact Nat.lt_irrefl _ hid'
    · intro id' task' h
      rcases htasks id' task' h with hold | ⟨-, rfl⟩
      · exact ho.plain id' task' hold
      · exact he r rfl
    · intro id' task' h
      rcases htasks id' task' h with hold | ⟨-, rfl⟩
      · exact ho.sound id' task' hold
      · exact hsound
    · intro id₁ id₂ task₁ task₂ t h₁ h₂ ht₁ ht₂
      rcases htasks id₁ task₁ h₁ with hold₁ | ⟨-, rfl⟩
      · rcases htasks id₂ task₂ h₂ with hold₂ | ⟨-, rfl⟩
        · exact ho.own id₁ id₂ task₁ task₂ t hold₁ hold₂ ht₁ ht₂
        · cases ht₂
      · cases ht₁
  | turn htask hturn hm' =>
    have hfair := hturn.fair (ho.plain _ _ htask) (ho.sound _ _ htask) ho.pool
    exact (ho.follow htask hfair).congr hm'
  | cut htask _ hcut hm' => exact (ho.without htask hcut).congr hm'
  | still _ => exact ho
  | spared _ => exact ho
  | pass ms => exact ⟨ho.pool, ho.fresh, ho.plain, ho.sound, ho.own⟩

/-- In a run of operations, the first event asks for an operation if it asks for anything, and what
follows is a run of operations. -/
theorem isOperation_of_cons {e : Event} {events : List Event}
    (he : ∀ r, .request r ∈ e :: events → r.isOperation = true) :
    (∀ r, e = .request r → r.isOperation = true) ∧
      ∀ r, .request r ∈ events → r.isOperation = true := by
  constructor
  · rintro r rfl
    exact he r List.mem_cons_self
  · intro r hr
    exact he r (List.mem_cons_of_mem _ hr)

theorem Orderly.run (ho : Orderly m) {events : List Event}
    (he : ∀ r, .request r ∈ events → r.isOperation = true) : Orderly (m.run env events) := by
  induction events generalizing m with
  | nil => exact ho
  | cons e events ih =>
    obtain ⟨hhead, htail⟩ := isOperation_of_cons he
    exact ih (ho.happen hhead) htail

theorem Orderly.nextTask_le_run (ho : Orderly m) {events : List Event}
    (he : ∀ r, .request r ∈ events → r.isOperation = true) :
    m.nextTask ≤ (m.run env events).nextTask := by
  induction events generalizing m with
  | nil => exact Nat.le_refl _
  | cons e events ih =>
    obtain ⟨hhead, htail⟩ := isOperation_of_cons he
    exact Nat.le_trans (ho.happens env e).nextTask_le (ih (ho.happen hhead) htail)

/-- A storage at its beginning has an empty pool and no tasks. -/
theorem connect_eq_ok {kind : String} {backend : Backend World Writer} {c : Config} {world : World}
    (h : connect kind backend c world = .ok m) :
    c.validate = .ok () ∧ Pool.new c.poolSize c.waitMillis (directClient + 1) = .ok m.pool ∧
      (backend.create world).result = .ok () ∧ m.world = (backend.create world).world ∧
      m.tasks = [] ∧ m.nextTask = 0 := by
  unfold connect at h
  cases hvalid : c.validate with
  | error e =>
    rw [hvalid] at h
    cases h
  | ok _ =>
    cases hpool : Pool.new c.poolSize c.waitMillis (directClient + 1) with
    | error e =>
      rw [hvalid, hpool] at h
      cases h
    | ok pool =>
      rw [hvalid, hpool] at h
      cases hcreate : (backend.create world).result with
      | error e =>
        simp only [bind, Except.bind, hcreate] at h
        cases h
      | ok _ =>
        simp only [bind, Except.bind, hcreate] at h
        cases h
        exact ⟨rfl, rfl, rfl, rfl, rfl, rfl⟩

theorem task?_of_connect {kind : String} {backend : Backend World Writer} {c : Config}
    {world : World} (h : connect kind backend c world = .ok m) (id : TaskId) :
    m.task? id = none := by
  obtain ⟨-, -, -, -, htasks, -⟩ := connect_eq_ok h
  rw [Machine.task?, htasks]
  rfl

theorem direct_of_connect {kind : String} {backend : Backend World Writer} {c : Config}
    {world : World} (h : connect kind backend c world = .ok m) : m.direct = some directClient := by
  obtain ⟨hvalid, hpool, hcreate, -⟩ := connect_eq_ok h
  generalize m.pool = p at hpool
  simp only [connect, hvalid, hpool, hcreate, bind, Except.bind] at h
  cases h
  rfl

/-- A storage with settings that pass their checks is connected if a first client can be created. -/
theorem exists_connect (kind : String) {backend : Backend World Writer} {c : Config} {world : World}
    (hvalid : c.validate = .ok ()) (hcreate : (backend.create world).result = .ok ()) :
    ∃ m, connect kind backend c world = .ok m := by
  obtain ⟨-, hsize, -⟩ := (Config.validate_eq_ok_iff c).1 hvalid
  unfold connect
  simp only [hvalid, Pool.new, if_neg hsize, hcreate, bind, Except.bind]
  exact ⟨_, rfl⟩

theorem Orderly.of_connect {kind : String} {backend : Backend World Writer} {c : Config}
    {world : World} (h : connect kind backend c world = .ok m) : Orderly m := by
  obtain ⟨-, hpool, -⟩ := connect_eq_ok h
  have hnone := task?_of_connect h
  refine ⟨.of_new hpool, fun id _ => hnone id, ?_, ?_, ?_⟩
  · intro id task htask
    rw [hnone] at htask
    cases htask
  · intro id task htask
    rw [hnone] at htask
    cases htask
  · intro id id' task task' t htask
    rw [hnone] at htask
    cases htask

end Orderly

end Depot.Storage
