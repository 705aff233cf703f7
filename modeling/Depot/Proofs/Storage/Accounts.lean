import Depot.Proofs.Memory
import Depot.Proofs.Pool.Accounts
import Depot.Proofs.Storage.Calls
import Depot.Proofs.Storage.Owners
import Mathlib.Algebra.BigOperators.Group.Finset.Basic

/-!
# The accounts of a storage

A storage over a store in memory creates and destroys clients by calls, which the store counts. The
pool knows of a client only when its task has the answer, and the client outside of the pool is not
the pool's at all. What a step calls for agrees with what it enters in the accounts of the pool, but
for these two (`Turn.tally`); so the books balance at every moment (`Books.happens`).
-/

set_option autoImplicit false

namespace Depot

/-! ## What the store counts -/

namespace Memory

/-- The numbers of clients that were created and destroyed so far. -/
def counts (m : Memory) : Nat × Nat := (m.created, m.destroyed)

variable {α : Type} {c : Client} {kind : Call} {m : Memory}

@[simp] theorem takeFailure_counts (m : Memory) (kind : Call) :
    (m.takeFailure kind).1.counts = m.counts := by
  unfold takeFailure
  split
  · rfl
  · rfl

@[simp] theorem enter_counts (m : Memory) (c : Client) (kind : Call) :
    (m.enter c kind).1.counts = m.counts :=
  takeFailure_counts _ kind

/-- A call counts no client if its action counts none. -/
theorem call_counts {act : Memory → Memory × Except StoreError α}
    (hact : ∀ m, (act m).1.counts = m.counts) (c : Client) (kind : Call) (m : Memory) :
    (call c kind act m).world.counts = m.counts := by
  have henter := enter_counts m c kind
  unfold call
  split
  · rename_i heq
    rw [heq] at henter
    exact henter
  · rename_i heq
    rw [heq] at henter
    exact (hact _).trans henter

theorem look_counts (l : Location) (f : StoredObject → α) (m : Memory) :
    (look l f m).1.counts = m.counts := by rw [look_fst]

theorem delete_counts (l : Location) (m : Memory) : (delete l m).1.counts = m.counts := by
  unfold delete
  split
  · rfl
  · rfl

theorem copy_counts (source target : Location) (m : Memory) :
    (copy source target m).1.counts = m.counts := by
  unfold copy
  split
  · rfl
  · rfl

theorem finish_counts (w : Writer) (m : Memory) : (finish w m).2.world.counts = m.counts := by
  have henter := enter_counts m w.client .finish
  unfold finish
  split
  · rename_i heq
    rw [heq] at henter
    exact henter
  · rename_i heq
    rw [heq] at henter
    exact henter

/-- A creation counts if it succeeds. -/
theorem create_counts (m : Memory) :
    m.create.world.counts = (m.created + m.create.result.toOption.toList.length, m.destroyed) := by
  have htake := takeFailure_counts m .create
  unfold create
  split
  · rename_i heq
    rw [heq] at htake
    exact htake
  · rename_i heq
    rw [heq] at htake
    obtain ⟨hcreated, hdestroyed⟩ := Prod.mk.inj htake
    exact Prod.ext (congrArg (· + 1) hcreated) hdestroyed

/-- A destruction counts even if it fails. -/
theorem destroy_counts (m : Memory) :
    m.destroy.world.counts = (m.created, m.destroyed + 1) :=
  takeFailure_counts _ .destroy

/-- What is done to a store past the storage counts no client. -/
theorem Deed.apply_counts (d : Deed) (m : Memory) : (d.apply m).counts = m.counts := by
  cases d with
  | insert l data | failNext call times | clock time => rfl

end Memory

namespace Storage

variable {setup : Setup} {c : Client} {made made' : Nat} {cs cs' : List Client}

/-- The surroundings of a storage over a store in memory whose calls are recorded. -/
abbrev recordedStore (setup : Setup) : Env (Recorded Memory) (Client × Memory.Writer) :=
  recording setup Memory.backend

/-! ## Calls -/

/-- The clients that calls were made on to destroy them, in order. -/
def ruined (calls : List Call) : List Client :=
  calls.filterMap fun
    | .destroy c => some c
    | _ => none

@[simp] theorem ruined_append (calls calls' : List Call) :
    ruined (calls ++ calls') = ruined calls ++ ruined calls' := List.filterMap_append

theorem count_ruined (calls : List Call) (c : Client) :
    (ruined calls).count c = calls.count (.destroy c) := by
  induction calls with
  | nil => rfl
  | cons call calls ih =>
    rw [← List.singleton_append, ruined_append, List.count_append, List.count_append, ih]
    cases call with
    | destroy d => simp [ruined, List.count_cons]
    | create => simp [ruined]
    | use d => simp [ruined]

/-- Some calls lead from a state of the store to another one: a number of clients are created, and
those of a list are destroyed, in order. -/
structure Tally (w : Recorded Memory) (made : Nat) (cs : List Client) (w' : Recorded Memory) :
    Prop where
  counts : w'.world.counts = (w.world.created + made, w.world.destroyed + cs.length)
  calls : ruined w'.calls = ruined w.calls ++ cs

variable {w w' w'' : Recorded Memory}

theorem Tally.refl (w : Recorded Memory) : Tally w 0 [] w := ⟨rfl, (List.append_nil _).symm⟩

theorem Tally.trans (h : Tally w made cs w') (h' : Tally w' made' cs' w'') :
    Tally w (made + made') (cs ++ cs') w'' := by
  obtain ⟨hcreated, hdestroyed⟩ := Prod.mk.inj h.counts
  constructor
  · rw [h'.counts, List.length_append, ← Nat.add_assoc, ← Nat.add_assoc, ← hcreated, ← hdestroyed]
  · rw [h'.calls, h.calls, List.append_assoc]

/-- A call on a client neither creates nor destroys any. -/
theorem Tally.use {α : Type} {a : Answer Memory α} (h : a.world.counts = w.world.counts)
    (c : Client) : Tally w 0 [] (w.answer (.use c) a).world :=
  ⟨h, ruined_append _ _⟩

theorem Tally.create (setup : Setup) (w : Recorded Memory) :
    Tally w ((recordedStore setup).backend.create w).result.toOption.toList.length []
      ((recordedStore setup).backend.create w).world :=
  ⟨Memory.create_counts w.world, ruined_append _ _⟩

theorem Tally.destroy (setup : Setup) (c : Client) (w : Recorded Memory) :
    Tally w 0 [c] ((recordedStore setup).backend.destroy c w).world :=
  ⟨Memory.destroy_counts w.world, ruined_append _ _⟩

theorem prompt_recorded (setup : Setup) : (recordedStore setup).Prompt where
  create w := by
    show w.world.create.delay = 0
    unfold Memory.create
    split
    · rfl
    · rfl
  destroy _ _ := rfl

/-- Whatever a task does with its client, no client is created or destroyed meanwhile. -/
theorem Works.tally {visited : List Entry} {phase : Phase (Client × Memory.Writer)}
    {k : Work (Recorded Memory) (Client × Memory.Writer)}
    (h : Works (recordedStore setup) c w visited phase k) : Tally w 0 [] k.world := by
  cases h with
  | openReader ha | look ha | measure ha =>
    subst ha
    exact .use (Memory.call_counts (Memory.look_counts _ _) _ _ _) c
  | openWriter ha | ask _ ha =>
    subst ha
    exact .use (Memory.call_counts (fun _ => rfl) _ _ _) c
  | delete ha =>
    subst ha
    exact .use (Memory.call_counts (Memory.delete_counts _) _ _ _) c
  | copy ha =>
    subst ha
    exact .use (Memory.call_counts (Memory.copy_counts _ _) _ _ _) c
  | flush _ ha =>
    subst ha
    exact .use rfl _
  | write _ ha =>
    cases ha
    exact .use rfl _
  | finish ha =>
    cases ha
    exact .use (Memory.finish_counts _ _) _
  | _ => exact .refl w

/-! ## Steps -/

section Turn

variable {m m' : Machine (Recorded Memory) (Client × Memory.Writer)} {id : TaskId}
  {task : Task (Client × Memory.Writer)} {n : Next (Recorded Memory) (Client × Memory.Writer)}
  {g : Goal} {t : Ticket} {p : Pool} {progress : Pool.Progress} {e : Event}

/-- The number of clients that were created for a task in a phase and that the pool does not know
yet. -/
def Phase.pending {Writer : Type} : Phase Writer → Nat
  | created _ reply => reply.toOption.toList.length
  | _ => 0

theorem Phase.pending_of_stage {Writer : Type} {phase : Phase Writer}
    (h : phase.stage ≠ .creating) : phase.pending = 0 := by
  cases phase with
  | created g reply => exact absurd rfl h
  | _ => rfl

/-- Nothing is created for who may have to wait. -/
theorem Phase.pending_of_pauses {Writer : Type} {phase : Phase Writer} (h : phase.pauses = true) :
    phase.pending = 0 := by
  cases phase with
  | created g reply => cases h
  | _ => rfl

/-- Who may have to wait, and has to do with the pool, stands in line or has a client. -/
theorem Phase.stage_of_pauses {Writer : Type} {phase : Phase Writer} (h : phase.pauses = true)
    (hs : phase.stage ≠ .apart) : phase.stage = .inLine ∨ phase.stage = .holding := by
  cases phase with
  | line g => exact Or.inl rfl
  | start r | draining rest data => exact absurd rfl hs
  | _ => first | exact Or.inr rfl | cases h

/-- With the answer to its creation a task enters the client in the accounts of the pool. -/
theorem Asks.accounts_eq (h : Asks (recordedStore setup) m task g t p progress)
    (hsound : task.Sound m.pool) :
    Pool.Accounts m.pool task.phase.pending progress.ruined p := by
  cases h with
  | request hphase _ hreq =>
    have haccounts := Pool.request_accounts (Machine.isValid (recordedStore setup) m) m.now m.pool
    rw [hreq] at haccounts
    rw [hphase]
    exact haccounts
  | proceed hphase _ hproceed _ =>
    have haccounts := Pool.proceed_accounts (Machine.isValid (recordedStore setup) m) m.now t m.pool
    rw [hproceed] at haccounts
    rw [hphase]
    exact haccounts
  | rejected hphase _ hrejected =>
    have haccounts := Pool.rejected_accounts (Machine.isValid (recordedStore setup) m) t m.pool
    rw [hrejected] at haccounts
    rw [hphase]
    exact haccounts
  | @created reply hphase ht hcreated =>
    obtain ⟨x, hx, hstands⟩ := hsound.party_of_ticket ht
    rw [hphase] at hstands ⊢
    generalize task.client = client at hstands
    cases hstands with
    | creating =>
      have haccounts := Pool.created_accounts hx reply
      rw [hcreated] at haccounts
      exact haccounts

/-- The calls of an acquisition. -/
theorem Acquires.tally (h : Acquires (recordedStore setup) m task g t p progress n) :
    Tally m.world n.task.phase.pending progress.ruined n.world ∧ n.pool = p ∧
      n.direct = m.direct := by
  cases h with
  | refuse | queue _ | lend => exact ⟨.refl _, rfl, rfl⟩
  | reject ha _ =>
    subst ha
    exact ⟨.destroy setup _ _, rfl, rfl⟩
  | create ha _ =>
    subst ha
    exact ⟨.create setup _, rfl, rfl⟩

/-- **A step is accounted for.** A client that is created for a task is entered with its next step;
those that are destroyed are entered at once, but for the one outside of the pool. -/
theorem Turn.tally (h : Turn (recordedStore setup) m task n) (hsound : task.Sound m.pool) :
    ∃ cs cs', Pool.Accounts m.pool task.phase.pending cs n.pool ∧
      Tally m.world n.task.phase.pending cs' n.world ∧
      (cs' ++ n.direct.toList).Perm (cs ++ m.direct.toList) := by
  cases h with
  | acquire hasks hn =>
    obtain ⟨htally, rfl, hdirect⟩ := hn.tally
    exact ⟨_, _, hasks.accounts_eq hsound, htally, by rw [hdirect]⟩
  | @work t _ _ _ _ _ _ hw hn =>
    have hpending : task.phase.pending = 0 :=
      Phase.pending_of_stage (by rw [hw.stage_eq]; nofun)
    have htally := hw.tally
    rw [hpending]
    cases hn with
    | keep _ =>
      have hpending' := Phase.pending_of_stage (by rw [hw.keeps.1]; nofun)
      exact ⟨[], [], .refl _, by rw [hpending']; exact htally, .refl _⟩
    | giveBack _ hp | giveLate _ hp =>
      have hpending' := Phase.pending_of_stage (by rw [hw.gives.1]; nofun)
      have haccounts := Pool.release_accounts t m.pool
      rw [hp] at haccounts
      exact ⟨[], [], haccounts, by rw [hpending']; exact htally, .refl _⟩
    | destroy hp ha _ =>
      -- the client of the task is destroyed with the same step, after the last call on it
      subst ha
      have haccounts := Pool.invalidate_accounts t m.pool
      rw [hp] at haccounts
      exact ⟨_, _, haccounts, htally.trans (.destroy setup _ _), .refl _⟩
  | deny hphase _ | apart hphase _ =>
    rw [hphase]
    exact ⟨[], [], .refl _, .refl _, .refl _⟩
  | drain hphase hdrains _ =>
    rw [hphase]
    cases hdrains with
    | read _ | pause _ | broken _ | finished _ => exact ⟨[], [], .refl _, .refl _, .refl _⟩
  | @invalidated t _ _ hphase _ =>
    rw [hphase]
    exact ⟨[], [], Pool.invalidated_accounts t m.pool, .refl _, .refl _⟩
  | disconnect hphase hdirect ha _ =>
    -- the client outside of the pool is no concern of the pool
    subst ha
    rw [hphase, hdirect]
    exact ⟨[], _, .refl _, .destroy setup _ _, .refl _⟩
  | shut hshuts hp =>
    have haccounts := Pool.close_accounts m.pool
    rw [hp] at haccounts
    rw [Phase.pending_of_stage (by rw [hshuts.stage]; nofun)]
    exact ⟨[], [], haccounts, .refl _, .refl _⟩
  | drainPool hshuts hp ha _ =>
    subst ha
    have haccounts := Pool.close_accounts m.pool
    rw [hp] at haccounts
    rw [Phase.pending_of_stage (by rw [hshuts.stage]; nofun)]
    exact ⟨_, _, haccounts, .destroy setup _ _, .refl _⟩
  | @closeNext _ _ t _ _ _ _ hphase _ hp ha _ =>
    subst ha
    have haccounts := Pool.closedOne_accounts t m.pool
    rw [hp] at haccounts
    rw [hphase]
    exact ⟨_, _, haccounts, .destroy setup _ _, .refl _⟩
  | @closeLast _ _ t _ hphase _ hp =>
    have haccounts := Pool.closedOne_accounts t m.pool
    rw [hp] at haccounts
    rw [hphase]
    exact ⟨_, _, haccounts, .refl _, .refl _⟩
  | @startDestroy t _ _ _ _ hphase _ _ hp ha _ =>
    subst ha
    have haccounts := Pool.startDestroy_accounts t m.pool
    rw [hp] at haccounts
    rw [hphase]
    exact ⟨_, _, haccounts, .destroy setup _ _, .refl _⟩
  | @destroyed t _ hphase _ =>
    rw [hphase]
    exact ⟨[], [], Pool.destroyed_accounts t m.pool, .refl _, .refl _⟩

/-- Who is cancelled where it may have to wait loses no client. -/
theorem Cut.tally {world : Recorded Memory} {left : Option Ticket}
    (h : Cut (recordedStore setup) m task p world left) (hsound : task.Sound m.pool)
    (hpauses : task.phase.pauses = true) :
    Pool.Accounts m.pool 0 [] p ∧ world.world = m.world.world ∧ world.calls = m.world.calls := by
  cases h with
  | apart _ => exact ⟨.refl _, rfl, rfl⟩
  | @cancel t x ht hx hb =>
    refine ⟨Pool.cancel_accounts hx ?_, rfl, rfl⟩
    have hstage : task.phase.stage ≠ .apart := by
      intro hs
      rw [(hsound.eq_none hs).1] at ht
      cases ht
    obtain ⟨x', hx', hstands⟩ := hsound.party_of_ticket ht
    rw [hx] at hx'
    cases hx'
    -- of those who may have to wait, only who stands in line has a party and no client
    have hwaits := Phase.stage_of_pauses hpauses hstage
    generalize task.phase.stage = stage at hstands hwaits
    generalize task.client = client at hstands
    cases hstands with
    | waiting d => exact Or.inr ⟨d, rfl⟩
    | granted => exact Or.inl rfl
    | holding c => cases hb
    | _ => rcases hwaits with h | h <;> cases h
  | @drop t _ _ _ _ _ _ hp hworld =>
    have haccounts := Pool.drop_accounts t m.pool
    rw [hp] at haccounts
    refine ⟨haccounts, ?_⟩
    rcases hworld with rfl | ⟨writer, rfl⟩
    · exact ⟨rfl, rfl⟩
    · exact ⟨rfl, rfl⟩

end Turn

/-! ## Books -/

namespace Machine

section Owed

variable {World Writer : Type} {m m' : Machine World Writer} {id : TaskId} {task : Task Writer}
  {bound : Nat}

/-- The number of clients that were created for a task and that the pool does not know yet. -/
def owed (m : Machine World Writer) (id : TaskId) : Nat := (m.task? id).elim 0 (·.phase.pending)

/-- The same for all tasks with numbers below a bound. -/
def pending (m : Machine World Writer) (bound : Nat) : Nat := (Finset.range bound).sum m.owed

theorem pending_eq_zero (h : ∀ id, m.owed id = 0) (bound : Nat) : m.pending bound = 0 :=
  Finset.sum_eq_zero fun id _ => h id

theorem pending_congr (h : ∀ id, m'.owed id = m.owed id) (bound : Nat) :
    m'.pending bound = m.pending bound :=
  Finset.sum_congr rfl fun id _ => h id

theorem owed_eq_pending (htask : m.task? id = some task) : m.owed id = task.phase.pending := by
  rw [owed, htask]
  rfl

/-- Nothing is owed to who has returned. -/
theorem owed_of_over (h : m.Over id) : m.owed id = 0 := by
  rw [owed]
  cases htask : m.task? id with
  | none => rfl
  | some task =>
    have hreturned := h task htask
    unfold Task.returned? at hreturned
    show task.phase.pending = 0
    cases hphase : task.phase with
    | created g reply =>
      rw [hphase] at hreturned
      cases hreturned
    | _ => rfl

/-- What changes is what one task is owed. -/
theorem pending_of_others (hid : id < bound) (h : ∀ id', id' ≠ id → m'.owed id' = m.owed id') :
    m'.pending bound + m.owed id = m.pending bound + m'.owed id := by
  have hmem := Finset.mem_range.2 hid
  have hrest : ((Finset.range bound).erase id).sum m'.owed =
      ((Finset.range bound).erase id).sum m.owed :=
    Finset.sum_congr rfl fun id' hid' => h id' (Finset.ne_of_mem_erase hid')
  rw [pending, pending, ← Finset.sum_erase_add _ m'.owed hmem, ← Finset.sum_erase_add _ m.owed hmem,
    hrest, Nat.add_right_comm]

end Owed

end Machine

section Books

variable {m m' : Machine (Recorded Memory) (Client × Memory.Writer)} {id : TaskId}
  {task : Task (Client × Memory.Writer)} {e : Event} {w : Memory} {p : Pool}

/-- Nobody else is owed more or less when one task makes a step or is cancelled. -/
theorem Orderly.owed_eq {World Writer : Type} {env : Env World Writer} {m m' : Machine World Writer}
    (ho : Orderly m) (hh : Happens env m e m') (hstep : e ≠ .step id) (hcancel : e ≠ .cancel id) :
    m'.owed id = m.owed id := by
  cases htask : m.task? id with
  | some task => rw [Machine.owed, Machine.owed, (ho.untouched hh htask hstep hcancel).1, htask]
  | none =>
    rw [Machine.owed, Machine.owed, htask]
    cases htask' : m'.task? id with
    | none => rfl
    | some task' =>
      -- a new task has begun nothing
      rcases hh.task? htask' with hold | ⟨-, -, he, -⟩ | ⟨-, ⟨r, -, rfl⟩ | ⟨t, rfl⟩⟩
      · rw [htask] at hold
        cases hold
      · exact absurd he hstep
      · rfl
      · rfl

/-- The books of a storage that has begun with a pool over a store: what the pool knows of, with the
client outside of it and those that it does not know yet, is what the store has counted. -/
structure Books (w : Memory) (p : Pool) (made : Nat) (cs : List Client)
    (m : Machine (Recorded Memory) (Client × Memory.Writer)) : Prop where
  accounts : Pool.Accounts p made cs m.pool
  calls : (ruined m.world.calls ++ m.direct.toList).Perm (directClient :: cs)
  destroyed : m.world.world.destroyed = w.destroyed + (ruined m.world.calls).length
  created : ∀ bound, m.nextTask ≤ bound →
    m.world.world.created = w.created + 1 + made + m.pending bound

/-- What a step destroys is entered at once; what it creates is owed to the task first. -/
theorem Books.turn {n : Next (Recorded Memory) (Client × Memory.Writer)} (h : Books w p made cs m)
    (ho : Orderly m) (htask : m.task? id = some task) (hturn : Turn (recordedStore setup) m task n)
    (hm' : m'.bare = (m.follow id n).bare) (hnext : m.nextTask ≤ m'.nextTask)
    (hothers : ∀ id', id' ≠ id → m'.owed id' = m.owed id') : ∃ made cs, Books w p made cs m' := by
  obtain ⟨cs₁, cs₂, haccounts, htally, hperm⟩ := hturn.tally (ho.sound id task htask)
  obtain ⟨hcreated, hdestroyed⟩ := Prod.mk.inj htally.counts
  have hworld := Machine.world_of_follow hm'
  refine ⟨made + task.phase.pending, cs ++ cs₁, ?_, ?_, ?_, fun bound hbound => ?_⟩
  · rw [Machine.pool_of_follow hm']
    exact (h.accounts.trans haccounts).hear _
  · -- what was called for and what was entered differ by the client outside of the pool
    rw [hworld, Machine.direct_of_follow hm', htally.calls, List.append_assoc]
    calc List.Perm (ruined m.world.calls ++ (cs₂ ++ n.direct.toList))
          (ruined m.world.calls ++ (cs₁ ++ m.direct.toList)) := hperm.append_left _
      List.Perm _ (ruined m.world.calls ++ (m.direct.toList ++ cs₁)) :=
        List.perm_append_comm.append_left _
      List.Perm _ (directClient :: (cs ++ cs₁)) := by
        rw [← List.append_assoc]
        exact h.calls.append_right cs₁
  · rw [hworld, hdestroyed, htally.calls, h.destroyed, List.length_append, Nat.add_assoc]
  · -- what was owed is entered, and what is created is owed
    have hid := Nat.lt_of_lt_of_le (ho.lt_nextTask htask) (Nat.le_trans hnext hbound)
    have hpending := Machine.pending_of_others hid hothers
    rw [Machine.owed_eq_pending htask,
      Machine.owed_eq_pending (Machine.task?_of_follow hm' htask)] at hpending
    have hbefore := h.created bound (Nat.le_trans hnext hbound)
    rw [hworld, hcreated]
    omega

/-- Nothing is entered for who is cancelled where it may have to wait. -/
theorem Books.cut {q : Pool} {world : Recorded Memory} {left : Option Ticket}
    (h : Books w p made cs m) (ho : Orderly m) (htask : m.task? id = some task)
    (hpauses : task.phase.pauses = true) (hcut : Cut (recordedStore setup) m task q world left)
    (hm' : m'.bare = (m.without id q world left).bare) (hnext : m.nextTask ≤ m'.nextTask)
    (hothers : ∀ id', id' ≠ id → m'.owed id' = m.owed id') : Books w p made cs m' := by
  obtain ⟨haccounts, hstore, hcalls⟩ := hcut.tally (ho.sound id task htask) hpauses
  have hworld := Machine.world_of_without hm'
  refine ⟨?_, ?_, ?_, fun bound hbound => ?_⟩
  · have hboth := (h.accounts.trans haccounts).hear m'.pool.called
    rw [List.append_nil] at hboth
    rw [Machine.pool_of_without hm']
    exact hboth
  · rw [hworld, Machine.direct_of_without hm', hcalls]
    exact h.calls
  · rw [hworld, hstore, hcalls]
    exact h.destroyed
  · have hpending : m'.pending bound = m.pending bound := by
      refine Machine.pending_congr (fun id' => ?_) bound
      by_cases hid : id' = id
      · rw [hid, Machine.owed_eq_pending htask, Phase.pending_of_pauses hpauses, Machine.owed,
          ho.task?_cancel htask hm']
        rfl
      · exact hothers id' hid
    rw [hworld, hstore, hpending]
    exact h.created bound (Nat.le_trans hnext hbound)

/-- **The books balance after each event.** -/
theorem Books.happens (h : Books w p made cs m) (ho : Orderly m)
    (hprompt : ∀ id task, m.task? id = some task → task.Prompt)
    (hcancel : ∀ id task, e = .cancel id → m.task? id = some task → task.isSuspended = true)
    (hh : Happens (recordedStore setup) m e m') : ∃ made cs, Books w p made cs m' := by
  have hnext := hh.nextTask_le
  have hothers : ∀ id, e ≠ .step id → e ≠ .cancel id → m'.owed id = m.owed id :=
    fun _ => ho.owed_eq hh
  cases hh with
  | @turn id task n _ htask hturn hm' =>
    exact h.turn ho htask hturn hm' hnext fun id' hne =>
      hothers id' (fun he => hne (Event.step.inj he).symm) nofun
  | @cut id task q world left _ htask _ hcut hm' =>
    have hpauses := (hprompt id task htask).pauses (hcancel id task rfl htask)
    exact ⟨made, cs, h.cut ho htask hpauses hcut hm' hnext fun id' hne =>
      hothers id' nofun fun he => hne (Event.cancel.inj he).symm⟩
  | still _ | spared _ => exact ⟨made, cs, h⟩
  | request r =>
    refine ⟨made, cs, h.accounts, h.calls, h.destroyed, fun bound hbound => ?_⟩
    rw [Machine.pending_congr (fun id => hothers id nofun nofun)]
    exact h.created bound (Nat.le_trans hnext hbound)
  | pass ms => exact ⟨made, cs, h.accounts, h.calls, h.destroyed, h.created⟩

/-! ## A storage with its books -/

variable {x : Occurrence} {os : List Occurrence} {maxSize : Nat} {wait : Option Nat}

/-- A storage over a store at some moment, with books that balance. -/
structure Balanced (w : Memory) (p : Pool) (m : Machine (Recorded Memory) (Client × Memory.Writer)) :
    Prop where
  orderly : Orderly m
  prompt : ∀ id task, m.task? id = some task → task.Prompt
  owned : m.Owned
  books : ∃ made cs, Books w p made cs m

theorem Balanced.of_connect {kind : String} {c : Config}
    (h : connect kind (recorded Memory.backend) c ⟨w, []⟩ = .ok m) : Balanced w m.pool m := by
  obtain ⟨-, hpool, hcreate, hworld, -, hnext⟩ := connect_eq_ok h
  have hnone := task?_of_connect h
  have htally := Tally.create (.ofConfig kind c) ⟨w, []⟩
  have hcreate' : ((recordedStore (.ofConfig kind c)).backend.create ⟨w, []⟩).result = .ok () :=
    hcreate
  rw [hcreate'] at htally
  obtain ⟨hcreated, hdestroyed⟩ := Prod.mk.inj htally.counts
  refine ⟨.of_connect h, ?_, ?_, 0, [], .refl _, ?_, ?_, ?_⟩
  · intro id task htask
    rw [hnone] at htask
    cases htask
  · intro t ht
    rw [Pool.eq_of_new hpool] at ht
    exact absurd rfl ht
  · rw [hworld, direct_of_connect h]
    exact htally.calls ▸ .refl _
  · rw [hworld]
    exact htally.calls ▸ hdestroyed
  · intro bound _
    rw [hworld, Machine.pending_eq_zero fun id => by rw [Machine.owed, hnone]; rfl]
    exact hcreated

theorem Balanced.occur (h : Balanced w p m)
    (hx : ∀ e, x = .event e → ∀ r, e = .request r → r.isOperation = true)
    (hcancel : ∀ id task, x = .event (.cancel id) → m.task? id = some task →
      task.isSuspended = true) :
    Balanced w p (m.occur (.recorded setup) x) := by
  obtain ⟨ho, hprompt, howned, made, cs, hbooks⟩ := h
  refine ⟨ho.occur hx, ?_, ?_, ?_⟩
  · intro id task htask
    rcases ho.of_task?_occur htask with
      hold | ⟨task₀, n, -, -, hturn, rfl, -⟩ | ⟨-, ⟨r, -, rfl⟩ | ⟨t, rfl⟩⟩
    · exact hprompt id task hold
    · exact hturn.prompt (prompt_recorded setup)
    · exact Or.inr rfl
    · exact Or.inl rfl
  · cases x with
    | deed d => exact howned
    | event e => exact howned.happens ho (ho.happens (recordedStore setup) e)
  · cases x with
    | deed d =>
      obtain ⟨hcreated, hdestroyed⟩ := Prod.mk.inj (d.apply_counts m.world.world)
      refine ⟨made, cs, hbooks.accounts, hbooks.calls, ?_, fun bound hbound => ?_⟩
      · exact hdestroyed.trans hbooks.destroyed
      · exact hcreated.trans (hbooks.created bound hbound)
    | event e =>
      exact hbooks.happens ho hprompt (fun id task he => hcancel id task (he ▸ rfl))
        (ho.happens (recordedStore setup) e)

/-- **The books balance at every moment.** -/
theorem Balanced.after (h : Balanced w p m) (hops : Machine.Operates os)
    (hcancels : m.CancelsWaiting (.recorded setup) os) :
    Balanced w p (m.after (.recorded setup) os) := by
  induction os using List.reverseRecOn with
  | nil => exact h
  | append_singleton os x ih =>
    rw [Machine.after_concat]
    have hmore := List.prefix_append os [x]
    refine (ih (hops.of_prefix hmore) (hcancels.of_prefix hmore)).occur hops.last ?_
    exact fun id task hx htask => hcancels.last hx htask

/-- The client outside of the pool is destroyed when it is not there any more, and only then. -/
theorem Books.count_direct {made : Nat} {cs : List Client} (h : Books w p made cs m)
    (hnew : Pool.new maxSize wait (directClient + 1) = .ok p) :
    m.world.calls.count (.destroy directClient) + m.direct.toList.count directClient = 1 := by
  have hcount := h.calls.count_eq directClient
  -- the pool has no client with its number
  have hnone : cs.count directClient = 0 := by
    refine List.count_eq_zero.2 fun hc => ?_
    have hmade := (Pool.mem_made.1 (h.accounts.mem_made hnew hc)).1
    exact Nat.not_succ_le_self _ hmade
  rw [List.count_append, count_ruined, List.count_cons_self, hnone] at hcount
  exact hcount

/-- **Nothing is left.** When the client outside of the pool was taken, the pool is closed and all
tasks are over, every client was destroyed, once. -/
theorem Balanced.settled (h : Balanced w p m)
    (hnew : Pool.new maxSize wait (directClient + 1) = .ok p) (hdirect : m.direct = none)
    (hclosed : m.pool.closed = true) (hover : ∀ id, m.Over id) :
    m.pool.live = 0 ∧
      (∀ c, directClient ≤ c → c < m.pool.nextClient → m.world.calls.count (.destroy c) = 1) ∧
      m.world.world.destroyed + w.created = m.world.world.created + w.destroyed := by
  obtain ⟨made, cs, hbooks⟩ := h.books
  -- no party is left, and nobody is idle
  have hparties := h.orderly.parties_eq_nil h.owned hover
  have hidle := hbooks.accounts.idle_of_closed hnew hclosed
  obtain ⟨hperm, hlive⟩ := hbooks.accounts.perm_made hnew hidle hparties
  have hcalls := hbooks.calls
  rw [hdirect, Option.toList_none, List.append_nil] at hcalls
  have hall := hcalls.trans (hperm.cons directClient)
  refine ⟨hlive, fun c hc hlt => ?_, ?_⟩
  · rw [← count_ruined, hall.count_eq]
    refine List.count_eq_one_of_mem (List.nodup_cons.2 ⟨?_, Pool.nodup_made _ _⟩) ?_
    · exact fun hmem => Nat.not_succ_le_self _ (Pool.mem_made.1 hmem).1
    · rcases Nat.eq_or_lt_of_le hc with rfl | hc
      · exact List.mem_cons_self
      · exact List.mem_cons_of_mem _ (Pool.mem_made.2 ⟨hc, hlt⟩)
  · have hcreated := hbooks.created m.nextTask (Nat.le_refl _)
    have hdestroyed := hbooks.destroyed
    have hnext := hbooks.accounts.next
    have hlength := hall.length_eq
    rw [Machine.pending_eq_zero fun id => Machine.owed_of_over (hover id)] at hcreated
    rw [Pool.eq_of_new hnew] at hnext
    simp only at hnext
    rw [List.length_cons, Pool.made, List.length_range', hnext] at hlength
    omega

end Books

end Storage

end Depot
