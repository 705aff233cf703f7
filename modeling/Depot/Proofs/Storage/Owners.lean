import Depot.Proofs.Storage.Shared

/-!
# Parties and their tasks

In an orderly storage every task that needs a party has one. The converse is shown here: every party
of the pool is that of a task, which goes on for it (`Machine.Owned`). So when all tasks are over, no
party is left (`Orderly.parties_eq_nil`). Where clients are created and destroyed without delay, a
task never stands still meanwhile (`Task.Prompt`), so that nobody is cancelled there.
-/

set_option autoImplicit false

namespace Depot.Storage

variable {World Writer : Type} {env : Env World Writer} {m m' : Machine World Writer}
  {id : TaskId} {task : Task Writer} {n : Next World Writer} {g : Goal} {t s : Ticket} {p : Pool}
  {progress : Pool.Progress} {e : Event}

/-! ## Owners -/

/-- Every party is that of a task. -/
def Machine.Owned (m : Machine World Writer) : Prop :=
  ∀ t, m.pool.party? t ≠ none → ∃ id task, m.task? id = some task ∧ task.ticket = some t

/-- Nobody comes with a step of an acquisition but its own party. -/
theorem Asks.party?_none (h : Asks env m task g t p progress) (hne : s ≠ t)
    (hs : m.pool.party? s = none) : p.party? s = none := by
  cases h with
  | request _ _ hreq =>
    have hnext := Pool.request_ticket (Machine.isValid env m) m.now m.pool
    rw [hreq] at hnext
    have hnone := Pool.request_none hs (hnext ▸ hne) (Machine.isValid env m) m.now
    rwa [hreq] at hnone
  | proceed _ _ hproceed _ =>
    have hadvances := Pool.proceed_advances (Machine.isValid env m) m.now t m.pool
    rw [hproceed] at hadvances
    exact hadvances.party?_none hs
  | rejected _ _ hrejected =>
    have hadvances := Pool.rejected_advances (Machine.isValid env m) t m.pool
    rw [hrejected] at hadvances
    exact hadvances.party?_none hs
  | @created reply _ _ hcreated =>
    have hadvances := Pool.created_advances t reply m.pool
    rw [hcreated] at hadvances
    exact hadvances.party?_none hs

/-- Whose acquisition fails has no party any more. -/
theorem Asks.gone {error : StoreError} (h : Asks env m task g t p (.failed error))
    (hpool : m.pool.Tidy) : p.party? t = none := by
  cases h with
  | request _ _ hreq =>
    have hnext := Pool.request_ticket (Machine.isValid env m) m.now m.pool
    have hgone := Pool.request_failed hpool.table (congrArg (·.2.2) hreq)
    rw [hreq] at hnext hgone
    obtain rfl : t = m.pool.nextTicket := hnext
    exact hgone
  | proceed _ _ hproceed _ =>
    have hgone := Pool.proceed_failed (congrArg (·.2) hproceed)
    rwa [hproceed] at hgone
  | rejected _ _ hrejected => exact absurd (congrArg (·.2) hrejected) Pool.rejected_ne_failed
  | created _ _ hcreated =>
    have hgone := Pool.created_failed (congrArg (·.2) hcreated)
    rwa [hcreated] at hgone

/-- What a step leaves of the parties: one that is there is that of the task, is left to destroy a
client, or is another one that was there before. -/
def Next.Accounts (m : Machine World Writer) (task : Task Writer) (n : Next World Writer) : Prop :=
  ∀ s, n.pool.party? s ≠ none →
    n.task.ticket = some s ∨ n.left = some s ∨ task.ticket ≠ some s ∧ m.pool.party? s ≠ none

/-- A task that keeps its party, while nobody comes. -/
theorem Next.accounts_of_same (ht : n.task.ticket = task.ticket)
    (hnone : ∀ s, m.pool.party? s = none → n.pool.party? s = none) : n.Accounts m task := by
  intro s hs
  by_cases hts : task.ticket = some s
  · exact Or.inl (ht.trans hts)
  · exact Or.inr (Or.inr ⟨hts, fun h => hs (hnone s h)⟩)

/-- A task that leaves its party, which is gone. -/
theorem Next.accounts_of_gone (ht : task.ticket = some t) (hgone : n.pool.party? t = none)
    (hnone : ∀ s, m.pool.party? s = none → n.pool.party? s = none) : n.Accounts m task := by
  intro s hs
  refine Or.inr (Or.inr ⟨fun hts => ?_, fun h => hs (hnone s h)⟩)
  rw [ht] at hts
  cases hts
  exact hs hgone

theorem Asks.accounts (h : Asks env m task g t p progress) (hsound : task.Sound m.pool)
    (hpool : m.pool.Tidy) (hn : Acquires env m task g t p progress n) : n.Accounts m task := by
  -- the ticket is the task's own, or new
  have hticket : ∀ s, s ≠ t → task.ticket ≠ some s := by
    intro s hne hts
    cases h with
    | request hphase _ _ =>
      rw [(hsound.eq_none (by rw [hphase]; rfl)).1] at hts
      cases hts
    | proceed _ ht _ _ | rejected _ ht _ | created _ ht _ =>
      rw [ht] at hts
      cases hts
      exact hne rfl
  have hothers : ∀ s, s ≠ t → p.party? s ≠ none → task.ticket ≠ some s ∧ m.pool.party? s ≠ none :=
    fun s hne hs => ⟨hticket s hne, fun hnone => hs (h.party?_none hne hnone)⟩
  intro s hs
  by_cases hst : s = t
  · subst hst
    cases hn with
    | refuse => exact absurd (h.gone hpool) hs
    | _ => exact Or.inl rfl
  · cases hn with
    | _ => exact Or.inr (Or.inr (hothers s hst hs))

theorem Settles.accounts {c : Client} {k : Work World Writer} (ht : task.ticket = some t)
    (hx : m.pool.party? t = some (.holding c)) (hn : Settles env m task t c k n) :
    n.Accounts m task := by
  cases hn with
  | keep _ => exact Next.accounts_of_same rfl fun _ h => h
  | giveBack hopen hp =>
    have hadvances := Pool.release_advances t m.pool
    have hgone := Pool.release_gone hx hopen
    rw [hp] at hadvances hgone
    exact Next.accounts_of_gone ht hgone fun _ h => hadvances.party?_none h
  | giveLate _ hp =>
    have hadvances := Pool.release_advances t m.pool
    rw [hp] at hadvances
    intro s hs
    by_cases hst : s = t
    · exact Or.inr (Or.inl (hst ▸ rfl))
    · refine Or.inr (Or.inr ⟨?_, fun h => hs (hadvances.party?_none h)⟩)
      rw [ht]
      exact fun h => hst (Option.some.inj h).symm
  | destroy hp _ _ =>
    have hadvances := Pool.invalidate_advances t m.pool
    rw [hp] at hadvances
    exact Next.accounts_of_same ht.symm fun _ h => hadvances.party?_none h

/-- **No party is left alone by a step.** -/
theorem Turn.accounts (h : Turn env m task n) (hsound : task.Sound m.pool)
    (hpool : m.pool.Tidy) : n.Accounts m task := by
  cases h with
  | deny _ _ | drain _ _ _ | disconnect _ _ _ _ | apart _ _ =>
    exact Next.accounts_of_same rfl fun _ h => h
  | acquire hasks hn => exact hasks.accounts hsound hpool hn
  | work ht hx _ _ hn => exact hn.accounts ht hx
  | @invalidated t _ _ hphase ht =>
    obtain ⟨x, hx, hstands⟩ := hsound.party_of_ticket ht
    rw [hphase] at hstands
    have hadvances := Pool.invalidated_advances t m.pool
    refine Next.accounts_of_gone ht ?_ fun _ h => hadvances.party?_none h
    generalize task.client = client at hstands
    cases hstands with
    | invalidating c => exact Pool.invalidated_gone hx
  | shut hshuts hp =>
    -- without idle clients nobody is needed to destroy them
    exact Next.accounts_of_same rfl fun _ h => Pool.close_none_of_eq hp h
  | drainPool hshuts hp _ _ =>
    -- the closing party is the task's own from now on
    obtain ⟨rfl, -⟩ := Pool.party?_close hpool.table hp
    have hnone : ∀ s, s ≠ m.pool.nextTicket → m.pool.party? s = none → _ :=
      fun s hne hs => Pool.close_none hs hne
    rw [hp] at hnone
    intro s hs
    by_cases hst : s = m.pool.nextTicket
    · exact Or.inl (hst ▸ rfl)
    · refine Or.inr (Or.inr ⟨?_, fun h => hs (hnone s hst h)⟩)
      rw [(hsound.eq_none hshuts.stage).1]
      nofun
  | @closeNext _ _ t _ _ _ _ hphase ht hp _ _ =>
    have hadvances := Pool.closedOne_advances t m.pool
    rw [hp] at hadvances
    exact Next.accounts_of_same rfl fun _ h => hadvances.party?_none h
  | @closeLast _ _ t _ hphase ht hp =>
    obtain ⟨x, hx, hstands⟩ := hsound.party_of_ticket ht
    rw [hphase] at hstands
    have hadvances := Pool.closedOne_advances t m.pool
    rw [hp] at hadvances
    refine Next.accounts_of_gone ht ?_ fun _ h => hadvances.party?_none h
    generalize task.client = client at hstands
    cases hstands with
    | closing c rest => exact Pool.closedOne_gone hx hp
  | @startDestroy t _ _ _ _ _ ht _ hp _ _ =>
    have hadvances := Pool.startDestroy_advances t m.pool
    rw [hp] at hadvances
    exact Next.accounts_of_same rfl fun _ h => hadvances.party?_none h
  | @destroyed t _ hphase ht =>
    obtain ⟨x, hx, hstands⟩ := hsound.party_of_ticket ht
    rw [hphase] at hstands
    have hadvances := Pool.destroyed_advances t m.pool
    refine Next.accounts_of_gone ht ?_ fun _ h => hadvances.party?_none h
    generalize task.client = client at hstands
    cases hstands with
    | destroying c => exact Pool.destroyed_gone hx

/-- Only a task in the background has a party that destroys a client there. -/
theorem Stands.isBackground {x : Party} {client : Option Client}
    (h : Stands task.phase.stage x client) (hr : x.role = .background) :
    task.isBackground = true := by
  have hstage : task.phase.stage = .discarding ∨ task.phase.stage = .destroying := by
    generalize task.phase.stage = stage at h ⊢
    cases h with
    | discarding c => exact Or.inl rfl
    | destroying c => exact Or.inr rfl
    | _ => cases hr
  unfold Task.isBackground
  generalize task.phase = phase at hstage ⊢
  cases phase with
  | discard | discarded _ => rfl
  | _ => simp [Phase.stage] at hstage

/-- A cancellation leaves no party alone either. -/
theorem Cut.accounts {world : World} {left : Option Ticket} (h : Cut env m task p world left)
    (hsound : task.Sound m.pool) (hback : task.isBackground = false) (hs : p.party? s ≠ none) :
    left = some s ∨ task.ticket ≠ some s ∧ m.pool.party? s ≠ none := by
  cases h with
  | apart ht => exact Or.inr ⟨by rw [ht]; nofun, hs⟩
  | @cancel t x ht hx hb =>
    have hadvances := Pool.cancel_advances t m.pool
    have hgone : (m.pool.cancel t).party? t = none := by
      refine Pool.cancel_gone hx hb ?_
      -- who works in the background is spared
      obtain ⟨x', hx', hstands⟩ := hsound.party_of_ticket ht
      rw [hx] at hx'
      cases hx'
      intro hrole
      rw [hstands.isBackground hrole] at hback
      cases hback
    right
    constructor
    · rw [ht]
      rintro ⟨⟩
      exact hs hgone
    · exact fun hnone => hs (hadvances.party?_none hnone)
  | @drop t _ _ _ ht _ _ hp _ =>
    have hadvances := Pool.drop_advances t m.pool
    rw [hp] at hadvances
    by_cases hst : s = t
    · exact Or.inl (hst ▸ rfl)
    · refine Or.inr ⟨?_, fun hnone => hs (hadvances.party?_none hnone)⟩
      rw [ht]
      exact fun h => hst (Option.some.inj h).symm

/-- Parties keep their owners when one task goes on or is cancelled, if its own party is cared
for. -/
theorem Machine.Owned.of_others (h : m.Owned) (htask : m.task? id = some task)
    (hkept : ∀ id' task', id' ≠ id → m.task? id' = some task' → m'.task? id' = some task')
    (hparty : ∀ s, m'.pool.party? s ≠ none →
      (∃ id' task', m'.task? id' = some task' ∧ task'.ticket = some s) ∨
        task.ticket ≠ some s ∧ m.pool.party? s ≠ none) : m'.Owned := by
  intro s hs
  rcases hparty s hs with howner | ⟨hne, hold⟩
  · exact howner
  -- a party that was there before is that of a task that only looks on
  · obtain ⟨id', task', htask', ht'⟩ := h s hold
    have hid : id' ≠ id := by
      rintro rfl
      rw [htask] at htask'
      cases htask'
      exact hne ht'
    exact ⟨id', task', hkept id' task' hid htask', ht'⟩

/-- **Every party stays that of a task.** -/
theorem Machine.Owned.happens (h : m.Owned) (ho : Orderly m) (hh : Happens env m e m') :
    m'.Owned := by
  cases hh with
  | request r =>
    intro s hs
    obtain ⟨id, task, htask, ht⟩ := h s hs
    refine ⟨id, task, ?_, ht⟩
    rw [Machine.task?_add, htask]
    rfl
  | @turn id task n _ htask hturn hm' =>
    refine h.of_others htask (fun id' task' hid htask' => ?_) fun s hs => ?_
    · rw [Machine.task?_congr hm']
      exact Machine.task?_follow_of_ne hid htask' n
    · rw [Machine.pool_of_follow hm'] at hs
      rcases hturn.accounts (ho.sound id task htask) ho.pool s hs with hown | hleft | hother
      · exact Or.inl ⟨id, n.task, Machine.task?_of_follow hm' htask, hown⟩
      · have hne : m.nextTask ≠ id := Nat.ne_of_gt (ho.lt_nextTask htask)
        refine Or.inl ⟨m.nextTask, .ofDiscard Writer s, ?_, rfl⟩
        rw [Machine.task?_congr hm']
        exact Machine.task?_follow_left hne (ho.fresh _ (Nat.le_refl _)) hleft
      · exact Or.inr hother
  | @cut id task p world left _ htask hback hcut hm' =>
    refine h.of_others htask (fun id' task' hid htask' => ?_) fun s hs => ?_
    · rw [Machine.task?_congr hm']
      exact Machine.task?_without_of_ne hid htask' p world left
    · rw [Machine.pool_of_without hm'] at hs
      rcases hcut.accounts (ho.sound id task htask) hback hs with rfl | hother
      · refine Or.inl ⟨m.nextTask, .ofDiscard Writer s, ?_, rfl⟩
        rw [Machine.task?_congr hm']
        exact Machine.task?_without_left (ho.fresh _ (Nat.le_refl _)) p world s
      · exact Or.inr hother
  | still _ | spared _ => exact h
  | pass ms => exact h

/-- Without tasks that are under way there are no parties. -/
theorem Orderly.parties_eq_nil (ho : Orderly m) (h : m.Owned) (hover : ∀ id, m.Over id) :
    m.pool.parties = [] := by
  rw [List.eq_nil_iff_forall_not_mem]
  rintro ⟨t, x⟩ hmem
  have hx := (Pool.party?_eq_some_iff ho.pool.table.nodup).2 hmem
  obtain ⟨id, task, htask, ht⟩ := h t (by rw [hx]; nofun)
  -- who has returned has no party
  have hstage : task.phase.stage = .apart := by
    have hreturned := hover id task htask
    unfold Task.returned? at hreturned
    cases hphase : task.phase <;> rw [hphase] at hreturned <;> first | rfl | cases hreturned
  rw [((ho.sound id task htask).eq_none hstage).1] at ht
  cases ht

/-! ## Tasks that do not stand still -/

/-- Clients are created and destroyed without delay. -/
structure Env.Prompt (env : Env World Writer) : Prop where
  create : ∀ w, (env.backend.create w).delay = 0
  destroy : ∀ c w, (env.backend.destroy c w).delay = 0

/-- Whether a task in a phase may have to wait where clients are created and destroyed without
delay. -/
def Phase.pauses : Phase Writer → Bool
  | start _ => true
  | line _ => true
  | draining _ _ => true
  | phase => phase.stage = .holding

/-- A task goes on at once, or is in a phase in which it may have to wait. -/
def Task.Prompt (task : Task Writer) : Prop := task.alarm = none ∨ task.phase.pauses = true

theorem Phase.pauses_of_stage {phase : Phase Writer} (h : phase.stage = .holding) :
    phase.pauses = true := by
  cases phase <;> first | rfl | cases h

theorem Task.Prompt.pauses (h : task.Prompt) (hs : task.isSuspended = true) :
    task.phase.pauses = true := by
  rcases h with halarm | hpauses
  · unfold Task.isSuspended at hs
    rw [halarm] at hs
    cases hphase : task.phase <;> rw [hphase] at hs <;> first | rfl | cases hs
  · exact hpauses

theorem Turn.prompt (henv : env.Prompt) (h : Turn env m task n) : n.task.Prompt := by
  have hnone : ∀ {alarm : Option Alarm} {delay : Nat}, Rings alarm delay → delay = 0 →
      alarm = none := fun hrings hdelay => hrings.2 hdelay
  cases h with
  | acquire _ hn =>
    cases hn with
    | refuse | lend => exact Or.inl rfl
    | queue _ => exact Or.inr rfl
    -- a call on a client as a whole takes no time, so no alarm is set
    | reject ha hrings => exact Or.inl (hnone hrings (ha ▸ henv.destroy _ _))
    | create ha hrings => exact Or.inl (hnone hrings (ha ▸ henv.create _))
  | work _ _ _ hw hn =>
    cases hn with
    | keep _ => exact Or.inr (Phase.pauses_of_stage hw.keeps.1)
    | giveBack _ _ | giveLate _ _ => exact Or.inl rfl
    | destroy _ ha hrings => exact Or.inl (hnone hrings (ha ▸ henv.destroy _ _))
  | drain _ hdrains hrings =>
    cases hdrains with
    | read _ | pause _ => exact Or.inr rfl
    | broken _ | finished _ => exact Or.inl (hnone hrings rfl)
  | disconnect _ _ ha hrings | drainPool _ _ ha hrings | closeNext _ _ _ ha hrings
  | startDestroy _ _ _ _ ha hrings => exact Or.inl (hnone hrings (ha ▸ henv.destroy _ _))
  | deny _ _ | invalidated _ _ | apart _ _ | shut _ _ | closeLast _ _ _ | destroyed _ _ =>
    exact Or.inl rfl

end Depot.Storage
